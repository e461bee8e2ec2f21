-- Quiescing stops a driver. A slot counts the tokens of the driver that is in it, and
-- a driver that was quiesced is never active again, as long as a slot is given to the
-- next driver only when nobody is between counting and uncounting there. The code does
-- not see to that: a late pin of the old driver spoils the count of the new one.
import MiniKernel.Driver.Activity
import MiniKernel.Lib.Count
import MiniKernel.Lib.Store

open mini_kernel.lib mini_kernel.driver Function Option

namespace mini_kernel.driver_activity

/-! ## Where the parties are -/

/-- The party has raised `in_flight` and not lowered it yet. -/
def Pc.counted : Pc → Bool
  | .pin_category _ _ | .pin_state _ _ | .pin_recheck _ _ _ | .live_active _ (.pin _ _)
  | .live_generation _ (.pin _ _) | .drop_category _ _ | .drop_in_flight _ | .token _ _
  | .unpin_generation _ _ | .unpin_category _ _ | .unpin_in_flight _ => true
  | _ => false

/-- The driver of the party's active token. An unpin ends the activity when it lowers
`in_flight`; after that only its own flag is left to be cleared. -/
def Pc.active_token : Pc → Option DriverIdentity
  | .token d _ | .unpin_generation d _ | .unpin_category d _ | .unpin_in_flight d => some d
  | _ => none

/-- A pin or an unpin is in progress. -/
def Pc.pinning : Pc → Bool
  | .pin_generation _ _ | .pin_accepting _ _ | .pin_in_flight _ _ | .pin_category _ _
  | .pin_state _ _ | .pin_recheck _ _ _ | .live_active _ (.pin _ _)
  | .live_generation _ (.pin _ _) | .drop_category _ _ | .drop_in_flight _
  | .unpin_generation _ _ | .unpin_category _ _ | .unpin_in_flight _ | .unpin_active _ => true
  | _ => false

/-- An unregistration or an activation is in progress. -/
def Pc.changing : Pc → Bool
  | .clear_active _ | .clear_state _ | .clear_accepting _ | .activate_load _
  | .activate_generation _ _ | .activate_reload _ | .activate_slot _ _ | .activate_in_flight _
  | .activate_category _ _ | .activate_quarantined _ | .activate_accepting _
  | .activate_active _ | .activate_state _ => true
  | _ => false

/-- The two generations of the slot may differ. -/
def Pc.relabeling : Pc → Bool
  | .activate_reload _ | .activate_slot _ _ => true
  | _ => false

/-- The record has its new generation, but not its first state. -/
def Pc.replacing : Pc → Bool
  | .activate_reload _ | .activate_slot _ _ | .activate_in_flight _ | .activate_category _ _
  | .activate_quarantined _ | .activate_accepting _ | .activate_active _ | .activate_state _ => true
  | _ => false

/-- The party has counted itself and has since found the record active. -/
def Pc.proved : Pc → Bool
  | .live_generation _ (.pin _ _) | .token _ _ | .unpin_generation _ _ | .unpin_category _ _
  | .unpin_in_flight _ => true
  | _ => false

/-- The driver that `begin_quiesce` has found live. -/
def Pc.found : Pc → Option Nat
  | .begin_generation d | .begin_close d | .begin_state d | .live_active d (.set_state .quiesce)
  | .live_generation d (.set_state .quiesce) | .set_check d .quiesce | .set_store d .quiesce =>
    some d.generation
  | _ => none

/-- The driver of a wait that came after `begin_quiesce`. -/
def Pc.awaits : Pc → Option Nat
  | .live_active d (.wait_quiesced true _ _) | .live_generation d (.wait_quiesced true _ _)
  | .wait_spin d true _ | .wait_last d true => some d.generation
  | _ => none

/-- The driver for which a token is active, or may become so without another look at the
state. -/
def Pc.hopes : Pc → Option Nat
  | .pin_recheck d _ state | .live_active d (.pin _ state) | .live_generation d (.pin _ state) =>
    if pinnable state then some d.generation else none
  | .token d _ | .unpin_generation d _ | .unpin_category d _ | .unpin_in_flight d =>
    some d.generation
  | _ => none

/-! ## What a run must keep to -/

section
variable {n : Nat}

/-- Parties that are about slot `k`, as seen from there. -/
def Pc.at (k : Nat) (pc : Pc) : Pc := if pc.slot = some k then pc else .idle

/-- Nobody is counted at the slot. -/
def uncounted (s : State n) (k : Nat) : Bool := ∀ i, ((s.pc i).at k).counted = false

/-- Unregistrations and activations of one slot do not overlap. A slot gets its new
generation, and its counter is reset, while nobody is counted there. Neither the
generation nor the counter overflows. A state is stored only if its transition is still
legal. -/
def allowed (s : State n) : Label n → Bool
  | .unregister _ k | .activate _ k => ∀ i, ((s.pc i).at k).changing = false
  | .next i =>
    match s.pc i with
    | .pin_in_flight d _ => (s.slots d.slot).quiesce.in_flight ≠ 2 ^ 32 - 1
    | .activate_generation k generation => uncounted s k && generation ≠ 2 ^ 32 - 1
    | .activate_in_flight k => uncounted s k
    | .set_store d setter => legal_state_transition (s.slots d.slot).record.state setter.target
    | _ => true
  | _ => true

end

/-! ## The invariant of one slot -/

/-- The states that a quiesced driver can be in. -/
def settled : DriverState → Bool
  | .quiescing | .failed | .rejected | .empty => true
  | _ => false

/-- What an unregistration or activation relies on at its next operation. -/
def Stage (s : Slot) : Pc → Prop
  | .clear_accepting _ => s.record.state = .empty
  | .activate_generation _ g | .activate_slot _ g =>
    s.record.active = false ∧ s.record.state = .empty ∧ g = s.record.generation
  | .activate_load _ | .activate_reload _ | .activate_in_flight _ | .activate_category _ _
  | .activate_quarantined _ | .activate_accepting _ | .activate_active _ =>
    s.record.active = false ∧ s.record.state = .empty
  | .activate_state _ => s.record.active = true ∧ s.record.state = .empty
  | _ => True

section
variable {n : Nat}

/-- The driver of generation `g` is gone, or it is still there and cannot be pinned. -/
def Over (s : Slot) (pc : Fin n → Pc) (g : Nat) : Prop :=
  g < s.record.generation ∨
    (g = s.record.generation ∧ settled s.record.state ∧ ∀ j, (pc j).replacing = false)

/-- What holds of a slot and the parties there. `begun` and `stopped` are generations. -/
structure Inv (s : Slot) (pc : Fin n → Pc) (begun stopped : Nat → Prop) : Prop where
  count : s.quiesce.in_flight = countOf Pc.counted pc
  small : s.quiesce.in_flight < 2 ^ 32
  bound : s.record.generation < 2 ^ 32
  alone : ∀ i j, (pc i).changing → (pc j).changing → i = j
  stage : ∀ i, Stage s (pc i)
  cleared : s.record.active = false → (∀ i, (pc i).changing = false) → s.record.state = .empty
  names : (∀ i, (pc i).relabeling = false) → s.quiesce.generation = s.record.generation
  proved : ∀ i, (pc i).proved → ∀ j, (pc j).relabeling = false
  current : ∀ i d, (pc i).active_token = some d → s.record.generation = d.generation
  found : ∀ i g, (pc i).found = some g → g ≤ s.record.generation
  ended : ∀ g, begun g → Over s pc g
  awaits : ∀ i g, (pc i).awaits = some g → begun g
  stopped : ∀ g, stopped g → begun g ∧ (s.record.generation = g → ∀ i, (pc i).hopes ≠ some g)

variable {s s' : Slot} {pc : Fin n → Pc} {begun stopped : Nat → Prop} {i : Fin n} {p' : Pc} {g : Nat}
  {p : Pc} {target : DriverState}

theorem Pc.counted_of_proved (h : p.proved) : p.counted := by
  cases p <;> simp_all [Pc.proved, Pc.counted]
  split at h <;> simp_all

theorem Pc.counted_of_token {d : DriverIdentity} (h : p.active_token = some d) : p.counted := by
  cases p <;> simp_all [Pc.active_token, Pc.counted]

theorem Pc.counted_of_hopes (h : p.hopes = some g) : p.counted := by
  cases p <;> simp_all [Pc.hopes, Pc.counted]
  all_goals split at h <;> simp_all

theorem Pc.hopes_of_token {d : DriverIdentity} (h : p.active_token = some d) :
    p.hopes = some d.generation := by
  cases p <;> simp_all [Pc.active_token, Pc.hopes]

theorem Pc.changing_of_replacing (h : p.replacing) : p.changing := by
  cases p <;> simp_all [Pc.replacing, Pc.changing]

theorem Pc.replacing_of_relabeling (h : p.relabeling) : p.replacing := by
  cases p <;> simp_all [Pc.relabeling, Pc.replacing]

theorem stage_of_not_changing (h : p.changing = false) : Stage s p := by
  cases p <;> simp_all [Pc.changing, Stage]

/-! ## A party moves -/

theorem Over.le (h : Over s pc g) : g ≤ s.record.generation := by
  rcases h with h | h
  · exact h.le
  · exact h.1.le

/-- What nobody's move in the slot changes. -/
structure SameSlot (s s' : Slot) : Prop where
  record : s'.record = s.record
  generation : s'.quiesce.generation = s.quiesce.generation

theorem SameSlot.refl : SameSlot s s := ⟨rfl, rfl⟩

theorem same_in_flight (x : Nat) : SameSlot s (with_in_flight s x) := ⟨rfl, rfl⟩

theorem Stage.same (h : Stage s p) (hsame : SameSlot s s') : Stage s' p := by
  unfold Stage
  rw [hsame.record]
  exact h

/-- The facts that a party outside of the lifecycle calls needs at its next place. -/
structure Fits (s : Slot) (pc : Fin n → Pc) (begun stopped : Nat → Prop) (p' : Pc) : Prop where
  changing : p'.changing = false
  proved : p'.proved → ∀ j, (pc j).relabeling = false
  current : ∀ d, p'.active_token = some d → s.record.generation = d.generation
  found : ∀ g, p'.found = some g → g ≤ s.record.generation
  awaits : ∀ g, p'.awaits = some g → begun g
  stopped : ∀ g, p'.hopes = some g → stopped g → s.record.generation ≠ g

theorem replacing_of_not_changing (h : p.changing = false) : p.replacing = false :=
  eq_false_of_imp Pc.changing_of_replacing h

theorem relabeling_of_not_changing (h : p.changing = false) : p.relabeling = false :=
  eq_false_of_imp Pc.replacing_of_relabeling (replacing_of_not_changing h)

/-- A party that changes no lifecycle moves on. -/
theorem Inv.move (h : Inv s pc begun stopped) (hi : (pc i).changing = false)
    (hsame : SameSlot s s') (hsmall : s'.quiesce.in_flight < 2 ^ 32)
    (hcount : s'.quiesce.in_flight = countOf Pc.counted (update pc i p'))
    (hfits : Fits s pc begun stopped p') : Inv s' (update pc i p') begun stopped := by
  have hchanging := update_same Pc.changing (hfits.changing.trans hi.symm)
  have hrelabeling := update_same Pc.relabeling
    ((relabeling_of_not_changing hfits.changing).trans (relabeling_of_not_changing hi).symm)
  have hreplacing := update_same Pc.replacing
    ((replacing_of_not_changing hfits.changing).trans (replacing_of_not_changing hi).symm)
  have hstage : ∀ j, Stage s (update pc i p' j) := fun j =>
    update_cases j (fun _ => stage_of_not_changing hfits.changing) fun _ => h.stage j
  refine ⟨hcount, hsmall, ?_, ?_, fun j => (hstage j).same hsame, ?_, ?_, ?_, ?_, ?_, ?_, ?_, ?_⟩
  · rw [hsame.record]
    exact h.bound
  · intro j j'
    rw [hchanging, hchanging]
    exact h.alone j j'
  · simp only [hchanging, hsame.record]
    exact h.cleared
  · simp only [hrelabeling, hsame.record, hsame.generation]
    exact h.names
  · simp only [hrelabeling]
    exact fun j => update_cases j (fun _ => hfits.proved) fun _ => h.proved j
  · rw [hsame.record]
    exact fun j => update_cases j (fun _ => hfits.current) fun _ => h.current j
  · rw [hsame.record]
    exact fun j => update_cases j (fun _ => hfits.found) fun _ => h.found j
  · simp only [Over, hreplacing, hsame.record]
    exact h.ended
  · exact fun j => update_cases j (fun _ => hfits.awaits) fun _ => h.awaits j
  · intro g hg
    refine ⟨(h.stopped g hg).1, ?_⟩
    rw [hsame.record]
    intro heq j
    exact update_cases j (fun _ hh => hfits.stopped g hh hg heq) fun _ => (h.stopped g hg).2 heq j

/-- The counter is as it was, and so is whether the party is counted. -/
theorem Inv.move_uncounted (h : Inv s pc begun stopped) (hp : pc i = p) (hi : p.changing = false)
    (hsame : SameSlot s s') (hflight : s'.quiesce.in_flight = s.quiesce.in_flight)
    (hcounted : p'.counted = p.counted) (hfits : Fits s pc begun stopped p') :
    Inv s' (update pc i p') begun stopped := by
  subst hp
  refine h.move hi hsame (hflight ▸ h.small) ?_ hfits
  have hcount := countOf_update Pc.counted pc i p'
  rw [hcounted] at hcount
  rw [hflight, h.count]
  omega

/-- A place that needs none of these facts. -/
def Pc.bare (p : Pc) : Bool :=
  !p.changing && !p.proved && p.active_token.isNone && p.found.isNone && p.awaits.isNone &&
    p.hopes.isNone

theorem Fits.of_bare (h : p'.bare) : Fits s pc begun stopped p' := by
  simp only [Pc.bare, Bool.and_eq_true, Bool.not_eq_true', isNone_iff_eq_none] at h
  obtain ⟨⟨⟨⟨⟨hchanging, hproved⟩, htoken⟩, hfound⟩, hawaits⟩, hhopes⟩ := h
  refine ⟨hchanging, ?_, ?_, ?_, ?_, ?_⟩
  · simp [hproved]
  · simp [htoken]
  · simp [hfound]
  · simp [hawaits]
  · simp [hhopes]

/-- The party goes on to a bare place, and is counted there as it was before. -/
def Pc.passes (p p' : Pc) : Bool := !p.changing && p'.bare && p'.counted == p.counted

section
variable (h : Inv s pc begun stopped)
include h

theorem Inv.pass_same (hp : pc i = p) (hsame : SameSlot s s')
    (hflight : s'.quiesce.in_flight = s.quiesce.in_flight) (hpass : p.passes p') :
    Inv s' (update pc i p') begun stopped := by
  simp only [Pc.passes, Bool.and_eq_true, Bool.not_eq_true', beq_iff_eq] at hpass
  exact h.move_uncounted hp hpass.1.1 hsame hflight hpass.2 (.of_bare hpass.1.2)

theorem Inv.pass (hp : pc i = p) (hpass : p.passes p') : Inv s (update pc i p') begun stopped :=
  h.pass_same hp .refl rfl hpass

theorem Inv.begin (hover : Over s pc g) : Inv s pc (fun x => x = g ∨ begun x) stopped where
  __ := h
  ended := by
    rintro x (rfl | hx)
    · exact hover
    · exact h.ended x hx
  awaits j x hx := .inr (h.awaits j x hx)
  stopped x hx := ⟨.inr (h.stopped x hx).1, (h.stopped x hx).2⟩

/-- A wait that finds the counter at 0 has stopped the driver. -/
theorem Inv.stop (hbegun : begun g)
    (hzero : s.quiesce.in_flight = 0) : Inv s pc begun fun x => x = g ∨ stopped x where
  __ := h
  stopped := by
    rintro x (rfl | hx)
    · refine ⟨hbegun, ?_⟩
      intro _ j hj
      have hpos := countOf_pos (p := Pc.counted) (f := pc) (Pc.counted_of_hopes hj)
      rw [← h.count, hzero] at hpos
      exact absurd hpos (by decide)
    · exact h.stopped x hx

end

/-! ## The state of a record -/

theorem settled_of_legal {st : DriverState} (h : settled st)
    (hlegal : legal_state_transition st target) : settled target := by
  revert h hlegal
  cases st <;> cases target <;> decide

theorem empty_of_legal (hlegal : legal_state_transition .empty target) : target = .empty := by
  revert hlegal
  cases target <;> decide

theorem not_pinnable_of_settled {st : DriverState} (h : settled st) : pinnable st = false := by
  revert h
  cases st <;> decide

theorem Stage.with_state (h : Stage s p) (hlegal : legal_state_transition s.record.state target) :
    Stage (with_state s target) p := by
  have hempty : s.record.state = .empty → target = .empty := by
    intro he
    rw [he] at hlegal
    exact empty_of_legal hlegal
  cases p <;> simp_all [Stage, driver_activity.with_state]

/-- A legal change of the state. -/
theorem Inv.set_state (h : Inv s pc begun stopped)
    (hlegal : legal_state_transition s.record.state target) :
    Inv (with_state s target) pc begun stopped where
  __ := h
  stage j := (h.stage j).with_state hlegal
  cleared hactive hnone := by
    have hempty := h.cleared hactive hnone
    rw [hempty] at hlegal
    exact empty_of_legal hlegal
  ended x hx := by
    rcases h.ended x hx with hgone | ⟨heq, hset, hrep⟩
    · exact .inl hgone
    · exact .inr ⟨heq, settled_of_legal hset hlegal, hrep⟩

/-! ## Unregistration and activation -/

/-- The party is in no call, or in an unregistration or activation. -/
def Pc.Plain (p : Pc) : Prop := p.changing ∨ p = .idle

theorem Pc.Plain.counted (h : p.Plain) : p.counted = false := by
  rcases h with h | rfl
  · cases p <;> simp_all [Pc.changing, Pc.counted]
  · rfl

theorem Pc.Plain.fits (h : p.Plain) :
    p.proved = false ∧ p.active_token = none ∧ p.found = none ∧ p.awaits = none ∧ p.hopes = none := by
  rcases h with h | rfl
  · cases p <;> simp_all [Pc.changing, Pc.proved, Pc.active_token, Pc.found, Pc.awaits, Pc.hopes]
  · simp [Pc.proved, Pc.active_token, Pc.found, Pc.awaits, Pc.hopes]

/-- What the one party that changes the slot must see to. -/
structure Changes (s : Slot) (p : Pc) (s' : Slot) (p' : Pc) : Prop where
  stage : Stage s' p'
  cleared : p'.changing = false → s'.record.active = false → s'.record.state = .empty
  in_flight : s'.quiesce.in_flight = s.quiesce.in_flight
  generation : s'.record.generation = s.record.generation
  names : p'.relabeling = false → s'.quiesce.generation = s'.record.generation
  relabeling : p'.relabeling → p.relabeling
  replacing : p'.replacing → p.replacing
  stays_settled : p.replacing = false → settled s.record.state → settled s'.record.state

/-- The places of the others stay the same, and none of them changes the slot. -/
theorem Inv.alone_update (hothers : ∀ j ≠ i, (pc j).changing = false) {j : Fin n}
    (h : (update pc i p' j).changing) : j = i := by
  by_contra hj
  rw [update_of_ne hj, hothers j hj] at h
  cases h

theorem Inv.change (h : Inv s pc begun stopped) (hi : (pc i).Plain) (hp : p'.Plain)
    (hothers : ∀ j ≠ i, (pc j).changing = false) (hc : Changes s (pc i) s' p') :
    Inv s' (update pc i p') begun stopped := by
  obtain ⟨hproved, htoken, hfound, hawaits, hhopes⟩ := hp.fits
  have hcount : countOf Pc.counted (update pc i p') = countOf Pc.counted pc := by
    have := countOf_update Pc.counted pc i p'
    rw [hi.counted, hp.counted] at this
    omega
  have hstage : ∀ j, Stage s' (update pc i p' j) := fun j =>
    update_cases j (fun _ => hc.stage) fun hj => stage_of_not_changing (hothers j hj)
  refine ⟨?_, ?_, ?_, ?_, hstage, ?_, ?_, ?_, ?_, ?_, ?_, ?_, ?_⟩
  · rw [hcount, hc.in_flight, h.count]
  · rw [hc.in_flight]
    exact h.small
  · rw [hc.generation]
    exact h.bound
  · intro j j' hj hj'
    rw [Inv.alone_update hothers hj, Inv.alone_update hothers hj']
  · intro hactive hnone
    have hnow := hnone i
    rw [update_self] at hnow
    exact hc.cleared hnow hactive
  · intro hnone
    have hnow := hnone i
    rw [update_self] at hnow
    exact hc.names hnow
  · refine fun j => update_cases j (fun _ => by simp [hproved]) fun _ hj j' => ?_
    refine update_cases j' (fun _ => ?_) fun _ => h.proved j hj j'
    exact eq_false_of_imp hc.relabeling (h.proved j hj i)
  · rw [hc.generation]
    exact fun j => update_cases j (fun _ => by simp [htoken]) fun _ => h.current j
  · rw [hc.generation]
    exact fun j => update_cases j (fun _ => by simp [hfound]) fun _ => h.found j
  · intro x hx
    rcases h.ended x hx with hgone | ⟨heq, hset, hrep⟩
    · exact .inl (hc.generation ▸ hgone)
    · refine .inr ⟨hc.generation ▸ heq, hc.stays_settled (hrep i) hset, ?_⟩
      refine fun j => update_cases j (fun _ => ?_) fun _ => hrep j
      exact eq_false_of_imp hc.replacing (hrep i)
  · exact fun j => update_cases j (fun _ => by simp [hawaits]) fun _ => h.awaits j
  · intro x hx
    refine ⟨(h.stopped x hx).1, ?_⟩
    rw [hc.generation]
    intro heq j
    exact update_cases j (fun _ => by simp [hhopes]) fun _ => (h.stopped x hx).2 heq j

theorem Inv.others (h : Inv s pc begun stopped) (hi : (pc i).changing) :
    ∀ j ≠ i, (pc j).changing = false := by
  intro j hj
  cases hch : (pc j).changing with
  | false => rfl
  | true => exact absurd (h.alone j i hch hi) hj

/-- The slot gets the generation of its next driver. -/
theorem Inv.rename {k : Nat} (h : Inv s pc begun stopped) (hi : pc i = .activate_generation k g)
    (hnone : ∀ j, (pc j).counted = false) (hwrap : g ≠ 2 ^ 32 - 1) :
    Inv (with_generation s (next_generation g)) (update pc i (.activate_reload k)) begun stopped := by
  have hstage := h.stage i
  rw [hi] at hstage
  obtain ⟨hactive, hempty, rfl⟩ := hstage
  have hothers := h.others (i := i) (by rw [hi]; rfl)
  have hbound := h.bound
  have hnext : next_generation s.record.generation = s.record.generation + 1 := by
    unfold next_generation
    rw [u32_of_lt (by omega)]
    simp
  have huncounted : ∀ j, (update pc i (.activate_reload k) j).counted = false := fun j =>
    update_cases j (fun _ => rfl) fun _ => hnone j
  rw [hnext]
  refine ⟨?_, h.small, ?_, ?_, ?_, ?_, ?_, ?_, ?_, ?_, ?_, ?_, ?_⟩
  · rw [countOf_eq_zero huncounted]
    exact h.count.trans (countOf_eq_zero hnone)
  · show s.record.generation + 1 < 2 ^ 32
    omega
  · intro j j' hj hj'
    rw [Inv.alone_update hothers hj, Inv.alone_update hothers hj']
  · exact fun j => update_cases j (fun _ => ⟨hactive, hempty⟩) fun hj =>
      stage_of_not_changing (hothers j hj)
  · intro _ _
    exact hempty
  · intro hr
    have := hr i
    rw [update_self] at this
    cases this
  · intro j hj
    exact absurd (Pc.counted_of_proved hj) (by rw [huncounted j]; decide)
  · intro j d hd
    exact absurd (Pc.counted_of_token hd) (by rw [huncounted j]; decide)
  · exact fun j => update_cases j nofun fun _ x hx => (h.found j x hx).trans (Nat.le_succ _)
  · intro x hx
    have hle := (h.ended x hx).le
    left
    show x < s.record.generation + 1
    omega
  · exact fun j => update_cases j nofun fun _ => h.awaits j
  · intro x hx
    refine ⟨(h.stopped x hx).1, ?_⟩
    intro _ j hj
    exact absurd (Pc.counted_of_hopes hj) (by rw [huncounted j]; decide)

/-! ## The calls, one operation at a time -/

/-- `allowed`, seen from the slot. -/
def Allowed (s : Slot) (pc : Fin n → Pc) : Pc → Prop
  | .pin_in_flight _ _ => s.quiesce.in_flight ≠ 2 ^ 32 - 1
  | .activate_generation _ g => (∀ j, (pc j).counted = false) ∧ g ≠ 2 ^ 32 - 1
  | .activate_in_flight _ => ∀ j, (pc j).counted = false
  | .set_store _ setter => legal_state_transition s.record.state setter.target = true
  | _ => True

variable {t : Turn} {d : DriverIdentity} {kind : Activity}

theorem Inv.count_up (h : Inv s pc begun stopped) (hi : (pc i).counted = false)
    (hp : p'.counted) (hroom : s.quiesce.in_flight ≠ 2 ^ 32 - 1) :
    u32 (s.quiesce.in_flight + 1) = countOf Pc.counted (update pc i p') := by
  have hcount := countOf_update Pc.counted pc i p'
  rw [hi, hp, Bool.toNat_false, Bool.toNat_true, ← h.count] at hcount
  have hsmall := h.small
  rw [u32_of_lt (by omega)]
  omega

theorem Inv.count_down (h : Inv s pc begun stopped) (hi : (pc i).counted)
    (hp : p'.counted = false) : u32_pred s.quiesce.in_flight = countOf Pc.counted (update pc i p') := by
  have hcount := countOf_update Pc.counted pc i p'
  have hpos := countOf_pos (p := Pc.counted) (f := pc) hi
  rw [hi, hp, Bool.toNat_false, Bool.toNat_true, ← h.count] at hcount
  rw [← h.count] at hpos
  have hsmall := h.small
  unfold u32_pred u32
  omega

theorem u32_lt (x : Nat) : u32 x < 2 ^ 32 := Nat.mod_lt _ (by decide)

theorem u32_pred_lt (x : Nat) : u32_pred x < 2 ^ 32 := u32_lt _

/-- A stopped driver has no hope. -/
theorem Inv.no_hope (h : Inv s pc begun stopped) (hp : pc i = p) (hg : p.hopes = some g)
    (hs : stopped g) : s.record.generation ≠ g :=
  fun heq => (h.stopped g hs).2 heq i (hp ▸ hg)

/-- A place that needs no fact that the party does not rely on already. -/
structure Pc.Within (p p' : Pc) : Prop where
  changing : p.changing = false
  changing' : p'.changing = false
  counted : p'.counted = p.counted
  proved : p'.proved → p.proved
  token : ∀ d, p'.active_token = some d → p.active_token = some d
  found : ∀ g, p'.found = some g → p.found = some g
  awaits : ∀ g, p'.awaits = some g → p.awaits = some g
  hopes : ∀ g, p'.hopes = some g → p.hopes = some g

/-- A negative answer leaves the slot as it is, and nothing to rely on. -/
theorem when_stale_passes (s : Slot) (d : DriverIdentity) (next : Next) :
    (when_stale s d next).slot = s ∧ (Pc.live_active d next).passes (when_stale s d next).pc ∧
      (Pc.live_generation d next).passes (when_stale s d next).pc := by
  unfold when_stale
  split <;> exact ⟨rfl, rfl, rfl⟩

section
variable (h : Inv s pc begun stopped)
include h

theorem Inv.keep (hp : pc i = p) (hsame : SameSlot s s')
    (hflight : s'.quiesce.in_flight = s.quiesce.in_flight) (hw : p.Within p') :
    Inv s' (update pc i p') begun stopped := by
  refine h.move_uncounted hp hw.changing hsame hflight hw.counted ⟨hw.changing', ?_, ?_, ?_, ?_, ?_⟩
  · exact fun hproved => h.proved i (hp ▸ hw.proved hproved)
  · exact fun d hd => h.current i d (hp ▸ hw.token d hd)
  · exact fun g hg => h.found i g (hp ▸ hw.found g hg)
  · exact fun g hg => h.awaits i g (hp ▸ hw.awaits g hg)
  · exact fun g hg => h.no_hope hp (hw.hopes g hg)

theorem Inv.pin_turn (ht : activity_pin s (pc i) = some t)
    (hallow : Allowed s pc (pc i)) : Inv t.slot (update pc i t.pc) begun stopped := by
  unfold activity_pin at ht
  split at ht <;> rename_i hp <;> cases ht <;> rw [hp] at hallow
  · -- pin_generation
    split <;> exact h.pass hp rfl
  · -- pin_accepting
    split <;> exact h.pass hp rfl
  · -- pin_in_flight
    exact h.move (by rw [hp]; rfl) (same_in_flight _) (u32_lt _)
      (h.count_up (by rw [hp]; rfl) rfl hallow) (.of_bare rfl)
  · -- pin_category
    exact h.pass_same hp ⟨rfl, rfl⟩ rfl rfl
  · -- pin_state: a driver that was quiesced is not found in a state that allows the pin
    refine h.move_uncounted hp rfl .refl rfl rfl
      ⟨rfl, nofun, nofun, nofun, nofun, ?_⟩
    intro x hx hs heq
    simp only [goes, Pc.hopes, ite_none_right_eq_some] at hx
    rcases h.ended x (h.stopped x hs).1 with hgone | ⟨_, hset, _⟩
    · omega
    · exact absurd hx.1 (by rw [not_pinnable_of_settled hset]; decide)
  · -- pin_recheck
    split
    · exact h.pass hp rfl
    · exact h.keep hp .refl rfl ⟨rfl, rfl, rfl, nofun, nofun, nofun, nofun, fun _ => id⟩
  · -- drop_category
    exact h.pass_same hp ⟨rfl, rfl⟩ rfl rfl
  · -- drop_in_flight
    exact h.move (by rw [hp]; rfl) (same_in_flight _) (u32_pred_lt _)
      (h.count_down (by rw [hp]; rfl) rfl) (.of_bare rfl)

/-- Nobody relabels a slot whose record is active. -/
theorem Inv.not_relabeling (hactive : s.record.active) (j : Fin n) : (pc j).relabeling = false := by
  have hstage := h.stage j
  cases hpc : pc j <;> simp_all [Stage, Pc.relabeling]

theorem Inv.stale_turn {next : Next} (hp : pc i = .live_active d next ∨ pc i = .live_generation d next) :
    Inv (when_stale s d next).slot (update pc i (when_stale s d next).pc) begun stopped := by
  obtain ⟨hslot, hpass, hpass'⟩ := when_stale_passes s d next
  rw [hslot]
  rcases hp with hp | hp
  · exact h.pass hp hpass
  · exact h.pass hp hpass'

theorem Inv.live_turn {next : Next}
    (hp : pc i = .live_generation d next) (hgen : s.record.generation = d.generation) :
    Inv (when_live s d next).slot (update pc i (when_live s d next).pc) begun stopped := by
  cases next with
  | pin kind state =>
    unfold when_live
    simp only
    split
    · rename_i hstate
      refine h.move_uncounted hp rfl .refl rfl rfl
        ⟨rfl, fun _ => h.proved i (by rw [hp]; rfl), ?_, nofun, nofun, ?_⟩
      · intro e he
        cases he
        exact hgen
      · intro x hx
        cases hx
        exact h.no_hope hp (by simp [Pc.hopes, hstate])
    · exact h.pass hp rfl
  | begin_quiesce =>
    refine h.move_uncounted hp rfl .refl rfl rfl
      ⟨rfl, nofun, nofun, ?_, nofun, nofun⟩
    intro x hx
    cases hx
    exact hgen.ge
  | wait_quiesced asked spin_limit injected =>
    unfold when_live
    simp only
    split
    · exact h.pass hp rfl
    · split <;> exact h.keep hp .refl rfl ⟨rfl, rfl, rfl, nofun, nofun, nofun,
        by cases asked <;> exact fun _ => id, nofun⟩
  | set_state setter =>
    refine h.move_uncounted hp rfl .refl rfl rfl
      ⟨rfl, nofun, nofun, ?_, nofun, nofun⟩
    intro x hx
    cases setter with
    | quiesce =>
      cases hx
      exact hgen.ge
    | other target => cases hx

end

/-- Finding the record active changes nothing else about a party. -/
theorem live_generation_like (d : DriverIdentity) (next : Next) :
    (Pc.live_generation d next).counted = (Pc.live_active d next).counted ∧
      (Pc.live_generation d next).found = (Pc.live_active d next).found ∧
      (Pc.live_generation d next).awaits = (Pc.live_active d next).awaits ∧
      (Pc.live_generation d next).hopes = (Pc.live_active d next).hopes := by
  cases next with
  | pin kind state => exact ⟨rfl, rfl, rfl, rfl⟩
  | begin_quiesce => exact ⟨rfl, rfl, rfl, rfl⟩
  | wait_quiesced asked spin_limit injected => cases asked <;> exact ⟨rfl, rfl, rfl, rfl⟩
  | set_state setter => cases setter <;> exact ⟨rfl, rfl, rfl, rfl⟩

theorem Inv.is_live_turn (h : Inv s pc begun stopped) (ht : identity_is_live s (pc i) = some t) :
    Inv t.slot (update pc i t.pc) begun stopped := by
  unfold identity_is_live at ht
  split at ht <;> rename_i d next hp <;> cases ht
  · -- live_active
    split
    · exact h.stale_turn (.inl hp)
    rename_i hactive
    simp only [Bool.not_eq_true', Bool.not_eq_false] at hactive
    obtain ⟨hcounted, hfound, hawaits, hhopes⟩ := live_generation_like d next
    rw [← hp] at hfound hawaits
    refine h.move_uncounted hp rfl .refl rfl hcounted
      ⟨rfl, fun _ => h.not_relabeling hactive, nofun, ?_, ?_, ?_⟩
    · intro x hx
      exact h.found i x (hfound.symm.trans hx)
    · intro x hx
      exact h.awaits i x (hawaits.symm.trans hx)
    · intro x hx
      exact h.no_hope hp (hhopes.symm.trans hx)
  · -- live_generation
    split
    · exact h.stale_turn (.inr hp)
    · rename_i hgen
      exact h.live_turn hp (by simpa using hgen)

theorem Inv.unpin_turn (h : Inv s pc begun stopped) (ht : activity_unpin s (pc i) = some t) :
    Inv t.slot (update pc i t.pc) begun stopped := by
  unfold activity_unpin at ht
  split at ht <;> rename_i hp <;> cases ht
  · -- unpin_generation: the slot still has the token's generation
    rename_i d kind
    have hproved : ∀ j, (pc j).relabeling = false := h.proved i (by rw [hp]; rfl)
    have hgen : s.record.generation = d.generation := h.current i d (by rw [hp]; rfl)
    rw [if_pos ((h.names hproved).trans hgen)]
    exact h.keep hp .refl rfl ⟨rfl, rfl, rfl, id, fun _ => id, nofun, nofun, fun _ => id⟩
  · -- unpin_category
    exact h.keep hp ⟨rfl, rfl⟩ rfl ⟨rfl, rfl, rfl, id, fun _ => id, nofun, nofun, fun _ => id⟩
  · -- unpin_in_flight
    exact h.move (by rw [hp]; rfl) (same_in_flight _) (u32_pred_lt _)
      (h.count_down (by rw [hp]; rfl) rfl) (.of_bare rfl)
  · -- unpin_active
    exact h.pass hp rfl

/-! ## Calls whose success is noted -/

/-- The driver whose quiescing begins when this operation returns OK. -/
def Pc.begins : Pc → Option DriverIdentity
  | .begin_state d | .set_store d .quiesce => some d
  | _ => none

/-- The driver that has stopped when this operation returns OK. -/
def Pc.stops : Pc → Option DriverIdentity
  | .wait_spin d true _ | .wait_last d true => some d
  | _ => none

/-- `State.note`, seen from the slot. -/
def noted (before : Nat → Prop) (who : Option DriverIdentity) (result : Option DriverLoad)
    (g : Nat) : Prop :=
  (result = some .ok ∧ who.map (·.generation) = some g) ∨ before g

variable {before : Nat → Prop} {p : Pc} {result : Option DriverLoad}

variable {who : Option DriverIdentity}

theorem noted_of_none (h : who = none) : noted before who result = before := by
  funext x
  simp [noted, h]

theorem noted_of_ne_ok (h : result ≠ some .ok) : noted before who result = before := by
  funext x
  simp [noted, h]

theorem noted_ok (hwho : who = some d) (hok : result = some .ok) :
    noted before who result = fun x => x = d.generation ∨ before x := by
  funext x
  simp [noted, hwho, hok, eq_comm]

section
variable (h : Inv s pc begun stopped)
include h

/-- A driver in a state that `begin_quiesce` accepts is over. -/
theorem Inv.over_of_settled (hle : g ≤ s.record.generation)
    (hset : settled s.record.state) (hne : s.record.state ≠ .empty) : Over s pc g := by
  rcases hle.lt_or_eq with hlt | heq
  · exact .inl hlt
  · refine .inr ⟨heq, hset, ?_⟩
    intro j
    have hstage := h.stage j
    cases hpc : pc j <;> simp_all [Stage, Pc.replacing]

theorem Inv.begin_turn (ht : begin_quiesce s (pc i) = some t) :
    Inv t.slot (update pc i t.pc) (noted begun (pc i).begins t.result) stopped := by
  unfold begin_quiesce at ht
  split at ht <;> rename_i hp <;> cases ht
  · -- begin_generation
    rw [hp, noted_of_none (by rfl)]
    split
    · exact h.pass hp rfl
    · exact h.keep hp .refl rfl ⟨rfl, rfl, rfl, nofun, nofun, fun _ => id, nofun, nofun⟩
  · -- begin_close
    rw [hp, noted_of_none (by rfl)]
    exact h.keep hp ⟨rfl, rfl⟩ rfl ⟨rfl, rfl, rfl, nofun, nofun, fun _ => id, nofun, nofun⟩
  · -- begin_state
    rename_i d
    have hfound := h.found i d.generation (by rw [hp]; rfl)
    rw [hp]
    split
    · rename_i hstate
      have hset : settled s.record.state ∧ s.record.state ≠ .empty := by
        rcases hstate with hstate | hstate | hstate <;> rw [hstate] <;> decide
      rw [noted_ok (by rfl) (by rfl)]
      exact (h.begin (h.over_of_settled hfound hset.1 hset.2)).pass hp rfl
    · split
      · rw [noted_of_ne_ok (by simp [goes])]
        exact h.pass hp rfl
      · rw [noted_of_ne_ok (by simp [goes])]
        exact h.keep hp .refl rfl ⟨rfl, rfl, rfl, nofun, nofun, fun _ => id, nofun, nofun⟩
  · -- begin_reopen
    rename_i d result
    rw [hp, noted_of_none (by rfl)]
    exact h.pass_same hp ⟨rfl, rfl⟩ rfl rfl

theorem Inv.set_state_turn (ht : set_state_identity s (pc i) = some t) (hallow : Allowed s pc (pc i)) :
    Inv t.slot (update pc i t.pc) (noted begun (pc i).begins t.result) stopped := by
  unfold set_state_identity at ht
  split at ht <;> rename_i hp <;> cases ht
  · -- set_check
    rename_i d setter
    rw [hp, noted_of_none (by rfl)]
    split
    · cases setter with
      | quiesce => exact h.keep hp .refl rfl ⟨rfl, rfl, rfl, nofun, nofun, fun _ => id, nofun, nofun⟩
      | other target => exact h.pass hp rfl
    · cases setter <;> exact h.pass hp rfl
  · -- set_store
    rename_i d setter
    rw [hp] at hallow
    have hset := h.set_state hallow
    cases setter with
    | quiesce =>
      have hover := hset.over_of_settled (h.found i d.generation (by rw [hp]; rfl)) rfl
        (show DriverState.quiescing ≠ .empty by decide)
      rw [hp, noted_ok (by rfl) (by rfl)]
      exact (hset.begin hover).pass hp rfl
    | other target =>
      rw [hp, noted_of_none (by rfl)]
      exact hset.pass hp rfl

/-- The driver of a wait that comes back with OK has stopped, if the wait was asked for. -/
theorem Inv.wait_ok (hi : (pc i).changing = false)
    (hcounted : (pc i).counted = false) (hzero : s.quiesce.in_flight = 0)
    (hwho : (pc i).awaits = (pc i).stops.map (·.generation)) :
    Inv s (update pc i .idle) begun (noted stopped (pc i).stops (some .ok)) := by
  have hmoved : Inv s (update pc i .idle) begun stopped :=
    h.move_uncounted rfl hi .refl rfl hcounted.symm (.of_bare rfl)
  cases hstops : (pc i).stops with
  | none =>
    rw [noted_of_none (by rfl)]
    exact hmoved
  | some d =>
    rw [hstops] at hwho
    rw [noted_ok (by rfl) (by rfl)]
    exact hmoved.stop (h.awaits i d.generation hwho) hzero

theorem Inv.wait_turn (ht : wait_quiesced s (pc i) = some t) :
    Inv t.slot (update pc i t.pc) begun (noted stopped (pc i).stops t.result) := by
  unfold wait_quiesced at ht
  split at ht <;> rename_i hp <;> cases ht
  · -- wait_spin
    rename_i d asked left
    split
    · rename_i hzero
      exact h.wait_ok (by rw [hp]; rfl) (by rw [hp]; rfl) hzero (by rw [hp]; cases asked <;> rfl)
    split <;> rw [noted_of_ne_ok (by simp [goes])]
    all_goals exact h.keep hp .refl rfl ⟨rfl, rfl, rfl, nofun, nofun, nofun,
      by cases asked <;> exact fun _ => id, nofun⟩
  · -- wait_last
    rename_i d asked
    split
    · rename_i hzero
      exact h.wait_ok (by rw [hp]; rfl) (by rw [hp]; rfl) hzero (by rw [hp]; cases asked <;> rfl)
    · rw [noted_of_ne_ok (by simp [goes])]
      exact h.pass hp rfl
  · -- wait_quarantine
    rw [noted_of_ne_ok (by simp [returns])]
    exact h.pass_same hp ⟨rfl, rfl⟩ rfl rfl

/-- A party that changes the slot goes on with that, or comes to the end of it. -/
theorem Inv.go_on (hp : pc i = p) (hch : p.changing) (hp' : p'.Plain)
    (hc : (p.relabeling = false → s.quiesce.generation = s.record.generation) → Changes s p s' p') :
    Inv s' (update pc i p') begun stopped := by
  subst hp
  have hothers := h.others hch
  refine h.change (.inl hch) hp' hothers (hc fun hr => h.names fun j => ?_)
  by_cases hj : j = i
  · rw [hj, hr]
  · exact relabeling_of_not_changing (hothers j hj)

theorem Inv.clear_turn (ht : clear_driver_record s (pc i) = some t) :
    Inv t.slot (update pc i t.pc) begun stopped := by
  unfold clear_driver_record at ht
  split at ht <;> rename_i hp <;> cases ht
  · -- clear_active
    exact h.go_on hp rfl (.inl rfl) fun hnames =>
      ⟨trivial, nofun, rfl, rfl, fun _ => hnames rfl, nofun, nofun, fun _ hset => hset⟩
  · -- clear_state
    exact h.go_on hp rfl (.inl rfl) fun hnames =>
      ⟨rfl, nofun, rfl, rfl, fun _ => hnames rfl, nofun, nofun, fun _ _ => rfl⟩
  · -- clear_accepting
    have hempty := h.stage i
    rw [hp] at hempty
    exact h.go_on hp rfl (.inr rfl) fun hnames =>
      ⟨trivial, fun _ _ => hempty, rfl, rfl, fun _ => hnames rfl, nofun, nofun, fun _ hset => hset⟩

/-- The operations between the new generation and the first state. -/
theorem Inv.replace_on (hp : pc i = p) (hch : p.changing) (hrep : p.replacing)
    (hp' : p'.changing) (hstage : Stage s' p') (hflight : s'.quiesce.in_flight = s.quiesce.in_flight)
    (hsame : s'.record.generation = s.record.generation ∧ s'.record.state = s.record.state)
    (hnames : (p.relabeling = false → s.quiesce.generation = s.record.generation) →
      p'.relabeling = false → s'.quiesce.generation = s'.record.generation)
    (hrel : p'.relabeling → p.relabeling) : Inv s' (update pc i p') begun stopped := by
  refine h.go_on hp hch (.inl hp') fun hn =>
    ⟨hstage, ?_, hflight, hsame.1, hnames hn, hrel, fun _ => hrep, ?_⟩
  · rw [hp']
    exact nofun
  · rw [hsame.2]
    exact fun _ => id

theorem Inv.activate_turn (ht : activate_driver_record s (pc i) = some t)
    (hallow : Allowed s pc (pc i)) : Inv t.slot (update pc i t.pc) begun stopped := by
  unfold activate_driver_record at ht
  have hstage := h.stage i
  split at ht <;> rename_i hp <;> cases ht <;> rw [hp] at hstage hallow
  · -- activate_load
    exact h.go_on hp rfl (.inl rfl) fun hnames =>
      ⟨⟨hstage.1, hstage.2, rfl⟩, nofun, rfl, rfl, fun _ => hnames rfl, nofun, nofun, fun _ hset => hset⟩
  · -- activate_generation
    exact h.rename hp hallow.1 hallow.2
  · -- activate_reload
    exact h.replace_on hp rfl rfl rfl ⟨hstage.1, hstage.2, rfl⟩ rfl ⟨rfl, rfl⟩ nofun fun _ => rfl
  · -- activate_slot
    exact h.replace_on hp rfl rfl rfl ⟨hstage.1, hstage.2.1⟩ rfl ⟨rfl, rfl⟩ (fun _ _ => hstage.2.2) nofun
  · -- activate_in_flight
    have hzero : s.quiesce.in_flight = 0 := h.count.trans (countOf_eq_zero hallow)
    exact h.replace_on hp rfl rfl rfl hstage hzero.symm ⟨rfl, rfl⟩ (fun hn _ => hn rfl) nofun
  · -- activate_category
    rename_i k kind
    cases kind <;> exact h.replace_on hp rfl rfl rfl hstage rfl ⟨rfl, rfl⟩ (fun hn _ => hn rfl) nofun
  · -- activate_quarantined
    exact h.replace_on hp rfl rfl rfl hstage rfl ⟨rfl, rfl⟩ (fun hn _ => hn rfl) nofun
  · -- activate_accepting
    exact h.replace_on hp rfl rfl rfl hstage rfl ⟨rfl, rfl⟩ (fun hn _ => hn rfl) nofun
  · -- activate_active
    exact h.replace_on hp rfl rfl rfl ⟨rfl, hstage.2⟩ rfl ⟨rfl, rfl⟩ (fun hn _ => hn rfl) nofun
  · -- activate_state
    exact h.go_on hp rfl (.inr rfl) fun hnames =>
      ⟨trivial, fun _ hactive => absurd (hstage.1.symm.trans hactive) (by decide), rfl, rfl,
        fun _ => hnames rfl, nofun, nofun, nofun⟩

end

/-! ## Every operation -/

theorem orElse_cases {α : Type} {a b : Option α} {x : α} (h : (a <|> b) = some x) :
    a = some x ∨ b = some x := by
  cases a with
  | none => exact .inr h
  | some y => exact .inl h

theorem turn_cases (h : turn s p = some t) :
    activity_pin s p = some t ∨ identity_is_live s p = some t ∨ activity_unpin s p = some t ∨
      begin_quiesce s p = some t ∨ set_state_identity s p = some t ∨ wait_quiesced s p = some t ∨
      clear_driver_record s p = some t ∨ activate_driver_record s p = some t := by
  unfold turn at h
  iterate 6 refine (orElse_cases h).imp_right fun h => ?_
  exact orElse_cases h

/-- The calls whose return is not noted. -/
theorem silent (h : activity_pin s p = some t ∨ identity_is_live s p = some t ∨
    activity_unpin s p = some t ∨ clear_driver_record s p = some t ∨
    activate_driver_record s p = some t) : p.begins = none ∧ p.stops = none := by
  cases p <;> first | exact ⟨rfl, rfl⟩ | (rcases h with h | h | h | h | h <;> cases h)

theorem stops_of_begin (h : begin_quiesce s p = some t ∨ set_state_identity s p = some t) :
    p.stops = none := by
  cases p <;> first | rfl | (rcases h with h | h <;> cases h)

theorem begins_of_wait (h : wait_quiesced s p = some t) : p.begins = none := by
  cases p <;> first | rfl | cases h

theorem Inv.turn (h : Inv s pc begun stopped) (ht : turn s (pc i) = some t) (hallow : Allowed s pc (pc i)) :
    Inv t.slot (update pc i t.pc) (noted begun (pc i).begins t.result)
      (noted stopped (pc i).stops t.result) := by
  have hsilent : (pc i).begins = none ∧ (pc i).stops = none →
      Inv t.slot (update pc i t.pc) begun stopped →
      Inv t.slot (update pc i t.pc) (noted begun (pc i).begins t.result)
        (noted stopped (pc i).stops t.result) := by
    rintro ⟨hbegins, hstops⟩ hinv
    rwa [noted_of_none hbegins, noted_of_none hstops]
  rcases turn_cases ht with ht | ht | ht | ht | ht | ht | ht | ht
  · exact hsilent (silent (.inl ht)) (h.pin_turn ht hallow)
  · exact hsilent (silent (.inr (.inl ht))) (h.is_live_turn ht)
  · exact hsilent (silent (.inr (.inr (.inl ht)))) (h.unpin_turn ht)
  · rw [noted_of_none (stops_of_begin (.inl ht))]
    exact h.begin_turn ht
  · rw [noted_of_none (stops_of_begin (.inr ht))]
    exact h.set_state_turn ht hallow
  · rw [noted_of_none (begins_of_wait ht)]
    exact h.wait_turn ht
  · exact hsilent (silent (.inr (.inr (.inr (.inl ht))))) (h.clear_turn ht)
  · exact hsilent (silent (.inr (.inr (.inr (.inr ht))))) (h.activate_turn ht hallow)

theorem when_stale_slot (s : Slot) (d : DriverIdentity) (next : Next) :
    (when_stale s d next).pc.slot = some d.slot ∨ (when_stale s d next).pc = .idle := by
  unfold when_stale
  split <;> simp [goes, returns, Pc.slot]

theorem when_live_slot (s : Slot) (d : DriverIdentity) (next : Next) :
    (when_live s d next).pc.slot = some d.slot ∨ (when_live s d next).pc = .idle := by
  unfold when_live
  (repeat' split) <;> simp [goes, Pc.slot]

/-- An operation stays at its slot. -/
theorem turn_slot (h : driver_activity.turn s p = some t) : t.pc.slot = p.slot ∨ t.pc = .idle := by
  rcases turn_cases h with h | h | h | h | h | h | h | h
  case inr.inl =>
    unfold identity_is_live at h
    split at h <;> cases h <;> split
    · exact when_stale_slot s _ _
    · exact .inl rfl
    · exact when_stale_slot s _ _
    · exact when_live_slot s _ _
  all_goals
    simp only [activity_pin, activity_unpin, begin_quiesce, set_state_identity, wait_quiesced,
      clear_driver_record, activate_driver_record] at h
    split at h <;> cases h <;> (repeat' split) <;> simp [goes, returns, Pc.slot]

/-! ## The whole table -/

/-- The parties at slot `k`. -/
def State.parties (s : State n) (k : Nat) : Fin n → Pc := fun i => (s.pc i).at k

/-- The generations of slot `k` among the drivers of a list. -/
def generations (l : List DriverIdentity) (k : Nat) : Nat → Prop := fun g => ⟨k, g⟩ ∈ l

def Sound (s : State n) : Prop :=
  ∀ k, Inv (s.slots k) (s.parties k) (generations s.begun k) (generations s.stopped k)

theorem Pc.at_self {k : Nat} (h : p.slot = some k ∨ p = .idle) : p.at k = p := by
  rcases h with h | rfl
  · simp [Pc.at, h]
  · simp [Pc.at]

theorem Pc.at_of_ne {k m : Nat} (h : p.slot = some m ∨ p = .idle) (hne : k ≠ m) : p.at k = .idle := by
  rcases h with h | rfl
  · simp [Pc.at, h, hne.symm]
  · simp [Pc.at]

theorem parties_update {σ σ' : State n} (h : σ'.pc = update σ.pc i p) (k : Nat) :
    σ'.parties k = update (σ.parties k) i (p.at k) := by
  unfold State.parties
  rw [h]
  exact comp_update (fun p => p.at k) σ.pc i p

theorem Pc.slot_of_noted (h : p.begins = some d ∨ p.stops = some d) : p.slot = some d.slot := by
  cases p <;> simp_all [Pc.begins, Pc.stops, Pc.slot]
  all_goals split at h <;> simp_all

theorem note_fields (σ : State n) (p : Pc) (result : Option DriverLoad) :
    (σ.note p result).slots = σ.slots ∧ (σ.note p result).pc = σ.pc := by
  unfold State.note
  (repeat' split) <;> exact ⟨rfl, rfl⟩

theorem mem_note (σ : State n) (p : Pc) (result : Option DriverLoad) (d : DriverIdentity) :
    (d ∈ (σ.note p result).begun ↔ (result = some .ok ∧ p.begins = some d) ∨ d ∈ σ.begun) ∧
      (d ∈ (σ.note p result).stopped ↔ (result = some .ok ∧ p.stops = some d) ∨ d ∈ σ.stopped) := by
  unfold State.note
  by_cases hok : result = some .ok
  · rw [if_neg (by simp [hok])]
    split <;> simp [hok, Pc.begins, Pc.stops, eq_comm]
  · simp [hok]

variable {σ σ' : State n} {l : Label n} {m k : Nat} {before after : List DriverIdentity}

section
variable (hmem : ∀ d, d ∈ after ↔ (result = some .ok ∧ who = some d) ∨ d ∈ before)
  (hslot : ∀ d, who = some d → d.slot = m)
include hmem hslot

/-- What `note` adds at slot `k`, if the operation was there. -/
theorem generations_noted : generations after m = noted (generations before m) who result := by
  funext g
  simp only [generations, noted, hmem, eq_iff_iff]
  refine or_congr_left (and_congr_right fun _ => ?_)
  constructor
  · intro h
    rw [h]
    rfl
  · intro h
    cases who with
    | none => cases h
    | some d =>
      cases h
      rw [← hslot d rfl]

theorem generations_elsewhere (hne : k ≠ m) : generations after k = generations before k := by
  funext g
  simp only [generations, hmem, eq_iff_iff]
  constructor
  · rintro (⟨_, hwho⟩ | h)
    · exact absurd (hslot _ hwho) hne
    · exact h
  · exact .inr

end

theorem allowed_at (hslot : (σ.pc i).slot = some k) (h : allowed σ (.next i)) :
    Allowed (σ.slots k) (σ.parties k) (σ.pc i) := by
  unfold allowed at h
  cases hp : σ.pc i <;> rw [hp] at hslot <;> cases hslot <;>
    simp_all [Allowed, uncounted, State.parties]

section
variable (h : Sound σ)
include h

theorem Sound.advance (hallow : allowed σ (.next i)) (hst : σ.advance i = some σ') : Sound σ' := by
  unfold State.advance at hst
  split at hst
  · cases hst
  rename_i m hslot
  split at hst
  · cases hst
  rename_i t ht
  cases hst
  intro k
  have hfields := note_fields { σ with
    slots := update σ.slots m t.slot, pc := update σ.pc i t.pc } (σ.pc i) t.result
  have hat : t.pc.slot = some m ∨ t.pc = .idle := by
    rw [← hslot]
    exact turn_slot ht
  have hself : σ.parties m i = σ.pc i := Pc.at_self (.inl hslot)
  have hwho : ∀ d, (σ.pc i).begins = some d ∨ (σ.pc i).stops = some d → d.slot = m := by
    intro d hd
    have := (Pc.slot_of_noted hd).symm.trans hslot
    simpa using this
  have hbegins := fun d hd => hwho d (.inl hd)
  have hstops := fun d hd => hwho d (.inr hd)
  rw [parties_update hfields.2 k, hfields.1]
  show Inv (update σ.slots m t.slot k) _ _ _
  by_cases hk : k = m
  · subst hk
    rw [update_self, Pc.at_self hat,
      generations_noted (fun d => (mem_note _ _ _ d).1) hbegins,
      generations_noted (fun d => (mem_note _ _ _ d).2) hstops, ← hself]
    exact (h k).turn (by rw [hself]; exact ht) (by rw [hself]; exact allowed_at hslot hallow)
  · have hidle : σ.parties k i = .idle := Pc.at_of_ne (.inl hslot) hk
    rw [update_of_ne hk, Pc.at_of_ne hat hk, ← hidle, update_eq_self,
      generations_elsewhere (fun d => (mem_note _ _ _ d).1) hbegins hk,
      generations_elsewhere (fun d => (mem_note _ _ _ d).2) hstops hk]
    exact h k

/-- A party enters a call. -/
theorem Sound.goto (hidle : σ.pc i = .idle) (hslot : p'.slot = some m)
    (hinv : Inv (σ.slots m) (update (σ.parties m) i p') (generations σ.begun m)
      (generations σ.stopped m)) : Sound (σ.goto i p') := by
  intro k
  rw [parties_update (σ := σ) rfl k]
  by_cases hk : k = m
  · subst hk
    rw [Pc.at_self (.inl hslot)]
    exact hinv
  · have hnone : σ.parties k i = .idle := by
      simp [State.parties, hidle, Pc.at]
    rw [Pc.at_of_ne (.inl hslot) hk, ← hnone, update_eq_self]
    exact h k

theorem Sound.call (hst : σ.call i d p' = some σ') (hslot : p'.slot = some d.slot)
    (hcounted : p'.counted = false)
    (hfits : Fits (σ.slots d.slot) (σ.parties d.slot) (generations σ.begun d.slot)
      (generations σ.stopped d.slot) p') : Sound σ' := by
  unfold State.call at hst
  split at hst
  · cases hst
  rename_i hidle
  have hidle : σ.pc i = .idle := by simpa using hidle
  have hparty : σ.parties d.slot i = .idle := by simp [State.parties, hidle, Pc.at]
  split at hst <;> cases hst
  · exact h.goto hidle hslot ((h d.slot).move_uncounted hparty rfl .refl rfl hcounted hfits)
  · exact h

/-- An unregistration or activation begins while no other is in progress at the slot. -/
theorem Sound.enter (hidle : σ.pc i = .idle) (hslot : p'.slot = some k)
    (hallow : ∀ j, ((σ.pc j).at k).changing = false) (hch : p'.changing)
    (hstage : Stage (σ.slots k) p') (hrep : p'.replacing = false) : Sound (σ.goto i p') := by
  have hparty : σ.parties k i = .idle := by simp [State.parties, hidle, Pc.at]
  have hrel := eq_false_of_imp Pc.replacing_of_relabeling hrep
  refine h.goto hidle hslot ((h k).change (.inr hparty) (.inl hch) (fun j _ => hallow j) ?_)
  refine ⟨hstage, ?_, rfl, rfl, ?_, ?_, ?_, fun _ hset => hset⟩
  · intro hno
    rw [hch] at hno
    cases hno
  · intro _
    exact (h k).names fun j => relabeling_of_not_changing (hallow j)
  · rw [hrel]
    exact nofun
  · rw [hrep]
    exact nofun

theorem Sound.step (hallow : allowed σ l) (hst : step σ l = some σ') : Sound σ' := by
  cases l with
  | pin i owner kind =>
    exact h.call hst rfl rfl (.of_bare rfl)
  | unpin i =>
    simp only [driver_activity.step] at hst
    split at hst <;> cases hst
    rename_i d kind hp
    intro k
    rw [parties_update (σ := σ) rfl k]
    have hk := h k
    by_cases hd : d.slot = k
    · subst hd
      have hself : σ.parties d.slot i = .token d kind := by simp [State.parties, hp, Pc.at, Pc.slot]
      rw [Pc.at_self (.inl rfl)]
      exact hk.keep hself .refl rfl ⟨rfl, rfl, rfl, id, fun _ => id, nofun, nofun, fun _ => id⟩
    · have hself : σ.parties k i = .idle := by simp [State.parties, hp, Pc.at, Pc.slot, hd]
      rw [Pc.at_of_ne (m := d.slot) (.inl rfl) (Ne.symm hd), ← hself, update_eq_self]
      exact hk
  | begin_quiesce i owner =>
    exact h.call hst rfl rfl (.of_bare rfl)
  | wait_quiesced i owner spin_limit injected =>
    refine h.call hst rfl rfl ⟨rfl, nofun, nofun, nofun, ?_, nofun⟩
    intro g hg
    by_cases hmem : owner ∈ σ.begun
    · simp only [hmem, decide_true, Pc.awaits, some.injEq] at hg
      subst hg
      exact hmem
    · simp [hmem, Pc.awaits] at hg
  | set_state i owner target =>
    exact h.call hst rfl rfl (.of_bare rfl)
  | unregister i k =>
    simp only [driver_activity.step] at hst
    split at hst <;> cases hst
    rename_i hcond
    refine h.enter hcond.1 rfl ?_ rfl trivial rfl
    simpa [allowed] using hallow
  | activate i k =>
    simp only [driver_activity.step] at hst
    split at hst <;> cases hst
    rename_i hcond
    have hnobody : ∀ j, ((σ.pc j).at k).changing = false := by simpa [allowed] using hallow
    have hinactive : (σ.slots k).record.active = false := by simpa using hcond.2.2
    exact h.enter hcond.1 rfl hnobody rfl ⟨hinactive, (h k).cleared hinactive hnobody⟩ rfl
  | next i => exact h.advance hallow hst

end

theorem sound_init (n : Nat) : Sound (init n) := by
  intro k
  have hidle : (init n).parties k = fun _ => .idle := funext fun _ => Pc.at_self (.inr rfl)
  rw [hidle]
  exact ⟨(countOf_eq_zero fun _ => rfl).symm, Nat.two_pow_pos 32, Nat.two_pow_pos 32, nofun,
    fun _ => trivial, fun _ _ => rfl, fun _ => rfl, nofun, nofun, nofun, nofun, nofun, nofun⟩

theorem sound_reached (h : (machine n).ReachedBy (fun σ l => allowed σ l = true) σ) : Sound σ := by
  refine h.inv (P := Sound) ?_ ?_
  · rintro _ rfl
    exact sound_init n
  · intro _ _ _ hs hallow hst
    exact hs.step hallow hst

/-! ## Quiescing -/

theorem Pc.slot_of_token {p : Pc} (h : p.active_token = some d) : p.slot = some d.slot := by
  cases p <;> simp_all [Pc.active_token, Pc.slot]

/-- While no pin or unpin is in progress, the parties that are counted have a token of the
slot's driver. -/
theorem Sound.counted_iff (h : Sound σ) (hquiet : ∀ i, ((σ.pc i).at k).pinning = false)
    (i : Fin n) : (σ.parties k i).counted =
      decide ((σ.pc i).active_token = some ⟨k, (σ.slots k).record.generation⟩) := by
  rw [Bool.eq_iff_iff, decide_eq_true_eq]
  constructor
  · intro hcounted
    have hpinning : (σ.parties k i).pinning = false := hquiet i
    obtain ⟨d, kind, hp⟩ : ∃ d kind, σ.parties k i = .token d kind := by
      cases hp : σ.parties k i <;> rw [hp] at hcounted hpinning <;>
        simp_all [Pc.counted, Pc.pinning] <;> split at hcounted <;> simp_all
    have hgen := (h k).current i d (by rw [hp]; rfl)
    have hat : (σ.pc i).at k = .token d kind := hp
    unfold Pc.at at hat
    split at hat
    · rename_i hslot
      rw [hat] at hslot ⊢
      simp only [Pc.slot, some.injEq] at hslot
      rw [← hslot] at hgen ⊢
      rw [hgen]
      rfl
    · cases hat
  · intro htoken
    have hself : σ.parties k i = σ.pc i := Pc.at_self (.inl (Pc.slot_of_token htoken))
    rw [hself]
    exact Pc.counted_of_token htoken

/-- In every run that keeps to `allowed`: no token of a driver that was quiesced is active,
and while no pin or unpin is in progress at a slot, its counter is the number of active
tokens of its driver. So a driver without tokens passes the wait at the first look. -/
theorem quiesced_drivers_stay_stopped (h : (machine n).ReachedBy (fun σ l => allowed σ l = true) σ) :
    (∀ d ∈ σ.stopped, ∀ i, (σ.pc i).active_token ≠ some d) ∧
      ∀ k, (∀ i, ((σ.pc i).at k).pinning = false) →
        (σ.slots k).quiesce.in_flight =
            countOf (fun pc => decide (pc.active_token =
              some ⟨k, (σ.slots k).record.generation⟩)) σ.pc ∧
          ((∀ i, (σ.pc i).active_token ≠ some ⟨k, (σ.slots k).record.generation⟩) →
            ∀ g asked left, turn (σ.slots k) (.wait_spin ⟨k, g⟩ asked left) =
                some (returns (σ.slots k) .ok) ∧
              turn (σ.slots k) (.wait_last ⟨k, g⟩ asked) = some (returns (σ.slots k) .ok)) := by
  have hsound := sound_reached h
  refine ⟨?_, ?_⟩
  · intro d hd i htoken
    have hself : σ.parties d.slot i = σ.pc i := Pc.at_self (.inl (Pc.slot_of_token htoken))
    have hgen := (hsound d.slot).current i d (by rw [hself]; exact htoken)
    exact ((hsound d.slot).stopped d.generation hd).2 hgen i
      (by rw [hself]; exact Pc.hopes_of_token htoken)
  · intro k hquiet
    have hcount : (σ.slots k).quiesce.in_flight =
        countOf (fun pc => decide (pc.active_token =
          some ⟨k, (σ.slots k).record.generation⟩)) σ.pc := by
      rw [(hsound k).count]
      unfold countOf
      congr 1
      apply Finset.filter_congr
      intro i _
      rw [hsound.counted_iff hquiet i]
    refine ⟨hcount, ?_⟩
    intro hnone g asked left
    have hzero : (σ.slots k).quiesce.in_flight = 0 := by
      rw [hcount]
      exact countOf_eq_zero fun i => by simpa using hnone i
    constructor
    · show some _ = _
      rw [if_pos hzero]
    · show some _ = _
      rw [if_pos hzero]

end

/-! ## Runs -/

/-- `i` goes on `n` times. -/
def nexts {n : Nat} (i : Fin n) (times : Nat) : List (Label n) := List.replicate times (.next i)

/-- Party `i` registers a driver in slot 0 and makes it ready. -/
def make_ready {n : Nat} (i : Fin n) (generation : Nat) : List (Label n) :=
  .activate i 0 :: nexts i 13 ++ .set_state i ⟨0, generation⟩ .loading :: nexts i 4 ++
    .set_state i ⟨0, generation⟩ .linked :: nexts i 4 ++
    .set_state i ⟨0, generation⟩ .ready :: nexts i 4

/-- A pin of the first driver has raised the counter; the driver is unregistered and
another one is registered in its slot, which resets the counter; the pin then gives up
and lowers it. With no call in progress and no token, the counter of the new driver is
2^32 - 1, and its wait does not succeed. -/
theorem a_late_pin_spoils_the_next_driver :
    ∃ σ : State 2, (machine 2).Reachable σ ∧ σ.pc 0 = .idle ∧ σ.pc 1 = .idle ∧
      (σ.slots 0).record.active = true ∧ (σ.slots 0).record.generation = 2 ∧
      (σ.slots 0).quiesce.in_flight = 2 ^ 32 - 1 ∧
      ∀ asked, (turn (σ.slots 0) (.wait_last ⟨0, 2⟩ asked)).map (·.result) = some none :=
  Machine.exists_reachable (.start rfl)
    (make_ready 0 1 ++ .pin 1 ⟨0, 1⟩ .call :: nexts 1 4 ++ .unregister 0 0 :: nexts 0 3 ++
      .activate 0 0 :: nexts 0 13 ++ nexts 1 6) (by decide +kernel)

/-- A driver is pinned, quiesced, unpinned and waited for; its slot goes to another
driver, which is pinned in turn. -/
theorem quiesce_and_reuse_stays_stopped :
    ∃ σ : State 2, σ.stopped = [⟨0, 1⟩] ∧ σ.pc 1 = .token ⟨0, 2⟩ .call ∧
      (∀ d ∈ σ.stopped, ∀ i, (σ.pc i).active_token ≠ some d) := by
  obtain ⟨σ, hσ, hstopped, hpc⟩ : ∃ σ : State 2, (machine 2).ReachedBy (fun σ l => allowed σ l = true) σ ∧
      σ.stopped = [⟨0, 1⟩] ∧ σ.pc 1 = .token ⟨0, 2⟩ .call :=
    Machine.exists_reachedBy (.start rfl)
      (make_ready 0 1 ++ .pin 1 ⟨0, 1⟩ .call :: nexts 1 8 ++ .begin_quiesce 0 ⟨0, 1⟩ :: nexts 0 9 ++
        .unpin 1 :: nexts 1 4 ++ .wait_quiesced 0 ⟨0, 1⟩ 8 false :: nexts 0 3 ++
        .unregister 0 0 :: nexts 0 3 ++ make_ready 0 2 ++ .pin 1 ⟨0, 2⟩ .call :: nexts 1 8)
      (by decide +kernel)
  exact ⟨σ, hstopped, hpc, (quiesced_drivers_stay_stopped hσ).1⟩

end mini_kernel.driver_activity
