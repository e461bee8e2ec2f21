-- The law of the thread stacks: threads have different slots, keep their pages, and
-- stay in the arena above the heap, as long as no call looks for a slot while another
-- one has chosen its slot and not yet written it down.
import MiniKernel.Lib.Store
import MiniKernel.Process.ThreadStacks

open mini_kernel.lib mini_kernel.vm Function List Option

namespace mini_kernel.thread

/-- The laws read a state as its table of threads. -/
instance {n : Nat} : CoeFun (State n) fun _ => Record → Thread := ⟨State.thread_table⟩

/-! ## Slots of the arena -/

section
variable {code_base slot slot' page page' : Nat}

theorem arena_values : stack_slot_span = 20480 ∧ arena_size = 143360 := by decide

/-- Pages of different slots are different, and so are the pages of one slot. -/
theorem stack_page_inj (hpage : page < 4) (hpage' : page' < 4)
    (h : stack_page code_base slot page = stack_page code_base slot' page') : slot = slot' ∧ page = page' := by
  obtain ⟨hspan, -⟩ := arena_values
  unfold stack_page stack_base guard_base at h
  rw [hspan] at h
  simp only [VM_PAGE_SIZE] at h
  omega

theorem stack_base_pos : stack_base code_base slot ≠ 0 := by
  unfold stack_base
  simp only [VM_PAGE_SIZE]
  omega

/-- A slot lies in the arena, its guard page included. -/
theorem slot_in_arena (code_base : Nat) (h : slot < THREADS_PER_PROCESS_MAX - 1) {pages : Nat}
    (hp : pages ≤ 4) : heap_limit code_base ≤ guard_base code_base slot ∧
      stack_base code_base slot + pages * VM_PAGE_SIZE ≤ code_base + USER_SLOT_SPAN := by
  obtain ⟨hspan, hsize⟩ := arena_values
  unfold heap_limit stack_base guard_base
  rw [hspan, hsize]
  simp only [THREADS_PER_PROCESS_MAX, USER_SLOT_SPAN, VM_PAGE_SIZE] at *
  omega

end

/-! ## Unmapping -/

theorem unmap_range_pages (pages : Nat → Option Record) (address count : Nat)
    (h : ∀ k < count, pages (address + k * VM_PAGE_SIZE) ≠ none) (p : Nat) :
    unmap_range pages address count p =
      if ∃ k < count, p = address + k * VM_PAGE_SIZE then none else pages p := by
  induction count generalizing pages address with
  | zero => simp [unmap_range]
  | succ count ih =>
    have h0 := h 0 (Nat.succ_pos _)
    rw [Nat.zero_mul, Nat.add_zero] at h0
    obtain ⟨r, hr⟩ := ne_none_iff_exists'.mp h0
    simp only [unmap_range, hr]
    rw [ih]
    · by_cases hp : p = address
      · subst hp
        have hyes : ∃ k < count + 1, p = p + k * VM_PAGE_SIZE := ⟨0, Nat.succ_pos _, by simp⟩
        rw [if_pos hyes, update_self]
        split <;> rfl
      · rw [update_of_ne hp]
        congr 1
        apply propext
        constructor
        · rintro ⟨k, hk, rfl⟩
          exact ⟨k + 1, Nat.succ_lt_succ hk, by ring⟩
        · rintro ⟨k, hk, rfl⟩
          cases k with
          | zero => exact absurd (by simp) hp
          | succ k => exact ⟨k, Nat.lt_of_succ_lt_succ hk, by ring⟩
    · intro k hk
      have hne : address + VM_PAGE_SIZE + k * VM_PAGE_SIZE ≠ address := by
        simp only [VM_PAGE_SIZE]
        omega
      rw [update_of_ne hne]
      have := h (k + 1) (Nat.succ_lt_succ hk)
      rwa [Nat.add_mul, Nat.one_mul, Nat.add_comm (k * VM_PAGE_SIZE), ← Nat.add_assoc] at this

/-! ## The invariant -/

section
variable {n : Nat} {s s' : State n} {c : Fin n} {r : Record}

/-- The record that a call works on. -/
def Pc.record : Pc → Option Record
  | .idle | .searched _ _ => none
  | .allocated r _ _ | .mapping r _ _ _ | .registering r _ _ | .finishing r _ _ | .unmapping r _ _
  | .discarding r => some r

/-- The slot that a call has chosen and not written down. -/
def Pc.chosen : Pc → Option Nat
  | .searched _ slot | .allocated _ _ slot => some slot
  | _ => none

/-- A record whose thread was not started yet. -/
def Building (thread : Thread) : Prop :=
  thread.used ∧ thread.is_main = false ∧ thread.active ∧ thread.exited = false ∧
    thread.runtime_released = false ∧ thread.stack_base = 0

/-- A slot of the arena that no record has. -/
def Open (s : State n) (slot : Nat) : Prop :=
  slot < THREADS_PER_PROCESS_MAX - 1 ∧ ∀ r, s.holding r ≠ none → (s r).user_stack_slot ≠ slot

def Size (page_count : Nat) : Prop := 1 ≤ page_count ∧ page_count ≤ 4

/-- What a call has done so far. -/
def Stage (s : State n) : Pc → Prop
  | .idle => True
  | .searched page_count slot => Size page_count ∧ Open s slot
  | .allocated r page_count slot =>
    Size page_count ∧ Open s slot ∧ Building (s r) ∧ s.holding r = none
  | .mapping r page_count slot mapped =>
    Size page_count ∧ mapped ≤ page_count ∧ Building (s r) ∧
      (s r).user_stack_slot = slot ∧ s.holding r = some mapped
  | .registering r page_count slot | .finishing r page_count slot =>
    Size page_count ∧ Building (s r) ∧ (s r).user_stack_slot = slot ∧
      s.holding r = some page_count
  | .unmapping r slot mapped =>
    Building (s r) ∧ (s r).user_stack_slot = slot ∧ s.holding r = some mapped
  | .discarding r => Building (s r) ∧ s.holding r = some 0

/-- A thread that was started: it has its stack, or has exited and given it back. -/
def Started (s : State n) (r : Record) : Prop :=
  let thread := s r
  thread.stack_base = stack_base s.code_base thread.user_stack_slot ∧
      s.holding r = some thread.stack_page_count ∧ thread.runtime_released = false ∧
      thread.active = !thread.exited ∨
    thread.stack_base = 0 ∧ s.holding r = some 0 ∧ thread.exited ∧ thread.runtime_released ∧
      thread.active = false

structure Inv (s : State n) : Prop where
  distinct : ∀ c c' r, (s.pc c).record = some r → (s.pc c').record = some r → c = c'
  lone : ∀ c c', (s.pc c).chosen ≠ none → (s.pc c').chosen ≠ none → c = c'
  stage : ∀ c, Stage s (s.pc c)
  held : ∀ r m, s.holding r = some m → (s r).used ∧
    (s r).is_main = false ∧
    (s r).user_stack_slot < THREADS_PER_PROCESS_MAX - 1 ∧ m ≤ 4
  slots : ∀ r r', s.holding r ≠ none → s.holding r' ≠ none →
    (s r).user_stack_slot = (s r').user_stack_slot → r = r'
  pages : ∀ p r, s.pages p = some r ↔ ∃ m, s.holding r = some m ∧ ∃ k < m,
    p = stack_page s.code_base (s r).user_stack_slot k
  started : ∀ r, (s r).used → (s r).is_main = false →
    (∀ c, (s.pc c).record ≠ some r) → Started s r
  unused : ∀ r, (s r).used = false → s r = thread_record_zero

theorem Stage.building {pc : Pc} (h : Stage s pc) (hr : pc.record = some r) : Building (s r) := by
  cases pc with
  | idle | searched => cases hr
  | allocated => cases hr; exact h.2.2.1
  | mapping => cases hr; exact h.2.2.1
  | registering => cases hr; exact h.2.1
  | finishing => cases hr; exact h.2.1
  | unmapping => cases hr; exact h.1
  | discarding => cases hr; exact h.1

theorem Inv.bound (I : Inv s) (m : Nat) (hm : s.holding r = some m) :
    (s r).used ∧ (s r).is_main = false ∧ m ≤ 4 := by
  obtain ⟨hused, hmain, -, hle⟩ := I.held r m hm
  exact ⟨hused, hmain, hle⟩

theorem Inv.not_working (I : Inv s) (hr : ¬ Building (s r)) (c : Fin n) :
    (s.pc c).record ≠ some r := fun h => hr ((I.stage c).building h)

/-! ## What a change of one record keeps -/

/-- The stage of a call depends on its own record, and on the slots that records hold. -/
theorem Stage.keep {pc : Pc} (h : Stage s pc)
    (hsame : ∀ q, pc.record = some q → s' q = s q ∧ s'.holding q = s.holding q)
    (hopen : ∀ slot, pc.chosen = some slot → Open s' slot) : Stage s' pc := by
  cases pc with
  | idle => trivial
  | searched => exact ⟨h.1, hopen _ rfl⟩
  | allocated q =>
    obtain ⟨htable, hholding⟩ := hsame q rfl
    exact ⟨h.1, hopen _ rfl, htable.symm ▸ h.2.2.1, hholding.trans h.2.2.2⟩
  | mapping q | registering q | finishing q | unmapping q | discarding q =>
    obtain ⟨htable, hholding⟩ := hsame q rfl
    simp only [Stage] at h ⊢
    rw [htable, hholding]
    exact h

/-- The state with another record at `r`. -/
def State.set (s : State n) (r : Record) (thread : Thread) (held : Option Nat) (pages : Nat → Option Record)
    (count : Nat) (pc : Fin n → Pc) : State n where
  thread_table := update s.thread_table r thread
  thread_count := count
  code_base := s.code_base
  pages := pages
  holding := update s.holding r held
  pc := pc

section
variable {thread : Thread} {held : Option Nat} {pages : Nat → Option Record} {count : Nat} {pc : Fin n → Pc}

theorem set_table_self : (s.set r thread held pages count pc).thread_table r = thread := update_self _ _ _

variable {q : Record} {M : Fin n → Prop} {slot : Nat} {pc₀ pc' : Pc}

theorem set_table_of_ne (h : q ≠ r) :
    (s.set r thread held pages count pc).thread_table q = s q := update_of_ne h _ _

theorem set_holding_self : (s.set r thread held pages count pc).holding r = held := update_self _ _ _

theorem set_holding_of_ne (h : q ≠ r) :
    (s.set r thread held pages count pc).holding q = s.holding q := update_of_ne h _ _

@[elab_as_elim]
theorem set_cases {P : Thread → Option Nat → Prop} (q : Record) (hself : q = r → P thread held)
    (hother : q ≠ r → P (s q) (s.holding q)) : P ((s.set r thread held pages count pc).thread_table q)
      ((s.set r thread held pages count pc).holding q) := by
  by_cases hq : q = r
  · subst hq
    rw [set_table_self, set_holding_self]
    exact hself rfl
  · rw [set_table_of_ne hq, set_holding_of_ne hq]
    exact hother hq

/-- The record has the pages of a slot that it holds; those of other records stay. -/
def Maps (s : State n) (r : Record) (slot : Nat) (held : Option Nat) (pages : Nat → Option Record) : Prop :=
  ∀ p q, pages p = some q ↔
    if q = r then ∃ m, held = some m ∧ ∃ k < m, p = stack_page s.code_base slot k else s.pages p = some q

/-- What has to be shown when one record changes, and the calls for which `M` holds
move on, of which there is one at most. -/
structure Change (s : State n) (r : Record) (thread : Thread) (held : Option Nat)
    (pages : Nat → Option Record) (count : Nat) (pc : Fin n → Pc) (M : Fin n → Prop) : Prop where
  keep : ∀ c, ¬ M c → pc c = s.pc c ∧ (s.pc c).record ≠ some r
  one : ∀ c c', M c → M c' → c = c'
  before : ∀ c, M c → (s.pc c).record = none ∨ (s.pc c).record = some r
  record : ∀ c, M c → (pc c).record = none ∨ (pc c).record = some r
  chosen : ∀ c, M c → (pc c).chosen ≠ none → (s.pc c).chosen ≠ none
  gain : held ≠ none →
    s.holding r ≠ none ∧ thread.user_stack_slot = (s r).user_stack_slot ∨
      ∃ c, M c ∧ (s.pc c).chosen ≠ none ∧ Open s thread.user_stack_slot
  bound : ∀ m, held = some m → thread.used ∧ thread.is_main = false ∧ m ≤ 4
  maps : ∀ p q, pages p = some q ↔
    if q = r then ∃ m, held = some m ∧ ∃ k < m, p = stack_page s.code_base thread.user_stack_slot k
    else s.pages p = some q
  stage : ∀ c, M c → Stage (s.set r thread held pages count pc) (pc c)
  started : thread.used → thread.is_main = false → (∀ c, (pc c).record ≠ some r) →
    Started (s.set r thread held pages count pc) r
  zero : thread.used = false → thread = thread_record_zero

/-- A slot that was open to another call stays open to it. -/
theorem Change.open (h : Change s r thread held pages count pc M) (I : Inv s)
    (hc : ¬ M c) (hslot : (s.pc c).chosen = some slot) (ho : Open s slot) :
    Open (s.set r thread held pages count pc) slot := by
  refine ⟨ho.1, fun q => ?_⟩
  refine set_cases q (fun _ hq => ?_) fun _ => ho.2 q
  rcases h.gain hq with ⟨hold, hsame⟩ | ⟨c', hc', hchosen, -⟩
  · rw [hsame]
    exact ho.2 r hold
  · have : c = c' := I.lone c c' (by simp [hslot]) hchosen
    exact absurd (this ▸ hc') hc

theorem Stage.open {pc : Pc} (h : Stage s pc) (hslot : pc.chosen = some slot) : Open s slot := by
  cases pc with
  | searched => cases hslot; exact h.2
  | allocated => cases hslot; exact h.2.1
  | idle | mapping | registering | finishing | unmapping | discarding => cases hslot

/-- No other record has the slot. -/
theorem Change.apart (h : Change s r thread held pages count pc M) (I : Inv s)
    (hq : q ≠ r) (hold : s.holding q ≠ none) (hheld : held ≠ none) :
    (s q).user_stack_slot ≠ thread.user_stack_slot := by
  rcases h.gain hheld with ⟨hr, hsame⟩ | ⟨c, -, -, ho⟩
  · rw [hsame]
    exact fun heq => hq (I.slots q r hold hr heq)
  · exact ho.2 q hold

theorem Inv.change (I : Inv s) (h : Change s r thread held pages count pc M) :
    Inv (s.set r thread held pages count pc) := by
  have hslot : held ≠ none → thread.user_stack_slot < THREADS_PER_PROCESS_MAX - 1 := by
    intro hheld
    rcases h.gain hheld with ⟨hr, hsame⟩ | ⟨c, -, -, ho⟩
    · obtain ⟨m, hm⟩ := ne_none_iff_exists'.mp hr
      rw [hsame]
      exact (I.held r m hm).2.2.1
    · exact ho.1
  refine ⟨?_, ?_, ?_, ?_, ?_, ?_, ?_, ?_⟩
  · intro c c' q hq hq'
    change (pc c).record = some q at hq
    change (pc c').record = some q at hq'
    by_cases hc : M c <;> by_cases hc' : M c'
    · exact h.one c c' hc hc'
    · rcases h.record c hc with hnone | hsome
      · rw [hnone] at hq
        cases hq
      · rw [hsome] at hq
        rw [(h.keep c' hc').1, ← hq] at hq'
        exact absurd hq' (h.keep c' hc').2
    · rcases h.record c' hc' with hnone | hsome
      · rw [hnone] at hq'
        cases hq'
      · rw [hsome] at hq'
        rw [(h.keep c hc).1, ← hq'] at hq
        exact absurd hq (h.keep c hc).2
    · rw [(h.keep c hc).1] at hq
      rw [(h.keep c' hc').1] at hq'
      exact I.distinct c c' q hq hq'
  · have hback : ∀ c, (pc c).chosen ≠ none → (s.pc c).chosen ≠ none := by
      intro c hchosen
      by_cases hc : M c
      · exact h.chosen c hc hchosen
      · rwa [(h.keep c hc).1] at hchosen
    intro c c' hchosen hchosen'
    exact I.lone c c' (hback c hchosen) (hback c' hchosen')
  · intro c
    by_cases hc : M c
    · exact h.stage c hc
    change Stage _ (pc c)
    rw [(h.keep c hc).1]
    apply (I.stage c).keep
    · intro q hq
      have hne : q ≠ r := fun heq => (h.keep c hc).2 (heq ▸ hq)
      exact ⟨set_table_of_ne hne, set_holding_of_ne hne⟩
    · intro slot hslot
      exact h.open I hc hslot ((I.stage c).open hslot)
  · intro q m
    refine set_cases q (fun _ hq => ?_) fun _ => I.held q m
    obtain ⟨h1, h2, h3⟩ := h.bound m hq
    exact ⟨h1, h2, hslot (by simp [hq]), h3⟩
  · intro q q'
    refine set_cases q (fun hq => ?_) fun hq => ?_
    · refine set_cases q' (fun hq' _ _ _ => hq.trans hq'.symm) fun hq' hheld hold heq => ?_
      exact absurd heq.symm (h.apart I hq' hold hheld)
    · refine set_cases q' (fun _ hold hheld heq => ?_) fun _ => I.slots q q'
      exact absurd heq (h.apart I hq hold hheld)
  · intro p q
    refine (h.maps p q).trans ?_
    by_cases hqr : q = r
    · subst hqr
      rw [if_pos rfl, set_holding_self, set_table_self]
      rfl
    · rw [if_neg hqr, set_holding_of_ne hqr, set_table_of_ne hqr]
      exact I.pages p q
  · intro q hused hmain hnone
    by_cases hqr : q = r
    · subst hqr
      rw [set_table_self] at hused hmain
      exact h.started hused hmain hnone
    rw [set_table_of_ne hqr] at hused hmain
    have hbefore : ∀ c, (s.pc c).record ≠ some q := by
      intro c hc
      by_cases hm : M c
      · rcases h.before c hm with h' | h'
        · rw [h'] at hc
          cases hc
        · rw [h'] at hc
          exact hqr (some.inj hc).symm
      · exact hnone c (by change (pc c).record = some q; rw [(h.keep c hm).1]; exact hc)
    have := I.started q hused hmain hbefore
    unfold Started at this ⊢
    rw [set_table_of_ne hqr, set_holding_of_ne hqr]
    exact this
  · intro q
    exact set_cases q (fun _ => h.zero) fun _ => I.unused q

/-- A call moves on with a record that no other call works on. -/
theorem Inv.move (thread : Thread) (held : Option Nat) (pages : Nat → Option Record) (count : Nat)
    (I : Inv s) (hpc : s.pc c = pc₀) (hr : pc₀.record = none ∨ pc₀.record = some r)
    (hothers : ∀ c' ≠ c, (s.pc c').record ≠ some r) (hrecord : pc'.record = none ∨ pc'.record = some r)
    (hchosen : pc'.chosen ≠ none → pc₀.chosen ≠ none) (hgain : held ≠ none →
      s.holding r ≠ none ∧ thread.user_stack_slot = (s r).user_stack_slot ∨
        pc₀.chosen ≠ none ∧ Open s thread.user_stack_slot)
    (hbound : ∀ m, held = some m → thread.used ∧ thread.is_main = false ∧ m ≤ 4)
    (hmaps : Maps s r thread.user_stack_slot held pages)
    (hstage : Stage (s.set r thread held pages count (update s.pc c pc')) pc')
    (hstarted : thread.used → thread.is_main = false → pc'.record = none →
      Started (s.set r thread held pages count (update s.pc c pc')) r)
    (hzero : thread.used = false → thread = thread_record_zero) :
    Inv (s.set r thread held pages count (update s.pc c pc')) := by
  subst hpc
  apply I.change (M := (· = c))
  refine ⟨?_, ?_, ?_, ?_, ?_, ?_, hbound, hmaps, ?_, ?_, hzero⟩
  · intro c' hc'
    rw [update_of_ne hc']
    exact ⟨rfl, hothers c' hc'⟩
  · rintro c₁ c₂ rfl rfl
    rfl
  · rintro c' rfl
    exact hr
  · rintro c' rfl
    rwa [update_self]
  · rintro c' rfl h
    rw [update_self] at h
    exact hchosen h
  · intro h
    exact (hgain h).imp_right fun h => ⟨c, rfl, h⟩
  · rintro c' rfl
    rwa [update_self]
  · intro hused hmain hnone
    apply hstarted hused hmain
    have hc := hnone c
    rw [update_self] at hc
    exact hrecord.resolve_right hc

theorem Inv.alone (I : Inv s) (hpc : s.pc c = pc₀) (hr : pc₀.record = some r) :
    ∀ c' ≠ c, (s.pc c').record ≠ some r :=
  fun c' hc' h => hc' (I.distinct c' c r h (hpc.symm ▸ hr))

/-- A thread that was started changes its record. -/
theorem Inv.amend (thread : Thread) (held : Option Nat) (pages : Nat → Option Record) (count : Nat)
    (I : Inv s) (hr : ∀ c, (s.pc c).record ≠ some r) (hgain : held ≠ none →
      s.holding r ≠ none ∧ thread.user_stack_slot = (s r).user_stack_slot)
    (hbound : ∀ m, held = some m → thread.used ∧ thread.is_main = false ∧ m ≤ 4)
    (hmaps : Maps s r thread.user_stack_slot held pages)
    (hstarted : thread.used → thread.is_main = false →
      Started (s.set r thread held pages count s.pc) r)
    (hzero : thread.used = false → thread = thread_record_zero) :
    Inv (s.set r thread held pages count s.pc) := by
  apply I.change (M := fun _ => False)
  exact ⟨fun c _ => ⟨rfl, hr c⟩, fun _ _ h => h.elim, fun _ h => h.elim, fun _ h => h.elim, fun _ h => h.elim,
    fun h => .inl (hgain h), hbound, hmaps, fun _ h => h.elim, fun h1 h2 _ => hstarted h1 h2, hzero⟩

/-- A call that works on no record yet moves on. -/
theorem Inv.goto (I : Inv s) (hbefore : (s.pc c).record = none) (hafter : pc'.record = none)
    (hstage : Stage s pc') (hlone : pc'.chosen ≠ none → ∀ c', c' ≠ c → (s.pc c').chosen = none) :
    Inv (s.goto c pc') := by
  have hrecord : ∀ c' q, ((s.goto c pc').pc c').record = some q ↔ (s.pc c').record = some q := by
    intro c' q
    unfold State.goto
    dsimp only
    refine update_cases c' (fun hc => ?_) fun _ => .rfl
    rw [hc, hafter, hbefore]
  have hpc : (s.goto c pc').pc = update s.pc c pc' := rfl
  refine ⟨?_, ?_, ?_, I.held, I.slots, I.pages, ?_, I.unused⟩
  · intro c₁ c₂ q h1 h2
    exact I.distinct c₁ c₂ q ((hrecord c₁ q).mp h1) ((hrecord c₂ q).mp h2)
  · rw [hpc]
    exact update_unique (P := fun pc : Pc => pc.chosen ≠ none) I.lone fun hnew c' hc' =>
      not_not.mpr (hlone hnew c' hc')
  · intro c'
    rw [hpc]
    have hkeep : ∀ {pc : Pc}, Stage s pc → Stage (s.goto c pc') pc :=
      fun h => h.keep (fun _ _ => ⟨rfl, rfl⟩) fun _ => h.open
    exact update_cases c' (fun _ => hkeep hstage) fun _ => hkeep (I.stage c')
  · intro q h1 h2 h3
    exact I.started q h1 h2 fun c' h => h3 c' ((hrecord c' q).mpr h)

/-! ## The pages of one record -/

/-- The pages stay, and so does their number. -/
theorem maps_same (I : Inv s) (hslot : thread.user_stack_slot = (s r).user_stack_slot) :
    Maps s r thread.user_stack_slot (s.holding r) s.pages := by
  intro p q
  split
  · rename_i hq
    subst hq
    rw [hslot]
    exact I.pages p q
  · rfl

/-- No page before, and no page after. -/
theorem maps_none (I : Inv s) (hbefore : ∀ m, s.holding r = some m → m = 0)
    (hafter : ∀ m, held = some m → m = 0) : Maps s r slot held s.pages := by
  intro p q
  split
  · rename_i hq
    subst hq
    constructor
    · intro hp
      obtain ⟨m, hm, k, hk, -⟩ := (I.pages p q).mp hp
      rw [hbefore m hm] at hk
      exact absurd hk (Nat.not_lt_zero k)
    · rintro ⟨m, hm, k, hk, -⟩
      rw [hafter m hm] at hk
      exact absurd hk (Nat.not_lt_zero k)
  · rfl

/-- One page more is mapped for the record. -/
theorem maps_more (I : Inv s) {m : Nat} (hm : s.holding r = some m) (hlt : m < 4) :
    Maps s r (s r).user_stack_slot (some (m + 1))
      (update s.pages (stack_page s.code_base (s r).user_stack_slot m) (some r)) := by
  intro p q
  have hpages := I.pages p q
  by_cases hp : p = stack_page s.code_base (s r).user_stack_slot m
  · subst hp
    rw [update_self]
    split
    · rename_i hq
      subst hq
      exact ⟨fun _ => ⟨m + 1, rfl, m, Nat.lt_succ_self m, rfl⟩, fun _ => rfl⟩
    rename_i hq
    refine ⟨fun h => absurd (some.inj h).symm hq, fun h => ?_⟩
    -- the page would belong to another record of the slot
    obtain ⟨m', hm', k, hk, heq⟩ := hpages.mp h
    have hk4 : k < 4 := Nat.lt_of_lt_of_le hk (I.held q m' hm').2.2.2
    have hslot := (stack_page_inj hlt hk4 heq).1
    exact absurd (I.slots q r (by simp [hm']) (by simp [hm]) hslot.symm) hq
  · rw [update_of_ne hp]
    split
    · rename_i hq
      subst hq
      rw [hpages]
      constructor
      · rintro ⟨m', hm', k, hk, rfl⟩
        rw [hm] at hm'
        cases hm'
        exact ⟨m + 1, rfl, k, Nat.lt_succ_of_lt hk, rfl⟩
      · rintro ⟨m', hm', k, hk, rfl⟩
        cases hm'
        refine ⟨m, hm, k, ?_, rfl⟩
        have : k ≠ m := fun h => hp (by rw [h])
        omega
    · rfl

/-- All pages of the record are unmapped, and no other. -/
theorem maps_unmap (I : Inv s) {m : Nat} (hm : s.holding r = some m) : Maps s r slot (some 0)
    (unmap_range s.pages (stack_base s.code_base (s r).user_stack_slot) m) := by
  intro p q
  have hmapped : ∀ k < m, s.pages (stack_page s.code_base (s r).user_stack_slot k) = some r :=
    fun k hk => (I.pages _ r).mpr ⟨m, hm, k, hk, rfl⟩
  rw [unmap_range_pages]
  · split
    · rename_i hrange
      obtain ⟨k, hk, rfl⟩ := hrange
      have hr := hmapped k hk
      unfold stack_page at hr
      split
      · simp
      · rename_i hq
        rw [hr]
        exact ⟨nofun, fun h => absurd (some.inj h).symm hq⟩
    · rename_i hrange
      split
      · rename_i hq
        subst hq
        constructor
        · intro h
          obtain ⟨m', hm', k, hk, heq⟩ := (I.pages p q).mp h
          rw [hm] at hm'
          cases hm'
          exact absurd ⟨k, hk, heq⟩ hrange
        · rintro ⟨m', hm', k, hk, -⟩
          cases hm'
          exact absurd hk (Nat.not_lt_zero k)
      · rfl
  · intro k hk
    have := hmapped k hk
    unfold stack_page at this
    rw [this]
    exact some_ne_none r

/-! ## The steps -/

theorem put_eq (s : State n) (r : Record) (thread : Thread) (pc : Fin n → Pc) :
    { s.put r thread with pc := pc } = s.set r thread (s.holding r) s.pages s.thread_count pc := by
  simp only [State.set, State.put, update_eq_self]

theorem set_same (s : State n) (r : Record) (c : Fin n) (pc' : Pc) :
    s.set r (s r) (s.holding r) s.pages s.thread_count (update s.pc c pc') = s.goto c pc' := by
  simp only [State.set, State.goto, update_eq_self]

theorem not_fresh_of_exited {thread : Thread} (h : thread.exited) :
    ¬ Building thread ∧ thread ≠ thread_record_zero := by
  constructor
  · intro hb
    rw [hb.2.2.2.1] at h
    cases h
  · rintro rfl
    cases h

section
variable (I : Inv s)
include I

section
variable (hpc : s.pc c = pc₀) (hr : pc₀.record = some r)
include hpc hr

/-- A call moves on without a change to its record. -/
theorem Inv.pass (hrecord : pc'.record = some r)
    (hchosen : pc'.chosen = none) (hheld : s.holding r ≠ none) (hstage : Stage s pc') : Inv
    (s.goto c pc') := by
  rw [← set_same s r c pc']
  refine I.move _ _ _ _ hpc (.inr hr) (I.alone hpc hr) (.inr hrecord) (fun h => absurd hchosen h)
    (fun _ => .inl ⟨hheld, rfl⟩) I.bound (maps_same I rfl) ?_ ?_ (I.unused r)
  · rw [set_same]
    exact hstage.keep (fun _ _ => ⟨rfl, rfl⟩) fun slot hslot => by rw [hchosen] at hslot; cases hslot
  · intro _ _ hnone
    rw [hrecord] at hnone
    cases hnone

/-- A record goes back to the table. -/
theorem Inv.discard (hempty : ∀ m, s.holding r = some m → m = 0) : Inv ((thread_discard_record s r).goto c .idle) := by
  refine I.move thread_record_zero none s.pages (s.thread_count - 1) hpc (.inr hr) (I.alone hpc hr) (.inl rfl)
    (fun h => absurd rfl h) (fun h => absurd rfl h) nofun (maps_none I hempty nofun) trivial ?_ fun _ => rfl
  intro hused
  cases hused

/-- The pages of the record of a call are mapped or unmapped. -/
theorem Inv.repage {m : Nat} (hrecord : pc'.record = some r)
    (hchosen : pc'.chosen = none) (hbuilding : Building (s r)) (hheld : s.holding r ≠ none)
    (hm : m ≤ 4) (hmaps : Maps s r (s r).user_stack_slot (some m) pages)
    (hstage : ∀ s' : State n, s'.thread_table r = s r → s'.holding r = some m → Stage s' pc') :
    Inv { ((s.hold r (some m)).goto c pc') with pages := pages } := by
  have hset : { ((s.hold r (some m)).goto c pc') with pages := pages } =
      s.set r (s r) (some m) pages s.thread_count (update s.pc c pc') := by
    simp only [State.set, State.goto, State.hold, update_eq_self]
  rw [hset]
  refine I.move _ _ _ _ hpc (.inr hr) (I.alone hpc hr) (.inr hrecord) (fun h => absurd hchosen h)
    (fun _ => .inl ⟨hheld, rfl⟩) ?_ hmaps (hstage _ set_table_self set_holding_self) ?_ (I.unused r)
  · intro k hk
    cases hk
    exact ⟨hbuilding.1, hbuilding.2.1, hm⟩
  · intro _ _ hnone
    rw [hrecord] at hnone
    cases hnone

end

theorem next_inv {succeeds : Bool} (h : next s c succeeds = some s') : Inv s' := by
  have hstage := I.stage c
  unfold next at h
  split at h
  · cases h
  · -- a record is allocated
    rename_i page_count slot hpc
    rw [hpc] at hstage
    have hnone : (s.pc c).record = none := by rw [hpc]; rfl
    have hidle : Inv (s.goto c .idle) := I.goto hnone rfl trivial fun h => absurd rfl h
    split at h
    · exact some.inj h ▸ hidle
    split at h
    · exact some.inj h ▸ hidle
    rename_i r hfree
    cases h
    have hunused : (s r).used = false := by simpa using find?_some hfree
    have hholding : s.holding r = none := by
      cases hm : s.holding r with
      | none => rfl
      | some m =>
        rw [(I.held r m hm).1] at hunused
        cases hunused
    have hset : ({ ((s.put r new_record).goto c (.allocated r page_count slot)) with
        thread_count := s.thread_count + 1 } : State n) =
          s.set r new_record none s.pages (s.thread_count + 1)
            (update s.pc c (.allocated r page_count slot)) := by
      have := update_eq_self r s.holding
      rw [hholding] at this
      simp only [State.set, State.goto, State.put, this]
    rw [hset]
    have hempty : ∀ m, s.holding r = some m → m = 0 := by simp [hholding]
    refine I.move _ _ _ _ hpc (.inl rfl) (fun c' _ => I.not_working ?_ c') (.inr rfl)
      (fun _ => some_ne_none slot) (fun h => absurd rfl h) nofun (maps_none I hempty nofun) ?_ nofun nofun
    · intro hb
      exact absurd hb.1 (by simp [hunused])
    · refine ⟨hstage.1, ⟨hstage.2.1, fun q hq => ?_⟩, ?_, set_holding_self⟩
      · by_cases hqr : q = r
        · rw [hqr, set_holding_self] at hq
          exact absurd rfl hq
        · rw [set_holding_of_ne hqr] at hq
          rw [set_table_of_ne hqr]
          exact hstage.2.2 q hq
      · rw [set_table_self]
        exact ⟨rfl, rfl, rfl, rfl, rfl, rfl⟩
  · -- the slot is written
    rename_i r page_count slot hpc
    rw [hpc] at hstage
    obtain ⟨hsize, hopen, hbuilding, hnone⟩ := hstage
    have hempty : ∀ m, s.holding r = some m → m = 0 := by simp [hnone]
    split at h
    · cases h
      refine I.move { s r with user_stack_slot := slot } (some 0) s.pages s.thread_count hpc
        (.inr rfl) (I.alone hpc rfl) (.inr rfl) (fun h => absurd rfl h) ?_ ?_ (maps_none I hempty ?_) ?_ nofun ?_
      · intro _
        exact .inr ⟨some_ne_none slot, hopen⟩
      · intro m hm
        cases hm
        exact ⟨hbuilding.1, hbuilding.2.1, Nat.zero_le _⟩
      · intro m hm
        cases hm
        rfl
      · refine ⟨hsize, Nat.zero_le _, ?_, ?_, set_holding_self⟩
        · rw [set_table_self]
          exact hbuilding
        · rw [set_table_self]
      · exact fun hused => absurd (hbuilding.1.symm.trans hused) (by decide)
    · cases h
      exact I.discard hpc rfl hempty
  · -- a page is mapped
    rename_i r page_count slot mapped hpc
    rw [hpc] at hstage
    obtain ⟨hsize, hle, hbuilding, hslot, hheld⟩ := hstage
    split at h
    · rename_i hall
      cases h
      refine I.pass hpc rfl rfl rfl (by simp [hheld]) ⟨hsize, hbuilding, hslot, ?_⟩
      rw [hheld, hall]
    split at h
    · rename_i hmore _
      cases h
      subst hslot
      have hlt : mapped < 4 := by
        have := hsize.2
        omega
      refine I.repage hpc rfl rfl rfl hbuilding (by simp [hheld]) hlt (maps_more I hheld hlt) ?_
      intro s' htable hholding
      exact ⟨hsize, by omega, htable.symm ▸ hbuilding, by rw [htable], hholding⟩
    · cases h
      exact I.pass hpc rfl rfl rfl (by simp [hheld]) ⟨hbuilding, hslot, hheld⟩
  · -- the region is registered
    rename_i r page_count slot hpc
    rw [hpc] at hstage
    obtain ⟨hsize, hbuilding, hslot, hheld⟩ := hstage
    cases h
    cases succeeds with
    | true => exact I.pass hpc rfl rfl rfl (by simp [hheld]) ⟨hsize, hbuilding, hslot, hheld⟩
    | false => exact I.pass hpc rfl rfl rfl (by simp [hheld]) ⟨hbuilding, hslot, hheld⟩
  · -- the thread is started
    rename_i r page_count slot hpc
    rw [hpc] at hstage
    obtain ⟨hsize, hbuilding, hslot, hheld⟩ := hstage
    cases h
    subst hslot
    rw [show (s.put r _).goto c .idle = _ from put_eq ..]
    refine I.move _ _ _ _ hpc (.inr rfl) (I.alone hpc rfl) (.inl rfl) (fun h => absurd rfl h)
      (fun _ => .inl ⟨by simp [hheld], rfl⟩) ?_ (maps_same I rfl) trivial ?_
      fun hused => absurd (hbuilding.1.symm.trans hused) (by decide)
    · intro m hm
      rw [hheld] at hm
      cases hm
      exact ⟨hbuilding.1, hbuilding.2.1, hsize.2⟩
    · intro _ _ _
      left
      rw [set_table_self, set_holding_self]
      refine ⟨rfl, hheld, hbuilding.2.2.2.2.1, ?_⟩
      simp only [hbuilding.2.2.1, hbuilding.2.2.2.1, Bool.not_false]
  · -- the pages are unmapped
    rename_i r slot mapped hpc
    rw [hpc] at hstage
    obtain ⟨hbuilding, hslot, hheld⟩ := hstage
    cases h
    subst hslot
    refine I.repage hpc rfl rfl rfl hbuilding (by simp [hheld]) (Nat.zero_le _) (maps_unmap I hheld) ?_
    intro s' htable hholding
    exact ⟨htable.symm ▸ hbuilding, hholding⟩
  · rename_i r hpc
    rw [hpc] at hstage
    cases h
    refine I.discard hpc rfl ?_
    intro m hm
    rw [hstage.2] at hm
    exact (some.inj hm).symm

/-- A thread that is not being created, and is not the main one. -/
theorem Inv.started_of (hb : ¬ Building (s r))
    (hzero : s.thread_table r ≠ thread_record_zero) (hmain : (s r).is_main = false) : Started s r := by
  apply I.started r _ hmain (I.not_working hb)
  cases hused : (s r).used with
  | true => rfl
  | false => exact absurd (I.unused r hused) hzero

theorem exit_inv (h : step s (.exit r) = some s') : Inv s' := by
  simp only [step, ite_none_right_eq_some, some.injEq] at h
  obtain ⟨⟨hactive, hexited, hmain, hbase⟩, rfl⟩ := h
  have hb : ¬ Building (s r) := fun hb => hbase hb.2.2.2.2.2
  have hmain : (s r).is_main = false := by simpa using hmain
  have hzero : s.thread_table r ≠ thread_record_zero := by
    intro heq
    rw [heq] at hactive
    cases hactive
  rw [show s.put r _ = _ from put_eq s r _ s.pc]
  obtain ⟨h1, h2, h3, -⟩ | ⟨h1, -⟩ := I.started_of hb hzero hmain
  · refine I.amend _ _ _ _ (I.not_working hb) (fun h => ⟨h, rfl⟩) I.bound (maps_same I rfl) ?_ ?_
    · intro _ _
      left
      rw [set_table_self, set_holding_self]
      exact ⟨h1, h2, h3, rfl⟩
    · intro hused
      exact absurd (I.unused r hused) hzero
  · exact absurd h1 hbase

theorem release_inv (h : step s (.release r) = some s') : Inv s' := by
  simp only [step, ite_none_right_eq_some, some.injEq] at h
  obtain ⟨⟨hexited, hreleased, hmain⟩, rfl⟩ := h
  have hmain : (s r).is_main = false := by simpa using hmain
  obtain ⟨hb, hzero⟩ := not_fresh_of_exited hexited
  obtain ⟨h1, h2, h3, h4⟩ | ⟨-, -, -, h4, -⟩ := I.started_of hb hzero hmain
  · rw [h1]
    refine I.amend _ (some 0) _ s.thread_count (I.not_working hb) (fun _ => ⟨by simp [h2], rfl⟩) ?_
      (maps_unmap I h2) ?_ ?_
    · intro m hm
      cases hm
      obtain ⟨g1, g2, -, -⟩ := I.held r _ h2
      exact ⟨g1, g2, Nat.zero_le _⟩
    · intro _ _
      right
      rw [set_table_self, set_holding_self]
      refine ⟨rfl, rfl, hexited, rfl, ?_⟩
      simp only [h4, hexited, Bool.not_true]
    · intro hused
      exact absurd (I.unused r hused) hzero
  · rw [h4] at hreleased
    cases hreleased

theorem join_inv (h : step s (.join r) = some s') : Inv s' := by
  simp only [step, ite_none_right_eq_some, some.injEq] at h
  obtain ⟨⟨hexited, hreleased, hmain⟩, rfl⟩ := h
  have hmain : (s r).is_main = false := by simpa using hmain
  obtain ⟨hb, hzero⟩ := not_fresh_of_exited hexited
  have hempty : ∀ m, s.holding r = some m → m = 0 := by
    intro m hm
    obtain ⟨-, -, h3, -⟩ | ⟨-, h2, -⟩ := I.started_of hb hzero hmain
    · rw [h3] at hreleased
      cases hreleased
    · rw [h2] at hm
      exact (some.inj hm).symm
  exact I.amend thread_record_zero none s.pages (s.thread_count - 1) (I.not_working hb)
    (fun h => absurd rfl h) nofun (maps_none I hempty nofun) (fun hused => by cases hused) fun _ => rfl

end

/-! ## The condition -/

/-- No call looks for a slot while another one has chosen its slot and not yet written
it down. -/
def Alone (s : State n) : Label n → Prop
  | .create c _ => ∀ c', c' ≠ c → (s.pc c').chosen = none
  | _ => True

theorem find_stack_slot_open (I : Inv s) (h : find_stack_slot s = some slot) : Open s slot := by
  have hmem := mem_of_find?_eq_some h
  have hfree := find?_some h
  refine ⟨mem_range.mp hmem, fun r hr heq => ?_⟩
  obtain ⟨m, hm⟩ := ne_none_iff_exists'.mp hr
  obtain ⟨hused, hmain, -⟩ := I.held r m hm
  have := all_eq_true.mp hfree r (mem_finRange r)
  simp [hused, hmain, heq] at this

theorem create_inv {stack_size : Nat} (I : Inv s) (hg : Alone s (.create c stack_size))
    (h : step s (.create c stack_size) = some s') : Inv s' := by
  simp only [step, ite_none_left_eq_some, not_not] at h
  obtain ⟨hidle, h⟩ := h
  split at h
  · cases h
    exact I
  rename_i hsize
  simp only [not_or, not_lt, not_not] at hsize
  split at h
  · cases h
    exact I
  rename_i slot hslot
  cases h
  refine I.goto (by rw [hidle]; rfl) rfl ⟨?_, find_stack_slot_open I hslot⟩ fun _ => hg
  simp only [Size, OS_THREAD_STACK_MIN, OS_THREAD_STACK_MAX, VM_PAGE_SIZE] at hsize ⊢
  omega

theorem start_record {n code_base : Nat} {r : Record} (hr : r ≠ ⟨0, by decide⟩) :
    (start n code_base).thread_table r = thread_record_zero := by
  simp only [start]
  rw [update_of_ne hr]

theorem start_inv (n code_base : Nat) : Inv (start n code_base) := by
  refine ⟨nofun, fun c c' h => absurd rfl h, fun c => trivial, nofun, fun r r' h => absurd rfl h, ?_, ?_, ?_⟩
  · intro p r
    constructor
    · intro h
      cases h
    · rintro ⟨m, hm, -⟩
      cases hm
  · intro r hused hmain
    by_cases hr : r = ⟨0, by decide⟩
    · subst hr
      simp [start] at hmain
    · rw [start_record hr] at hused
      cases hused
  · intro r hused
    by_cases hr : r = ⟨0, by decide⟩
    · subst hr
      simp [start, new_record] at hused
    · exact start_record hr

theorem step_inv {l : Label n} (I : Inv s) (hg : Alone s l) (h : step s l = some s') : Inv s' := by
  cases l with
  | create c stack_size => exact create_inv I hg h
  | next c succeeds => exact next_inv I h
  | exit r => exact exit_inv I h
  | release r => exact release_inv I h
  | join r => exact join_inv I h

/-- A thread of the process beside the main one: it has a record, has not exited, and
its slot is written. -/
def Live (s : State n) (r : Record) : Prop :=
  (s r).used ∧ (s r).active ∧ (s r).is_main = false ∧
    ∀ c page_count slot, s.pc c ≠ .allocated r page_count slot

theorem Inv.live_held (I : Inv s) (h : Live s r) : s.holding r ≠ none := by
  obtain ⟨hused, hactive, hmain, hno⟩ := h
  by_cases hwork : ∃ c, (s.pc c).record = some r
  · obtain ⟨c, hc⟩ := hwork
    have hstage := I.stage c
    cases hpc : s.pc c with
    | idle | searched =>
      rw [hpc] at hc
      cases hc
    | allocated q =>
      rw [hpc] at hc
      cases hc
      exact absurd hpc (hno c _ _)
    | mapping q | registering q | finishing q | unmapping q | discarding q =>
      rw [hpc] at hc hstage
      cases hc
      simp only [Stage] at hstage
      simp [hstage]
  · have hnone : ∀ c, (s.pc c).record ≠ some r := fun c hc => hwork ⟨c, hc⟩
    obtain ⟨-, h2, -⟩ | ⟨-, h2, -⟩ := I.started r hused hmain hnone
    · simp [h2]
    · simp [h2]

end

end

/-- In every run in which calls look for slots one after the other: live threads have
different slots and so different stack pages, a thread keeps the pages of its stack
from the time that they are mapped, and the stacks lie with their guard pages in the
arena above the heap. -/
theorem stacks_are_apart (n : Nat) (s : State n) (h : (threads n).ReachedBy Alone s) :
    (∀ r r', Live s r → Live s r' → r ≠ r' →
      (s.thread_table r).user_stack_slot ≠ (s.thread_table r').user_stack_slot ∧
      ∀ page < 4, ∀ page' < 4, stack_page s.code_base (s.thread_table r).user_stack_slot page ≠
        stack_page s.code_base (s.thread_table r').user_stack_slot page') ∧
    (∀ r, Live s r → ∀ page < (s.thread_table r).stack_page_count, (s.thread_table r).stack_base ≠ 0 →
      s.pages ((s.thread_table r).stack_base + page * VM_PAGE_SIZE) = some r) ∧
    (∀ c r page_count slot mapped, s.pc c = .mapping r page_count slot mapped →
      ∀ page < mapped, s.pages (stack_page s.code_base slot page) = some r) ∧
    ∀ r, Live s r → heap_limit s.code_base ≤ guard_base s.code_base (s.thread_table r).user_stack_slot ∧
      stack_base s.code_base (s.thread_table r).user_stack_slot + OS_THREAD_STACK_MAX ≤
        s.code_base + USER_SLOT_SPAN ∧
      ((s.thread_table r).stack_base ≠ 0 → (s.thread_table r).stack_base =
        stack_base s.code_base (s.thread_table r).user_stack_slot ∧
        (s.thread_table r).stack_page_count * VM_PAGE_SIZE ≤ OS_THREAD_STACK_MAX) := by
  have I : Inv s := by
    apply h.inv
    · rintro s ⟨code_base, rfl⟩
      exact start_inv n code_base
    · intro s l s' I hg hst
      exact step_inv I hg hst
  -- a live thread with a stack was started
  have hstarted : ∀ r, Live s r → (s r).stack_base ≠ 0 →
      (s r).stack_base = stack_base s.code_base (s r).user_stack_slot ∧
        s.holding r = some (s r).stack_page_count := by
    intro r hr hbase
    have hb : ¬ Building (s r) := fun hb => hbase hb.2.2.2.2.2
    obtain ⟨h1, h2, -⟩ | ⟨h1, -⟩ := I.started r hr.1 hr.2.2.1 (I.not_working hb)
    · exact ⟨h1, h2⟩
    · exact absurd h1 hbase
  refine ⟨?_, ?_, ?_, ?_⟩
  · intro r r' hr hr' hne
    have hslot : (s r).user_stack_slot ≠ (s r').user_stack_slot :=
      fun heq => hne (I.slots r r' (I.live_held hr) (I.live_held hr') heq)
    refine ⟨hslot, ?_⟩
    intro page hpage page' hpage' heq
    exact hslot (stack_page_inj hpage hpage' heq).1
  · intro r hr page hpage hbase
    obtain ⟨h1, h2⟩ := hstarted r hr hbase
    rw [h1]
    exact (I.pages _ r).mpr ⟨_, h2, page, hpage, rfl⟩
  · intro c r page_count slot mapped hpc page hpage
    have hstage := I.stage c
    rw [hpc] at hstage
    obtain ⟨-, -, -, hslot, hheld⟩ := hstage
    exact (I.pages _ r).mpr ⟨mapped, hheld, page, hpage, by rw [hslot]⟩
  · intro r hr
    obtain ⟨m, hm⟩ := ne_none_iff_exists'.mp (I.live_held hr)
    have hslot := (I.held r m hm).2.2.1
    obtain ⟨hlo, hhi⟩ := slot_in_arena s.code_base hslot (Nat.le_refl 4)
    refine ⟨hlo, hhi, fun hbase => ?_⟩
    obtain ⟨h1, h2⟩ := hstarted r hr hbase
    refine ⟨h1, ?_⟩
    have := (I.held r _ h2).2.2.2
    simp only [VM_PAGE_SIZE, OS_THREAD_STACK_MAX]
    omega

/-- Two CPUs look for a slot before either has written one down. The first thread is
started; the second call maps its page over the first one's, fails, and unmaps it. Two
live threads have one slot, and the started one has lost its stack. -/
theorem a_failing_creation_unmaps_another_stack : ∃ s : State 2, (threads 2).Reachable s ∧ ∃ r r',
    r ≠ r' ∧ Live s r ∧ Live s r' ∧
    (s.thread_table r).user_stack_slot = (s.thread_table r').user_stack_slot ∧
    (s.thread_table r).stack_base ≠ 0 ∧ (s.thread_table r).stack_page_count = 1 ∧
    s.pages (s.thread_table r).stack_base = none := by
  obtain ⟨s, hreach, h1, h2, hpc0, hpc1, hpages⟩ : ∃ s : State 2, (threads 2).Reachable s ∧
      s.thread_table ⟨1, by decide⟩ = ⟨true, false, true, false, false, 0, stack_base 0x400000 0, 1⟩ ∧
      s.thread_table ⟨2, by decide⟩ = ⟨true, false, true, false, false, 0, 0, 0⟩ ∧ s.pc 0 = .idle ∧
      s.pc 1 = .discarding ⟨2, by decide⟩ ∧ s.pages (stack_base 0x400000 0) = none :=
    Machine.exists_reachable (.start ⟨0x400000, rfl⟩)
      [.create 0 4096, .create 1 4096, .next 0 true, .next 1 true, .next 0 true, .next 1 true,
        .next 0 true, .next 0 true, .next 0 true, .next 0 true,
        .next 1 true, .next 1 true, .next 1 false, .next 1 true] (by decide +kernel)
  have hno : ∀ r c page_count slot, s.pc c ≠ .allocated r page_count slot := by
    intro r c page_count slot
    fin_cases c
    · exact fun h => by simp [hpc0] at h
    · exact fun h => by simp [hpc1] at h
  refine ⟨s, hreach, ⟨1, by decide⟩, ⟨2, by decide⟩, by decide,
    ⟨?_, ?_, ?_, hno _⟩, ⟨?_, ?_, ?_, hno _⟩, ?_, ?_, ?_, ?_⟩
  · rw [h1]
  · rw [h1]
  · rw [h1]
  · rw [h2]
  · rw [h2]
  · rw [h2]
  · rw [h1, h2]
  · rw [h1]
    exact stack_base_pos
  · rw [h1]
  · rw [h1]
    exact hpages

/-- One CPU creates two threads, one after the other. -/
theorem two_threads_are_apart : ∃ s : State 1, (threads 1).ReachedBy Alone s ∧ ∃ r r', Live s r ∧ Live s r' ∧
    (s.thread_table r).user_stack_slot ≠ (s.thread_table r').user_stack_slot := by
  obtain ⟨s, hany, h1, h2, hpc⟩ : ∃ s : State 1, (threads 1).Reachable s ∧
      s.thread_table ⟨1, by decide⟩ = ⟨true, false, true, false, false, 0, stack_base 0x400000 0, 1⟩ ∧
      s.thread_table ⟨2, by decide⟩ = ⟨true, false, true, false, false, 1, stack_base 0x400000 1, 4⟩ ∧
      s.pc 0 = .idle :=
    Machine.exists_reachable (.start ⟨0x400000, rfl⟩) ([.create 0 4096] ++ replicate 6 (.next 0 true) ++
      [.create 0 16384] ++ replicate 9 (.next 0 true)) (by decide +kernel)
  have hreach : (threads 1).ReachedBy Alone s := by
    apply hany.imp
    intro s l _
    cases l with
    | create c => exact fun c' hc => absurd (Subsingleton.elim c' c) hc
    | next | exit | release | join => trivial
  have hno : ∀ r c page_count slot, s.pc c ≠ .allocated r page_count slot := by
    intro r c page_count slot
    rw [Subsingleton.elim c 0, hpc]
    exact nofun
  have hlive1 : Live s ⟨1, by decide⟩ := ⟨by rw [h1], by rw [h1], by rw [h1], hno _⟩
  have hlive2 : Live s ⟨2, by decide⟩ := ⟨by rw [h2], by rw [h2], by rw [h2], hno _⟩
  exact ⟨s, hreach, _, _, hlive1, hlive2,
    ((stacks_are_apart 1 s hreach).1 _ _ hlive1 hlive2 (by decide)).1⟩

end mini_kernel.thread
