-- User accesses and changes of an address space (kernel/mm/address_space.cpp). An
-- access raises a counter and looks at a flag; a change raises the flag and waits for
-- the counter. The law: they never overlap, and there is one change at a time.
import MiniKernel.Lib.Word
import MiniKernel.Lib.Count
import MiniKernel.Lib.Machine

open mini_kernel.lib Function

namespace mini_kernel.address_space

/-! ## The handshake -/

/-- Where a CPU is. Each place is before one atomic operation. -/
inductive Pc
  | idle
  /-- `address_space_user_access_begin`: loads the timeout count. -/
  | begin_timeout (expected_identity : U64)
  | begin_flag (expected_identity : U64)
  | begin_add (expected_identity : U64)
  /-- The counter has been raised; the flag is loaded again. -/
  | begin_recheck (expected_identity : U64)
  | begin_identity (expected_identity : U64)
  | begin_back_off
  /-- The access has begun. -/
  | access
  /-- `address_space_user_access_end`: loads the counter. -/
  | end_load
  | end_exchange (active : Nat)
  /-- `mutation_gate_enter`: loads the timeout count. -/
  | enter_timeout
  | enter_exchange
  /-- The flag is ours; the timeout count is loaded again. -/
  | enter_recheck
  | enter_wait
  | enter_back_off
  /-- The flag was not free: wait until it is. -/
  | enter_spin
  /-- The gate has been entered. -/
  | gate
  deriving DecidableEq

structure State (n : Nat) where
  shootdown_active : Bool
  /-- There are no more CPUs than 32-bit numbers for them: the counter does not wrap. -/
  active_user_accesses : Nat
  shootdown_timeout_count : Nat
  identity : U64
  pc : Fin n → Pc

inductive Label (n : Nat)
  | access_begin (c : Fin n) (expected_identity : U64)
  | access_end (c : Fin n)
  | gate_enter (c : Fin n)
  | gate_release (c : Fin n)
  /-- A shootdown was not acknowledged in time. -/
  | timed_out
  /-- The next operation of a CPU; `refused` says that `kernel_tlb_wait_enter` fails. -/
  | next (c : Fin n) (refused : Bool)

section
variable {n : Nat}

def State.setPc (s : State n) (c : Fin n) (pc : Pc) : State n :=
  { s with pc := update s.pc c pc }

/-- One atomic operation of `address_space_user_access_begin`, of its end, or of
`mutation_gate_enter`. -/
def next (s : State n) (c : Fin n) (refused : Bool) : Option (State n) :=
  match s.pc c with
  | .begin_timeout expected =>
    some (s.setPc c (if s.shootdown_timeout_count ≠ 0 then .idle else .begin_flag expected))
  | .begin_flag expected =>
    some (s.setPc c (if s.shootdown_active then .idle else .begin_add expected))
  | .begin_add expected =>
    some { s.setPc c (.begin_recheck expected) with
      active_user_accesses := s.active_user_accesses + 1 }
  | .begin_recheck expected =>
    some (s.setPc c (if s.shootdown_active then .begin_back_off else .begin_identity expected))
  | .begin_identity expected =>
    some (s.setPc c (if s.identity ≠ expected then .begin_back_off else .access))
  | .begin_back_off =>
    some { s.setPc c .idle with active_user_accesses := s.active_user_accesses - 1 }
  | .end_load =>
    some (s.setPc c (if s.active_user_accesses = 0 then .idle
      else .end_exchange s.active_user_accesses))
  | .end_exchange active =>
    if s.active_user_accesses = active then
      some { s.setPc c .idle with active_user_accesses := active - 1 }
    else some (s.setPc c (if s.active_user_accesses = 0 then .idle
      else .end_exchange s.active_user_accesses))
  | .enter_timeout =>
    some (s.setPc c (if s.shootdown_timeout_count ≠ 0 then .idle else .enter_exchange))
  | .enter_exchange =>
    if s.shootdown_active then some (s.setPc c (if refused then .idle else .enter_spin))
    else some { s.setPc c .enter_recheck with shootdown_active := true }
  | .enter_recheck =>
    some (s.setPc c (if s.shootdown_timeout_count = 0 then .enter_wait else .enter_back_off))
  | .enter_wait =>
    some (s.setPc c (if s.active_user_accesses ≠ 0 then .enter_wait else .gate))
  | .enter_back_off => some { s.setPc c .idle with shootdown_active := false }
  | .enter_spin =>
    some (s.setPc c (if s.shootdown_active then .enter_spin else .enter_exchange))
  | .idle | .access | .gate => none

def step (s : State n) : Label n → Option (State n)
  | .access_begin c expected_identity =>
    if s.pc c = .idle then some (s.setPc c (.begin_timeout expected_identity)) else none
  | .access_end c => if s.pc c = .access then some (s.setPc c .end_load) else none
  | .gate_enter c => if s.pc c = .idle then some (s.setPc c .enter_timeout) else none
  | .gate_release c =>
    -- `mutation_gate_release` is one store
    if s.pc c = .gate then some { s.setPc c .idle with shootdown_active := false } else none
  | .timed_out => some { s with shootdown_timeout_count := s.shootdown_timeout_count + 1 }
  | .next c refused => next s c refused

/-- Nobody uses the space, and nobody changes it. -/
def AtRest (s : State n) : Prop :=
  s.shootdown_active = false ∧ s.active_user_accesses = 0 ∧ ∀ c, s.pc c = .idle

def machine (n : Nat) : Machine (State n) (Label n) := .ofFun AtRest step

/-! ## The invariant -/

/-- The CPU has raised the counter. -/
def Pc.counted : Pc → Bool
  | .begin_recheck _ | .begin_identity _ | .begin_back_off | .access | .end_load
  | .end_exchange _ => true
  | _ => false

/-- The CPU has raised the flag. -/
def Pc.flagged : Pc → Bool
  | .enter_recheck | .enter_wait | .enter_back_off | .gate => true
  | _ => false

/-- The access has begun and has not ended: nothing but the identity is left to check. -/
def Pc.accessing : Pc → Bool
  | .begin_identity _ | .access | .end_load | .end_exchange _ => true
  | _ => false

theorem Pc.counted_of_accessing {pc : Pc} (h : pc.accessing) : pc.counted := by
  cases pc <;> first | rfl | cases h

structure Inv (s : State n) : Prop where
  counter : s.active_user_accesses = countOf Pc.counted s.pc
  flag : s.shootdown_active ↔ ∃ c, (s.pc c).flagged
  one : ∀ c d, (s.pc c).flagged → (s.pc d).flagged → c = d
  apart : ∀ c d, s.pc c = .gate → (s.pc d).accessing = false

variable {s s' : State n} {c : Fin n} {pc old : Pc}

theorem AtRest.inv (h : AtRest s) : Inv s := by
  obtain ⟨hflag, hcounter, hidle⟩ := h
  constructor
  · rw [hcounter, countOf_eq_zero]
    intro c
    rw [hidle c]
    rfl
  · rw [hflag]
    simp [hidle, Pc.flagged]
  · intro c d hc
    rw [hidle c] at hc
    cases hc
  · intro c d hc
    rw [hidle c] at hc
    cases hc

/-- One CPU goes on, with the counter and the flag that its new place calls for. -/
theorem Inv.change (I : Inv s) {active : Bool} {counter : Nat} (hold : s.pc c = old)
    (hcounter : counter + old.counted.toNat = s.active_user_accesses + pc.counted.toNat)
    (hactive : active = (pc.flagged || (!old.flagged && s.shootdown_active)))
    (hfree : pc.flagged → old.flagged ∨ s.shootdown_active = false)
    (hgate : pc = .gate → ∀ d, (s.pc d).accessing = false)
    (hacc : pc.accessing → old.accessing ∨ s.shootdown_active = false) :
    Inv { s.setPc c pc with shootdown_active := active, active_user_accesses := counter } := by
  subst hold
  have hnone : s.shootdown_active = false → ∀ d, (s.pc d).flagged = false := by
    intro hf d
    by_contra hd
    rw [Bool.not_eq_false] at hd
    rw [I.flag.mpr ⟨d, hd⟩] at hf
    cases hf
  have hcounts := countOf_update Pc.counted s.pc c pc
  obtain ⟨pc', hpc', hsame, hother⟩ : ∃ pc', update s.pc c pc = pc' ∧ pc' c = pc ∧
      ∀ d, d ≠ c → pc' d = s.pc d :=
    ⟨_, rfl, update_self .., fun d h => update_of_ne h ..⟩
  unfold State.setPc
  rw [hpc'] at hcounts ⊢
  -- what a CPU with the flag and another one would mean
  have hclash : ∀ d, d ≠ c → pc.flagged → (s.pc d).flagged → False := by
    intro d hd hpc hdf
    rcases hfree hpc with h | h
    · exact hd (I.one d c hdf h)
    · rw [hnone h d] at hdf
      cases hdf
  refine ⟨?_, ?_, ?_, ?_⟩
  · have := I.counter
    show counter = countOf Pc.counted pc'
    omega
  · show active = true ↔ ∃ d, (pc' d).flagged
    rw [hactive]
    constructor
    · intro h
      rcases Bool.or_eq_true_iff.mp h with h | h
      · exact ⟨c, by rw [hsame]; exact h⟩
      · rw [Bool.and_eq_true, Bool.not_eq_true'] at h
        obtain ⟨d, hd⟩ := I.flag.mp h.2
        have hdc : d ≠ c := by
          rintro rfl
          rw [h.1] at hd
          cases hd
        exact ⟨d, by rw [hother d hdc]; exact hd⟩
    · rintro ⟨d, hd⟩
      by_cases hdc : d = c
      · rw [hdc, hsame] at hd
        simp [hd]
      rw [hother d hdc] at hd
      have hcf : (s.pc c).flagged = false := by
        by_contra h
        rw [Bool.not_eq_false] at h
        exact hdc (I.one d c hd h)
      simp [hcf, I.flag.mpr ⟨d, hd⟩]
  · show ∀ d e, (pc' d).flagged → (pc' e).flagged → d = e
    intro d e hd he
    by_cases hdc : d = c <;> by_cases hec : e = c
    · rw [hdc, hec]
    · rw [hdc, hsame] at hd
      rw [hother e hec] at he
      exact (hclash e hec hd he).elim
    · rw [hother d hdc] at hd
      rw [hec, hsame] at he
      exact (hclash d hdc he hd).elim
    · rw [hother d hdc] at hd
      rw [hother e hec] at he
      exact I.one d e hd he
  · show ∀ d e, pc' d = .gate → (pc' e).accessing = false
    intro d e hd
    by_cases hec : e = c
    · rw [hec, hsame]
      by_cases hdc : d = c
      · rw [hdc, hsame] at hd
        rw [hd]
        rfl
      rw [hother d hdc] at hd
      by_contra hpc
      rw [Bool.not_eq_false] at hpc
      rcases hacc hpc with h | h
      · rw [I.apart d c hd] at h
        cases h
      · have := hnone h d
        rw [hd] at this
        cases this
    · rw [hother e hec]
      by_cases hdc : d = c
      · rw [hdc, hsame] at hd
        exact hgate hd e
      · rw [hother d hdc] at hd
        exact I.apart d e hd

/-- One CPU goes to a place with the same marks. -/
theorem Inv.move (I : Inv s) (hold : s.pc c = old) (hcounted : pc.counted = old.counted)
    (hflagged : pc.flagged = old.flagged) (hgate : pc = .gate → ∀ d, (s.pc d).accessing = false)
    (hacc : pc.accessing → old.accessing ∨ s.shootdown_active = false) :
    Inv (s.setPc c pc) := by
  refine I.change hold (by rw [hcounted]) ?_ (fun h => .inl (hflagged ▸ h)) hgate hacc
  subst hold
  rw [hflagged]
  cases hf : (s.pc c).flagged with
  | false => simp
  | true => simp [I.flag.mpr ⟨c, hf⟩]

theorem Inv.next (I : Inv s) {refused : Bool} (h : next s c refused = some s') : Inv s' := by
  have hcount : (s.pc c).counted → 0 < s.active_user_accesses := by
    intro hc
    rw [I.counter]
    exact countOf_pos hc
  -- a CPU that was counted takes itself off the counter
  have hless : (s.pc c).counted → s.active_user_accesses - 1 + 1 = s.active_user_accesses + 0 := by
    intro hc
    have := hcount hc
    omega
  unfold address_space.next at h
  cases hpc : s.pc c <;> simp only [hpc, reduceCtorEq, Option.some.injEq] at h
  case begin_timeout | begin_flag | enter_timeout | enter_recheck | enter_spin =>
    subst h
    split <;> exact I.move hpc rfl rfl nofun nofun
  case begin_add | enter_back_off =>
    subst h
    exact I.change hpc rfl rfl nofun nofun nofun
  case begin_recheck =>
    subst h
    split
    · exact I.move hpc rfl rfl nofun nofun
    · rename_i hflag
      exact I.move hpc rfl rfl nofun fun _ => .inr (by simpa using hflag)
  case begin_identity =>
    subst h
    split
    · exact I.move hpc rfl rfl nofun nofun
    · exact I.move hpc rfl rfl nofun fun _ => .inl rfl
  case begin_back_off =>
    subst h
    exact I.change hpc (hless (by rw [hpc]; rfl)) rfl nofun nofun nofun
  case end_load =>
    subst h
    have hpos := hcount (by rw [hpc]; rfl)
    rw [if_neg (by omega)]
    exact I.move hpc rfl rfl nofun fun _ => .inl rfl
  case end_exchange =>
    have hpos := hcount (by rw [hpc]; rfl)
    split at h <;> cases h
    · rename_i heq
      exact I.change hpc (heq ▸ hless (by rw [hpc]; rfl)) rfl nofun nofun nofun
    · rw [if_neg (by omega)]
      exact I.move hpc rfl rfl nofun fun _ => .inl rfl
  case enter_exchange =>
    split at h <;> cases h
    · split <;> exact I.move hpc rfl rfl nofun nofun
    · rename_i hflag
      exact I.change hpc rfl rfl (fun _ => .inr (by simpa using hflag)) nofun nofun
  case enter_wait =>
    subst h
    split
    · exact I.move hpc rfl rfl nofun nofun
    rename_i hzero
    -- the counter is zero: nobody is in the middle of an access
    refine I.move hpc rfl rfl (fun _ d => ?_) nofun
    by_contra hd
    rw [Bool.not_eq_false] at hd
    have := countOf_pos (f := s.pc) (Pc.counted_of_accessing hd)
    rw [← I.counter] at this
    omega

theorem step_inv {l : Label n} (I : Inv s) (h : step s l = some s') : Inv s' := by
  cases l with
  | access_begin c expected =>
    simp only [step] at h
    split at h <;> rename_i hpc <;> cases h
    exact I.move hpc rfl rfl nofun nofun
  | access_end c =>
    simp only [step] at h
    split at h <;> rename_i hpc <;> cases h
    exact I.move hpc rfl rfl nofun fun _ => .inl rfl
  | gate_enter c =>
    simp only [step] at h
    split at h <;> rename_i hpc <;> cases h
    exact I.move hpc rfl rfl nofun nofun
  | gate_release c =>
    simp only [step] at h
    split at h <;> rename_i hpc <;> cases h
    exact I.change hpc rfl rfl nofun nofun nofun
  | timed_out =>
    cases h
    exact ⟨I.counter, I.flag, I.one, I.apart⟩
  | next c refused => exact I.next h

/-- No CPU is in an access while a CPU is in the gate, and at most one CPU is in the
gate. -/
theorem accesses_and_changes_exclude_each_other {s : State n} (h : (machine n).Reachable s) :
    (∀ c d, s.pc c = .gate →
      s.pc d ≠ .access ∧ s.pc d ≠ .end_load ∧ ∀ active, s.pc d ≠ .end_exchange active) ∧
    ∀ c d, s.pc c = .gate → s.pc d = .gate → c = d := by
  have I : Inv s := h.inv (fun _ h0 => AtRest.inv h0) fun _ _ _ hI hstep => step_inv hI hstep
  refine ⟨?_, ?_⟩
  · intro c d hc
    have hd := I.apart c d hc
    refine ⟨?_, ?_, ?_⟩
    · intro he
      rw [he] at hd
      cases hd
    · intro he
      rw [he] at hd
      cases hd
    · intro active he
      rw [he] at hd
      cases hd
  · intro c d hc hd
    exact I.one c d (by rw [hc]; rfl) (by rw [hd]; rfl)

end

/-- Two CPUs and a space with identity 1. -/
def twoCpus : State 2 := ⟨false, 0, 0, 1, fun _ => .idle⟩

/-- The first CPU gains access, the second raises the flag and waits until the access
has ended. -/
theorem the_gate_is_entered_after_the_access :
    ∃ s : State 2, (machine 2).Reachable s ∧ s.pc 1 = .gate ∧ s.pc 0 ≠ .access := by
  obtain ⟨s, hreach, hp⟩ : ∃ s : State 2, (machine 2).Reachable s ∧ s.pc 1 = .gate :=
    Machine.exists_reachable (s := twoCpus) (.start ⟨rfl, rfl, fun _ => rfl⟩)
      (.access_begin 0 1 :: List.replicate 5 (.next 0 false) ++ .gate_enter 1 ::
        List.replicate 4 (.next 1 false) ++ .access_end 0 :: List.replicate 2 (.next 0 false) ++
        [.next 1 false]) (by decide)
  exact ⟨s, hreach, hp, ((accesses_and_changes_exclude_each_other hreach).1 1 0 hp).1⟩

end mini_kernel.address_space
