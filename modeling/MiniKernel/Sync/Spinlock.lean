-- Spinlocks (kernel/sync/spinlock.cpp). A CPU takes locks only in the order of their
-- classes. The laws: the locks that a CPU holds are in that order, a lock is held by
-- one CPU or free, and CPUs that spin on one another's locks never form a circle.
import MiniKernel.Lib.Machine

open mini_kernel.lib Function List

namespace mini_kernel.spinlock

def KERNEL_LOCK_CLASS_NONE : Nat := 0

def KERNEL_LOCK_CLASS_VFS_DEVICE : Nat := 5

def KERNEL_LOCK_STACK_MAX : Nat := 8

/-! ## The locks -/

/-- Where a CPU is in `kernel_spinlock_acquire`. -/
inductive Pc (Lock : Type)
  | idle
  /-- The checks are done; the exchange is tried until it succeeds. -/
  | exchange (lock : Lock)
  /-- The exchange has succeeded. -/
  | push (lock : Lock)
deriving DecidableEq

/-- The part of `CpuLocal` that the locks use; the top of the stack comes first. -/
structure CpuLocal (Lock : Type) where
  held_locks : List Lock
  preemption_disable_count : Nat
  pc : Pc Lock

structure State (Cpu Lock : Type) where
  locked : Lock → Bool
  owner_cpu : Lock → Option Cpu
  cpu : Cpu → CpuLocal Lock

structure KernelSpinlockToken (Cpu : Type) where
  acquired : Bool
  owner_cpu : Cpu

inductive Label (Cpu Lock : Type)
  /-- No lock is the null pointer; `refused` says that the CPU has no `CpuLocal` or waits
  for a TLB shootdown. -/
  | acquire (c : Cpu) (lock : Option Lock) (refused : Bool)
  | next (c : Cpu)
  | release (c : Cpu) (lock : Option Lock) (token : KernelSpinlockToken Cpu)

section
variable {Cpu Lock : Type} [DecidableEq Cpu] [DecidableEq Lock]

def State.setCpu (s : State Cpu Lock) (c : Cpu) (l : CpuLocal Lock) : State Cpu Lock :=
  { s with cpu := update s.cpu c l }

/-- The order of the classes: the lock may be taken on top of the stack. -/
def may_take (lock_class : Lock → Nat) (held_locks : List Lock) (lock : Lock) : Bool :=
  if lock_class lock = KERNEL_LOCK_CLASS_NONE ∨ lock_class lock > KERNEL_LOCK_CLASS_VFS_DEVICE ∨
      held_locks.length ≥ KERNEL_LOCK_STACK_MAX then false
  else match held_locks with
  | [] => true
  | top :: _ => if top = lock then false else !decide (lock_class lock ≤ lock_class top)

/-- The checks of `kernel_spinlock_acquire`: whether it goes on to the exchange. The
preemption count is raised first, and lowered again if the lock is rejected. -/
def acquire_check (lock_class : Lock → Nat) (s : State Cpu Lock) (c : Cpu) (lock : Option Lock)
    (refused : Bool) : Bool × State Cpu Lock :=
  if refused then (false, s)
  else
    let raised := { s.cpu c with
      preemption_disable_count := (s.cpu c).preemption_disable_count + 1 }
    let lowered := { raised with
      preemption_disable_count := raised.preemption_disable_count - 1 }
    match lock with
    | none => (false, s.setCpu c lowered)
    | some lock =>
      if may_take lock_class raised.held_locks lock then
        (true, s.setCpu c { raised with pc := .exchange lock })
      else (false, s.setCpu c lowered)

/-- One exchange, or the push after the one that succeeded. -/
def acquire_next (s : State Cpu Lock) (c : Cpu) : Option (State Cpu Lock) :=
  let l := s.cpu c
  match l.pc with
  | .idle => none
  | .exchange lock =>
    if s.locked lock then some s
    else some { s.setCpu c { l with pc := .push lock } with
      locked := update s.locked lock true }
  | .push lock =>
    some { s.setCpu c { l with held_locks := lock :: l.held_locks, pc := .idle } with
      owner_cpu := update s.owner_cpu lock (some c) }

/-- The state without the lock that was on top of the stack. -/
def released (s : State Cpu Lock) (c : Cpu) (lock : Lock) (rest : List Lock) : State Cpu Lock :=
  { s.setCpu c { s.cpu c with
      held_locks := rest
      preemption_disable_count := (s.cpu c).preemption_disable_count - 1 } with
    owner_cpu := update s.owner_cpu lock none
    locked := update s.locked lock false }

/-- Whether the lock was released. -/
def kernel_spinlock_release (s : State Cpu Lock) (c : Cpu) (lock : Option Lock)
    (token : KernelSpinlockToken Cpu) : Bool × State Cpu Lock :=
  let l := s.cpu c
  match token.acquired, lock with
  | true, some lock =>
    if token.owner_cpu ≠ c ∨ s.owner_cpu lock ≠ some c then (false, s)
    else match l.held_locks with
    | [] => (false, s)
    | top :: rest =>
      if top ≠ lock ∨ l.preemption_disable_count = 0 then (false, s)
      else (true, released s c lock rest)
  | _, _ => (false, s)

def step (lock_class : Lock → Nat) (s : State Cpu Lock) : Label Cpu Lock → Option (State Cpu Lock)
  | .acquire c lock refused =>
    match (s.cpu c).pc with
    | .idle => some (acquire_check lock_class s c lock refused).2
    | _ => none
  | .next c => acquire_next s c
  | .release c lock token =>
    match (s.cpu c).pc with
    | .idle => some (kernel_spinlock_release s c lock token).2
    | _ => none

def boot : State Cpu Lock := ⟨fun _ => false, fun _ => none, fun _ => ⟨[], 0, .idle⟩⟩

def machine (Cpu : Type) [DecidableEq Cpu] (lock_class : Lock → Nat) :
    Machine (State Cpu Lock) (Label Cpu Lock) := .ofFun (· = boot) (step lock_class)

/-! ## The invariant -/

/-- The lock is on the stack of the CPU, or about to be. -/
def Holds (s : State Cpu Lock) (c : Cpu) (lock : Lock) : Prop :=
  lock ∈ (s.cpu c).held_locks ∨ (s.cpu c).pc = .push lock

/-- The lock that the CPU is taking. -/
def Pc.taking : Pc Lock → Option Lock
  | .idle => none
  | .exchange lock => some lock
  | .push lock => some lock

/-- What holds of one CPU. -/
structure Ordered (lock_class : Lock → Nat) (l : CpuLocal Lock) : Prop where
  sorted : l.held_locks.Pairwise fun top below => lock_class below < lock_class top
  above : ∀ lock, l.pc.taking = some lock → ∀ held ∈ l.held_locks, lock_class held < lock_class lock
  count : l.preemption_disable_count = l.held_locks.length + l.pc.taking.toList.length

structure Inv (lock_class : Lock → Nat) (s : State Cpu Lock) : Prop where
  ordered : ∀ c, Ordered lock_class (s.cpu c)
  locked : ∀ lock, s.locked lock ↔ ∃ c, Holds s c lock
  one : ∀ c d lock, Holds s c lock → Holds s d lock → c = d

variable {lock_class : Lock → Nat} {s s' : State Cpu Lock} {c : Cpu} {lock : Lock}
  {l : CpuLocal Lock}

omit [DecidableEq Cpu] [DecidableEq Lock] in
theorem boot_inv : Inv lock_class (boot : State Cpu Lock) := by
  constructor
  · intro c
    exact ⟨List.Pairwise.nil, nofun, rfl⟩
  · intro lock
    simp [boot, Holds]
  · intro c d lock h
    simp [boot, Holds] at h

theorem may_take_above {held_locks : List Lock}
    (hsorted : held_locks.Pairwise fun top below => lock_class below < lock_class top)
    (hmay : may_take lock_class held_locks lock) :
    ∀ held ∈ held_locks, lock_class held < lock_class lock := by
  intro held hmem
  unfold may_take at hmay
  split at hmay
  · cases hmay
  cases held_locks with
  | nil => cases hmem
  | cons top rest =>
    simp only at hmay
    split at hmay
    · cases hmay
    have htop : lock_class top < lock_class lock := by simpa using hmay
    rw [pairwise_cons] at hsorted
    rcases mem_cons.mp hmem with rfl | hrest
    · exact htop
    · exact (hsorted.1 held hrest).trans htop

omit [DecidableEq Lock] in
theorem State.setCpu_same : (s.setCpu c l).cpu c = l := update_self ..

omit [DecidableEq Lock] in
theorem State.setCpu_other {d : Cpu} (h : d ≠ c) : (s.setCpu c l).cpu d = s.cpu d :=
  update_of_ne h ..

section
variable (I : Inv lock_class s)
include I

omit [DecidableEq Lock] in
/-- A CPU that goes on without taking or giving back a lock. -/
theorem Inv.keep (hl : Ordered lock_class l)
    (hholds : ∀ lock, (lock ∈ l.held_locks ∨ l.pc = .push lock) ↔ Holds s c lock) :
    Inv lock_class (s.setCpu c l) := by
  have hsame : ∀ d lock, Holds (s.setCpu c l) d lock ↔ Holds s d lock := by
    intro d lock
    by_cases hd : d = c
    · subst hd
      rw [← hholds]
      unfold Holds
      rw [State.setCpu_same]
    · unfold Holds
      rw [State.setCpu_other hd]
  constructor
  · intro d
    by_cases hd : d = c
    · rw [hd, State.setCpu_same]
      exact hl
    · rw [State.setCpu_other hd]
      exact I.ordered d
  · intro lock
    simp only [hsame]
    exact I.locked lock
  · intro d e lock
    rw [hsame, hsame]
    exact I.one d e lock

omit [DecidableEq Cpu] [DecidableEq Lock] in
theorem Inv.free (h : s.locked lock = false) (d : Cpu) : ¬ Holds s d lock := by
  intro hd
  rw [(I.locked lock).mpr ⟨d, hd⟩] at h
  cases h

/-- A CPU that takes a lock that was free. -/
theorem Inv.take (hfree : s.locked lock = false) (hl : Ordered lock_class l)
    (hholds : ∀ lock', (lock' ∈ l.held_locks ∨ l.pc = .push lock') ↔ Holds s c lock' ∨ lock' = lock) :
    Inv lock_class { s.setCpu c l with locked := update s.locked lock true } := by
  have hnew : ∀ d lock', Holds (s.setCpu c l) d lock' ↔
      Holds s d lock' ∨ (d = c ∧ lock' = lock) := by
    intro d lock'
    by_cases hd : d = c
    · subst hd
      unfold Holds at hholds ⊢
      rw [State.setCpu_same, hholds]
      simp
    · unfold Holds
      rw [State.setCpu_other hd]
      simp [hd]
  refine ⟨?_, ?_, ?_⟩
  · intro d
    show Ordered lock_class ((s.setCpu c l).cpu d)
    by_cases hd : d = c
    · rw [hd, State.setCpu_same]
      exact hl
    · rw [State.setCpu_other hd]
      exact I.ordered d
  · intro lock'
    show update s.locked lock true lock' = true ↔ ∃ d, Holds (s.setCpu c l) d lock'
    simp only [hnew]
    by_cases he : lock' = lock
    · subst he
      rw [update_self]
      exact ⟨fun _ => ⟨c, .inr ⟨rfl, rfl⟩⟩, fun _ => rfl⟩
    · rw [update_of_ne he, I.locked]
      simp [he]
  · intro d e lock' hd he
    rcases (hnew d lock').mp hd with hd | ⟨hd, hlock⟩ <;>
      rcases (hnew e lock').mp he with he | ⟨he, hlock'⟩
    · exact I.one d e lock' hd he
    · exact absurd (hlock' ▸ hd) (I.free hfree d)
    · exact absurd (hlock ▸ he) (I.free hfree e)
    · rw [hd, he]

theorem Inv.release {rest : List Lock}
    (hstack : (s.cpu c).held_locks = lock :: rest) (hidle : (s.cpu c).pc = .idle) :
    Inv lock_class (released s c lock rest) := by
  have ho := I.ordered c
  have hsorted := ho.sorted
  rw [hstack, pairwise_cons] at hsorted
  have hmine : Holds s c lock := .inl (by rw [hstack]; exact mem_cons_self)
  have hnew : ∀ d lock', Holds (released s c lock rest) d lock' ↔ Holds s d lock' ∧ lock' ≠ lock := by
    intro d lock'
    unfold spinlock.released Holds
    by_cases hd : d = c
    · subst hd
      rw [State.setCpu_same, hstack, hidle]
      simp only [reduceCtorEq, or_false, mem_cons]
      constructor
      · intro h
        refine ⟨.inr h, ?_⟩
        rintro rfl
        exact Nat.lt_irrefl _ (hsorted.1 _ h)
      · rintro ⟨h | h, hne⟩
        · exact absurd h hne
        · exact h
    · rw [State.setCpu_other hd]
      refine ⟨fun h => ⟨h, ?_⟩, fun h => h.1⟩
      rintro rfl
      exact hd (I.one d c _ h hmine)
  refine ⟨?_, ?_, ?_⟩
  · intro d
    show Ordered lock_class ((s.setCpu c _).cpu d)
    by_cases hd : d = c
    · rw [hd, State.setCpu_same]
      refine ⟨hsorted.2, ?_, ?_⟩
      · intro lock' h'
        rw [hidle] at h'
        cases h'
      · have := ho.count
        rw [hstack, hidle] at this
        simp only [this, hidle]
        rfl
    · rw [State.setCpu_other hd]
      exact I.ordered d
  · intro lock'
    simp only [hnew]
    show update s.locked lock false lock' = true ↔ _
    by_cases he : lock' = lock
    · simp [he]
    · rw [update_of_ne he, I.locked]
      simp [he]
  · intro d e lock'
    rw [hnew, hnew]
    intro hd he
    exact I.one d e lock' hd.1 he.1

end

/-- An acquire is rejected without a trace, or goes on to the exchange. -/
theorem acquire_check_cases (lock_class : Lock → Nat) (s : State Cpu Lock) (c : Cpu)
    (lock : Option Lock) (refused : Bool) : acquire_check lock_class s c lock refused = (false, s) ∨
      ∃ lk, may_take lock_class (s.cpu c).held_locks lk ∧
        acquire_check lock_class s c lock refused = (true, s.setCpu c { s.cpu c with
          preemption_disable_count := (s.cpu c).preemption_disable_count + 1, pc := .exchange lk }) := by
  have hback : s.setCpu c { s.cpu c with
      preemption_disable_count := (s.cpu c).preemption_disable_count + 1 - 1 } = s := by
    rw [Nat.add_sub_cancel]
    unfold State.setCpu
    rw [update_eq_self]
  unfold acquire_check
  cases refused with
  | true => exact .inl rfl
  | false =>
    cases lock with
    | none => exact .inl (congrArg (Prod.mk false) hback)
    | some lk =>
      by_cases hmay : may_take lock_class (s.cpu c).held_locks lk
      · exact .inr ⟨lk, hmay, if_pos hmay⟩
      · refine .inl ?_
        simp only [Bool.false_eq_true, if_false]
        rw [if_neg hmay, hback]

/-- A release is rejected without a trace, or takes the lock from the top. -/
theorem release_cases (s : State Cpu Lock) (c : Cpu) (lock : Option Lock) (token : KernelSpinlockToken Cpu) :
    kernel_spinlock_release s c lock token = (false, s) ∨ ∃ lk rest, (s.cpu c).held_locks = lk :: rest ∧
        kernel_spinlock_release s c lock token = (true, released s c lk rest) := by
  unfold kernel_spinlock_release
  cases token.acquired with
  | false => exact .inl rfl
  | true =>
    cases lock with
    | none => exact .inl rfl
    | some lk =>
      by_cases howner : token.owner_cpu ≠ c ∨ s.owner_cpu lk ≠ some c
      · exact .inl (if_pos howner)
      simp only [howner, if_false]
      cases hstack : (s.cpu c).held_locks with
      | nil => exact .inl rfl
      | cons top rest =>
        by_cases htop : top ≠ lk ∨ (s.cpu c).preemption_disable_count = 0
        · exact .inl (if_pos htop)
        · obtain ⟨rfl, -⟩ : top = lk ∧ _ := by simpa using htop
          exact .inr ⟨top, rest, rfl, if_neg htop⟩

theorem Inv.acquire (I : Inv lock_class s) {lock : Option Lock} {refused : Bool}
    (hidle : (s.cpu c).pc = .idle) : Inv lock_class (acquire_check lock_class s c lock refused).2 := by
  rcases acquire_check_cases lock_class s c lock refused with h | ⟨lk, hmay, h⟩
  · rw [h]
    exact I
  · rw [h]
    have ho := I.ordered c
    refine I.keep ⟨ho.sorted, ?_, ?_⟩ ?_
    · rintro lock' ⟨⟩
      exact may_take_above ho.sorted hmay
    · have := ho.count
      rw [hidle] at this
      exact congrArg (· + 1) this
    · intro lock'
      unfold Holds
      rw [hidle]
      simp

theorem Inv.next (I : Inv lock_class s) (h : acquire_next s c = some s') : Inv lock_class s' := by
  have ho := I.ordered c
  unfold acquire_next at h
  cases hpc : (s.cpu c).pc with
  | idle => simp [hpc] at h
  | exchange lk =>
    simp only [hpc] at h
    split at h
    · cases h
      exact I
    rename_i hfree
    rw [Option.some.injEq] at h
    subst h
    refine I.take (by simpa using hfree) ⟨ho.sorted, ?_, ?_⟩ ?_
    · intro lock' h'
      exact ho.above lock' (by rw [hpc]; exact h')
    · have := ho.count
      rw [hpc] at this
      exact this
    · intro lock'
      unfold Holds
      rw [hpc]
      simp only [Pc.push.injEq, reduceCtorEq, or_false]
      tauto
  | push lk =>
    simp only [hpc, Option.some.injEq] at h
    subst h
    have hkeep : Inv lock_class (s.setCpu c { s.cpu c with
        held_locks := lk :: (s.cpu c).held_locks, pc := .idle }) := by
      refine I.keep ⟨?_, nofun, ?_⟩ ?_
      · exact pairwise_cons.mpr ⟨ho.above lk (by rw [hpc]; rfl), ho.sorted⟩
      · have := ho.count
        rw [hpc] at this
        exact this
      · intro lock'
        unfold Holds
        rw [hpc]
        simp only [mem_cons, Pc.push.injEq, reduceCtorEq, or_false]
        tauto
    exact ⟨hkeep.ordered, hkeep.locked, hkeep.one⟩

theorem step_inv {a : Label Cpu Lock} (I : Inv lock_class s)
    (h : step lock_class s a = some s') : Inv lock_class s' := by
  cases a with
  | acquire c lock refused =>
    simp only [step] at h
    split at h <;> rename_i hidle <;> cases h
    exact I.acquire hidle
  | next c => exact I.next h
  | release c lock token =>
    simp only [step] at h
    split at h <;> rename_i hidle <;> cases h
    rcases release_cases s c lock token with hr | ⟨lk, rest, hstack, hr⟩
    · rw [hr]
      exact I
    · rw [hr]
      exact I.release hstack hidle

/-! ## Who waits for whom -/

/-- The first CPU spins on a lock of the second. -/
def WaitsFor (s : State Cpu Lock) (a b : Cpu) : Prop :=
  ∃ lock, (s.cpu a).pc = .exchange lock ∧ Holds s b lock

omit [DecidableEq Cpu] [DecidableEq Lock] in
/-- Along the waiting CPUs the classes of the locks that they spin on grow. -/
theorem Inv.waiting_grows (I : Inv lock_class s) {a b : Cpu} {la lb : Lock}
    (h : Relation.TransGen (WaitsFor s) a b) (ha : (s.cpu a).pc = .exchange la)
    (hb : (s.cpu b).pc = .exchange lb) : lock_class la < lock_class lb := by
  -- one edge: the lock is on the stack of `b`, below the one that `b` spins on
  have hedge : ∀ {a b : Cpu} {la lb : Lock}, WaitsFor s a b → (s.cpu a).pc = .exchange la →
      (s.cpu b).pc = .exchange lb → lock_class la < lock_class lb := by
    rintro a b la lb ⟨lock, hlock, hholds⟩ ha hb
    rw [hlock] at ha
    cases ha
    rcases hholds with hmem | hpush
    · exact (I.ordered b).above lb (by rw [hb]; rfl) _ hmem
    · rw [hb] at hpush
      cases hpush
  induction h generalizing lb with
  | single hab => exact hedge hab ha hb
  | tail _ hbc ih =>
    obtain ⟨lock, hlock, hholds⟩ := hbc
    exact (ih hlock).trans (hedge ⟨lock, hlock, hholds⟩ hlock hb)

omit [DecidableEq Cpu] [DecidableEq Lock] in
theorem Inv.no_circle (I : Inv lock_class s) (c : Cpu) : ¬ Relation.TransGen (WaitsFor s) c c := by
  intro h
  obtain ⟨d, ⟨lock, hlock, -⟩, -⟩ := Relation.TransGen.head'_iff.mp h
  exact Nat.lt_irrefl _ (I.waiting_grows h hlock hlock)

/-- In every state: the stacks grow in the classes; a lock is taken exactly if one CPU has
it on its stack or is pushing it; the preemption count is the depth, and one more while
an acquire is on its way; no CPUs wait in a circle; what is rejected changes nothing. -/
theorem lock_order_excludes_deadlock {s : State Cpu Lock}
    (h : (machine Cpu lock_class).Reachable s) :
    (∀ c, (s.cpu c).held_locks.Pairwise fun top below => lock_class below < lock_class top) ∧
    (∀ lock, s.locked lock = true ↔
      ∃! c, lock ∈ (s.cpu c).held_locks ∨ (s.cpu c).pc = .push lock) ∧
    (∀ c lock, (s.cpu c).pc = .push lock → lock ∉ (s.cpu c).held_locks) ∧
    (∀ c, (s.cpu c).preemption_disable_count =
      (s.cpu c).held_locks.length + (s.cpu c).pc.taking.toList.length) ∧
    (∀ c, ¬ Relation.TransGen (WaitsFor s) c c) ∧
    (∀ c lock refused, (acquire_check lock_class s c lock refused).1 = false →
      (acquire_check lock_class s c lock refused).2 = s) ∧
    ∀ c lock token, (kernel_spinlock_release s c lock token).1 = false →
      (kernel_spinlock_release s c lock token).2 = s := by
  have I : Inv lock_class s :=
    h.inv (fun _ h0 => h0 ▸ boot_inv) fun _ _ _ hI hstep => step_inv hI hstep
  refine ⟨fun c => (I.ordered c).sorted, ?_, ?_, fun c => (I.ordered c).count, I.no_circle, ?_, ?_⟩
  · intro lock
    rw [I.locked]
    constructor
    · rintro ⟨c, hc⟩
      exact ⟨c, hc, fun d hd => I.one d c lock hd hc⟩
    · rintro ⟨c, hc, -⟩
      exact ⟨c, hc⟩
  · intro c lock hpc hmem
    exact Nat.lt_irrefl _ ((I.ordered c).above lock (by rw [hpc]; rfl) lock hmem)
  · intro c lock refused hfalse
    rcases acquire_check_cases lock_class s c lock refused with hr | ⟨lk, -, hr⟩
    · rw [hr]
    · rw [hr] at hfalse
      cases hfalse
  · intro c lock token hfalse
    rcases release_cases s c lock token with hr | ⟨lk, rest, -, hr⟩
    · rw [hr]
    · rw [hr] at hfalse
      cases hfalse

end

def class_of : Fin 2 → Nat := fun lock => lock.val + 1

/-- One CPU takes both locks, the other spins on the first. -/
theorem a_cpu_can_spin_on_a_lock_of_another :
    ∃ s : State (Fin 2) (Fin 2), (machine (Fin 2) class_of).Reachable s ∧
      WaitsFor s 1 0 ∧ (s.cpu 0).held_locks = [0] ∧ (s.cpu 0).pc = .push 1 ∧
      ∀ c, ¬ Relation.TransGen (WaitsFor s) c c := by
  obtain ⟨s, hreach, hspin, hheld, hpush⟩ : ∃ s : State (Fin 2) (Fin 2),
      (machine (Fin 2) class_of).Reachable s ∧
      (s.cpu 1).pc = .exchange 0 ∧ (s.cpu 0).held_locks = [0] ∧ (s.cpu 0).pc = .push 1 :=
    Machine.exists_reachable (.start rfl) [.acquire 0 (some 0) false, .next 0, .next 0,
      .acquire 1 (some 0) false, .next 1, .acquire 0 (some 1) false, .next 0] (by decide)
  refine ⟨s, hreach, ⟨0, hspin, .inl ?_⟩, hheld, hpush, ?_⟩
  · rw [hheld]
    exact mem_cons_self
  · obtain ⟨-, -, -, -, hcircle, -⟩ := lock_order_excludes_deadlock hreach
    exact hcircle

/-- The preemption count is raised before the lock is on the stack. -/
theorem the_preemption_count_leads_the_depth :
    ∃ s : State (Fin 2) (Fin 2), (machine (Fin 2) class_of).Reachable s ∧
      (s.cpu 0).preemption_disable_count ≠ (s.cpu 0).held_locks.length :=
  Machine.exists_reachable (.start rfl) [.acquire 0 (some 0) false] (by decide)

end mini_kernel.spinlock
