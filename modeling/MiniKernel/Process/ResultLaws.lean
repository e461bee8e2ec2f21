-- A result waits for its parent: what the first `process_finish` of a process recorded stays
-- as it is, and the parent's wait finds it until the parent takes it, in every run that
-- finishes no process twice and leaves no parent with more results than the history holds.
-- The code asks for neither.
import MiniKernel.Lib.Word
import MiniKernel.Lib.Count
import MiniKernel.Lib.Store
import MiniKernel.Process.Results

open mini_kernel.lib Function List

namespace mini_kernel.results

section
variable {n a : Nat}

/-- The laws read a state as its table of processes. -/
instance : CoeFun (State n a) fun _ => Table n := ⟨State.processes⟩

/-! ## Looking for records -/

variable {table : Table n} {i : Fin n} {process : Process} {s : State n a}

@[elab_as_elim]
theorem Table.set_cases {P : Process → Prop} (j : Fin n) (hself : j = i → P process)
    (hother : j ≠ i → P (table j)) : P (table.set i process j) := by
  unfold Table.set
  exact update_cases j hself hother

theorem find_some {p : Process → Bool} (h : table.find p = some i) : p (table i) := by
  unfold Table.find at h
  exact find?_some (p := fun i => p (table i)) h

theorem find_of_mem {p : Process → Bool} (h : p (table i)) : ∃ j, table.find p = some j := by
  unfold Table.find
  apply Option.isSome_iff_exists.mp
  rw [find?_isSome]
  exact ⟨i, mem_finRange i, h⟩

/-- The identity is that of a process that has not ended. -/
def Lives (processes : Table n) (identity : ProcessIdentity) : Prop :=
  identity.pid ≠ 0 ∧ identity.generation ≠ 0 ∧
    ∃ j, (processes j).identity = identity ∧ (processes j).terminal = false

/-- No two processes have one pid. -/
def Distinct (processes : Table n) : Prop :=
  ∀ i j, (processes i).identity.pid ≠ 0 →
    (processes i).identity.pid = (processes j).identity.pid → i = j

variable {identity : ProcessIdentity}

theorem identity_matches_iff (hpid : identity.pid ≠ 0) (hgeneration : identity.generation ≠ 0) :
    process_identity_matches process identity ↔ process.identity = identity := by
  obtain ⟨pid, generation⟩ := identity
  obtain ⟨⟨own_pid, own_generation⟩, _⟩ := process
  simp only [process_identity_matches, ProcessIdentity.mk.injEq, Bool.and_eq_true, Bool.or_eq_true,
    decide_eq_true_eq] at *
  constructor
  · rintro ⟨⟨_, h⟩, h' | h'⟩
    · exact absurd h' hgeneration
    · exact ⟨h, h'⟩
  · rintro ⟨h, h'⟩
    exact ⟨⟨hpid, h⟩, .inr h'⟩

theorem parent_lives_iff (hdistinct : Distinct table)
    (parent : ProcessIdentity) : parent_lives table parent ↔ Lives table parent := by
  by_cases hzero : parent.pid = 0 ∨ parent.generation = 0
  · have hnone : parent_lives table parent = false := by
      simp only [parent_lives, find_process_by_identity, if_pos hzero]
    rw [hnone]
    constructor
    · intro h
      cases h
    · rintro ⟨hp, hg, _⟩
      rcases hzero with h | h
      · exact absurd h hp
      · exact absurd h hg
  · have hfind : find_process_by_identity table parent =
        table.find fun process => process_identity_matches process parent := by
      simp only [find_process_by_identity, if_neg hzero]
    obtain ⟨hp, hg⟩ := not_or.mp hzero
    unfold parent_lives
    rw [hfind]
    constructor
    · intro h
      split at h
      · cases h
      · rename_i j hj
        have hid := (identity_matches_iff hp hg).mp (find_some hj)
        refine ⟨hp, hg, j, hid, ?_⟩
        simpa using h
    · rintro ⟨_, _, j, hid, hterminal⟩
      obtain ⟨k, hk⟩ := find_of_mem (p := fun process => process_identity_matches process parent)
        ((identity_matches_iff hp hg).mpr hid)
      have hkid := (identity_matches_iff hp hg).mp (find_some hk)
      have hkj : k = j := by
        apply hdistinct
        · rw [hkid]
          exact hp
        · rw [hkid, hid]
      rw [hk]
      simp only [hkj, hterminal, Bool.not_false]

/-- The generation that a wait reads is that of the process with the pid. -/
theorem current_identity_of (hdistinct : Distinct table) {j : Fin n}
    (hpid : (table j).identity.pid ≠ 0) :
    current_identity table (table j).identity.pid = (table j).identity := by
  obtain ⟨k, hk⟩ : ∃ k, table.find
      (fun process => decide (process.identity.pid = (table j).identity.pid)) = some k :=
    find_of_mem (i := j) (decide_eq_true rfl)
  have hsame : (table k).identity.pid = (table j).identity.pid := by
    simpa using find_some hk
  have hkj : k = j := hdistinct k j (hsame ▸ hpid) hsame
  have hfind : find_process_by_pid table (table j).identity.pid = some j := by
    unfold find_process_by_pid
    rw [if_neg hpid, hk, hkj]
  simp only [current_identity, current_generation_for_pid, hfind]

/-! ## Counting results -/

theorem results_turn_fst (table : Table n) (parent : ProcessIdentity)
    (found : Nat × Option (Fin n)) (i : Fin n) : (results_turn table parent found i).1 =
      found.1 + (is_result_of parent (table i)).toNat := by
  unfold results_turn
  cases h : is_result_of parent (table i) with
  | false => simp
  | true =>
    simp only [Bool.not_true, Bool.false_eq_true, if_false, Bool.toNat_true]
    split <;> rfl

theorem count_results_fst (table : Table n) (parent : ProcessIdentity) :
    (count_results table parent).1 = countOf (is_result_of parent) table := by
  have hloop : ∀ (l : List (Fin n)) (found : Nat × Option (Fin n)),
      (l.foldl (results_turn table parent) found).1 =
        found.1 + (l.filter fun i => is_result_of parent (table i)).length := by
    intro l
    induction l with
    | nil => simp
    | cons i l ih =>
      intro found
      rw [foldl_cons, ih, results_turn_fst]
      cases h : is_result_of parent (table i) with
      | false => simp [h]
      | true =>
        simp only [h, Bool.toNat_true, filter_cons_of_pos, length_cons]
        omega
  unfold count_results
  rw [hloop, Nat.zero_add]
  unfold countOf
  rw [← toFinset_card_of_nodup ((nodup_finRange n).filter _)]
  congr 1
  ext i
  simp

/-- The oldest result is one, and there is one if there is any. -/
theorem oldest_is_result (table : Table n) (parent : ProcessIdentity) :
    ((count_results table parent).2 = none → (count_results table parent).1 = 0) ∧
      ∀ oldest, (count_results table parent).2 = some oldest →
        is_result_of parent (table oldest) := by
  -- what has been found so far is right at each turn
  refine foldlRecOn (motive := fun found : Nat × Option (Fin n) => (found.2 = none → found.1 = 0) ∧
    ∀ oldest, found.2 = some oldest → is_result_of parent (table oldest)) _ _
    ⟨fun _ => rfl, by simp⟩ ?_
  intro found hfound i _
  have hsome : ∀ (count : Nat) (k : Fin n), is_result_of parent (table k) →
      (some k = none → count = 0) ∧
        ∀ oldest, some k = some oldest → is_result_of parent (table oldest) := by
    intro count k hk
    refine ⟨nofun, ?_⟩
    rintro _ ⟨⟩
    exact hk
  unfold results_turn
  cases h : is_result_of parent (table i) with
  | false =>
    rw [Bool.not_false, if_pos rfl]
    exact hfound
  | true =>
    rw [Bool.not_true, if_neg Bool.false_ne_true]
    cases hold : found.2 with
    | none => exact hsome _ i h
    | some old =>
      dsimp only
      split
      · exact hsome _ i h
      · exact hsome _ old (hfound.2 old hold)

/-- Either the loop of `reap_old_child_results` is over, or it reaps a result. -/
theorem reap_old_turn (parent : ProcessIdentity) (keep_count turns : Nat) (table : Table n) :
    (count_results table parent).1 ≤ keep_count ∧
        reap_old_child_results parent keep_count (turns + 1) table = table ∨
      ∃ oldest, is_result_of parent (table oldest) ∧
        reap_old_child_results parent keep_count (turns + 1) table =
          reap_old_child_results parent keep_count turns
            (table.set oldest (table oldest).reap) := by
  obtain ⟨hnone, hsome⟩ := oldest_is_result table parent
  rw [reap_old_child_results]
  split
  · rename_i count hcount
    rw [hcount] at hnone
    left
    rw [hcount, hnone rfl]
    exact ⟨Nat.zero_le _, rfl⟩
  · rename_i count oldest hcount
    rw [hcount] at hsome
    split
    · rename_i hfew
      left
      rw [hcount]
      exact ⟨hfew, rfl⟩
    · exact .inr ⟨oldest, hsome oldest rfl, rfl⟩

/-! ## Old results -/

theorem not_result_of_reap (parent : ProcessIdentity) (process : Process) :
    is_result_of parent process.reap = false := by
  simp [is_result_of, process_is_waitable_result, Process.reap]

variable {parent : ProcessIdentity}

theorem reap_old_unchanged {keep_count : Nat}
    (hfew : (count_results table parent).1 ≤ keep_count) (turns : Nat) :
    reap_old_child_results parent keep_count turns table = table := by
  cases turns with
  | zero => rfl
  | succ turns =>
    rw [reap_old_child_results]
    split
    · rfl
    · rename_i count oldest hcount
      rw [hcount] at hfew
      rw [if_pos hfew]

/-- Only results of the parent are reaped, and nothing else of a record changes. -/
theorem reap_old_at (parent : ProcessIdentity) (keep_count turns : Nat) (table : Table n) (i : Fin n) :
    reap_old_child_results parent keep_count turns table i = table i ∨
      is_result_of parent (table i) ∧
        reap_old_child_results parent keep_count turns table i = (table i).reap := by
  induction turns generalizing table with
  | zero => exact .inl rfl
  | succ turns ih =>
    rcases reap_old_turn parent keep_count turns table with ⟨_, h⟩ | ⟨oldest, hresult, h⟩
    · rw [h]
      exact .inl rfl
    · rw [h]
      have hthen := ih (table.set oldest (table oldest).reap)
      by_cases hi : i = oldest
      · subst hi
        rw [Table.set, update_self, not_result_of_reap] at hthen
        rcases hthen with hthen | ⟨hfalse, _⟩
        · exact .inr ⟨hresult, hthen⟩
        · cases hfalse
      · rwa [Table.set, update_of_ne hi] at hthen

/-- The loop has turns enough: it ends with no more results than it keeps. -/
theorem reap_old_bounded (parent : ProcessIdentity) (keep_count turns : Nat) (table : Table n)
    (hturns : (count_results table parent).1 ≤ keep_count + turns) :
    (count_results (reap_old_child_results parent keep_count turns table) parent).1 ≤
      keep_count := by
  induction turns generalizing table with
  | zero => exact hturns
  | succ turns ih =>
    rcases reap_old_turn parent keep_count turns table with ⟨hfew, h⟩ | ⟨oldest, hresult, h⟩
    · rw [h]
      exact hfew
    · rw [h]
      apply ih
      have hmoved := countOf_update (is_result_of parent) table oldest (table oldest).reap
      rw [hresult, not_result_of_reap] at hmoved
      simp only [Bool.toNat_true, Bool.toNat_false] at hmoved
      rw [count_results_fst] at hturns ⊢
      unfold Table.set
      omega

/-- `process_finish` leaves a parent no more results than the history holds. -/
theorem history_is_bounded (table : Table n) (i : Fin n) (result : Result) :
    (count_results (process_finish table i result) (table i).parent).1 ≤
      PROCESS_CHILD_RESULT_HISTORY_LIMIT := by
  unfold process_finish
  apply reap_old_bounded
  rw [count_results_fst]
  have hall : ∀ f : Table n, countOf (is_result_of (table i).parent) f ≤ n := by
    intro f
    unfold countOf
    exact (Finset.card_filter_le _ _).trans (by rw [Finset.card_univ, Fintype.card_fin])
  exact (hall _).trans (Nat.le_add_left _ _)

/-! ## What a finish leaves -/

/-- What `process_cleanup_owned_children` does to a record. -/
theorem cleanup_at (own : ProcessIdentity) (table : Table n) (i : Fin n) :
    process_cleanup_owned_children own table i = table i ∨
      process_child_matches_parent (table i) own ∧
        ((table i).active ∧
            process_cleanup_owned_children own table i = (table i).orphan ∨
          process_cleanup_owned_children own table i = (table i).reap) := by
  unfold process_cleanup_owned_children
  split
  · exact .inl rfl
  dsimp only [cleanup_owned_child]
  split
  · exact .inl rfl
  rename_i hchild
  simp only [Bool.or_eq_true, Bool.not_eq_true', not_or, Bool.not_eq_false] at hchild
  split
  · rename_i hactive
    exact .inr ⟨hchild.2, .inl ⟨hactive, rfl⟩⟩
  · split
    · exact .inr ⟨hchild.2, .inr rfl⟩
    · exact .inl rfl

theorem count_after_cleanup (parent own : ProcessIdentity) (table : Table n) :
    countOf (is_result_of parent) (process_cleanup_owned_children own table) ≤
      countOf (is_result_of parent) table := by
  apply countOf_mono
  intro i h
  rcases cleanup_at own table i with hi | ⟨_, ⟨hactive, hi⟩ | hi⟩
  · rwa [hi] at h
  · simp [hi, is_result_of, process_is_waitable_result, Process.orphan, hactive] at h
  · rw [hi, not_result_of_reap] at h
    cases h

/-- A finish adds one result at most. -/
theorem count_after_finish (parent own : ProcessIdentity) (table : Table n) (i : Fin n)
    (process : Process) :
    (count_results (process_cleanup_owned_children own (table.set i process)) parent).1 ≤
      (count_results table parent).1 + 1 := by
  rw [count_results_fst, count_results_fst]
  have hclean := count_after_cleanup parent own (table.set i process)
  have hset := countOf_update (is_result_of parent) table i process
  have hone := Bool.toNat_le (is_result_of parent process)
  unfold Table.set at *
  omega

/-! ## The invariant -/

/-- The record has what the process left when it first finished, and nobody has taken it. -/
structure Holds (process : Process) (f : Finished) : Prop where
  identity : process.identity = f.process
  parent : process.parent = f.parent
  state : process.state = f.result.state
  termination_reason : process.termination_reason = f.result.termination_reason
  status_code : process.status_code = f.result.status_code
  active : process.active = false
  reaped : process.reaped = false

def Collectable (processes : Table n) (f : Finished) : Prop := ∃ i, Holds (processes i) f

/-- The steps that keep results: pids are not used up and a new process finds a record; no
state is written over that of a process that has ended; a process that finishes under a
living parent finds room in the history; the last part of a finish, and a wait, find the
process that they began with. -/
def allowed (s : State n a) : Label n a → Bool
  | .create _ busy fault _ _ =>
    decide (s.next_pid.toNat + 1 < 2 ^ 32) &&
      (allocate_process_record s.processes busy fault).isSome
  | .load i | .loaded i | .run i | .pause i => !(s i).terminal
  | .mark_failed _ i _ _ | .mark_returned _ i _ _ =>
    !(s i).terminal &&
      (!parent_lives s.processes (s i).parent ||
        decide ((count_results s.processes (s i).parent).1 <
          PROCESS_CHILD_RESULT_HISTORY_LIMIT))
  | .wait_child _ _ | .reap_all_children _ => true
  | .next c =>
    match s.pc c with
    | .idle => true
    | .finishing i own _ => decide ((s i).identity = own)
    | .taking child found => decide ((s child).identity = found)

/-- A parent of which a record or a finish can speak. -/
structure Known (next_pid : U32) (parent : ProcessIdentity) : Prop where
  below : parent.pid.toNat < next_pid.toNat
  whole : parent.generation = 0 → parent.pid = 0

structure Inv (s : State n a) : Prop where
  distinct : Distinct s.processes
  known : ∀ i, Known s.next_pid (s i).identity
  parents : ∀ i, Known s.next_pid (s i).parent
  unborn : ∀ i, (s i).identity.pid = 0 → (s i).parent.pid = 0
  finishing : ∀ c i own parent, s.pc c = .finishing i own parent →
    own.pid.toNat < s.next_pid.toNat ∧ ((s i).identity = own →
      (s i).parent = parent ∨ (s i).parent.pid = 0)
  ended : ∀ f ∈ s.finished, Known s.next_pid f.parent ∧
    (f.result.state = .returned ∨ f.result.state = .failed)
  kept : ∀ f ∈ s.finished, Lives s.processes f.parent → f.process ∉ s.consumed →
    Collectable s.processes f

theorem Inv.positive (h : Inv s) (i : Fin n) : 0 < s.next_pid.toNat :=
  Nat.zero_lt_of_lt (h.known i).below

variable {f : Finished}

theorem terminal_of (h : process.state = .returned ∨ process.state = .failed) :
    process.terminal := by
  unfold Process.terminal
  rcases h with h | h
  · rw [h]
    rfl
  · rw [h]
    rfl

theorem Holds.terminal (h : Holds process f)
    (hended : f.result.state = .returned ∨ f.result.state = .failed) : process.terminal :=
  terminal_of (h.state ▸ hended)

theorem Collectable.change {processes' : Table n}
    (h : Collectable table f) (hsame : ∀ j, Holds (table j) f → processes' j = table j) :
    Collectable processes' f := by
  obtain ⟨j, hj⟩ := h
  exact ⟨j, (hsame j hj).symm ▸ hj⟩

/-! ## Changes that give no process a new identity -/

/-- The record has the same process, with its parent or without one, and a process that has
ended stays so. -/
structure Mild (before after : Process) : Prop where
  identity : after.identity = before.identity
  parent : after.parent = before.parent ∨ after.parent = ⟨0, 0⟩
  ended : before.terminal → after.terminal

theorem Mild.refl (process : Process) : Mild process process := ⟨rfl, .inl rfl, id⟩

theorem Mild.trans {p q r : Process} (h : Mild p q) (h' : Mild q r) : Mild p r := by
  refine ⟨h'.identity.trans h.identity, ?_, fun hp => h'.ended (h.ended hp)⟩
  rcases h'.parent with hr | hr
  · rw [hr]
    exact h.parent
  · exact .inr hr

theorem Mild.reap (process : Process) : Mild process process.reap := ⟨rfl, .inl rfl, id⟩

theorem Mild.orphan (process : Process) : Mild process process.orphan := ⟨rfl, .inr rfl, id⟩

theorem Mild.set (h : Mild (table i) process) (j : Fin n) :
    Mild (table j) (table.set i process j) := by
  refine Table.set_cases j (fun hj => ?_) fun _ => .refl _
  rw [hj]
  exact h

theorem Lives.before {before after : Table n}
    (h : Lives after identity) (hmild : ∀ i, Mild (before i) (after i)) : Lives before identity := by
  obtain ⟨hp, hg, j, hid, hlive⟩ := h
  refine ⟨hp, hg, j, (hmild j).identity.symm.trans hid, ?_⟩
  cases hterminal : (before j).terminal with
  | false => rfl
  | true =>
    rw [(hmild j).ended hterminal] at hlive
    cases hlive

variable {next_pid : U32}

theorem known_zero (h : 0 < next_pid.toNat) : Known next_pid ⟨0, 0⟩ :=
  ⟨h, fun _ => rfl⟩

theorem Mild.known {before after : Process} (h : Mild before after)
    (hknown : Known next_pid before.parent) : Known next_pid after.parent := by
  rcases h.parent with hp | hp
  · rw [hp]
    exact hknown
  · rw [hp]
    exact known_zero (Nat.zero_lt_of_lt hknown.below)

/-- A step that changes records mildly keeps the invariant, if it keeps the results. -/
theorem Inv.mild {s' : State n a} (h : Inv s)
    (hmild : ∀ i, Mild (s i) (s' i)) (hpid : s'.next_pid = s.next_pid)
    (hpc : ∀ c i own parent, s'.pc c = .finishing i own parent → s.pc c = .finishing i own parent ∨
        own = (s i).identity ∧ parent = (s i).parent)
    (hended : ∀ f ∈ s'.finished, f ∈ s.finished ∨ Known s.next_pid f.parent ∧
      (f.result.state = .returned ∨ f.result.state = .failed))
    (hkept : ∀ f ∈ s'.finished, Lives s'.processes f.parent → f.process ∉ s'.consumed →
      Collectable s'.processes f) : Inv s' := by
  refine ⟨?_, ?_, ?_, ?_, ?_, ?_, hkept⟩
  · intro i j hp hsame
    rw [(hmild i).identity] at hp hsame
    rw [(hmild j).identity] at hsame
    exact h.distinct i j hp hsame
  · intro i
    rw [hpid, (hmild i).identity]
    exact h.known i
  · intro i
    rw [hpid]
    exact (hmild i).known (h.parents i)
  · intro i hp
    rw [(hmild i).identity] at hp
    rcases (hmild i).parent with hsame | hnone
    · rw [hsame]
      exact h.unborn i hp
    · rw [hnone]
  · intro c i own parent hc
    have hparent : ∀ {parent : ProcessIdentity},
        (s i).parent = parent ∨ (s i).parent.pid = 0 →
          (s' i).parent = parent ∨ (s' i).parent.pid = 0 := by
      intro parent hbefore
      rcases (hmild i).parent with hsame | hnone
      · rw [hsame]
        exact hbefore
      · rw [hnone]
        exact .inr rfl
    rw [hpid, (hmild i).identity]
    rcases hpc c i own parent hc with hold | ⟨rfl, rfl⟩
    · obtain ⟨hbelow, hwas⟩ := h.finishing c i own parent hold
      exact ⟨hbelow, fun hid => hparent (hwas hid)⟩
    · exact ⟨(h.known i).below, fun _ => hparent (.inl rfl)⟩
  · intro f hf
    rw [hpid]
    rcases hended f hf with hold | hnew
    · exact h.ended f hold
    · exact hnew

/-- The same, when records have changed and results were taken. -/
theorem Inv.mild_table {consumed : List ProcessIdentity} (h : Inv s)
    (hmild : ∀ i, Mild (s i) (table i)) (hmore : s.consumed ⊆ consumed)
    (hkept : ∀ f ∈ s.finished, Lives s.processes f.parent → f.process ∉ consumed → ∀ j,
      Holds (s j) f → table j = s j) :
    Inv { s with processes := table, consumed := consumed } := by
  refine h.mild hmild rfl (fun _ _ _ _ hc => .inl hc) (fun _ hf => .inl hf) ?_
  intro f hf hlives hconsumed
  have hbefore := hlives.before hmild
  exact (h.kept f hf hbefore fun hmem => hconsumed (hmore hmem)).change (hkept f hf hbefore hconsumed)

/-! ## The states of processes that run -/

/-- A state is written to a process that has not ended. -/
theorem Inv.write (h : Inv s) (hrunning : (s i).terminal = false)
    (hidentity : process.identity = (s i).identity) (hparent : process.parent = (s i).parent) :
    Inv { s with processes := s.processes.set i process } := by
  refine h.mild_table ?_ (Subset.refl _) ?_
  · apply Mild.set
    refine ⟨hidentity, .inl hparent, ?_⟩
    intro hended
    rw [hrunning] at hended
    cases hended
  · intro f hf _ _ j hj
    apply update_of_ne
    rintro rfl
    rw [hj.terminal (h.ended f hf).2] at hrunning
    cases hrunning

/-! ## Finishing -/

/-- What the clean-up after a finish does to the records is mild. -/
theorem cleanup_mild (table : Table n) (i : Fin n) (result : Result) (j : Fin n) :
    Mild (table.set i ((table i).finish result) j) (process_finish table i result j) := by
  unfold process_finish
  set after := table.set i ((table i).finish result)
  apply Mild.trans (q := process_cleanup_owned_children (table i).identity after j)
  · rcases cleanup_at (table i).identity after j with h | ⟨_, ⟨_, h⟩ | h⟩
    · rw [h]
      exact .refl _
    · rw [h]
      exact .orphan _
    · rw [h]
      exact .reap _
  · rcases reap_old_at (table i).parent PROCESS_CHILD_RESULT_HISTORY_LIMIT n
        (process_cleanup_owned_children (table i).identity after) j with h | ⟨_, h⟩
    · rw [h]
      exact .refl _
    · rw [h]
      exact .reap _

section
variable {table : Table n} {i : Fin n} {result : Result}
  (hresult : result.state = .returned ∨ result.state = .failed)
include hresult

theorem finish_ends : (process_finish table i result i).terminal := by
  apply (cleanup_mild table i result i).ended
  rw [Table.set, update_self]
  exact terminal_of hresult

theorem finish_mild (j : Fin n) : Mild (table j) (process_finish table i result j) := by
  have hfinish : Mild (table i) ((table i).finish result) :=
    ⟨rfl, .inl rfl, fun _ => terminal_of hresult⟩
  exact (hfinish.set j).trans (cleanup_mild table i result j)

/-- A child of a living parent is no child of the process that finishes. -/
theorem not_own_child (hdistinct : Distinct table) {process : Process}
    (hlives : Lives (process_finish table i result) process.parent) :
    process_child_matches_parent process (table i).identity = false := by
  obtain ⟨hp, _, j, hid, hlive⟩ := hlives
  rw [(finish_mild hresult j).identity] at hid
  cases hmatch : process_child_matches_parent process (table i).identity with
  | false => rfl
  | true =>
    simp only [process_child_matches_parent, Bool.and_eq_true, decide_eq_true_eq] at hmatch
    have hji : j = i := by
      apply hdistinct
      · rw [hid]
        exact hp
      · rw [hid]
        exact hmatch.1
    rw [hji, finish_ends hresult] at hlive
    cases hlive

/-- With room in the history, a finish changes no other child of a living parent. -/
theorem finish_keeps (hdistinct : Distinct table)
    (hknown : Known next_pid (table i).parent) (hroom : Lives table (table i).parent →
      (count_results table (table i).parent).1 < PROCESS_CHILD_RESULT_HISTORY_LIMIT)
    {j : Fin n} (hlives : Lives (process_finish table i result)
      (table.set i ((table i).finish result) j).parent) :
    process_finish table i result j = table.set i ((table i).finish result) j := by
  set after := table.set i ((table i).finish result)
  have hclean : process_cleanup_owned_children (table i).identity after j = after j := by
    rcases cleanup_at (table i).identity after j with h | ⟨hmatch, _⟩
    · exact h
    · rw [not_own_child hresult hdistinct hlives] at hmatch
      cases hmatch
  by_cases hparent : Lives table (table i).parent
  · have hfew := count_after_finish (table i).parent (table i).identity table i
      ((table i).finish result)
    have hcount := hroom hparent
    rw [process_finish, reap_old_unchanged (by omega), hclean]
  · have hold := reap_old_at (table i).parent PROCESS_CHILD_RESULT_HISTORY_LIMIT n
      (process_cleanup_owned_children (table i).identity after) j
    rw [hclean] at hold
    rcases hold with h | ⟨hmatch, _⟩
    · exact h
    · -- the parent is not the one whose results are reaped, which does not live
      simp only [is_result_of, process_child_matches_parent, Bool.and_eq_true, Bool.or_eq_true,
        decide_eq_true_eq] at hmatch
      obtain ⟨⟨hpid, hgeneration⟩, _⟩ := hmatch
      exfalso
      rcases hgeneration with hzero | hgeneration
      · apply hlives.1
        rw [hpid]
        exact hknown.whole hzero
      · apply hparent
        have hsame : (after j).parent = (table i).parent := by
          cases hl : (after j).parent
          cases hr : (table i).parent
          rw [hl, hr] at hpid hgeneration
          simp only at hpid hgeneration
          rw [hpid, hgeneration]
        rw [← hsame]
        exact hlives.before (finish_mild hresult)

end

variable {s : State n a} {i : Fin n} {table : Table n}

/-- A finish keeps the results, and adds one. -/
theorem Inv.finish (h : Inv s) (c : Fin a) {result : Result}
    (hresult : result.state = .returned ∨ result.state = .failed)
    (hrunning : (s i).terminal = false) (hroom : Lives s.processes (s i).parent →
      (count_results s.processes (s i).parent).1 < PROCESS_CHILD_RESULT_HISTORY_LIMIT) :
    Inv (s.finish c i result) := by
  have hmember : ∀ f ∈ (s.finish c i result).finished, f ∈ s.finished ∨
      f = ⟨(s i).identity, (s i).parent, result⟩ := by
    intro f hf
    simp only [State.finish] at hf
    split at hf
    · exact .inl hf
    · rcases mem_cons.mp hf with rfl | hf
      · exact .inr rfl
      · exact .inl hf
  refine h.mild (finish_mild hresult) rfl ?_ ?_ ?_
  · intro c' i' own parent
    simp only [State.finish, State.goto]
    refine update_cases c' (fun _ hc => ?_) fun _ => .inl
    cases hc
    exact .inr ⟨rfl, rfl⟩
  · intro f hf
    rcases hmember f hf with hold | rfl
    · exact .inl hold
    · exact .inr ⟨h.parents i, hresult⟩
  · intro f hf hlives hconsumed
    have hkeeps := fun j => finish_keeps (j := j) hresult h.distinct (h.parents i) hroom
    rcases hmember f hf with hold | rfl
    · apply (h.kept f hold (hlives.before (finish_mild hresult)) hconsumed).change
      intro j hj
      have hji : j ≠ i := by
        rintro rfl
        rw [hj.terminal (h.ended f hold).2] at hrunning
        cases hrunning
      have hother : s.processes.set i ((s i).finish result) j = s j :=
        update_of_ne hji _ _
      rw [← hj.parent, ← hother] at hlives
      exact (hkeeps j hlives).trans hother
    · have hself : s.processes.set i ((s i).finish result) i =
          (s i).finish result := update_self _ _ _
      have hthere := hkeeps i (by rw [hself]; exact hlives)
      rw [hself] at hthere
      refine ⟨i, ?_⟩
      change Holds (process_finish s.processes i result i) _
      rw [hthere]
      exact ⟨rfl, rfl, rfl, rfl, rfl, rfl, rfl⟩

/-! ## The other steps -/

theorem Inv.goto (h : Inv s) {c : Fin a} {pc : Pc n}
    (hpc : ∀ i own parent, pc ≠ .finishing i own parent) : Inv (s.goto c pc) := by
  refine h.mild (fun i => .refl _) rfl ?_ (fun _ hf => .inl hf) h.kept
  intro c' i own parent
  simp only [State.goto]
  exact update_cases c' (fun _ hc => absurd hc (hpc i own parent)) fun _ => .inl

/-- The last part of a finish reaps the result of a process whose parent is gone. -/
theorem Inv.finish_orphan (h : Inv s) {c : Fin a}
    {own parent : ProcessIdentity} (hpc : s.pc c = .finishing i own parent)
    (hown : (s i).identity = own) :
    Inv { s with processes := results.finish_orphan s.processes i parent } := by
  unfold results.finish_orphan
  split
  · exact h
  rename_i hgone
  refine h.mild_table (Mild.set (.reap _)) (Subset.refl _) ?_
  · intro f _ hlives _ j hj
    apply update_of_ne
    rintro rfl
    rw [← hj.parent] at hlives
    rcases (h.finishing c j own parent hpc).2 hown with hsame | hnone
    · rw [hsame] at hlives
      exact hgone ((parent_lives_iff h.distinct parent).mpr hlives)
    · exact hlives.1 hnone

/-- A wait takes the result that it has found. -/
theorem Inv.take (h : Inv s) (child : Fin n) : Inv { s with
      processes := s.processes.set child (s child).reap
      consumed := (s child).identity :: s.consumed } := by
  refine h.mild_table (Mild.set (.reap _)) (subset_cons_self _ _) ?_
  intro f _ _ hconsumed j hj
  apply update_of_ne
  rintro rfl
  exact hconsumed (hj.identity ▸ mem_cons_self)

theorem Inv.reap_all_children (h : Inv s) (parent : Fin n) : Inv (s.reap_all_children parent) := by
  refine h.mild_table ?_ (subset_append_right _ _) ?_
  · intro j
    unfold reap_all_child_processes
    split
    · exact .reap _
    · exact .refl _
  · intro f _ _ hconsumed j hj
    apply if_neg
    intro hresult
    apply hconsumed
    unfold reaped_results
    rw [mem_append, mem_map]
    exact .inl ⟨j, mem_filter.mpr ⟨mem_finRange j, hresult⟩, hj.identity⟩

/-! ## New processes -/

theorem allocated_is_free {busy : Fin n → Bool} {fault : Bool}
    (h : allocate_process_record table busy fault = some i) :
    (table i).identity.pid = 0 ∨ (table i).reaped := by
  unfold allocate_process_record at h
  split at h
  · cases h
  split at h
  · rename_i j hj
    cases h
    exact .inl (of_decide_eq_true (find_some hj))
  · have hfree := find?_some h
    simp only [Bool.and_eq_true] at hfree
    exact .inr hfree.2

theorem toNat_succ {pid : U32} (hbound : pid.toNat + 1 < 2 ^ 32) : (pid + 1).toNat = pid.toNat + 1 := by
  rw [BitVec.toNat_add]
  exact Nat.mod_eq_of_lt hbound

theorem Known.succ (h : Known next_pid identity)
    (hbound : next_pid.toNat + 1 < 2 ^ 32) : Known (next_pid + 1) identity := by
  refine ⟨?_, h.whole⟩
  have hbelow := h.below
  rw [toNat_succ hbound]
  omega

/-- A free record gets a process with a new pid, or none. -/
theorem Inv.reuse (h : Inv s) {process : Process}
    {generation : U32} (hbound : s.next_pid.toNat + 1 < 2 ^ 32)
    (hfree : (s i).identity.pid = 0 ∨ (s i).reaped)
    (hnew : process.identity.pid = 0 ∨ process.identity.pid = s.next_pid)
    (hknown : Known (s.next_pid + 1) process.identity) (hparent : Known (s.next_pid + 1) process.parent)
    (hunborn : process.identity.pid = 0 → process.parent.pid = 0) : Inv { s with
      processes := s.processes.set i process, next_pid := s.next_pid + 1
      next_process_generation := generation } := by
  have hfresh : ∀ {identity : ProcessIdentity}, identity.pid.toNat < s.next_pid.toNat →
      process.identity.pid = identity.pid → identity.pid = 0 := by
    intro identity hbelow hsame
    rcases hnew with hzero | hpid
    · rw [← hsame, hzero]
    · rw [← hsame, hpid] at hbelow
      exact absurd hbelow (lt_irrefl _)
  have hlives : ∀ {identity : ProcessIdentity}, identity.pid.toNat < s.next_pid.toNat →
      Lives (s.processes.set i process) identity → Lives s.processes identity := by
    rintro identity hbelow ⟨hp, hg, j, hid, hlive⟩
    revert hid hlive
    refine Table.set_cases j (fun _ hid => ?_) fun _ hid hlive => ⟨hp, hg, j, hid, hlive⟩
    exact absurd (hfresh hbelow (congrArg ProcessIdentity.pid hid)) hp
  refine ⟨?_, ?_, ?_, ?_, ?_, ?_, ?_⟩
  all_goals dsimp only
  · intro j k
    refine Table.set_cases j (fun hj => ?_) fun _ => ?_
    · refine Table.set_cases k (fun hk _ _ => hj.trans hk.symm) fun _ hp hsame => ?_
      rw [hsame] at hp
      exact absurd (hfresh (h.known k).below hsame) hp
    · refine Table.set_cases k (fun _ hp hsame => ?_) fun _ => h.distinct j k
      exact absurd (hfresh (h.known j).below hsame.symm) hp
  · intro j
    exact Table.set_cases j (fun _ => hknown) fun _ => (h.known j).succ hbound
  · intro j
    exact Table.set_cases j (fun _ => hparent) fun _ => (h.parents j).succ hbound
  · intro j
    exact Table.set_cases j (fun _ => hunborn) fun _ => h.unborn j
  · intro c j own parent hc
    obtain ⟨hbelow, hwas⟩ := h.finishing c j own parent hc
    refine ⟨?_, ?_⟩
    · rw [toNat_succ hbound]
      exact Nat.lt_succ_of_lt hbelow
    · refine Table.set_cases j (fun _ hid => ?_) fun _ => hwas
      have hzero := hfresh hbelow (congrArg ProcessIdentity.pid hid)
      rw [← hid] at hzero
      exact .inr (hunborn hzero)
  · intro f hf
    exact ⟨(h.ended f hf).1.succ hbound, (h.ended f hf).2⟩
  · intro f hf hlive hconsumed
    have hbefore := hlives (h.ended f hf).1.below hlive
    apply (h.kept f hf hbefore hconsumed).change
    intro j hj
    apply update_of_ne
    rintro rfl
    rcases hfree with hzero | hreaped
    · apply hbefore.1
      rw [← hj.parent]
      exact h.unborn j hzero
    · rw [hj.reaped] at hreaped
      cases hreaped

theorem next_number_ne_zero (next : U32) : (joins.next_number next).1 ≠ 0 := by
  by_cases hzero : next = 0
  · subst hzero
    decide
  · simp only [joins.next_number, if_neg hzero]
    exact hzero

theorem Inv.process_assign_identity (h : Inv s) (parent : Option (Fin n)) (thread_allocated : Bool)
    (hbound : s.next_pid.toNat + 1 < 2 ^ 32) (hfree : (s i).identity.pid = 0 ∨ (s i).reaped) :
    Inv (s.process_assign_identity i parent thread_allocated) := by
  have hpositive := h.positive i
  have hgeneration := next_number_ne_zero s.next_process_generation
  have hpid : s.next_pid ≠ 0 := by
    intro hzero
    rw [hzero] at hpositive
    exact absurd hpositive (lt_irrefl _)
  have hnext : s.next_pid.toNat < (s.next_pid + 1).toNat := by
    rw [toNat_succ hbound]
    exact Nat.lt_succ_self _
  have hown : Known (s.next_pid + 1)
      ⟨s.next_pid, (joins.next_number s.next_process_generation).1⟩ :=
    ⟨hnext, fun hzero => absurd hzero hgeneration⟩
  have hnone : Known (s.next_pid + 1) ⟨0, 0⟩ := known_zero (by omega)
  unfold State.process_assign_identity
  cases thread_allocated with
  | false =>
    simp only [Bool.false_eq_true, if_false, Table.set, update_idem]
    exact h.reuse hbound hfree (.inl rfl) hnone hnone fun _ => rfl
  | true =>
    simp only [if_true, Table.set, update_idem, update_self]
    refine h.reuse hbound hfree (.inr rfl) hown ?_ (fun hzero => absurd hzero hpid)
    cases parent with
    | none => exact hnone
    | some p =>
      dsimp only [Option.elim_some]
      exact update_cases p (fun _ => hown) fun _ => (h.known p).succ hbound

/-! ## Runs -/

theorem Inv.start : Inv (init n a) := by
  refine ⟨fun _ _ hp => absurd rfl hp, fun _ => ⟨Nat.zero_lt_one, fun _ => rfl⟩,
    fun _ => ⟨Nat.zero_lt_one, fun _ => rfl⟩, fun _ _ => rfl, nofun, nofun, nofun⟩

theorem Inv.step {s' : State n a} {l : Label n a} (h : Inv s) (hallowed : allowed s l)
    (hstep : results.step s l = some s') : Inv s' := by
  have hroom : ∀ {i : Fin n}, (!parent_lives s.processes (s i).parent ||
      decide ((count_results s.processes (s i).parent).1 <
        PROCESS_CHILD_RESULT_HISTORY_LIMIT)) →
      Lives s.processes (s i).parent →
        (count_results s.processes (s i).parent).1 < PROCESS_CHILD_RESULT_HISTORY_LIMIT := by
    intro i hor hlives
    rw [(parent_lives_iff h.distinct _).mpr hlives] at hor
    simpa using hor
  cases l <;> simp only [results.step] at hstep
  case create parent busy fault fault_again thread_allocated =>
    cases hstep
    simp only [allowed, Bool.and_eq_true, decide_eq_true_eq] at hallowed
    obtain ⟨i, hi⟩ := Option.isSome_iff_exists.mp hallowed.2
    unfold State.create
    rw [hi]
    exact h.process_assign_identity parent thread_allocated hallowed.1 (allocated_is_free hi)
  case load | loaded | run | pause =>
    cases hstep
    exact h.write (by simpa [allowed] using hallowed) rfl rfl
  case mark_failed c _ _ _ | mark_returned c _ _ _ =>
    split at hstep <;> cases hstep
    simp only [allowed, Bool.and_eq_true, Bool.not_eq_true'] at hallowed
    exact h.finish c (by simp) hallowed.1 (hroom hallowed.2)
  case wait_child =>
    split at hstep <;> cases hstep
    unfold State.wait_child
    split
    · exact h
    · exact h.goto (by simp)
  case reap_all_children parent =>
    cases hstep
    exact h.reap_all_children parent
  case next c =>
    simp only [allowed] at hallowed
    cases hpc : s.pc c <;> simp only [State.next, hpc, reduceCtorEq] at hstep hallowed <;> cases hstep
    case finishing =>
      have hdone := h.finish_orphan hpc (of_decide_eq_true hallowed)
      exact hdone.goto (by simp)
    case taking child _ =>
      have htaken := h.take child
      rw [of_decide_eq_true hallowed] at htaken
      exact htaken.goto (by simp)

theorem reached_inv (h : (machine n a).ReachedBy (fun s l => allowed s l = true) s) : Inv s := by
  apply h.inv (P := Inv)
  · rintro s rfl
    exact Inv.start
  · intro s l s' hinv hallowed hstep
    exact hinv.step hallowed hstep

/-! ## Waiting -/

section
variable {pid : Nat}

/-- A turn of the loop of a wait keeps a child with a pid that is not smaller, and so does a
turn at a result. -/
theorem waitable_turn_ge {latest : Option (Fin n)}
    (h : (∃ k, latest = some k ∧ pid ≤ (table k).identity.pid.toNat) ∨
      is_result_of parent (table i) ∧ pid ≤ (table i).identity.pid.toNat) :
    ∃ child, waitable_turn table parent latest i = some child ∧
      pid ≤ (table child).identity.pid.toNat := by
  unfold waitable_turn
  split
  · rename_i hnot
    rcases h with hkept | ⟨hresult, _⟩
    · exact hkept
    · simp [hresult] at hnot
  · cases latest with
    | none => exact ⟨i, rfl, (h.resolve_left nofun).2⟩
    | some k =>
      simp only [BitVec.lt_def, Option.some.injEq, exists_eq_left'] at h ⊢
      split
      · exact ⟨i, rfl, by omega⟩
      · exact ⟨k, rfl, by omega⟩

/-- The loop of a wait finds a child whose pid is at least that of each result in its list. -/
theorem waitable_loop_finds {l : List (Fin n)} (latest : Option (Fin n))
    (h : (∃ k, latest = some k ∧ pid ≤ (table k).identity.pid.toNat) ∨
      ∃ i ∈ l, is_result_of parent (table i) ∧ pid ≤ (table i).identity.pid.toNat) :
    ∃ child, l.foldl (waitable_turn table parent) latest = some child ∧
      pid ≤ (table child).identity.pid.toNat := by
  induction l generalizing latest with
  | nil => exact h.resolve_right (by simp)
  | cons j l ih =>
    rw [foldl_cons]
    apply ih
    rcases h with hkept | ⟨i, hi, hresult⟩
    · exact .inl (waitable_turn_ge (.inl hkept))
    · rcases mem_cons.mp hi with rfl | hi
      · exact .inl (waitable_turn_ge (.inr hresult))
      · exact .inr ⟨i, hi, hresult⟩

end

/-- The wait of a living parent finds a result that is kept for it, or one with a greater
pid. -/
theorem wait_finds (hdistinct : Distinct table)
    (hlives : Lives table f.parent) (hholds : Holds (table i) f)
    (hended : f.result.state = .returned ∨ f.result.state = .failed)
    (hborn : (table i).identity.pid ≠ 0) :
    ∃ child, find_waitable_child_process table f.parent.pid = some child ∧
      (child = i ∨ (table i).identity.pid < (table child).identity.pid) := by
  obtain ⟨hp, _, j, hj, _⟩ := hlives
  have hcurrent : current_identity table f.parent.pid = f.parent := by
    rw [← hj] at hp ⊢
    exact current_identity_of hdistinct hp
  have hresult : is_result_of f.parent (table i) := by
    simpa [is_result_of, process_child_matches_parent, process_is_waitable_result, hholds.parent,
      hholds.active, hholds.reaped, hholds.terminal hended] using hborn
  obtain ⟨child, hchild, hle⟩ := waitable_loop_finds none
    (.inr ⟨i, mem_finRange i, hresult, le_rfl⟩)
  refine ⟨child, ?_, ?_⟩
  · unfold find_waitable_child_process
    rw [hcurrent]
    exact hchild
  · rcases eq_or_lt_of_le hle with heq | hlt
    · exact .inl (hdistinct i child hborn (BitVec.eq_of_toNat_eq heq)).symm
    · exact .inr (BitVec.lt_def.mpr hlt)

/-- What the first finish of a process recorded is kept for a parent that lives until the
parent takes it, and the parent's wait finds it or a result with a greater pid. -/
theorem results_wait_for_their_parent {s : State n a}
    (h : (machine n a).ReachedBy (fun s l => allowed s l = true) s) {f : Finished}
    (hf : f ∈ s.finished) (hlives : Lives s.processes f.parent) (hwaits : f.process ∉ s.consumed) :
    ∃ i, Holds (s.processes i) f ∧
      ∃ child, find_waitable_child_process s.processes f.parent.pid = some child ∧
        (child = i ∨ (s.processes i).identity.pid < (s.processes child).identity.pid) := by
  have hinv := reached_inv h
  obtain ⟨i, hi⟩ := hinv.kept f hf hlives hwaits
  refine ⟨i, hi, wait_finds hinv.distinct hlives hi (hinv.ended f hf).2 ?_⟩
  intro hzero
  apply hlives.1
  rw [← hi.parent]
  exact hinv.unborn i hzero

end

/-- A child exits, and its parent has not waited yet. -/
theorem exit_with_parent_is_kept :
    ∃ s : State 2 2, s.finished = [⟨⟨2, 2⟩, ⟨1, 1⟩, ⟨.returned, .exit, 5⟩⟩] ∧
      ∃ i, Holds (s.processes i) ⟨⟨2, 2⟩, ⟨1, 1⟩, ⟨.returned, .exit, 5⟩⟩ := by
  obtain ⟨s, hs, hfinished, hconsumed, hparent, hlive⟩ : ∃ s : State 2 2,
      (machine 2 2).ReachedBy (fun s l => allowed s l = true) s ∧
      s.finished = [⟨⟨2, 2⟩, ⟨1, 1⟩, ⟨.returned, .exit, 5⟩⟩] ∧ s.consumed = [] ∧
      (s 0).identity = ⟨1, 1⟩ ∧ (s 0).terminal = false :=
    Machine.exists_reachedBy (.start rfl)
      [.create none (fun _ => false) false false true, .load 0, .loaded 0, .run 0,
        .create (some 0) (fun _ => false) false false true, .load 1, .loaded 1, .run 1,
        .mark_returned 0 1 .exit 5, .next 0] (by decide +kernel)
  obtain ⟨i, hholds, _⟩ := results_wait_for_their_parent hs
    (f := ⟨⟨2, 2⟩, ⟨1, 1⟩, ⟨.returned, .exit, 5⟩⟩) (by rw [hfinished]; exact mem_singleton_self _)
    ⟨by decide, by decide, 0, hparent, hlive⟩ (by rw [hconsumed]; exact not_mem_nil)
  exact ⟨s, hfinished, i, hholds⟩

/-- The second finish writes over the result of the first one, and a result that finds the
history full of greater pids is reaped by its own finish; the parent lives in both runs, and
it has not waited. -/
theorem results_are_lost :
    (∃ s : State 2 2, (machine 2 2).Reachable s ∧
      ⟨⟨2, 2⟩, ⟨1, 1⟩, ⟨.returned, .exit, 5⟩⟩ ∈ s.finished ∧ Lives s.processes ⟨1, 1⟩ ∧
      s.consumed = [] ∧ (s.processes 1).identity = ⟨2, 2⟩ ∧
      (s.processes 1).state = .failed ∧ (s.processes 1).status_code = 14) ∧
    ∃ s : State 5 1, (machine 5 1).Reachable s ∧
      ⟨⟨2, 2⟩, ⟨1, 1⟩, ⟨.returned, .exit, 7⟩⟩ ∈ s.finished ∧ Lives s.processes ⟨1, 1⟩ ∧
      s.consumed = [] ∧ (s.processes 1).identity = ⟨2, 2⟩ ∧ (s.processes 1).reaped = true := by
  constructor
  · -- a thread of a process exits, and another one of its threads faults on the second CPU
    obtain ⟨s, hs, hfinished, hparent, hlive, hlost⟩ : ∃ s : State 2 2, (machine 2 2).Reachable s ∧
        ⟨⟨2, 2⟩, ⟨1, 1⟩, ⟨.returned, .exit, 5⟩⟩ ∈ s.finished ∧
        (s 0).identity = ⟨1, 1⟩ ∧ (s 0).terminal = false ∧
        s.consumed = [] ∧ (s 1).identity = ⟨2, 2⟩ ∧
        (s 1).state = .failed ∧ (s 1).status_code = 14 :=
      Machine.exists_reachable (.start rfl)
        [.create none (fun _ => false) false false true, .load 0, .loaded 0, .run 0,
          .create (some 0) (fun _ => false) false false true, .load 1, .loaded 1, .run 1,
          .mark_returned 0 1 .exit 5, .mark_failed 1 1 .page_fault 14] (by decide +kernel)
    exact ⟨s, hs, hfinished, ⟨by decide, by decide, 0, hparent, hlive⟩, hlost⟩
  · -- four children, of which the one with the smallest pid is the last to exit
    obtain ⟨s, hs, hfinished, hparent, hlive, hlost⟩ : ∃ s : State 5 1, (machine 5 1).Reachable s ∧
        ⟨⟨2, 2⟩, ⟨1, 1⟩, ⟨.returned, .exit, 7⟩⟩ ∈ s.finished ∧
        (s 0).identity = ⟨1, 1⟩ ∧ (s 0).terminal = false ∧
        s.consumed = [] ∧ (s 1).identity = ⟨2, 2⟩ ∧ (s 1).reaped :=
      Machine.exists_reachable (.start rfl)
        ([.create none (fun _ => false) false false true, .load 0, .loaded 0, .run 0] ++
          replicate 4 (.create (some 0) (fun _ => false) false false true) ++
          [.mark_returned 0 2 .exit 0, .next 0, .mark_returned 0 3 .exit 0, .next 0,
            .mark_returned 0 4 .exit 0, .next 0, .mark_returned 0 1 .exit 7]) (by decide +kernel)
    exact ⟨s, hs, hfinished, ⟨by decide, by decide, 0, hparent, hlive⟩, hlost⟩

end mini_kernel.results
