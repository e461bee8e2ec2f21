-- How processes finish and how their parents collect the results
-- (kernel/process/process64.cpp, the wait calls of kernel/syscall/syscall64.cpp, the start of
-- kernel/core/kernel64_user.cpp). The section of `process_finish` under `process_lock` is one
-- step and its last part another one; a wait finds a child in one step and takes it in the next.
import MiniKernel.Lib.Word
import MiniKernel.Process.Joins

open mini_kernel.lib

namespace mini_kernel.results

/-! ## The process table -/

inductive ProcessState
  | empty | loaded | running | returned | failed | paused
deriving DecidableEq

inductive TermReason
  | none | exit | load_error | read_error | memory_error | map_error
  | page_fault | gp_fault | double_fault | killed
deriving DecidableEq

structure ProcessIdentity where
  pid : U32
  generation : U32
deriving DecidableEq

/-- What finishing and waiting read and write of a process's record. -/
structure Process where
  identity : ProcessIdentity
  parent : ProcessIdentity
  state : ProcessState
  termination_reason : TermReason
  status_code : U32
  active : Bool
  reaped : Bool
deriving DecidableEq

/-- `process_clear`. -/
def Process.clear : Process :=
  { identity := ⟨0, 0⟩, parent := ⟨0, 0⟩, state := .empty, termination_reason := .none,
    status_code := 0, active := false, reaped := false }

def Process.reap (process : Process) : Process := { process with reaped := true }

/-- The state is RETURNED or FAILED. -/
def Process.terminal (process : Process) : Bool :=
  decide (process.state = .returned) || decide (process.state = .failed)

def process_identity_matches (process : Process) (identity : ProcessIdentity) : Bool :=
  decide (identity.pid ≠ 0) && decide (process.identity.pid = identity.pid) &&
    (decide (identity.generation = 0) || decide (process.identity.generation = identity.generation))

/-- The process is a child of the parent. Generation 0 stands for any generation. -/
def process_child_matches_parent (process : Process) (parent : ProcessIdentity) : Bool :=
  decide (process.parent.pid = parent.pid) &&
    (decide (parent.generation = 0) || decide (process.parent.generation = parent.generation))

def process_is_waitable_result (process : Process) : Bool :=
  decide (process.identity.pid ≠ 0) && !process.active && !process.reaped && process.terminal

/-- The process is a result that the parent can wait for. -/
def is_result_of (parent : ProcessIdentity) (process : Process) : Bool :=
  process_child_matches_parent process parent && process_is_waitable_result process

def PROCESS_CHILD_RESULT_HISTORY_LIMIT : Nat := 3

section
variable {n : Nat}

abbrev Table (n : Nat) := Fin n → Process

def Table.set (processes : Table n) (i : Fin n) (process : Process) : Table n :=
  Function.update processes i process

/-- The first record with the property. -/
def Table.find (processes : Table n) (p : Process → Bool) : Option (Fin n) :=
  (List.finRange n).find? fun i => p (processes i)

def find_process_by_pid (processes : Table n) (pid : U32) : Option (Fin n) :=
  if pid = 0 then none else processes.find fun process => decide (process.identity.pid = pid)

def find_process_by_identity (processes : Table n) (identity : ProcessIdentity) : Option (Fin n) :=
  if identity.pid = 0 ∨ identity.generation = 0 then none
  else processes.find fun process => process_identity_matches process identity

def current_generation_for_pid (processes : Table n) (pid : U32) : U32 :=
  match find_process_by_pid processes pid with
  | none => 0
  | some i => (processes i).identity.generation

/-- A parent as the wait calls know it: the pid, and the generation that it has now. -/
def current_identity (processes : Table n) (pid : U32) : ProcessIdentity :=
  ⟨pid, current_generation_for_pid processes pid⟩

/-! ## Old results -/

/-- One turn of the loop that counts the results of a parent and looks for the oldest. -/
def results_turn (processes : Table n) (parent : ProcessIdentity) (found : Nat × Option (Fin n))
    (i : Fin n) : Nat × Option (Fin n) :=
  if !is_result_of parent (processes i) then found
  else
    match found.2 with
    | none => (found.1 + 1, some i)
    | some oldest =>
      (found.1 + 1,
        if (processes i).identity.pid < (processes oldest).identity.pid then some i else some oldest)

/-- `result_count` and `oldest`. -/
def count_results (processes : Table n) (parent : ProcessIdentity) : Nat × Option (Fin n) :=
  (List.finRange n).foldl (results_turn processes parent) (0, none)

/-- `reap_old_child_results`, for so many turns of its loop. -/
def reap_old_child_results (parent : ProcessIdentity) (keep_count : Nat) : Nat → Table n → Table n
  | 0, processes => processes
  | turns + 1, processes =>
    match count_results processes parent with
    | (_, none) => processes
    | (result_count, some oldest) =>
      if result_count ≤ keep_count then processes
      else
        reap_old_child_results parent keep_count turns
          (processes.set oldest (processes oldest).reap)

def Process.orphan (process : Process) : Process := { process with parent := ⟨0, 0⟩ }

/-- `process_cleanup_owned_children` at one record. -/
def cleanup_owned_child (parent : ProcessIdentity) (child : Process) : Process :=
  if child.identity.pid = 0 || !process_child_matches_parent child parent then child
  else if child.active then child.orphan
  else if process_is_waitable_result child then child.reap
  else child

def process_cleanup_owned_children (parent : ProcessIdentity) (processes : Table n) : Table n :=
  if parent.pid = 0 then processes else fun i => cleanup_owned_child parent (processes i)

/-! ## Finishing -/

/-- What a finished process leaves for its parent. -/
structure Result where
  state : ProcessState
  termination_reason : TermReason
  status_code : U32
deriving DecidableEq

def Process.finish (process : Process) (result : Result) : Process :=
  { process with
    state := result.state, termination_reason := result.termination_reason,
    status_code := result.status_code, active := false, reaped := false }

/-- The section of `process_finish` under `process_lock`. -/
def process_finish (processes : Table n) (i : Fin n) (result : Result) : Table n :=
  reap_old_child_results (processes i).parent PROCESS_CHILD_RESULT_HISTORY_LIMIT n
    (process_cleanup_owned_children (processes i).identity
      (processes.set i ((processes i).finish result)))

/-- There is a process with this identity, and it has not ended. -/
def parent_lives (processes : Table n) (parent : ProcessIdentity) : Bool :=
  match find_process_by_identity processes parent with
  | none => false
  | some j => !(processes j).terminal

/-- The last part of `process_finish`: a result that no parent will collect is reaped. -/
def finish_orphan (processes : Table n) (i : Fin n) (parent : ProcessIdentity) : Table n :=
  if parent_lives processes parent then processes
  else processes.set i (processes i).reap

/-! ## Waiting -/

def waitable_turn (processes : Table n) (parent : ProcessIdentity) (latest : Option (Fin n))
    (i : Fin n) : Option (Fin n) :=
  if !is_result_of parent (processes i) then latest
  else
    match latest with
    | none => some i
    | some l => if (processes l).identity.pid < (processes i).identity.pid then some i else some l

def find_waitable_child_process (processes : Table n) (parent_pid : U32) : Option (Fin n) :=
  (List.finRange n).foldl (waitable_turn processes (current_identity processes parent_pid)) none

def reap_all_child_processes (processes : Table n) (parent_pid : U32) : Table n :=
  fun i =>
    if is_result_of (current_identity processes parent_pid) (processes i) then (processes i).reap
    else processes i

/-! ## New processes -/

/-- The record that `allocate_process_record` clears and returns. `busy` is a record on an
execution stack or with running threads, `fault` an injected fault. -/
def allocate_process_record (processes : Table n) (busy : Fin n → Bool) (fault : Bool) :
    Option (Fin n) :=
  if fault then none
  else
    match processes.find fun process => decide (process.identity.pid = 0) with
    | some i => some i
    | none =>
      (List.finRange n).find? fun i =>
        !busy i && !(processes i).active && (processes i).reaped

/-! ## The machine -/

/-- What a CPU does next: nothing, the last part of `process_finish`, or taking the child
that a wait has found. -/
inductive Pc (n : Nat)
  | idle
  | finishing (process : Fin n) (own parent : ProcessIdentity)
  | taking (child : Fin n) (found : ProcessIdentity)
deriving DecidableEq

/-- What the first `process_finish` of a process recorded. -/
structure Finished where
  process : ProcessIdentity
  parent : ProcessIdentity
  result : Result
deriving DecidableEq

/-- The table, and what the CPUs do. `finished` records the first finish of each process, and
`consumed` the processes whose result a call of their parent has taken. The code has no such
lists. -/
structure State (n a : Nat) where
  processes : Table n
  next_pid : U32
  next_process_generation : U32
  pc : Fin a → Pc n
  finished : List Finished
  consumed : List ProcessIdentity

/-- `load`, `loaded`, `run` and `pause` are the places that write a state which is not terminal:
`load` before the program is read, `loaded` when it is in place. -/
inductive Label (n a : Nat)
  | create (parent : Option (Fin n)) (busy : Fin n → Bool) (fault fault_again thread_allocated : Bool)
  | load (process : Fin n)
  | loaded (process : Fin n)
  | run (process : Fin n)
  | pause (process : Fin n)
  | mark_failed (c : Fin a) (process : Fin n) (reason : TermReason) (status_code : U32)
  | mark_returned (c : Fin a) (process : Fin n) (reason : TermReason) (status_code : U32)
  | wait_child (c : Fin a) (parent : Fin n)
  | reap_all_children (parent : Fin n)
  | next (c : Fin a)

variable {a : Nat}

def State.goto (s : State n a) (c : Fin a) (pc : Pc n) : State n a :=
  { s with pc := Function.update s.pc c pc }

/-- `process_assign_identity` on a record that was cleared, with the pid `next_pid++`. Without
a thread for it the process loses its identity again. -/
def State.process_assign_identity (s : State n a) (i : Fin n) (parent : Option (Fin n))
    (thread_allocated : Bool) : State n a :=
  let (generation, next_generation) := joins.next_number s.next_process_generation
  let identified := s.processes.set i { Process.clear with identity := ⟨s.next_pid, generation⟩ }
  { s with
    processes :=
      if thread_allocated then
        identified.set i { identified i with
          parent := parent.elim ⟨0, 0⟩ fun p => (identified p).identity }
      else identified.set i .clear
    next_pid := s.next_pid + 1
    next_process_generation := next_generation }

/-- The start of `run_user_program_internal`: when there is no record, the results of the
parent are reaped. -/
def State.create (s : State n a) (parent : Option (Fin n)) (busy : Fin n → Bool)
    (fault fault_again thread_allocated : Bool) : State n a :=
  match allocate_process_record s.processes busy fault with
  | some i => s.process_assign_identity i parent thread_allocated
  | none =>
    let reaped := reap_all_child_processes s.processes
      (parent.elim 0 fun p => (s.processes p).identity.pid)
    match allocate_process_record reaped busy fault_again with
    | some i => { s with processes := reaped }.process_assign_identity i parent thread_allocated
    | none => { s with processes := reaped }

/-- `process_finish` up to the end of its lock section. -/
def State.finish (s : State n a) (c : Fin a) (i : Fin n) (result : Result) : State n a :=
  let own := (s.processes i).identity
  let parent := (s.processes i).parent
  { s.goto c (.finishing i own parent) with
    processes := process_finish s.processes i result
    finished :=
      if s.finished.any fun f => decide (f.process = own) then s.finished
      else ⟨own, parent, result⟩ :: s.finished }

/-- SYS_WAIT_CHILD up to the child that it found. -/
def State.wait_child (s : State n a) (c : Fin a) (parent : Fin n) : State n a :=
  match find_waitable_child_process s.processes (s.processes parent).identity.pid with
  | none => s
  | some child => s.goto c (.taking child (s.processes child).identity)

/-- The results that SYS_REAP_ALL_CHILDREN takes. -/
def reaped_results (processes : Table n) (parent_pid : U32) : List ProcessIdentity :=
  ((List.finRange n).filter fun i =>
    is_result_of (current_identity processes parent_pid) (processes i)).map
      fun i => (processes i).identity

def State.reap_all_children (s : State n a) (parent : Fin n) : State n a :=
  let parent_pid := (s.processes parent).identity.pid
  { s with
    processes := reap_all_child_processes s.processes parent_pid
    consumed := reaped_results s.processes parent_pid ++ s.consumed }

def State.next (s : State n a) (c : Fin a) : Option (State n a) :=
  match s.pc c with
  | .idle => none
  | .finishing i _ parent =>
    some { s.goto c .idle with processes := finish_orphan s.processes i parent }
  | .taking child found =>
    some { s.goto c .idle with
      processes := s.processes.set child (s.processes child).reap
      consumed := found :: s.consumed }

def step (s : State n a) : Label n a → Option (State n a)
  | .create parent busy fault fault_again thread_allocated =>
    some (s.create parent busy fault fault_again thread_allocated)
  | .load i =>
    some { s with processes := s.processes.set i { s.processes i with
      state := .loaded, termination_reason := .none, status_code := 0, active := true } }
  | .loaded i => some { s with processes := s.processes.set i { s.processes i with state := .loaded } }
  | .run i => some { s with processes := s.processes.set i { s.processes i with state := .running } }
  | .pause i => some { s with processes := s.processes.set i { s.processes i with state := .paused } }
  | .mark_failed c i reason status_code =>
    if s.pc c = .idle then some (s.finish c i ⟨.failed, reason, status_code⟩) else none
  | .mark_returned c i reason status_code =>
    if s.pc c = .idle then some (s.finish c i ⟨.returned, reason, status_code⟩) else none
  | .wait_child c parent => if s.pc c = .idle then some (s.wait_child c parent) else none
  | .reap_all_children parent => some (s.reap_all_children parent)
  | .next c => s.next c

end

def init (n a : Nat) : State n a :=
  { processes := fun _ => .clear
    next_pid := 1
    next_process_generation := 1
    pc := fun _ => .idle
    finished := []
    consumed := [] }

def machine (n a : Nat) : Machine (State n a) (Label n a) := .ofFun (· = init n a) step

end mini_kernel.results
