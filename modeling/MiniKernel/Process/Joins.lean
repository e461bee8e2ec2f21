-- Joining threads (kernel/process/process64.cpp): the claim of a joiner on its target,
-- exits, the release of a thread's stacks, time-outs and the reuse of records. Each
-- section under `process_lock` is one step, and so is each operation outside of it.
import MiniKernel.Lib.Word
import MiniKernel.Lib.Machine
import MiniKernel.Process.Scheduler

open mini_kernel.lib Function
open mini_kernel.sched (ThreadIdentity WaitReason PROCESS_WAIT_OK PROCESS_WAIT_TIMEOUT)

namespace mini_kernel.joins

/-! ## The thread table -/

/-- The wait of a thread, from its context. -/
structure Wait where
  pending : Bool
  has_deadline : Bool
  reason : WaitReason
  result : Int
  deadline : U32
  target : ThreadIdentity
deriving DecidableEq

/-- `thread_wait_reset_unlocked`. -/
def Wait.reset : Wait :=
  { pending := false, has_deadline := false, reason := .none, result := PROCESS_WAIT_OK,
    deadline := 0, target := ⟨0, 0⟩ }

/-- What joining reads and writes of a thread's record. -/
structure Thread where
  identity : ThreadIdentity
  owner : Option Nat
  active : Bool
  is_main : Bool
  exited : Bool
  exit_code : U32
  join_owner : ThreadIdentity
  join_consumed : Bool
  runtime_released : Bool
  runtime_release_claimed : Bool
  wait : Wait
deriving DecidableEq

/-- `thread_record_zero`. -/
def Thread.zero : Thread :=
  { identity := ⟨0, 0⟩, owner := none, active := false, is_main := false, exited := false,
    exit_code := 0, join_owner := ⟨0, 0⟩, join_consumed := false, runtime_released := false,
    runtime_release_claimed := false, wait := .reset }

structure Process where
  active : Bool
  exiting : Bool
deriving DecidableEq

def thread_identity_matches (thread : Thread) (identity : ThreadIdentity) : Bool :=
  decide (identity.tid ≠ 0) && decide (identity.generation ≠ 0) && decide (thread.identity = identity)

section
variable {n : Nat}

abbrev Table (n : Nat) := Fin n → Thread

/-- The first record with the property. -/
def Table.find (threads : Table n) (p : Thread → Bool) : Option (Fin n) :=
  (List.finRange n).find? fun i => p (threads i)

def Table.set (threads : Table n) (t : Fin n) (thread : Thread) : Table n :=
  update threads t thread

def Table.set_wait (threads : Table n) (t : Fin n) (wait : Wait) : Table n :=
  threads.set t { threads t with wait := wait }

/-! ## Waits -/

def thread_join_release_claim_unlocked (threads : Table n) (waiter : Fin n) : Table n :=
  if (threads waiter).wait.target.tid = 0 then threads
  else
    match threads.find fun target =>
        thread_identity_matches target (threads waiter).wait.target &&
          decide (target.join_owner = (threads waiter).identity) with
    | none => threads
    | some t => threads.set t { threads t with join_owner := ⟨0, 0⟩ }

def thread_wait_signal_unlocked (threads : Table n) (t : Fin n) (reason : WaitReason) (result : Int) :
    Table n :=
  if !(threads t).wait.pending || (threads t).wait.reason ≠ reason then threads
  else
    let threads :=
      if reason = .thread_join ∧ result ≠ PROCESS_WAIT_OK then
        thread_join_release_claim_unlocked threads t
      else threads
    threads.set_wait t { (threads t).wait with
      pending := false, has_deadline := false, result := result, deadline := 0 }

def thread_join_signal_owner_unlocked (threads : Table n) (target : Fin n) : Table n :=
  if !(threads target).exited || !(threads target).runtime_released ||
      (threads target).join_owner.tid = 0 then threads
  else
    match threads.find fun candidate => decide (candidate.identity = (threads target).join_owner) with
    | none => threads
    | some t => thread_wait_signal_unlocked threads t .thread_join PROCESS_WAIT_OK

/-- The thread has an owner that is active. -/
def owner_active (processes : Nat → Process) (thread : Thread) : Bool :=
  match thread.owner with
  | none => false
  | some p => (processes p).active

/-- `process_wait_tick` at one thread. The waits on mutexes, semaphores and conditions only
lose their deadline here; `kernel_sync_timeout_thread` ends them. -/
def wait_tick_turn (processes : Nat → Process) (tick_now : U32) (threads : Table n)
    (t : Fin n) : Table n :=
  let thread := threads t
  if !thread.active || !owner_active processes thread || !thread.wait.pending ||
      !thread.wait.has_deadline then threads
  else if (tick_now - thread.wait.deadline).toInt < 0 then threads
  else if thread.wait.reason = .mutex ∨ thread.wait.reason = .semaphore ∨
      thread.wait.reason = .condition then
    threads.set_wait t { thread.wait with has_deadline := false, deadline := 0 }
  else
    thread_wait_signal_unlocked threads t thread.wait.reason
      (if thread.wait.reason = .timer then PROCESS_WAIT_OK else PROCESS_WAIT_TIMEOUT)

def process_wait_tick (processes : Nat → Process) (tick_now : U32) (threads : Table n) : Table n :=
  (List.finRange n).foldl (wait_tick_turn processes tick_now) threads

def wait_cancel_turn (process : Nat) (reason : WaitReason) (result : Int) (threads : Table n)
    (t : Fin n) : Table n :=
  if (threads t).owner = some process then thread_wait_signal_unlocked threads t reason result
  else threads

def process_wait_cancel (process : Nat) (reason : WaitReason) (result : Int) (threads : Table n) :
    Table n :=
  (List.finRange n).foldl (wait_cancel_turn process reason result) threads

/-! ## Joins -/

/-- What `thread_join_begin` returns: an error, 0 for a thread that now waits, or 1 with the
status. -/
inductive JoinResult
  | invalid_argument | not_found | already_exists
  | waits
  | joined (status : U32)
deriving DecidableEq

/-- The lock section of `thread_join_begin`, with the record that was found. -/
def thread_join_begin (threads : Table n) (caller : Fin n) (target_identity : ThreadIdentity)
    (timeout_ticks tick_now : U32) : JoinResult × Option (Fin n) × Table n :=
  if (threads caller).owner = none ∨ target_identity.tid = 0 ∨ target_identity.generation = 0 ∨
      thread_identity_matches (threads caller) target_identity then (.invalid_argument, none, threads)
  else
    match threads.find fun thread => thread_identity_matches thread target_identity with
    | none => (.not_found, none, threads)
    | some t =>
      let target := threads t
      if target.owner ≠ (threads caller).owner then (.not_found, none, threads)
      else if target.join_consumed then (.not_found, none, threads)
      else if target.join_owner.tid ≠ 0 then (.already_exists, none, threads)
      else
        let claimed := { target with join_owner := (threads caller).identity }
        if target.exited && target.runtime_released then
          (.joined target.exit_code, some t, threads.set t { claimed with join_consumed := true })
        else
          (.waits, some t,
            (threads.set t claimed).set_wait caller {
              pending := true
              has_deadline := decide (timeout_ticks ≠ 0)
              reason := .thread_join
              result := PROCESS_WAIT_OK
              deadline := if timeout_ticks ≠ 0 then tick_now + timeout_ticks else 0
              target := target_identity })

/-- The lock section of `thread_join_consume`: the status and the record, if it succeeds. -/
def thread_join_consume (threads : Table n) (caller : Fin n) :
    Option (U32 × Fin n) × Table n :=
  match threads.find fun thread => thread_identity_matches thread (threads caller).wait.target with
  | none => (none, threads)
  | some t =>
    let target := threads t
    if !target.exited || !target.runtime_released ||
        target.join_owner ≠ (threads caller).identity then (none, threads)
    else (some (target.exit_code, t), threads.set t { target with join_consumed := true })

/-! ## Exits -/

/-- What an exit and the end of a process do to a thread. -/
def Thread.finished (thread : Thread) (exit_code : U32) : Thread :=
  { thread with active := false, exited := true, exit_code := exit_code, wait := .reset }

/-- `process_finish` at one thread. -/
def finish_turn (process : Nat) (status_code : U32) (threads : Table n) (t : Fin n) : Table n :=
  if (threads t).owner = some process then threads.set t ((threads t).finished status_code)
  else threads

/-- No thread of the process is active. -/
def none_active (threads : Table n) (process : Nat) : Bool :=
  ∀ t, ¬ ((threads t).owner = some process ∧ (threads t).active)

end

/-! ## The machine -/

/-- What a CPU does next. `discard` is the second section of a join, `reset` the last one of
a wait that is over. -/
inductive Pc (n : Nat)
  | idle
  | discard (target : Fin n) (waiter : Option (Fin n))
  | reset (waiter : Fin n)
  | release_claim (thread : Fin n)
  | release_store (thread : Fin n)
  | release_signal (thread : Fin n)
  | finish (process : Nat) (status_code : U32)
deriving DecidableEq

/-- The thread that runs the operation in progress, where that matters. -/
def Pc.caller {n : Nat} : Pc n → Option (Fin n)
  | .discard _ waiter => waiter
  | .reset waiter => some waiter
  | _ => none

/-- The tables, and what the CPUs do. `joined` and `discarded` record the threads whose exit
code a join has returned, and those whose record was discarded, with its
`runtime_released`. The code has no such lists. -/
structure State (n a : Nat) where
  threads : Table n
  processes : Nat → Process
  next_tid : U32
  next_thread_generation : U32
  pc : Fin a → Pc n
  joined : List ThreadIdentity
  discarded : List (ThreadIdentity × Bool)

inductive Label (n a : Nat)
  | create (owner : Nat) (is_main : Bool)
  | join (c : Fin a) (caller : Fin n) (target : ThreadIdentity) (timeout_ticks tick_now : U32)
  | complete (c : Fin a) (caller : Fin n)
  | exit (c : Fin a) (thread : Fin n) (exit_code : U32)
  | release (c : Fin a) (thread : Fin n) (on_stack : Bool)
  | finish (process : Nat) (status_code : U32)
  | tick (tick_now : U32)
  | cancel (process : Nat) (reason : WaitReason) (result : Int)
  | next (c : Fin a)
deriving DecidableEq

section
variable {n a : Nat}

/-- `thread_next_id` and `thread_next_generation`: the number, and the next one. Zero is
left out. -/
def next_number (next : U32) : U32 × U32 :=
  let after := if next + 1 = 0 then 1 else next + 1
  if next = 0 then (after, if after + 1 = 0 then 1 else after + 1) else (next, after)

def State.goto (s : State n a) (c : Fin a) (pc : Pc n) : State n a :=
  { s with pc := update s.pc c pc }

def State.allocate_thread_record (s : State n a) (owner : Nat) (is_main : Bool) :
    Option (State n a) :=
  if (s.processes owner).exiting then none
  else
    match s.threads.find fun thread => decide (thread.identity.tid = 0) with
    | none => none
    | some t =>
      let (tid, next_tid) := next_number s.next_tid
      let (generation, next_generation) := next_number s.next_thread_generation
      some { s with
        threads := s.threads.set t { Thread.zero with
          identity := ⟨tid, generation⟩, owner := some owner, is_main := is_main, active := true }
        next_tid := next_tid
        next_thread_generation := next_generation }

/-- The thread is there, in no wait, and not in another call. -/
def State.runs (s : State n a) (t : Fin n) : Bool :=
  decide ((s.threads t).identity.tid ≠ 0) && decide ((s.threads t).wait.reason = .none) &&
    decide (∀ c, (s.pc c).caller ≠ some t)

/-- The wait of the thread for a join is over. -/
def State.woken (s : State n a) (t : Fin n) : Bool :=
  decide ((s.threads t).identity.tid ≠ 0) && decide ((s.threads t).wait.reason = .thread_join) &&
    !(s.threads t).wait.pending && decide (∀ c, (s.pc c).caller ≠ some t)

/-- What is left of a join when its target is done with. -/
def last_section : Option (Fin n) → Pc n
  | none => .idle
  | some w => .reset w

/-- Where a call goes on after the status was taken from a record. -/
def after_join (threads : Table n) (t : Fin n) (waiter : Option (Fin n)) : Pc n :=
  if !(threads t).is_main then .discard t waiter else last_section waiter

def State.join (s : State n a) (c : Fin a) (caller : Fin n) (target : ThreadIdentity)
    (timeout_ticks tick_now : U32) : State n a :=
  match thread_join_begin s.threads caller target timeout_ticks tick_now with
  | (.joined _, some t, threads) =>
    { s.goto c (after_join threads t none) with threads := threads, joined := target :: s.joined }
  | (_, _, threads) => { s with threads := threads }

/-- A thread that was woken takes the status, if the wait ended well, and resets its wait. -/
def State.complete (s : State n a) (c : Fin a) (caller : Fin n) : State n a :=
  if (s.threads caller).wait.result = PROCESS_WAIT_OK then
    match thread_join_consume s.threads caller with
    | (some (_, t), threads) =>
      { s.goto c (after_join threads t (some caller)) with
        threads := threads, joined := (s.threads caller).wait.target :: s.joined }
    | (none, _) => s.goto c (.reset caller)
  else s.goto c (.reset caller)

def State.mark_exited (s : State n a) (c : Fin a) (t : Fin n) (exit_code : U32) : State n a :=
  match (s.threads t).owner with
  | none => s
  | some p =>
    if !(s.threads t).active || (s.threads t).exited then s
    else
      let threads := s.threads.set t ((s.threads t).finished exit_code)
      if none_active threads p && (s.processes p).active && !(s.processes p).exiting then
        { s.goto c (.finish p exit_code) with threads := threads }
      else { s with threads := threads }

def State.process_finish (s : State n a) (p : Nat) (status_code : U32) : State n a :=
  { s with
    threads := (List.finRange n).foldl (finish_turn p status_code) s.threads
    processes := update s.processes p { active := false, exiting := true } }

def State.next (s : State n a) (c : Fin a) : Option (State n a) :=
  match s.pc c with
  | .idle => none
  | .discard t waiter =>
    some { s.goto c (last_section waiter) with
      threads := s.threads.set t .zero
      discarded := ((s.threads t).identity, (s.threads t).runtime_released) :: s.discarded }
  | .reset w => some { s.goto c .idle with threads := s.threads.set_wait w .reset }
  | .release_claim t =>
    if (s.threads t).runtime_release_claimed then some (s.goto c .idle)
    else
      some { s.goto c (.release_store t) with
        threads := s.threads.set t { s.threads t with runtime_release_claimed := true } }
  | .release_store t =>
    some { s.goto c (.release_signal t) with
      threads := s.threads.set t { s.threads t with runtime_released := true } }
  | .release_signal t =>
    some { s.goto c .idle with threads := thread_join_signal_owner_unlocked s.threads t }
  | .finish p code => some ((s.goto c .idle).process_finish p code)

/-- `release` is the call of `thread_release_runtime` up to its compare-exchange: `on_stack`
says that the thread is on the execution stack of a CPU. -/
def step (s : State n a) : Label n a → Option (State n a)
  | .create owner is_main => s.allocate_thread_record owner is_main
  | .join c caller target timeout_ticks tick_now =>
    if s.pc c = .idle ∧ s.runs caller then some (s.join c caller target timeout_ticks tick_now)
    else none
  | .complete c caller =>
    if s.pc c = .idle ∧ s.woken caller then some (s.complete c caller) else none
  | .exit c t exit_code => if s.pc c = .idle then some (s.mark_exited c t exit_code) else none
  | .release c t on_stack =>
    if s.pc c ≠ .idle then none
    else if (s.threads t).runtime_released || on_stack then some s
    else some (s.goto c (.release_claim t))
  | .finish p status_code => some (s.process_finish p status_code)
  | .tick tick_now => some { s with threads := process_wait_tick s.processes tick_now s.threads }
  | .cancel p reason result =>
    if result = PROCESS_WAIT_OK then none
    else some { s with threads := process_wait_cancel p reason result s.threads }
  | .next c => s.next c

end

def init (n a : Nat) : State n a :=
  { threads := fun _ => .zero
    processes := fun _ => { active := true, exiting := false }
    next_tid := 1
    next_thread_generation := 1
    pc := fun _ => .idle
    joined := []
    discarded := [] }

def machine (n a : Nat) : Machine (State n a) (Label n a) := .ofFun (· = init n a) step

end mini_kernel.joins
