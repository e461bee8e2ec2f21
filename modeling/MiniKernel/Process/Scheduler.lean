-- The scheduler (kernel/process/process64.cpp): the ready queue, the CPUs that claim
-- threads, and the waits of the threads. Each function is one section under
-- `process_lock`, and the CPU that runs it is an argument.
import MiniKernel.Lib.Word
import MiniKernel.Lib.Ring

open mini_kernel.lib Function List

namespace mini_kernel.sched

def CPU_MAX_COUNT : Nat := 8
def SCHED_DEFAULT_TIMESLICE : Nat := 6
def PROCESS_WAIT_OK : Int := 0
def PROCESS_WAIT_TIMEOUT : Int := -17

/-! ## The state -/

inductive SchedulerState
  | none | ready | running | waiting | finished
deriving DecidableEq

inductive PauseReason
  | none | yield | preempt | sleep | wait
deriving DecidableEq

inductive WaitReason
  | none | timer | child | ipc | input | key | char | thread_join | mutex | semaphore | condition
deriving DecidableEq

inductive ProcessState
  | empty | loaded | running | returned | failed | paused
deriving DecidableEq

inductive Priority
  | low | normal | high
deriving DecidableEq

structure ThreadIdentity where
  tid : U32
  generation : U32
deriving DecidableEq

/-- `wait_reserved` is the first of its bytes. -/
structure ThreadContext where
  scheduler_state : SchedulerState
  pause_reason : PauseReason
  resumable : Bool
  timeslice_ticks : Nat
  wait_pending : Bool
  wait_has_deadline : Bool
  wait_reserved : Bool
  wait_reason : WaitReason
  wait_result : Int
  wait_deadline : U32
  wait_sequence : U64
  wait_object_id : U64
  wait_aux_object_id : U64
deriving DecidableEq

/-- `running_cpu` is nothing where the code has `THREAD_CPU_INVALID`. -/
structure Thread (m : Nat) where
  tid : U32
  generation : U32
  owner_pid : U32
  owner : Option (Fin m)
  active : Bool
  exited : Bool
  priority : Priority
  running_cpu : Option Nat
  affinity_mask : U32
  context : ThreadContext
deriving DecidableEq

structure Process where
  state : ProcessState
  active : Bool
  background : Bool
  exiting : Bool
deriving DecidableEq

/-- The tables and the queue. `THREAD_TABLE_SIZE` and `SCHED_QUEUE_SIZE` are the one
number `n`, and `PROCESS_TABLE_SIZE` is `m`. -/
structure Sched (n m : Nat) where
  thread_table : Fin n → Thread m
  process_table : Fin m → Process
  sched_queue : Fin n → Option (Fin n)
  sched_queue_head : Nat
  sched_queue_count : Nat
  next_wait_sequence : U64

section
variable {n m : Nat}

def Sched.context (s : Sched n m) (t : Fin n) : ThreadContext := (s.thread_table t).context

def Sched.setThread (s : Sched n m) (t : Fin n) (thread : Thread m) : Sched n m :=
  { s with thread_table := update s.thread_table t thread }

def Sched.setContext (s : Sched n m) (t : Fin n) (context : ThreadContext) : Sched n m :=
  s.setThread t { s.thread_table t with context := context }

/-- The thread has an owner that is active. -/
def Sched.owner_active (s : Sched n m) (t : Fin n) : Bool :=
  match (s.thread_table t).owner with
  | none => false
  | some p => (s.process_table p).active

def Sched.owner_background (s : Sched n m) (t : Fin n) : Bool :=
  match (s.thread_table t).owner with
  | none => false
  | some p => (s.process_table p).background

def thread_quantum (thread : Thread m) : Nat :=
  match thread.priority with
  | .low => 4
  | .high => 8
  | .normal => SCHED_DEFAULT_TIMESLICE

def thread_identity_matches (thread : Thread m) (identity : ThreadIdentity) : Bool :=
  decide (identity.tid ≠ 0) && decide (identity.generation ≠ 0) &&
    decide (thread.tid = identity.tid) && decide (thread.generation = identity.generation)

/-! ## The ready queue -/

variable [NeZero n]

def scheduler_queue_contains (s : Sched n m) (t : Fin n) : Bool :=
  (entries s.sched_queue s.sched_queue_head s.sched_queue_count).contains (some t)

def scheduler_enqueue_unlocked (s : Sched n m) (t : Fin n) : Sched n m :=
  let thread := s.thread_table t
  let fresh := { thread.context with timeslice_ticks := thread_quantum thread }
  if !thread.active || !s.owner_active t then s
  else if scheduler_queue_contains s t then
    if thread.context.scheduler_state = .ready ∧ thread.running_cpu = none then s.setContext t fresh
    else s
  else if s.sched_queue_count ≥ n ∨ thread.running_cpu ≠ none then s
  else
    let index := (s.sched_queue_head + s.sched_queue_count) % n
    { s.setContext t { fresh with scheduler_state := .ready } with
      sched_queue := update s.sched_queue (Fin.ofNat n index) (some t)
      sched_queue_count := s.sched_queue_count + 1 }

def scheduler_remove_unlocked (s : Sched n m) (t : Fin n) : Sched n m :=
  if s.sched_queue_count = 0 then s
  else
    let compacted :=
      (entries s.sched_queue s.sched_queue_head s.sched_queue_count).filter fun e => e ≠ some t
    { s with
      sched_queue := fun i => compacted.getD i none
      sched_queue_head := 0
      sched_queue_count := compacted.length }

/-! ## CPUs -/

def thread_cpu_eligible (thread : Thread m) (cpu : Nat) : Bool :=
  decide (cpu < CPU_MAX_COUNT) && thread.affinity_mask.getLsbD cpu

def thread_release_cpu_unlocked (s : Sched n m) (t : Fin n) : Sched n m :=
  s.setThread t { s.thread_table t with running_cpu := none }

/-- The thread as its CPU has it, running. -/
def claimed (thread : Thread m) (cpu : Nat) : Thread m :=
  { thread with
    running_cpu := some cpu
    context := { thread.context with
      scheduler_state := .running
      pause_reason := .none
      timeslice_ticks := thread_quantum thread } }

/-- Nothing, if the claim is refused. -/
def thread_claim_cpu_unlocked (s : Sched n m) (t : Fin n) (cpu : Nat) : Option (Sched n m) :=
  let thread := s.thread_table t
  if thread.running_cpu ≠ none ∨ !thread_cpu_eligible thread cpu then none
  else some (s.setThread t (claimed thread cpu))

/-! ## Waits -/

def wait_reset (context : ThreadContext) : ThreadContext :=
  { context with
    wait_pending := false
    wait_has_deadline := false
    wait_reserved := false
    wait_reason := .none
    wait_result := PROCESS_WAIT_OK
    wait_deadline := 0
    wait_sequence := 0
    wait_object_id := 0
    wait_aux_object_id := 0 }

def thread_wait_reset_unlocked (s : Sched n m) (t : Fin n) : Sched n m :=
  s.setContext t (wait_reset (s.context t))

/-- The next number, and the one after it; zero is left out. -/
def wait_next_sequence_unlocked (next_wait_sequence : U64) : U64 × U64 :=
  let next := if next_wait_sequence + 1 = 0 then 1 else next_wait_sequence + 1
  if next_wait_sequence = 0 then (next, next + 1) else (next_wait_sequence, next)

/-- The context of a thread that begins to wait. -/
def wait_begun (context : ThreadContext) (reason : WaitReason) (sequence : U64)
    (timeout_ticks tick_now : U32) : ThreadContext :=
  { context with
    wait_pending := true
    wait_reason := reason
    wait_result := PROCESS_WAIT_OK
    wait_sequence := sequence
    wait_has_deadline := decide (timeout_ticks ≠ 0)
    wait_deadline := if timeout_ticks ≠ 0 then tick_now + timeout_ticks else 0
    scheduler_state := .waiting }

/-- The result is false where the code returns 0; `fault` is an injected fault. -/
def thread_wait_begin_unlocked (s : Sched n m) (t : Fin n) (reason : WaitReason)
    (timeout_ticks tick_now : U32) (fault : Bool) : Bool × Sched n m :=
  let thread := s.thread_table t
  if !thread.active || !s.owner_active t || decide (reason = .none) || thread.context.wait_pending then
    (false, s)
  else if fault then (false, s)
  else
    let s := scheduler_remove_unlocked s t
    let sequence := wait_next_sequence_unlocked s.next_wait_sequence
    let s := s.setContext t (wait_begun (s.context t) reason sequence.1 timeout_ticks tick_now)
    (true, { s with next_wait_sequence := sequence.2 })

/-- The wait is over, with this result. -/
def wait_ended (context : ThreadContext) (result : Int) : ThreadContext :=
  { context with
    wait_pending := false
    wait_has_deadline := false
    wait_result := result
    wait_deadline := 0 }

def thread_wait_signal_unlocked (s : Sched n m) (t : Fin n) (reason : WaitReason) (result : Int) :
    Bool × Sched n m :=
  let thread := s.thread_table t
  if !thread.context.wait_pending || decide (thread.context.wait_reason ≠ reason) then (false, s)
  else
    let ended := wait_ended thread.context result
    if thread.active && s.owner_active t then
      let s := s.setContext t { ended with
        scheduler_state := .ready
        timeslice_ticks := thread_quantum thread }
      (true, if thread.context.resumable then scheduler_enqueue_unlocked s t else s)
    else (true, s.setContext t ended)

def thread_wait_set_objects (s : Sched n m) (t : Fin n) (object_id aux_object_id : U64) :
    Sched n m :=
  if (s.context t).wait_pending then
    s.setContext t { s.context t with
      wait_object_id := object_id
      wait_aux_object_id := aux_object_id }
  else s

/-- The turn of the loop for one thread. -/
def cancel_turn (p : Fin m) (object_id : U64) (result : Int) (s : Sched n m) (t : Fin n) :
    Sched n m :=
  let context := s.context t
  if (s.thread_table t).owner = some p ∧ context.wait_pending ∧
      (context.wait_object_id = object_id ∨ context.wait_aux_object_id = object_id) then
    (thread_wait_signal_unlocked s t context.wait_reason result).2
  else s

def thread_wait_cancel_object (s : Sched n m) (p : Fin m) (object_id : U64) (result : Int) :
    Sched n m :=
  (finRange n).foldl (cancel_turn p object_id result) s

/-- The turn of the loop for one thread. -/
def oldest_turn (s : Sched n m) (p : Fin m) (reason : WaitReason) (selected : Option (Fin n)) (t : Fin n) :
    Option (Fin n) :=
  let context := s.context t
  if (s.thread_table t).owner = some p ∧ context.wait_pending ∧ context.wait_reason = reason then
    match selected with
    | none => some t
    | some u => if context.wait_sequence < (s.context u).wait_sequence then some t else some u
  else selected

/-- The thread of the process that waits for this reason and began first. -/
def find_oldest (s : Sched n m) (p : Fin m) (reason : WaitReason) : Option (Fin n) :=
  (finRange n).foldl (oldest_turn s p reason) none

def process_wait_signal (s : Sched n m) (p : Fin m) (reason : WaitReason) (result : Int) :
    Bool × Sched n m :=
  match find_oldest s p reason with
  | none => (false, s)
  | some t => thread_wait_signal_unlocked s t reason result

/-- A thread of the process that waits for nothing is made to run. -/
def process_notify_queued_ipc (s : Sched n m) (p : Fin m) : Sched n m :=
  match (finRange n).find? fun t =>
      decide ((s.thread_table t).owner = some p) && (s.thread_table t).active &&
        (s.context t).resumable && decide ((s.context t).wait_reason = .none) with
  | some t => scheduler_enqueue_unlocked s t
  | none => s

/-- The wait is one on a synchronisation object. -/
def WaitReason.is_sync : WaitReason → Bool
  | .mutex | .semaphore | .condition => true
  | _ => false

/-- The deadline of the thread has come. -/
def deadline_passed (s : Sched n m) (t : Fin n) (tick_now : U32) : Bool :=
  let context := s.context t
  (s.thread_table t).active && s.owner_active t && context.wait_pending &&
    context.wait_has_deadline && decide (0 ≤ (tick_now - context.wait_deadline).toInt)

/-- The turn of the loop for one thread. The waits on synchronisation objects only lose
their deadline here; they are ended after the section. -/
def tick_turn (tick_now : U32) (s : Sched n m) (t : Fin n) : Sched n m :=
  let context := s.context t
  if deadline_passed s t tick_now then
    if context.wait_reason.is_sync then
      s.setContext t { context with wait_has_deadline := false, wait_deadline := 0 }
    else
      let result := if context.wait_reason = .timer then PROCESS_WAIT_OK else PROCESS_WAIT_TIMEOUT
      (thread_wait_signal_unlocked s t context.wait_reason result).2
  else s

def process_wait_tick (s : Sched n m) (tick_now : U32) : Sched n m :=
  (finRange n).foldl (tick_turn tick_now) s

/-! ## Running and returning -/

def scheduler_mark_thread_running (s : Sched n m) (cpu : Nat) (t : Fin n) : Sched n m :=
  let thread := s.thread_table t
  if thread.owner = none then s
  else
    let forget (s : Sched n m) :=
      if thread.context.wait_reason = .child then thread_wait_reset_unlocked s t else s
    if thread.running_cpu = some cpu then
      let s := forget s
      s.setContext t { s.context t with
        scheduler_state := .running
        pause_reason := .none
        timeslice_ticks := thread_quantum thread }
    else if thread.running_cpu ≠ none ∨ !thread_cpu_eligible thread cpu then s
    else
      let s := scheduler_remove_unlocked (forget s) t
      (thread_claim_cpu_unlocked s t cpu).getD s

def scheduler_complete_kernel_return (s : Sched n m) (cpu : Nat) (t : Fin n) : Sched n m :=
  let s := if (s.thread_table t).running_cpu = some cpu then thread_release_cpu_unlocked s t else s
  if (s.thread_table t).active && s.owner_active t && (s.context t).resumable &&
      decide ((s.context t).scheduler_state = .ready) then scheduler_enqueue_unlocked s t
  else s

/-- What a CPU asks for when it looks for a thread. -/
structure Wanted where
  exclude : ThreadIdentity
  exclude_pid : U32
  background_only : Bool
  sleeping_only : Bool

def selectable (s : Sched n m) (cpu : Nat) (w : Wanted) (t : Fin n) : Bool :=
  let thread := s.thread_table t
  decide (thread.owner ≠ none) && decide (thread.tid ≠ 0) &&
    !(thread_identity_matches thread w.exclude ||
      (decide (w.exclude_pid ≠ 0) && decide (thread.owner_pid = w.exclude_pid))) &&
    thread.active && s.owner_active t && thread.context.resumable &&
    decide (thread.context.scheduler_state = .ready) &&
    decide (thread.running_cpu = none) && thread_cpu_eligible thread cpu &&
    !(w.background_only && !s.owner_background t) &&
    !(w.sleeping_only && decide (thread.context.pause_reason ≠ .sleep))

/-- First the queue; then the whole table, where a thread that is ready and not in the
queue is put into it. -/
def find_next_ready_thread_unlocked (s : Sched n m) (cpu : Nat) (w : Wanted) :
    Option (Fin n) × Sched n m :=
  let queued := (entries s.sched_queue s.sched_queue_head s.sched_queue_count).reduceOption
  match queued.find? (selectable s cpu w) with
  | some t => (some t, s)
  | none =>
    match (finRange n).find? (selectable s cpu w) with
    | some t => (some t, scheduler_enqueue_unlocked s t)
    | none => (none, s)

/-- The thread that the CPU got; `fault` is an injected fault. -/
def scheduler_claim_ready_thread (s : Sched n m) (cpu : Nat) (w : Wanted) (fault : Bool) :
    Option (Fin n) × Sched n m :=
  if fault then (none, s)
  else
    match find_next_ready_thread_unlocked s cpu w with
    | (none, s) => (none, s)
    | (some t, s) =>
      let s := scheduler_remove_unlocked s t
      match thread_claim_cpu_unlocked s t cpu with
      | none => (none, s)
      | some s => (some t, s)

/-! ## The end of threads and processes -/

/-- The thread as it is left when it is over. -/
def finished (thread : Thread m) : Thread m :=
  { thread with
    active := false
    exited := true
    context := wait_reset { thread.context with
      scheduler_state := .finished
      resumable := false
      pause_reason := .none } }

/-- The section of the function; whether the process is over too is looked at after it. -/
def thread_mark_exited (s : Sched n m) (t : Fin n) : Sched n m :=
  let thread := s.thread_table t
  if thread.owner = none then s
  else if !thread.active || thread.exited then s
  else
    let s := scheduler_remove_unlocked s t
    s.setThread t (finished (s.thread_table t))

/-- The turn of the loop for one thread. -/
def finish_turn (p : Fin m) (s : Sched n m) (t : Fin n) : Sched n m :=
  if (s.thread_table t).owner = some p then
    let s := scheduler_remove_unlocked s t
    s.setThread t (finished (s.thread_table t))
  else s

def process_finish (s : Sched n m) (p : Fin m) (final_state : ProcessState) : Sched n m :=
  let s := (finRange n).foldl (finish_turn p) s
  { s with
    process_table := update s.process_table p
      { s.process_table p with state := final_state, active := false, exiting := true } }

/-! ## What the entry and exit paths write themselves -/

/-- The writes of `save_paused_context64` to the context. -/
def save_paused_context (s : Sched n m) (t : Fin n) (pause_reason : PauseReason) : Sched n m :=
  s.setContext t { s.context t with resumable := true, pause_reason := pause_reason }

end

end mini_kernel.sched
