-- Receivers and senders of one process (dispatch_ipc_receive, dispatch_ipc_v2_wait,
-- ipc_send_message, complete_waiting_syscall64). The mailbox and the waits are under
-- different locks, so each call is a sequence of sections; a receiver that has begun to
-- wait looks at the mailbox again.
import MiniKernel.Lib.Count
import MiniKernel.Lib.Machine
import MiniKernel.Ipc.Mailbox
import MiniKernel.Process.SchedulerQueue

open mini_kernel.lib
open mini_kernel.sched (Sched Thread WaitReason PROCESS_WAIT_OK Sound Only Ended Begun)
open mini_kernel.ipc (KernelIpcMailbox OsIpcMessageV2 OsIpcReceiveFilter ipc_mailbox_push_v2
  ipc_mailbox_pop_v2 ipc_mailbox_pop_v2_match)

namespace mini_kernel.wakeup

/-! ## Calls -/

/-- The system calls that receive. The one for old messages waits if it is told to; its
pop takes the same message out of the mailbox. -/
inductive Receive
  | receive (wait : Bool) (timeout_ticks : U32)
  | v2_receive
  | v2_wait (timeout_ticks : U32)
  | v2_receive_match (filter : Option OsIpcReceiveFilter)

/-- Where a thread of the process is. After `waiting` the call has gone to the kernel, and
the rest is done when the thread is resumed. -/
inductive ReceiverPc
  | user
  | pop (call : Receive)
  | wait_begin (v2 : Bool) (timeout_ticks : U32)
  | reserve
  | count
  | signal
  | waiting
  | complete
  | reset

inductive SenderPc
  | idle
  | signal
  | notify
deriving DecidableEq

/-- The receiving process is `p`. -/
structure State (n m k : Nat) where
  tables : Sched n m
  mailbox : KernelIpcMailbox
  receiver : Fin n → ReceiverPc
  sender : Fin k → SenderPc

/-- `fault` is an injected fault. -/
inductive Label (n k : Nat)
  | enter (t : Fin n) (call : Receive)
  | pop (t : Fin n)
  | wait_begin (t : Fin n) (tick_now : U32) (fault : Bool)
  | reserve (t : Fin n)
  | count (t : Fin n)
  | signal (t : Fin n)
  | resume (t : Fin n)
  | complete (t : Fin n)
  | reset (t : Fin n)
  | send (i : Fin k) (message : OsIpcMessageV2) (fault : Bool)
  | send_signal (i : Fin k)
  | send_notify (i : Fin k)
  | tick (tick_now : U32)

section
variable {n m k : Nat} [NeZero n]

def State.goto (s : State n m k) (t : Fin n) (pc : ReceiverPc) : State n m k :=
  { s with receiver := Function.update s.receiver t pc }

def State.send_goto (s : State n m k) (i : Fin k) (pc : SenderPc) : State n m k :=
  { s with sender := Function.update s.sender i pc }

/-- The pop of the call. -/
def Receive.pop (mailbox : KernelIpcMailbox) : Receive → Option OsIpcMessageV2 × KernelIpcMailbox
  | .v2_receive_match filter => ipc_mailbox_pop_v2_match mailbox filter true
  | _ => ipc_mailbox_pop_v2 mailbox true

/-- Where the call goes on when there is no message. -/
def Receive.would_block : Receive → ReceiverPc
  | .receive true timeout_ticks => .wait_begin false timeout_ticks
  | .v2_wait timeout_ticks => .wait_begin true timeout_ticks
  | _ => .user

def process_wait_signal (p : Fin m) (s : State n m k) : Bool × State n m k :=
  let r := sched.process_wait_signal s.tables p .ipc PROCESS_WAIT_OK
  (r.1, { s with tables := r.2 })

/-! ## Steps -/

/-- Each step is one section, of a receiver, of a sender or of the timer. -/
def step (p : Fin m) (s : State n m k) : Label n k → Option (State n m k)
  | .enter t call =>
    match s.receiver t with
    | .user => if (s.tables.thread_table t).owner = some p then some (s.goto t (.pop call)) else none
    | _ => none
  | .pop t =>
    match s.receiver t with
    | .pop call =>
      let r := call.pop s.mailbox
      let s := { s with mailbox := r.2 }
      some (if r.1.isSome then s.goto t .user else s.goto t call.would_block)
    | _ => none
  | .wait_begin t tick_now fault =>
    match s.receiver t with
    | .wait_begin v2 timeout_ticks =>
      let r := sched.thread_wait_begin_unlocked s.tables t .ipc timeout_ticks tick_now fault
      let s := { s with tables := r.2 }
      some (if r.1 then s.goto t (if v2 then .reserve else .count) else s.goto t .user)
    | _ => none
  | .reserve t =>
    match s.receiver t with
    | .reserve =>
      let tables := s.tables.setContext t { s.tables.context t with wait_reserved := true }
      some ({ s with tables := tables }.goto t .count)
    | _ => none
  | .count t =>
    match s.receiver t with
    | .count => some (s.goto t (if s.mailbox.count ≠ 0 then .signal else .waiting))
    | _ => none
  | .signal t =>
    match s.receiver t with
    | .signal => some ((process_wait_signal p s).2.goto t .waiting)
    | _ => none
  | .resume t =>
    match s.receiver t with
    | .waiting =>
      let context := s.tables.context t
      if context.wait_pending then none
      else if context.wait_reason = .none then some (s.goto t .user)
      else if context.wait_result = PROCESS_WAIT_OK ∧ context.wait_reason = .ipc then
        some (s.goto t .complete)
      else some (s.goto t .reset)
    | _ => none
  | .complete t =>
    match s.receiver t with
    | .complete => some ({ s with mailbox := (ipc_mailbox_pop_v2 s.mailbox true).2 }.goto t .reset)
    | _ => none
  | .reset t =>
    match s.receiver t with
    | .reset => some ({ s with tables := sched.thread_wait_reset_unlocked s.tables t }.goto t .user)
    | _ => none
  | .send i message fault =>
    match s.sender i with
    | .idle =>
      let r := ipc_mailbox_push_v2 s.mailbox message fault true
      let s := { s with mailbox := r.2 }
      some (if r.1 then s.send_goto i .signal else s)
    | _ => none
  | .send_signal i =>
    match s.sender i with
    | .signal =>
      let r := process_wait_signal p s
      some (r.2.send_goto i (if r.1 then .idle else .notify))
    | _ => none
  | .send_notify i =>
    match s.sender i with
    | .notify =>
      some ({ s with tables := sched.process_notify_queued_ipc s.tables p }.send_goto i .idle)
    | _ => none
  | .tick tick_now => some { s with tables := sched.process_wait_tick s.tables tick_now }

/-- No call has been made: the mailbox is empty, and the threads of the process wait for
nothing. -/
structure Start (p : Fin m) (s : State n m k) : Prop where
  queue : s.tables.sched_queue = fun _ => none
  head : s.tables.sched_queue_head = 0
  count : s.tables.sched_queue_count = 0
  waits : ∀ t, (s.tables.thread_table t).owner = some p →
    (s.tables.context t).wait_pending = false ∧ (s.tables.context t).wait_reason = .none
  mailbox : s.mailbox = ipc.ipc_mailbox_init
  receiver : ∀ t, s.receiver t = .user
  sender : ∀ i, s.sender i = .idle

def receivers (n m k : Nat) [NeZero n] (p : Fin m) : Machine (State n m k) (Label n k) :=
  Machine.ofFun (Start p) (step p)

/-! ## What is counted -/

/-- A thread and its place. -/
abbrev Place (m : Nat) := Thread m × ReceiverPc

def State.place (s : State n m k) (t : Fin n) : Place m := (s.tables.thread_table t, s.receiver t)

/-- The thread waits for a message. -/
def pending (p : Fin m) (x : Place m) : Bool :=
  decide (x.1.owner = some p) && x.1.context.wait_pending && decide (x.1.context.wait_reason = .ipc)

/-- The wait of the thread was signalled with `PROCESS_WAIT_OK`, and the call that waited
has not been completed. -/
def signalled (p : Fin m) (x : Place m) : Bool :=
  decide (x.1.owner = some p) && !x.1.context.wait_pending && decide (x.1.context.wait_reason = .ipc) &&
    decide (x.1.context.wait_result = PROCESS_WAIT_OK)

/-- The completion of the call has taken its message out. -/
def ReceiverPc.taken : ReceiverPc → Bool
  | .reset => true
  | _ => false

/-- Such a thread has not taken its message yet. -/
def owed (p : Fin m) (x : Place m) : Bool := signalled p x && !x.2.taken

/-- The thread has begun to wait and has still to look at the mailbox. -/
def ReceiverPc.looks : ReceiverPc → Bool
  | .reserve | .count | .signal => true
  | _ => false

def looking (x : Place m) : Bool := x.2.looks

def SenderPc.signalling : SenderPc → Bool
  | .signal => true
  | _ => false

/-- The thread is in a call that receives, and has not gone to wait. -/
def ReceiverPc.in_call : ReceiverPc → Bool
  | .pop _ | .wait_begin _ _ | .reserve | .count | .signal => true
  | _ => false

end

end mini_kernel.wakeup
