-- The requests to serviced (user/programs/serviced_c.c). Its main loop takes one message a
-- turn, and a health check takes another one while its request is under way. What the other
-- commands return is an answer of the turn: they take no message. Every request that the main
-- loop takes is answered once; one that a health check takes is lost.
import MiniKernel.Lib.Machine
import MiniKernel.Os64

open mini_kernel.lib mini_kernel.os64

namespace mini_kernel.serviced

/-! ## Messages -/

/-- `OS_IPC_MESSAGE_*`. -/
inductive MessageType
  | none | request | reply | event
deriving DecidableEq

/-- `OS_SERVICE_MANAGER_CMD_*`, or any other number. -/
inductive Command
  | ping | start | stop | restart | status | exit | health | crash | other
deriving DecidableEq

structure OsServiceManagerRequest where
  size : Nat
  command : Command
  request_id : U32
  name : String

structure OsServiceHealthReply where
  size : Nat
  command : Nat
  result : Int
  request_id : U32
  ready : Nat

/-- `request` and `health` are what the payload holds, read as the one record or the other. -/
structure OsIpcMessage where
  sender : OsProcessIdentity
  type : MessageType
  length : Nat
  request : OsServiceManagerRequest
  health : OsServiceHealthReply

/-- What an `OsServiceManagerReply` says about the request, and whom it goes to. -/
structure Reply where
  target : OsProcessIdentity
  request_id : U32
  result : Outcome

/-- The size of `OsServiceManagerRequest`, and of `OsServiceHealthReply` too. -/
def RECORD_SIZE : Nat := 32

def OS_SERVICE_QUERY_HEALTH : Nat := 3

/-- The names of `services`. -/
def managed : List String :=
  ["base", "demo", "input", "display", "window", "session", "restricted", "crash"]

/-! ## The loop -/

/-- In the main loop, in the wait of a health check for `message`, or at the end. -/
inductive Pc
  | loop
  | health (message : OsIpcMessage) (owner_pid request_id : U32)
  | ended

/-- `taken` records the messages that were taken; the code has no such list. -/
structure State where
  mailbox : List OsIpcMessage
  pc : Pc
  taken : List OsIpcMessage
  replies : List Reply

/-- What a turn is told: the outcome of another command, the owner that `registry_lookup`
finds, the outcome of the query to it and the number of the query. -/
structure Answers where
  outcome : Outcome
  owner_pid : Option U32
  sent : Outcome
  request_id : U32

/-- The reply goes out whether or not it arrives. -/
def send_reply (message : OsIpcMessage) (result : Outcome) (s : State) : State :=
  { s with
    replies := s.replies ++ [⟨message.sender, message.request.request_id, result⟩]
    pc := if message.request.command = .exit then .ended else .loop }

/-- The sizes that `handle_request` asks for. -/
def fits (message : OsIpcMessage) : Bool :=
  message.length = RECORD_SIZE ∧ message.request.size = RECORD_SIZE

def health_service (answers : Answers) (message : OsIpcMessage) (s : State) : State :=
  match answers.owner_pid, answers.sent with
  | some owner_pid, .ok () => { s with pc := .health message owner_pid answers.request_id }
  | _, _ => send_reply message (.error OS_ERR_NOT_READY) s

/-- The rest of `health_service`, with the message that its wait has taken. -/
def health_result (response : OsIpcMessage) (owner_pid request_id : U32) : Outcome :=
  if response.sender.pid ≠ owner_pid ∨ response.type ≠ .reply ∨ response.length ≠ RECORD_SIZE then
    .error OS_ERR_TIMEOUT
  else
    let reply := response.health
    if reply.size ≠ RECORD_SIZE ∨ reply.command ≠ OS_SERVICE_QUERY_HEALTH ∨
        reply.request_id ≠ request_id ∨ reply.result < 0 ∨ reply.ready = 0 then
      .error OS_ERR_NOT_READY
    else .ok ()

def handle_request (answers : Answers) (message : OsIpcMessage) (s : State) : State :=
  if !fits message then s
  else
    match message.request.command with
    | .ping | .exit => send_reply message (.ok ()) s
    | .other => send_reply message (.error OS_ERR_INVALID_ARGUMENT) s
    | command =>
      if message.request.name ∉ managed then send_reply message (.error OS_ERR_NOT_FOUND) s
      else if command = .status then send_reply message (.ok ()) s
      else if command = .health then health_service answers message s
      else send_reply message answers.outcome s

inductive Label
  | arrive (message : OsIpcMessage)
  | wait_fails (failure : Failure)
  | take (answers : Answers)

def step (s : State) : Label → Option State
  | .arrive message => some { s with mailbox := s.mailbox ++ [message] }
  | .wait_fails failure =>
    match s.pc with
    | .loop => some (if failure = OS_ERR_TIMEOUT then s else { s with pc := .ended })
    | .health message _ _ => some (send_reply message (.error OS_ERR_TIMEOUT) s)
    | .ended => none
  | .take answers =>
    match s.mailbox with
    | [] => none
    | message :: mailbox =>
      let s := { s with mailbox := mailbox, taken := s.taken ++ [message] }
      match s.pc with
      | .loop => some (if message.type = .request then handle_request answers message s else s)
      | .health request owner_pid request_id =>
        some (send_reply request (health_result message owner_pid request_id) s)
      | .ended => none

def machine : Machine State Label := .ofFun (· = ⟨[], .loop, [], []⟩) step

/-! ## Requests and replies -/

def is_request (message : OsIpcMessage) : Bool := message.type = .request ∧ fits message

def OsIpcMessage.key (message : OsIpcMessage) : OsProcessIdentity × U32 :=
  (message.sender, message.request.request_id)

def Reply.key (reply : Reply) : OsProcessIdentity × U32 := (reply.target, reply.request_id)

/-- The request that waits for a health check. -/
def State.pending (s : State) : List OsIpcMessage :=
  match s.pc with
  | .health message _ _ => [message]
  | _ => []

/-- The replies, and the one that is still to come. -/
def State.answers (s : State) : List (OsProcessIdentity × U32) :=
  s.replies.map Reply.key ++ s.pending.map OsIpcMessage.key

/-- A health check takes no request. -/
def allowed (s : State) : Label → Bool
  | .take _ => s.pending = [] ∨ ∀ message ∈ s.mailbox.head?, !is_request message
  | _ => true

variable {s s' : State} {l : Label} {message : OsIpcMessage} {result : Outcome} {answers : Answers}

@[simp] theorem pending_reply : (send_reply message result s).pending = [] := by
  unfold send_reply
  split_ifs <;> rfl

@[simp] theorem answers_reply :
    (send_reply message result s).answers = s.replies.map Reply.key ++ [message.key] := by
  rw [State.answers, pending_reply]
  simp [send_reply, Reply.key, OsIpcMessage.key]

theorem answers_health :
    (health_service answers message s).answers = s.replies.map Reply.key ++ [message.key] := by
  unfold health_service
  split
  · rfl
  · exact answers_reply

/-- One reply to a request, at once or after a health check, and none to another message. -/
theorem answers_handle (htype : message.type = .request) (hpc : s.pc = .loop) :
    (handle_request answers message s).answers =
      s.replies.map Reply.key ++ ([message].filter is_request).map OsIpcMessage.key := by
  unfold handle_request
  cases hfits : fits message
  · simp [State.answers, State.pending, hpc, is_request, hfits]
  · have hrequest : is_request message := by simp [is_request, htype, hfits]
    simp only [Bool.not_true, Bool.false_eq_true, ↓reduceIte, List.filter_cons_of_pos hrequest]
    repeat' split
    all_goals simp [answers_health]

@[simp] theorem taken_reply : (send_reply message result s).taken = s.taken := rfl

theorem taken_handle : (handle_request answers message s).taken = s.taken := by
  unfold handle_request health_service
  repeat' split
  all_goals rfl

/-- The replies, and the one that is to come, are those to the requests that were taken. -/
def Answered (s : State) : Prop := s.answers = (s.taken.filter is_request).map OsIpcMessage.key

theorem Answered.step (h : Answered s) (hallowed : allowed s l) (hst : step s l = some s') :
    Answered s' := by
  unfold Answered at h ⊢
  cases hpc : s.pc <;> cases l <;> cases hmailbox : s.mailbox <;>
    simp only [serviced.step, hpc, hmailbox, reduceCtorEq, Option.some.injEq] at hst
  all_goals simp only [State.answers, State.pending, hpc, List.map_nil, List.append_nil] at h
  case loop.take.cons answers message mailbox =>
    split at hst <;> subst hst
    · rename_i htype
      simp [answers_handle htype, taken_handle, h]
    · rename_i htype
      simp [State.answers, State.pending, h, is_request, htype]
  case health.take.cons request owner_pid request_id answers message mailbox =>
    subst hst
    have hnot : is_request message = false := by
      simpa [allowed, State.pending, hpc, hmailbox] using hallowed
    simpa [hnot] using h
  case loop.wait_fails.nil | loop.wait_fails.cons =>
    split at hst <;> subst hst <;> simp [State.answers, State.pending, hpc, h]
  case health.wait_fails.nil | health.wait_fails.cons =>
    subst hst
    simpa using h
  all_goals
    subst hst
    simpa [State.answers, State.pending] using h

theorem health_ends (hst : step s l = some s') (hl : ∀ message, l ≠ .arrive message)
    (hpending : s.pending ≠ []) : s'.pending = [] := by
  cases hpc : s.pc <;> cases l <;> cases hmailbox : s.mailbox <;>
    simp only [serviced.step, hpc, hmailbox, reduceCtorEq, Option.some.injEq] at hst
  case health.wait_fails.nil | health.wait_fails.cons | health.take.cons => rw [← hst, pending_reply]
  case health.arrive.nil message | health.arrive.cons message _ _ => exact absurd rfl (hl message)
  all_goals simp [State.pending, hpc] at hpending

/-- In a run in which no health check takes a request, the replies are those to the requests that
were taken, one for each and in their order, but for the request of a health check. It gets its
reply when the wait of the check ends, which is within a timeout. -/
theorem requests_are_answered (h : machine.ReachedBy (fun s l => allowed s l = true) s) :
    s.replies.map Reply.key ++ s.pending.map OsIpcMessage.key =
      (s.taken.filter is_request).map OsIpcMessage.key ∧
    (∀ l s', step s l = some s' → (∀ message, l ≠ .arrive message) → s.pending ≠ [] →
      s'.pending = []) ∧
    (s.pending ≠ [] → (step s (.wait_fails OS_ERR_TIMEOUT)).isSome) := by
  refine ⟨?_, fun _ _ => health_ends, ?_⟩
  · have hanswered : Answered s := by
      refine h.inv ?_ fun _ _ _ hi hg hst => hi.step hg hst
      rintro _ rfl
      rfl
    exact hanswered
  · intro hpending
    cases hpc : s.pc <;> simp_all [serviced.step, State.pending]

/-! ## Two clients -/

def ask (pid : U32) (command : Command) : OsIpcMessage :=
  { sender := ⟨pid, 1⟩, type := .request, length := RECORD_SIZE
    request := ⟨RECORD_SIZE, command, pid, "base"⟩
    health := ⟨RECORD_SIZE, 0, 0, pid, 0⟩ }

def owner : Answers := ⟨.ok (), some 9, .ok (), 7⟩

def healthy : OsIpcMessage :=
  { ask 9 .ping with type := .reply, health := ⟨RECORD_SIZE, OS_SERVICE_QUERY_HEALTH, 0, 7, 1⟩ }

/-- The service answers before the ping of the other client arrives. -/
theorem a_health_check_then_a_ping : ∃ s : State, s.replies.map Reply.key = [(⟨3, 1⟩, 3), (⟨4, 1⟩, 4)] ∧
    s.replies.map Reply.key ++ s.pending.map OsIpcMessage.key =
      (s.taken.filter is_request).map OsIpcMessage.key :=
  ⟨_, rfl, (requests_are_answered (Machine.reachedBy_runIf (.start rfl)
    (rfl : Machine.runIf step allowed ⟨[], .loop, [], []⟩ [.arrive (ask 3 .health), .take owner,
      .arrive healthy, .arrive (ask 4 .ping), .take owner, .take owner] = some _))).1⟩

/-- The health check takes the ping, and no reply to it is on its way. -/
theorem a_health_check_takes_a_request : ∃ s message, machine.Reachable s ∧ s.pending = [] ∧
    message ∈ s.taken ∧ is_request message = true ∧ message.key ∉ s.replies.map Reply.key :=
  ⟨_, ask 4 .ping, Machine.reachable_run (.of_init rfl)
    (rfl : Machine.run step ⟨[], .loop, [], []⟩ [.arrive (ask 3 .health), .take owner,
      .arrive (ask 4 .ping), .take owner] = some _), rfl, List.mem_cons_of_mem _ (.head _), rfl,
      by decide⟩

end mini_kernel.serviced
