-- The message loop of windowd (user/programs/windowd_c.c): damage that comes in parts, the
-- choice of the handler, the owners that have died, and the deadlines that are served after
-- each message. There is one damage transaction for all clients.
import MiniKernel.Lib.Word
import MiniKernel.Lib.Machine
import MiniKernel.Window.Requests
import MiniKernel.Window.Pointer

open mini_kernel.lib mini_kernel.os64

namespace mini_kernel.windowd

/-! ## The damage transaction -/

structure WindowDamageTransaction where
  active : Bool
  sender : OsProcessIdentity
  request_id : U32
  window_id : U32
  window_generation : U32
  content_generation : U32
  submission_id : U32
  rect_count : U32
  chunk_count : U32
  next_chunk : U32
  received_rects : U32
  started_ticks : U32
  rects : Nat → OsRect

/-- `clear_damage_transaction`. -/
def WindowDamageTransaction.clear : WindowDamageTransaction :=
  { active := false, sender := ⟨0, 0⟩, request_id := 0, window_id := 0, window_generation := 0
    content_generation := 0, submission_id := 0, rect_count := 0, chunk_count := 0, next_chunk := 0
    received_rects := 0, started_ticks := 0, rects := fun _ => ⟨0, 0, 0, 0⟩ }

/-- The transaction is under way and the sender has begun it. -/
def WindowDamageTransaction.belongs (transaction : WindowDamageTransaction)
    (sender : OsProcessIdentity) : Bool :=
  transaction.active && identity_equal sender transaction.sender

def WINDOW_PRESENT_TIMEOUT_TICKS : Nat := 50

/-- The transaction has been under way for too long. -/
def WindowDamageTransaction.late (transaction : WindowDamageTransaction) (ticks : U64) : Bool :=
  transaction.active &&
    decide (WINDOW_PRESENT_TIMEOUT_TICKS ≤ (ticks.setWidth 32 - transaction.started_ticks).toNat)

/-- The rectangles of a chunk go behind those that are there. -/
def WindowDamageTransaction.receive (transaction : WindowDamageTransaction)
    (request : OsWindowDamageRectsRequest) : WindowDamageTransaction :=
  let stored := ((List.finRange OS_WINDOW_DAMAGE_RECTS_PER_CHUNK).filter fun i =>
      decide (i.val < request.rect_count.toNat)).foldl
    (fun (transaction : WindowDamageTransaction) i => { transaction with
      rects := Function.update transaction.rects transaction.received_rects.toNat (request.rects i)
      received_rects := transaction.received_rects + 1 }) transaction
  { stored with next_chunk := stored.next_chunk + 1 }

/-- The rectangles that a COMMIT adds. -/
def WindowDamageTransaction.received (transaction : WindowDamageTransaction) : List OsRect :=
  (List.range transaction.rect_count.toNat).map transaction.rects

/-- windowd as a whole. -/
structure Daemon where
  state : State
  transaction : WindowDamageTransaction

/-- Only what is not the transaction has changed. -/
def Daemon.put (d : Daemon) (s : State) : Daemon := { d with state := s }

section
variable (screen : Screen)

/-! ## Damage in parts -/

/-- The outcome of the checks of a BEGIN, and the window that it names. -/
def begin_target (message : Message) (s : State) : Outcome × Option Slot :=
  let request := read_damage_begin message.payload
  target_of (checked message (window_protocol_validate_damage_begin request) request.header.request_id)
    (window_state_validate_content s.table message.sender request.window_id
      request.window_generation request.content_generation)

/-- The transaction that a BEGIN starts. -/
def begun (answers : Answers) (message : Message) : WindowDamageTransaction :=
  let request := read_damage_begin message.payload
  { WindowDamageTransaction.clear with
    active := true
    sender := message.sender
    request_id := request.header.request_id
    window_id := request.window_id
    window_generation := request.window_generation
    content_generation := request.content_generation
    submission_id := request.submission_id
    rect_count := request.rect_count
    chunk_count := request.chunk_count
    started_ticks := answers.ticks.setWidth 32 }

def handle_damage_begin (answers : Answers) (message : Message) (d : Daemon) : Daemon :=
  if !plain message SIZE_DAMAGE_BEGIN then d.put (refuse message OS_WINDOW_DAMAGE d.state)
  else
    let request_id := (read_damage_begin message.payload).header.request_id
    match begin_target message d.state with
    | (.error failure, entry) =>
      d.put (reply_about d.state message.sender request_id OS_WINDOW_DAMAGE (.error failure) entry)
    | (.ok (), entry) =>
      if d.transaction.active then
        d.put (reply_about d.state message.sender request_id OS_WINDOW_DAMAGE
          (.error OS_ERR_NO_RESOURCES) entry)
      else { d with transaction := begun answers message }

def reject_active_damage (failure : Failure) (d : Daemon) : Daemon :=
  if !d.transaction.active then d
  else
    let entry := window_state_find d.state.table d.transaction.window_id d.transaction.window_generation
    { state := reply_about d.state d.transaction.sender d.transaction.request_id OS_WINDOW_DAMAGE
        (.error failure) entry
      transaction := .clear }

/-- A part that fails ends the transaction of its sender, and no other one. -/
def reject_part (message : Message) (failure : Failure) (d : Daemon) : Daemon :=
  if d.transaction.belongs message.sender then reject_active_damage failure d
  else
    d.put (reply_about d.state message.sender message.request_id OS_WINDOW_DAMAGE (.error failure) none)

/-- The outcome of the checks of a chunk of rectangles. -/
def rects_valid (message : Message) (transaction : WindowDamageTransaction) : Outcome :=
  let request := read_damage_rects message.payload
  match window_protocol_validate_damage_rects request with
  | .error failure => .error failure
  | .ok () =>
    if !transaction.belongs message.sender ||
        decide (request.header.request_id ≠ transaction.request_id) ||
        decide (request.submission_id ≠ transaction.submission_id) ||
        decide (request.chunk_index ≠ transaction.next_chunk) ||
        decide (transaction.chunk_count ≤ request.chunk_index) ||
        decide (transaction.rect_count < transaction.received_rects + request.rect_count) then
      .error OS_ERR_INVALID_ARGUMENT
    else .ok ()

def handle_damage_rects (message : Message) (d : Daemon) : Daemon :=
  if !plain message SIZE_DAMAGE_RECTS then
    reject_part message OS_ERR_INVALID_ARGUMENT (d.put (d.state.close_handles message))
  else
    match rects_valid message d.transaction with
    | .error failure => reject_part message failure d
    | .ok () =>
      { d with transaction := d.transaction.receive (read_damage_rects message.payload) }

/-- The damage of a transaction, one rectangle after the other. -/
def add_rects (window : WindowEntry) (damage : WindowDamageAccumulator) (rects : List OsRect) :
    Except Failure WindowDamageAccumulator :=
  rects.foldlM (fun damage rect => window_damage_add_window screen damage window rect) damage

/-- The outcome of the checks of a COMMIT. -/
def commit_valid (message : Message) (transaction : WindowDamageTransaction) : Outcome :=
  let request := read_damage_commit message.payload
  match window_protocol_validate_damage_commit request with
  | .error failure => .error failure
  | .ok () =>
    if !transaction.belongs message.sender ||
        decide (request.header.request_id ≠ transaction.request_id) ||
        decide (request.submission_id ≠ transaction.submission_id) ||
        decide (transaction.next_chunk ≠ transaction.chunk_count) ||
        decide (transaction.received_rects ≠ transaction.rect_count) then
      .error OS_ERR_INVALID_ARGUMENT
    else .ok ()

/-- The outcome of all checks of a COMMIT, and the window that is damaged. -/
def commit_target (message : Message) (d : Daemon) : Outcome × Option Slot :=
  target_of (commit_valid message d.transaction)
    (window_state_validate_content d.state.table message.sender d.transaction.window_id
      d.transaction.window_generation d.transaction.content_generation)

/-- The id in the answer to a COMMIT. It is that of the transaction under way, whoever has
begun it. -/
def commit_request_id (message : Message) (transaction : WindowDamageTransaction) : U32 :=
  if transaction.active then transaction.request_id
  else (read_damage_commit message.payload).header.request_id

/-- The transaction is cleared in every case. -/
def handle_damage_commit (answers : Answers) (message : Message) (d : Daemon) : Daemon :=
  if !plain message SIZE_DAMAGE_COMMIT then
    reject_part message OS_ERR_INVALID_ARGUMENT (d.put (d.state.close_handles message))
  else
    let request_id := commit_request_id message d.transaction
    match commit_target message d with
    | (.ok (), some slot) =>
      let damaged := add_rects screen (d.state.table.entries slot) d.state.display.screen_damage
        d.transaction.received
      let (result, s) :=
        accept_damage screen answers slot d.transaction.content_generation damaged d.state
      { state := reply_about s message.sender request_id OS_WINDOW_DAMAGE result (some slot)
        transaction := .clear }
    | (result, entry) =>
      { state := reply_about d.state message.sender request_id OS_WINDOW_DAMAGE result entry
        transaction := .clear }

/-! ## The loop -/

def reject_message (message : Message) (failure : Failure) (s : State) : State :=
  let long := decide (20 ≤ message.length.toNat)
  let request_id :=
    if long && decide (message.payload 4 ≠ 0) then message.payload 4 else message.request_id
  let operation := if long then message.payload 2 else 0
  reply_about (s.close_handles message) message.sender request_id operation (.error failure) none

/-- The cases of `handle_message` that have nothing to do with damage in parts. -/
def handle_request (answers : Answers) (message : Message) (s : State) : State :=
  let command := message.payload 2
  if command = OS_WINDOW_CREATE then handle_create screen answers message s
  else if command = OS_WINDOW_SET_SURFACE then handle_set_surface screen answers message s
  else if command = OS_WINDOW_DAMAGE then handle_full_damage screen answers message s
  else if command = OS_WINDOW_DESTROY then handle_destroy screen answers message s
  else if command = OS_WINDOW_SHOW then handle_visibility screen answers message OS_WINDOW_SHOW s
  else if command = OS_WINDOW_HIDE then handle_visibility screen answers message OS_WINDOW_HIDE s
  else if command = OS_WINDOW_FOCUS then handle_focus answers message s
  else if command = OS_WINDOW_GET_INFO then handle_info screen message s
  else if command = OS_WINDOW_MOVE then handle_move screen answers message s
  else if command = OS_WINDOW_RESIZE then handle_resize screen answers message s
  else reject_message message OS_ERR_UNSUPPORTED s

/-- The message is a request that is long enough to name its command. -/
def is_request (message : Message) : Bool :=
  decide (message.type = .request) && decide (12 ≤ message.length.toNat)

def handle_message (answers : Answers) (message : Message) (d : Daemon) : Daemon :=
  match handle_service_query message d.state with
  | some s => d.put s
  | none =>
    if message.type = .event then d.put (handle_input_event screen answers message d.state)
    else if !is_request message then d.put (reject_message message OS_ERR_INVALID_ARGUMENT d.state)
    else if message.payload 2 = OS_WINDOW_DAMAGE_BEGIN then handle_damage_begin answers message d
    else if message.payload 2 = OS_WINDOW_DAMAGE_RECTS then handle_damage_rects message d
    else if message.payload 2 = OS_WINDOW_DAMAGE_COMMIT then handle_damage_commit screen answers message d
    else d.put (handle_request screen answers message d.state)

/-- `cleanup_dead_owners` at one slot, with the number of windows that were removed. -/
def cleanup_turn (answers : Answers) (found : Nat × Daemon) (slot : Slot) : Nat × Daemon :=
  let (removed, d) := found
  let entry := d.state.table.entries slot
  if entry.active && !answers.alive entry.owner then
    (removed + 1, {
      state := destroy_entry screen slot d.state
      transaction := if d.transaction.active && identity_equal d.transaction.sender entry.owner then
          .clear
        else d.transaction })
  else (removed, d)

/-- What follows when windows were removed. -/
def after_removal (answers : Answers) (s : State) : State :=
  let s := if s.table.count = 0 then (s.release_gui_session answers.released).2
    else s.present_or_retry screen answers.frame
  reconcile_invalid_focus answers answers.ticks s

def cleanup_dead_owners (answers : Answers) (d : Daemon) : Daemon :=
  let (removed, d) := (List.finRange OS_WINDOW_MAX_WINDOWS).foldl (cleanup_turn screen answers) (0, d)
  if removed = 0 then d else d.put (after_removal screen answers d.state)

/-- The answers that one call of `service_deadlines` can ask for: those for the windows whose
owner is gone, and then the time, the session, the owner of the display service and the
frame. -/
structure DeadlineAnswers where
  cleanup : Answers
  ticks : U64
  session : SessionAnswers
  display : Except Failure OsProcessIdentity
  present : PresentAnswers

/-- A frame that is still to be shown. -/
def show_pending (answers : DeadlineAnswers) (s : State) : State :=
  let previous := s.display.display_owner
  match refresh_display_owner answers.display s.display with
  | (.error _, display) => { s with display := display }
  | (.ok (), display) =>
    if !identity_equal previous display.display_owner || display.pending_full_frame then
      let display := if display.screen_damage.rects = [] then
          (compose_pending screen s.scene { display with screen_damage := window_damage_full screen }).2
        else display
      { s with display := (present_composite s.scene answers.present display).2 }
    else { s with display := display }

/-- The last part of `service_deadlines`: the session and the frame. -/
def service_display (answers : DeadlineAnswers) (s : State) : State :=
  if s.table.count ≠ 0 then
    match ensure_gui_session screen answers.session s.display with
    | (.error _, display) => { s with display := { display with pending_full_frame := true } }
    | (.ok (), display) => show_pending screen answers { s with display := display }
  else show_pending screen answers s

def service_deadlines (answers : DeadlineAnswers) (d : Daemon) : Daemon :=
  let d := cleanup_dead_owners screen answers.cleanup d
  let d := if d.transaction.late answers.ticks then reject_active_damage OS_ERR_TIMEOUT d else d
  d.put (service_display screen answers d.state)

/-! ## The machine -/

/-- A message is handled, with the surfaces that its handles stand for and what the clients
have drawn until then; or the deadlines are served. -/
inductive Label
  | message (message : Message) (objects : Nat → Nat) (memory : Memory) (answers : Answers)
  | deadlines (answers : DeadlineAnswers)

/-- The kernel opens handles for what a message brings: none is zero or in use, and no two
are the same. -/
def can_arrive (kernel : Kernel) (message : Message) : Bool :=
  decide (message.handle_count.toNat ≤ OS_IPC_V2_MAX_HANDLES) && decide message.arrived.Nodup &&
    message.arrived.all fun handle =>
      decide (handle ≠ 0) && !kernel.handles.any fun opened => decide (opened.value = handle)

def Kernel.receive (kernel : Kernel) (message : Message) (objects : Nat → Nat) : Kernel :=
  message.arrived.foldl (fun kernel handle => kernel.open_handle ⟨handle, objects handle, true⟩) kernel

def State.deliver (s : State) (message : Message) (objects : Nat → Nat) (memory : Memory) : State :=
  { s with display := { s.display with
      kernel := { s.display.kernel.receive message objects with memory := memory } } }

def arrives (d : Daemon) : Label → Bool
  | .message message _ _ _ => can_arrive d.state.display.kernel message
  | .deadlines _ => true

def serve (d : Daemon) : Label → Daemon
  | .message message objects memory answers =>
    handle_message screen answers message (d.put (d.state.deliver message objects memory))
  | .deadlines answers => service_deadlines screen answers d

def step (d : Daemon) (label : Label) : Option Daemon :=
  if arrives d label then some (serve screen d label) else none

/-- The state when `main` enters its loop. -/
def init (display_owner : OsProcessIdentity) (next_frame_generation : U32) (memory : Memory)
    (composite : Pixels) : Daemon :=
  { transaction := .clear
    state := {
      table := window_state_init
      surfaces := fun _ => .none
      sources := fun _ => .none
      router := window_input_router_init
      interaction := window_interaction_init screen
      input_owner := ⟨0, 0⟩
      display := {
        kernel := { handles := [], mappings := [], memory := memory, opened := [], closes := [] }
        display_owner := display_owner
        composite := composite
        console_snapshot_surface := 0
        console_underlay := .none
        gui_session_generation := 0
        next_frame_generation := next_frame_generation
        pending_full_frame := false
        screen_damage := window_damage_reset
        frames := [] }
      sent := [] } }

def machine : Machine Daemon Label :=
  .ofFun (fun d => ∃ owner generation memory composite, d = init screen owner generation memory composite)
    (step screen)

end

end mini_kernel.windowd
