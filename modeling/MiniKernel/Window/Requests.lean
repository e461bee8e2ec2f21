-- The requests of clients (user/programs/windowd_c.c), but for damage that comes in parts: a
-- window is created, gets a new surface, is damaged, shown, hidden, moved, resized, asked
-- for and destroyed. Each request is checked, then done, and undone if its frame fails.
import MiniKernel.Lib.Word
import MiniKernel.Window.Replies

open mini_kernel.lib mini_kernel.os64

namespace mini_kernel.windowd

section
variable (screen : Screen)

/-! ## Requests -/

def OS_SERVICE_QUERY_STATUS : U32 := 1
def OS_SERVICE_QUERY_HEALTH : U32 := 3

def handle_service_query (message : Message) (s : State) : Option State :=
  if message.type ≠ .request ∨ message.length ≠ SIZE_SERVICE_QUERY ∨ message.handle_count ≠ 0 then none
  else if message.payload 0 ≠ SIZE_SERVICE_QUERY ∨
      (message.payload 1 ≠ OS_SERVICE_QUERY_HEALTH ∧ message.payload 1 ≠ OS_SERVICE_QUERY_STATUS) then none
  else some (s.send (.health message.sender (message.payload 1) (message.payload 3)))

def request_matches (message : Message) (request_id : U32) : Bool :=
  decide (request_id ≠ 0) && decide (request_id = message.request_id)

/-- The check of a request, then that its id is that of the message. -/
def checked (message : Message) (valid : Outcome) (request_id : U32) : Outcome :=
  match valid with
  | .error failure => .error failure
  | .ok () => if request_matches message request_id then .ok () else .error OS_ERR_INVALID_ARGUMENT

/-- The window of a request that has passed its check. -/
def target_of (valid : Outcome) (target : Outcome × Option Slot) : Outcome × Option Slot :=
  match valid with
  | .error failure => (.error failure, none)
  | .ok () => target

/-- The message has the length of its request and brings no handle. -/
def plain (message : Message) (size : U32) : Bool :=
  decide (message.length = size) && decide (message.handle_count = 0)

/-- The message brings one handle. -/
def brings_surface (message : Message) : Bool :=
  decide (message.handle_count = 1) && decide (message.flags &&& OS_IPC_FLAG_HAS_HANDLES ≠ 0)

/-- The answer to a message that is not a request of its kind. -/
def refuse (message : Message) (operation : U32) (s : State) : State :=
  reply_about (s.close_handles message) message.sender message.request_id operation
    (.error OS_ERR_INVALID_ARGUMENT) none

def authorize_layer (answers : Answers) (sender : OsProcessIdentity) (flags : U32) : Outcome :=
  if !window_state_layer_flags_valid flags then .error OS_ERR_INVALID_ARGUMENT
  else if window_state_layer_from_flags flags = .normal then .ok ()
  else
    match answers.session_owner with
    | none => .error OS_ERR_PERMISSION_DENIED
    | some owner => if identity_equal sender owner then .ok () else .error OS_ERR_PERMISSION_DENIED

/-- What a CREATE of either layout asks for, with the outcome of its check. -/
def create_request (message : Message) : Outcome × OsWindowCreateRequest :=
  if message.length = SIZE_CREATE then
    (window_protocol_validate_create (read_create message.payload), read_create message.payload)
  else if message.length = SIZE_CREATE_GEOMETRY then
    (window_protocol_validate_create_geometry (read_create_geometry message.payload),
      read_create_geometry message.payload)
  else
    (.error OS_ERR_INVALID_ARGUMENT,
      ⟨⟨0, 0, 0, 0, message.request_id⟩, 0, 0, 0, ⟨0, 0, 0, 0⟩⟩)

/-- The session is released when a failed CREATE leaves no window. -/
def State.release_if_empty (s : State) (released : Outcome) : State :=
  if s.table.count = 0 ∧ s.display.gui_session_generation ≠ 0 then (s.release_gui_session released).2
  else s

/-- The end of a CREATE that failed before it had a window. -/
def create_failed (answers : Answers) (message : Message) (request_id : U32) (failure : Failure)
    (candidate : WindowSurfaceCandidate) (s : State) : State :=
  let s := if candidate.handle ≠ 0 then s.release_values candidate.handle candidate.pixels
    else s.close_first message
  reply_about (s.release_if_empty answers.released) message.sender request_id OS_WINDOW_CREATE
    (.error failure) none

/-- A new window is in the table, its surface is installed and its frame is damaged. -/
def open_window (request : OsWindowCreateRequest) (slot : Slot) (table : WindowTable)
    (candidate : WindowSurfaceCandidate) (s : State) : State :=
  let decorated := decide (request.header.flags &&& OS_WINDOW_FLAG_DECORATED ≠ 0) &&
    decide (window_state_layer_from_flags request.header.flags = .normal)
  (install_window_surface slot candidate
    { s with table := window_state_set_decorated table slot decorated }).damage_frame screen slot

/-- A new window that could not be shown is taken away. -/
def undo_open (slot : Slot) (s : State) : State :=
  (release_window_surface slot
    { s with table := window_state_destroy s.table slot }).rebuild_composite screen

/-- The window of a CREATE, from the candidate on. -/
def create_window (answers : Answers) (message : Message) (request : OsWindowCreateRequest)
    (candidate : WindowSurfaceCandidate) (s : State) : State :=
  let layer := window_state_layer_from_flags request.header.flags
  match window_state_commit_create_layer s.table message.sender request.content_generation request.x
      request.y request.surface.width request.surface.height layer with
  | (none, _) =>
    create_failed answers message request.header.request_id OS_ERR_NO_RESOURCES candidate s
  | (some slot, table) =>
    match (open_window screen request slot table candidate s).compose_and_present screen answers.frame with
    | (.ok (), s) =>
      reply_about s message.sender request.header.request_id OS_WINDOW_CREATE (.ok ()) (some slot)
    | (.error failure, s) =>
      reply_about ((undo_open screen slot s).release_if_empty answers.released) message.sender
        request.header.request_id OS_WINDOW_CREATE (.error failure) none

def handle_create (answers : Answers) (message : Message) (s : State) : State :=
  if !brings_surface message then refuse message OS_WINDOW_CREATE s
  else
    let (valid, request) := create_request message
    let request_id := request.header.request_id
    match checked message valid request_id with
    | .error failure => create_failed answers message request_id failure .none s
    | .ok () =>
      match authorize_layer answers message.sender request.header.flags with
      | .error failure => create_failed answers message request_id failure .none s
      | .ok () =>
        match window_state_can_create s.table message.sender request.content_generation
            request.surface.width request.surface.height with
        | .error failure => create_failed answers message request_id failure .none s
        | .ok () =>
          let (result, candidate, kernel) :=
            validate_surface screen answers message.first_handle request.surface s.display.kernel
          let s := { s with display := { s.display with kernel := kernel } }
          match result with
          | .error failure => create_failed answers message request_id failure candidate s
          | .ok () =>
            if s.table.count = 0 then
              match ensure_gui_session screen answers.session s.display with
              | (.error failure, display) =>
                create_failed answers message request_id failure candidate { s with display := display }
              | (.ok (), display) =>
                create_window screen answers message request candidate { s with display := display }
            else create_window screen answers message request candidate s

/-- The end of a SET_SURFACE or RESIZE that failed before the surface was shown. -/
def surface_failed (message : Message) (request_id operation : U32) (failure : Failure)
    (entry : Option Slot) (candidate : WindowSurfaceCandidate) (s : State) : State :=
  let s := if candidate.handle ≠ 0 then s.release_values candidate.handle candidate.pixels
    else s.close_first message
  reply_about s message.sender request_id operation (.error failure) entry

/-- A window has its new surface, and its new size if it is resized, and is damaged. -/
def put_surface (request : OsWindowSetSurfaceRequest) (slot : Slot) (candidate : WindowSurfaceCandidate)
    (resize : Bool) (s : State) : State :=
  let s := if resize then
      { s.damage_frame screen slot with
        table := window_state_resize s.table slot request.surface.width request.surface.height }
    else s
  (install_window_surface slot candidate s).damage_frame screen slot

/-- The window has the surface and the size again that it had in `old`, and the new surface is
given back. -/
def undo_surface (old : State) (slot : Slot) (candidate : WindowSurfaceCandidate) (resize : Bool)
    (s : State) : State :=
  let table := if resize then
      window_state_resize s.table slot (old.table.entries slot).width (old.table.entries slot).height
    else s.table
  let s := { s with
    table := table
    surfaces := Function.update s.surfaces slot (old.surfaces slot)
    sources := Function.update s.sources slot (old.sources slot) }
  (s.release_values candidate.handle candidate.pixels).rebuild_composite screen

/-- The new surface stays, and the one that the window had in `old` is given back. -/
def accept_surface (old : State) (slot : Slot) (content_generation : U32) (s : State) : State :=
  let s := s.release_values (old.surfaces slot).handle (old.sources slot).pixels
  { s with table := window_state_commit_content s.table slot content_generation }

/-- A new surface is shown in a window, as SET_SURFACE and RESIZE do it. -/
def show_surface (answers : Answers) (message : Message) (request : OsWindowSetSurfaceRequest)
    (operation : U32) (slot : Slot) (candidate : WindowSurfaceCandidate) (resize : Bool)
    (old : State) : State :=
  match (put_surface screen request slot candidate resize old).compose_and_present screen
      answers.frame with
  | (.ok (), s) =>
    reply_about (accept_surface old slot request.content_generation s) message.sender
      request.header.request_id operation (.ok ()) (some slot)
  | (.error failure, s) =>
    reply_about (undo_surface screen old slot candidate resize s) message.sender
      request.header.request_id operation (.error failure) (some slot)

/-- The common part of SET_SURFACE and RESIZE. A SET_SURFACE keeps the size of its window. -/
def replace_surface (answers : Answers) (message : Message) (valid : Outcome)
    (request : OsWindowSetSurfaceRequest) (operation : U32) (resize : Bool) (s : State) : State :=
  let request_id := request.header.request_id
  match target_of (checked message valid request_id)
      (window_state_validate_content s.table message.sender request.window_id
        request.window_generation request.content_generation) with
  | (.ok (), some slot) =>
    let window := s.table.entries slot
    if !resize && decide (request.surface.width ≠ window.width ∨ request.surface.height ≠ window.height)
    then surface_failed message request_id operation OS_ERR_INVALID_ARGUMENT (some slot) .none s
    else
      let (result, candidate, kernel) :=
        validate_surface screen answers message.first_handle request.surface s.display.kernel
      let s := { s with display := { s.display with kernel := kernel } }
      match result with
      | .error failure => surface_failed message request_id operation failure (some slot) candidate s
      | .ok () => show_surface screen answers message request operation slot candidate resize s
  | (.ok (), none) => s
  | (.error failure, entry) => surface_failed message request_id operation failure entry .none s

def handle_set_surface (answers : Answers) (message : Message) (s : State) : State :=
  if message.length ≠ SIZE_SET_SURFACE ∨ !brings_surface message then refuse message OS_WINDOW_SET_SURFACE s
  else
    let request := read_set_surface message.payload
    replace_surface screen answers message (window_protocol_validate_set_surface request) request
      OS_WINDOW_SET_SURFACE false s

def handle_resize (answers : Answers) (message : Message) (s : State) : State :=
  if message.length ≠ SIZE_RESIZE ∨ !brings_surface message then refuse message OS_WINDOW_RESIZE s
  else
    let request := read_set_surface message.payload
    replace_surface screen answers message (window_protocol_validate_resize request) request
      OS_WINDOW_RESIZE true s

/-- Damage is added, the frame is shown and the content is accepted. -/
def accept_damage (answers : Answers) (slot : Slot) (content_generation : U32)
    (damaged : Except Failure WindowDamageAccumulator) (s : State) : Outcome × State :=
  match damaged with
  | .error failure => (.error failure, s)
  | .ok damage =>
    let s := { s with display := { s.display with screen_damage := damage } }
    match s.compose_and_present screen answers.frame with
    | (.error failure, s) => (.error failure, s)
    | (.ok (), s) =>
      (.ok (), { s with table := window_state_commit_content s.table slot content_generation })

def handle_full_damage (answers : Answers) (message : Message) (s : State) : State :=
  if !plain message SIZE_DAMAGE then refuse message OS_WINDOW_DAMAGE s
  else
    let request := read_damage message.payload
    let request_id := request.header.request_id
    match target_of (checked message (window_protocol_validate_damage request) request_id)
        (window_state_validate_content s.table message.sender request.window_id
          request.window_generation request.content_generation) with
    | (.ok (), some slot) =>
      let window := s.table.entries slot
      let damaged := window_damage_add_window screen s.display.screen_damage window
        ⟨0, 0, window.width, window.height⟩
      let (result, s) := accept_damage screen answers slot request.content_generation damaged s
      reply_about s message.sender request_id OS_WINDOW_DAMAGE result (some slot)
    | (result, entry) => reply_about s message.sender request_id OS_WINDOW_DAMAGE result entry

/-! ## Windows that are shown, hidden, moved, asked for and destroyed -/

/-- The frame of a window is damaged, then the window is shown or hidden. -/
def set_visible (slot : Slot) (visible : Bool) (s : State) : State :=
  { s.damage_frame screen slot with table := window_state_set_visible s.table slot visible true }

/-- The window is as visible as it was, and the stack is as it was. The window may have lost
its mark as a minimized one. -/
def undo_visible (old : State) (slot : Slot) (s : State) : State :=
  let table := s.table.set slot
    { s.table.entries slot with visible := (old.table.entries slot).visible }
  { s with table := { table with z_slots := old.table.z_slots } }.rebuild_composite screen

/-- `command` is SHOW or HIDE. -/
def handle_visibility (answers : Answers) (message : Message) (command : U32) (s : State) : State :=
  if !plain message SIZE_STATE then refuse message command s
  else
    let request := read_state message.payload
    let request_id := request.header.request_id
    match target_of (checked message (window_protocol_validate_state request command) request_id)
        (window_state_validate_target s.table message.sender request.window_id
          request.window_generation) with
    | (.ok (), some slot) =>
      let shown := set_visible screen slot (decide (command = OS_WINDOW_SHOW)) s
      match shown.compose_and_present screen answers.frame with
      | (.ok (), s) =>
        let s := reply_about s message.sender request_id command (.ok ()) (some slot)
        if command = OS_WINDOW_HIDE then reconcile_invalid_focus answers answers.ticks s else s
      | (.error failure, failed) =>
        reply_about (undo_visible screen s slot failed) message.sender request_id command
          (.error failure) (some slot)
    | (result, entry) => reply_about s message.sender request_id command result entry

def handle_focus (answers : Answers) (message : Message) (s : State) : State :=
  if !plain message SIZE_STATE then refuse message OS_WINDOW_FOCUS s
  else
    let request := read_state message.payload
    let request_id := request.header.request_id
    match target_of (checked message (window_protocol_validate_state request OS_WINDOW_FOCUS) request_id)
        (window_state_validate_target s.table message.sender request.window_id
          request.window_generation) with
    | (.ok (), some slot) =>
      if window_state_accepts_focus (s.table.entries slot) then
        reply_about (focus_entry answers (some slot) answers.ticks s) message.sender request_id
          OS_WINDOW_FOCUS (.ok ()) (some slot)
      else
        reply_about s message.sender request_id OS_WINDOW_FOCUS (.error OS_ERR_NOT_READY) (some slot)
    | (result, entry) => reply_about s message.sender request_id OS_WINDOW_FOCUS result entry

def handle_info (message : Message) (s : State) : State :=
  if !plain message SIZE_STATE then
    send_window_info_reply screen message.sender message.request_id (.error OS_ERR_INVALID_ARGUMENT) none
      (s.close_handles message)
  else
    let request := read_state message.payload
    let request_id := request.header.request_id
    let valid := checked message (window_protocol_validate_info request) request_id
    let (result, entry) :=
      if request.window_id ≠ 0 then
        target_of valid (window_state_validate_target s.table message.sender request.window_id
          request.window_generation)
      else target_of valid (.ok (), none)
    send_window_info_reply screen message.sender request_id result entry s

/-- A window is moved, and both its old and its new frame are damaged. -/
def move_window (slot : Slot) (x y : U32) (s : State) : State :=
  State.damage_frame screen
    { s.damage_frame screen slot with table := window_state_move s.table slot x y } slot

/-- The window goes back to its place in `old`. -/
def undo_move (old : State) (slot : Slot) (s : State) : State :=
  let entry := old.table.entries slot
  { s with table := window_state_move s.table slot entry.x entry.y }.rebuild_composite screen

def handle_move (answers : Answers) (message : Message) (s : State) : State :=
  if !plain message SIZE_MOVE then refuse message OS_WINDOW_MOVE s
  else
    let request := read_move message.payload
    let request_id := request.header.request_id
    match target_of (checked message (window_protocol_validate_move request) request_id)
        (window_state_validate_target s.table message.sender request.window_id
          request.window_generation) with
    | (.ok (), some slot) =>
      match (move_window screen slot request.x request.y s).compose_and_present screen answers.frame with
      | (.ok (), s) => reply_about s message.sender request_id OS_WINDOW_MOVE (.ok ()) (some slot)
      | (.error failure, failed) =>
        reply_about (undo_move screen s slot failed) message.sender request_id OS_WINDOW_MOVE
          (.error failure) (some slot)
    | (result, entry) => reply_about s message.sender request_id OS_WINDOW_MOVE result entry

def destroy_entry (slot : Slot) (s : State) : State :=
  let entry := s.table.entries slot
  if !entry.active then s
  else
    let s := { s with
      table := window_state_destroy s.table slot
      interaction := window_interaction_cancel_target s.interaction entry.window_id
        entry.window_generation }
    (release_window_surface slot s).damage screen (window_state_frame_rect entry)

/-- What follows the removal of a window: the session ends with the last window, and a
session that was lost already is no failure. -/
def after_destroy (answers : Answers) (s : State) : Outcome × State :=
  if s.table.count = 0 then
    match s.release_gui_session answers.released with
    | (.ok (), s) => (.ok (), s)
    | (.error failure, s) => (if failure = OS_ERR_NOT_READY then .ok () else .error failure, s)
  else (.ok (), s.present_or_retry screen answers.frame)

/-- The reply to a DESTROY names the window as it was before. -/
def destroy_reply (request_id : U32) (result : Outcome) (entry : Option Slot) (s : State) :
    OsWindowReply :=
  { result := Outcome.code result, request_id := request_id, operation := OS_WINDOW_DESTROY
    window_id := entry.elim 0 fun slot => (s.table.entries slot).window_id
    window_generation := entry.elim 0 fun slot => (s.table.entries slot).window_generation
    accepted_content_generation := 0 }

def handle_destroy (answers : Answers) (message : Message) (s : State) : State :=
  if !plain message SIZE_DESTROY then refuse message OS_WINDOW_DESTROY s
  else
    let request := read_state message.payload
    let request_id := request.header.request_id
    match target_of (checked message (window_protocol_validate_destroy request) request_id)
        (window_state_validate_target s.table message.sender request.window_id
          request.window_generation) with
    | (.ok (), some slot) =>
      match after_destroy screen answers (destroy_entry screen slot s) with
      | (.ok (), after) =>
        reconcile_invalid_focus answers answers.ticks
          (send_window_reply message.sender (destroy_reply request_id (.ok ()) (some slot) s) after)
      | (.error failure, after) =>
        send_window_reply message.sender (destroy_reply request_id (.error failure) (some slot) s) after
    | (result, entry) =>
      send_window_reply message.sender (destroy_reply request_id result entry s) s

end

end mini_kernel.windowd
