-- What windowd knows and what it sends (user/programs/windowd_c.c): replies, events, the
-- change of the focus, and the surfaces of windows. The answers of the kernel and of the
-- services come with each call.
import MiniKernel.Lib.Word
import MiniKernel.Window.Interaction
import MiniKernel.Window.Display

open mini_kernel.lib mini_kernel.os64 Function

namespace mini_kernel.windowd

/-! ## What windowd sends -/

def OS_WINDOW_EVENT_FOCUS_IN : U32 := 0x574101
def OS_WINDOW_EVENT_FOCUS_OUT : U32 := 0x574102
def OS_WINDOW_EVENT_KEY : U32 := 0x574103
def OS_WINDOW_EVENT_POINTER : U32 := 0x574104
def OS_WINDOW_EVENT_CLOSE_REQUEST : U32 := 0x574105
def OS_WINDOW_EVENT_CONFIGURE : U32 := 0x574106
def OS_WINDOW_EVENT_MINIMIZED : U32 := 0x574107
def OS_WINDOW_EVENT_MAXIMIZED : U32 := 0x574108
def OS_WINDOW_EVENT_RESTORED : U32 := 0x574109

structure OsKeyEvent where
  type : U32
  keycode : U32
  modifiers : U32
  character : U32
deriving DecidableEq

inductive InputData
  | none
  | key (event : OsKeyEvent)
  | pointer (event : OsPointerEvent)
deriving DecidableEq

structure OsWindowReply where
  result : Int
  request_id : U32
  operation : U32
  window_id : U32
  window_generation : U32
  accepted_content_generation : U32
deriving DecidableEq

structure OsWindowInfoReply where
  flags : U32
  result : Int
  request_id : U32
  window_id : U32
  window_generation : U32
  x : U32
  y : U32
  width : U32
  height : U32
  stride_pixels : U32
  pixel_format : U32
  content_generation : U32
  visible : Bool
  focused : Bool
deriving DecidableEq

inductive Sent
  | reply (target : OsProcessIdentity) (reply : OsWindowReply)
  | info (target : OsProcessIdentity) (reply : OsWindowInfoReply)
  | health (target : OsProcessIdentity) (command request_id : U32)
  | event (endpoint : WindowFocusEndpoint) (command : U32) (timestamp : U64)
      (input : InputData)
deriving DecidableEq

/-- Who gets it. -/
def Sent.target : Sent → OsProcessIdentity
  | .reply target _ => target
  | .info target _ => target
  | .health target _ _ => target
  | .event endpoint _ _ _ => endpoint.owner

/-! ## The state of windowd -/

structure WindowSurfaceSlot where
  handle : Nat
  info : SurfaceFields
deriving DecidableEq

def WindowSurfaceSlot.none : WindowSurfaceSlot := ⟨0, ⟨0, 0, 0, 0⟩⟩

structure WindowSurfaceCandidate where
  handle : Nat
  pixels : Nat
  info : SurfaceFields

def WindowSurfaceCandidate.none : WindowSurfaceCandidate := ⟨0, 0, ⟨0, 0, 0, 0⟩⟩

/-- All that windowd knows but for the damage transaction under way. `sent` records what was
sent, the latest first. -/
structure State where
  table : WindowTable
  surfaces : Slot → WindowSurfaceSlot
  sources : Slot → WindowCompositorSource
  router : WindowInputRouter
  interaction : WindowInteraction
  input_owner : OsProcessIdentity
  display : Display
  sent : List Sent

/-- The answers that one message can ask for: the owners of services, whether a process is
alive, the time, the layout and the mapping of the surface that came with the message, the
frame, and the release of the session. -/
structure Answers where
  session_owner : Option OsProcessIdentity
  input_service : Option OsProcessIdentity
  alive : OsProcessIdentity → Bool
  ticks : U64
  surface_info : Option SurfaceFields
  surface_map : MapAnswer
  session : SessionAnswers
  frame : FrameAnswers
  released : Outcome

def State.scene (s : State) : Scene :=
  ⟨s.table, s.sources, s.interaction.pointer_x, s.interaction.pointer_y⟩

/-! ## Sending -/

def State.send (s : State) (sent : Sent) : State := { s with sent := sent :: s.sent }

def send_window_reply (target : OsProcessIdentity) (reply : OsWindowReply) (s : State) : State :=
  if target.pid = 0 ∨ target.generation = 0 ∨ reply.request_id = 0 then s
  else s.send (.reply target reply)

/-- The reply about a window, or about none. -/
def reply_about (s : State) (target : OsProcessIdentity) (request_id operation : U32)
    (result : Outcome) (entry : Option Slot) : State :=
  send_window_reply target {
    result := Outcome.code result
    request_id := request_id
    operation := operation
    window_id := entry.elim 0 fun slot => (s.table.entries slot).window_id
    window_generation := entry.elim 0 fun slot => (s.table.entries slot).window_generation
    accepted_content_generation :=
      entry.elim 0 fun slot => (s.table.entries slot).accepted_content_generation } s

def send_window_event (answers : Answers) (endpoint : WindowFocusEndpoint) (command : U32)
    (timestamp : U64) (input : InputData) (s : State) : State :=
  if endpoint.owner.pid = 0 ∨ endpoint.event_sequence = 0 ∨ answers.alive endpoint.owner = false then s
  else s.send (.event endpoint command timestamp input)

def layer_number (layer : Layer) : U32 := BitVec.ofNat 32 layer.rank

def send_window_info_reply (screen : Screen) (target : OsProcessIdentity) (request_id : U32)
    (result : Outcome) (entry : Option Slot) (s : State) : State :=
  if target.pid = 0 ∨ target.generation = 0 ∨ request_id = 0 then s
  else
    s.send (.info target (match result, entry with
      | .ok (), some slot =>
        let window := s.table.entries slot
        { flags := layer_number window.layer, result := Outcome.code result, request_id := request_id
          window_id := window.window_id, window_generation := window.window_generation
          x := window.x, y := window.y, width := window.width, height := window.height
          stride_pixels := (s.surfaces slot).info.stride_pixels
          pixel_format := (s.surfaces slot).info.pixel_format
          content_generation := window.accepted_content_generation, visible := window.visible
          focused := window_input_router_is_focused s.router window.owner window.window_id
            window.window_generation }
      | .ok (), none =>
        { flags := 0, result := Outcome.code result, request_id := request_id, window_id := 0
          window_generation := 0, x := 0, y := 0, width := screen.width, height := screen.height
          stride_pixels := screen.stride_pixels, pixel_format := screen.format
          content_generation := 0, visible := false, focused := false }
      | .error _, _ =>
        { flags := 0, result := Outcome.code result, request_id := request_id, window_id := 0
          window_generation := 0, x := 0, y := 0, width := 0, height := 0, stride_pixels := 0
          pixel_format := 0, content_generation := 0, visible := false, focused := false }))

/-! ## The focus -/

def emit_focus_change (answers : Answers) (change : WindowFocusChange) (timestamp : U64)
    (s : State) : State :=
  send_window_event answers change.focus_in OS_WINDOW_EVENT_FOCUS_IN timestamp .none
    (send_window_event answers change.focus_out OS_WINDOW_EVENT_FOCUS_OUT timestamp .none s)

def topmost_visible_window (table : WindowTable) : Option Slot :=
  table.z_slots.reverse.find? fun slot => window_state_accepts_focus (table.entries slot)

def focus_entry (answers : Answers) (entry : Option Slot) (timestamp : U64) (s : State) : State :=
  let (change, router) := match entry with
    | none => window_input_router_clear s.router
    | some slot =>
      let window := s.table.entries slot
      if window.active && window.visible then
        window_input_router_focus s.router window.owner window.window_id window.window_generation
          timestamp
      else window_input_router_clear s.router
  emit_focus_change answers change timestamp { s with router := router }

def reconcile_invalid_focus (answers : Answers) (timestamp : U64) (s : State) : State :=
  if s.router.focused_window_id = 0 then s
  else
    match window_state_find s.table s.router.focused_window_id s.router.focused_window_generation with
    | some slot =>
      let focused := s.table.entries slot
      if focused.visible && identity_equal focused.owner s.router.focused_owner then s
      else focus_entry answers (topmost_visible_window s.table) timestamp s
    | none => focus_entry answers (topmost_visible_window s.table) timestamp s

/-! ## Surfaces -/

/-- The handles that came with the message are closed. -/
def State.close_handles (s : State) (message : Message) : State :=
  { s with display := { s.display with kernel := close_message_handles s.display.kernel message } }

def State.close_first (s : State) (message : Message) : State :=
  { s with display := { s.display with kernel := close_handle s.display.kernel message.first_handle } }

def State.release_values (s : State) (handle pixels : Nat) : State :=
  { s with display := { s.display with kernel := release_surface_values s.display.kernel handle pixels } }

def release_window_surface (slot : Slot) (s : State) : State :=
  { s.release_values (s.surfaces slot).handle (s.sources slot).pixels with
    surfaces := update s.surfaces slot .none
    sources := update s.sources slot .none }

def install_window_surface (slot : Slot) (candidate : WindowSurfaceCandidate) (s : State) : State :=
  { s with
    surfaces := update s.surfaces slot ⟨candidate.handle, candidate.info⟩
    sources := update s.sources slot
      ⟨candidate.pixels, candidate.info.stride_pixels, candidate.info.width, candidate.info.height⟩ }

section
variable (screen : Screen)

/-- The outcome, what the candidate holds, and the kernel after the mapping. -/
def validate_surface (answers : Answers) (surface : Nat) (fields : SurfaceFields) (kernel : Kernel) :
    Outcome × WindowSurfaceCandidate × Kernel :=
  if surface = 0 ∨ fields.width = 0 ∨ fields.height = 0 ∨ screen.width < fields.width ∨
      screen.height < fields.height then (.error OS_ERR_INVALID_ARGUMENT, .none, kernel)
  else
    match answers.surface_info with
    | none => (.error OS_ERR_INVALID_ARGUMENT, ⟨surface, 0, ⟨0, 0, 0, 0⟩⟩, kernel)
    | some info =>
      if info ≠ fields ∨ fields.pixel_format ≠ screen.format then
        (.error OS_ERR_INVALID_ARGUMENT, ⟨surface, 0, info⟩, kernel)
      else
        let (pixels, kernel) := os_surface_map kernel surface answers.surface_map
        (if pixels ≠ 0 then .ok () else .error OS_ERR_PERMISSION_DENIED, ⟨surface, pixels, info⟩, kernel)

def State.damage (s : State) (rect : OsRect) : State :=
  { s with display := s.display.damage screen rect }

def State.damage_frame (s : State) (slot : Slot) : State :=
  s.damage screen (window_state_frame_rect (s.table.entries slot))

def State.compose_and_present (s : State) (answers : FrameAnswers) : Outcome × State :=
  let (result, display) := windowd.compose_and_present screen s.scene answers s.display
  (result, { s with display := display })

def State.rebuild_composite (s : State) : State :=
  { s with display := windowd.rebuild_composite screen s.scene s.display }

def State.release_gui_session (s : State) (released : Outcome) : Outcome × State :=
  let (result, display) := windowd.release_gui_session released s.display
  (result, { s with display := display })

/-- A frame that fails is tried again as a whole. -/
def State.present_or_retry (s : State) (answers : FrameAnswers) : State :=
  match s.compose_and_present screen answers with
  | (.ok (), s) => s
  | (.error _, s) => { s with display := { s.display with pending_full_frame := true } }

end

end mini_kernel.windowd
