-- Input events (user/programs/windowd_c.c): what the pointer does to windows, and where the
-- keys go.
import MiniKernel.Lib.Word
import MiniKernel.Window.Replies

open mini_kernel.lib mini_kernel.os64

namespace mini_kernel.windowd

section
variable (screen : Screen)

/-! ## Input -/

def send_entry_event (answers : Answers) (slot : Slot) (command : U32) (timestamp : U64)
    (input : InputData) (s : State) : State :=
  let entry := s.table.entries slot
  if !entry.active then s
  else
    let (sequence, router) := window_input_router_next_event s.router
    send_window_event answers ⟨entry.owner, entry.window_id, entry.window_generation, sequence⟩ command
      timestamp input { s with router := router }

def deliver_pointer (answers : Answers) (slot : Slot) (timestamp : U64)
    (pointer : OsPointerEvent) (s : State) : State :=
  let entry := s.table.entries slot
  if !entry.active || !entry.visible then s
  else
    send_entry_event answers slot OS_WINDOW_EVENT_POINTER timestamp
      (.pointer { pointer with x := pointer.x - entry.x, y := pointer.y - entry.y }) s

def focus_and_raise (answers : Answers) (slot : Slot) (timestamp : U64) (s : State) : State :=
  if !window_state_accepts_focus (s.table.entries slot) then s
  else
    let s := s.damage_frame screen slot
    focus_entry answers (some slot) timestamp { s with table := window_state_raise s.table slot }

def minimize_entry (answers : Answers) (slot : Slot) (timestamp : U64) (s : State) : State :=
  let entry := s.table.entries slot
  if !entry.active || !entry.visible then s
  else
    let s := s.damage_frame screen slot
    let s := { s with
      table := s.table.set slot { entry with visible := false, minimized := true }
      interaction := window_interaction_cancel_target s.interaction entry.window_id
        entry.window_generation }
    let s := send_entry_event answers slot OS_WINDOW_EVENT_MINIMIZED timestamp .none s
    focus_entry answers (topmost_visible_window s.table) timestamp s

/-- The window fills the screen, or goes back to where it was. -/
def maximized_entry (entry : WindowEntry) : WindowEntry :=
  let border := OS_WINDOW_DECORATION_BORDER
  let title := OS_WINDOW_DECORATION_TITLE_HEIGHT
  if !entry.maximized then
    { entry with
      restore_x := entry.x, restore_y := entry.y
      restore_width := entry.width, restore_height := entry.height
      x := border, y := title
      width := if border * 2 < screen.width then screen.width - border * 2 else 1
      height := if title + border < screen.height then screen.height - title - border else 1
      maximized := true }
  else
    { entry with
      x := entry.restore_x, y := entry.restore_y
      width := entry.restore_width, height := entry.restore_height
      maximized := false }

def toggle_maximize_entry (answers : Answers) (slot : Slot) (timestamp : U64) (s : State) : State :=
  let entry := s.table.entries slot
  if !entry.active || !entry.decorated then s
  else
    let s := s.damage_frame screen slot
    let event := if !entry.maximized then OS_WINDOW_EVENT_MAXIMIZED else OS_WINDOW_EVENT_RESTORED
    let s := { s with table := s.table.set slot (maximized_entry screen entry) }
    let s := s.damage_frame screen slot
    let s := send_entry_event answers slot event timestamp .none s
    send_entry_event answers slot OS_WINDOW_EVENT_CONFIGURE timestamp .none s

def activate_control (answers : Answers) (slot : Slot) (region : HitRegion) (timestamp : U64)
    (s : State) : State :=
  match region with
  | .close => send_entry_event answers slot OS_WINDOW_EVENT_CLOSE_REQUEST timestamp .none s
  | .minimize => minimize_entry screen answers slot timestamp s
  | .maximize => toggle_maximize_entry screen answers slot timestamp s
  | _ => s

/-- The left button goes down on a window that is not captured. -/
def press_window (answers : Answers) (slot : Slot) (region : HitRegion) (timestamp : U64)
    (pointer : OsPointerEvent) (s : State) : State :=
  let s := focus_and_raise screen answers slot timestamp s
  let entry := s.table.entries slot
  let restored := { s with table := s.table.set slot { entry with maximized := false } }
  let capture := fun (s : State) mode =>
    { s with interaction :=
        window_interaction_capture s.interaction (s.table.entries slot) mode region }
  match region with
  | .title => capture restored .move
  | .resize _ => capture restored .resize
  | .close | .minimize | .maximize => capture s .control
  | _ => deliver_pointer answers slot timestamp pointer (capture s .client)

/-- A drag moves or resizes the captured window. -/
def drag_window (answers : Answers) (slot : Slot) (timestamp : U64) (s : State) : State :=
  let old_frame := window_state_frame_rect (s.table.entries slot)
  let (changed, entry) :=
    window_interaction_update_geometry screen.width screen.height s.interaction (s.table.entries slot)
  let s := { s with table := s.table.set slot entry }
  if changed then
    let s := (s.damage screen old_frame).damage_frame screen slot
    send_entry_event answers slot OS_WINDOW_EVENT_CONFIGURE timestamp .none s
  else s

/-- The left button goes up. -/
def release_capture (answers : Answers) (timestamp : U64) (pointer : OsPointerEvent)
    (s : State) : State :=
  let (captured, interaction) := window_interaction_capture_target s.interaction s.table
  let s := { s with interaction := interaction }
  let s := match captured with
    | some slot =>
      if s.interaction.capture_mode = CaptureMode.control then
        match window_interaction_hit_test s.table pointer.x pointer.y with
        | some (hit, region) =>
          if hit = slot ∧ region = s.interaction.capture_region then
            activate_control screen answers slot region timestamp s
          else s
        | none => s
      else s
    | none => s
  { s with interaction := window_interaction_cancel s.interaction }

/-- The left button goes down or up with the event. -/
def left_down (pointer : OsPointerEvent) : Bool :=
  decide (pointer.type = .button_down) &&
    decide (pointer.changed_buttons &&& OS_POINTER_BUTTON_LEFT ≠ 0) &&
    decide (pointer.buttons &&& OS_POINTER_BUTTON_LEFT ≠ 0)

def left_up (pointer : OsPointerEvent) : Bool :=
  decide (pointer.type = .button_up) &&
    decide (pointer.changed_buttons &&& OS_POINTER_BUTTON_LEFT ≠ 0) &&
    decide (pointer.buttons &&& OS_POINTER_BUTTON_LEFT = 0)

/-- What a pointer event does to the windows, before the button that goes up ends a capture. -/
def route_pointer (answers : Answers) (timestamp : U64) (pointer : OsPointerEvent) (s : State) :
    State :=
  let (captured, interaction) := window_interaction_capture_target s.interaction s.table
  let s := { s with interaction := interaction }
  match captured with
  | none =>
    match window_interaction_hit_test s.table pointer.x pointer.y with
    | none => s
    | some (slot, region) =>
      if left_down pointer then press_window screen answers slot region timestamp pointer s
      else if region = .content then deliver_pointer answers slot timestamp pointer s
      else s
  | some slot =>
    match s.interaction.capture_mode with
    | .move | .resize =>
      if pointer.type = .move || left_up pointer then drag_window screen answers slot timestamp s else s
    | .client => deliver_pointer answers slot timestamp pointer s
    | _ => s

/-- The cursor is at its new place, and both places are damaged. -/
def move_cursor (interaction : WindowInteraction) (s : State) : State :=
  let damaged := (s.damage screen (cursor_rect s.interaction.pointer_x s.interaction.pointer_y)).damage
    screen (cursor_rect interaction.pointer_x interaction.pointer_y)
  { damaged with interaction := interaction }

/-- What a pointer event does to the windows. -/
def point (answers : Answers) (timestamp : U64) (pointer : OsPointerEvent) (s : State) : State :=
  let s := route_pointer screen answers timestamp pointer s
  if left_up pointer then release_capture screen answers timestamp pointer s else s

def handle_pointer_event (answers : Answers) (timestamp : U64) (raw : OsPointerEvent)
    (s : State) : State :=
  match window_interaction_normalize screen s.interaction raw with
  | none => s
  | some (interaction, pointer) =>
    let s := point screen answers timestamp pointer (move_cursor screen interaction s)
    if s.display.screen_damage.rects ≠ [] then s.present_or_retry screen answers.frame else s

def pointer_type (number : U32) : PointerType :=
  if number = 1 then .move else if number = 2 then .button_down
  else if number = 3 then .button_up else if number = 4 then .wheel else .other number

def OS_INPUT_EVENT_KEY : U32 := 1
def OS_INPUT_EVENT_POINTER : U32 := 2
def OS_KEY_EVENT_DOWN : U32 := 1
def OS_KEY_EVENT_UP : U32 := 2
def SIZE_INPUT_EVENT : U32 := 48

def read_pointer (payload : Nat → U32) : OsPointerEvent :=
  ⟨pointer_type (payload 10), payload 11, payload 12, payload 13, payload 14, payload 15, payload 16,
    payload 17⟩

def read_timestamp (payload : Nat → U32) : U64 := payload 9 ++ payload 8

/-- The fields of a forwarded input event are as they should be. -/
def forward_valid (payload : Nat → U32) : Bool :=
  decide (payload 0 = SIZE_INPUT_FORWARD) && decide (payload 1 = OS64_WINDOW_ABI_VERSION) &&
    decide (payload 2 = OS_WINDOW_INPUT_EVENT) && decide (payload 3 = 0) && decide (payload 5 = 0) &&
    decide (payload 7 = SIZE_INPUT_EVENT) &&
    (decide (payload 6 = OS_INPUT_EVENT_KEY) &&
        (decide (payload 10 = OS_KEY_EVENT_DOWN) || decide (payload 10 = OS_KEY_EVENT_UP)) ||
      decide (payload 6 = OS_INPUT_EVENT_POINTER) && decide (1 ≤ (payload 10).toNat) &&
        decide ((payload 10).toNat ≤ 4))

/-- A key goes to the window with the focus. -/
def forward_key (answers : Answers) (payload : Nat → U32) (s : State) : State :=
  let timestamp := read_timestamp payload
  let s := reconcile_invalid_focus answers timestamp s
  match window_state_find s.table s.router.focused_window_id s.router.focused_window_generation with
  | none => s
  | some slot =>
    let focused := s.table.entries slot
    if !focused.visible || !identity_equal focused.owner s.router.focused_owner ||
        decide (timestamp < s.router.focused_since_ticks) then s
    else
      let (sequence, router) := window_input_router_next_event s.router
      send_window_event answers
        ⟨focused.owner, focused.window_id, focused.window_generation, sequence⟩ OS_WINDOW_EVENT_KEY
        timestamp (.key ⟨payload 10, payload 11, payload 12, payload 13⟩) { s with router := router }

/-- The input service may have been started again; then its numbers begin again. -/
def connect_input (registered : OsProcessIdentity) (s : State) : State :=
  if identity_equal registered s.input_owner then s
  else { s with input_owner := registered, router := { s.router with input_sequence := 0 } }

/-- An event that was checked, if its number is new. -/
def forward_input (answers : Answers) (payload : Nat → U32) (s : State) : State :=
  match window_input_router_accept_input s.router (payload 4) with
  | none => s
  | some router =>
    let s := { s with router := router }
    if payload 6 = OS_INPUT_EVENT_POINTER then
      handle_pointer_event screen answers (read_timestamp payload) (read_pointer payload) s
    else forward_key answers payload s

def handle_input_event (answers : Answers) (message : Message) (s : State) : State :=
  if message.type ≠ .event ∨ message.flags ≠ 0 ∨ message.length ≠ SIZE_INPUT_FORWARD ∨
      message.request_id ≠ 0 ∨ message.reply_to ≠ 0 ∨ message.handle_count ≠ 0 then
    s.close_handles message
  else
    match answers.input_service with
    | none => s
    | some registered =>
      if !identity_equal message.sender registered then s
      else if !forward_valid message.payload then connect_input registered s
      else forward_input screen answers message.payload (connect_input registered s)

end

end mini_kernel.windowd
