-- The pointer and the focus (user/programs/windowd/window_interaction.c and
-- window_input_router.c): where the pointer is, which window it is over, what it drags, and
-- which window has the keyboard.
import MiniKernel.Lib.Word
import MiniKernel.Window.Compositor

open mini_kernel.lib mini_kernel.os64

namespace mini_kernel.windowd

/-! ## Pointer events -/

inductive PointerType
  | move | button_down | button_up | wheel | other (number : U32)
deriving DecidableEq

structure OsPointerEvent where
  type : PointerType
  x : U32
  y : U32
  delta_x : U32
  delta_y : U32
  wheel_delta : U32
  buttons : U32
  changed_buttons : U32
deriving DecidableEq

def OS_POINTER_BUTTON_LEFT : U32 := 1
def OS_POINTER_BUTTON_MASK : U32 := 0x1F
def OS_POINTER_POSITION_UNKNOWN : U32 := 0x80000000

/-! ## What the pointer is on -/

/-- The region of a window; a resize region is a set of edges. -/
structure Edges where
  left : Bool
  right : Bool
  top : Bool
  bottom : Bool
deriving DecidableEq

inductive HitRegion
  | none | content | title | close | minimize | maximize
  | resize (edges : Edges)
deriving DecidableEq

inductive CaptureMode
  | none | client | move | resize | control
deriving DecidableEq

structure WindowInteraction where
  pointer_x : U32
  pointer_y : U32
  buttons : U32
  capture_mode : CaptureMode
  capture_region : HitRegion
  capture_window_id : U32
  capture_window_generation : U32
  anchor_pointer_x : U32
  anchor_pointer_y : U32
  anchor_x : U32
  anchor_y : U32
  anchor_width : U32
  anchor_height : U32
deriving DecidableEq

def window_interaction_cancel (interaction : WindowInteraction) : WindowInteraction :=
  { interaction with
    capture_mode := .none, capture_region := .none, capture_window_id := 0
    capture_window_generation := 0, anchor_pointer_x := 0, anchor_pointer_y := 0, anchor_x := 0
    anchor_y := 0, anchor_width := 0, anchor_height := 0 }

def window_interaction_init (screen : Screen) : WindowInteraction :=
  { pointer_x := screen.width / 2, pointer_y := screen.height / 2, buttons := 0
    capture_mode := .none, capture_region := .none, capture_window_id := 0
    capture_window_generation := 0, anchor_pointer_x := 0, anchor_pointer_y := 0, anchor_x := 0
    anchor_y := 0, anchor_width := 0, anchor_height := 0 }

def clamp_axis (value : Int) (extent : U32) : U32 :=
  if extent = 0 then 0
  else if value < 0 then 0
  else if (extent.toNat : Int) ≤ value then extent - 1
  else BitVec.ofInt 32 value

/-- The pointer goes to the place that the event says. -/
def window_interaction_normalize (screen : Screen) (interaction : WindowInteraction)
    (raw : OsPointerEvent) : Option (WindowInteraction × OsPointerEvent) :=
  let known := match raw.type with
    | .other _ => false
    | _ => true
  if !known || decide (raw.buttons &&& ~~~OS_POINTER_BUTTON_MASK ≠ 0) then none
  else
    let x := if raw.x = OS_POINTER_POSITION_UNKNOWN then
      interaction.pointer_x.toInt + raw.delta_x.toInt else raw.x.toInt
    let y := if raw.y = OS_POINTER_POSITION_UNKNOWN then
      interaction.pointer_y.toInt + raw.delta_y.toInt else raw.y.toInt
    let moved := { interaction with
      pointer_x := clamp_axis x screen.width, pointer_y := clamp_axis y screen.height
      buttons := raw.buttons }
    some (moved, { raw with
      x := moved.pointer_x, y := moved.pointer_y
      delta_x := moved.pointer_x - interaction.pointer_x
      delta_y := moved.pointer_y - interaction.pointer_y })

def point_in (x y : U32) (rect : OsRect) : Bool :=
  decide (0 < rect.width.toInt) && decide (0 < rect.height.toInt) &&
    decide (rect.x.toInt ≤ x.toInt) && decide (rect.y.toInt ≤ y.toInt) &&
    decide (x.toInt < rect.x.toInt + rect.width.toInt) &&
    decide (y.toInt < rect.y.toInt + rect.height.toInt)

def decorated_region (entry : WindowEntry) (x y : U32) : HitRegion :=
  let frame := window_state_frame_rect entry
  if !point_in x y frame then .none
  else
    let edges : Edges := {
      left := decide (x.toInt < entry.x.toInt)
      right := decide (entry.x.toInt + entry.width.toNat ≤ x.toInt)
      top := decide (y.toInt < (frame.y + OS_WINDOW_DECORATION_BORDER).toInt)
      bottom := decide (entry.y.toInt + entry.height.toNat ≤ y.toInt) }
    if edges.left || edges.right || edges.top || edges.bottom then .resize edges
    else if y.toInt < entry.y.toInt then
      let button_top := entry.y - OS_WINDOW_DECORATION_TITLE_HEIGHT + 3
      let button_bottom := button_top + OS_WINDOW_DECORATION_BUTTON_SIZE
      if button_top.toInt ≤ y.toInt ∧ y.toInt < button_bottom.toInt then
        let right := entry.x + entry.width - 3
        let size := OS_WINDOW_DECORATION_BUTTON_SIZE
        if (right - size).toInt ≤ x.toInt then .close
        else if (right - size * 2 - 2).toInt ≤ x.toInt then .maximize
        else if (right - size * 3 - 4).toInt ≤ x.toInt then .minimize
        else .title
      else .title
    else .content

def hit_region (entry : WindowEntry) (x y : U32) : HitRegion :=
  if entry.decorated then decorated_region entry x y
  else if point_in x y (window_state_frame_rect entry) then .content
  else .none

/-- The loop of the hit test, from the top of the stack down. -/
def hit_from_top (entries : Slot → WindowEntry) (x y : U32) :
    List Slot → Option (Slot × HitRegion)
  | [] => none
  | slot :: below =>
    let entry := entries slot
    if entry.active && entry.visible && decide (hit_region entry x y ≠ .none) then
      some (slot, hit_region entry x y)
    else hit_from_top entries x y below

def window_interaction_hit_test (table : WindowTable) (x y : U32) :
    Option (Slot × HitRegion) :=
  hit_from_top table.entries x y table.z_slots.reverse

/-! ## Captures -/

def window_interaction_capture (interaction : WindowInteraction) (entry : WindowEntry)
    (mode : CaptureMode) (region : HitRegion) : WindowInteraction :=
  if !entry.active then interaction
  else
    { interaction with
      capture_mode := mode, capture_region := region
      capture_window_id := entry.window_id, capture_window_generation := entry.window_generation
      anchor_pointer_x := interaction.pointer_x, anchor_pointer_y := interaction.pointer_y
      anchor_x := entry.x, anchor_y := entry.y
      anchor_width := entry.width, anchor_height := entry.height }

def window_interaction_cancel_target (interaction : WindowInteraction)
    (window_id window_generation : U32) : WindowInteraction :=
  if interaction.capture_window_id = window_id ∧
      interaction.capture_window_generation = window_generation then
    window_interaction_cancel interaction
  else interaction

/-- The captured window, if it is still there and visible; if not, the capture ends. -/
def window_interaction_capture_target (interaction : WindowInteraction) (table : WindowTable) :
    Option Slot × WindowInteraction :=
  if interaction.capture_mode = .none then (none, interaction)
  else
    match window_state_find table interaction.capture_window_id
        interaction.capture_window_generation with
    | none => (none, window_interaction_cancel interaction)
    | some slot =>
      if (table.entries slot).visible then (some slot, interaction)
      else (none, window_interaction_cancel interaction)

def bounded_i32 (value : Int) : U32 :=
  if value < INT32_MIN then BitVec.ofInt 32 INT32_MIN
  else if INT32_MAX < value then BitVec.ofInt 32 INT32_MAX
  else BitVec.ofInt 32 value

/-- The place that a moved window is dragged to. -/
def dragged_place (screen_width screen_height : U32) (interaction : WindowInteraction) (entry : WindowEntry) :
    Int × Int :=
  let x := interaction.anchor_x.toInt + (interaction.pointer_x.toInt - interaction.anchor_pointer_x.toInt)
  let y := interaction.anchor_y.toInt + (interaction.pointer_y.toInt - interaction.anchor_pointer_y.toInt)
  let min_x : Int := 32 - entry.width.toNat
  let max_x : Int := screen_width.toNat - 32
  let min_y : Int := OS_WINDOW_DECORATION_TITLE_HEIGHT.toNat
  let max_y : Int := screen_height.toNat - 8
  let x := if x < min_x then min_x else x
  let x := if max_x < x then max_x else x
  let y := if y < min_y then min_y else y
  let y := if max_y < y then max_y else y
  (x, y)

/-- The sides that a resized window is dragged to. -/
def dragged_bounds (screen_width screen_height : U32) (interaction : WindowInteraction)
    (edges : Edges) : Bounds :=
  let dx := interaction.pointer_x.toInt - interaction.anchor_pointer_x.toInt
  let dy := interaction.pointer_y.toInt - interaction.anchor_pointer_y.toInt
  let left := interaction.anchor_x.toInt
  let top := interaction.anchor_y.toInt
  let right := left + interaction.anchor_width.toNat
  let bottom := top + interaction.anchor_height.toNat
  let left := if edges.left then left + dx else left
  let right := if edges.right then right + dx else right
  let top := if edges.top then top + dy else top
  let bottom := if edges.bottom then bottom + dy else bottom
  let min_width : Int := OS_WINDOW_MIN_WIDTH.toNat
  let min_height : Int := OS_WINDOW_MIN_HEIGHT.toNat
  let narrow := right - left < min_width
  let flat := bottom - top < min_height
  let left' := if narrow ∧ edges.left then right - min_width else left
  let right' := if narrow ∧ ¬ edges.left then left + min_width else right
  let top' := if flat ∧ edges.top then bottom - min_height else top
  let bottom' := if flat ∧ ¬ edges.top then top + min_height else bottom
  let title : Int := OS_WINDOW_DECORATION_TITLE_HEIGHT.toNat
  { left := if left' < -(screen_width.toNat : Int) then -(screen_width.toNat : Int) else left'
    top := if top' < title then title else top'
    right := if screen_width.toNat * 2 < right' then screen_width.toNat * 2 else right'
    bottom := if screen_height.toNat * 2 < bottom' then screen_height.toNat * 2 else bottom' }

/-- The window after the pointer has dragged it, and whether that changed it. -/
def window_interaction_update_geometry (screen_width screen_height : U32)
    (interaction : WindowInteraction) (entry : WindowEntry) : Bool × WindowEntry :=
  if !entry.active then (false, entry)
  else
    match interaction.capture_mode, interaction.capture_region with
    | .move, _ =>
      let (x, y) := dragged_place screen_width screen_height interaction entry
      (decide (entry.x.toInt ≠ x) || decide (entry.y.toInt ≠ y),
        { entry with x := bounded_i32 x, y := bounded_i32 y })
    | .resize, region =>
      let edges := match region with
        | .resize edges => edges
        | _ => ⟨false, false, false, false⟩
      let sides := dragged_bounds screen_width screen_height interaction edges
      let width := BitVec.ofInt 32 (sides.right - sides.left)
      let height := BitVec.ofInt 32 (sides.bottom - sides.top)
      (decide (entry.x.toInt ≠ sides.left) || decide (entry.y.toInt ≠ sides.top) ||
          decide (entry.width ≠ width) || decide (entry.height ≠ height),
        { entry with
          x := bounded_i32 sides.left, y := bounded_i32 sides.top, width := width, height := height })
    | _, _ => (false, entry)

/-! ## Sizes -/

/-- One axis of a resize: where the window starts and how long it is, how far the pointer has
gone, and which of the two ends it takes along. -/
structure Drag where
  start : Int
  size : Int
  distance : Int
  near : Bool
  far : Bool

/-- The far end after the drag; a window that became too small is longer at this end unless the
near one is dragged. -/
def Drag.last (drag : Drag) (least : Int) : Int :=
  let far_end := drag.start + drag.size + if drag.far then drag.distance else 0
  if drag.near then far_end else max far_end (drag.start + least)

/-- The near end after the drag. -/
def Drag.first (drag : Drag) (least : Int) : Int :=
  if drag.near then min (drag.start + drag.distance) (drag.last least - least) else drag.start

/-- The part of the window between the clamps. -/
def Drag.extent (drag : Drag) (least low high : Int) : Int :=
  min (drag.last least) high - max (drag.first least) low

/-- The least size fits between the clamps from each end of the window inwards. -/
def Drag.Fits (drag : Drag) (least low high : Int) : Prop :=
  low + least ≤ drag.last least ∧ drag.first least + least ≤ high

instance (drag : Drag) (least low high : Int) : Decidable (drag.Fits least low high) :=
  inferInstanceAs (Decidable (_ ∧ _))

/-- The least size fits, or the extent needs more than 32 bits and its low 32 bits happen to be a
size that is not too small and not too large. -/
def Drag.Kept (drag : Drag) (least low high most : Int) : Prop :=
  let extent := drag.extent least low high
  if 0 ≤ extent ∧ extent < 2 ^ 32 then drag.Fits least low high
  else least ≤ extent % 2 ^ 32 ∧ extent % 2 ^ 32 ≤ most

section
variable {drag : Drag} {least low high most : Int}

/-- The ends that the code computes. -/
theorem drag_extent : drag.extent least low high =
    let left := if drag.near then drag.start + drag.distance else drag.start
    let right := if drag.far then drag.start + drag.size + drag.distance else drag.start + drag.size
    let left' := if right - left < least ∧ drag.near then right - least else left
    let right' := if right - left < least ∧ ¬ drag.near then left + least else right
    (if high < right' then high else right') - if left' < low then low else left' := by
  obtain ⟨start, size, distance, near, far⟩ := drag
  unfold Drag.extent Drag.first Drag.last
  cases near <;> cases far <;> grind

theorem drag_ends (hsize : least ≤ drag.size) : drag.first least + least ≤ drag.last least := by
  unfold Drag.first Drag.last
  cases drag.near <;> grind

theorem fits_iff (hsize : least ≤ drag.size) (hclamps : low + least ≤ high) :
    drag.Fits least low high ↔ least ≤ drag.extent least low high := by
  have := drag_ends hsize
  unfold Drag.Fits Drag.extent
  omega

/-- The size in 32 bits is in its bounds exactly when it is kept. -/
theorem extent_bounds {least : U32} {low high : Int} {most : Nat} (hsize : least.toNat ≤ drag.size)
    (hclamps : low + least.toNat ≤ high) (hmost : high - low ≤ most) :
    (least ≤ BitVec.ofInt 32 (drag.extent least.toNat low high) ∧
      (BitVec.ofInt 32 (drag.extent least.toNat low high)).toNat ≤ most) ↔
      drag.Kept least.toNat low high most := by
  have hfits := fits_iff hsize hclamps
  have hle : drag.extent least.toNat low high ≤ high - low := by
    unfold Drag.extent
    omega
  unfold Drag.Kept
  dsimp only
  rw [BitVec.le_def, BitVec.toNat_ofInt]
  split
  · rw [hfits]
    omega
  · omega

/-- On a screen that is not too large, with the pointer on it, no extent needs more bits. -/
theorem kept_iff_fits (extent : Nat) (hsize : least ≤ drag.size) (hclamps : low + least ≤ high)
    (hleast : 0 ≤ least) (hstart : -2 ^ 31 ≤ drag.start ∧ drag.start < 2 ^ 31)
    (hdistance : -extent < drag.distance ∧ drag.distance < extent) (hsmall : extent < 2 ^ 29)
    (hlow : low ≤ least) (hhigh : 2 * extent ≤ high) (hmost : high - low ≤ most)
    (hmost' : most ≤ 3 * extent) :
    drag.Kept least low high most ↔ drag.Fits least low high := by
  have hfits := fits_iff hsize hclamps
  have hends := drag_ends hsize
  have hfirst : drag.first least < 2 ^ 31 + extent := by
    unfold Drag.first
    split <;> omega
  have hlast : -2 ^ 31 - extent + least < drag.last least := by
    unfold Drag.last
    cases drag.near <;> cases drag.far <;> grind
  have hle : drag.extent least low high ≤ high - low ∧ -2 ^ 31 - extent ≤ drag.extent least low high := by
    unfold Drag.extent
    omega
  unfold Drag.Kept
  dsimp only
  split
  · exact Iff.rfl
  · rw [hfits]
    omega

end

/-- The two axes of a resize. -/
def WindowInteraction.drag_x (interaction : WindowInteraction) (edges : Edges) : Drag :=
  ⟨interaction.anchor_x.toInt, interaction.anchor_width.toNat,
    interaction.pointer_x.toInt - interaction.anchor_pointer_x.toInt, edges.left, edges.right⟩

def WindowInteraction.drag_y (interaction : WindowInteraction) (edges : Edges) : Drag :=
  ⟨interaction.anchor_y.toInt, interaction.anchor_height.toNat,
    interaction.pointer_y.toInt - interaction.anchor_pointer_y.toInt, edges.top, edges.bottom⟩

/-- What a resize makes of the size of a window. -/
theorem resized_size (screen_width screen_height : U32) {interaction : WindowInteraction}
    {entry : WindowEntry} {edges : Edges} (hactive : entry.active = true)
    (hmode : interaction.capture_mode = .resize) (hregion : interaction.capture_region = .resize edges) :
    let window := (window_interaction_update_geometry screen_width screen_height interaction entry).2
    window.width = BitVec.ofInt 32 ((interaction.drag_x edges).extent OS_WINDOW_MIN_WIDTH.toNat
        (-screen_width.toNat) (screen_width.toNat * 2)) ∧
      window.height = BitVec.ofInt 32 ((interaction.drag_y edges).extent OS_WINDOW_MIN_HEIGHT.toNat
        OS_WINDOW_DECORATION_TITLE_HEIGHT.toNat (screen_height.toNat * 2)) := by
  unfold window_interaction_update_geometry
  simp only [hactive, hmode, hregion, Bool.not_true, Bool.false_eq_true, if_false]
  rw [drag_extent, drag_extent]
  exact ⟨rfl, rfl⟩

/-- The window has the least size, and is at most three screens wide and two screens high. -/
def Usable (screen_width screen_height : U32) (window : WindowEntry) : Prop :=
  (OS_WINDOW_MIN_WIDTH ≤ window.width ∧ window.width.toNat ≤ 3 * screen_width.toNat) ∧
    OS_WINDOW_MIN_HEIGHT ≤ window.height ∧ window.height.toNat ≤ 2 * screen_height.toNat

/-- A position on the screen. -/
def OnScreen (screen_width screen_height x y : U32) : Prop :=
  (0 ≤ x.toInt ∧ x.toInt < screen_width.toNat) ∧ 0 ≤ y.toInt ∧ y.toInt < screen_height.toNat

/-- A screen of 800 by 600 pixels, and a window of the least size that is dragged at its right
edge from the place of the pointer. -/
def dragging (y pointer_x : U32) : WindowInteraction :=
  { window_interaction_init ⟨800, 600, 800, 0, by decide, by decide, by decide, by decide⟩ with
    capture_mode := .resize, capture_region := .resize ⟨false, true, false, false⟩
    pointer_x := pointer_x, anchor_x := 100, anchor_y := y, anchor_width := 64, anchor_height := 48 }

structure WindowInputRouter where
  focused_owner : OsProcessIdentity
  focused_window_id : U32
  focused_window_generation : U32
  focused_since_ticks : U64
  input_sequence : U32
  event_sequence : U32
deriving DecidableEq

structure WindowFocusEndpoint where
  owner : OsProcessIdentity
  window_id : U32
  window_generation : U32
  event_sequence : U32
deriving DecidableEq

def WindowFocusEndpoint.none : WindowFocusEndpoint := ⟨⟨0, 0⟩, 0, 0, 0⟩

structure WindowFocusChange where
  focus_out : WindowFocusEndpoint
  focus_in : WindowFocusEndpoint
deriving DecidableEq

def window_input_router_init : WindowInputRouter :=
  { focused_owner := ⟨0, 0⟩, focused_window_id := 0, focused_window_generation := 0
    focused_since_ticks := 0, input_sequence := 0, event_sequence := 0 }

def window_input_router_next_event (router : WindowInputRouter) : U32 × WindowInputRouter :=
  let sequence :=
    if router.event_sequence + 1 = 0 then router.event_sequence + 1 + 1 else router.event_sequence + 1
  (sequence, { router with event_sequence := sequence })

def window_input_router_is_focused (router : WindowInputRouter) (owner : OsProcessIdentity)
    (window_id window_generation : U32) : Bool :=
  identity_equal router.focused_owner owner && decide (router.focused_window_id = window_id) &&
    decide (router.focused_window_generation = window_generation)

/-- The end of the focus of the window that has it. -/
def focus_out (router : WindowInputRouter) : WindowFocusEndpoint × WindowInputRouter :=
  if router.focused_window_id = 0 then (.none, router)
  else
    let (sequence, next) := window_input_router_next_event router
    (⟨router.focused_owner, router.focused_window_id, router.focused_window_generation, sequence⟩, next)

def window_input_router_focus (router : WindowInputRouter) (owner : OsProcessIdentity)
    (window_id window_generation : U32) (focused_since_ticks : U64) :
    WindowFocusChange × WindowInputRouter :=
  if owner.pid = 0 ∨ owner.generation = 0 ∨ window_id = 0 ∨ window_generation = 0 ∨
      window_input_router_is_focused router owner window_id window_generation then
    (⟨.none, .none⟩, router)
  else
    let (out, next) := focus_out router
    let (sequence, next) := window_input_router_next_event { next with
      focused_owner := owner, focused_window_id := window_id
      focused_window_generation := window_generation, focused_since_ticks := focused_since_ticks }
    (⟨out, ⟨owner, window_id, window_generation, sequence⟩⟩, next)

def window_input_router_clear (router : WindowInputRouter) : WindowFocusChange × WindowInputRouter :=
  if router.focused_window_id = 0 then (⟨.none, .none⟩, router)
  else
    let (out, next) := focus_out router
    (⟨out, .none⟩, { next with
      focused_owner := ⟨0, 0⟩, focused_window_id := 0, focused_window_generation := 0
      focused_since_ticks := 0 })

def window_input_router_accept_input (router : WindowInputRouter) (input_sequence : U32) :
    Option WindowInputRouter :=
  if input_sequence = 0 ∨ (router.input_sequence ≠ 0 ∧ input_sequence ≤ router.input_sequence) then none
  else some { router with input_sequence := input_sequence }

end mini_kernel.windowd
