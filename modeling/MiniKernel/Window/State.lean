-- The windows of windowd and their order (user/programs/windowd/window_state.c). A window is
-- known by its slot in the table; the pointers to entries of the code are slots here.
import MiniKernel.Os64

open mini_kernel.lib mini_kernel.os64

namespace mini_kernel.windowd

/-! ## Identities and rectangles -/

def identity_equal (left right : OsProcessIdentity) : Bool :=
  decide (left.pid ≠ 0) && decide (left.pid = right.pid) && decide (left.generation ≠ 0) &&
    decide (left.generation = right.generation)

/-- The four numbers are signed. -/
structure OsRect where
  x : U32
  y : U32
  width : U32
  height : U32
deriving DecidableEq

def INT32_MAX : Nat := 2 ^ 31 - 1

/-! ## Windows -/

def OS_WINDOW_MAX_WINDOWS : Nat := 12

abbrev Slot := Fin OS_WINDOW_MAX_WINDOWS

def OS_WINDOW_DECORATION_BORDER : U32 := 4
def OS_WINDOW_DECORATION_TITLE_HEIGHT : U32 := 24
def OS_WINDOW_DECORATION_BUTTON_SIZE : U32 := 18
def OS_WINDOW_MIN_WIDTH : U32 := 64
def OS_WINDOW_MIN_HEIGHT : U32 := 48

inductive Layer
  | desktop | normal | panel | system_overlay
deriving DecidableEq

def Layer.rank : Layer → Nat
  | .desktop => 0
  | .normal => 1
  | .panel => 2
  | .system_overlay => 3

/-- The place `x`, `y` is signed, the sizes are not. -/
structure WindowEntry where
  active : Bool
  window_id : U32
  window_generation : U32
  accepted_content_generation : U32
  visible : Bool
  layer : Layer
  decorated : Bool
  minimized : Bool
  maximized : Bool
  x : U32
  y : U32
  width : U32
  height : U32
  restore_x : U32
  restore_y : U32
  restore_width : U32
  restore_height : U32
  owner : OsProcessIdentity
deriving DecidableEq

/-- An entry without a window. Only its id and its generation say anything. -/
def WindowEntry.vacant (window_id window_generation : U32) : WindowEntry :=
  { active := false, window_id := window_id, window_generation := window_generation,
    accepted_content_generation := 0, visible := false, layer := .normal, decorated := false,
    minimized := false, maximized := false, x := 0, y := 0, width := 0, height := 0,
    restore_x := 0, restore_y := 0, restore_width := 0, restore_height := 0, owner := ⟨0, 0⟩ }

/-- `z_slots` is the used part of the array, the lowest window first, and `count` its length. -/
structure WindowTable where
  entries : Slot → WindowEntry
  z_slots : List Slot

def WindowTable.count (table : WindowTable) : Nat := table.z_slots.length

def WindowTable.set (table : WindowTable) (slot : Slot) (entry : WindowEntry) : WindowTable :=
  { table with entries := Function.update table.entries slot entry }

def window_state_init : WindowTable :=
  { entries := fun slot => .vacant (BitVec.ofNat 32 (slot.val + 1)) 0, z_slots := [] }

/-! ## Layers -/

def OS_WINDOW_FLAG_LAYER_DESKTOP : U32 := 1
def OS_WINDOW_FLAG_LAYER_PANEL : U32 := 2
def OS_WINDOW_FLAG_LAYER_SYSTEM_OVERLAY : U32 := 4
def OS_WINDOW_FLAG_DECORATED : U32 := 0x100
def OS_WINDOW_FLAG_LAYER_MASK : U32 :=
  OS_WINDOW_FLAG_LAYER_DESKTOP ||| OS_WINDOW_FLAG_LAYER_PANEL ||| OS_WINDOW_FLAG_LAYER_SYSTEM_OVERLAY

def window_state_layer_flags_valid (flags : U32) : Bool :=
  let selected := flags &&& OS_WINDOW_FLAG_LAYER_MASK
  decide (flags &&& ~~~(OS_WINDOW_FLAG_LAYER_MASK ||| OS_WINDOW_FLAG_DECORATED) = 0) &&
    (decide (selected = 0) || decide (selected &&& (selected - 1) = 0))

/-- The layer of valid flags. -/
def window_state_layer_from_flags (flags : U32) : Layer :=
  if flags &&& OS_WINDOW_FLAG_LAYER_DESKTOP ≠ 0 then .desktop
  else if flags &&& OS_WINDOW_FLAG_LAYER_PANEL ≠ 0 then .panel
  else if flags &&& OS_WINDOW_FLAG_LAYER_SYSTEM_OVERLAY ≠ 0 then .system_overlay
  else .normal

def window_state_accepts_focus (entry : WindowEntry) : Bool :=
  entry.active && entry.visible && decide (entry.layer ≠ .desktop)

/-! ## New windows -/

def window_state_can_create (table : WindowTable) (owner : OsProcessIdentity)
    (content_generation width height : U32) : Outcome :=
  if owner.pid = 0 ∨ owner.generation = 0 ∨ content_generation = 0 ∨ width = 0 ∨ height = 0 then
    .error OS_ERR_INVALID_ARGUMENT
  else if table.count < OS_WINDOW_MAX_WINDOWS then .ok ()
  else .error OS_ERR_NO_RESOURCES

/-- The loop that finds the place of a new window, from the top of the stack down: it stays
above the windows of its own layer and of the lower ones. -/
def insert_from_top (entries : Slot → WindowEntry) (slot : Slot) (layer : Layer) :
    List Slot → List Slot
  | [] => [slot]
  | previous_slot :: below =>
    if (entries previous_slot).layer.rank ≤ layer.rank then slot :: previous_slot :: below
    else previous_slot :: insert_from_top entries slot layer below

/-- The next generation of a slot. Zero is left out. -/
def next_generation (generation : U32) : U32 :=
  if generation + 1 = 0 then 1 else generation + 1

/-- The entry of a new window. -/
def new_entry (previous : WindowEntry) (owner : OsProcessIdentity)
    (content_generation x y width height : U32) (layer : Layer) : WindowEntry :=
  { active := true
    window_id := previous.window_id
    window_generation := next_generation previous.window_generation
    accepted_content_generation := content_generation
    visible := true, layer := layer, decorated := false, minimized := false, maximized := false
    x := x, y := y, width := width, height := height
    restore_x := x, restore_y := y, restore_width := width, restore_height := height
    owner := owner }

/-- The slot of the new window, or none. -/
def window_state_commit_create_layer (table : WindowTable) (owner : OsProcessIdentity)
    (content_generation x y width height : U32) (layer : Layer) :
    Option Slot × WindowTable :=
  match window_state_can_create table owner content_generation width height with
  | .error _ => (none, table)
  | .ok () =>
    match (List.finRange OS_WINDOW_MAX_WINDOWS).find? fun slot => !(table.entries slot).active with
    | none => (none, table)
    | some slot =>
      let created := table.set slot
        (new_entry (table.entries slot) owner content_generation x y width height layer)
      (some slot, { created with
        z_slots := (insert_from_top created.entries slot layer table.z_slots.reverse).reverse })

/-! ## Looking for windows -/

def window_state_find (table : WindowTable) (window_id window_generation : U32) :
    Option Slot :=
  if h : 0 < window_id.toNat ∧ window_id.toNat ≤ OS_WINDOW_MAX_WINDOWS ∧ window_generation ≠ 0 then
    let slot : Slot := ⟨window_id.toNat - 1, by omega⟩
    if (table.entries slot).active ∧ (table.entries slot).window_generation = window_generation then
      some slot
    else none
  else none

/-- The outcome, and the window that was found, also where the sender may not have it. -/
def window_state_validate_target (table : WindowTable) (sender : OsProcessIdentity)
    (window_id window_generation : U32) : Outcome × Option Slot :=
  match window_state_find table window_id window_generation with
  | none => (.error OS_ERR_NOT_FOUND, none)
  | some slot =>
    if identity_equal (table.entries slot).owner sender then (.ok (), some slot)
    else (.error OS_ERR_PERMISSION_DENIED, some slot)

def window_state_validate_content (table : WindowTable) (sender : OsProcessIdentity)
    (window_id window_generation content_generation : U32) : Outcome × Option Slot :=
  match window_state_validate_target table sender window_id window_generation with
  | (.ok (), some slot) =>
    if content_generation = 0 ∨
        content_generation ≤ (table.entries slot).accepted_content_generation then
      (.error OS_ERR_ALREADY_EXISTS, some slot)
    else (.ok (), some slot)
  | failed => failed

/-! ## Changes of a window -/

def window_state_commit_content (table : WindowTable) (slot : Slot)
    (content_generation : U32) : WindowTable :=
  if (table.entries slot).active then
    table.set slot { table.entries slot with accepted_content_generation := content_generation }
  else table

/-- The window goes above the windows of its layer that follow it in the stack. -/
def window_state_raise (table : WindowTable) (slot : Slot) : WindowTable :=
  if !(table.entries slot).active then table
  else
    let below := table.z_slots.takeWhile fun other => decide (other ≠ slot)
    match table.z_slots.dropWhile fun other => decide (other ≠ slot) with
    | [] => table
    | _ :: above =>
      let same := fun other => decide ((table.entries other).layer = (table.entries slot).layer)
      { table with z_slots := below ++ above.takeWhile same ++ slot :: above.dropWhile same }

def window_state_set_visible (table : WindowTable) (slot : Slot) (visible raise : Bool) :
    WindowTable :=
  let entry := table.entries slot
  if !entry.active then table
  else
    let shown := table.set slot { entry with
      visible := visible, minimized := if visible then false else entry.minimized }
    if visible && raise then window_state_raise shown slot else shown

def window_state_set_decorated (table : WindowTable) (slot : Slot) (decorated : Bool) :
    WindowTable :=
  if (table.entries slot).active then
    table.set slot { table.entries slot with decorated := decorated }
  else table

/-- The window with its decorations. -/
def window_state_frame_rect (entry : WindowEntry) : OsRect :=
  if !entry.active || decide (INT32_MAX < entry.width.toNat) ||
      decide (INT32_MAX < entry.height.toNat) then ⟨0, 0, 0, 0⟩
  else if entry.decorated then
    { x := entry.x - OS_WINDOW_DECORATION_BORDER
      y := entry.y - OS_WINDOW_DECORATION_TITLE_HEIGHT
      width := entry.width + OS_WINDOW_DECORATION_BORDER * 2
      height := entry.height + (OS_WINDOW_DECORATION_TITLE_HEIGHT + OS_WINDOW_DECORATION_BORDER) }
  else ⟨entry.x, entry.y, entry.width, entry.height⟩

def window_state_screen_rect (entry : WindowEntry) : OsRect :=
  if entry.active && decide (entry.width.toNat ≤ INT32_MAX) &&
      decide (entry.height.toNat ≤ INT32_MAX) then
    ⟨entry.x, entry.y, entry.width, entry.height⟩
  else ⟨0, 0, 0, 0⟩

def window_state_move (table : WindowTable) (slot : Slot) (x y : U32) : WindowTable :=
  if (table.entries slot).active then table.set slot { table.entries slot with x := x, y := y }
  else table

def window_state_resize (table : WindowTable) (slot : Slot) (width height : U32) :
    WindowTable :=
  if (table.entries slot).active ∧ width ≠ 0 ∧ height ≠ 0 then
    table.set slot { table.entries slot with width := width, height := height }
  else table

def window_state_destroy (table : WindowTable) (slot : Slot) : WindowTable :=
  let entry := table.entries slot
  if !entry.active then table
  else
    { table.set slot (.vacant entry.window_id entry.window_generation) with
      z_slots := table.z_slots.erase slot }

end mini_kernel.windowd
