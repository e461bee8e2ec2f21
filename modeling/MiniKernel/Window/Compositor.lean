-- Damage and composition (user/programs/windowd/window_compositor.c, and the cursor of
-- windowd_c.c). Rectangles are kept in 32 bits and computed with in more, as the code does;
-- pictures are flat buffers.
import MiniKernel.Lib.Word
import MiniKernel.Lib.Raster
import MiniKernel.Window.State

open mini_kernel.lib mini_kernel.os64

namespace mini_kernel.windowd

abbrev Pixels := Nat → U32

/-- `KERNEL_GRAPHICS_SURFACE_MAX_PIXELS`: no surface is larger. -/
def MAX_PIXELS : Nat := 1920 * 1080

/-- The display and the surface that windowd composes in. The kernel has created a surface
for it, so it is not too large. -/
structure Screen where
  width : U32
  height : U32
  stride_pixels : U32
  format : U32
  wide : 0 < width.toNat
  high : 0 < height.toNat
  rows : width.toNat ≤ stride_pixels.toNat
  fits : stride_pixels.toNat * height.toNat ≤ MAX_PIXELS

/-! ## Rectangles -/

/-- The sides of a rectangle; the right and the bottom one are outside. -/
structure Bounds where
  left : Int
  top : Int
  right : Int
  bottom : Int
deriving DecidableEq

def rect_bounds (rect : OsRect) : Option Bounds :=
  if rect.width.toInt ≤ 0 ∨ rect.height.toInt ≤ 0 then none
  else some {
    left := rect.x.toInt
    top := rect.y.toInt
    right := rect.x.toInt + rect.width.toInt
    bottom := rect.y.toInt + rect.height.toInt }

/-- The rectangle with the sides, in 32 bits. -/
def rect_of (bounds : Bounds) : OsRect :=
  { x := BitVec.ofInt 32 bounds.left
    y := BitVec.ofInt 32 bounds.top
    width := BitVec.ofInt 32 (bounds.right - bounds.left)
    height := BitVec.ofInt 32 (bounds.bottom - bounds.top) }

def INT32_MIN : Int := -2 ^ 31

def rect_clip (rect : OsRect) (clip : Bounds) : Option OsRect :=
  match rect_bounds rect with
  | none => none
  | some b =>
    let left := if b.left < clip.left then clip.left else b.left
    let top := if b.top < clip.top then clip.top else b.top
    let right := if clip.right < b.right then clip.right else b.right
    let bottom := if clip.bottom < b.bottom then clip.bottom else b.bottom
    if right ≤ left ∨ bottom ≤ top ∨ left < INT32_MIN ∨ top < INT32_MIN ∨ INT32_MAX < left ∨
        INT32_MAX < top ∨ INT32_MAX < right - left ∨ INT32_MAX < bottom - top then none
    else some (rect_of ⟨left, top, right, bottom⟩)

def rects_touch (left_rect right_rect : OsRect) : Bool :=
  match rect_bounds left_rect, rect_bounds right_rect with
  | some a, some b =>
    decide (a.left ≤ b.right) && decide (b.left ≤ a.right) && decide (a.top ≤ b.bottom) &&
      decide (b.top ≤ a.bottom)
  | _, _ => false

/-- Only used for rectangles that touch, which have bounds. -/
def rect_union (a b : OsRect) : OsRect :=
  match rect_bounds a, rect_bounds b with
  | some a, some b =>
    rect_of {
      left := if a.left < b.left then a.left else b.left
      top := if a.top < b.top then a.top else b.top
      right := if b.right < a.right then a.right else b.right
      bottom := if b.bottom < a.bottom then a.bottom else b.bottom }
  | _, _ => a

/-! ## Damage -/

def WINDOW_SCREEN_DAMAGE_MAX_RECTS : Nat := 64

/-- The used part of the array of rectangles. -/
structure WindowDamageAccumulator where
  rects : List OsRect
  full_screen : Bool
deriving DecidableEq

def window_damage_reset : WindowDamageAccumulator := { rects := [], full_screen := false }

def Screen.bounds (screen : Screen) : Bounds := ⟨0, 0, screen.width.toNat, screen.height.toNat⟩

/-- The screen is never wider or higher than INT32_MAX. -/
def window_damage_full (screen : Screen) : WindowDamageAccumulator :=
  { rects := [⟨0, 0, screen.width, screen.height⟩], full_screen := true }

/-- The inner loop: every other rectangle that touches rectangle `i` goes into it, and the
last rectangle takes its place. -/
def merge_touching : Nat → List OsRect → Nat → Nat → List OsRect
  | 0, rects, _, _ => rects
  | turns + 1, rects, i, j =>
    match rects[i]?, rects[j]? with
    | some merged, some other =>
      if j = i ∨ rects_touch merged other = false then merge_touching turns rects i (j + 1)
      else
        let widened := rects.set i (rect_union merged other)
        let moved := (widened.set j (widened.getD (widened.length - 1) other)).dropLast
        merge_touching turns moved (if i = moved.length then j else i) j
    | _, _ => rects

def window_damage_add_screen (screen : Screen) (damage : WindowDamageAccumulator) (rect : OsRect) :
    WindowDamageAccumulator :=
  if damage.full_screen then damage
  else
    match rect_clip rect screen.bounds with
    | none => damage
    | some clipped =>
      match damage.rects.findIdx? fun other => rects_touch other clipped with
      | some i =>
        let widened := damage.rects.modify i fun other => rect_union other clipped
        { damage with rects := merge_touching damage.rects.length widened i 0 }
      | none =>
        if WINDOW_SCREEN_DAMAGE_MAX_RECTS ≤ damage.rects.length then window_damage_full screen
        else { damage with rects := damage.rects ++ [clipped] }

/-- Damage in the coordinates of a window's surface. -/
def window_damage_add_window (screen : Screen) (damage : WindowDamageAccumulator)
    (window : WindowEntry) (surface_rect : OsRect) : Except Failure WindowDamageAccumulator :=
  if !window.active || decide (INT32_MAX < window.width.toNat) ||
      decide (INT32_MAX < window.height.toNat) then .error OS_ERR_INVALID_ARGUMENT
  else
    match rect_clip surface_rect ⟨0, 0, window.width.toNat, window.height.toNat⟩ with
    | none => .ok damage
    | some inside =>
      let screen_x := window.x.toInt + inside.x.toInt
      let screen_y := window.y.toInt + inside.y.toInt
      if screen_x < INT32_MIN ∨ INT32_MAX < screen_x ∨ screen_y < INT32_MIN ∨ INT32_MAX < screen_y then
        .ok damage
      else
        .ok (window_damage_add_screen screen damage
          ⟨BitVec.ofInt 32 screen_x, BitVec.ofInt 32 screen_y, inside.width, inside.height⟩)

/-! ## Drawing -/

def OPAQUE_MASK : U32 := 0x00FFFFFF

def OS_RGB (red green blue : U32) : U32 :=
  ((red &&& 0xFF) <<< 16) ||| ((green &&& 0xFF) <<< 8) ||| (blue &&& 0xFF)

/-- `destination + (uint32_t)y * stride + (uint32_t)x`. -/
def row_start (stride : U32) (x y : U32) : Nat := (y * stride).toNat + x.toNat

/-- The loops over the rows and columns of a rectangle. -/
def draw_rect (destination : Pixels) (stride : U32) (rect : OsRect)
    (value : Nat → Nat → U32) : Pixels :=
  drawRows value (fun row => row_start stride rect.x (rect.y + BitVec.ofNat 32 row))
    rect.width.toInt.toNat rect.height.toInt.toNat destination

def fill_rect (destination : Pixels) (stride : U32) (rect : OsRect) (color : U32) :
    Pixels :=
  draw_rect destination stride rect fun _ _ => color &&& OPAQUE_MASK

def fill_intersection (destination : Pixels) (stride : U32) (rect clip : OsRect)
    (color : U32) : Pixels :=
  match rect_bounds clip with
  | none => destination
  | some bounds =>
    match rect_clip rect bounds with
    | none => destination
    | some result => fill_rect destination stride result color

/-- The rectangles that `draw_decorations` fills, in its order, with their colors. -/
def decorations (window : WindowEntry) : List (OsRect × U32) :=
  let frame := window_state_frame_rect window
  let size := OS_WINDOW_DECORATION_BUTTON_SIZE
  let top := window.y - OS_WINDOW_DECORATION_TITLE_HEIGHT + 3
  let right := window.x + window.width - 3
  [(frame, OS_RGB 35 40 52),
    (⟨window.x, frame.y, window.width, OS_WINDOW_DECORATION_TITLE_HEIGHT⟩, OS_RGB 48 78 128),
    (⟨right - size * 3 - 4, top, size, size⟩, OS_RGB 90 108 132),
    (⟨right - size * 2 - 2, top, size, size⟩, OS_RGB 74 132 94),
    (⟨right - size, top, size, size⟩, OS_RGB 190 66 72)]

def draw_decorations (destination : Pixels) (stride : U32) (window : WindowEntry)
    (dirty : OsRect) : Pixels :=
  if !window.decorated then destination
  else
    (decorations window).foldl (fun picture (rect, color) =>
      fill_intersection picture stride rect dirty color) destination

/-- The surface of a window: the address of its pixels, and its layout. -/
structure WindowCompositorSource where
  pixels : Nat
  stride_pixels : U32
  width : U32
  height : U32
deriving DecidableEq

def WindowCompositorSource.none : WindowCompositorSource := ⟨0, 0, 0, 0⟩

/-- What is at the addresses of the surfaces. -/
abbrev Memory := Nat → Pixels

/-- Where a row or a column of a window is in its surface. -/
def sample (offset : Int) (source_extent window_extent : U32) : Nat :=
  let scaled := offset.toNat * source_extent.toNat / window_extent.toNat % 2 ^ 32
  if source_extent.toNat ≤ scaled then source_extent.toNat - 1 else scaled

/-- The pixel of a window at a point of the screen. -/
def source_pixel (memory : Memory) (window : WindowEntry) (source : WindowCompositorSource)
    (x y : Int) : U32 :=
  let source_y := sample (y - window.y.toInt) source.height window.height
  let source_x := sample (x - window.x.toInt) source.width window.width
  memory source.pixels (source_y * source.stride_pixels.toNat % 2 ^ 32 + source_x) &&& OPAQUE_MASK

/-- The window has a surface that can be shown. -/
def usable (window : WindowEntry) (source : WindowCompositorSource) : Bool :=
  window.active && window.visible && decide (source.pixels ≠ 0) && decide (source.width ≠ 0) &&
    decide (source.height ≠ 0) && decide (source.width ≤ source.stride_pixels)

/-- One turn of `draw_window_stack`. -/
def draw_window (memory : Memory) (stride : U32) (window : WindowEntry)
    (source : WindowCompositorSource) (dirty : OsRect) (destination : Pixels) : Pixels :=
  if !usable window source then destination
  else
    let decorated := draw_decorations destination stride window dirty
    let window_rect := window_state_screen_rect window
    let left := max dirty.x.toInt window_rect.x.toInt
    let top := max dirty.y.toInt window_rect.y.toInt
    let right := min (dirty.x.toInt + dirty.width.toInt) (window_rect.x.toInt + window_rect.width.toInt)
    let bottom :=
      min (dirty.y.toInt + dirty.height.toInt) (window_rect.y.toInt + window_rect.height.toInt)
    if right ≤ left ∨ bottom ≤ top then decorated
    else
      drawRows (fun row column => source_pixel memory window source (left + column) (top + row))
        (fun row => row_start stride (BitVec.ofInt 32 left) (BitVec.ofInt 32 (top + row)))
        (right - left).toNat (bottom - top).toNat decorated

def draw_window_stack (memory : Memory) (stride : U32) (table : WindowTable)
    (sources : Slot → WindowCompositorSource) (dirty : OsRect) (destination : Pixels) : Pixels :=
  table.z_slots.foldl (fun picture slot =>
    draw_window memory stride (table.entries slot) (sources slot) dirty picture) destination

/-- The background of a rectangle: the console. -/
def draw_underlay (memory : Memory) (stride : U32) (underlay : WindowCompositorSource)
    (dirty : OsRect) (destination : Pixels) : Pixels :=
  draw_rect destination stride dirty fun row column =>
    memory underlay.pixels
      (row_start underlay.stride_pixels dirty.x (dirty.y + BitVec.ofNat 32 row) + column) &&& OPAQUE_MASK

/-- One turn of `window_compositor_compose_underlay`. -/
def compose_rect (memory : Memory) (screen : Screen) (underlay : WindowCompositorSource)
    (table : WindowTable) (sources : Slot → WindowCompositorSource) (destination : Pixels)
    (rect : OsRect) : Pixels :=
  match rect_clip rect screen.bounds with
  | none => destination
  | some dirty =>
    draw_window_stack memory screen.stride_pixels table sources dirty
      (draw_underlay memory screen.stride_pixels underlay dirty destination)

def window_compositor_compose_underlay (memory : Memory) (screen : Screen)
    (underlay : WindowCompositorSource) (table : WindowTable)
    (sources : Slot → WindowCompositorSource) (damage : WindowDamageAccumulator)
    (destination : Pixels) : Except Failure Pixels :=
  if underlay.pixels = 0 ∨ underlay.stride_pixels < screen.width then .error OS_ERR_INVALID_ARGUMENT
  else .ok (damage.rects.foldl (compose_rect memory screen underlay table sources) destination)

/-- The result of the code's function is not used. -/
def window_compositor_copy_full (memory : Memory) (screen : Screen) (pixels : Nat)
    (source_stride : U32) (destination : Pixels) : Pixels :=
  if source_stride < screen.width then destination
  else
    drawRows (fun row column => memory pixels ((BitVec.ofNat 32 row * source_stride).toNat + column) &&& OPAQUE_MASK)
      (fun row => (BitVec.ofNat 32 row * screen.stride_pixels).toNat) screen.width.toNat screen.height.toNat
      destination

/-! ## The cursor -/

def WINDOW_CURSOR_WIDTH : Nat := 12
def WINDOW_CURSOR_HEIGHT : Nat := 18

/-- The bits of the cursor's rows, the left pixel lowest, and which of them are light. -/
def cursor_rows : Fin WINDOW_CURSOR_HEIGHT → BitVec 16 :=
  ![0x001, 0x003, 0x007, 0x00F, 0x01F, 0x03F, 0x07F, 0x0FF, 0x1FF, 0x3FF, 0x7FF, 0x0FF,
    0x19B, 0x319, 0x610, 0xC10, 0x800, 0x000]

def cursor_fill : Fin WINDOW_CURSOR_HEIGHT → BitVec 16 :=
  ![0x000, 0x001, 0x003, 0x007, 0x00F, 0x01F, 0x03F, 0x07F, 0x0FF, 0x1FF, 0x07E, 0x066,
    0x042, 0x210, 0x410, 0x000, 0x000, 0x000]

/-- The pixel of the cursor at a place in its rectangle, if it has one there. -/
def cursor_pixel (column : Fin WINDOW_CURSOR_WIDTH) (row : Fin WINDOW_CURSOR_HEIGHT) :
    Option U32 :=
  if (cursor_rows row).getLsbD column.val then
    some (if (cursor_fill row).getLsbD column.val then OS_RGB 245 248 252 else OS_RGB 8 10 14)
  else none

def cursor_rect (pointer_x pointer_y : U32) : OsRect :=
  ⟨pointer_x, pointer_y, BitVec.ofNat 32 WINDOW_CURSOR_WIDTH, BitVec.ofNat 32 WINDOW_CURSOR_HEIGHT⟩

/-- One turn of the loops of `draw_cursor`. -/
def draw_cursor_pixel (screen : Screen) (pointer_x pointer_y : U32) (destination : Pixels)
    (place : Fin WINDOW_CURSOR_HEIGHT × Fin WINDOW_CURSOR_WIDTH) : Pixels :=
  let sy := (pointer_y + BitVec.ofNat 32 place.1.val).toInt
  let sx := (pointer_x + BitVec.ofNat 32 place.2.val).toInt
  if sy < 0 ∨ (screen.height.toNat : Int) ≤ sy ∨ sx < 0 ∨ (screen.width.toNat : Int) ≤ sx then destination
  else
    match cursor_pixel place.2 place.1 with
    | none => destination
    | some color =>
      Function.update destination
        (row_start screen.stride_pixels (BitVec.ofInt 32 sx) (BitVec.ofInt 32 sy)) color

def draw_cursor (screen : Screen) (pointer_x pointer_y : U32) (destination : Pixels) : Pixels :=
  ((List.finRange WINDOW_CURSOR_HEIGHT).product (List.finRange WINDOW_CURSOR_WIDTH)).foldl
    (draw_cursor_pixel screen pointer_x pointer_y) destination

end mini_kernel.windowd
