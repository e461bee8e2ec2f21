-- Pictures in a flat buffer: loops over the rows and the columns of a rectangle, and the
-- pixels that they leave.
import Mathlib

namespace mini_kernel.lib

section
variable {α : Type*}

/-- The first `width` pixels of a row that begins at `start`. -/
def drawRow (value : Nat → α) (start : Nat) : Nat → (Nat → α) → Nat → α
  | 0, buffer => buffer
  | width + 1, buffer => Function.update (drawRow value start width buffer) (start + width) (value width)

/-- The first `height` rows, each one `width` pixels long. Row `r` begins at `start r`. -/
def drawRows (value : Nat → Nat → α) (start : Nat → Nat) (width : Nat) :
    Nat → (Nat → α) → Nat → α
  | 0, buffer => buffer
  | height + 1, buffer =>
    drawRow (value height) (start height) width (drawRows value start width height buffer)

end

end mini_kernel.lib
