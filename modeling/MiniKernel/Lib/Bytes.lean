-- Bytes of a file, and numbers read from them in little-endian order.
import MiniKernel.Lib.Word

namespace mini_kernel.lib

/-- The byte at an offset. The callers check the size first. -/
def byteAt (image : Bytes) (i : Nat) : Nat := (image.getD i 0).toNat

/-- The number in the `n` bytes from an offset on, lowest byte first. -/
def leAt (image : Bytes) (i : Nat) : Nat → Nat
  | 0 => 0
  | n + 1 => byteAt image i + 256 * leAt image (i + 1) n

/-- The bytes of a number, lowest first. -/
def leBytes (v : Nat) : Nat → Bytes
  | 0 => []
  | n + 1 => UInt8.ofNat v :: leBytes (v / 256) n

theorem byteAt_lt (image : Bytes) (i : Nat) : byteAt image i < 256 :=
  (image.getD i 0).toNat_lt

theorem leAt_lt (image : Bytes) (i n : Nat) : leAt image i n < 256 ^ n := by
  induction n generalizing i with
  | zero => simp [leAt]
  | succ n ih =>
    have h1 := byteAt_lt image i
    have h2 := ih (i + 1)
    rw [leAt, Nat.pow_succ]
    omega

@[simp] theorem length_leBytes (v n : Nat) : (leBytes v n).length = n := by
  induction n generalizing v with
  | zero => rfl
  | succ n ih => simp [leBytes, ih]

section
variable (a b : Bytes)
include a b

theorem byteAt_append_right (i : Nat) : byteAt (a ++ b) (a.length + i) = byteAt b i := by
  unfold byteAt
  rw [List.getD_append_right _ _ _ _ (Nat.le_add_right _ _), Nat.add_sub_cancel_left]

theorem byteAt_append_left {i : Nat} (h : i < a.length) : byteAt (a ++ b) i = byteAt a i := by
  unfold byteAt
  rw [List.getD_append _ _ _ _ h]

theorem leAt_append_right (i n : Nat) : leAt (a ++ b) (a.length + i) n = leAt b i n := by
  induction n generalizing i with
  | zero => rfl
  | succ n ih => rw [leAt, leAt, byteAt_append_right, Nat.add_assoc, ih]

theorem leAt_append_left {i n : Nat} (h : i + n ≤ a.length) : leAt (a ++ b) i n = leAt a i n := by
  induction n generalizing i with
  | zero => rfl
  | succ n ih => rw [leAt, leAt, byteAt_append_left _ _ (by omega), ih (by omega)]

end

theorem leAt_leBytes (v n : Nat) : leAt (leBytes v n) 0 n = v % 256 ^ n := by
  induction n generalizing v with
  | zero => simp [leAt, Nat.mod_one]
  | succ n ih =>
    have hb : byteAt (leBytes v (n + 1)) 0 = v % 256 := by simp [byteAt, leBytes]
    have ht : leAt (leBytes v (n + 1)) (0 + 1) n = leAt (leBytes (v / 256) n) 0 n :=
      leAt_append_right [UInt8.ofNat v] (leBytes (v / 256) n) 0 n
    rw [leAt, hb, ht, ih, Nat.pow_succ, Nat.mul_comm (256 ^ n), Nat.mod_mul]

end mini_kernel.lib
