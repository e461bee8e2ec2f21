-- Machine words as natural numbers. Arithmetic that may leave the width of its
-- word is wrapped where it happens.
import Mathlib

namespace mini_kernel.lib

abbrev U32 := BitVec 32
abbrev U64 := BitVec 64
abbrev Bytes := List UInt8
abbrev Memory := Nat → UInt8

/-- The low 32 bits. -/
def u32 (n : Nat) : Nat := n % 2 ^ 32

/-- The low 64 bits. -/
def u64 (n : Nat) : Nat := n % 2 ^ 64

theorem u32_of_lt {n : Nat} (h : n < 2 ^ 32) : u32 n = n := Nat.mod_eq_of_lt h

theorem u64_of_lt {n : Nat} (h : n < 2 ^ 64) : u64 n = n := Nat.mod_eq_of_lt h

/-- `value & ~(align - 1)` for an alignment that is a power of two: the mask
drops the remainder. -/
def align_down (value align : Nat) : Nat := value - value % align

/-- `(value + align - 1) & ~(align - 1)`, in 64 bits. -/
def align_up (value align : Nat) : Nat := align_down (u64 (value + align - 1)) align

theorem align_down_le (value align : Nat) : align_down value align ≤ value := by
  unfold align_down; omega

theorem align_down_mod (value align : Nat) : align_down value align % align = 0 := by
  unfold align_down
  exact Nat.sub_mod_eq_zero_of_mod_eq (Nat.mod_mod _ _).symm

/-- The least multiple of the alignment that is not below the value. -/
theorem align_up_spec (value align : Nat) (ha : 0 < align) (h : value + align ≤ 2 ^ 64) :
    value ≤ align_up value align ∧ align_up value align < value + align ∧
      align_up value align % align = 0 := by
  have hw : u64 (value + align - 1) = value + align - 1 := u64_of_lt (by omega)
  refine ⟨?_, ?_, align_down_mod _ _⟩
  · unfold align_up align_down
    rw [hw]
    have := Nat.mod_lt (value + align - 1) ha
    omega
  · have := align_down_le (u64 (value + align - 1)) align
    unfold align_up
    omega

theorem eq_false_of_imp {a b : Bool} (h : a → b) (hb : b = false) : a = false :=
  Bool.eq_false_iff.mpr (mt h (Bool.eq_false_iff.mp hb))

/-! ## Two numbers in one word -/

theorem pack_low {bits high low : Nat} (h : low < 2 ^ bits) :
    ((high <<< bits) ||| low) &&& (2 ^ bits - 1) = low := by
  rw [← Nat.shiftLeft_add_eq_or_of_lt h, Nat.and_two_pow_sub_one_eq_mod, Nat.shiftLeft_eq,
    Nat.mul_add_mod_self_right, Nat.mod_eq_of_lt h]

theorem pack_high {bits high low : Nat} (h : low < 2 ^ bits) : ((high <<< bits) ||| low) >>> bits = high := by
  rw [← Nat.shiftLeft_add_eq_or_of_lt h, Nat.shiftRight_eq_div_pow, Nat.shiftLeft_eq,
    Nat.add_comm, Nat.add_mul_div_right _ _ (Nat.two_pow_pos bits), Nat.div_eq_of_lt h, Nat.zero_add]

/-- The two parts make up the word again. -/
theorem pack_parts (bits word : Nat) : ((word >>> bits) <<< bits) ||| (word &&& (2 ^ bits - 1)) = word := by
  have h : word &&& (2 ^ bits - 1) < 2 ^ bits := by
    rw [Nat.and_two_pow_sub_one_eq_mod]
    exact Nat.mod_lt _ (Nat.two_pow_pos bits)
  rw [← Nat.shiftLeft_add_eq_or_of_lt h, Nat.and_two_pow_sub_one_eq_mod, Nat.shiftLeft_eq,
    Nat.shiftRight_eq_div_pow, Nat.div_add_mod']

end mini_kernel.lib
