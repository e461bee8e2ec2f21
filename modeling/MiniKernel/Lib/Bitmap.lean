-- Bitmaps in bytes, eight bits a byte: what setting and clearing one bit does to
-- every bit, and to the number of clear ones.
import MiniKernel.Lib.Count

open Function

namespace mini_kernel.lib

/-- The bytes of a bitmap. -/
abbrev Bitmap : Type := Nat → BitVec 8

namespace Bitmap

/-- `1 << (bit % 8)` in a byte. -/
def mask (bit : Nat) : BitVec 8 := 1#8 <<< (bit % 8)

def set (m : Bitmap) (bit : Nat) : Bitmap := update m (bit / 8) (m (bit / 8) ||| mask bit)

def unset (m : Bitmap) (bit : Nat) : Bitmap :=
  update m (bit / 8) (m (bit / 8) &&& ~~~mask bit)

def test (m : Bitmap) (bit : Nat) : Bool := m (bit / 8) &&& mask bit != 0

/-! ## The bits -/

theorem getLsbD_mask (bit i : Nat) : (mask bit).getLsbD i = decide (i = bit % 8) := by
  have hlt : bit % 8 < 8 := Nat.mod_lt _ (by omega)
  unfold mask
  rw [BitVec.getLsbD_shiftLeft, BitVec.getLsbD_one]
  by_cases hi : i = bit % 8
  · subst hi
    simp [hlt]
  · by_cases hb : i < bit % 8
    · simp [hb, hi]
    · have hne : i - bit % 8 ≠ 0 := by omega
      simp [hne, hi]

theorem test_eq (m : Bitmap) (bit : Nat) : m.test bit = (m (bit / 8)).getLsbD (bit % 8) := by
  have hlt : bit % 8 < 8 := Nat.mod_lt _ (by omega)
  cases hb : (m (bit / 8)).getLsbD (bit % 8) with
  | true =>
    have hne : m (bit / 8) &&& mask bit ≠ 0 := by
      intro h
      have := congrArg (fun x => BitVec.getLsbD x (bit % 8)) h
      simp [getLsbD_mask, hb] at this
    simp only [test, bne_iff_ne]
    exact hne
  | false =>
    have heq : m (bit / 8) &&& mask bit = 0 := by
      apply BitVec.eq_of_getLsbD_eq
      intro i hi
      by_cases h : i = bit % 8
      · subst h
        simp [hb]
      · simp [getLsbD_mask, h]
    simp [test, heq]

/-- Two bits in one byte are told apart by their place in it. -/
private theorem same_bit {bit other : Nat} (h : other / 8 = bit / 8) :
    other % 8 = bit % 8 ↔ other = bit := by omega

@[simp] theorem test_set (m : Bitmap) (bit other : Nat) :
    (m.set bit).test other = (decide (other = bit) || m.test other) := by
  rw [test_eq, test_eq]
  unfold set
  by_cases h : other / 8 = bit / 8
  · rw [h, update_self, BitVec.getLsbD_or, getLsbD_mask, Bool.or_comm]
    simp only [same_bit h]
  · have hne : other ≠ bit := fun heq => h (by rw [heq])
    rw [update_of_ne h]
    simp [hne]

@[simp] theorem test_unset (m : Bitmap) (bit other : Nat) :
    (m.unset bit).test other = (!decide (other = bit) && m.test other) := by
  have hlt : other % 8 < 8 := Nat.mod_lt _ (by omega)
  rw [test_eq, test_eq]
  unfold unset
  by_cases h : other / 8 = bit / 8
  · rw [h, update_self, BitVec.getLsbD_and, BitVec.getLsbD_not, getLsbD_mask, Bool.and_comm]
    simp only [same_bit h, hlt, decide_true, Bool.true_and]
  · have hne : other ≠ bit := fun heq => h (by rw [heq])
    rw [update_of_ne h]
    simp [hne]

/-- Every bit of the first `bytes` bytes. -/
def fill (m : Bitmap) (bytes : Nat) : Bitmap := fun i => if i < bytes then 0xFF#8 else m i

theorem test_fill (m : Bitmap) {bytes bit : Nat} (h : bit / 8 < bytes) : (m.fill bytes).test bit := by
  have hlt : bit % 8 < 8 := Nat.mod_lt _ (by omega)
  rw [test_eq]
  simp only [fill, h, if_true]
  generalize bit % 8 = place at hlt
  decide +revert

/-! ## The clear ones -/

/-- The number of clear bits among the first `n`. -/
def clear (m : Bitmap) (n : Nat) : Nat := countOf not fun i : Fin n => m.test i

section
variable {m : Bitmap} {n bit : Nat}

/-- One bit is changed. -/
private theorem clear_moved (m m' : Bitmap) (h : bit < n)
    (hm : ∀ other, other ≠ bit → m'.test other = m.test other) :
    m'.clear n + (!m.test bit).toNat = m.clear n + (!m'.test bit).toNat := by
  have hmoved : ∀ i : Fin n, i ≠ ⟨bit, h⟩ → m'.test i = m.test i :=
    fun i hi => hm i fun heq => hi (Fin.ext heq)
  exact countOf_moved not hmoved

theorem clear_set (h : bit < n) (hb : m.test bit = false) : (m.set bit).clear n + 1 = m.clear n := by
  simpa [hb] using clear_moved m (m.set bit) h fun other ho => by simp [ho]

theorem clear_unset (h : bit < n) (hb : m.test bit) : (m.unset bit).clear n = m.clear n + 1 := by
  simpa [hb] using clear_moved m (m.unset bit) h fun other ho => by simp [ho]

theorem clear_eq_zero_iff : m.clear n = 0 ↔ ∀ bit, bit < n → m.test bit := by
  constructor
  · intro h bit hbit
    cases hb : m.test bit with
    | true => rfl
    | false =>
      have : 0 < m.clear n := by
        apply countOf_pos (i := (⟨bit, hbit⟩ : Fin n))
        simp [hb]
      omega
  · intro h
    apply countOf_eq_zero
    intro i
    simp [h i i.isLt]

theorem clear_le (m : Bitmap) (n : Nat) : m.clear n ≤ n := by
  unfold clear countOf
  apply (Finset.card_filter_le _ _).trans
  rw [Finset.card_univ, Fintype.card_fin]

/-- A run of clear bits is no longer than the number of clear bits. -/
theorem le_clear {first count : Nat} (hn : first + count ≤ n)
    (h : ∀ bit, first ≤ bit → bit < first + count → m.test bit = false) : count ≤ m.clear n := by
  have hinj : Function.Injective fun k : Fin count => (⟨first + k, by omega⟩ : Fin n) := by
    intro a b hab
    simp only [Fin.mk.injEq] at hab
    omega
  have hsub : Finset.univ.map ⟨_, hinj⟩ ⊆ Finset.univ.filter fun i : Fin n => (!m.test i) = true := by
    intro i hi
    simp only [Finset.mem_map, Finset.mem_univ, Function.Embedding.coeFn_mk, true_and] at hi
    obtain ⟨k, rfl⟩ := hi
    simp [h (first + k) (by omega) (by omega)]
  calc count = (Finset.univ.map ⟨_, hinj⟩ : Finset (Fin n)).card := by simp
    _ ≤ m.clear n := Finset.card_le_card hsub

end

end Bitmap

end mini_kernel.lib
