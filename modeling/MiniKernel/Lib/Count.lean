-- How many of finitely many parties are at a place, and how the number moves when
-- one of them goes on.
import Mathlib

open Function

namespace mini_kernel.lib

section
variable {ι α : Type*} [Fintype ι]

/-- The number of parties whose place has the property. -/
def countOf (p : α → Bool) (f : ι → α) : Nat := (Finset.univ.filter fun i => p (f i) = true).card

variable {p : α → Bool} {f : ι → α} {i : ι} {x : α}

/-- One party goes from its place to `x`. -/
theorem countOf_update [DecidableEq ι] (p : α → Bool) (f : ι → α) (i : ι) (x : α) :
    countOf p (update f i x) + (p (f i)).toNat = countOf p f + (p x).toNat := by
  have hsplit : ∀ g : ι → α, countOf p g =
      (p (g i)).toNat + ((Finset.univ.erase i).filter fun j => p (g j) = true).card := by
    intro g
    unfold countOf
    rw [← Finset.insert_erase (Finset.mem_univ i), Finset.filter_insert, Finset.erase_insert_eq_erase,
      Finset.erase_idem]
    cases hp : p (g i) with
    | false => simp
    | true =>
      rw [if_pos rfl, Finset.card_insert_of_notMem (by simp), Bool.toNat_true, Nat.add_comm]
  have hrest : ((Finset.univ.erase i).filter fun j => p (update f i x j) = true) =
      (Finset.univ.erase i).filter fun j => p (f j) = true := by
    apply Finset.filter_congr
    intro j hj
    rw [update_of_ne (Finset.ne_of_mem_erase hj)]
  rw [hsplit (update f i x), hsplit f, hrest, update_self]
  omega

theorem countOf_pos (h : p (f i)) : 0 < countOf p f :=
  Finset.card_pos.mpr ⟨i, Finset.mem_filter.mpr ⟨Finset.mem_univ i, h⟩⟩

theorem countOf_mono {q : α → Bool} {g : ι → α} (h : ∀ i, p (f i) → q (g i)) :
    countOf p f ≤ countOf q g := by
  apply Finset.card_le_card
  intro i hi
  rw [Finset.mem_filter] at hi ⊢
  exact ⟨hi.1, h i hi.2⟩

/-- One party has moved. -/
theorem countOf_moved [DecidableEq ι] (p : α → Bool) {f g : ι → α} {i : ι} (h : ∀ j ≠ i, g j = f j) :
    countOf p g + (p (f i)).toNat = countOf p f + (p (g i)).toNat := by
  have hg : g = update f i (g i) := eq_update_iff.mpr ⟨rfl, h⟩
  rw [hg, update_self]
  exact countOf_update p f i (g i)

theorem countOf_eq_zero (h : ∀ i, p (f i) = false) : countOf p f = 0 := by
  unfold countOf
  rw [Finset.card_eq_zero, Finset.filter_eq_empty_iff]
  intro i _
  rw [h i]
  decide

end

end mini_kernel.lib
