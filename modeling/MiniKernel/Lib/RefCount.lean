-- Reference counts. Places hold objects and every object counts the places that hold
-- it. A reference that was counted but is not stored yet, or was removed but is not
-- given back yet, is in hand.
import MiniKernel.Lib.Count

open Function List

namespace mini_kernel.lib

section
variable {ρ ι : Type*} [Fintype ρ] [DecidableEq ι]
  {holds : ρ → Option ι} {count : ι → Nat} {hand : List ι} {i : ι} {r : ρ}

/-- The number of places that hold the object. -/
def holders (holds : ρ → Option ι) (i : ι) : Nat := countOf (fun o => decide (o = some i)) holds

/-- Every count is the number of places that hold the object and of references to it
in hand. -/
def Balanced (holds : ρ → Option ι) (count : ι → Nat) (hand : List ι) : Prop :=
  ∀ i, count i = holders holds i + hand.count i

theorem Balanced.retain (h : Balanced holds count hand) (i : ι) :
    Balanced holds (update count i (count i + 1)) (i :: hand) := by
  intro j
  by_cases hj : j = i
  · subst hj
    rw [update_self, count_cons_self, h j]
    omega
  · rw [update_of_ne hj, count_cons_of_ne (Ne.symm hj)]
    exact h j

theorem Balanced.release (h : Balanced holds count (i :: hand)) :
    Balanced holds (update count i (count i - 1)) hand := by
  intro j
  have hcount := h j
  by_cases hj : j = i
  · subst hj
    rw [count_cons_self] at hcount
    rw [update_self]
    omega
  · rw [count_cons_of_ne (Ne.symm hj)] at hcount
    rw [update_of_ne hj]
    exact hcount

theorem count_toList (o : Option ι) (i : ι) : o.toList.count i = if o = some i then 1 else 0 := by
  cases o with
  | none => simp
  | some j => simp [count_singleton]

theorem holders_update [DecidableEq ρ] (holds : ρ → Option ι) (r : ρ) (o : Option ι) (i : ι) :
    holders (update holds r o) i + (holds r).toList.count i = holders holds i + o.toList.count i := by
  have h := countOf_update (fun o : Option ι => decide (o = some i)) holds r o
  simpa only [count_toList, Bool.toNat, Bool.cond_decide, holders] using h

/-- What is in hand goes to a place that held nothing. -/
theorem Balanced.store [DecidableEq ρ] {o : Option ι} (h : Balanced holds count (o.toList ++ hand))
    (hr : holds r = none) : Balanced (update holds r o) count hand := by
  intro j
  have hcount := h j
  have hupdate := holders_update holds r o j
  rw [count_append] at hcount
  rw [hr, Option.toList_none, count_nil] at hupdate
  omega

section
variable (h : Balanced holds count hand)
include h

/-- A place gives up what it holds. -/
theorem Balanced.remove [DecidableEq ρ] (r : ρ) :
    Balanced (update holds r none) count ((holds r).toList ++ hand) := by
  intro j
  have hcount := h j
  have hupdate := holders_update holds r none j
  rw [Option.toList_none, count_nil] at hupdate
  rw [count_append]
  omega

theorem Balanced.perm {hand' : List ι} (hp : hand.Perm hand') : Balanced holds count hand' := by
  intro j
  rw [← hp.count_eq]
  exact h j

theorem Balanced.pos_of_held (hr : holds r = some i) : 0 < count i := by
  have : 0 < holders holds i := countOf_pos (i := r) (by simp [hr])
  have := h i
  omega

theorem Balanced.pos_of_mem (hi : i ∈ hand) : 0 < count i := by
  have := count_pos_iff.mpr hi
  have := h i
  omega

/-- A count is bounded by the number of places and of references in hand. -/
theorem Balanced.count_le (i : ι) : count i ≤ Fintype.card ρ + hand.length := by
  have hheld : holders holds i ≤ Fintype.card ρ := Finset.card_le_univ _
  have hhand : hand.count i ≤ hand.length := count_le_length
  have := h i
  omega

end

end

end mini_kernel.lib
