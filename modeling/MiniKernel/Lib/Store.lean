-- Memory as a function from places to values: what a copy into it writes, and
-- what it leaves alone.
import Mathlib

open Function List

namespace mini_kernel.lib

section
variable {α : Type*} {m m' : Nat → α} {i j n k : Nat} {xs : List α}

/-- The `n` values from `i` on. -/
def load (m : Nat → α) (i n : Nat) : List α := (range n).map fun j => m (i + j)

/-- The memory with a list of values written from `i` on. -/
def store (m : Nat → α) (i : Nat) (xs : List α) : Nat → α :=
  fun j => if i ≤ j then xs.getD (j - i) (m j) else m j

@[simp] theorem length_load : (load m i n).length = n := by simp [load]

@[simp] theorem load_zero : load m i 0 = [] := rfl

theorem load_congr (h : ∀ j, i ≤ j → j < i + n → m j = m' j) : load m i n = load m' i n := by
  apply map_congr_left
  intro j hj
  rw [mem_range] at hj
  exact h _ (by omega) (by omega)

theorem load_add : load m i (n + k) = load m i n ++ load m (i + n) k := by
  unfold load
  rw [range_add, map_append, map_map]
  simp only [comp_def, Nat.add_assoc]

theorem take_load (h : k ≤ n) : (load m i n).take k = load m i k := by
  obtain ⟨d, rfl⟩ := Nat.exists_eq_add_of_le h
  rw [load_add, take_left' length_load]

theorem drop_load (h : k ≤ n) : (load m i n).drop k = load m (i + k) (n - k) := by
  obtain ⟨d, rfl⟩ := Nat.exists_eq_add_of_le h
  rw [load_add, drop_left' length_load, Nat.add_sub_cancel_left]

theorem store_of_lt (h : j < i) : store m i xs j = m j := if_neg (by omega)

theorem store_of_ge (h : i + xs.length ≤ j) : store m i xs j = m j := by
  unfold store
  rw [if_pos (by omega), getD_eq_default _ _ (by omega)]

theorem load_store : load (store m i xs) i xs.length = xs := by
  apply ext_getElem (by simp)
  intro j _ hj
  simp only [load, store, getElem_map, getElem_range, Nat.le_add_right, if_true,
    Nat.add_sub_cancel_left]
  rw [getD_eq_getElem _ _ hj]

/-- A load that ends before the store. -/
theorem load_store_before (h : j + n ≤ i) : load (store m i xs) j n = load m j n := by
  apply load_congr
  intro a _ ha
  exact store_of_lt (by omega)

/-- A load that starts after the store. -/
theorem load_store_after (h : i + xs.length ≤ j) : load (store m i xs) j n = load m j n := by
  apply load_congr
  intro a ha _
  exact store_of_ge (by omega)

variable {ι : Type*}

/-- A table with one entry replaced, at the entry and elsewhere. -/
@[elab_as_elim]
theorem update_cases [DecidableEq ι] {f : ι → α} {i : ι} {x : α} {P : α → Prop} (j : ι)
    (hself : j = i → P x) (hother : j ≠ i → P (f j)) : P (update f i x j) := by
  by_cases h : j = i
  · subst h
    rw [update_self]
    exact hself rfl
  · rw [update_of_ne h]
    exact hother h

/-- What the new entry has as the old one is the same everywhere. -/
theorem update_same [DecidableEq ι] {β : Type*} {t : ι → α} {i : ι} {x : α} (f : α → β)
    (h : f x = f (t i)) (j : ι) : f (update t i x j) = f (t j) := by
  refine update_cases j ?_ fun _ => rfl
  rintro rfl
  exact h

/-- At most one entry has a property, if the new entry has it alone. -/
theorem update_unique [DecidableEq ι] {f : ι → α} {i : ι} {x : α} {P : α → Prop}
    (hone : ∀ j k, P (f j) → P (f k) → j = k) (hnew : P x → ∀ j ≠ i, ¬ P (f j)) (j k : ι) :
    P (update f i x j) → P (update f i x k) → j = k := by
  refine update_cases j (fun hj => ?_) fun hj => ?_
  · refine update_cases k (fun hk _ _ => hj.trans hk.symm) fun hk hx hpk => ?_
    exact absurd hpk (hnew hx k hk)
  · refine update_cases k (fun _ hpj hx => ?_) fun _ => hone j k
    exact absurd hpj (hnew hx j hj)

/-- A loop that changes each place of a list once, by what it finds there. -/
theorem foldl_update [DecidableEq ι] (f : ι → α → α) (l : List ι) (hl : l.Nodup) (t : ι → α) (j : ι) :
    l.foldl (fun t i => update t i (f i (t i))) t j = if j ∈ l then f j (t j) else t j := by
  induction l generalizing t with
  | nil => simp
  | cons i l ih =>
    rw [nodup_cons] at hl
    rw [foldl_cons, ih hl.2]
    by_cases hj : j = i
    · subst hj
      rw [if_neg hl.1, update_self, if_pos mem_cons_self]
    · simp only [update_of_ne hj, mem_cons, hj, false_or]

end

end mini_kernel.lib
