-- Ring buffers over any type: a list kept in the slots from a head on, around the
-- end. Values are put in at the tail and taken out at any place.
import Mathlib

open Function List

namespace mini_kernel.lib

section
variable {α : Type*} {cap : Nat} [NeZero cap]

/-- The slot that is `i` places after the head. -/
def slot (cap : Nat) [NeZero cap] (head i : Nat) : Fin cap := Fin.ofNat cap (head + i)

theorem slot_inj {head i j : Nat} (hi : i < cap) (hj : j < cap)
    (h : slot cap head i = slot cap head j) : i = j := by
  have hmod : (head + i) % cap = (head + j) % cap := congrArg Fin.val h
  have hij : i % cap = j % cap := Nat.ModEq.add_left_cancel' head hmod
  rwa [Nat.mod_eq_of_lt hi, Nat.mod_eq_of_lt hj] at hij

theorem slot_next (head i : Nat) : slot cap ((head + 1) % cap) i = slot cap head (i + 1) := by
  apply Fin.ext
  show ((head + 1) % cap + i) % cap = (head + (i + 1)) % cap
  rw [Nat.mod_add_mod]
  congr 1
  omega

theorem slot_of_mod (n : Nat) : Fin.ofNat cap (n % cap) = Fin.ofNat cap n := by
  apply Fin.ext
  show n % cap % cap = n % cap
  exact Nat.mod_mod _ _

/-- The values from the head on. -/
def entries (slots : Fin cap → α) (head count : Nat) : List α :=
  (range count).map fun i => slots (slot cap head i)

/-- The loop that moves the values at the offsets from `k + 1` on one place down. -/
def shiftDown (slots : Fin cap → α) (head k count : Nat) : Fin cap → α :=
  (range' k (count - 1 - k)).foldl
    (fun slots i => update slots (slot cap head i) (slots (slot cap head (i + 1)))) slots

/-- The list `l` is in the ring, and every other slot is blank. -/
structure InRing (blank : α) (slots : Fin cap → α) (head tail count : Nat) (l : List α) : Prop where
  head_lt : head < cap
  count_eq : count = l.length
  le : l.length ≤ cap
  tail_eq : tail = (head + count) % cap
  value : ∀ i (h : i < l.length), slots (slot cap head i) = l.get ⟨i, h⟩
  rest : ∀ j, (∀ i < l.length, slot cap head i ≠ j) → slots j = blank

variable {blank x : α} {slots : Fin cap → α} {head tail count k : Nat} {l : List α}

theorem inRing_empty : InRing blank (fun _ : Fin cap => blank) 0 0 0 [] where
  head_lt := Nat.pos_of_ne_zero (NeZero.ne cap)
  count_eq := rfl
  le := Nat.zero_le _
  tail_eq := (Nat.zero_mod _).symm
  value i h := absurd h (Nat.not_lt_zero i)
  rest _ _ := rfl

theorem InRing.entries_eq (h : InRing blank slots head tail count l) : entries slots head count = l := by
  apply ext_getElem
  · simp [entries, h.count_eq]
  · intro i h1 h2
    simp only [entries, getElem_map, getElem_range]
    exact h.value i h2

theorem slot_zero {i : Nat} (hi : i < cap) : (slot cap 0 i).val = i := by
  show (0 + i) % cap = i
  rw [Nat.zero_add, Nat.mod_eq_of_lt hi]

/-- A list laid out from the first slot on. -/
theorem inRing_of_list (blank : α) (l : List α) (hl : l.length ≤ cap) :
    InRing blank (fun i : Fin cap => l.getD i blank) 0 (l.length % cap) l.length l where
  head_lt := Nat.pos_of_ne_zero (NeZero.ne cap)
  count_eq := rfl
  le := hl
  tail_eq := by rw [Nat.zero_add]
  value i hi := by
    show l.getD (slot cap 0 i).val blank = _
    rw [slot_zero (by omega)]
    simp [hi]
  rest j hj := by
    apply getD_eq_default
    by_contra hlt
    exact hj j.val (by omega) (Fin.ext (slot_zero j.isLt))

theorem InRing.tail_slot (h : InRing blank slots head tail count l) :
    Fin.ofNat cap tail = slot cap head l.length := by
  rw [h.tail_eq, h.count_eq]
  exact slot_of_mod _

theorem InRing.push (h : InRing blank slots head tail count l) (hl : l.length < cap) (x : α) :
    InRing blank (update slots (Fin.ofNat cap tail) x) head ((tail + 1) % cap) (count + 1)
      (l ++ [x]) where
  head_lt := h.head_lt
  count_eq := by simp [h.count_eq]
  le := by simpa using hl
  tail_eq := by rw [h.tail_eq, Nat.mod_add_mod, Nat.add_assoc]
  value i hi := by
    rw [length_append, length_singleton] at hi
    rw [h.tail_slot]
    rcases Nat.lt_succ_iff_lt_or_eq.mp hi with hlt | rfl
    · have hne : slot cap head i ≠ slot cap head l.length := fun he =>
        absurd (slot_inj (by omega) hl he) (by omega)
      rw [update_of_ne hne, h.value i hlt]
      simp [getElem_append_left hlt]
    · rw [update_self]
      simp
  rest j hj := by
    rw [length_append, length_singleton] at hj
    rw [h.tail_slot, update_of_ne (hj _ (Nat.lt_succ_self _)).symm]
    exact h.rest j fun i hi => hj i (by omega)

theorem InRing.pop (h : InRing blank slots head tail count (x :: l)) : slots (Fin.ofNat cap head) = x ∧
      InRing blank (update slots (Fin.ofNat cap head) blank) ((head + 1) % cap) tail (count - 1) l := by
  have hcap := h.le
  have hcount := h.count_eq
  rw [length_cons] at hcap hcount
  refine ⟨h.value 0 (Nat.succ_pos _), ?_⟩
  exact
    { head_lt := Nat.mod_lt _ (by omega)
      count_eq := by omega
      le := by omega
      tail_eq := by
        rw [h.tail_eq, Nat.mod_add_mod]
        congr 1
        omega
      value := by
        intro i hi
        rw [slot_next]
        have hne : slot cap head (i + 1) ≠ slot cap head 0 := fun he =>
          absurd (slot_inj (by omega) (by omega) he) (by omega)
        rw [show Fin.ofNat cap head = slot cap head 0 from rfl, update_of_ne hne]
        exact h.value (i + 1) (Nat.succ_lt_succ hi)
      rest := by
        intro j hj
        by_cases hjh : j = Fin.ofNat cap head
        · rw [hjh, update_self]
        rw [update_of_ne hjh]
        apply h.rest
        intro i hi
        cases i with
        | zero => exact fun he => hjh he.symm
        | succ i =>
          rw [← slot_next]
          exact hj i (Nat.lt_of_succ_lt_succ hi) }

/-- What the loop moved, after `n` of its turns. -/
theorem shift_turns (slots : Fin cap → α) (head k n i : Nat) (hi : i < cap) (hn : k + n < cap) :
    ((range' k n).foldl (fun slots i =>
        update slots (slot cap head i) (slots (slot cap head (i + 1)))) slots) (slot cap head i) =
      if k ≤ i ∧ i < k + n then slots (slot cap head (i + 1)) else slots (slot cap head i) := by
  induction n generalizing i with
  | zero => simp [show ¬ (k ≤ i ∧ i < k) by omega]
  | succ n ih =>
    rw [range'_1_concat, foldl_append, foldl_cons, foldl_nil]
    by_cases he : i = k + n
    · subst he
      rw [update_self, ih _ (by omega) (by omega), if_neg (by omega), if_pos (by omega)]
    have hne : slot cap head i ≠ slot cap head (k + n) := fun h =>
      he (slot_inj hi (by omega) h)
    rw [update_of_ne hne, ih _ hi (by omega)]
    congr 1
    simp only [eq_iff_iff]
    omega

/-- The loop changes no slot outside the queue. -/
theorem shift_outside (slots : Fin cap → α) (head k n : Nat) (j : Fin cap)
    (hj : ∀ i < k + n, slot cap head i ≠ j) : ((range' k n).foldl (fun slots i =>
        update slots (slot cap head i) (slots (slot cap head (i + 1)))) slots) j = slots j := by
  induction n with
  | zero => rfl
  | succ n ih =>
    rw [range'_1_concat, foldl_append, foldl_cons, foldl_nil,
      update_of_ne (hj _ (by omega)).symm]
    exact ih fun i hi => hj i (by omega)

theorem InRing.remove (h : InRing blank slots head tail count l) (hk : k < l.length) : InRing blank
      (update (shiftDown slots head k count) (Fin.ofNat cap ((tail + cap - 1) % cap)) blank)
      head ((tail + cap - 1) % cap) (count - 1) (l.eraseIdx k) := by
  have hlen : (l.eraseIdx k).length = l.length - 1 := length_eraseIdx_of_lt hk
  have hle := h.le
  have hcount := h.count_eq
  have htail : (tail + cap - 1) % cap = (head + (l.length - 1)) % cap := by
    rw [h.tail_eq, show (head + count) % cap + cap - 1 = (head + count) % cap + (cap - 1) by omega,
      Nat.mod_add_mod, show head + count + (cap - 1) = head + (l.length - 1) + cap by omega,
      Nat.add_mod_right]
  have hlast : Fin.ofNat cap ((tail + cap - 1) % cap) = slot cap head (l.length - 1) := by
    rw [htail]
    exact slot_of_mod _
  rw [hlast]
  exact
    { head_lt := h.head_lt
      count_eq := by rw [hlen, hcount]
      le := by omega
      tail_eq := by rw [htail, hcount]
      value := by
        intro i hi
        rw [hlen] at hi
        have hne : slot cap head i ≠ slot cap head (l.length - 1) := fun he =>
          absurd (slot_inj (by omega) (by omega) he) (by omega)
        rw [update_of_ne hne]
        unfold shiftDown
        rw [shift_turns _ _ _ _ _ (by omega) (by omega)]
        simp only [get_eq_getElem, getElem_eraseIdx]
        split_ifs with h1 h2 h2
        · omega
        · exact h.value (i + 1) (by omega)
        · exact h.value i (by omega)
        · omega
      rest := by
        intro j hj
        rw [hlen] at hj
        by_cases hjl : j = slot cap head (l.length - 1)
        · rw [hjl, update_self]
        rw [update_of_ne hjl]
        unfold shiftDown
        rw [shift_outside _ _ _ _ _ fun i hi => hj i (by omega)]
        apply h.rest
        intro i hi
        by_cases hil : i = l.length - 1
        · subst hil
          exact fun he => hjl he.symm
        · exact hj i (by omega) }

end

end mini_kernel.lib
