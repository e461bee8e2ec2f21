-- Pieces laid end to end over a range. A piece in the middle may be cut or replaced
-- by pieces of the same length, every place of the range lies in exactly one piece, and
-- when no two neighbours are of a kind, the pieces of that kind are at most one more than
-- the others.
import Mathlib

open List

namespace mini_kernel.lib

universe u

variable {α : Type u} {pos len : α → Nat} {l l₁ l₂ m m' : List α} {a b e n : Nat} {x y : α}

/-- The pieces of `l` lie end to end from `a` to `e`. -/
def Laid (pos len : α → Nat) : Nat → List α → Nat → Prop
  | a, [], e => a = e
  | a, x :: l, e => pos x = a ∧ Laid pos len (a + len x) l e

theorem laid_append : Laid pos len a (l₁ ++ l₂) e ↔ ∃ b, Laid pos len a l₁ b ∧ Laid pos len b l₂ e := by
  induction l₁ generalizing a with
  | nil => simp [Laid]
  | cons x l ih => simp only [cons_append, Laid, ih, and_assoc, exists_and_left]

theorem Laid.le (h : Laid pos len a l e) : a ≤ e := by
  induction l generalizing a with
  | nil => exact Nat.le_of_eq h
  | cons x l ih =>
    have hrest := ih h.2
    omega

theorem Laid.bounds (h : Laid pos len a l e) (hx : x ∈ l) : a ≤ pos x ∧ pos x + len x ≤ e := by
  induction l generalizing a with
  | nil => simp at hx
  | cons y l ih =>
    obtain ⟨hpos, hrest⟩ := h
    rcases mem_cons.mp hx with rfl | hx
    · have hle := hrest.le
      omega
    · have hle := ih hrest hx
      omega

/-- A piece ends before the pieces after it begin. -/
theorem Laid.pairwise (h : Laid pos len a l e) : l.Pairwise fun x y => pos x + len x ≤ pos y := by
  induction l generalizing a with
  | nil => exact .nil
  | cons x l ih =>
    obtain ⟨hpos, hrest⟩ := h
    rw [pairwise_cons]
    refine ⟨?_, ih hrest⟩
    intro y hy
    have hle := (hrest.bounds hy).1
    omega

/-- Where the piece in the middle of the others lies. -/
theorem Laid.around (h : Laid pos len a (l₁ ++ x :: l₂) e) :
    Laid pos len a l₁ (pos x) ∧ Laid pos len (pos x + len x) l₂ e := by
  obtain ⟨b, h₁, h₂⟩ := laid_append.mp h
  obtain ⟨rfl, h₂⟩ := h₂
  exact ⟨h₁, h₂⟩

/-- Some pieces give way to others over the same range. -/
theorem Laid.replace (h : Laid pos len a (l₁ ++ (m ++ l₂)) e)
    (hm : ∀ b c, Laid pos len b m c → Laid pos len b m' c) : Laid pos len a (l₁ ++ (m' ++ l₂)) e := by
  obtain ⟨b, h₁, h₂⟩ := laid_append.mp h
  obtain ⟨c, h₂, h₃⟩ := laid_append.mp h₂
  exact laid_append.mpr ⟨b, h₁, laid_append.mpr ⟨c, hm b c h₂, h₃⟩⟩

/-- The place `n` lies in the piece. -/
def Inside (pos len : α → Nat) (n : Nat) (x : α) : Prop := pos x ≤ n ∧ n < pos x + len x

instance : DecidablePred (Inside pos len n) := fun _ => inferInstanceAs (Decidable (_ ∧ _))

/-- Each place of the range lies in exactly one piece. -/
theorem Laid.count_inside (h : Laid pos len a l e) (ha : a ≤ n) (he : n < e) :
    l.countP (fun x => decide (Inside pos len n x)) = 1 := by
  induction l generalizing a with
  | nil =>
    have heq : a = e := h
    omega
  | cons x l ih =>
    obtain ⟨hpos, hrest⟩ := h
    rw [countP_cons]
    by_cases hn : n < a + len x
    · have hx : Inside pos len n x := ⟨by omega, by omega⟩
      have hnone : l.countP (fun x => decide (Inside pos len n x)) = 0 := by
        rw [countP_eq_zero]
        intro y hy
        have hle := (hrest.bounds hy).1
        have hy : ¬ Inside pos len n y := by
          rintro ⟨hge, _⟩
          omega
        simpa using hy
      simp [hnone, hx]
    · have hx : ¬ Inside pos len n x := by
        rintro ⟨_, hlt⟩
        omega
      simp [hx, ih hrest (by omega)]

/-! ## Pieces of two kinds -/

section

variable {p : α → Bool}

/-- No two neighbours are of the kind `p`. -/
def Alternate (p : α → Bool) (l : List α) : Prop := l.IsChain fun x y => ¬ (p x ∧ p y)

theorem alternate_append : Alternate p (l₁ ++ l₂) ↔ Alternate p l₁ ∧ Alternate p l₂ ∧
    ∀ x ∈ l₁.getLast?, ∀ y ∈ l₂.head?, ¬ (p x ∧ p y) := by
  unfold Alternate
  rw [isChain_append]

theorem Alternate.count_le_head (h : Alternate p (x :: l)) :
    (x :: l).countP p ≤ (x :: l).countP (fun y => !p y) + (p x).toNat := by
  induction l generalizing x with
  | nil => cases hx : p x <;> simp [hx]
  | cons y l ih =>
    obtain ⟨hxy, hrest⟩ := isChain_cons_cons.mp h
    have hle := ih hrest
    rw [countP_cons, countP_cons (l := y :: l)]
    cases hx : p x
    · have hy : (p y).toNat ≤ 1 := Bool.toNat_le (p y)
      simp only [Bool.false_eq_true, if_false, Bool.not_false, if_true, Bool.toNat_false]
      omega
    · have hy : p y = false := by simpa [hx] using hxy
      simp only [hy, Bool.toNat_false] at hle
      simp only [if_true, Bool.not_true, Bool.false_eq_true, if_false, Bool.toNat_true]
      omega

/-- The kind `p` has at most one piece more than the other. -/
theorem Alternate.count_le (h : Alternate p l) : l.countP p ≤ l.countP (fun y => !p y) + 1 := by
  cases l with
  | nil => simp
  | cons x l =>
    have hle := h.count_le_head
    have hx := Bool.toNat_le (p x)
    omega

/-- When the last piece is of the other kind, it has no more. -/
theorem Alternate.count_le_last (h : Alternate p l) (hlast : ∀ x ∈ l.getLast?, p x = false) :
    l.countP p ≤ l.countP (fun y => !p y) := by
  rcases eq_nil_or_concat' l with rfl | ⟨l, x, rfl⟩
  · simp
  · have hx : p x = false := hlast x (by simp)
    have hle := (alternate_append.mp h).1.count_le
    simp only [countP_append, countP_singleton, hx]
    simp
    omega

end

end mini_kernel.lib
