-- Doubly linked lists in a memory. The memory is a pair of functions: `next`
-- and `prev` of each address. `Linked` says that a list of addresses is threaded
-- by them, from an address before the list to an address after it.
import Mathlib

open List

namespace mini_kernel.lib

universe u

variable {α : Type u} {next prev next' prev' : α → α} {p q n a : α} {l l₁ l₂ : List α}

/-- `l` is threaded by `next` and `prev`. Its first node points back to `p`, and
its last node points on to `n`. -/
def Linked (next prev : α → α) (p : α) : List α → α → Prop
  | [], _ => True
  | a :: l, n => prev a = p ∧ next a = l.headD n ∧ Linked next prev a l n

/-- A thread survives any memory that agrees on its nodes. -/
theorem Linked.congr (h : Linked next prev p l n) (hn : ∀ x ∈ l, next' x = next x)
    (hp : ∀ x ∈ l, prev' x = prev x) : Linked next' prev' p l n := by
  induction l generalizing p with
  | nil => trivial
  | cons a l ih =>
    obtain ⟨h1, h2, h3⟩ := h
    refine ⟨by rw [hp a (by simp), h1], by rw [hn a (by simp), h2], ?_⟩
    exact ih h3 (fun x hx => hn x (by simp [hx])) (fun x hx => hp x (by simp [hx]))

theorem headD_append (l₁ l₂ : List α) (n : α) : (l₁ ++ l₂).headD n = l₁.headD (l₂.headD n) := by
  cases l₁ <;> simp

theorem getLastD_append (l₁ l₂ : List α) (p : α) : (l₁ ++ l₂).getLastD p = l₂.getLastD (l₁.getLastD p) := by
  induction l₁ generalizing p with
  | nil => simp
  | cons a l ih => rw [cons_append, getLastD_cons, getLastD_cons, ih]

/-- A thread through two lists is a thread through each, joined at the seam. -/
theorem linked_append : Linked next prev p (l₁ ++ l₂) n ↔
    Linked next prev p l₁ (l₂.headD n) ∧ Linked next prev (l₁.getLastD p) l₂ n := by
  induction l₁ generalizing p with
  | nil => simp [Linked]
  | cons a l ih =>
    simp only [cons_append, Linked, ih, headD_append, getLastD_cons]
    tauto

theorem getLastD_mem (h : l ≠ []) : l.getLastD p ∈ l := by
  rw [getLastD_eq_getLast?]
  rcases hl : l.getLast? with _ | c
  · simp [getLast?_eq_none_iff.mp hl] at h
  · exact mem_of_getLast? hl

theorem getLastD_eq (h : l ≠ []) (p q : α) : l.getLastD p = l.getLastD q := by
  cases l with
  | nil => exact absurd rfl h
  | cons a l => simp only [getLastD_cons]

theorem headD_eq (h : l ≠ []) (p q : α) : l.headD p = l.headD q := by
  cases l with
  | nil => exact absurd rfl h
  | cons a l => rfl

theorem headD_mem (h : l ≠ []) : l.headD n ∈ l := by
  cases l with
  | nil => exact absurd rfl h
  | cons a l => simp

/-- The node after the thread may change when the last node is rewritten. -/
theorem Linked.set_last (h : Linked next prev p l n) (hd : l.Nodup)
    (hlast : l ≠ [] → next' (l.getLastD p) = q) (hn : ∀ x ∈ l, x ≠ l.getLastD p → next' x = next x)
    (hp : ∀ x ∈ l, prev' x = prev x) : Linked next' prev' p l q := by
  induction l generalizing p with
  | nil => trivial
  | cons a l ih =>
    obtain ⟨h1, h2, h3⟩ := h
    rw [nodup_cons] at hd
    simp only [getLastD_cons] at hlast hn
    refine ⟨by rw [hp a (by simp), h1], ?_, ?_⟩
    · cases l with
      | nil => simpa using hlast (by simp)
      | cons b l =>
        have hne : a ≠ (b :: l).getLastD a := by
          intro he
          exact hd.1 (he ▸ getLastD_mem (by simp))
        rw [hn a (by simp) hne, h2]
        rfl
    · exact ih h3 hd.2 (fun _ => hlast (by simp)) (fun x hx => hn x (by simp [hx]))
        (fun x hx => hp x (by simp [hx]))

/-- The node before the thread may change when the first node is rewritten. -/
theorem Linked.set_head (h : Linked next prev p l n) (hd : l.Nodup)
    (hhead : l ≠ [] → prev' (l.headD n) = q) (hp : ∀ x ∈ l, x ≠ l.headD n → prev' x = prev x)
    (hn : ∀ x ∈ l, next' x = next x) : Linked next' prev' q l n := by
  cases l with
  | nil => trivial
  | cons a l =>
    obtain ⟨_, h2, h3⟩ := h
    rw [nodup_cons] at hd
    refine ⟨hhead (by simp), by rw [hn a (by simp), h2], ?_⟩
    refine h3.congr (fun x hx => hn x (by simp [hx])) (fun x hx => hp x (by simp [hx]) ?_)
    rintro rfl
    exact hd.1 hx

/-- A node leaves the thread when its neighbours are joined. -/
theorem Linked.unlink (h : Linked next prev p (l₁ ++ a :: l₂) n) (hd : (l₁ ++ a :: l₂).Nodup)
    (hlast : l₁ ≠ [] → next' (l₁.getLastD p) = next a) (hhead : l₂ ≠ [] → prev' (l₂.headD n) = prev a)
    (hn : ∀ x ∈ l₁ ++ l₂, x ∉ l₁ ∨ x ≠ l₁.getLastD p → next' x = next x)
    (hp : ∀ x ∈ l₁ ++ l₂, x ∉ l₂ ∨ x ≠ l₂.headD n → prev' x = prev x) :
    Linked next' prev' p (l₁ ++ l₂) n := by
  obtain ⟨h1, h2, h3, h4⟩ := linked_append.mp h
  rw [nodup_append, nodup_cons] at hd
  obtain ⟨hd1, ⟨_, hd2⟩, hd3⟩ := hd
  have hdis : ∀ x ∈ l₁, x ∉ l₂ := fun x hx hy => hd3 x hx x (by simp [hy]) rfl
  refine linked_append.mpr ⟨h1.set_last hd1 (fun hne => (hlast hne).trans h3) ?_ ?_,
    h4.set_head hd2 (fun hne => (hhead hne).trans h2) ?_ ?_⟩
  · exact fun x hx hne => hn x (by simp [hx]) (.inr hne)
  · exact fun x hx => hp x (by simp [hx]) (.inl (hdis x hx))
  · exact fun x hx hne => hp x (by simp [hx]) (.inr hne)
  · exact fun x hx => hn x (by simp [hx]) (.inl fun hy => hdis x hy hx)

/-- A node enters the thread at its front. -/
theorem Linked.push_front (h : Linked next prev p l n) (hd : l.Nodup)
    (ha : prev' a = p) (hb : next' a = l.headD n) (hhead : l ≠ [] → prev' (l.headD n) = a)
    (hn : ∀ x ∈ l, next' x = next x) (hp : ∀ x ∈ l, x ≠ l.headD n → prev' x = prev x) :
    Linked next' prev' p (a :: l) n :=
  ⟨ha, hb, h.set_head hd hhead hp hn⟩

/-- A node enters the thread at its back. -/
theorem Linked.push_back (h : Linked next prev p l n) (hd : l.Nodup)
    (ha : prev' a = l.getLastD p) (hb : next' a = q) (hlast : l ≠ [] → next' (l.getLastD p) = a)
    (hn : ∀ x ∈ l, x ≠ l.getLastD p → next' x = next x)
    (hp : ∀ x ∈ l, prev' x = prev x) : Linked next' prev' p (l ++ [a]) q :=
  linked_append.mpr ⟨h.set_last hd hlast hn hp, ha, hb, trivial⟩

end mini_kernel.lib
