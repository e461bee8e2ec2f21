-- Singly linked lists. A list of nodes is threaded by `next` when its head is the
-- given one, each node points to the one after it, and the last points nowhere. A
-- thread has no node twice, and a node leaves it when the one before it is joined to
-- the one after.
import Mathlib

open Function List

namespace mini_kernel.lib

universe u

variable {α : Type u} {next next' : α → Option α} {head : Option α} {a b k : α} {l l₁ l₂ : List α}

/-- `l` are the nodes from `head` on. -/
inductive Threaded (next : α → Option α) : Option α → List α → Prop
  | nil : Threaded next none []
  | cons {a : α} {l : List α} : Threaded next (next a) l → Threaded next (some a) (a :: l)

theorem threaded_nil : Threaded next head [] ↔ head = none := by
  constructor
  · intro h
    cases h
    rfl
  · rintro rfl
    exact .nil

theorem threaded_cons : Threaded next head (a :: l) ↔ head = some a ∧ Threaded next (next a) l := by
  constructor
  · intro h
    cases h with
    | cons h => exact ⟨rfl, h⟩
  · rintro ⟨rfl, h⟩
    exact .cons h

theorem Threaded.congr (h : Threaded next head l) (hn : ∀ x ∈ l, next' x = next x) :
    Threaded next' head l := by
  induction h with
  | nil => exact .nil
  | cons _ ih =>
    apply Threaded.cons
    rw [hn _ (by simp)]
    exact ih fun x hx => hn x (by simp [hx])

theorem Threaded.unique (h : Threaded next head l₁) (h' : Threaded next head l₂) : l₁ = l₂ := by
  induction h generalizing l₂ with
  | nil =>
    cases h'
    rfl
  | cons _ ih =>
    cases h' with
    | cons h' => rw [ih h']

/-- What follows a node of a thread is a thread. -/
theorem Threaded.tail (h : Threaded next head (l₁ ++ a :: l₂)) : Threaded next (next a) l₂ := by
  induction l₁ generalizing head with
  | nil => exact (threaded_cons.mp h).2
  | cons b l₁ ih => exact ih (threaded_cons.mp h).2

/-- A node that came twice would be followed by two lists of different lengths. -/
theorem Threaded.nodup (h : Threaded next head l) : l.Nodup := by
  induction h with
  | nil => exact nodup_nil
  | @cons a l h ih =>
    rw [nodup_cons]
    refine ⟨fun hmem => ?_, ih⟩
    obtain ⟨l₁, l₂, rfl⟩ := append_of_mem hmem
    have hlen := congrArg length (h.unique h.tail)
    simp only [length_append, length_cons] at hlen
    omega

section

variable [DecidableEq α]

/-- The node after `b` leaves the thread. -/
theorem Threaded.unlink (h : Threaded next head (l₁ ++ b :: k :: l₂)) :
    Threaded (update next b (next k)) head (l₁ ++ b :: l₂) := by
  induction l₁ generalizing head with
  | nil =>
    have hd := h.nodup
    obtain ⟨rfl, hb⟩ := threaded_cons.mp h
    obtain ⟨_, hk⟩ := threaded_cons.mp hb
    apply Threaded.cons
    rw [update_self]
    apply hk.congr
    intro x hx
    apply update_of_ne
    rintro rfl
    simp [hx] at hd
  | cons a l₁ ih =>
    have hd := h.nodup
    obtain ⟨rfl, ha⟩ := threaded_cons.mp h
    apply Threaded.cons
    have hne : a ≠ b := by
      rintro rfl
      simp at hd
    rw [update_of_ne hne]
    exact ih ha

/-- A node outside of the thread comes to its front. -/
theorem Threaded.push (h : Threaded next head l) (ha : a ∉ l) :
    Threaded (update next a head) (some a) (a :: l) := by
  apply Threaded.cons
  rw [update_self]
  apply h.congr
  intro x hx
  apply update_of_ne
  rintro rfl
  exact ha hx

end

end mini_kernel.lib
