-- A loop over a list that may return before its end, and how such loops compose.
import Mathlib

namespace mini_kernel.lib

section
variable {σ ρ ι : Type}

/-- A loop over a list: it goes on with a new state, or returns. -/
def scan (visit : σ → ι → σ ⊕ ρ) : σ → List ι → σ ⊕ ρ
  | s, [] => .inl s
  | s, x :: xs =>
    match visit s x with
    | .inl s' => scan visit s' xs
    | .inr r => .inr r

/-- What the loop returned, or the value behind its end. -/
def outcome (default : ρ) : σ ⊕ ρ → ρ
  | .inl _ => default
  | .inr r => r

theorem scan_append (visit : σ → ι → σ ⊕ ρ) (s : σ) (xs ys : List ι) :
    scan visit s (xs ++ ys) = match scan visit s xs with
      | .inl s' => scan visit s' ys
      | .inr r => .inr r := by
  induction xs generalizing s with
  | nil => rfl
  | cons x xs ih =>
    simp only [List.cons_append, scan]
    cases visit s x with
    | inl s' => exact ih s'
    | inr r => rfl

/-- A loop over lists, one after the other, is one loop over all of them. -/
theorem scan_flatMap {κ : Type} (visit : σ → ι → σ ⊕ ρ) (g : κ → List ι) (s : σ) (ks : List κ) :
    scan (fun s k => scan visit s (g k)) s ks = scan visit s (ks.flatMap g) := by
  induction ks generalizing s with
  | nil => rfl
  | cons k ks ih =>
    rw [List.flatMap_cons, scan_append, scan]
    cases scan visit s (g k) with
    | inl s' => exact ih s'
    | inr r => rfl

theorem scan_congr {visit visit' : σ → ι → σ ⊕ ρ} {s : σ} {xs : List ι}
    (h : ∀ s, ∀ x ∈ xs, visit s x = visit' s x) : scan visit s xs = scan visit' s xs := by
  induction xs generalizing s with
  | nil => rfl
  | cons x xs ih =>
    rw [scan, scan, h s x List.mem_cons_self]
    cases visit' s x with
    | inl s' => exact ih fun s y hy => h s y (List.mem_cons_of_mem _ hy)
    | inr r => rfl

end

end mini_kernel.lib
