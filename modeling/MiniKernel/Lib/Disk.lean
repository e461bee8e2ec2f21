-- Programs that read and write the blocks of a disk. `Does` says that a program returns,
-- what holds at its end, and what holds of every disk that it passes through: a crash
-- may leave any of them.
import Mathlib

open List

namespace mini_kernel.lib

section
variable {β α γ : Type}

/-- The disk after some writes, the first one first. -/
def apply_writes (d : Nat → β) (writes : List (Nat × β)) : Nat → β :=
  writes.foldl (fun d w => Function.update d w.1 w.2) d

theorem apply_writes_append (d : Nat → β) (ws vs : List (Nat × β)) :
    apply_writes d (ws ++ vs) = apply_writes (apply_writes d ws) vs := foldl_append ..

/-! ## Programs -/

/-- What a program gives on a disk, with its writes in order; nothing if it does not return. -/
def Prog (β α : Type) : Type := (Nat → β) → Option (α × List (Nat × β))

namespace Prog

def ret (a : α) : Prog β α := fun _ => some (a, [])

def seq (m : Prog β α) (f : α → Prog β γ) : Prog β γ := fun d =>
  (m d).bind fun r => (f r.1 (apply_writes d r.2)).map fun r' => (r'.1, r.2 ++ r'.2)

instance : Monad (Prog β) where
  pure := ret
  bind := seq

/-- A value computed from the disk. -/
def ask (f : (Nat → β) → Option α) : Prog β α := fun d => (f d).map fun a => (a, [])

def write (i : Nat) (b : β) : Prog β Unit := fun _ => some ((), [(i, b)])

/-- A loop that has used up its turns. -/
def diverge : Prog β α := fun _ => none

end Prog

/-! ## What programs do -/

variable {m : Prog β α} {f : α → Prog β γ} {C C' : (Nat → β) → Prop} {d : Nat → β}
  {Q Q' R : α → (Nat → β) → Prop} {S : γ → (Nat → β) → Prop}

/-- The program returns from `d`; every disk on its way satisfies `C`, the result and the
last disk satisfy `Q`. -/
def Does (m : Prog β α) (C : (Nat → β) → Prop) (Q : α → (Nat → β) → Prop) (d : Nat → β) : Prop :=
  ∃ a writes, m d = some (a, writes) ∧ (∀ n, C (apply_writes d (writes.take n))) ∧
    Q a (apply_writes d writes)

variable {a : α}

theorem Does.ret (hC : C d) (hQ : Q a d) : Does (Prog.ret a) C Q d :=
  ⟨a, [], rfl, fun n => by rw [take_nil]; exact hC, hQ⟩

theorem Does.pure (hC : C d) (hQ : Q a d) : Does (pure a : Prog β α) C Q d :=
  Does.ret hC hQ

variable {g : (Nat → β) → Option α}

theorem Does.ask (h : g d = some a) (hC : C d) (hQ : Q a d) : Does (Prog.ask g) C Q d := by
  refine ⟨a, [], ?_, fun n => by rw [take_nil]; exact hC, hQ⟩
  rw [Prog.ask, h]
  rfl

theorem Does.write {i : Nat} {b : β} {Q : Unit → (Nat → β) → Prop} (hC : C d)
    (hC' : C (Function.update d i b)) (hQ : Q () (Function.update d i b)) : Does (Prog.write i b) C Q d := by
  refine ⟨(), [(i, b)], rfl, ?_, hQ⟩
  intro n
  cases n with
  | zero => exact hC
  | succ n =>
    rw [take_succ_cons, take_nil]
    exact hC'

theorem Does.seq (hm : Does m C R d) (hf : ∀ a d', R a d' → Does (f a) C S d') : Does (m >>= f) C S d := by
  obtain ⟨a, ws, hm, hC, hR⟩ := hm
  obtain ⟨c, vs, hf, hC', hS⟩ := hf a _ hR
  refine ⟨c, ws ++ vs, ?_, ?_, ?_⟩
  · show Prog.seq m f d = _
    rw [Prog.seq, hm, Option.bind_some, hf]
    rfl
  · -- the cut is in the first part, or behind all of it
    intro n
    rw [take_append, apply_writes_append]
    by_cases hn : n ≤ ws.length
    · rw [Nat.sub_eq_zero_of_le hn, take_zero]
      exact hC n
    · rw [take_of_length_le (by omega)]
      exact hC' _
  · rw [apply_writes_append]
    exact hS

/-- The first program has one result. -/
theorem Does.seq_at {d' : Nat → β} (hm : Does m C (fun x y => x = a ∧ y = d') d)
    (hf : Does (f a) C S d') : Does (m >>= f) C S d := by
  apply hm.seq
  rintro _ _ ⟨rfl, rfl⟩
  exact hf

theorem Does.ask_seq (h : g d = some a) (hC : C d)
    (hf : Does (f a) C S d) : Does (Prog.ask g >>= f) C S d :=
  (Does.ask h hC ⟨rfl, rfl⟩).seq_at hf

/-- The last disk is one that the program passes through. -/
theorem Does.last (h : Does m C Q d) : Does m C (fun a d' => Q a d' ∧ C d') d := by
  obtain ⟨a, ws, hm, hC, hQ⟩ := h
  refine ⟨a, ws, hm, hC, hQ, ?_⟩
  have := hC ws.length
  rwa [take_length] at this

end

end mini_kernel.lib
