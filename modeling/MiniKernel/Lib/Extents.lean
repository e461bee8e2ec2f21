-- Extents of blocks that a store hands out and takes back. As long as an extent is
-- cut from free blocks and only a whole one comes back, what is out is apart and
-- marked, and a block that never was out is as it was.
import Mathlib

open List

namespace mini_kernel.lib

/-- Blocks in a row. -/
structure Extent where
  first : Nat
  count : Nat
deriving DecidableEq

namespace Extent

def Covers (r : Extent) (block : Nat) : Prop := r.first ≤ block ∧ block < r.first + r.count

instance (r : Extent) (block : Nat) : Decidable (r.Covers block) := inferInstanceAs (Decidable (_ ∧ _))

/-- No block in both. -/
def Apart (r t : Extent) : Prop := ∀ block, r.Covers block → ¬ t.Covers block

theorem Apart.symm {r t : Extent} (h : r.Apart t) : t.Apart r := fun block ht hr => h block hr ht

end Extent

open Extent

/-- The books over the blocks: what is out, what ever was, and the marks. -/
structure Out (used initial : Nat → Bool) (out ever : List Extent) : Prop where
  apart : out.Pairwise Apart
  marked : ∀ r ∈ out, ∀ block, r.Covers block → used block
  known : ∀ r ∈ out, r ∈ ever
  kept : ∀ block, (∀ r ∈ ever, ¬ r.Covers block) → used block = initial block

section
variable {used used' initial : Nat → Bool} {out ever : List Extent} {r : Extent}

theorem Out.start (initial : Nat → Bool) : Out initial initial [] [] :=
  ⟨.nil, fun _ h => absurd h not_mem_nil, fun _ h => absurd h not_mem_nil, fun _ _ => rfl⟩

/-- An extent of free blocks goes out. -/
theorem Out.issue (h : Out used initial out ever) (hfree : ∀ block, r.Covers block → used block = false)
    (hmark : ∀ block, used' block = (decide (r.Covers block) || used block)) :
    Out used' initial (r :: out) (r :: ever) := by
  refine ⟨?_, ?_, ?_, ?_⟩
  · rw [pairwise_cons]
    refine ⟨?_, h.apart⟩
    intro t ht block hr hblock
    have hu := h.marked t ht block hblock
    rw [hfree block hr] at hu
    cases hu
  · intro t ht block hblock
    rw [hmark]
    rcases mem_cons.mp ht with rfl | ht
    · simp [hblock]
    · simp [h.marked t ht block hblock]
  · intro t ht
    rcases mem_cons.mp ht with rfl | ht
    · exact mem_cons_self
    · exact mem_cons_of_mem _ (h.known t ht)
  · intro block hblock
    have hr : ¬ r.Covers block := hblock r mem_cons_self
    rw [hmark, h.kept block (forall_mem_cons.mp hblock).2]
    simp [hr]

/-- An extent that is out comes back. -/
theorem Out.back (h : Out used initial out ever) (hr : r ∈ out)
    (hmark : ∀ block, used' block = (!decide (r.Covers block) && used block)) :
    Out used' initial (out.erase r) ever := by
  have hperm := perm_cons_erase hr
  have hcons : (r :: out.erase r).Pairwise Apart :=
    hperm.pairwise h.apart fun hab => hab.symm
  rw [pairwise_cons] at hcons
  refine ⟨hcons.2, ?_, fun t ht => h.known t (mem_of_mem_erase ht), ?_⟩
  · intro t ht block hblock
    have hno : ¬ r.Covers block := fun hb => hcons.1 t ht block hb hblock
    rw [hmark, h.marked t (mem_of_mem_erase ht) block hblock]
    simp [hno]
  · intro block hblock
    have hno : ¬ r.Covers block := hblock r (h.known r hr)
    rw [hmark, h.kept block hblock]
    simp [hno]

end

end mini_kernel.lib
