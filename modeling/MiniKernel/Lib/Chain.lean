-- Chains in a table of links: from each node to the next, up to a mark that ends the
-- chain. A chain is the only one from its first node, and visits no node twice.
import Mathlib

open List

namespace mini_kernel.lib

section
variable {α : Type*} {node stop : α → Prop} {next next' : α → α} {a b : α} {l l' : List α}

/-- The nodes of the chain that starts at a node. -/
inductive Chain (node stop : α → Prop) (next : α → α) : α → List α → Prop
  | last {a : α} : node a → stop (next a) → Chain node stop next a [a]
  | cons {a : α} {l : List α} : node a → Chain node stop next (next a) l →
      Chain node stop next a (a :: l)

variable (h : Chain node stop next a l)
include h

theorem Chain.node_of_mem : ∀ x ∈ l, node x := by
  induction h with
  | last ha _ =>
    intro x hx
    rw [mem_singleton] at hx
    exact hx ▸ ha
  | cons ha _ ih =>
    exact forall_mem_cons.mpr ⟨ha, ih⟩

theorem Chain.head : ∃ l', l = a :: l' := by
  cases h with
  | last _ _ => exact ⟨[], rfl⟩
  | @cons _ l _ _ => exact ⟨l, rfl⟩

theorem Chain.head_mem : a ∈ l := by
  obtain ⟨l', rfl⟩ := h.head
  exact mem_cons_self

theorem Chain.next_of_mem : ∀ x ∈ l, stop (next x) ∨ node (next x) := by
  induction h with
  | last _ hs =>
    intro x hx
    rw [mem_singleton] at hx
    exact .inl (hx ▸ hs)
  | cons _ hl ih =>
    exact forall_mem_cons.mpr ⟨.inr (hl.node_of_mem _ hl.head_mem), ih⟩

/-- A chain survives in a table that agrees on its nodes. -/
theorem Chain.congr (hn : ∀ x ∈ l, next' x = next x) : Chain node stop next' a l := by
  induction h with
  | @last a ha hs => exact .last ha ((hn a mem_cons_self).symm ▸ hs)
  | @cons a l ha _ ih =>
    refine .cons ha ?_
    rw [hn a mem_cons_self]
    exact ih (forall_mem_cons.mp hn).2

/-- Each node of a chain starts a chain of its own. -/
theorem Chain.suffix (hb : b ∈ l) : ∃ l₁ l₂, l = l₁ ++ l₂ ∧ Chain node stop next b l₂ := by
  induction h with
  | @last a ha hs =>
    rw [mem_singleton] at hb
    subst hb
    exact ⟨[], [b], rfl, .last ha hs⟩
  | @cons a l ha hl ih =>
    rcases mem_cons.mp hb with rfl | hb
    · exact ⟨[], b :: l, rfl, .cons ha hl⟩
    · obtain ⟨l₁, l₂, rfl, h₂⟩ := ih hb
      exact ⟨a :: l₁, l₂, rfl, h₂⟩

section
variable (hex : ∀ x, stop x → ¬ node x)
include hex

theorem Chain.unique (h' : Chain node stop next a l') : l = l' := by
  have hstart : ∀ {x : α} {l : List α}, Chain node stop next x l → node x := fun h =>
    h.node_of_mem _ h.head_mem
  induction h generalizing l' with
  | last ha hs =>
    cases h' with
    | last _ _ => rfl
    | cons _ h₂ => exact absurd (hstart h₂) (hex _ hs)
  | cons ha h₁ ih =>
    cases h' with
    | last _ hs => exact absurd (hstart h₁) (hex _ hs)
    | cons _ h₂ => rw [ih h₂]

theorem Chain.nodup : l.Nodup := by
  induction h with
  | last _ _ => exact nodup_singleton _
  | @cons a l ha hl ih =>
    refine nodup_cons.mpr ⟨?_, ih⟩
    -- the chain from `a` would be a proper part of itself
    intro hmem
    obtain ⟨l₁, l₂, rfl, h₂⟩ := hl.suffix hmem
    have := congrArg length (h₂.unique hex (.cons ha hl))
    simp only [length_cons, length_append] at this
    omega

theorem Chain.next_ne : next a ≠ a := by
  cases h with
  | last ha hs =>
    intro he
    exact hex _ hs (he.symm ▸ ha)
  | cons ha hl =>
    intro he
    rw [he] at hl
    have := congrArg length (hl.unique hex (.cons ha (he.symm ▸ hl)))
    simp at this

/-- A node is added behind the last one. -/
theorem Chain.snoc (hb : node b)
    (hnew : b ∉ l) (hlink : ∀ z, l.getLast? = some z → next' z = b) (hend : stop (next' b))
    (hkeep : ∀ x ∈ l, l.getLast? ≠ some x → next' x = next x) : Chain node stop next' a (l ++ [b]) := by
  have hd := h.nodup hex
  induction h with
  | @last a ha hs =>
    refine .cons ha ?_
    rw [hlink a rfl]
    exact .last hb hend
  | @cons a l ha hl ih =>
    obtain ⟨c, l', rfl⟩ : ∃ c l', l = c :: l' := ⟨_, hl.head⟩
    rw [nodup_cons] at hd
    have hlast : (a :: c :: l').getLast? = (c :: l').getLast? := getLast?_cons_cons
    rw [hlast] at hlink hkeep
    refine .cons ha ?_
    rw [hkeep a mem_cons_self]
    · exact ih (fun hm => hnew (mem_cons_of_mem _ hm)) hlink
        (forall_mem_cons.mp hkeep).2 hd.2
    · intro he
      exact hd.1 (mem_of_getLast? he)

end

end

end mini_kernel.lib
