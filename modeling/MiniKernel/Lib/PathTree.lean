-- Trees given by parent links. Each node but the root has a link up: its parent and
-- its name there. A node has at most one path of names from the root and a path leads
-- to at most one node. Hanging a leaf, cutting a leaf and moving a subtree change
-- exactly the paths they name.
import Mathlib

open Function List

namespace mini_kernel.lib

universe u v

variable {ι : Type u} {α : Type v} {root i j k : ι} {up up' : ι → Option (ι × α)}
  {p q r : List α} {x y : α}

/-- The names from the root down to a node. -/
inductive Path (root : ι) (up : ι → Option (ι × α)) : List α → ι → Prop
  | root : Path root up [] root
  | step {p : List α} {i j : ι} {x : α} :
      Path root up p i → up j = some (i, x) → Path root up (p ++ [x]) j

/-- The root hangs nowhere, and two nodes do not share a name in one parent. -/
structure Named (root : ι) (up : ι → Option (ι × α)) : Prop where
  root : up root = none
  distinct : ∀ i j c, up i = some c → up j = some c → i = j

theorem path_nil : Path root up [] j ↔ j = root := by
  constructor
  · intro h
    generalize hp : ([] : List α) = p at h
    cases h with
    | root => rfl
    | step _ _ => simp at hp
  · rintro rfl
    exact .root

theorem path_snoc : Path root up (p ++ [x]) j ↔ ∃ i, Path root up p i ∧ up j = some (i, x) := by
  constructor
  · intro h
    generalize hp : p ++ [x] = r at h
    cases h with
    | root => simp at hp
    | step h hj =>
      obtain ⟨rfl, hx⟩ := append_inj' hp rfl
      simp only [cons.injEq, and_true] at hx
      subst hx
      exact ⟨_, h, hj⟩
  · rintro ⟨i, h, hj⟩
    exact h.step hj

/-- A path leads to one node. -/
theorem Path.node_unique (hn : Named root up) (hi : Path root up p i) (hj : Path root up p j) : i = j := by
  induction p using reverseRecOn generalizing i j with
  | nil => rw [path_nil.mp hi, path_nil.mp hj]
  | append_singleton p x ih =>
    obtain ⟨a, ha, hi⟩ := path_snoc.mp hi
    obtain ⟨b, hb, hj⟩ := path_snoc.mp hj
    obtain rfl := ih ha hb
    exact hn.distinct i j _ hi hj

/-- A node has one path. -/
theorem Path.unique (hn : Named root up) (hp : Path root up p i) (hq : Path root up q i) : p = q := by
  induction hp generalizing q with
  | root =>
    rcases eq_nil_or_concat' q with rfl | ⟨q, x, rfl⟩
    · rfl
    · obtain ⟨_, _, h⟩ := path_snoc.mp hq
      rw [hn.root] at h
      cases h
  | step _ hj ih =>
    rcases eq_nil_or_concat' q with rfl | ⟨q, x, rfl⟩
    · obtain rfl := path_nil.mp hq
      rw [hn.root] at hj
      cases hj
    · obtain ⟨_, hparent, h⟩ := path_snoc.mp hq
      rw [hj] at h
      simp only [Option.some.injEq, Prod.mk.injEq] at h
      obtain ⟨rfl, rfl⟩ := h
      rw [ih hparent]

/-- Every beginning of a path is a path. -/
theorem Path.initial (h : Path root up (p ++ q) j) : ∃ i, Path root up p i := by
  induction q using reverseRecOn generalizing j with
  | nil => exact ⟨j, by simpa using h⟩
  | append_singleton q x ih =>
    rw [← append_assoc] at h
    obtain ⟨i, h, _⟩ := path_snoc.mp h
    exact ih h

/-- A path through a node goes on with a child of that node. -/
theorem Path.child (h : Path root up (p ++ x :: q) j) : ∃ i k, Path root up p i ∧ up k = some (i, x) := by
  have h' : Path root up ((p ++ [x]) ++ q) j := by simpa using h
  obtain ⟨k, hk⟩ := h'.initial
  obtain ⟨i, hi, hk⟩ := path_snoc.mp hk
  exact ⟨i, k, hi, hk⟩

/-- A path has fewer names than there are nodes. -/
theorem Path.length_lt [Fintype ι] (hn : Named root up) (h : Path root up p j) :
    p.length < Fintype.card ι := by
  have hex (d : Fin (p.length + 1)) : ∃ i, Path root up (p.take d) i := by
    apply Path.initial (q := p.drop d) (j := j)
    rwa [take_append_drop]
  choose node hnode using hex
  have hinj : Function.Injective node := by
    intro a b hab
    have htake : p.take a = p.take b := (hnode a).unique hn (hab ▸ hnode b)
    have hlen := congrArg length htake
    simp only [length_take] at hlen
    apply Fin.ext
    omega
  simpa using Fintype.card_le_of_injective node hinj

/-! ## Changing one link -/

section

variable [DecidableEq ι]

/-- Hanging a node that had no place and no children gives one new path. -/
theorem path_hang (hn : Named root up) (hk : k ≠ root) (hnone : up k = none)
    (hleaf : ∀ j x, up j ≠ some (k, x)) (hq : Path root up q i) :
    Path root (update up k (some (i, x))) r j ↔ Path root up r j ∨ (j = k ∧ r = q ++ [x]) := by
  have hik : i ≠ k := by
    rintro rfl
    cases hq with
    | root => exact hk rfl
    | step _ h => simp [hnone] at h
  induction r using reverseRecOn generalizing j with
  | nil => simp [path_nil]
  | append_singleton r y ih =>
    simp only [path_snoc, ih]
    constructor
    · rintro ⟨a, ha, hj⟩
      by_cases hjk : j = k
      · subst hjk
        simp only [update_self, Option.some.injEq, Prod.mk.injEq] at hj
        obtain ⟨rfl, rfl⟩ := hj
        rcases ha with ha | ⟨ha, _⟩
        · right
          simp [ha.unique hn hq]
        · exact absurd ha hik
      · rw [update_of_ne hjk] at hj
        rcases ha with ha | ⟨rfl, _⟩
        · exact .inl ⟨a, ha, hj⟩
        · exact absurd hj (hleaf j y)
    · rintro (⟨a, ha, hj⟩ | ⟨rfl, hr⟩)
      · have hjk : j ≠ k := by
          rintro rfl
          simp [hnone] at hj
        exact ⟨a, .inl ha, by rwa [update_of_ne hjk]⟩
      · obtain ⟨rfl, hy⟩ := append_inj' hr rfl
        simp only [cons.injEq, and_true] at hy
        subst hy
        exact ⟨i, .inl hq, by simp⟩

/-- Cutting a node that has no children takes its path away and no other. -/
theorem path_cut (hk : k ≠ root) (hleaf : ∀ j x, up j ≠ some (k, x)) :
    Path root (update up k none) r j ↔ Path root up r j ∧ j ≠ k := by
  induction r using reverseRecOn generalizing j with
  | nil =>
    simp only [path_nil]
    constructor
    · rintro rfl
      exact ⟨rfl, hk.symm⟩
    · exact And.left
  | append_singleton r y ih =>
    simp only [path_snoc, ih]
    constructor
    · rintro ⟨a, ⟨ha, _⟩, hj⟩
      by_cases hjk : j = k
      · subst hjk
        simp at hj
      · rw [update_of_ne hjk] at hj
        exact ⟨⟨a, ha, hj⟩, hjk⟩
    · rintro ⟨⟨a, ha, hj⟩, hjk⟩
      refine ⟨a, ⟨ha, ?_⟩, by rwa [update_of_ne hjk]⟩
      rintro rfl
      exact hleaf j y hj

/-- Where a path of the moved tree came from: `new` and what is below it came from
`old`, `old` and what was below it is gone, and the rest stayed. -/
def Moved [DecidableEq α] (old new : List α) (was : List α → Prop) (r : List α) : Prop :=
  if new <+: r then was (old ++ r.drop new.length)
  else if old <+: r then False
  else was r

/-- A node is moved, with all that is below it, to a free name outside of itself. -/
theorem path_move [DecidableEq α] (hn : Named root up) (hk : Path root up p k) (hne : p ≠ [])
    (hq : Path root up q i) (hout : ¬ p <+: q) (hfree : ∀ j, j ≠ k → up j ≠ some (i, x)) :
    Path root (update up k (some (i, x))) r j ↔ Moved p (q ++ [x]) (Path root up · j) r := by
  induction r using reverseRecOn generalizing j with
  | nil =>
    have h1 : ¬ q ++ [x] <+: [] := by simp
    have h2 : ¬ p <+: [] := by simpa using hne
    simp [Moved, h1, h2, path_nil]
  | append_singleton r y ih =>
    -- The paths to the new parent are the same before and after.
    have hparent : Path root (update up k (some (i, x))) r i ↔ r = q := by
      rw [ih]
      unfold Moved
      split
      · rename_i hnew
        constructor
        · intro h
          exact absurd ⟨_, h.unique hn hq⟩ hout
        · rintro rfl
          simpa using hnew.length_le
      · split
        · rename_i hold
          constructor
          · exact False.elim
          · rintro rfl
            exact absurd hold hout
        · constructor
          · intro h
            exact h.unique hn hq
          · rintro rfl
            exact hq
    rw [path_snoc]
    by_cases hjk : j = k
    · subst hjk
      -- The moved node itself has the one path `q ++ [x]`.
      have hleft : (∃ a, Path root (update up j (some (i, x))) r a ∧
          update up j (some (i, x)) j = some (a, y)) ↔ r ++ [y] = q ++ [x] := by
        simp only [update_self, Option.some.injEq, Prod.mk.injEq]
        constructor
        · rintro ⟨_, ha, rfl, rfl⟩
          rw [hparent.mp ha]
        · intro h
          obtain ⟨rfl, hy⟩ := append_inj' h rfl
          simp only [cons.injEq, and_true] at hy
          exact ⟨i, hparent.mpr rfl, rfl, hy.symm⟩
      rw [hleft]
      unfold Moved
      split
      · rename_i hnew
        obtain ⟨t, ht⟩ := hnew
        rw [← ht]
        rw [drop_left]
        constructor
        · intro h
          obtain rfl : t = [] := by simpa using h
          simpa using hk
        · intro h
          simpa using h.unique hn hk
      · rename_i hnew
        have hnot : r ++ [y] ≠ q ++ [x] := fun h => hnew (h ▸ prefix_rfl)
        split
        · simp [hnot]
        · rename_i hold
          simp only [hnot, false_iff]
          intro h
          exact hold (h.unique hn hk ▸ prefix_rfl)
    · simp only [update_of_ne hjk]
      by_cases hrnew : q ++ [x] <+: r
      · -- below the new place
        have hrnew' : q ++ [x] <+: r ++ [y] := hrnew.trans (prefix_append ..)
        have hdrop : p ++ (r ++ [y]).drop (q ++ [x]).length =
            (p ++ r.drop (q ++ [x]).length) ++ [y] := by
          rw [drop_append_of_le_length hrnew.length_le, append_assoc]
        simp only [Moved, if_pos hrnew', hdrop, path_snoc, ih, if_pos hrnew]
      · by_cases hnew : q ++ [x] <+: r ++ [y]
        · -- the new place is free but for the moved node
          have heq : q ++ [x] = r ++ [y] := by
            rcases prefix_concat_iff.mp hnew with h | h
            · exact h
            · exact absurd h hrnew
          obtain ⟨rfl, hy⟩ := append_inj' heq rfl
          simp only [cons.injEq, and_true] at hy
          subst hy
          simp only [Moved, if_pos prefix_rfl, drop_length, append_nil]
          constructor
          · rintro ⟨a, ha, hj⟩
            rw [ih, Moved, if_neg hrnew, if_neg hout] at ha
            obtain rfl := ha.node_unique hn hq
            exact absurd hj (hfree j hjk)
          · intro h
            exact absurd (h.node_unique hn hk) hjk
        · simp only [Moved, if_neg hnew, ih, if_neg hrnew]
          by_cases hold : p <+: r
          · have hold' : p <+: r ++ [y] := hold.trans (prefix_append ..)
            simp [if_pos hold, if_pos hold']
          by_cases hold' : p <+: r ++ [y]
          · -- the old place is gone with the moved node
            have heq : p = r ++ [y] := by
              rcases prefix_concat_iff.mp hold' with h | h
              · exact h
              · exact absurd h hold
            simp only [if_neg hold, if_pos hold', iff_false]
            rintro ⟨a, ha, hj⟩
            have hpath : Path root up (r ++ [y]) j := ha.step hj
            exact hjk ((heq ▸ hpath).node_unique hn hk)
          · simp only [if_neg hold, if_neg hold', path_snoc]

end

end mini_kernel.lib
