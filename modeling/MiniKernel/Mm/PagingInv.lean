-- Who owns which table. A tag on a frame says which root the table belongs to and
-- by which indices it is reached. The tables of a root other than the kernel's are
-- its own, or the kernel's at the same place.
import MiniKernel.Lib.Word
import MiniKernel.Mm.PagingBits

open mini_kernel.lib mini_kernel.vm Function

namespace mini_kernel.paging

/-- The owner of a table, and the indices that lead to it, last one first. -/
abbrev Tags := Frame → Option (Frame × List Index)

/-- The invariant of the tables. -/
structure Inv (s : Vm) (roots : List Frame) (tag : Tags) : Prop where
  kernel : tag s.pml4_phys = some (s.pml4_phys, [])
  root : ∀ r ∈ roots, tag r = some (r, []) ∧ r ≠ s.pml4_phys
  top : ∀ f o, tag f = some (o, []) → f = o ∧ (o = s.pml4_phys ∨ o ∈ roots)
  frame : ∀ f x, tag f = some x → IsFrame f
  depth : ∀ f o p, tag f = some (o, p) → p.length ≤ 3
  /-- An entry above the last level is huge, or points to a table of the same
  owner or of the kernel, one index further. -/
  child : ∀ t o p i, tag t = some (o, p) → p.length < 3 → present (s.mem t i) →
    (p.length = 2 ∧ huge (s.mem t i)) ∨
    (¬ huge (s.mem t i) ∧ (tag (entry_to_table (s.mem t i)) = some (o, i :: p) ∨
      tag (entry_to_table (s.mem t i)) = some (s.pml4_phys, i :: p)))
  /-- Every table hangs in the tree of its owner. -/
  linked : ∀ f o i p, tag f = some (o, i :: p) →
    ∃ t, tag t = some (o, p) ∧ present (s.mem t i) ∧ ¬ huge (s.mem t i) ∧
      entry_to_table (s.mem t i) = f

/-- What is left to allocate: frames that are no tables yet, each once. -/
structure Fresh (supply : List Frame) (tag : Tags) : Prop where
  new : ∀ f ∈ supply, f ≠ 0 → IsFrame f ∧ tag f = none
  once : (supply.filter (· ≠ 0)).Nodup

section
variable {s s' : Vm} {roots : List Frame} {tag tag' : Tags}
  {p : List Index} {f g t r : Frame} {i : Index} {e : Entry} {n : Nat}
  {mem : Frame → Index → Entry} {virt : U64}

/-- A place in the tree of an owner has one table. -/
theorem Inv.unique (I : Inv s roots tag) {o : Frame}
    (hf : tag f = some (o, p)) (hg : tag g = some (o, p)) : f = g := by
  induction p generalizing f g with
  | nil => rw [(I.top f o hf).1, (I.top g o hg).1]
  | cons i p ih =>
    obtain ⟨t, ht, _, _, he⟩ := I.linked f o i p hf
    obtain ⟨u, hu, _, _, he'⟩ := I.linked g o i p hg
    obtain rfl := ih ht hu
    rw [← he, ← he']

theorem Vm.write_same : (s.write t i e).mem t i = e := by
  simp [Vm.write]

theorem Vm.write_other {u : Frame} {j : Index} (h : ¬ (u = t ∧ j = i)) :
    (s.write t i e).mem u j = s.mem u j := by
  simp only [Vm.write, update_apply]
  split_ifs with hu
  · subst hu
    exact update_of_ne (fun hj => h ⟨rfl, hj⟩) _ _
  · rfl

theorem Vm.write_row {u : Frame} (h : u ≠ t) : (s.write t i e).mem u = s.mem u :=
  update_of_ne h _ _

/-! ## Translation, level by level -/

/-- The index that a walk uses at a level: 3 for the root, 0 for the last table. -/
def indexAt (virt : U64) : Nat → Index
  | 0 => pt_index virt
  | 1 => pd_index virt
  | 2 => pdpt_index virt
  | _ => pml4_index virt

/-- The indices that lead to the table of a level, last one first. -/
def pathTo (virt : U64) : Nat → List Index
  | 0 => [pd_index virt, pdpt_index virt, pml4_index virt]
  | 1 => [pdpt_index virt, pml4_index virt]
  | 2 => [pml4_index virt]
  | _ => []

theorem pathTo_succ (virt : U64) (hn : n < 3) :
    pathTo virt n = indexAt virt (n + 1) :: pathTo virt (n + 1) := by
  interval_cases n <;> rfl

theorem pathTo_length (virt : U64) (hn : n ≤ 3) : (pathTo virt n).length = 3 - n := by
  interval_cases n <;> rfl

/-- What a huge entry of level 2 or 1 translates to. -/
def hugePhys (virt : U64) (e : Entry) : Nat → U64
  | 1 => (e &&& HUGE_2M_MASK) ||| (virt &&& 0x1FFFFF)
  | _ => (e &&& HUGE_1G_MASK) ||| (virt &&& 0x3FFFFFFF)

/-- The translation from a table of some level on. -/
def physAt (mem : Frame → Index → Entry) (virt : U64) : Nat → Frame → U64
  | 0, t =>
    if ¬ present (mem t (pt_index virt)) then 0
    else (mem t (pt_index virt) &&& ADDRESS_MASK) ||| (virt &&& 0xFFF)
  | n + 1, t =>
    if ¬ present (mem t (indexAt virt (n + 1))) then 0
    else if n + 1 < 3 ∧ huge (mem t (indexAt virt (n + 1))) then
      hugePhys virt (mem t (indexAt virt (n + 1))) (n + 1)
    else physAt mem virt n (entry_to_table (mem t (indexAt virt (n + 1))))

/-- Two walks that meet the same entry agree if they agree behind it. -/
theorem physAt_succ_congr {mem' : Frame → Index → Entry}
    (he : mem f (indexAt virt (n + 1)) = mem' g (indexAt virt (n + 1)))
    (hn : present (mem' g (indexAt virt (n + 1))) →
      ¬ (n + 1 < 3 ∧ huge (mem' g (indexAt virt (n + 1)))) →
      physAt mem virt n (entry_to_table (mem' g (indexAt virt (n + 1)))) =
        physAt mem' virt n (entry_to_table (mem' g (indexAt virt (n + 1))))) :
    physAt mem virt (n + 1) f = physAt mem' virt (n + 1) g := by
  simp only [physAt, he]
  split_ifs with hp hh
  · rfl
  · exact hn hp hh
  · rfl

/-- A walk goes on behind an entry that is present and not huge. -/
theorem physAt_next (hi : indexAt virt (n + 1) = i) (hp : present (mem f i)) (hh : ¬ huge (mem f i))
    (hg : entry_to_table (mem f i) = g) : physAt mem virt (n + 1) f = physAt mem virt n g := by
  subst hi hg
  simp only [physAt]
  rw [if_neg (not_not.mpr hp), if_neg fun h => hh h.2]

theorem physAt_absent (hp : ¬ present (mem f (indexAt virt n))) : physAt mem virt n f = 0 := by
  cases n with
  | zero => exact if_pos hp
  | succ n => exact if_pos hp

theorem phys_from_eq (s : Vm) (root virt : U64) : phys_from s root virt = physAt s.mem virt 3 root := by
  simp only [phys_from, physAt, indexAt, present, huge, hugePhys]
  simp

/-- A table that a walk of `r` may visit. -/
def Seen (s : Vm) (tag : Tags) (r : Frame) (f : Frame) (p : List Index) : Prop :=
  tag f = some (r, p) ∨ tag f = some (s.pml4_phys, p)

theorem Seen.tagged (h : Seen s tag r f p) : ∃ o, tag f = some (o, p) := h.elim (⟨_, ·⟩) (⟨_, ·⟩)

section
variable (I : Inv s roots tag)
include I

/-- The table behind an entry that is present and not huge is seen one index
further. -/
theorem Inv.seen_child (ht : Seen s tag r t p) (hp : p.length < 3) (he : present (s.mem t i))
    (hh : ¬ (p.length = 2 ∧ huge (s.mem t i))) : Seen s tag r (entry_to_table (s.mem t i)) (i :: p) := by
  rcases ht with ht | ht
  · exact ((I.child t r p i ht hp he).resolve_left hh).2
  · rcases ((I.child t _ p i ht hp he).resolve_left hh).2 with h | h
    · exact .inr h
    · exact .inr h

/-- Above the directories nothing is huge. -/
theorem Inv.not_huge (ht : Seen s tag r t p) (hp : p.length < 2) (he : present (s.mem t i)) :
    ¬ huge (s.mem t i) := by
  rcases ht with ht | ht
  · exact ((I.child t _ p i ht (by omega) he).resolve_left fun h => by omega).1
  · exact ((I.child t _ p i ht (by omega) he).resolve_left fun h => by omega).1

/-- `Inv.seen_child` along a walk. -/
theorem Inv.seen_next (hn : n < 3)
    (hf : Seen s tag r f (pathTo virt (n + 1))) (hp : present (s.mem f (indexAt virt (n + 1))))
    (hh : ¬ (n + 1 < 3 ∧ huge (s.mem f (indexAt virt (n + 1))))) :
    Seen s tag r (entry_to_table (s.mem f (indexAt virt (n + 1)))) (pathTo virt n) := by
  have hlen := pathTo_length virt (n := n + 1) (by omega)
  rw [pathTo_succ virt hn]
  exact I.seen_child hf (by omega) hp fun h => hh ⟨by omega, h.2⟩

/-- A walk depends on the tables it can see at its level and below. -/
theorem Inv.phys_below {L : Nat}
    (hs : ∀ f p, Seen s tag r f p → L ≤ p.length → mem f = s.mem f) (virt : U64)
    (hn : n + L ≤ 3) (hf : Seen s tag r f (pathTo virt n)) :
    physAt mem virt n f = physAt s.mem virt n f := by
  have hlen := pathTo_length virt (n := n) (by omega)
  have hrow := hs f _ hf (by omega)
  induction n generalizing f with
  | zero => simp only [physAt, hrow]
  | succ n ih =>
    apply physAt_succ_congr (congrFun hrow _)
    intro hp hh
    have hc := I.seen_next (by omega) hf hp hh
    have hlen' := pathTo_length virt (n := n) (by omega)
    exact ih (by omega) hc hlen' (hs _ _ hc (by omega))

end

/-- If one entry of one table changes, a walk meets that entry, or sees the table
of its level as it was. -/
theorem entry_cases {m : Nat} (ht : tag t = some (r, p)) (hm : p.length + m = 3)
    (hother : ∀ f x, tag f = some x → f ≠ t → mem f = s.mem f)
    (hrow : ∀ j, j ≠ i → mem t j = s.mem t j) (hn : n ≤ 3) (hf : Seen s tag r f (pathTo virt n)) :
    (n = m ∧ f = t ∧ pathTo virt m = p ∧ indexAt virt m = i) ∨
      mem f (indexAt virt n) = s.mem f (indexAt virt n) := by
  obtain ⟨o, hf⟩ := hf.tagged
  by_cases hft : f = t
  · subst hft
    obtain ⟨rfl, hp⟩ := Prod.mk.inj (Option.some.inj (hf.symm.trans ht))
    have hlen := pathTo_length virt hn
    have hnm : n = m := by
      rw [hp] at hlen
      omega
    subst hnm
    by_cases hi : indexAt virt n = i
    · exact .inl ⟨rfl, rfl, hp, hi⟩
    · exact .inr (hrow _ hi)
  · exact .inr (congrFun (hother f _ hf hft) _)

/-- If one entry changes, and the walks through it translate as before, all do. -/
theorem Inv.phys_write (I : Inv s roots tag) {moved : U64 → Prop} {m : Nat}
    (ht : tag t = some (r, p)) (hm : p.length + m = 3)
    (hother : ∀ f x, tag f = some x → f ≠ t → mem f = s.mem f) (hrow : ∀ j, j ≠ i → mem t j = s.mem t j)
    (hthrough : ∀ virt, ¬ moved virt → pathTo virt m = p → indexAt virt m = i →
      physAt mem virt m t = physAt s.mem virt m t) (hv : ¬ moved virt) (hn : n ≤ 3)
    (hf : Seen s tag r f (pathTo virt n)) : physAt mem virt n f = physAt s.mem virt n f := by
  induction n generalizing f with
  | zero =>
    rcases entry_cases ht hm hother hrow hn hf with ⟨rfl, rfl, hp, hi⟩ | hentry
    · exact hthrough virt hv hp hi
    · simp only [physAt, show mem f (pt_index virt) = s.mem f (pt_index virt) from hentry]
  | succ n ih =>
    rcases entry_cases ht hm hother hrow hn hf with ⟨rfl, rfl, hp, hi⟩ | hentry
    · exact hthrough virt hv hp hi
    · apply physAt_succ_congr hentry
      intro hp hh
      exact ih (by omega) (I.seen_next (by omega) hf hp hh)

end

end mini_kernel.paging
