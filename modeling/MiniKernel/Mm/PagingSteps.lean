-- The functions of a mapping one by one: what they allocate, privatise, split and
-- link keeps every translation, and the table they return belongs to the root.
import MiniKernel.Mm.PagingKept

open mini_kernel.vm List Function

namespace mini_kernel.paging

section
variable {s s' : Vm} {roots : List Frame} {tag : Tags} {r t : Frame} {p : List Index} {i : Index}

theorem relax_target (flags : BitVec 64) :
    entry_to_table ((relax_table_entry_for_flags s t i flags).mem t i) =
      entry_to_table (s.mem t i) := by
  unfold relax_table_entry_for_flags
  simp only
  split_ifs
  · rfl
  · rw [Vm.write_same]
    exact (relaxed_spec _ flags).2.2

/-! ## Allocation -/

variable {f table : Frame}

theorem Fresh.tail {rest : List Frame} (F : Fresh (f :: rest) tag) : Fresh rest tag where
  new g hg := F.new g (mem_cons_of_mem f hg)
  once := by
    have h := F.once
    rw [filter_cons] at h
    split_ifs at h with hf
    · exact h.of_cons
    · exact h

theorem Fresh.take {rest : List Frame} (F : Fresh (f :: rest) tag) (hf : f ≠ 0)
    (x : Frame × List Index) : Fresh rest (addTag tag f x) where
  new g hg h0 := by
    obtain ⟨h1, h2⟩ := F.tail.new g hg h0
    refine ⟨h1, ?_⟩
    rw [addTag, update_of_ne, h2]
    rintro rfl
    have h := F.once
    rw [filter_cons, if_pos (by simpa using hf)] at h
    exact (nodup_cons.mp h).1 (mem_filter.mpr ⟨hg, by simpa using hf⟩)
  once := F.tail.once

/-- No memory, or a new table of zeros. -/
theorem allocate_table_cases (F : Fresh s.supply tag) :
    ((allocate_table s).1 = 0 ∧ NoMemory s tag (allocate_table s).2) ∨
    Allocated s tag (allocate_table s).1 (fun _ => 0) (allocate_table s).2 := by
  unfold allocate_table pmm_alloc_block
  rcases hs : s.supply with _ | ⟨f, rest⟩
  · rw [hs] at F
    exact .inl ⟨rfl, rfl, rfl, by simpa [hs] using F, fun _ h => h⟩
  · rw [hs] at F
    by_cases hf : f = 0
    · subst hf
      exact .inl ⟨rfl, rfl, rfl, F.tail, fun g hg => hs ▸ mem_cons_of_mem _ hg⟩
    · obtain ⟨h1, h2⟩ := F.new f (mem_cons_self ..) hf
      simp only [hf, if_false]
      exact .inr ⟨h1, h2, hs ▸ mem_cons_self .., rfl, rfl, F.take hf,
        fun g hg => hs ▸ mem_cons_of_mem _ hg⟩

/-- Filling a table that was just allocated. -/
theorem Allocated.fill {c : Index → Entry} (A : Allocated s tag f c s')
    (d : Index → Entry) : Allocated s tag f d (s'.fill f d) :=
  { A with mem := by simp only [Vm.fill, A.mem, update_idem] }

/-- No memory, or a copy of the table. -/
theorem clone_table_cases (F : Fresh s.supply tag) {src : Frame} {x : Frame × List Index}
    (hsrc : tag src = some x) : let u := clone_table s src
    u.1 = 0 ∧ NoMemory s tag u.2 ∨ Allocated s tag u.1 (s.mem src) u.2 := by
  unfold clone_table
  simp only
  rcases allocate_table_cases F with ⟨h0, h⟩ | A
  · rw [if_pos h0]
    exact .inl ⟨rfl, h⟩
  · rw [if_neg A.frame.2]
    have hsame : (allocate_table s).2.mem src = s.mem src := by
      rw [A.mem, update_of_ne (ne_of_tagged A.new hsrc)]
    rw [hsame]
    exact .inr (A.fill _)

/-! ## The tables of a mapping -/

/-- The table behind an entry, if there is one, belongs to `r`. -/
def Own (s : Vm) (tag : Tags) (r t : Frame) (p : List Index) (i : Index) : Prop :=
  present (s.mem t i) → ¬ huge (s.mem t i) → tag (entry_to_table (s.mem t i)) = some (r, i :: p)

section
variable (I : Inv s roots tag)
include I

/-- A new empty table where there was none. -/
theorem Inv.keep_create (hr : tag r = some (r, [])) (ht : tag t = some (r, p))
    (hp : p.length < 3) (habsent : ¬ present (s.mem t i))
    (A : Allocated s tag f (fun _ => 0) s') (flags : BitVec 64) :
    Kept r roots Still s tag (s'.write t i (table_entry f flags)) (addTag tag f (r, i :: p)) := by
  have he := table_entry_spec A.frame flags
  refine I.keep_link hr ht hp A he (.inl habsent) (fun _ j hj => absurd hj not_present_zero)
    fun virt m _ _ hi => ?_
  have hzero := (A.hung (i := i) ht he).filled
  rw [physAt_absent (by rw [hzero]; exact not_present_zero), physAt_absent (by rwa [hi])]

section
variable (F : Fresh s.supply tag) (hr : tag r = some (r, [])) (ht : tag t = some (r, p))
include F hr ht

/-- A present entry of a table above the last but one is not huge, so
`get_or_create_next` returns a table of `r`, or 0 if there is no memory. -/
theorem Inv.get_or_create_next_keeps (hp : p.length < 2) (hown : Own s tag r t p i) (flags : BitVec 64) :
    let u := get_or_create_next s t i flags
    ∃ tag', Kept r roots Still s tag u.2 tag' ∧ (u.1 ≠ 0 → tag' u.1 = some (r, i :: p)) := by
  unfold get_or_create_next
  by_cases hpr : present (s.mem t i)
  · have hnh := I.not_huge (.inl ht) hp hpr
    simp only [show has (s.mem t i) VM_FLAG_PRESENT = true from hpr, if_true,
      show ¬ has (s.mem t i) VM_FLAG_HUGE = true from hnh]
    refine ⟨tag, I.keep_relax F hr ht (by omega) flags, fun _ => ?_⟩
    rw [relax_target]
    exact hown hpr hnh
  · simp only [show ¬ has (s.mem t i) VM_FLAG_PRESENT = true from hpr]
    rcases allocate_table_cases F with ⟨h0, N⟩ | A
    · rw [if_pos h0]
      exact ⟨tag, N.kept I, fun h => absurd rfl h⟩
    · rw [if_neg A.frame.2]
      exact ⟨_, I.keep_create hr ht (by omega) hpr A flags, fun _ => addTag_self⟩

/-- The last table likewise; a huge entry was split before. -/
theorem Inv.leaf_table_keeps (hp : p.length = 2)
    (hown : Own s tag r t p i) (hnh : ¬ (present (s.mem t i) ∧ huge (s.mem t i))) (flags : BitVec 64) :
    ∃ tag', Kept r roots Still s tag (leaf_table s t i flags).2 tag' ∧
      ∀ pt, (leaf_table s t i flags).1 = some pt → tag' pt = some (r, i :: p) := by
  unfold leaf_table
  by_cases hpr : present (s.mem t i)
  · simp only [show has (s.mem t i) VM_FLAG_PRESENT = true from hpr, if_true]
    refine ⟨tag, I.keep_relax F hr ht (by omega) flags, fun pt hpt => ?_⟩
    rw [relax_target] at hpt
    rw [← Option.some.inj hpt]
    exact hown hpr fun h => hnh ⟨hpr, h⟩
  · simp only [show ¬ has (s.mem t i) VM_FLAG_PRESENT = true from hpr]
    rcases allocate_table_cases F with ⟨h0, N⟩ | A
    · rw [if_pos h0]
      exact ⟨tag, N.kept I, fun _ h => by cases h⟩
    · rw [if_neg A.frame.2]
      refine ⟨_, I.keep_create hr ht (by omega) hpr A flags, fun pt hpt => ?_⟩
      rw [← Option.some.inj hpt]
      exact addTag_self

/-- The 4 KiB entries of a table that takes the place of a 2 MiB entry translate
as it did. -/
theorem Inv.split_huge_page_keeps (hp : p.length = 2) (hpr : present (s.mem t i)) (hh : huge (s.mem t i)) :
    let u := split_huge_page s t i
    ∃ tag', Kept r roots Still s tag u.2 tag' ∧
      (u.1 → Own u.2 tag' r t p i ∧ ¬ huge (u.2.mem t i)) := by
  unfold split_huge_page
  simp only [show has (s.mem t i) VM_FLAG_PRESENT = true from hpr,
    show has (s.mem t i) VM_FLAG_HUGE = true from hh, not_true_eq_false, or_self, if_false]
  rcases allocate_table_cases F with ⟨h0, N⟩ | A
  · rw [if_pos h0]
    exact ⟨tag, N.kept I, fun h => by cases h⟩
  rw [if_neg A.frame.2]
  have he := table_entry_spec A.frame (s.mem t i)
  have A := A.fill (split_entries (s.mem t i))
  refine ⟨addTag tag (allocate_table s).1 (r, i :: p), ?_, fun _ => ⟨fun _ _ => ?_, ?_⟩⟩
  · refine I.keep_link hr ht (by omega) A he (.inr (.inl hh)) (fun h => by omega)
      fun virt m hm _ hi => ?_
    obtain rfl : m = 0 := by omega
    simp only [physAt, hi, (A.hung (i := i) ht he).filled, split_entries_present hpr, hpr, hh,
      not_true_eq_false, if_false, and_true]
    rw [split_entries_phys, if_pos (by omega)]
    rfl
  · rw [Vm.write_same, he.2.2]
    exact addTag_self
  · rw [Vm.write_same]
    exact he.2.1

end

end

/-! ## Privatising -/

/-- `table` is the kernel's table at a place, or 0 if it has none there. -/
def KernelAt (s : Vm) (tag : Tags) (table : Frame) (p : List Index) : Prop :=
  tag table = some (s.pml4_phys, p) ∨ (table = 0 ∧ ∀ f, tag f ≠ some (s.pml4_phys, p))

theorem KernelAt.kept {s' : Vm} {tag' : Tags} {moved : BitVec 64 → Prop}
    (k : Kept r roots moved s tag s' tag') (hr : r ≠ s.pml4_phys) (h : KernelAt s tag table p) :
    KernelAt s' tag' table p := by
  unfold KernelAt
  rw [k.pml4]
  rcases h with h | ⟨h0, h⟩
  · exact .inl (k.grows _ _ h)
  · refine .inr ⟨h0, fun f hf => ?_⟩
    rcases k.added f _ p hf with h1 | h1
    · exact h f h1
    · exact hr h1.1.symm

section
variable (I : Inv s roots tag)
include I

/-- The kernel's table one index further hangs in the kernel's table here. -/
theorem Inv.kernel_link (h : KernelAt s tag table p) (hf : tag f = some (s.pml4_phys, i :: p)) :
    tag table = some (s.pml4_phys, p) ∧ present (s.mem table i) ∧ ¬ huge (s.mem table i) ∧
      entry_to_table (s.mem table i) = f := by
  obtain ⟨u, hu, h1, h2, h3⟩ := I.linked f _ i p hf
  rcases h with h | ⟨_, h⟩
  · obtain rfl := I.unique hu h
    exact ⟨hu, h1, h2, h3⟩
  · exact absurd hu (h u)

theorem Inv.kernel_child_at (h : KernelAt s tag table p)
    (hp : p.length < 2) : KernelAt s tag (kernel_child s table i) (i :: p) := by
  unfold kernel_child
  simp only
  split_ifs with h0 hn
  · exact .inr ⟨rfl, fun f hf => (I.frame _ _ (I.kernel_link h hf).1).2 h0⟩
  · refine .inr ⟨rfl, fun f hf => ?_⟩
    obtain ⟨_, h1, h2, _⟩ := I.kernel_link h hf
    rcases hn with hn | hn
    · exact hn h1
    · exact h2 hn
  · have ht := h.resolve_right fun h' => h0 h'.1
    have hpr : present (s.mem table i) := by
      by_contra hc
      exact hn (.inl hc)
    have hc := ((I.child table _ p i ht (by omega) hpr).resolve_left fun h' => by omega).2
    rw [or_self] at hc
    exact .inl hc

/-- A copy of a table of the kernel translates as the table does. -/
theorem Inv.keep_clone (hr : tag r = some (r, [])) (hker : r ≠ s.pml4_phys)
    (ht : tag t = some (r, p)) (hp : p.length < 3) (hpr : present (s.mem t i)) (hnh : ¬ huge (s.mem t i))
    (hsrc : tag (entry_to_table (s.mem t i)) = some (s.pml4_phys, i :: p))
    (A : Allocated s tag f (s.mem (entry_to_table (s.mem t i))) s') {e : Entry}
    (he : present e ∧ ¬ huge e ∧ entry_to_table e = f) :
    Kept r roots Still s tag (s'.write t i e) (addTag tag f (r, i :: p)) := by
  have L := A.hung (i := i) ht he
  refine I.keep_link hr ht hp A he (.inr (.inr ⟨hker, hsrc⟩)) ?_ ?_
  · intro hp2 j hj
    rcases I.child _ _ _ j hsrc (by simp only [length_cons]; omega) hj with ⟨h1, h2⟩ | ⟨h1, h2⟩
    · exact .inl ⟨by simpa using h1, h2⟩
    · rw [or_self] at h2
      exact .inr ⟨h1, h2⟩
  · intro virt m hm hpath hi
    have hbelow : ∀ g q, Seen s tag r g q → p.length + 1 ≤ q.length →
        (s'.write t i e).mem g = s.mem g := by
      intro g q hg hq
      obtain ⟨o, hg⟩ := hg.tagged
      apply L.rows g (ne_of_tagged A.new hg)
      rintro rfl
      obtain ⟨_, rfl⟩ := Prod.mk.inj (Option.some.inj (hg.symm.trans ht))
      omega
    rw [physAt_next hi hpr hnh rfl]
    cases m with
    | zero => simp only [physAt, L.filled]
    | succ m =>
      apply physAt_succ_congr (congrFun L.filled _)
      intro hp' hh'
      refine I.phys_below (r := r) hbelow virt (by omega) (I.seen_next (by omega) (.inr ?_) hp' hh')
      rw [hpath]
      exact hsrc

/-- A table of `r` that is not the kernel's is not privatised. -/
theorem Inv.own_unless_kernel (ht : tag t = some (r, p)) (hp : p.length < 3)
    (hn : tag (entry_to_table (s.mem t i)) ≠ some (s.pml4_phys, i :: p)) : Own s tag r t p i := by
  intro hpr hnh
  exact ((I.child t r p i ht hp hpr).resolve_left fun h => hnh h.2).2.resolve_right hn

/-- After `ensure_private_child` the table behind the entry is the root's own. -/
theorem Inv.ensure_private_child_keeps (F : Fresh s.supply tag)
    (hr : tag r = some (r, [])) (hker : r ≠ s.pml4_phys) (ht : tag t = some (r, p))
    (hp : p.length < 3) (hk : KernelAt s tag table p) :
    let u := ensure_private_child s t table i
    ∃ tag', Kept r roots Still s tag u.2 tag' ∧
      (u.1 → Own u.2 tag' r t p i ∧ (¬ huge (s.mem t i) → ¬ huge (u.2.mem t i))) := by
  have hkeep : (¬ ∃ f, tag f = some (s.pml4_phys, i :: p) ∧ entry_to_table (s.mem t i) = f ∧
      present (s.mem t i) ∧ ¬ huge (s.mem t i)) → Own s tag r t p i := by
    intro hn hpr hnh
    exact I.own_unless_kernel ht hp (fun h => hn ⟨_, h, rfl, hpr, hnh⟩) hpr hnh
  unfold ensure_private_child
  simp only
  by_cases h0 : table = 0
  · rw [if_pos h0]
    refine ⟨tag, Kept.refl I F, fun _ => ⟨hkeep ?_, id⟩⟩
    rintro ⟨f, hf, _⟩
    exact (I.frame _ _ (I.kernel_link hk hf).1).2 h0
  rw [if_neg h0]
  by_cases h1 : ¬ has (s.mem t i) VM_FLAG_PRESENT ∨ ¬ has (s.mem table i) VM_FLAG_PRESENT ∨
      has (s.mem t i) VM_FLAG_HUGE ∨ has (s.mem table i) VM_FLAG_HUGE
  · rw [if_pos h1]
    refine ⟨tag, Kept.refl I F, fun _ => ⟨hkeep ?_, id⟩⟩
    rintro ⟨f, hf, _, hpr, hnh⟩
    obtain ⟨_, h3, h4, _⟩ := I.kernel_link hk hf
    rcases h1 with h1 | h1 | h1 | h1
    · exact h1 hpr
    · exact h1 h3
    · exact hnh h1
    · exact h4 h1
  rw [if_neg h1]
  by_cases h2 : entry_to_phys (s.mem t i) = entry_to_phys (s.mem table i)
  swap
  · rw [if_pos h2]
    refine ⟨tag, Kept.refl I F, fun _ => ⟨hkeep ?_, id⟩⟩
    rintro ⟨f, hf, hef, _⟩
    exact h2 (hef.trans (I.kernel_link hk hf).2.2.2.symm)
  -- the table is the kernel's: a copy takes its place
  rw [if_neg (not_not.mpr h2)]
  simp only [not_or, not_not] at h1
  obtain ⟨hpr, hkpr, hnh, hknh⟩ := h1
  have htable := hk.resolve_right fun h => h0 h.1
  have hsrc := ((I.child table _ p i htable hp hkpr).resolve_left fun h => hknh h.2).2
  rw [or_self, show entry_to_table (s.mem table i) = entry_to_phys (s.mem t i) from h2.symm] at hsrc
  rcases clone_table_cases F hsrc with ⟨ha, N⟩ | A
  · rw [if_pos ha]
    exact ⟨tag, N.kept I, fun h => by cases h⟩
  · rw [if_neg A.frame.2]
    obtain ⟨hc1, hc2, hc3⟩ := clone_entry_spec A.frame (s.mem t i)
    refine ⟨_, I.keep_clone hr hker ht hp hpr hnh hsrc A
      ⟨hc1.mpr hpr, fun h => hnh (hc2.mp h), hc3⟩, fun _ => ⟨fun _ _ => ?_, fun _ => ?_⟩⟩
    · rw [Vm.write_same]
      exact hc3.symm ▸ addTag_self
    · rw [Vm.write_same]
      exact fun h => hnh (hc2.mp h)

end

end

end mini_kernel.paging
