-- The functions of the page tables as wholes: a mapping, an unmapping and a new
-- root keep the invariant, and a mapping moves one page of one root.
import MiniKernel.Lib.Word
import MiniKernel.Mm.PagingSteps

open mini_kernel.lib mini_kernel.vm

namespace mini_kernel.paging

section
variable {s s' : Vm} {roots : List Frame} {tag : Tags} {r t : Frame} {p : List Index} {i : Index}

/-- The page of an address, as the walk sees it: bits 12 to 47. -/
def page (virt : U64) : BitVec 36 := (virt >>> 12).setWidth 36

/-- Nine bits of an address are nine bits of its page. -/
theorem index_of_page (v : U64) (k : Nat) (hk : k + 9 ≤ 36) :
    (v >>> (12 + k)).setWidth 9 = (page v >>> k).setWidth 9 := by
  refine BitVec.eq_of_getLsbD_eq fun i hi => ?_
  simp only [page, BitVec.getLsbD_setWidth, BitVec.getLsbD_ushiftRight, hi,
    show k + i < 36 by omega, decide_true, Bool.true_and, Nat.add_assoc]

theorem page_eq_iff (v w : U64) :
    page v = page w ↔ pathTo v 0 = pathTo w 0 ∧ pt_index v = pt_index w := by
  constructor
  · intro h
    have hs : ∀ k, k + 9 ≤ 36 → (v >>> (12 + k)).setWidth 9 = (w >>> (12 + k)).setWidth 9 := by
      intro k hk
      rw [index_of_page v k hk, index_of_page w k hk, h]
    have h0 : pt_index v = pt_index w := hs 0 (by omega)
    have h1 : pd_index v = pd_index w := hs 9 (by omega)
    have h2 : pdpt_index v = pdpt_index w := hs 18 (by omega)
    have h3 : pml4_index v = pml4_index w := hs 27 (by omega)
    exact ⟨by simp only [pathTo, h1, h2, h3], h0⟩
  · rintro ⟨h1, h2⟩
    simp only [pathTo, List.cons.injEq, and_true] at h1
    have hb : ∀ k j, j < 9 → (v >>> (12 + k)).setWidth 9 = (w >>> (12 + k)).setWidth 9 →
        v.getLsbD (12 + k + j) = w.getLsbD (12 + k + j) := by
      intro k j hj hk
      simpa [hj] using congrArg (BitVec.getLsbD · j) hk
    refine BitVec.eq_of_getLsbD_eq fun i hi => ?_
    simp only [page, BitVec.getLsbD_setWidth, BitVec.getLsbD_ushiftRight, hi]
    obtain ⟨k, hk, j, hj, rfl⟩ : ∃ k < 4, ∃ j < 9, i = 9 * k + j :=
      ⟨i / 9, by omega, i % 9, by omega, by omega⟩
    interval_cases k
    · rw [← Nat.add_assoc, hb 0 j hj h2]
    · rw [← Nat.add_assoc, hb 9 j hj h1.1]
    · rw [← Nat.add_assoc, hb 18 j hj h1.2.1]
    · rw [← Nat.add_assoc, hb 27 j hj h1.2.2]

theorem page_or_one (virt : U64) : page (virt ||| 1) = page virt := by
  unfold page
  rw [BitVec.ushiftRight_or_distrib, show (1 : U64) >>> 12 = 0#64 by decide, BitVec.or_zero]

/-- A walk of `r` meets every table of `r` that is on its way. -/
theorem Inv.walk_meets (I : Inv s roots tag) (virt : U64) {n : Nat} (hn : n ≤ 3) {f : Frame}
    (hf : tag f = some (r, pathTo virt n)) : physAt s.mem virt 3 r = physAt s.mem virt n f := by
  obtain ⟨d, hd⟩ : ∃ d, n + d = 3 := ⟨3 - n, by omega⟩
  induction d generalizing n f with
  | zero =>
    obtain rfl : n = 3 := by omega
    rw [(I.top f r hf).1]
  | succ d ih =>
    rw [pathTo_succ virt (by omega)] at hf
    obtain ⟨u, hu, hpr, hnh, he⟩ := I.linked f r _ _ hf
    rw [ih (by omega) hu (by omega), physAt_next rfl hpr hnh he]

variable {tag' : Tags} {virt phys flags : U64}

theorem Kept.mono {moved : U64 → Prop}
    (k : Kept r roots Still s tag s' tag') : Kept r roots moved s tag s' tag' :=
  { k with phys := fun virt _ => k.phys virt id }

/-- What a mapping of `virt` did if it returned `ok`. -/
def Mapped (r : Frame) (virt phys flags : U64) (s : Vm) : Prop :=
  ∀ v, page v = page virt →
    physAt s.mem v 3 r = (leaf_entry phys flags &&& ADDRESS_MASK) ||| (v &&& 0xFFF)

theorem Inv.map_leaf_keeps (I : Inv s roots tag) (F : Fresh s.supply tag)
    (hr : tag r = some (r, [])) (ht : tag t = some (r, pathTo virt 1))
    (hown : Own s tag r t (pathTo virt 1) (pd_index virt))
    (hnh : ¬ (present (s.mem t (pd_index virt)) ∧ huge (s.mem t (pd_index virt)))) (phys flags : U64) :
    let u := map_leaf s t virt phys flags
    ∃ tag', Kept r roots (page · = page virt) s tag u.2 tag' ∧ (u.1 → Mapped r virt phys flags u.2) := by
  obtain ⟨tag', k, hpt⟩ := I.leaf_table_keeps F hr ht rfl hown hnh flags
  unfold map_leaf
  dsimp only
  rcases hl : leaf_table s t (pd_index virt) flags with ⟨_ | pt, s'⟩
  · rw [hl] at k
    exact ⟨tag', k.mono, fun h => by cases h⟩
  · rw [hl] at k hpt
    have hpt : tag' pt = some (r, pathTo virt 0) := hpt pt rfl
    have w : Kept r roots (page · = page virt) s' tag'
        (s'.write pt (pt_index virt) (leaf_entry phys flags)) tag' := by
      refine k.inv.keep_write k.fresh (k.grows _ _ hr) hpt (m := 0) rfl
        (fun h => absurd h (by simp [pathTo])) fun v hv h1 h2 => ?_
      exact absurd ((page_eq_iff v virt).mpr ⟨h1, h2⟩) hv
    refine ⟨tag', k.trans w, fun _ v hv => ?_⟩
    obtain ⟨h1, h2⟩ := (page_eq_iff v virt).mp hv
    rw [w.inv.walk_meets v (n := 0) (by omega) (by rw [h1]; exact hpt)]
    simp only [physAt, h2, Vm.write_same, leaf_entry_present, not_true_eq_false, if_false]

/-! ## Mapping -/

/-- The result of a mapping for `r`, from `s`. -/
def MapKeeps (r : Frame) (roots : List Frame) (virt phys flags : U64) (s : Vm) (tag : Tags)
    (res : Bool × Vm) : Prop :=
  ∃ tag', Kept r roots (page · = page virt) s tag res.2 tag' ∧
    (res.1 → Mapped r virt phys flags res.2)

theorem MapKeeps.failed {s' : Vm}
    (k : Kept r roots Still s tag s' tag') : MapKeeps r roots virt phys flags s tag (false, s') :=
  ⟨tag', k.mono, fun h => by cases h⟩

theorem MapKeeps.after {s' : Vm} {res : Bool × Vm}
    (k : Kept r roots Still s tag s' tag') (h : MapKeeps r roots virt phys flags s' tag' res) :
    MapKeeps r roots virt phys flags s tag res := by
  obtain ⟨tag'', l, hm⟩ := h
  exact ⟨tag'', k.trans l, hm⟩

/-- The end of a mapping, once the directory is the root's own: the page entry is
written if the table for it could be had. -/
theorem MapKeeps.leaf (hr : tag r = some (r, [])) (ht : tag t = some (r, pathTo virt 1)) {res : Bool × Vm}
    (hres : ∃ tag', Kept r roots Still s tag res.2 tag' ∧ (res.1 →
      Own res.2 tag' r t (pathTo virt 1) (pd_index virt) ∧
      ¬ (present (res.2.mem t (pd_index virt)) ∧ huge (res.2.mem t (pd_index virt))))) :
    MapKeeps r roots virt phys flags s tag
      (if ¬ res.1 = true then (false, res.2) else map_leaf res.2 t virt phys flags) := by
  obtain ⟨tag', k, h⟩ := hres
  split_ifs with hok
  swap
  · exact .failed k
  · obtain ⟨h1, h2⟩ := h hok
    exact .after k (k.inv.map_leaf_keeps k.fresh (k.grows _ _ hr) (k.grows _ _ ht) h1 h2 phys flags)

section
variable (I : Inv s roots tag)
include I

/-- The tables of the kernel hang in tables of the kernel. -/
theorem Inv.own_kernel (ht : tag t = some (s.pml4_phys, p))
    (hp : p.length < 3) : Own s tag s.pml4_phys t p i := by
  intro hpr hnh
  have h := ((I.child t _ p i ht hp hpr).resolve_left fun h => hnh h.2).2
  rwa [or_self] at h

theorem Inv.root_table (hr : r ∈ roots) : root_table s r = r := by
  have hf := I.frame r _ (I.root r hr).1
  unfold paging.root_table
  rw [if_neg hf.2, hf.1]

theorem Inv.map_page_keeps (F : Fresh s.supply tag) (virt phys flags : U64) :
    MapKeeps s.pml4_phys roots virt phys flags s tag (arch_vm_map_page s virt phys flags) := by
  unfold arch_vm_map_page
  simp only
  obtain ⟨t1, k1, h1⟩ := I.get_or_create_next_keeps F I.kernel I.kernel (by simp)
    (I.own_kernel (i := pml4_index virt) I.kernel (by simp)) flags
  generalize get_or_create_next s s.pml4_phys (pml4_index virt) flags = pdpt at k1 h1 ⊢
  by_cases hz : pdpt.1 = 0
  · rw [if_pos hz]
    exact .failed k1
  rw [if_neg hz]
  have I1 := k1.inv
  have h1 : t1 pdpt.1 = some (pdpt.2.pml4_phys, pathTo virt 2) := by
    rw [k1.pml4]
    exact h1 hz
  apply MapKeeps.after k1
  rw [← k1.pml4]
  obtain ⟨t2, k2, h2⟩ := I1.get_or_create_next_keeps k1.fresh I1.kernel h1 (by simp [pathTo])
    (I1.own_kernel (i := pdpt_index virt) h1 (by simp [pathTo])) flags
  generalize get_or_create_next pdpt.2 pdpt.1 (pdpt_index virt) flags = pd at k2 h2 ⊢
  by_cases hz : pd.1 = 0
  · rw [if_pos hz]
    exact .failed k2
  rw [if_neg hz]
  have I2 := k2.inv
  have h2 : t2 pd.1 = some (pd.2.pml4_phys, pathTo virt 1) := by
    rw [k2.pml4]
    exact h2 hz
  apply MapKeeps.after k2
  rw [← k2.pml4]
  apply MapKeeps.leaf I2.kernel h2
  split_ifs with hh
  · obtain ⟨t3, k3, h3⟩ := I2.split_huge_page_keeps k2.fresh I2.kernel h2 rfl hh.1 hh.2
    exact ⟨t3, k3, fun h => ⟨(h3 h).1, fun h' => (h3 h).2 h'.2⟩⟩
  · exact ⟨t2, Kept.refl I2 k2.fresh, fun _ => ⟨I2.own_kernel h2 (by simp [pathTo]), hh⟩⟩

/-- The same for a root of its own: what it shares with the kernel is copied on
the way down. -/
theorem Inv.map_page_in_root_keeps (F : Fresh s.supply tag) (hr : r ∈ roots) (virt phys flags : U64) :
    MapKeeps r roots virt phys flags s tag (arch_vm_map_page_in_root s r virt phys flags) := by
  obtain ⟨hrt, hker⟩ := I.root r hr
  unfold arch_vm_map_page_in_root
  simp only [I.root_table hr]
  rw [if_neg hker]
  obtain ⟨t1, k1, h1⟩ := I.ensure_private_child_keeps (i := pml4_index virt) F hrt hker hrt (by simp)
    (.inl I.kernel)
  generalize ensure_private_child s r s.pml4_phys (pml4_index virt) = e1 at k1 h1 ⊢
  by_cases hz : e1.1
  swap
  · rw [if_pos hz]
    exact .failed k1
  rw [if_neg (not_not.mpr hz)]
  apply MapKeeps.after k1
  have hrt1 := k1.grows _ _ hrt
  rw [← k1.pml4] at hker ⊢
  obtain ⟨t2, k2, h2⟩ := k1.inv.get_or_create_next_keeps k1.fresh hrt1 hrt1 (by simp) (h1 hz).1 flags
  generalize get_or_create_next e1.2 r (pml4_index virt) flags = pdpt at k2 h2 ⊢
  by_cases hz : pdpt.1 = 0
  · rw [if_pos hz]
    exact .failed k2
  rw [if_neg hz]
  apply MapKeeps.after k2
  have hrt2 := k2.grows _ _ hrt1
  have h2 : t2 pdpt.1 = some (r, pathTo virt 2) := h2 hz
  rw [← k2.pml4] at hker ⊢
  have hk2 : KernelAt pdpt.2 t2 (kernel_child pdpt.2 pdpt.2.pml4_phys (pml4_index virt)) (pathTo virt 2) :=
    k2.inv.kernel_child_at (.inl k2.inv.kernel) (by simp)
  generalize kernel_child pdpt.2 pdpt.2.pml4_phys (pml4_index virt) = kernel_pdpt at hk2 ⊢
  obtain ⟨t3, k3, h3⟩ := k2.inv.ensure_private_child_keeps (i := pdpt_index virt) k2.fresh hrt2 hker h2
    (by simp [pathTo]) hk2
  generalize ensure_private_child pdpt.2 pdpt.1 kernel_pdpt (pdpt_index virt) = e3 at k3 h3 ⊢
  by_cases hz : e3.1
  swap
  · rw [if_pos hz]
    exact .failed k3
  rw [if_neg (not_not.mpr hz)]
  apply MapKeeps.after k3
  have hrt3 := k3.grows _ _ hrt2
  have hk3 := hk2.kept k3 hker
  rw [← k3.pml4] at hker
  obtain ⟨t4, k4, h4⟩ := k3.inv.get_or_create_next_keeps k3.fresh hrt3 (k3.grows _ _ h2)
    (by simp [pathTo]) (h3 hz).1 flags
  generalize get_or_create_next e3.2 pdpt.1 (pdpt_index virt) flags = pd at k4 h4 ⊢
  by_cases hz : pd.1 = 0
  · rw [if_pos hz]
    exact .failed k4
  rw [if_neg hz]
  apply MapKeeps.after k4
  have hrt4 := k4.grows _ _ hrt3
  have h4 : t4 pd.1 = some (r, pathTo virt 1) := h4 hz
  have hk4 : KernelAt pd.2 t4 (kernel_child pd.2 kernel_pdpt (pdpt_index virt)) (pathTo virt 1) :=
    k4.inv.kernel_child_at (hk3.kept k4 hker) (by simp)
  rw [← k4.pml4] at hker
  apply MapKeeps.leaf hrt4 h4
  split_ifs with hpr hh
  · obtain ⟨t5, k5, h5⟩ := k4.inv.split_huge_page_keeps k4.fresh hrt4 h4 rfl hpr hh
    exact ⟨t5, k5, fun h => ⟨(h5 h).1, fun h' => (h5 h).2 h'.2⟩⟩
  · obtain ⟨t5, k5, h5⟩ := k4.inv.ensure_private_child_keeps (i := pd_index virt) k4.fresh hrt4 hker
      h4 (by simp [pathTo]) hk4
    exact ⟨t5, k5, fun h => ⟨(h5 h).1, fun h' => (h5 h).2 hh h'.2⟩⟩
  · exact ⟨t4, Kept.refl k4.inv k4.fresh, fun _ => ⟨fun h => absurd h hpr, fun h => hpr h.1⟩⟩

end

/-! ## Unmapping -/

/-- The last table of a walk, if the walk meets a page entry that is present. -/
def leaf_from (s : Vm) (root virt : U64) : Option Frame :=
  let pml4e := s.mem root (pml4_index virt)
  if ¬ has pml4e VM_FLAG_PRESENT then none
  else
    let pdpte := s.mem (entry_to_table pml4e) (pdpt_index virt)
    if ¬ has pdpte VM_FLAG_PRESENT ∨ has pdpte VM_FLAG_HUGE then none
    else
      let pde := s.mem (entry_to_table pdpte) (pd_index virt)
      if ¬ has pde VM_FLAG_PRESENT ∨ has pde VM_FLAG_HUGE then none
      else if ¬ has (s.mem (entry_to_table pde) (pt_index virt)) VM_FLAG_PRESENT then none
      else some (entry_to_table pde)

theorem unmap_from_eq (s : Vm) (root virt : U64) : unmap_from s root virt =
      match leaf_from s root virt with
      | none => (false, s)
      | some pt => (true, s.write pt (pt_index virt) 0) := by
  unfold unmap_from leaf_from
  simp only
  split_ifs <;> rfl

section
variable (I : Inv s roots tag)
include I

/-- The last table of a walk of `root` is at its place in the tree of `root`, or of
the kernel. -/
theorem Inv.leaf_seen {root : U64} {pt : Frame}
    (hroot : Seen s tag root root []) (h : leaf_from s root virt = some pt) :
    Seen s tag root pt (pathTo virt 0) ∧ present (s.mem pt (pt_index virt)) := by
  unfold leaf_from at h
  simp only at h
  split_ifs at h with h1 h2 h3 h4
  obtain rfl := Option.some.inj h
  rw [not_or, not_not] at h2 h3
  have s1 : Seen s tag root _ (pathTo virt 2) := I.seen_child hroot (by simp) h1 (by simp)
  have s2 : Seen s tag root _ (pathTo virt 1) :=
    I.seen_child s1 (by simp) h2.1 (by simp)
  exact ⟨I.seen_child s2 (by simp) h3.1 fun h => h3.2 h.2, h4⟩

/-- A walk of `root` meets the table of `root` at its place. -/
theorem Inv.leaf_met {root : U64} {pt : Frame}
    (hpt : tag pt = some (root, pathTo virt 0)) (hpr : present (s.mem pt (pt_index virt))) :
    leaf_from s root virt = some pt := by
  obtain ⟨t2, ht2, hp2, hn2, rfl⟩ := I.linked pt root _ _ hpt
  obtain ⟨t1, ht1, hp1, hn1, rfl⟩ := I.linked t2 root _ _ ht2
  obtain ⟨t0, ht0, hp0, _, rfl⟩ := I.linked t1 root _ _ ht1
  rw [(I.top t0 root ht0).1] at *
  unfold present huge at *
  simp [leaf_from, hp0, hp1, hn1, hp2, hn2, hpr]

/-- An unmapping clears one page entry of a table of its owner. -/
theorem Inv.unmap_keeps (F : Fresh s.supply tag) {root : Frame}
    (hroot : tag root = some (root, [])) (virt : U64) : ∃ o, (o = root ∨ o = s.pml4_phys) ∧
      Kept o roots (page · = page virt) s tag (unmap_from s root virt).2 tag := by
  rw [unmap_from_eq]
  rcases hl : leaf_from s root virt with _ | pt
  · exact ⟨root, .inl rfl, Kept.refl I F⟩
  · obtain ⟨hs, _⟩ := I.leaf_seen (.inl hroot) hl
    have hkeep : ∀ o, tag o = some (o, []) → tag pt = some (o, pathTo virt 0) →
        Kept o roots (page · = page virt) s tag (s.write pt (pt_index virt) 0) tag := by
      intro o ho hpt
      refine I.keep_write F ho hpt (m := 0) rfl (fun h => absurd h (by simp [pathTo])) ?_
      intro v hv h1 h2
      exact absurd ((page_eq_iff v virt).mpr ⟨h1, h2⟩) hv
    rcases hs with h | h
    · exact ⟨root, .inl rfl, hkeep root hroot h⟩
    · exact ⟨s.pml4_phys, .inr rfl, hkeep _ I.kernel h⟩

/-! ## A new root -/

/-- A copy of the kernel's top table is a new root. -/
theorem Inv.new_root {f : Frame}
    (A : Allocated s tag f (s.mem s.pml4_phys) s') : Inv s' (f :: roots) (addTag tag f (f, [])) := by
  have old : ∀ {g y}, tag g = some y → addTag tag f (f, []) g = some y := addTag_old A.new
  have hrow : ∀ g x, tag g = some x → s'.mem g = s.mem g := fun g x hg => by
    rw [A.mem, Function.update_of_ne (ne_of_tagged A.new hg)]
  have hself : s'.mem f = s.mem s.pml4_phys := by
    rw [A.mem, Function.update_self]
  refine ⟨?_, ?_, ?_, ?_, ?_, ?_, ?_⟩
  · rw [A.pml4]
    exact old I.kernel
  · intro q hq
    rw [A.pml4]
    rcases List.mem_cons.mp hq with rfl | hq
    · exact ⟨addTag_self, (ne_of_tagged A.new I.kernel).symm⟩
    · exact ⟨old (I.root q hq).1, (I.root q hq).2⟩
  · intro g o hg
    rw [A.pml4]
    rcases addTag_cases hg with ⟨rfl, h⟩ | h
    · obtain ⟨rfl, _⟩ := Prod.mk.inj h
      exact ⟨rfl, .inr (List.mem_cons_self ..)⟩
    · obtain ⟨h1, h2⟩ := I.top g o h
      exact ⟨h1, h2.imp id (List.mem_cons_of_mem f)⟩
  · intro g x hg
    rcases addTag_cases hg with ⟨rfl, _⟩ | h
    · exact A.frame
    · exact I.frame g x h
  · intro g o q hg
    rcases addTag_cases hg with ⟨rfl, h⟩ | h
    · obtain ⟨_, rfl⟩ := Prod.mk.inj h
      simp
    · exact I.depth g o q h
  · intro u o q j hu hq hj
    rw [A.pml4]
    rcases addTag_cases hu with ⟨rfl, h⟩ | h
    · obtain ⟨rfl, rfl⟩ := Prod.mk.inj h
      rw [hself] at hj ⊢
      rcases I.child _ _ _ j I.kernel hq hj with ⟨h1, _⟩ | ⟨h1, h2⟩
      · simp at h1
      · rw [or_self] at h2
        exact .inr ⟨h1, .inr (old h2)⟩
    · rw [hrow u _ h] at hj ⊢
      rcases I.child u o q j h hq hj with h1 | ⟨h1, h2 | h2⟩
      · exact .inl h1
      · exact .inr ⟨h1, .inl (old h2)⟩
      · exact .inr ⟨h1, .inr (old h2)⟩
  · intro g o j q hg
    rcases addTag_cases hg with ⟨_, h⟩ | h
    · simp at h
    · obtain ⟨u, hu, h1⟩ := I.linked g o j q h
      rw [← hrow u _ hu] at h1
      exact ⟨u, old hu, h1⟩

/-! ## Walks that do not see a change -/

/-- A walk depends on the tables it sees. -/
theorem Inv.walk_same {root : Frame} (hroot : Seen s tag root root [])
    (hrow : ∀ f p, Seen s tag root f p → s'.mem f = s.mem f) (virt : U64) :
    phys_from s' root virt = phys_from s root virt ∧
      flags_from s' root virt = flags_from s root virt := by
  refine ⟨?_, ?_⟩
  · rw [phys_from_eq, phys_from_eq]
    exact I.phys_below (L := 0) (fun f p hf _ => hrow f p hf) virt le_rfl hroot
  · have r0 := hrow _ _ hroot
    by_cases h1 : present (s.mem root (pml4_index virt))
    swap
    · unfold present at h1
      simp [flags_from, r0, h1]
    have s1 := I.seen_child hroot (by simp) h1 (by simp)
    have r1 := hrow _ _ s1
    by_cases h2 : present (s.mem (entry_to_table (s.mem root (pml4_index virt))) (pdpt_index virt))
    swap
    · unfold present at h1 h2
      simp [flags_from, r0, r1, h1, h2]
    have s2 := I.seen_child s1 (by simp) h2 (by simp)
    have r2 := hrow _ _ s2
    by_cases h3 : present (s.mem (entry_to_table (s.mem (entry_to_table
      (s.mem root (pml4_index virt))) (pdpt_index virt))) (pd_index virt)) ∧
      ¬ huge (s.mem (entry_to_table (s.mem (entry_to_table
      (s.mem root (pml4_index virt))) (pdpt_index virt))) (pd_index virt))
    · have r3 := hrow _ _ (I.seen_child s2 (by simp) h3.1 fun h => h3.2 h.2)
      simp only [flags_from, r0, r1, r2, r3]
    · simp only [flags_from, r0, r1, r2]
      split_ifs with g1 g2 g3 g4 g5
      all_goals first | rfl | exact absurd ⟨g4, g5⟩ h3

end

end

end mini_kernel.paging
