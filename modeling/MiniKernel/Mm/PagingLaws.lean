-- The laws of isolation. A mapping in one root moves one page of that root and
-- nothing in any other root. An unmapping does not copy what it shares, so it may
-- take a page from the kernel.
import MiniKernel.Lib.Machine
import MiniKernel.Mm.PagingMap
import MiniKernel.Process.ElfLaws

open mini_kernel.lib mini_kernel.vm List

namespace mini_kernel.paging

/-! ## The memories that runs reach -/

/-- The tables, and the roots that `arch_vm_create_root` made. -/
structure Memory where
  vm : Vm
  roots : List Frame

/-- A frame that a walk of `root` can come to as a table, `n` levels above the last. -/
inductive IsTable (s : Vm) (root : Frame) : Nat → Frame → Prop
  | root : IsTable s root 3 root
  | next {n : Nat} {t : Frame} {i : Index} : IsTable s root (n + 1) t → present (s.mem t i) →
      ¬ huge (s.mem t i) → IsTable s root n (entry_to_table (s.mem t i))

/-- What `pmm_alloc_block` may return during a call: frames that no root reaches,
each once, and 0 when there is no memory. -/
structure Supplied (m : Memory) (supply : List Frame) : Prop where
  frame : ∀ f ∈ supply, f ≠ 0 → IsFrame f
  new : ∀ f ∈ supply, f ≠ 0 → ∀ root ∈ m.vm.pml4_phys :: m.roots, ∀ n, ¬ IsTable m.vm root n f
  once : (supply.filter (· ≠ 0)).Nodup

inductive Call
  | create_root
  | map_page (virt phys flags : U64)
  | map_page_in_root (root virt phys flags : U64)
  | unmap_page (virt : U64)
  | unmap_page_in_root (root virt : U64)

/-- The memory before a call, with what the allocator will give to it. -/
def Memory.supplied (m : Memory) (supply : List Frame) : Vm := { m.vm with supply := supply }

def call (m : Memory) (supply : List Frame) : Call → Memory
  | .create_root =>
    let r := arch_vm_create_root (m.supplied supply)
    ⟨r.2, if r.1 = 0 then m.roots else r.1 :: m.roots⟩
  | .map_page virt phys flags => ⟨(arch_vm_map_page (m.supplied supply) virt phys flags).2, m.roots⟩
  | .map_page_in_root root virt phys flags =>
    ⟨(arch_vm_map_page_in_root (m.supplied supply) root virt phys flags).2, m.roots⟩
  | .unmap_page virt => ⟨(arch_vm_unmap_page (m.supplied supply) virt).2, m.roots⟩
  | .unmap_page_in_root root virt =>
    ⟨(arch_vm_unmap_page_in_root (m.supplied supply) root virt).2, m.roots⟩

/-- The root that a call names is one that was made. -/
def Call.Valid (m : Memory) : Call → Prop
  | .map_page_in_root root _ _ _ => root ∈ m.roots
  | .unmap_page_in_root root _ => root ∈ m.roots
  | _ => True

/-- The six tables of the boot loader. -/
def bootFrames (table_phys : Frame) : List Frame :=
  [table_phys, table_phys + 0x1000, table_phys + 0x2000, table_phys + 0x3000, table_phys + 0x4000,
    table_phys + 0x5000]

def booted (mem : Frame → Index → Entry) (table_phys : Frame) : Memory :=
  ⟨⟨build_identity_tables mem table_phys, table_phys, []⟩, []⟩

/-- From the tables of the boot loader on, any calls in any order. -/
def memories : Machine Memory (Call × List Frame) where
  init m := ∃ mem table_phys, (∀ f ∈ bootFrames table_phys, IsFrame f) ∧ m = booted mem table_phys
  step m l m' := Supplied m l.2 ∧ l.1.Valid m ∧ m' = call m l.2 l.1

/-! ## The invariant of every run -/

/-- The tags of the tables of the boot loader. -/
def bootTags (table_phys : Frame) : Tags := fun f =>
  if f = table_phys then some (table_phys, [])
  else if f = table_phys + 0x1000 then some (table_phys, [0])
  else if f = table_phys + 0x2000 then some (table_phys, [0, 0])
  else if f = table_phys + 0x3000 then some (table_phys, [1, 0])
  else if f = table_phys + 0x4000 then some (table_phys, [2, 0])
  else if f = table_phys + 0x5000 then some (table_phys, [3, 0])
  else none

theorem boot_entry_spec {f : Frame} (hf : IsFrame f) :
    present (f ||| 0x03) ∧ ¬ huge (f ||| 0x03) ∧ entry_to_table (f ||| 0x03) = f := by
  have h1 := hf.and_eq VM_FLAG_PRESENT (by decide)
  have h2 := hf.and_eq VM_FLAG_HUGE (by decide)
  have h3 := hf.1
  unfold present huge entry_to_table
  simp only [has_iff, BitVec.and_or_distrib_right, h1, h2, h3]
  simp [VM_FLAG_PRESENT, VM_FLAG_HUGE, ADDRESS_MASK]

theorem boot_huge_spec (e : Entry) : huge (e ||| 0x83) := by
  unfold huge
  simp only [has_iff, BitVec.and_or_distrib_right, ne_eq]
  simp [BitVec.or_eq_zero_iff, VM_FLAG_HUGE]

/-- A tagged frame of the boot loader is one of the six. -/
theorem bootTags_cases {t f : Frame} {x : Frame × List Index} (h : bootTags t f = some x) :
    (f = t ∧ x = (t, [])) ∨ (f = t + 0x1000 ∧ x = (t, [0])) ∨
    ((f = t + 0x2000 ∧ x = (t, [0, 0])) ∨ (f = t + 0x3000 ∧ x = (t, [1, 0])) ∨
      (f = t + 0x4000 ∧ x = (t, [2, 0])) ∨ (f = t + 0x5000 ∧ x = (t, [3, 0]))) := by
  unfold bootTags at h
  split_ifs at h <;> simp_all

theorem booted_inv (mem : Frame → Index → Entry) {t : Frame} (h : ∀ f ∈ bootFrames t, IsFrame f) :
    Inv (booted mem t).vm [] (bootTags t) := by
  simp only [bootFrames, forall_mem_cons] at h
  obtain ⟨h0, h1, h2, h3, h4, h5, _⟩ := h
  have e1 := boot_entry_spec h1
  have e2 := boot_entry_spec h2
  have e3 := boot_entry_spec h3
  have e4 := boot_entry_spec h4
  have e5 := boot_entry_spec h5
  refine ⟨by simp [booted, bootTags], by simp, ?_, ?_, ?_, ?_, ?_⟩
  · intro f o hf
    rcases bootTags_cases hf with ⟨rfl, h⟩ | ⟨rfl, h⟩ | ⟨rfl, h⟩ | ⟨rfl, h⟩ | ⟨rfl, h⟩ | ⟨rfl, h⟩
    all_goals simp at h
    exact ⟨h.symm, .inl h⟩
  · intro f x hf
    rcases bootTags_cases hf with ⟨rfl, _⟩ | ⟨rfl, _⟩ | ⟨rfl, _⟩ | ⟨rfl, _⟩ | ⟨rfl, _⟩ | ⟨rfl, _⟩
    exacts [h0, h1, h2, h3, h4, h5]
  · intro f o p hf
    rcases bootTags_cases hf with ⟨_, h⟩ | ⟨_, h⟩ | ⟨_, h⟩ | ⟨_, h⟩ | ⟨_, h⟩ | ⟨_, h⟩
    all_goals
      obtain ⟨_, rfl⟩ := Prod.mk.inj h
      simp
  · intro f o p i hf _ hpr
    rcases bootTags_cases hf with ⟨rfl, h⟩ | ⟨rfl, h⟩ | hf
    · obtain ⟨rfl, rfl⟩ := Prod.mk.inj h
      have hi : i = 0 := by
        by_contra hi
        simp only [booted, build_identity_tables, if_true, hi, if_false] at hpr
        exact not_present_zero hpr
      subst hi
      simp only [booted, build_identity_tables, if_true, e1]
      exact .inr ⟨not_false, .inl (by simp [bootTags])⟩
    · obtain ⟨rfl, rfl⟩ := Prod.mk.inj h
      have hrow : (booted mem o).vm.mem (o + 0x1000) i =
          if i = 0 then (o + 0x2000) ||| 0x03
          else if i = 1 then (o + 0x3000) ||| 0x03
          else if i = 2 then (o + 0x4000) ||| 0x03
          else if i = 3 then (o + 0x5000) ||| 0x03 else 0 := by
        simp [booted, build_identity_tables]
      rw [hrow] at hpr ⊢
      right
      split_ifs at hpr ⊢ with i0 i1 i2 i3
      · exact ⟨e2.2.1, .inl (by rw [e2.2.2, i0]; simp [bootTags])⟩
      · exact ⟨e3.2.1, .inl (by rw [e3.2.2, i1]; simp [bootTags])⟩
      · exact ⟨e4.2.1, .inl (by rw [e4.2.2, i2]; simp [bootTags])⟩
      · exact ⟨e5.2.1, .inl (by rw [e5.2.2, i3]; simp [bootTags])⟩
      · exact absurd hpr not_present_zero
    · left
      rcases hf with ⟨rfl, h⟩ | ⟨rfl, h⟩ | ⟨rfl, h⟩ | ⟨rfl, h⟩
      all_goals
        obtain ⟨rfl, rfl⟩ := Prod.mk.inj h
        refine ⟨rfl, ?_⟩
        simpa [booted, build_identity_tables] using boot_huge_spec _
  · intro f o i p hf
    rcases bootTags_cases hf with ⟨rfl, h⟩ | ⟨rfl, h⟩ | ⟨rfl, h⟩ | ⟨rfl, h⟩ | ⟨rfl, h⟩ | ⟨rfl, h⟩
    all_goals simp only [Prod.mk.injEq, cons.injEq, reduceCtorEq, and_false] at h
    · obtain ⟨rfl, rfl, rfl⟩ := h
      refine ⟨o, by simp [bootTags], ?_⟩
      simpa [booted, build_identity_tables] using e1
    all_goals
      obtain ⟨rfl, rfl, rfl⟩ := h
      refine ⟨o + 0x1000, by simp [bootTags], ?_⟩
    · simpa [booted, build_identity_tables] using e2
    · simpa [booted, build_identity_tables] using e3
    · simpa [booted, build_identity_tables] using e4
    · simpa [booted, build_identity_tables] using e5

section
variable {m : Memory} {tag : Tags} {supply : List Frame}

theorem Inv.supplied (I : Inv m.vm m.roots tag) : Inv (m.supplied supply) m.roots tag :=
  ⟨I.kernel, I.root, I.top, I.frame, I.depth, I.child, I.linked⟩

variable {s : Vm} {roots frames : List Frame}

/-- Every tagged frame is a table of its owner. -/
theorem Inv.is_table (I : Inv s roots tag) {f o : Frame} {p : List Index} (hf : tag f = some (o, p)) :
    IsTable s o (3 - p.length) f ∧ o ∈ s.pml4_phys :: roots := by
  induction p generalizing f with
  | nil =>
    obtain ⟨rfl, h⟩ := I.top f o hf
    exact ⟨.root, mem_cons.mpr h⟩
  | cons i p ih =>
    have hd := I.depth f o _ hf
    obtain ⟨t, ht, hp, hh, rfl⟩ := I.linked f o i p hf
    obtain ⟨h1, h2⟩ := ih ht
    refine ⟨.next (n := 3 - (i :: p).length) ?_ hp hh, h2⟩
    simp only [length_cons] at hd ⊢
    rwa [show 3 - (p.length + 1) + 1 = 3 - p.length by omega]

theorem Supplied.fresh (h : Supplied m supply) (I : Inv m.vm m.roots tag) : Fresh supply tag where
  new f hf h0 := by
    refine ⟨h.frame f hf h0, ?_⟩
    rcases ht : tag f with _ | ⟨o, p⟩
    · rfl
    · obtain ⟨h1, h2⟩ := I.is_table ht
      exact absurd h1 (h.new f hf h0 o h2 _)
  once := h.once

/-- Every table that a walk comes to is tagged. -/
theorem Inv.table_seen (I : Inv s roots tag) {root f : Frame} {n : Nat}
    (hroot : tag root = some (root, [])) (h : IsTable s root n f) :
    n ≤ 3 ∧ ∃ p, p.length + n = 3 ∧ Seen s tag root f p := by
  induction h with
  | root => exact ⟨le_rfl, [], rfl, .inl hroot⟩
  | next _ hp hh ih =>
    obtain ⟨hn, p, hlen, hs⟩ := ih
    refine ⟨by omega, _, ?_, I.seen_child hs (by omega) hp fun h => hh h.2⟩
    simp only [length_cons]
    omega

/-- A call keeps the invariant, and takes its tables from what it is given. -/
theorem call_inv (I : Inv m.vm m.roots tag) (hs : Supplied m supply) {c : Call} (hc : c.Valid m) :
    ∃ tag', Inv (call m supply c).vm (call m supply c).roots tag' ∧
      ∀ f x, tag' f = some x → tag f = some x ∨ f ∈ supply := by
  have I' : Inv (m.supplied supply) m.roots tag := I.supplied
  have F : Fresh (m.supplied supply).supply tag := hs.fresh I
  have hkept : ∀ {r moved s' tag'}, Kept r m.roots moved (m.supplied supply) tag s' tag' →
      Inv s' m.roots tag' ∧ ∀ f x, tag' f = some x → tag f = some x ∨ f ∈ supply :=
    fun k => ⟨k.inv, fun f x hf => (k.added f x.1 x.2 hf).imp id And.right⟩
  cases c with
  | create_root =>
    unfold call arch_vm_create_root
    rcases clone_table_cases F I'.kernel with ⟨h0, N⟩ | A
    · simp only [h0, if_true]
      exact ⟨tag, hkept (N.kept (r := m.vm.pml4_phys) I')⟩
    · simp only [A.frame.2, if_false]
      refine ⟨_, I'.new_root A, fun f x hf => ?_⟩
      rcases addTag_cases hf with ⟨rfl, _⟩ | h
      · exact .inr A.supplied
      · exact .inl h
  | map_page virt phys flags =>
    obtain ⟨tag', k, _⟩ := I'.map_page_keeps F virt phys flags
    exact ⟨tag', hkept k⟩
  | map_page_in_root root virt phys flags =>
    obtain ⟨tag', k, _⟩ := I'.map_page_in_root_keeps F hc virt phys flags
    exact ⟨tag', hkept k⟩
  | unmap_page virt =>
    obtain ⟨o, _, k⟩ := I'.unmap_keeps F I'.kernel virt
    exact ⟨tag, hkept k⟩
  | unmap_page_in_root root virt =>
    obtain ⟨hroot, hne⟩ := I'.root root hc
    obtain ⟨o, _, k⟩ := I'.unmap_keeps F hroot virt
    refine ⟨tag, ?_⟩
    simp only [call, arch_vm_unmap_page_in_root, I'.root_table hc]
    rw [if_neg hne]
    exact hkept k

theorem reachable_inv (h : memories.Reachable m) : ∃ tag, Inv m.vm m.roots tag := by
  apply h.inv
  · rintro _ ⟨mem, table_phys, hb, rfl⟩
    exact ⟨_, booted_inv mem hb⟩
  · rintro m ⟨c, supply⟩ _ ⟨tag, I⟩ ⟨hs, hv, rfl⟩
    obtain ⟨tag', I', _⟩ := call_inv I hs hv
    exact ⟨tag', I'⟩

/-- All tables that the roots come to are among `frames`. -/
def TablesIn (frames : List Frame) (m : Memory) : Prop :=
  ∀ root ∈ m.vm.pml4_phys :: m.roots, ∀ n f, IsTable m.vm root n f → f ∈ frames

theorem Inv.tables_in (I : Inv m.vm m.roots tag)
    (h : ∀ f x, tag f = some x → f ∈ frames) : TablesIn frames m := by
  intro root hroot n f hf
  have ht : tag root = some (root, []) := by
    rcases mem_cons.mp hroot with rfl | hr
    · exact I.kernel
    · exact (I.root root hr).1
  obtain ⟨_, p, _, hs⟩ := I.table_seen ht hf
  obtain ⟨o, ho⟩ := hs.tagged
  exact h f _ ho

theorem booted_tables_in (mem : Frame → Index → Entry) {t : Frame}
    (h : ∀ f ∈ bootFrames t, IsFrame f) : TablesIn (bootFrames t) (booted mem t) := by
  apply (booted_inv mem h).tables_in
  intro f x hf
  rcases bootTags_cases hf with ⟨rfl, _⟩ | ⟨rfl, _⟩ | ⟨rfl, _⟩ | ⟨rfl, _⟩ | ⟨rfl, _⟩ | ⟨rfl, _⟩
  all_goals simp [bootFrames]

theorem call_tables_in (h : memories.Reachable m) (hin : TablesIn frames m)
    (hs : Supplied m supply) {c : Call} (hc : c.Valid m) : TablesIn (frames ++ supply) (call m supply c) := by
  obtain ⟨tag, I⟩ := reachable_inv h
  obtain ⟨tag', I', hold⟩ := call_inv I hs hc
  apply I'.tables_in
  intro f x hf
  rcases hold f x hf with hf | hf
  · obtain ⟨h1, h2⟩ := I.is_table hf
    exact mem_append_left _ (hin _ h2 _ f h1)
  · exact mem_append_right _ hf

/-- Frames that were not used so far may be supplied. -/
theorem TablesIn.supplied (hin : TablesIn frames m)
    (hnew : ∀ f ∈ supply, IsFrame f ∧ f ∉ frames) (honce : supply.Nodup) : Supplied m supply where
  frame f hf _ := (hnew f hf).1
  new f hf _ root hroot n ht := (hnew f hf).2 (hin root hroot n f ht)
  once := honce.filter _

/-! ## Mapping -/

/-- Walks of another root, or of the kernel, do not see what a mapping writes. -/
theorem Kept.walk_other {s' : Vm} {tag' : Tags} {r q : Frame}
    {moved : U64 → Prop} (I : Inv s roots tag) (k : Kept r roots moved s tag s' tag')
    (hr : r ≠ s.pml4_phys) (hq : tag q = some (q, [])) (hqr : q ≠ r) (virt : U64) :
    phys_from s' q virt = phys_from s q virt ∧ flags_from s' q virt = flags_from s q virt := by
  apply I.walk_same (.inl hq)
  intro f p hf
  rcases hf with hf | hf
  · exact k.others f q p hf hqr
  · exact k.others f _ p hf hr.symm

theorem Inv.get_phys_in_root (I : Inv s roots tag) {r : Frame} (hr : r ∈ roots) (virt : U64) :
    arch_vm_get_phys_in_root s r virt = phys_from s r virt := by
  unfold arch_vm_get_phys_in_root
  simp only [I.root_table hr]
  rw [if_neg (I.root r hr).2]

/-- A mapping in one root, whether it succeeds or fails, changes nothing in the
kernel's root or in any other. If it succeeds, it moves one page. -/
theorem a_mapping_moves_one_page_of_one_root {m : Memory} (h : memories.Reachable m)
    {supply : List Frame} (hs : Supplied m supply) {r : Frame} (hr : r ∈ m.roots)
    (virt phys flags : BitVec 64) :
    let res := arch_vm_map_page_in_root (m.supplied supply) r virt phys flags
    (∀ va, arch_vm_get_phys res.2 va = arch_vm_get_phys m.vm va ∧
      arch_vm_get_flags res.2 va = arch_vm_get_flags m.vm va) ∧
    (∀ q ∈ m.roots, q ≠ r → ∀ va,
      arch_vm_get_phys_in_root res.2 q va = arch_vm_get_phys_in_root m.vm q va) ∧
    (res.1 = true →
      (flags &&& ADDRESS_MASK = 0 → ∀ va, page va = page virt →
        arch_vm_get_phys_in_root res.2 r va = (phys &&& ADDRESS_MASK) ||| (va &&& 0xFFF)) ∧
      (∀ va, page va ≠ page virt →
        arch_vm_get_phys_in_root res.2 r va = arch_vm_get_phys_in_root m.vm r va)) := by
  intro res
  obtain ⟨tag, I⟩ := reachable_inv h
  obtain ⟨tag', k, hm⟩ := I.supplied.map_page_in_root_keeps (hs.fresh I) hr virt phys flags
  obtain ⟨hrt, hker⟩ := I.root r hr
  refine ⟨fun va => ?_, fun q hq hqr va => ?_, fun hok => ⟨fun hf va hva => ?_, fun va hva => ?_⟩⟩
  · unfold arch_vm_get_phys arch_vm_get_flags
    rw [show res.2.pml4_phys = m.vm.pml4_phys from k.pml4]
    exact k.walk_other I.supplied hker I.kernel hker.symm va
  · rw [k.inv.get_phys_in_root hq, I.get_phys_in_root hq]
    exact (k.walk_other I.supplied hker (I.root q hq).1 hqr va).1
  · rw [k.inv.get_phys_in_root hr, phys_from_eq, hm hok va hva, leaf_entry_phys hf]
  · rw [k.inv.get_phys_in_root hr, I.get_phys_in_root hr, phys_from_eq, phys_from_eq]
    exact k.phys va hva

/-! ## Unmapping -/

/-- A table that the kernel owns is met by the kernel's own walk. -/
theorem Inv.private_leaf (I : Inv s roots tag) {r virt pt : U64}
    (hr : tag r = some (r, [])) (h : leaf_from s r virt = some pt)
    (hne : leaf_from s r virt ≠ leaf_from s s.pml4_phys virt) : tag pt = some (r, pathTo virt 0) := by
  obtain ⟨hs, hpr⟩ := I.leaf_seen (.inl hr) h
  rcases hs with hs | hs
  · exact hs
  · rw [h, I.leaf_met hs hpr] at hne
    exact absurd rfl hne

/-- What the kernel translates through a page entry is lost when the entry is. -/
theorem Inv.leaf_lost (I : Inv s roots tag) {virt pt : U64}
    (h : leaf_from s s.pml4_phys virt = some pt) :
    ∃ va, phys_from (s.write pt (pt_index virt) 0) s.pml4_phys va ≠ phys_from s s.pml4_phys va := by
  obtain ⟨hs, hpr⟩ := I.leaf_seen (.inl I.kernel) h
  have hpt : tag pt = some (s.pml4_phys, pathTo virt 0) := hs.elim id id
  -- an address of the page that is not its first, so that its translation is not 0
  obtain ⟨h1, h2⟩ := (page_eq_iff (virt ||| 1) virt).mp (page_or_one virt)
  have I' := I.write (i := pt_index virt) (e := 0) hpt fun h => absurd h (by simp [pathTo])
  refine ⟨virt ||| 1, ?_⟩
  rw [phys_from_eq, phys_from_eq, I.walk_meets (virt ||| 1) (n := 0) (by omega) (h1 ▸ hpt),
    show (s.pml4_phys) = (s.write pt (pt_index virt) 0).pml4_phys from rfl,
    I'.walk_meets (virt ||| 1) (n := 0) (by omega) (h1 ▸ hpt)]
  simp only [physAt, h2, Vm.write_same, hpr, not_present_zero, not_false_eq_true, not_true_eq_false,
    if_true, if_false]
  intro hz
  have hbit := congrArg (BitVec.getLsbD · 0) hz
  simp at hbit

/-- An unmapping in one root leaves the kernel's translations alone exactly if it
finds nothing to unmap, or finds it in a table that the kernel's own walk does not
come to. -/
theorem an_unmapping_spares_the_kernel_iff {m : Memory} (h : memories.Reachable m) {r : Frame}
    (hr : r ∈ m.roots) (virt : BitVec 64) :
    (∀ va, arch_vm_get_phys (arch_vm_unmap_page_in_root m.vm r virt).2 va = arch_vm_get_phys m.vm va ∧
      arch_vm_get_flags (arch_vm_unmap_page_in_root m.vm r virt).2 va = arch_vm_get_flags m.vm va) ↔
    (leaf_from m.vm r virt = none ∨ leaf_from m.vm r virt ≠ leaf_from m.vm m.vm.pml4_phys virt) := by
  obtain ⟨tag, I⟩ := reachable_inv h
  obtain ⟨hrt, hker⟩ := I.root r hr
  unfold arch_vm_unmap_page_in_root
  simp only [I.root_table hr]
  rw [if_neg hker, unmap_from_eq]
  rcases hl : leaf_from m.vm r virt with _ | pt
  · simp
  constructor
  · intro hsame
    right
    intro heq
    obtain ⟨va, hva⟩ := I.leaf_lost heq.symm
    exact hva (hsame va).1
  · intro hne va
    have hpt := I.private_leaf hrt hl (hl ▸ hne.resolve_left (by simp))
    apply I.walk_same (.inl I.kernel)
    intro f p hf
    apply Vm.write_row
    rintro rfl
    rcases hf with hf | hf
    all_goals exact hker (Prod.mk.inj (Option.some.inj (hpt.symm.trans hf))).1

/-! ## A machine with one user root -/

/-- A kernel whose tables start at 1 MiB and whose heap has one page, and a root
made after that page was mapped. -/
def atBoot : Memory := booted (fun _ _ => 0) 0x100000

def heapMapped : Memory := call atBoot [0x106000] (.map_page 0x40000000 0x600000 0x3)

def userRoot : Memory := call heapMapped [0x107000] .create_root

/-- The last memory is reached. Its tables are the six of the boot loader, the one
that split an entry for the heap, and the root. -/
theorem userRoot_reachable : memories.Reachable userRoot ∧
    TablesIn (bootFrames 0x100000 ++ [0x106000] ++ [0x107000]) userRoot := by
  have hframes : ∀ f ∈ bootFrames 0x100000, IsFrame f := by
    simp only [bootFrames, mem_cons, not_mem_nil, or_false, forall_eq_or_imp, forall_eq]
    decide
  have h0 : memories.Reachable atBoot := .of_init ⟨fun _ _ => 0, 0x100000, hframes, rfl⟩
  have t0 : TablesIn (bootFrames 0x100000) atBoot := booted_tables_in _ hframes
  have s0 : Supplied atBoot [0x106000] :=
    t0.supplied (by rw [forall_mem_singleton]; decide) (by decide)
  have h1 : memories.Reachable heapMapped :=
    h0.step (l := (.map_page 0x40000000 0x600000 0x3, [0x106000])) ⟨s0, trivial, rfl⟩
  have t1 := call_tables_in (c := .map_page 0x40000000 0x600000 0x3) h0 t0 s0 trivial
  have s1 : Supplied heapMapped [0x107000] :=
    t1.supplied (by rw [forall_mem_singleton]; decide) (by decide)
  exact ⟨h1.step (l := (.create_root, [0x107000])) ⟨s1, trivial, rfl⟩,
    call_tables_in (c := .create_root) h1 t1 s1 trivial⟩

theorem userRoot_supplied : Supplied userRoot [0x108000, 0x109000, 0x10A000] := by
  apply userRoot_reachable.2.supplied
  · simp only [mem_cons, not_mem_nil, or_false, forall_eq_or_imp, forall_eq]
    decide
  · decide

/-- The user root maps a page of the first gigabyte, and a 2 MiB entry is split. -/
def userMapped (virt phys flags : U64) : Bool × Vm :=
  arch_vm_map_page_in_root (userRoot.supplied [0x108000, 0x109000, 0x10A000]) 0x107000 virt phys flags

theorem a_mapping_moves_one_page_of_the_user_root :
    (userMapped 0x400000 0x700000 0x7).1 = true ∧
      arch_vm_get_phys_in_root (userMapped 0x400000 0x700000 0x7).2 0x107000 0x400123 = 0x700123 := by
  have hok : (userMapped 0x400000 0x700000 0x7).1 := by decide +kernel
  obtain ⟨_, _, h⟩ := a_mapping_moves_one_page_of_one_root userRoot_reachable.1 userRoot_supplied
    (r := 0x107000) (by decide +kernel) 0x400000 0x700000 0x7
  exact ⟨hok, (h hok).1 (by decide) 0x400123 (by decide)⟩

/-- Flags may carry address bits, and then the page that is mapped is another. The
walk ignores the bits above 47, so an address of another page may move too. -/
theorem a_mapping_can_move_to_and_from_other_pages :
    ∃ m supply r, memories.Reachable m ∧ Supplied m supply ∧ r ∈ m.roots ∧
      (∃ virt phys flags : BitVec 64, phys &&& ADDRESS_MASK = phys ∧ virt &&& 0xFFF = 0 ∧
        (arch_vm_map_page_in_root (m.supplied supply) r virt phys flags).1 = true ∧
        arch_vm_get_phys_in_root
          (arch_vm_map_page_in_root (m.supplied supply) r virt phys flags).2 r virt ≠ phys) ∧
      (∃ virt phys flags va : BitVec 64, va >>> 12 ≠ virt >>> 12 ∧
        (arch_vm_map_page_in_root (m.supplied supply) r virt phys flags).1 = true ∧
        arch_vm_get_phys_in_root
          (arch_vm_map_page_in_root (m.supplied supply) r virt phys flags).2 r va ≠
        arch_vm_get_phys_in_root m.vm r va) := by
  refine ⟨userRoot, _, 0x107000, userRoot_reachable.1, userRoot_supplied, by decide +kernel,
    ⟨0x400000, 0x700000, 0x1007, by decide, by decide, ?_, ?_⟩,
    ⟨0x400000, 0x700000, 0x7, 0x1000000400000, by decide, ?_, ?_⟩⟩
  all_goals decide +kernel

/-- A page that the user root mapped itself is in a table of its own, so that
unmapping it spares the kernel. -/
theorem an_unmapping_of_an_own_page_spares_the_kernel :
    let m := call userRoot [0x108000, 0x109000, 0x10A000]
      (.map_page_in_root 0x107000 0x40000000 0x700000 0x7)
    leaf_from m.vm 0x107000 0x40000000 ≠ leaf_from m.vm m.vm.pml4_phys 0x40000000 ∧
      arch_vm_get_phys (arch_vm_unmap_page_in_root m.vm 0x107000 0x40000000).2 0x40000000 =
        arch_vm_get_phys m.vm 0x40000000 := by
  intro m
  have hroot : (0x107000 : Frame) ∈ userRoot.roots := by decide +kernel
  have hm : memories.Reachable m := userRoot_reachable.1.step
    (l := (.map_page_in_root 0x107000 0x40000000 0x700000 0x7, [0x108000, 0x109000, 0x10A000]))
    ⟨userRoot_supplied, hroot, rfl⟩
  have hne : leaf_from m.vm 0x107000 0x40000000 ≠ leaf_from m.vm m.vm.pml4_phys 0x40000000 := by
    decide +kernel
  exact ⟨hne, ((an_unmapping_spares_the_kernel_iff hm hroot 0x40000000).mpr (.inr hne) 0x40000000).1⟩

/-- A program linked at the base of the kernel heap is accepted, and the unmapping
that comes before its alias is mapped takes the first page of the heap from the
kernel. -/
theorem an_unmapping_can_take_a_page_from_the_kernel :
    ∃ m r image program, memories.Reachable m ∧ r ∈ m.roots ∧
      elf.check_program (elf.get_execution_slot_bases 0) image = .ok program ∧
      ∃ virt, virt = BitVec.ofNat 64 (elf.alias_virt program 0) ∧
        arch_vm_get_phys (arch_vm_unmap_page_in_root m.vm r virt).2 virt ≠
          arch_vm_get_phys m.vm virt := by
  refine ⟨userRoot, 0x107000, elf.image_at 0x40000000 0x1000, ⟨true, 1, 0x09000000, 0x40000000, 1⟩,
    userRoot_reachable.1, ?_, ?_, 0x40000000, ?_, ?_⟩
  all_goals decide +kernel

end

/-! ## Tables of one root -/

/-- A frame is a table at one level, and of one root unless it is the kernel's and shared. -/
theorem a_table_has_one_place {m : Memory} (h : memories.Reachable m) {q r f : Frame} {n k : Nat}
    (hq : q ∈ m.vm.pml4_phys :: m.roots) (hr : r ∈ m.vm.pml4_phys :: m.roots)
    (hn : IsTable m.vm q n f) (hk : IsTable m.vm r k f) :
    n = k ∧ (q = r ∨ IsTable m.vm m.vm.pml4_phys n f) := by
  obtain ⟨tag, I⟩ := reachable_inv h
  have hroot : ∀ o ∈ m.vm.pml4_phys :: m.roots, tag o = some (o, []) :=
    forall_mem_cons.mpr ⟨I.kernel, fun o ho => (I.root o ho).1⟩
  obtain ⟨_, p, hp, hs⟩ := I.table_seen (hroot q hq) hn
  obtain ⟨_, p', hp', hs'⟩ := I.table_seen (hroot r hr) hk
  -- the frame has one tag, so both walks took the same path to it
  obtain ⟨_, ho⟩ := hs.tagged
  obtain ⟨_, ho'⟩ := hs'.tagged
  obtain ⟨-, rfl⟩ := Prod.mk.inj (Option.some.inj (ho.symm.trans ho'))
  refine ⟨by omega, ?_⟩
  by_cases hkernel : tag f = some (m.vm.pml4_phys, p)
  · right
    rw [show n = 3 - p.length by omega]
    exact (I.is_table hkernel).1
  · left
    have hsame := (hs.resolve_right hkernel).symm.trans (hs'.resolve_right hkernel)
    exact (Prod.mk.inj (Option.some.inj hsame)).1

/-- The user root shares a table with the kernel. -/
theorem a_shared_table_has_one_place : IsTable userRoot.vm 0x107000 2 0x101000 ∧
    IsTable userRoot.vm userRoot.vm.pml4_phys 2 0x101000 := by
  have hroot : (0x107000 : Frame) ∈ userRoot.vm.pml4_phys :: userRoot.roots := by decide +kernel
  have htable : IsTable userRoot.vm 0x107000 2 0x101000 :=
    .next (i := 0) .root (by decide +kernel) (by decide +kernel)
  have hkernel : IsTable userRoot.vm userRoot.vm.pml4_phys 2 0x101000 :=
    .next (i := 0) .root (by decide +kernel) (by decide +kernel)
  have hplace := a_table_has_one_place userRoot_reachable.1 hroot mem_cons_self htable hkernel
  exact ⟨htable, hplace.2.resolve_left (by decide +kernel)⟩

end mini_kernel.paging
