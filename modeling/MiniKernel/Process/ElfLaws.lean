-- Where an ELF program may ask to be mapped. The loader checks the length of the
-- range and the alignment of its start, and nothing says where it lies: the
-- range is clear of the kernel exactly when the segments lie in one window
-- between the ranges that are taken.
import MiniKernel.Process.Elf

open mini_kernel.lib mini_kernel.vm List

namespace mini_kernel.elf

/-- The first address above the canonical lower half. -/
def USER_CANONICAL_LIMIT : Nat := 2 ^ 47

/-! ## What the loop over the segments gathers -/

/-- A header that the loader gives memory to. -/
def Loadable (phdr : Elf64_Phdr) : Prop := phdr.p_type = ELF64_PT_LOAD ∧ phdr.p_memsz ≠ 0

instance (phdr : Elf64_Phdr) : Decidable (Loadable phdr) := inferInstanceAs (Decidable (_ ∧ _))

variable {size e_entry : Nat} {info info' : LoadInfo} {ps : List Elf64_Phdr} {image : Bytes}
  {program : Program}

/-- What one turn of the loop does when it does not fail: it passes a header
over, or it widens the range by a segment that does not wrap. -/
theorem collect_segment_cases {p : Elf64_Phdr} (hv : p.p_vaddr < 2 ^ 64) (hm : p.p_memsz < 2 ^ 64)
    (hs : collect_segment size e_entry info p = .ok info') : (¬ Loadable p ∧ info' = info) ∨
    (Loadable p ∧ p.p_vaddr + p.p_memsz < 2 ^ 64 ∧ info'.first_vaddr = min p.p_vaddr info.first_vaddr ∧
      info'.last_vaddr = max (p.p_vaddr + p.p_memsz) info.last_vaddr) := by
  unfold collect_segment at hs
  split at hs
  · rename_i ht
    cases hs
    exact .inl ⟨fun hl => ht hl.1, rfl⟩
  rename_i ht
  split at hs
  · rename_i h0
    split at hs
    · cases hs
      exact .inl ⟨fun hl => hl.2 h0, rfl⟩
    · cases hs
  rename_i h0
  split at hs
  · cases hs
  split at hs
  · cases hs
  split at hs
  · cases hs
  dsimp only at hs
  split at hs
  · cases hs
  rename_i hw
  have hw' : u64 (p.p_vaddr + p.p_memsz) = p.p_vaddr + p.p_memsz := by
    unfold u64 at *
    omega
  have hlt : p.p_vaddr + p.p_memsz < 2 ^ 64 := by
    unfold u64 at hw'
    omega
  rw [hw'] at hs
  cases hs
  refine .inr ⟨⟨by simpa using ht, h0⟩, hlt, ?_, ?_⟩
  · simp only
    split <;> omega
  · simp only
    split <;> omega

/-- The gathered range after some headers: the least start and the greatest end
of the segments among them. -/
structure Gathered (ps : List Elf64_Phdr) (info : LoadInfo) : Prop where
  lower : ∀ p ∈ ps, Loadable p → info.first_vaddr ≤ p.p_vaddr
  upper : ∀ p ∈ ps, Loadable p → p.p_vaddr + p.p_memsz ≤ info.last_vaddr
  first : (∃ p ∈ ps, Loadable p ∧ p.p_vaddr = info.first_vaddr) ∨
    (∀ p ∈ ps, ¬ Loadable p) ∧ info.first_vaddr = 0xFFFFFFFFFFFFFFFF
  last : (∃ p ∈ ps, Loadable p ∧ p.p_vaddr + p.p_memsz = info.last_vaddr) ∨
    (∀ p ∈ ps, ¬ Loadable p) ∧ info.last_vaddr = 0
  top : info.last_vaddr < 2 ^ 64
  count : info.load_count ≠ 0 → ∃ p ∈ ps, Loadable p

theorem gathered_nil : Gathered [] ⟨0, 0xFFFFFFFFFFFFFFFF, 0, false⟩ :=
  ⟨by simp, by simp, .inr ⟨by simp, rfl⟩, .inr ⟨by simp, rfl⟩, by decide, by simp⟩

/-- One turn of the loop keeps the gathered range right. -/
theorem Gathered.segment {p : Elf64_Phdr} (h : Gathered ps info) (hv : p.p_vaddr < 2 ^ 64)
    (hm : p.p_memsz < 2 ^ 64) (hs : collect_segment size e_entry info p = .ok info') :
    Gathered (ps ++ [p]) info' := by
  obtain ⟨h1, h2, h3, h4, h5, h6⟩ := h
  rcases collect_segment_cases hv hm hs with ⟨hl, rfl⟩ | ⟨hl, hw, hf, hla⟩
  · refine ⟨?_, ?_, ?_, ?_, h5, ?_⟩
    · simp only [forall_mem_append, forall_mem_singleton]
      exact ⟨h1, fun h => absurd h hl⟩
    · simp only [forall_mem_append, forall_mem_singleton]
      exact ⟨h2, fun h => absurd h hl⟩
    · rcases h3 with ⟨q, hq, h⟩ | ⟨hn, h⟩
      · exact .inl ⟨q, by simp [hq], h⟩
      · exact .inr ⟨forall_mem_append.mpr ⟨hn, by simpa using hl⟩, h⟩
    · rcases h4 with ⟨q, hq, h⟩ | ⟨hn, h⟩
      · exact .inl ⟨q, by simp [hq], h⟩
      · exact .inr ⟨forall_mem_append.mpr ⟨hn, by simpa using hl⟩, h⟩
    · intro hc
      obtain ⟨q, hq, hlq⟩ := h6 hc
      exact ⟨q, by simp [hq], hlq⟩
  · refine ⟨?_, ?_, ?_, ?_, by omega, fun _ => ⟨p, by simp, hl⟩⟩
    · simp only [forall_mem_append, forall_mem_singleton]
      exact ⟨fun q hq hlq => by have := h1 q hq hlq; omega, fun _ => by omega⟩
    · simp only [forall_mem_append, forall_mem_singleton]
      exact ⟨fun q hq hlq => by have := h2 q hq hlq; omega, fun _ => by omega⟩
    · left
      by_cases hlt : p.p_vaddr ≤ info.first_vaddr
      · exact ⟨p, by simp, hl, by omega⟩
      · rcases h3 with ⟨q, hq, hlq, h⟩ | ⟨_, h⟩
        · exact ⟨q, by simp [hq], hlq, by omega⟩
        · omega
    · left
      by_cases hlt : info.last_vaddr ≤ p.p_vaddr + p.p_memsz
      · exact ⟨p, by simp, hl, by omega⟩
      · rcases h4 with ⟨q, hq, hlq, h⟩ | ⟨_, h⟩
        · exact ⟨q, by simp [hq], hlq, by omega⟩
        · omega

/-- The loop keeps it over all headers. -/
theorem Gathered.loop {qs : List Elf64_Phdr}
    (h : Gathered ps info) (hb : ∀ p ∈ qs, p.p_vaddr < 2 ^ 64 ∧ p.p_memsz < 2 ^ 64)
    (hs : qs.foldlM (collect_segment size e_entry) info = .ok info') : Gathered (ps ++ qs) info' := by
  induction qs generalizing ps info with
  | nil =>
    cases hs
    simpa using h
  | cons q qs ih =>
    rw [foldlM_cons] at hs
    rw [forall_mem_cons] at hb
    cases hq : collect_segment size e_entry info q with
    | error e =>
      rw [hq] at hs
      cases hs
    | ok mid =>
      rw [hq] at hs
      have := ih (h.segment hb.1.1 hb.1.2 hq) hb.2 hs
      simpa using this

theorem phdrs_bounds (image : Bytes) (header : Elf64_Ehdr) :
    ∀ p ∈ phdrs image header, p.p_vaddr < 2 ^ 64 ∧ p.p_memsz < 2 ^ 64 := by
  intro p hp
  obtain ⟨i, _, rfl⟩ := mem_map.mp hp
  exact ⟨leAt_lt image _ 8, leAt_lt image _ 8⟩

/-! ## What the loader accepts -/

theorem of_ite_none {α : Type} {c : Prop} [Decidable c] {x : Option α} {y : α}
    (h : (if c then none else x) = some y) : x = some y := by
  split at h
  · cases h
  · exact h

/-- A supported image is read by its own header. -/
theorem validate_header {header : Elf64_Ehdr}
    (h : elf64_validate_supported_image image = some header) : header = readEhdr image := by
  unfold elf64_validate_supported_image at h
  iterate 13 replace h := of_ite_none h
  exact (Option.some.inj h).symm

/-- The gathered range of an image with segments. -/
theorem collect_ok {header : Elf64_Ehdr} (h : elf64_collect_load_info image header = .ok info) :
    Gathered (phdrs image header) info ∧ ∃ p ∈ phdrs image header, Loadable p := by
  unfold elf64_collect_load_info at h
  cases hs : (phdrs image header).foldlM (collect_segment image.length header.e_entry)
      ⟨0, 0xFFFFFFFFFFFFFFFF, 0, false⟩ with
  | error e =>
    rw [hs] at h
    cases h
  | ok mid =>
    have hg := gathered_nil.loop (phdrs_bounds image header) hs
    rw [nil_append] at hg
    rw [hs] at h
    simp only [bind, Except.bind] at h
    split_ifs at h with hc
    cases h
    exact ⟨hg, hg.count hc⟩

/-- An accepted image: its segments span `[first, last)`, which starts at a page
and fits the slot, and the alias and the code are the pages of that span. -/
theorem check_elf_image_ok {slot : Slot} (hslot : slot.stack_base - slot.code_base < 2 ^ 32)
    (h : check_elf_image slot image = .ok program) :
    ∃ info, Gathered (phdrs image (readEhdr image)) info ∧
      program.elf_link_base = info.first_vaddr ∧ info.first_vaddr % VM_PAGE_SIZE = 0 ∧
      info.first_vaddr < info.last_vaddr ∧
      info.last_vaddr - info.first_vaddr ≤ slot.stack_base - slot.code_base ∧
      program.elf_alias_page_count =
        (info.last_vaddr - info.first_vaddr + VM_PAGE_SIZE - 1) / VM_PAGE_SIZE ∧
      program.code_page_count = program.elf_alias_page_count := by
  unfold check_elf_image at h
  split at h
  · cases h
  rename_i header hv
  obtain rfl := validate_header hv
  split at h
  · cases h
  rename_i info hc
  obtain ⟨hg, q, hq, hlq⟩ := collect_ok hc
  dsimp only at h
  split_ifs at h with hsize hpage
  cases h
  have htop := hg.top
  have hlt : info.first_vaddr < info.last_vaddr := by
    have h1 := hg.lower q hq hlq
    have h2 := hg.upper q hq hlq
    have h3 := hlq.2
    omega
  have hsub : u64 (info.last_vaddr + 2 ^ 64 - info.first_vaddr) =
      info.last_vaddr - info.first_vaddr := by
    unfold u64
    omega
  rw [hsub] at hsize
  refine ⟨info, hg, rfl, by simpa using hpage, hlt, by omega, ?_, rfl⟩
  simp only [hsub]
  refine u32_of_lt ?_
  unfold VM_PAGE_SIZE
  omega

/-- The span of the segments is measured against the stack, one page beyond the guard. -/
theorem slot_room (slot_index : Nat) : (get_execution_slot_bases slot_index).stack_base -
    (get_execution_slot_bases slot_index).code_base = 0x101000 := by
  simp only [get_execution_slot_bases, USER_SLOT0_CODE_BASE, USER_SLOT0_STACK_BASE,
    USER_STACK_GUARD_PAGE_COUNT, VM_PAGE_SIZE]
  omega

/-! ## Clear of the kernel -/

/-- The addresses of the pages of the alias. -/
def InAlias (program : Program) (a : Nat) : Prop :=
  ∃ i < program.elf_alias_page_count,
    alias_virt program i ≤ a ∧ a < alias_virt program i + VM_PAGE_SIZE

/-- The alias lies in the canonical lower half, clear of the kernel heap, the
kernel surfaces, and the code, the guard and the stack of its own slot. -/
def Clear (slot : Slot) (program : Program) : Prop :=
  ∀ a, InAlias program a →
    a < USER_CANONICAL_LIMIT ∧
    ¬ (VM_KERNEL_HEAP_BASE ≤ a ∧ a < VM_KERNEL_HEAP_LIMIT) ∧
    ¬ (VM_KERNEL_SURFACE_BASE ≤ a ∧ a < VM_KERNEL_SURFACE_LIMIT) ∧
    ¬ (slot.code_base ≤ a ∧ a < slot.stack_guard_base) ∧
    ¬ (slot.stack_guard_base ≤ a ∧ a < slot.stack_base) ∧
    ¬ (slot.stack_base ≤ a ∧ a < slot.stack_top)

/-- The windows between the ranges that are taken, from low to high. -/
def windows (slot : Slot) : List (Nat × Nat) :=
  [(0, slot.code_base), (slot.stack_top, VM_KERNEL_HEAP_BASE),
    (VM_KERNEL_HEAP_LIMIT, VM_KERNEL_SURFACE_BASE), (VM_KERNEL_SURFACE_LIMIT, USER_CANONICAL_LIMIT)]

theorem inAlias_iff
    (htop : program.elf_link_base + program.elf_alias_page_count * VM_PAGE_SIZE ≤ 2 ^ 64) (a : Nat) :
    InAlias program a ↔ program.elf_link_base ≤ a ∧
      a < program.elf_link_base + program.elf_alias_page_count * VM_PAGE_SIZE := by
  have hv : ∀ i < program.elf_alias_page_count,
      alias_virt program i = program.elf_link_base + i * VM_PAGE_SIZE := by
    intro i hi
    refine u64_of_lt ?_
    unfold VM_PAGE_SIZE at *
    omega
  unfold InAlias
  constructor
  · rintro ⟨i, hi, h1, h2⟩
    rw [hv i hi] at h1 h2
    unfold VM_PAGE_SIZE at *
    omega
  · rintro ⟨h1, h2⟩
    refine ⟨(a - program.elf_link_base) / VM_PAGE_SIZE, ?_, ?_⟩
    · unfold VM_PAGE_SIZE at *
      omega
    · rw [hv]
      all_goals
        unfold VM_PAGE_SIZE at *
        omega

/-- A range of addresses that misses every taken range lies between two of them. -/
theorem clear_iff_window {slot_index : Nat} (hslot : slot_index < USER_PROGRAM_SLOT_COUNT)
    {first last : Nat} (hlt : first < last) (hin : ∀ a, InAlias program a ↔ first ≤ a ∧ a < last) :
    Clear (get_execution_slot_bases slot_index) program ↔
      ∃ w ∈ windows (get_execution_slot_bases slot_index), w.1 ≤ first ∧ last ≤ w.2 := by
  unfold Clear windows get_execution_slot_bases
  simp only [hin, mem_cons, not_mem_nil, or_false, exists_eq_or_imp, exists_eq_left,
    USER_SLOT0_CODE_BASE, USER_SLOT0_STACK_BASE, USER_SLOT_SPAN, USER_STACK_GUARD_PAGE_COUNT,
    USER_STACK_PAGE_COUNT, VM_PAGE_SIZE, VM_KERNEL_HEAP_BASE, VM_KERNEL_HEAP_LIMIT,
    VM_KERNEL_SURFACE_BASE, VM_KERNEL_SURFACE_LIMIT, USER_CANONICAL_LIMIT]
  unfold USER_PROGRAM_SLOT_COUNT at hslot
  constructor
  · intro h
    -- the first and the last address, and the first address of each taken range
    have h1 := h first
    have h2 := h (last - 1)
    have h3 := h (0x09000000 + slot_index * 0x00200000)
    have h4 := h 0x40000000
    have h5 := h 0x78000000
    omega
  · intro h a ha
    omega

/-- The segments lie in a range exactly when their span does. -/
theorem Gathered.within (h : Gathered ps info) (hlt : info.first_vaddr < info.last_vaddr) (lo hi : Nat) :
    (∀ p ∈ ps, Loadable p → lo ≤ p.p_vaddr ∧ p.p_vaddr + p.p_memsz ≤ hi) ↔
      lo ≤ info.first_vaddr ∧ info.last_vaddr ≤ hi := by
  have htop := h.top
  constructor
  · intro hp
    obtain ⟨q, hq, hlq, hfirst⟩ := h.first.resolve_right fun hn => by omega
    obtain ⟨r, hr, hlr, hlast⟩ := h.last.resolve_right fun hn => by omega
    have h1 := hp q hq hlq
    have h2 := hp r hr hlr
    omega
  · intro hw p hp hl
    have h1 := h.lower p hp hl
    have h2 := h.upper p hp hl
    omega

/-- How far the segments are apart is the length of their span. -/
theorem Gathered.span (h : Gathered ps info) (hlt : info.first_vaddr < info.last_vaddr) (size : Nat) :
    (∀ p ∈ ps, Loadable p → ∀ q ∈ ps, Loadable q → p.p_vaddr + p.p_memsz ≤ q.p_vaddr + size) ↔
      info.last_vaddr ≤ info.first_vaddr + size := by
  have htop := h.top
  constructor
  · intro hspan
    obtain ⟨q, hq, hlq, hfirst⟩ := h.first.resolve_right fun hn => by omega
    obtain ⟨p, hp, hlp, hlast⟩ := h.last.resolve_right fun hn => by omega
    have := hspan p hp hlp q hq hlq
    omega
  · intro hle p hp hlp q hq hlq
    have := h.upper p hp hlp
    have := h.lower q hq hlq
    omega

theorem windows_paged (slot_index : Nat) :
    ∀ w ∈ windows (get_execution_slot_bases slot_index), w.2 % VM_PAGE_SIZE = 0 := by
  intro w hw
  simp only [windows, mem_cons, not_mem_nil, or_false] at hw
  rcases hw with rfl | rfl | rfl | rfl
  · simp only [get_execution_slot_bases, USER_SLOT0_CODE_BASE, USER_SLOT_SPAN, VM_PAGE_SIZE]
    omega
  · exact (by decide : VM_KERNEL_HEAP_BASE % VM_PAGE_SIZE = 0)
  · exact (by decide : VM_KERNEL_SURFACE_BASE % VM_PAGE_SIZE = 0)
  · exact (by decide : USER_CANONICAL_LIMIT % VM_PAGE_SIZE = 0)

/-- The alias of an accepted image is clear of the kernel and of its own slot
exactly when all its segments lie in one of the windows. -/
theorem an_image_is_clear_iff_its_segments_share_a_window {slot_index : Nat}
    (hslot : slot_index < USER_PROGRAM_SLOT_COUNT) {image : List UInt8} {program : Program}
    (h : check_elf_image (get_execution_slot_bases slot_index) image = .ok program) :
    Clear (get_execution_slot_bases slot_index) program ↔
      ∃ w ∈ windows (get_execution_slot_bases slot_index),
        ∀ p ∈ phdrs image (readEhdr image), Loadable p →
          w.1 ≤ p.p_vaddr ∧ p.p_vaddr + p.p_memsz ≤ w.2 := by
  obtain ⟨info, hg, hbase, hpage, hlt, -, hcount, -⟩ :=
    check_elf_image_ok (by simp [slot_room]) h
  have htop := hg.top
  -- the alias ends at the first page boundary from the last segment on
  obtain ⟨e, he⟩ : ∃ e, info.first_vaddr + program.elf_alias_page_count * VM_PAGE_SIZE = e :=
    ⟨_, rfl⟩
  have hend : info.last_vaddr ≤ e ∧ e < info.last_vaddr + VM_PAGE_SIZE ∧ e % VM_PAGE_SIZE = 0 := by
    unfold VM_PAGE_SIZE at *
    omega
  have hin : ∀ a, InAlias program a ↔ info.first_vaddr ≤ a ∧ a < e := by
    intro a
    rw [inAlias_iff, hbase, he]
    rw [hbase, he]
    unfold VM_PAGE_SIZE at *
    omega
  rw [clear_iff_window hslot (by omega) hin]
  refine exists_congr fun w => and_congr_right fun hw => ?_
  have hw2 := windows_paged slot_index w hw
  rw [hg.within hlt]
  unfold VM_PAGE_SIZE at *
  omega

/-! ## Images with one segment -/

/-- A program of one segment, whose bytes are its own headers. -/
def image_at (vaddr memsz : Nat) : Bytes :=
  [0x7F, 0x45, 0x4C, 0x46, 2, 1, 1, 0, 0, 0, 0, 0, 0, 0, 0, 0] ++
  leBytes 2 2 ++ leBytes 62 2 ++ leBytes 1 4 ++ leBytes vaddr 8 ++ leBytes 64 8 ++ leBytes 0 8 ++
  leBytes 0 4 ++ leBytes 64 2 ++ leBytes 56 2 ++ leBytes 1 2 ++ leBytes 0 2 ++ leBytes 0 2 ++
  leBytes 0 2 ++
  leBytes 1 4 ++ leBytes 5 4 ++ leBytes 0 8 ++ leBytes vaddr 8 ++ leBytes vaddr 8 ++
  leBytes 120 8 ++ leBytes memsz 8 ++ leBytes 0x1000 8

/-- A program linked at the usual address is accepted, and is clear. -/
theorem an_image_at_0x400000_is_clear :
    ∃ program, check_elf_image (get_execution_slot_bases 0) (image_at 0x400000 0x1000) = .ok program ∧
      Clear (get_execution_slot_bases 0) program := by
  have h : check_elf_image (get_execution_slot_bases 0) (image_at 0x400000 0x1000) =
      .ok ⟨true, 1, 0x09000000, 0x400000, 1⟩ := by decide +kernel
  refine ⟨_, h, (an_image_is_clear_iff_its_segments_share_a_window (by decide) h).mpr ?_⟩
  exact ⟨(0, 0x09000000), by decide, by decide +kernel⟩

/-- A program linked at the base of the kernel heap is accepted, and its alias
covers the first page of the heap. -/
theorem an_image_can_shadow_the_kernel_heap :
    ¬ ∀ (slot_index : Nat) (image : List UInt8) (program : Program),
      slot_index < USER_PROGRAM_SLOT_COUNT →
      check_program (get_execution_slot_bases slot_index) image = .ok program →
      Clear (get_execution_slot_bases slot_index) program := by
  intro h
  have hc : check_program (get_execution_slot_bases 0) (image_at 0x40000000 0x1000) =
      .ok ⟨true, 1, 0x09000000, 0x40000000, 1⟩ := by decide +kernel
  have := h 0 _ _ (by decide) hc 0x40000000 ⟨0, by decide, by decide, by decide⟩
  exact this.2.1 (by decide)

/-! ## The code and the stack of a slot -/

/-- The addresses of the code pages that the loader maps. -/
def InCode (slot : Slot) (program : Program) (a : Nat) : Prop :=
  ∃ page < program.code_page_count,
    slot.code_base + page * VM_PAGE_SIZE ≤ a ∧ a < slot.code_base + page * VM_PAGE_SIZE + VM_PAGE_SIZE

/-- The segments of the image span at most 1 MiB, the room from the code base to the guard. -/
def Short (image : Bytes) : Prop :=
  ∀ p ∈ phdrs image (readEhdr image), Loadable p → ∀ q ∈ phdrs image (readEhdr image), Loadable q →
    p.p_vaddr + p.p_memsz ≤ q.p_vaddr + 0x100000

/-- The code pages of an accepted program end at the stack at the latest, and at the guard if
its segments are short. -/
theorem code_page_count_spec {slot_index : Nat}
    (h : check_program (get_execution_slot_bases slot_index) image = .ok program) :
    program.code_page_count ≤ 257 ∧
      (program.code_page_count ≤ 256 ↔ elf64_has_magic image → Short image) := by
  unfold check_program at h
  split_ifs at h with hsize hdrv hmagic hlong
  · obtain ⟨info, hg, -, -, hlt, hroom, hcount, heq⟩ := check_elf_image_ok (by simp [slot_room]) h
    rw [slot_room] at hroom
    simp only [hmagic, Short, true_imp_iff, hg.span hlt, heq, hcount, VM_PAGE_SIZE]
    omega
  · cases h
    simp [hmagic]

/-- In every slot the code pages of an accepted program miss the stack, and they miss the
guard below it exactly when the segments of an ELF image span at most 1 MiB. -/
theorem code_misses_the_stack_and_short_code_the_guard {slot_index : Nat} {image : List UInt8}
    {program : Program} (h : check_program (get_execution_slot_bases slot_index) image = .ok program) :
    (∀ a, InCode (get_execution_slot_bases slot_index) program a →
      ¬ ((get_execution_slot_bases slot_index).stack_base ≤ a ∧
        a < (get_execution_slot_bases slot_index).stack_top)) ∧
    ((∀ a, InCode (get_execution_slot_bases slot_index) program a →
      ¬ ((get_execution_slot_bases slot_index).stack_guard_base ≤ a ∧
        a < (get_execution_slot_bases slot_index).stack_base)) ↔
      (elf64_has_magic image → Short image)) := by
  obtain ⟨hle, hshort⟩ := code_page_count_spec h
  rw [← hshort]
  simp only [InCode, get_execution_slot_bases, USER_SLOT0_CODE_BASE, USER_SLOT0_STACK_BASE,
    USER_STACK_GUARD_PAGE_COUNT, USER_STACK_PAGE_COUNT, VM_PAGE_SIZE]
  refine ⟨?_, ?_, ?_⟩
  · rintro a ⟨page, hpage, hlo, hhi⟩
    omega
  · intro hmiss
    by_contra hmore
    -- page 256 is the guard
    exact hmiss _ ⟨256, by omega, le_rfl, by omega⟩ (by omega)
  · rintro hfew a ⟨page, hpage, hlo, hhi⟩
    omega

theorem a_page_of_code_misses_the_guard :
    check_program (get_execution_slot_bases 0) (image_at 0x400000 0x1000) =
        .ok ⟨true, 1, 0x09000000, 0x400000, 1⟩ ∧
      ¬ InCode (get_execution_slot_bases 0) ⟨true, 1, 0x09000000, 0x400000, 1⟩ 0x09100000 := by
  have h : check_program (get_execution_slot_bases 0) (image_at 0x400000 0x1000) =
      .ok ⟨true, 1, 0x09000000, 0x400000, 1⟩ := by decide +kernel
  have hshort : Short (image_at 0x400000 0x1000) := by
    unfold Short
    decide +kernel
  exact ⟨h, fun hin => (code_misses_the_stack_and_short_code_the_guard h).2.mpr (fun _ => hshort) _ hin
    (by decide)⟩

/-- A program with a little more than 1 MiB of memory is accepted, and its last code page is
the guard. -/
theorem code_can_lie_on_the_guard :
    ∃ program, check_program (get_execution_slot_bases 0) (image_at 0x400000 0x100001) = .ok program ∧
      InCode (get_execution_slot_bases 0) program (get_execution_slot_bases 0).stack_guard_base :=
  ⟨⟨true, 257, 0x09000000, 0x400000, 257⟩, by decide +kernel, 256, by decide, by decide, by decide⟩

end mini_kernel.elf
