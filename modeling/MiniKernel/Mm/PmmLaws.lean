-- The laws of the physical allocator over whole runs: the counter is the number of
-- clear bits, the hint stays in range, what is out is apart and marked, a block that
-- never was out is as it was after the start, and an allocation fails only for want
-- of free blocks.
import MiniKernel.Lib.Extents
import MiniKernel.Lib.Machine
import MiniKernel.Mm.Pmm

open mini_kernel.lib

namespace mini_kernel.pmm

section
variable {p : Pmm} {first count index start block : Nat}

/-! ## The books of one block -/

/-- The counter is right and the hint is in range. -/
structure Counted (p : Pmm) : Prop where
  free : p.free_blocks64 = p.memory_bitmap64.clear PMM_TOTAL_BLOCKS
  hint : p.next_free_hint64 < PMM_TOTAL_BLOCKS

theorem total_blocks_lt : PMM_TOTAL_BLOCKS < 2 ^ 32 := by decide

theorem total_blocks_pos : 0 < PMM_TOTAL_BLOCKS := by decide

theorem mark_block_used_counted (h : Counted p) (index : Nat) : Counted (mark_block_used64 p index) := by
  unfold mark_block_used64
  split
  · exact h
  rename_i hi
  split
  · exact h
  rename_i hb
  rw [Bool.not_eq_true] at hb
  refine ⟨?_, h.hint⟩
  have hset := Bitmap.clear_set (n := PMM_TOTAL_BLOCKS) (Nat.lt_of_not_le hi) hb
  have hfree := h.free
  simp only
  omega

theorem mark_block_used_test (hi : index < PMM_TOTAL_BLOCKS) (block : Nat) :
    (mark_block_used64 p index).mmap_test64 block = (decide (block = index) || p.mmap_test64 block) := by
  unfold mark_block_used64
  rw [if_neg (Nat.not_le.mpr hi)]
  split
  · rename_i hb
    by_cases heq : block = index
    · simp [heq, hb]
    · simp [heq]
  · simp [Pmm.mmap_test64]

theorem mark_block_used_keeps (hb : p.mmap_test64 block) (index : Nat) :
    (mark_block_used64 p index).mmap_test64 block := by
  by_cases hi : index < PMM_TOTAL_BLOCKS
  · simp [mark_block_used_test hi, hb]
  · simpa [mark_block_used64, Nat.le_of_not_lt hi] using hb

theorem mark_block_free_counted (h : Counted p) (index : Nat) : Counted (mark_block_free64 p index) := by
  unfold mark_block_free64
  split
  · exact h
  rename_i hi
  split
  · rename_i hb
    have hunset := Bitmap.clear_unset (n := PMM_TOTAL_BLOCKS) (Nat.lt_of_not_le hi) hb
    have hle := Bitmap.clear_le (p.memory_bitmap64.unset index) PMM_TOTAL_BLOCKS
    have hfree := h.free
    have hhint := h.hint
    have hlt := total_blocks_lt
    refine ⟨?_, ?_⟩
    · simp only
      rw [u32_of_lt (by omega)]
      omega
    · simp only
      split <;> omega
  · exact h

theorem mark_block_free_test (hi : index < PMM_TOTAL_BLOCKS) (block : Nat) :
    (mark_block_free64 p index).mmap_test64 block = (!decide (block = index) && p.mmap_test64 block) := by
  unfold mark_block_free64
  rw [if_neg (Nat.not_le.mpr hi)]
  split
  · simp [Pmm.mmap_test64]
  · rename_i hb
    by_cases heq : block = index
    · simpa [heq] using hb
    · simp [heq]

theorem hint_at_counted (h : Counted p) (next : Nat) : Counted (p.hint_at next) := by
  refine ⟨h.free, ?_⟩
  unfold Pmm.hint_at
  simp only
  split
  · exact total_blocks_pos
  · omega

/-! ## The loops that mark -/

section
variable {P : Pmm → Prop}

section
variable (used : ∀ {q : Pmm}, P q → ∀ index, P (mark_block_used64 q index))
include used

theorem mark_blocks_used_rule (h : P p) (first count : Nat) : P (mark_blocks_used p first count) := by
  induction count with
  | zero => exact h
  | succ count ih => exact used ih _

theorem mark_range_used_rule (h : P p) (start finish : Nat) : P (mark_range_used64 p start finish) := by
  unfold mark_range_used64
  split
  · exact h
  · exact mark_blocks_used_rule used h _ _

theorem mark_range_size_used_rule (h : P p) (start size : Nat) : P (mark_range_size_used64 p start size) := by
  unfold mark_range_size_used64
  split
  · exact h
  · exact mark_range_used_rule used h _ _

theorem reserve_ranges_rule (boot_info : BootInfo) (h : P p) (count : Nat) :
    P (reserve_ranges boot_info p count) := by
  induction count with
  | zero => exact h
  | succ count ih => exact mark_range_size_used_rule used ih _ _

theorem reserve_boot_info_ranges_rule (boot_info : BootInfo) (h : P p) :
    P (reserve_boot_info_ranges64 p boot_info) := by
  unfold reserve_boot_info_ranges64
  simp only
  split_ifs
  · exact mark_range_size_used_rule used h _ _
  · exact h
  · exact reserve_ranges_rule used _ (mark_range_size_used_rule used h _ _) _
  · exact reserve_ranges_rule used _ h _

end

theorem mark_blocks_free_rule (free : ∀ {q : Pmm}, P q → ∀ index, P (mark_block_free64 q index)) (h : P p)
    (first count : Nat) : P (mark_blocks_free p first count) := by
  induction count with
  | zero => exact h
  | succ count ih => exact free ih _

end

/-- One block more at the end. -/
private theorem covers_succ : (⟨first, count + 1⟩ : Extent).Covers block ↔ block = first + count ∨
    (⟨first, count⟩ : Extent).Covers block := by
  simp only [Extent.Covers]
  omega

theorem mark_blocks_used_test (h : first + count ≤ PMM_TOTAL_BLOCKS) (block : Nat) :
    (mark_blocks_used p first count).mmap_test64 block =
      (decide ((⟨first, count⟩ : Extent).Covers block) || p.mmap_test64 block) := by
  have hlt := total_blocks_lt
  induction count with
  | zero =>
    have hno : ¬ (⟨first, 0⟩ : Extent).Covers block := by simp only [Extent.Covers]; omega
    simp [mark_blocks_used, hno]
  | succ count ih =>
    rw [mark_blocks_used, u32_of_lt (by omega), mark_block_used_test (by omega), ih (by omega)]
    simp only [covers_succ, Bool.decide_or, Bool.or_assoc]

theorem mark_blocks_free_test (h : first + count ≤ PMM_TOTAL_BLOCKS) (block : Nat) :
    (mark_blocks_free p first count).mmap_test64 block =
      (!decide ((⟨first, count⟩ : Extent).Covers block) && p.mmap_test64 block) := by
  have hlt := total_blocks_lt
  induction count with
  | zero =>
    have hno : ¬ (⟨first, 0⟩ : Extent).Covers block := by simp only [Extent.Covers]; omega
    simp [mark_blocks_free, hno]
  | succ count ih =>
    rw [mark_blocks_free, u32_of_lt (by omega), mark_block_free_test (by omega), ih (by omega)]
    simp only [covers_succ, Bool.decide_or, Bool.not_or, Bool.and_assoc]

theorem mark_blocks_used_of_used (hn : first + count ≤ PMM_TOTAL_BLOCKS)
    (h : ∀ block, first ≤ block → block < first + count → p.mmap_test64 block) :
    mark_blocks_used p first count = p := by
  have hlt := total_blocks_lt
  induction count with
  | zero => rfl
  | succ count ih =>
    rw [mark_blocks_used, u32_of_lt (by omega), ih (by omega) fun block hlo hhi => h block hlo (by omega)]
    simp [mark_block_used64, h (first + count) (by omega) (by omega)]

/-! ## The start -/

theorem mark_all_used_test (h : block < PMM_TOTAL_BLOCKS) : (mark_all_used64 p).mmap_test64 block := by
  apply Bitmap.test_fill
  simp only [PMM_BITMAP_SIZE, PMM_TOTAL_BLOCKS, PMM_MAX_RAM_SIZE, PMM_PAGE_SIZE] at h ⊢
  omega

theorem mark_all_used_counted (p : Pmm) : Counted (mark_all_used64 p) := by
  refine ⟨?_, total_blocks_pos⟩
  symm
  apply Bitmap.clear_eq_zero_iff.mpr
  intro bit hbit
  exact mark_all_used_test hbit

theorem mark_range_free_counted (h : Counted p) (start finish : Nat) :
    Counted (mark_range_free64 p start finish) := by
  unfold mark_range_free64
  simp only
  split_ifs
  · exact h
  · exact h
  · exact mark_blocks_free_rule mark_block_free_counted h _ _

theorem free_entries_counted (boot_info : BootInfo) (h : Counted p) (count : Nat) :
    Counted (free_entries boot_info p count) := by
  induction count with
  | zero => exact h
  | succ count ih =>
    unfold free_entries free_entry
    split_ifs
    · exact ih
    · exact ih
    · exact mark_range_free_counted ih _ _

theorem low_memory_blocks (p : Pmm) :
    mark_range_used64 p 0 LOW_MEMORY_RESERVE_SIZE = mark_blocks_used p 0 512 := by
  have hfirst : align_down 0 PMM_PAGE_SIZE / PMM_PAGE_SIZE = 0 := by decide
  have hlast : min (align_up LOW_MEMORY_RESERVE_SIZE PMM_PAGE_SIZE / PMM_PAGE_SIZE) PMM_TOTAL_BLOCKS = 512 := by
    decide
  unfold mark_range_used64
  rw [if_neg (by decide), hfirst, hlast]

/-- The low memory is reserved, the first block with it. -/
theorem low_memory_used (p : Pmm) : (mark_range_used64 p 0 LOW_MEMORY_RESERVE_SIZE).mmap_test64 0 := by
  rw [low_memory_blocks, mark_blocks_used_test (by decide), Bool.or_eq_true]
  left
  decide

/-- All blocks are used, or those that the map frees are free but for the reserved ones. -/
theorem pmm_init_cases (p : Pmm) (boot_info : Option BootInfo) :
    (∃ q, pmm_init p boot_info = mark_all_used64 q) ∨
    ∃ q b, boot_info = some b ∧ pmm_init p boot_info = reserve_boot_info_ranges64 (mark_range_used64
      (free_entries b (mark_all_used64 q) (min b.memory_map_entry_count E820_MAX_ENTRIES))
        0 LOW_MEMORY_RESERVE_SIZE) b := by
  unfold pmm_init
  cases boot_info with
  | none => exact .inl ⟨_, rfl⟩
  | some b =>
    simp only [init_from_e820_64]
    by_cases hvalid : b.magic ≠ BOOT_INFO_MAGIC ∨ b.memory_map_entry_count = 0
    · rw [if_pos hvalid]
      exact .inl ⟨_, rfl⟩
    · rw [if_neg hvalid]
      exact .inr ⟨_, b, rfl, rfl⟩

theorem pmm_init_counted (p : Pmm) (boot_info : Option BootInfo) : Counted (pmm_init p boot_info) := by
  rcases pmm_init_cases p boot_info with ⟨q, heq⟩ | ⟨q, b, -, heq⟩
  · rw [heq]
    exact mark_all_used_counted q
  · rw [heq]
    apply reserve_boot_info_ranges_rule mark_block_used_counted
    apply mark_range_used_rule mark_block_used_counted
    apply free_entries_counted
    exact mark_all_used_counted q

/-- The block at address zero is never free, so that no allocation answers zero for
a block it took. -/
theorem pmm_init_first_used (p : Pmm) (boot_info : Option BootInfo) :
    (pmm_init p boot_info).mmap_test64 0 := by
  rcases pmm_init_cases p boot_info with ⟨q, heq⟩ | ⟨q, b, -, heq⟩
  · rw [heq]
    exact mark_all_used_test total_blocks_pos
  · rw [heq]
    apply reserve_boot_info_ranges_rule (P := fun p => p.mmap_test64 0 = true) mark_block_used_keeps
    exact low_memory_used _

/-! ## The scans -/

variable {step turns i : Nat}

section
variable (hs : start < PMM_TOTAL_BLOCKS)
include hs

theorem scan_index_lt (h : step < PMM_TOTAL_BLOCKS) : scan_index start step < PMM_TOTAL_BLOCKS := by
  unfold scan_index
  split <;> omega

/-- The scan comes by every block. -/
theorem scan_index_onto (h : block < PMM_TOTAL_BLOCKS) :
    ∃ step < PMM_TOTAL_BLOCKS, scan_index start step = block := by
  by_cases hb : start ≤ block
  · refine ⟨block - start, by omega, ?_⟩
    unfold scan_index
    rw [if_neg (by omega)]
    omega
  · refine ⟨block + PMM_TOTAL_BLOCKS - start, by omega, ?_⟩
    unfold scan_index
    rw [if_pos (by omega)]
    omega

theorem scan_some (hn : step + turns ≤ PMM_TOTAL_BLOCKS) (h : scan p start turns step = some i) :
    i < PMM_TOTAL_BLOCKS ∧ p.mmap_test64 i = false := by
  induction turns generalizing step with
  | zero => cases h
  | succ turns ih =>
    unfold scan at h
    split at h
    · rename_i hb
      injection h with h
      subst h
      exact ⟨scan_index_lt hs (by omega), by simpa using hb⟩
    · exact ih (by omega) h

end

theorem scan_none (h : scan p start turns step = none) :
    ∀ k, step ≤ k → k < step + turns → p.mmap_test64 (scan_index start k) := by
  induction turns generalizing step with
  | zero => intro k hk hlt; omega
  | succ turns ih =>
    unfold scan at h
    split at h
    · cases h
    rename_i hb
    intro k hk hlt
    by_cases heq : k = step
    · subst heq
      simpa using hb
    · exact ih h k (by omega) (by omega)

/-- All blocks from `first` up to `stop` are free. -/
def Free (p : Pmm) (first stop : Nat) : Prop :=
  ∀ block, first ≤ block → block < stop → p.mmap_test64 block = false

-- The run that the scan is in ends right before the block it looks at.
theorem scan_run_some {run_start run_length r : Nat}
    (hrun : run_length = 0 ∨ run_start + run_length = i ∧ Free p run_start i)
    (h : scan_run p count turns i run_start run_length = some r) :
    r + count ≤ i + turns ∧ Free p r (r + count) := by
  induction turns generalizing i run_start run_length with
  | zero => cases h
  | succ turns ih =>
    unfold scan_run at h
    split at h
    · rename_i hb
      have hb : p.mmap_test64 i = false := by simpa using hb
      -- the run with the block added
      have hnext : (if run_length = 0 then i else run_start) + (run_length + 1) = i + 1 ∧
          Free p (if run_length = 0 then i else run_start) (i + 1) := by
        split
        · rename_i hz
          refine ⟨by omega, ?_⟩
          intro block hlo hhi
          have : block = i := by omega
          rwa [this]
        · rename_i hz
          obtain ⟨hsum, hfree⟩ := hrun.resolve_left hz
          refine ⟨by omega, ?_⟩
          intro block hlo hhi
          by_cases heq : block = i
          · rwa [heq]
          · exact hfree block hlo (by omega)
      simp only at h
      split at h
      · rename_i hc
        injection h with h
        rw [h] at hnext
        refine ⟨by omega, ?_⟩
        have heq : r + count = i + 1 := by omega
        rw [heq]
        exact hnext.2
      · obtain ⟨hle, hfree⟩ := ih (.inr hnext) h
        exact ⟨by omega, hfree⟩
    · obtain ⟨hle, hfree⟩ := ih (.inl rfl) h
      exact ⟨by omega, hfree⟩

-- No free run that ends before the block is longer than the one the scan is in.
theorem scan_run_none {run_start run_length : Nat}
    (hmax : ∀ f, f ≤ i → Free p f i → i ≤ f + run_length) (hlt : run_length < count)
    (h : scan_run p count turns i run_start run_length = none) :
    ∀ f, i < f + count → f + count ≤ i + turns → ¬ Free p f (f + count) := by
  induction turns generalizing i run_start run_length with
  | zero => intro f hlo hhi; omega
  | succ turns ih =>
    intro f hlo hhi hfree
    unfold scan_run at h
    split at h
    · simp only at h
      split at h
      · cases h
      rename_i hc
      by_cases hend : f + count = i + 1
      · have := hmax f (by omega) fun block hl hh => hfree block hl (by omega)
        omega
      refine ih ?_ (by omega) h f (by omega) (by omega) hfree
      intro g hg hgf
      by_cases heq : g = i + 1
      · omega
      · have := hmax g (by omega) fun block hl hh => hgf block hl (by omega)
        omega
    · rename_i hb
      have hb : p.mmap_test64 i := by simpa using hb
      have hused : ∀ g stop, g ≤ i → i < stop → ¬ Free p g stop := by
        intro g stop hg hstop hgf
        rw [hgf i hg hstop] at hb
        cases hb
      by_cases hend : f + count = i + 1
      · exact hused f _ (by omega) (by omega) hfree
      · refine ih ?_ (by omega) h f (by omega) (by omega) hfree
        intro g hg hgf
        by_cases heq : g = i + 1
        · omega
        · exact absurd hgf (hused g _ (by omega) (by omega))

/-- The blocks are all free, or the first that is not stops the count. -/
theorem available_cases (p : Pmm) (start count : Nat) :
    available p start count = count ∧ Free p start (start + count) ∨
    available p start count < count ∧ p.mmap_test64 (start + available p start count) := by
  induction count generalizing start with
  | zero => exact .inl ⟨rfl, fun block hlo hhi => by omega⟩
  | succ count ih =>
    unfold available
    split
    · rename_i hb
      exact .inr ⟨by omega, hb⟩
    rename_i hb
    rcases ih (start + 1) with ⟨hall, hfree⟩ | ⟨hlt, hused⟩
    · refine .inl ⟨by omega, ?_⟩
      intro block hlo hhi
      by_cases heq : block = start
      · subst heq
        simpa using hb
      · exact hfree block (by omega) (by omega)
    · refine .inr ⟨by omega, ?_⟩
      rwa [← Nat.add_assoc, Nat.add_right_comm]

section
variable {alignment boundary limit r : Nat}

/-- Free blocks in a row that meet the constraints: the last byte is not above the
limit, and no multiple of the boundary is inside. -/
structure Suits (p : Pmm) (count alignment_blocks boundary_bytes maximum_address first : Nat) : Prop where
  pos : 0 < count
  inside : first + count ≤ PMM_TOTAL_BLOCKS
  free : Free p first (first + count)
  aligned : alignment_blocks ∣ first
  below : (first + count) * PMM_PAGE_SIZE - 1 ≤ maximum_address
  uncrossed : ∀ multiple, boundary_bytes ∣ multiple →
    multiple ≤ first * PMM_PAGE_SIZE ∨ (first + count) * PMM_PAGE_SIZE ≤ multiple

/-- Two addresses with a multiple between them are told apart by the quotient. -/
theorem quotient_eq_iff {a last : Nat} (hle : a ≤ last) (hb : 0 < boundary) :
    a / boundary = last / boundary ↔
      ∀ multiple, boundary ∣ multiple → multiple ≤ a ∨ last < multiple := by
  constructor
  · rintro heq _ ⟨n, rfl⟩
    rw [or_iff_not_imp_left, Nat.not_le, Nat.mul_comm, ← Nat.div_lt_iff_lt_mul hb,
      ← Nat.div_lt_iff_lt_mul hb, heq]
    exact id
  · intro h
    apply Nat.le_antisymm (Nat.div_le_div_right hle)
    have hlast := Nat.div_mul_le_self last boundary
    rw [Nat.le_div_iff_mul_le hb]
    exact (h _ (Nat.dvd_mul_left _ _)).resolve_right (Nat.not_lt.mpr hlast)

/-- What the scan from `start` on answers. -/
def Found (p : Pmm) (count alignment_blocks boundary_bytes maximum_address start : Nat) : Option Nat → Prop
  | some r => Suits p count alignment_blocks boundary_bytes maximum_address r
  | none => ∀ r, start ≤ r → ¬ Suits p count alignment_blocks boundary_bytes maximum_address r

theorem Found.skip {next : Nat} {found : Option Nat}
    (h : Found p count alignment boundary limit next found)
    (hno : ∀ r, start ≤ r → r < next → ¬ Suits p count alignment boundary limit r) :
    Found p count alignment boundary limit start found := by
  cases found with
  | some r => exact h
  | none =>
    intro r hr
    by_cases hlt : r < next
    · exact hno r hr hlt
    · exact h r (Nat.le_of_not_lt hlt)

theorem scan_constrained_found {found : Option Nat} (hc : 0 < count) (ha : alignment.isPowerOfTwo)
    (h : scan_constrained p count alignment boundary limit start = found) :
    Found p count alignment boundary limit start found := by
  subst h
  have haligned : ∀ r, r &&& (alignment - 1) = 0 ↔ alignment ∣ r := by
    obtain ⟨k, rfl⟩ := ha
    intro r
    rw [Nat.and_two_pow_sub_one_eq_mod, Nat.dvd_iff_mod_eq_zero]
  have hbytes : 0 < count * PMM_PAGE_SIZE := Nat.mul_pos hc (by decide)
  have hone : ∀ r start : Nat, start ≤ r → r < start + 1 → r = start := fun r start hlo hhi => by omega
  fun_induction scan_constrained p count alignment boundary limit start with
  | case1 start _ hmis ih =>
    refine ih.skip fun r hlo hhi hs => hmis ?_
    rw [← hone r start hlo hhi, haligned]
    exact hs.aligned
  | case2 start _ bytes address _ hlimit =>
    intro r hr hs
    have hbelow := hs.below
    have haddr : start * PMM_PAGE_SIZE ≤ r * PMM_PAGE_SIZE := Nat.mul_le_mul_right _ hr
    rw [Nat.add_mul] at hbelow
    omega
  | case3 start _ bytes address _ _ hcross ih =>
    refine ih.skip fun r hlo hhi hs => hcross.2 ?_
    have hun := hs.uncrossed
    rw [hone r start hlo hhi, Nat.add_mul] at hun
    rw [quotient_eq_iff (by omega) (Nat.pos_of_ne_zero hcross.1)]
    intro multiple hm
    have := hun multiple hm
    omega
  | case4 start _ bytes address _ _ _ hav ih =>
    obtain ⟨hlt, hused⟩ := (available_cases p start count).resolve_left fun h => hav h.1
    refine ih.skip fun r hlo hhi hs => ?_
    rw [hs.free _ (by omega) (by omega)] at hused
    cases hused
  | case5 start hle bytes address hal hlimit hcross hav =>
    refine ⟨hc, hle, ((available_cases p start count).resolve_right fun h => hav h.1.ne).2,
      (haligned start).mp (not_not.mp hal), ?_, ?_⟩
    · rw [Nat.add_mul]
      omega
    · intro multiple hm
      by_cases hb : boundary = 0
      · rw [hb, Nat.zero_dvd] at hm
        omega
      have hsame : address / boundary = (address + bytes - 1) / boundary := by
        by_contra hne
        exact hcross ⟨hb, hne⟩
      rw [quotient_eq_iff (by omega) (Nat.pos_of_ne_zero hb)] at hsame
      have := hsame multiple hm
      rw [Nat.add_mul]
      omega
  | case6 start hout =>
    intro r hr hs
    have := hs.inside
    omega

end

/-! ## What a call for blocks does -/

/-- A call for `count` blocks changes nothing and answers zero, or takes that many
free blocks in a row. -/
inductive Took (p : Pmm) (count : Nat) : Nat × Pmm → Prop
  | refused : Took p count (0, p)
  | run {first : Nat} {p' : Pmm} : 0 < count → first + count ≤ PMM_TOTAL_BLOCKS →
      Free p first (first + count) → (Counted p → Counted p') →
      (∀ block, p'.mmap_test64 block =
        (decide ((⟨first, count⟩ : Extent).Covers block) || p.mmap_test64 block)) →
      Took p count (first * PMM_PAGE_SIZE, p')

theorem took_run (hc : 0 < count) (hn : first + count ≤ PMM_TOTAL_BLOCKS)
    (hf : Free p first (first + count)) : Took p count (take_run p first count) := by
  refine .run hc hn hf ?_ ?_
  · intro h
    exact hint_at_counted (mark_blocks_used_rule mark_block_used_counted h _ _) _
  · intro block
    exact mark_blocks_used_test hn block

theorem pmm_alloc_block_took (p : Pmm) (fault : Bool) : Took p 1 (pmm_alloc_block p fault) := by
  unfold pmm_alloc_block
  split
  · exact .refused
  split
  · exact .refused
  simp only
  split
  · rename_i i hscan
    obtain ⟨hi, hb⟩ := scan_some (by split; exacts [total_blocks_pos, by omega]) (by omega) hscan
    have hone : mark_block_used64 p i = mark_blocks_used p i 1 := by
      have hlt := total_blocks_lt
      rw [mark_blocks_used, mark_blocks_used, Nat.add_zero, u32_of_lt (by omega)]
    rw [hone]
    apply took_run (by omega) (by omega)
    intro block hlo hhi
    have : block = i := by omega
    rwa [this]
  · exact .refused

theorem pmm_alloc_blocks_took (p : Pmm) (count : Nat) (fault : Bool) :
    Took p count (pmm_alloc_blocks p count fault) := by
  unfold pmm_alloc_blocks
  split
  · exact .refused
  split
  · exact .refused
  split
  · exact .refused
  split
  · rename_i r hscan
    obtain ⟨hle, hfree⟩ := scan_run_some (.inl rfl) hscan
    exact took_run (by omega) (by omega) hfree
  · exact .refused

theorem pmm_alloc_blocks_constrained_took (p : Pmm)
    (count alignment boundary limit : Nat) (fault : Bool) : Took p count
      (pmm_alloc_blocks_constrained p count alignment boundary limit fault) := by
  unfold pmm_alloc_blocks_constrained
  split
  · exact .refused
  rename_i hvalid
  split
  · exact .refused
  split
  · rename_i r hscan
    simp only [not_or, not_not] at hvalid
    have hpower := (Nat.and_sub_one_eq_zero_iff_isPowerOfTwo hvalid.2.1).mp hvalid.2.2.1
    have hr := scan_constrained_found (Nat.pos_of_ne_zero hvalid.1) hpower hscan
    exact took_run hr.pos hr.inside hr.free
  · exact .refused

/-! ## When a call for blocks fails -/

theorem pmm_alloc_block_zero (h : Counted p) (hlow : p.mmap_test64 0)
    (hz : (pmm_alloc_block p false).1 = 0) : ∀ block, block < PMM_TOTAL_BLOCKS → p.mmap_test64 block := by
  intro block hblock
  simp only [pmm_alloc_block, Bool.false_eq_true, if_false] at hz
  split at hz
  · rename_i hfree
    exact Bitmap.clear_eq_zero_iff.mp (h.free.symm.trans hfree) block hblock
  rw [if_neg (Nat.not_le.mpr h.hint)] at hz
  split at hz
  · rename_i i hscan
    -- the block at address zero is not one that the scan finds
    have hi : i = 0 := by
      simp only [PMM_PAGE_SIZE] at hz
      omega
    have hused := (scan_some h.hint (by omega) hscan).2
    rw [hi, hlow] at hused
    cases hused
  · rename_i hscan
    obtain ⟨step, hstep, rfl⟩ := scan_index_onto h.hint hblock
    exact scan_none hscan step (by omega) (by omega)

/-- `n` consecutive blocks, from the first to the last of them, are free. -/
def FreeRun (p : Pmm) (n : Nat) : Prop :=
  ∃ first last, first ≤ last ∧ last < PMM_TOTAL_BLOCKS ∧ last + 1 = first + n ∧
    ∀ block, first ≤ block → block ≤ last → p.mmap_test64 block = false

theorem pmm_alloc_blocks_zero (h : Counted p) (hlow : p.mmap_test64 0)
    (hz : (pmm_alloc_blocks p count false).1 = 0) : ¬ FreeRun p count := by
  rintro ⟨first, last, hle, hlast, hlen, hfree⟩
  have hrun : Free p first (first + count) := fun block hlo hhi => hfree block hlo (by omega)
  simp only [pmm_alloc_blocks, Bool.false_eq_true, if_false] at hz
  split at hz
  · omega
  split at hz
  · have hclear := Bitmap.le_clear (m := p.memory_bitmap64) (n := PMM_TOTAL_BLOCKS) (by omega) hrun
    have hcount := h.free
    omega
  split at hz
  · rename_i r hscan
    have hr : r = 0 := by
      simp only [take_run, PMM_PAGE_SIZE] at hz
      omega
    have hused := (scan_run_some (.inl rfl) hscan).2 r (by omega) (by omega)
    rw [hr, hlow] at hused
    cases hused
  · rename_i hscan
    exact scan_run_none (fun f hf _ => by omega) (by omega) hscan first (by omega) (by omega) hrun

theorem mark_blocks_used_counter (hp : p.free_blocks64 = p.memory_bitmap64.clear PMM_TOTAL_BLOCKS)
    (hn : first + count ≤ PMM_TOTAL_BLOCKS) (hfree : Free p first (first + count)) :
    (mark_blocks_used p first count).free_blocks64 + count = p.free_blocks64 := by
  have hlt := total_blocks_lt
  induction count with
  | zero => rfl
  | succ count ih =>
    have hroom := Bitmap.le_clear hn hfree
    have hrest := ih (by omega) fun block hlo hhi => hfree block hlo (by omega)
    have hlast : (mark_blocks_used p first count).mmap_test64 (first + count) = false := by
      rw [mark_blocks_used_test (by omega), hfree _ (by omega) (by omega)]
      simp [Extent.Covers]
    rw [mark_blocks_used, u32_of_lt (by omega), mark_block_used64, if_neg (by omega), if_neg (by simp [hlast])]
    simp only
    omega

end

/-- What a constrained call answers meets the constraints, and exactly those blocks
are taken; without an injected failure it answers zero only if nothing meets them,
or the range at address zero does. -/
theorem constrained_calls_find_a_range (p : Pmm)
    (hp : p.free_blocks64 = p.memory_bitmap64.clear PMM_TOTAL_BLOCKS)
    (count k boundary_bytes maximum_address : Nat) (fault : Bool) (answer : Nat × Pmm)
    (h : pmm_alloc_blocks_constrained p count (2 ^ k) boundary_bytes maximum_address fault = answer) :
    (answer.1 ≠ 0 → ∃ first, answer.1 = first * PMM_PAGE_SIZE ∧
      Suits p count (2 ^ k) boundary_bytes maximum_address first ∧
      (∀ block, answer.2.mmap_test64 block =
        (decide ((⟨first, count⟩ : Extent).Covers block) || p.mmap_test64 block)) ∧
      answer.2.free_blocks64 + count = p.free_blocks64) ∧
    (answer.1 = 0 → fault = false →
      (∀ first, ¬ Suits p count (2 ^ k) boundary_bytes maximum_address first) ∧ answer.2 = p ∨
      Suits p count (2 ^ k) boundary_bytes maximum_address 0) := by
  unfold pmm_alloc_blocks_constrained at h
  split at h
  · rename_i hvalid
    subst h
    refine ⟨fun hne => absurd rfl hne, fun _ _ => .inl ⟨fun first hs => ?_, rfl⟩⟩
    -- a range that suits is not refused before the scan
    have hpower := (Nat.and_sub_one_eq_zero_iff_isPowerOfTwo (Nat.two_pow_pos k).ne').mpr ⟨k, rfl⟩
    have hroom := Bitmap.le_clear hs.inside hs.free
    have hpos := hs.pos
    have hinside := hs.inside
    have hk := (Nat.two_pow_pos k).ne'
    omega
  · rename_i hvalid
    split at h
    · rename_i hfault
      subst h
      refine ⟨fun hne => absurd rfl hne, fun _ hf => ?_⟩
      rw [hf] at hfault
      cases hfault
    · have hpos : 0 < count := by omega
      split at h
      · rename_i r hscan
        have hfound := scan_constrained_found hpos ⟨k, rfl⟩ hscan
        subst h
        refine ⟨fun _ => ⟨r, rfl, hfound, mark_blocks_used_test hfound.inside, ?_⟩, fun hz _ => .inr ?_⟩
        · exact mark_blocks_used_counter hp hfound.inside hfound.free
        · have hr : r = 0 := by
            simp only [take_run, PMM_PAGE_SIZE] at hz
            omega
          exact hr ▸ hfound
      · rename_i hscan
        have hfound := scan_constrained_found hpos ⟨k, rfl⟩ hscan
        subst h
        exact ⟨fun hne => absurd rfl hne, fun _ _ => .inl ⟨fun first => hfound first (Nat.zero_le _), rfl⟩⟩

/-! ## The runs -/

/-- The allocator, with the ranges that are out and those that ever were. -/
structure Frames where
  allocator : Pmm
  out : List Extent
  ever : List Extent

inductive Call
  | alloc_block (fault : Bool)
  | alloc_blocks (count : Nat) (fault : Bool)
  | alloc_blocks_constrained (count alignment_blocks boundary_bytes maximum_address : Nat) (fault : Bool)
  | free_block (addr : Nat)
  | free_blocks (addr count : Nat)
deriving DecidableEq

/-- The range that a call answers goes out. -/
def Frames.issue (s : Frames) (count : Nat) (r : Nat × Pmm) : Frames :=
  if r.1 = 0 then { s with allocator := r.2 }
  else
    { allocator := r.2
      out := ⟨r.1 / PMM_PAGE_SIZE, count⟩ :: s.out
      ever := ⟨r.1 / PMM_PAGE_SIZE, count⟩ :: s.ever }

/-- Only a range that is out is given back. -/
def Frames.call (s : Frames) : Call → Option Frames
  | .alloc_block fault => some (s.issue 1 (pmm_alloc_block s.allocator fault))
  | .alloc_blocks count fault => some (s.issue count (pmm_alloc_blocks s.allocator count fault))
  | .alloc_blocks_constrained count alignment_blocks boundary_bytes maximum_address fault =>
    some (s.issue count
      (pmm_alloc_blocks_constrained s.allocator count alignment_blocks boundary_bytes maximum_address fault))
  | .free_block addr =>
    if ⟨addr / PMM_PAGE_SIZE, 1⟩ ∈ s.out then
      some { s with allocator := pmm_free_block s.allocator addr, out := s.out.erase ⟨addr / PMM_PAGE_SIZE, 1⟩ }
    else none
  | .free_blocks addr count =>
    if ⟨addr / PMM_PAGE_SIZE, count⟩ ∈ s.out then
      some { s with allocator := pmm_free_blocks s.allocator addr count, out := s.out.erase ⟨addr / PMM_PAGE_SIZE, count⟩ }
    else none

/-- Any calls after `pmm_init`, with the statics `p` before it. -/
def frames (p : Pmm) (boot_info : Option BootInfo) : Machine Frames Call :=
  .ofFun (· = ⟨pmm_init p boot_info, [], []⟩) Frames.call

section
variable {s s' : Frames} {initial : Nat → Bool} {count addr : Nat} {r : Nat × Pmm}

/-- What every state of a run keeps. -/
structure Sound (initial : Nat → Bool) (s : Frames) : Prop where
  counted : Counted s.allocator
  books : Out s.allocator.mmap_test64 initial s.out s.ever
  inside : ∀ t ∈ s.ever, 0 < t.first ∧ t.first + t.count ≤ PMM_TOTAL_BLOCKS
  low : initial 0

theorem Sound.first_used (h : Sound initial s) : s.allocator.mmap_test64 0 := by
  rw [h.books.kept 0 ?_, h.low]
  intro t ht hcov
  have := (h.inside t ht).1
  simp only [Extent.Covers] at hcov
  omega

theorem Sound.issue (h : Sound initial s) (hr : Took s.allocator count r) : Sound initial
    (s.issue count r) := by
  unfold Frames.issue
  cases hr with
  | refused => simpa using h
  | @run first p' hc hn hfree hcounted hmark =>
    have hfirst : first ≠ 0 := by
      intro hz
      have hf := hfree 0 (by omega) (by omega)
      rw [h.first_used] at hf
      cases hf
    have hpage : first * PMM_PAGE_SIZE ≠ 0 := by
      simp only [PMM_PAGE_SIZE]
      omega
    have hdiv : first * PMM_PAGE_SIZE / PMM_PAGE_SIZE = first := Nat.mul_div_cancel _ (by decide)
    simp only [hpage, if_false]
    rw [hdiv]
    refine ⟨hcounted h.counted, ?_, ?_, h.low⟩
    · apply h.books.issue
      · intro block hcov
        exact hfree block hcov.1 hcov.2
      · exact hmark
    · exact List.forall_mem_cons.mpr ⟨⟨Nat.pos_of_ne_zero hfirst, hn⟩, h.inside⟩

/-- A whole range comes back. -/
theorem Sound.back (h : Sound initial s) (hout : ⟨addr / PMM_PAGE_SIZE, count⟩ ∈ s.out) :
    Sound initial { s with
      allocator := pmm_free_blocks s.allocator addr count, out := s.out.erase ⟨addr / PMM_PAGE_SIZE, count⟩ } := by
  have hin := (h.inside _ (h.books.known _ hout)).2
  refine ⟨mark_blocks_free_rule mark_block_free_counted h.counted _ _, ?_, h.inside, h.low⟩
  apply h.books.back hout
  exact mark_blocks_free_test hin

theorem pmm_free_block_eq (p : Pmm) (addr : Nat) : pmm_free_block p addr = pmm_free_blocks p addr 1 := rfl

theorem sound_call (h : Sound initial s) {c : Call} (hc : s.call c = some s') : Sound initial s' := by
  cases c with
  | alloc_block fault =>
    injection hc with hc
    exact hc ▸ h.issue (pmm_alloc_block_took _ _)
  | alloc_blocks count fault =>
    injection hc with hc
    exact hc ▸ h.issue (pmm_alloc_blocks_took _ _ _)
  | alloc_blocks_constrained count alignment boundary limit fault =>
    injection hc with hc
    exact hc ▸ h.issue (pmm_alloc_blocks_constrained_took _ _ _ _ _ _)
  | free_block addr =>
    simp only [Frames.call] at hc
    split at hc
    · rename_i hout
      injection hc with hc
      rw [pmm_free_block_eq] at hc
      exact hc ▸ h.back hout
    · cases hc
  | free_blocks addr count =>
    simp only [Frames.call] at hc
    split at hc
    · rename_i hout
      injection hc with hc
      exact hc ▸ h.back hout
    · cases hc

/-- Every state of a run after `pmm_init` is sound, over the marks that it left. -/
theorem frames_sound {p : Pmm} {boot_info : Option BootInfo} (h : (frames p boot_info).Reachable s) :
    Sound (pmm_init p boot_info).mmap_test64 s := by
  apply h.inv
  · rintro s rfl
    exact ⟨pmm_init_counted p boot_info, .start _, fun _ ht => absurd ht List.not_mem_nil,
      pmm_init_first_used p boot_info⟩
  · intro s c s' hs hc
    exact sound_call hs hc

end

/-- After any calls: the counter and the hint are right, the ranges that are out are
apart and marked used, the other blocks are as `pmm_init` left them, and a call
without an injected failure answers zero only for want of free blocks. -/
theorem frames_are_accounted_for (p : Pmm) (boot_info : Option BootInfo) (s : Frames)
    (h : (frames p boot_info).Reachable s) :
    s.allocator.free_blocks64 = s.allocator.memory_bitmap64.clear PMM_TOTAL_BLOCKS ∧
    s.allocator.next_free_hint64 < PMM_TOTAL_BLOCKS ∧
    s.out.Pairwise Extent.Apart ∧
    (∀ r ∈ s.out, ∀ block, r.Covers block → block < PMM_TOTAL_BLOCKS ∧ s.allocator.mmap_test64 block = true) ∧
    (∀ block, (∀ r ∈ s.ever, ¬ r.Covers block) →
      s.allocator.mmap_test64 block = (pmm_init p boot_info).mmap_test64 block) ∧
    ((pmm_alloc_block s.allocator false).1 = 0 →
      ∀ block, block < PMM_TOTAL_BLOCKS → s.allocator.mmap_test64 block = true) ∧
    ∀ n, (pmm_alloc_blocks s.allocator n false).1 = 0 → ¬ FreeRun s.allocator n := by
  have hs := frames_sound h
  refine ⟨hs.counted.free, hs.counted.hint, hs.books.apart, ?_, hs.books.kept, ?_, ?_⟩
  · intro r hr block hcov
    have hin := (hs.inside r (hs.books.known r hr)).2
    have hlt := hcov.2
    exact ⟨by omega, hs.books.marked r hr block hcov⟩
  · exact pmm_alloc_block_zero hs.counted hs.first_used
  · intro n
    exact pmm_alloc_blocks_zero hs.counted hs.first_used

/-- A map with four usable pages, right above the low memory. -/
def four_pages : BootInfo where
  magic := BOOT_INFO_MAGIC
  size := 0
  kernel_load_addr := 0
  kernel_sector_count := 0
  kernel_file_size := 0
  memory_map_entry_count := 1
  entries := fun _ => ⟨0x200000, 0, 0x4000, 0, E820_TYPE_USABLE⟩
  reserved_range_count := 0
  reserved_range_entry_size := 0
  reserved_ranges := fun _ => ⟨0, 0⟩

def zeroed : Pmm := ⟨fun _ => 0, 0, 0⟩

theorem pmm_init_four_pages :
    pmm_init zeroed (some four_pages) = mark_blocks_free (mark_all_used64 zeroed) 512 4 := by
  have hentry : ∀ p, free_entry p (four_pages.entries 0) = mark_blocks_free p 512 4 := by
    intro p
    have hfirst : align_up (four_pages.entries 0).base PMM_PAGE_SIZE / PMM_PAGE_SIZE = 512 := by decide
    have hlast : align_down (e820_entry_end64 (four_pages.entries 0)) PMM_PAGE_SIZE / PMM_PAGE_SIZE = 516 := by
      decide
    unfold free_entry mark_range_free64
    rw [if_neg (by decide), if_neg (by decide), hfirst, hlast]
    rfl
  have hcount : min four_pages.memory_map_entry_count E820_MAX_ENTRIES = 1 := rfl
  have hrest : ∀ p, reserve_boot_info_ranges64 p four_pages = p := fun _ => rfl
  simp only [pmm_init, init_from_e820_64]
  rw [if_neg (by decide), hrest, low_memory_blocks, hcount, free_entries, free_entries, hentry]
  apply mark_blocks_used_of_used (by decide)
  intro block hlo hhi
  have hno : ¬ (⟨512, 4⟩ : Extent).Covers block := by simp only [Extent.Covers]; omega
  have hlt : block < PMM_TOTAL_BLOCKS := Nat.lt_of_lt_of_le (by omega : block < 512) (by decide)
  rw [mark_blocks_free_test (by decide), mark_all_used_test hlt]
  simp [hno]

/-- Two blocks and one go out, and the two come back. -/
theorem one_of_four_pages_is_out : ∃ s, (frames zeroed (some four_pages)).Reachable s ∧
    s.out = [⟨514, 1⟩] ∧ s.allocator.free_blocks64 = 3 ∧
    s.allocator.memory_bitmap64.clear PMM_TOTAL_BLOCKS = 3 ∧ s.allocator.mmap_test64 514 = true := by
  obtain ⟨s, hreach, hout, hfree⟩ : ∃ s, (frames zeroed (some four_pages)).Reachable s ∧
      s.out = [⟨514, 1⟩] ∧ s.allocator.free_blocks64 = 3 := by
    refine Machine.exists_reachable (s := ⟨mark_blocks_free (mark_all_used64 zeroed) 512 4, [], []⟩) (.start ?_)
      [.alloc_blocks 2 false, .alloc_block false, .free_blocks 0x200000 2] (by decide +kernel)
    exact congrArg (fun p => (⟨p, [], []⟩ : Frames)) pmm_init_four_pages.symm
  obtain ⟨hcount, -, -, hmarked, -⟩ := frames_are_accounted_for _ _ s hreach
  refine ⟨s, hreach, hout, hfree, hcount ▸ hfree, ?_⟩
  exact (hmarked ⟨514, 1⟩ (by simp [hout]) 514 (by decide)).2

/-- Two of the four pages are there for a call under constraints. -/
theorem two_of_four_pages_suit : ∃ first,
    (pmm_alloc_blocks_constrained (pmm_init zeroed (some four_pages)) 2 (2 ^ 1) 0x10000 0xFFFFFFFF false).1 =
      first * PMM_PAGE_SIZE ∧
    Suits (pmm_init zeroed (some four_pages)) 2 (2 ^ 1) 0x10000 0xFFFFFFFF first := by
  obtain ⟨htaken, hzero⟩ := constrained_calls_find_a_range _ (pmm_init_counted zeroed (some four_pages)).free
    2 1 0x10000 0xFFFFFFFF false _ rfl
  have hsuits : Suits (pmm_init zeroed (some four_pages)) 2 (2 ^ 1) 0x10000 0xFFFFFFFF 512 := by
    refine ⟨by decide, by decide, ?_, by decide, by decide, ?_⟩
    · intro block hlo hhi
      have hcov : (⟨512, 4⟩ : Extent).Covers block := by simp only [Extent.Covers]; omega
      rw [pmm_init_four_pages, mark_blocks_free_test (by decide)]
      simp [hcov]
    · rintro _ ⟨n, rfl⟩
      simp only [PMM_PAGE_SIZE]
      omega
  by_cases hz : (pmm_alloc_blocks_constrained (pmm_init zeroed (some four_pages)) 2 (2 ^ 1) 0x10000
      0xFFFFFFFF false).1 = 0
  · rcases hzero hz rfl with ⟨hno, -⟩ | hlow
    · exact absurd hsuits (hno 512)
    · have hfirst := hlow.free 0 (by omega) (by omega)
      rw [pmm_init_first_used] at hfirst
      cases hfirst
  · obtain ⟨first, heq, hs, -⟩ := htaken hz
    exact ⟨first, heq, hs⟩

end mini_kernel.pmm
