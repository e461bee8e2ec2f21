-- The program break (kernel/process/userprog64.cpp): a heap that grows and shrinks by bytes
-- and is mapped by pages. Over any calls the break, the end of what is mapped, the number of
-- pages and the pages themselves stay four records of one quantity.
import MiniKernel.Lib.Machine
import MiniKernel.Lib.Word
import MiniKernel.Mm.Layout

open mini_kernel.lib mini_kernel.vm mini_kernel.pmm Function

namespace mini_kernel.program_break

/-! ## The call -/

/-- The heap as a process records it, and its address space after each call. -/
structure Heap where
  heap_base : Nat
  heap_break : Nat
  heap_mapped_end : Nat
  heap_limit : Nat
  heap_page_count : Nat
deriving DecidableEq

/-- The pages that are mapped for the process, each to a block of its own, and the byte at an
address of one. -/
structure Memory where
  mapped : Finset Nat
  byte : Nat → UInt8
  backed : mapped.card ≤ PMM_TOTAL_BLOCKS

structure Process where
  heap : Heap
  address_space : Heap
  memory : Memory

/-- Maps all pages, with whatever is in the new frames, or fails and changes nothing: where
`pmm_alloc_block` finds no more frames (it never has more than `PMM_TOTAL_BLOCKS`), the pages
mapped so far are unmapped again. -/
def address_space_alloc_map_range (memory : Memory) (virt size : Nat)
    (frames : Option (Nat → UInt8)) : Option (Nat × Memory) :=
  if size = 0 then some (0, memory)
  else
    let first := align_down virt VM_PAGE_SIZE
    let finish := align_up (virt + size) VM_PAGE_SIZE
    let mapped := memory.mapped ∪ Finset.Ico (first / VM_PAGE_SIZE) (finish / VM_PAGE_SIZE)
    if backed : mapped.card ≤ PMM_TOTAL_BLOCKS then
      frames.map fun content =>
        (u32 ((finish - first) / VM_PAGE_SIZE),
          { mapped, backed
            byte := fun address =>
              if first ≤ address ∧ address < finish then content address else memory.byte address })
    else none

/-- Unmaps all pages. -/
def address_space_unmap_free_range (memory : Memory) (virt page_count : Nat) : Memory :=
  let first := align_down virt VM_PAGE_SIZE / VM_PAGE_SIZE
  { memory with
    mapped := memory.mapped \ Finset.Ico first (first + page_count)
    backed := (Finset.card_le_card Finset.sdiff_subset).trans memory.backed }

def write_user_byte_phys (memory : Memory) (virt : Nat) (value : UInt8) : Option Memory :=
  if virt / VM_PAGE_SIZE ∈ memory.mapped then
    some { memory with byte := update memory.byte virt value }
  else none

/-- The loop over the bytes of the new pages. -/
def zero_bytes : Nat → Nat → Memory → Bool × Memory
  | 0, _, memory => (true, memory)
  | count + 1, address, memory =>
    match write_user_byte_phys memory address 0 with
    | none => (false, memory)
    | some memory => zero_bytes count (address + 1) memory

def align_up_user_page (value : Nat) : Nat := align_up value VM_PAGE_SIZE

/-- The end of a call that succeeds. -/
def set_break (p : Process) (requested_break mapped_end page_count : Nat) (memory : Memory) :
    Nat × Process :=
  let heap := { p.heap with
    heap_break := requested_break, heap_mapped_end := mapped_end, heap_page_count := page_count }
  (requested_break, ⟨heap, heap, memory⟩)

/-- The part of the call after its checks. -/
def move_break (p : Process) (requested_break : Nat) (frames : Option (Nat → UInt8)) : Nat × Process :=
  let requested_mapped_end := align_up_user_page requested_break
  if p.heap.heap_mapped_end < requested_mapped_end then
    let grow_size := requested_mapped_end - p.heap.heap_mapped_end
    match address_space_alloc_map_range p.memory p.heap.heap_mapped_end grow_size frames with
    | none => (0, p)
    | some (added_pages, memory) =>
      match zero_bytes grow_size p.heap.heap_mapped_end memory with
      | (false, memory) => (0, { p with memory := memory })
      | (true, memory) =>
        set_break p requested_break requested_mapped_end
          (u32 (p.heap.heap_page_count + added_pages)) memory
  else if requested_mapped_end < p.heap.heap_mapped_end then
    let remove_pages := u32 ((p.heap.heap_mapped_end - requested_mapped_end) / VM_PAGE_SIZE)
    set_break p requested_break requested_mapped_end
      (u32 (p.heap.heap_page_count + (2 ^ 32 - remove_pages)))
      (address_space_unmap_free_range p.memory requested_mapped_end remove_pages)
  else set_break p requested_break p.heap.heap_mapped_end p.heap.heap_page_count p.memory

def resize_user_process_heap (p : Process) (requested_break : Nat)
    (frames : Option (Nat → UInt8)) : Nat × Process :=
  if p.heap.heap_base = 0 ∨ p.heap.heap_limit ≤ p.heap.heap_base then (0, p)
  else if requested_break = 0 then (p.heap.heap_break, p)
  else if requested_break < p.heap.heap_base ∨ p.heap.heap_limit < requested_break then (0, p)
  else move_break p requested_break frames

/-! ## Runs -/

/-- A call, and what is in the frames that it gets, if it gets them. -/
structure Call where
  requested_break : Nat
  frames : Option (Nat → UInt8)

/-- A heap range of whole pages. -/
structure Range where
  base : Nat
  limit : Nat
  ordered : base ≤ limit
  fits : limit < 2 ^ 64
  base_aligned : base % VM_PAGE_SIZE = 0
  limit_aligned : limit % VM_PAGE_SIZE = 0

/-- The page is in the range. -/
def Range.Has (range : Range) (page : Nat) : Prop :=
  range.base / VM_PAGE_SIZE ≤ page ∧ page < range.limit / VM_PAGE_SIZE

/-- Nothing is mapped yet. -/
structure Starts (range : Range) (p : Process) : Prop where
  heap : p.heap = ⟨range.base, range.base, range.base, range.limit, 0⟩
  empty : ∀ page, range.Has page → page ∉ p.memory.mapped

def heaps (range : Range) : Machine Process Call :=
  .ofFun (Starts range) fun p call =>
    some (resize_user_process_heap p call.requested_break call.frames).2

/-! ## What a call does -/

section
variable {memory : Memory} {range : Range} {p : Process} {requested : Nat}
  {frames : Option (Nat → UInt8)}

/-- The loop ends, if the pages are mapped. -/
theorem zero_bytes_mapped (count address : Nat) (memory : Memory)
    (h : ∀ a, address ≤ a → a < address + count → a / VM_PAGE_SIZE ∈ memory.mapped) :
    zero_bytes count address memory = (true, { memory with
      byte := fun a => if address ≤ a ∧ a < address + count then 0 else memory.byte a }) := by
  induction count generalizing address memory with
  | zero =>
    have hnone : ∀ a, ¬ (address ≤ a ∧ a < address + 0) := by omega
    simp only [zero_bytes, if_neg (hnone _)]
  | succ count ih =>
    have hfirst := h address le_rfl (by omega)
    have hrest := ih (address + 1) { memory with byte := update memory.byte address 0 }
      fun a ha ha' => h a (by omega) (by omega)
    simp only [zero_bytes, write_user_byte_phys, hfirst, if_true, hrest, Prod.mk.injEq, Memory.mk.injEq,
      true_and]
    funext a
    by_cases ha : a = address
    · subst ha
      rw [if_neg (by omega), update_self, if_pos (by omega)]
    · rw [update_of_ne ha]
      split
      · rw [if_pos (by omega)]
      · rw [if_neg (by omega)]

/-- What holds of the heap between two calls. -/
structure Inv (range : Range) (p : Process) : Prop where
  base : p.heap.heap_base = range.base
  limit : p.heap.heap_limit = range.limit
  low : range.base ≤ p.heap.heap_break
  high : p.heap.heap_break ≤ range.limit
  mapped_end : p.heap.heap_mapped_end = align_up_user_page p.heap.heap_break
  mapped : ∀ page, range.Has page →
    (page ∈ p.memory.mapped ↔ page < p.heap.heap_mapped_end / VM_PAGE_SIZE)
  page_count : p.heap.heap_page_count = (p.heap.heap_mapped_end - range.base) / VM_PAGE_SIZE

/-- A call that sets the break. -/
structure Sets (range : Range) (p : Process) (requested : Nat) (p' : Process) : Prop where
  low : range.base ≤ requested
  high : requested ≤ range.limit
  heap : p'.heap = ⟨range.base, requested, align_up_user_page requested, range.limit,
    u32 ((align_up_user_page requested - range.base) / VM_PAGE_SIZE)⟩
  mapped : ∀ page, range.Has page →
    (page ∈ p'.memory.mapped ↔ page < align_up_user_page requested / VM_PAGE_SIZE)
  byte : ∀ address, p'.memory.byte address =
    if p.heap.heap_mapped_end ≤ address ∧ address < align_up_user_page requested then 0
    else p.memory.byte address

/-- The break rounded up stays in the range. -/
theorem Range.align_spec (range : Range) (hhigh : requested ≤ range.limit) :
    requested ≤ align_up_user_page requested ∧ align_up_user_page requested ≤ range.limit ∧
      align_up_user_page requested % VM_PAGE_SIZE = 0 := by
  have hlimit := range.limit_aligned
  have hfits := range.fits
  have hspec := align_up_spec requested VM_PAGE_SIZE (by decide) (by simp only [VM_PAGE_SIZE] at *; omega)
  refine ⟨hspec.1, ?_, hspec.2.2⟩
  simp only [VM_PAGE_SIZE, align_up_user_page] at *
  omega

theorem align_down_of_aligned {value : Nat} (h : value % VM_PAGE_SIZE = 0) :
    align_down value VM_PAGE_SIZE = value := by
  simp [align_down, h]

theorem align_up_of_aligned {value : Nat} (h : value % VM_PAGE_SIZE = 0) (hfits : value < 2 ^ 64) :
    align_up value VM_PAGE_SIZE = value := by
  have hspec := align_up_spec value VM_PAGE_SIZE (by decide) (by simp only [VM_PAGE_SIZE] at *; omega)
  simp only [VM_PAGE_SIZE] at *
  omega

theorem Inv.mapped_end_spec (hs : Inv range p) : range.base ≤ p.heap.heap_mapped_end ∧
    p.heap.heap_break ≤ p.heap.heap_mapped_end ∧ p.heap.heap_mapped_end ≤ range.limit ∧
    p.heap.heap_mapped_end % VM_PAGE_SIZE = 0 := by
  rw [hs.mapped_end]
  have hspec := range.align_spec hs.high
  exact ⟨hs.low.trans hspec.1, hspec⟩

/-- The mapped pages of the range have blocks of their own, so they can be counted. -/
theorem pages_le {mapped_end : Nat} (hend : mapped_end ≤ range.limit)
    (hmapped : ∀ page, range.Has page →
      (page ∈ memory.mapped ↔ page < mapped_end / VM_PAGE_SIZE)) :
    mapped_end / VM_PAGE_SIZE - range.base / VM_PAGE_SIZE < 2 ^ 32 := by
  rw [← Nat.card_Ico]
  refine ((Finset.card_le_card fun page hpage => ?_).trans memory.backed).trans_lt (by decide)
  rw [Finset.mem_Ico] at hpage
  have hlast := hpage.2.trans_le (Nat.div_le_div_right hend)
  exact (hmapped page ⟨hpage.1, hlast⟩).mpr hpage.2

/-- A call that maps pages, if it gets the frames. -/
theorem Inv.grow (hs : Inv range p) (hlow : range.base ≤ requested) (hhigh : requested ≤ range.limit)
    (hgrow : p.heap.heap_mapped_end < align_up_user_page requested) :
    move_break p requested frames = (0, p) ∧
        (frames = none ∨ PMM_TOTAL_BLOCKS < (p.memory.mapped ∪ Finset.Ico
          (p.heap.heap_mapped_end / VM_PAGE_SIZE) (align_up_user_page requested / VM_PAGE_SIZE)).card) ∨
      ∃ p', move_break p requested frames = (requested, p') ∧ Sets range p requested p' := by
  obtain ⟨-, hend, haligned⟩ := range.align_spec hhigh
  obtain ⟨hstart, -, -, hmapped⟩ := hs.mapped_end_spec
  have hbase := range.base_aligned
  unfold move_break address_space_alloc_map_range
  dsimp only
  rw [if_pos hgrow, if_neg (by omega), Nat.add_sub_cancel' hgrow.le, align_down_of_aligned hmapped,
    align_up_of_aligned haligned (hend.trans_lt range.fits)]
  by_cases hbacked : (p.memory.mapped ∪ Finset.Ico (p.heap.heap_mapped_end / VM_PAGE_SIZE)
      (align_up_user_page requested / VM_PAGE_SIZE)).card ≤ PMM_TOTAL_BLOCKS
  · rw [dif_pos hbacked]
    cases frames with
    | none => exact .inl ⟨rfl, .inl rfl⟩
    | some content =>
      rw [Option.map_some]
      dsimp only
      rw [zero_bytes_mapped]
      · refine .inr ⟨_, rfl, hlow, hhigh, ?_, ?_, ?_⟩
        · simp only [hs.base, hs.limit, hs.page_count, u32, VM_PAGE_SIZE, Heap.mk.injEq, true_and] at *
          omega
        · intro page hpage
          have := Nat.div_le_div_right (c := VM_PAGE_SIZE) hgrow.le
          simp only [Finset.mem_union, Finset.mem_Ico, hs.mapped page hpage]
          omega
        · intro address
          simp only [Nat.add_sub_cancel' hgrow.le]
          split <;> rfl
      · intro a ha ha'
        refine Finset.mem_union_right _ (Finset.mem_Ico.mpr ?_)
        simp only [VM_PAGE_SIZE] at *
        omega
  · rw [dif_neg hbacked]
    exact .inl ⟨rfl, .inr (not_le.mp hbacked)⟩

theorem Starts.inv (h : Starts range p) : Inv range p := by
  have haligned := align_up_of_aligned range.base_aligned (range.ordered.trans_lt range.fits)
  constructor <;> simp only [h.heap, Nat.sub_self, Nat.zero_div, le_refl]
  · exact range.ordered
  · exact haligned.symm
  · intro page hpage
    simpa [h.empty page hpage] using hpage.1

/-- A call that maps nothing. -/
theorem Inv.shrink (hs : Inv range p) (hlow : range.base ≤ requested) (hhigh : requested ≤ range.limit)
    (hgrow : ¬ p.heap.heap_mapped_end < align_up_user_page requested) :
    ∃ p', move_break p requested frames = (requested, p') ∧ Sets range p requested p' := by
  obtain ⟨hreq, -, haligned⟩ := range.align_spec hhigh
  obtain ⟨-, -, hlast, hmapped⟩ := hs.mapped_end_spec
  have hbase := range.base_aligned
  have hpages := pages_le hlast hs.mapped
  have hsame : ∀ address, ¬ (p.heap.heap_mapped_end ≤ address ∧ address < align_up_user_page requested) := by
    omega
  unfold move_break
  dsimp only
  rw [if_neg hgrow]
  split
  · refine ⟨_, rfl, hlow, hhigh, ?_, ?_, fun a => (if_neg (hsame a)).symm⟩
    · simp only [hs.base, hs.limit, hs.page_count, u32, VM_PAGE_SIZE, Heap.mk.injEq, true_and] at *
      omega
    · intro page hpage
      simp only [address_space_unmap_free_range, align_down_of_aligned haligned, Finset.mem_sdiff,
        Finset.mem_Ico, hs.mapped page hpage]
      simp only [u32, VM_PAGE_SIZE] at *
      omega
  · have heq : p.heap.heap_mapped_end = align_up_user_page requested := by omega
    refine ⟨_, rfl, hlow, hhigh, ?_, ?_, fun a => (if_neg (hsame a)).symm⟩
    · simp only [hs.base, hs.limit, hs.page_count, heq, u32, VM_PAGE_SIZE, Heap.mk.injEq, true_and] at *
      omega
    · rw [← heq]
      exact hs.mapped

/-- A call sets the break, or it changes nothing. -/
theorem Inv.resize (hs : Inv range p) (requested : Nat) (frames : Option (Nat → UInt8)) :
    (resize_user_process_heap p requested frames).2 = p ∨
      ∃ p', resize_user_process_heap p requested frames = (requested, p') ∧ requested ≠ 0 ∧
        Sets range p requested p' := by
  unfold resize_user_process_heap
  rw [hs.limit, hs.base]
  split
  · exact .inl rfl
  split
  · exact .inl rfl
  rename_i hzero
  split
  · exact .inl rfl
  rename_i hrange
  rw [not_or, not_lt, not_lt] at hrange
  by_cases hgrow : p.heap.heap_mapped_end < align_up_user_page requested
  · rcases hs.grow hrange.1 hrange.2 hgrow with ⟨heq, -⟩ | ⟨p', heq, hsets⟩
    · exact .inl (congrArg Prod.snd heq)
    · exact .inr ⟨p', heq, hzero, hsets⟩
  · obtain ⟨p', heq, hsets⟩ := hs.shrink hrange.1 hrange.2 hgrow
    exact .inr ⟨p', heq, hzero, hsets⟩

/-! ## Over whole runs -/

theorem Sets.inv {p' : Process} (h : Sets range p requested p') : Inv range p' := by
  have hspec := range.align_spec h.high
  have hbase := range.base_aligned
  have hpages := pages_le hspec.2.1 h.mapped
  constructor <;> rw [h.heap]
  · exact h.low
  · exact h.high
  · exact h.mapped
  · refine u32_of_lt ?_
    simp only [VM_PAGE_SIZE] at *
    omega

theorem inv_reached (h : (heaps range).Reachable p) : Inv range p := by
  refine h.inv (P := Inv range) (fun _ => Starts.inv) ?_
  rintro p call _ hs hstep
  cases hstep
  rcases hs.resize call.requested_break call.frames with hsame | ⟨p', heq, -, hsets⟩
  · rw [hsame]
    exact hs
  · rw [heq]
    exact hsets.inv

/-- The pages of the range that are mapped. -/
def Range.mapped_pages (range : Range) (p : Process) : Finset Nat :=
  (Finset.Ico (range.base / VM_PAGE_SIZE) (range.limit / VM_PAGE_SIZE)).filter (· ∈ p.memory.mapped)

/-- After any calls: the break lies in the range, the
mapped end is the break rounded up, the mapped pages are those below it and are as many as
`heap_page_count` says; and of the next call: new pages read as zero, bytes below both
breaks stay, and a result of 0 means that nothing has changed. -/
theorem the_break_is_one_quantity (h : (heaps range).Reachable p) :
    (range.base ≤ p.heap.heap_break ∧ p.heap.heap_break ≤ p.heap.heap_mapped_end ∧
      p.heap.heap_mapped_end ≤ range.limit ∧
      p.heap.heap_mapped_end = align_up_user_page p.heap.heap_break ∧
      range.mapped_pages p =
        Finset.Ico (range.base / VM_PAGE_SIZE) (p.heap.heap_mapped_end / VM_PAGE_SIZE) ∧
      p.heap.heap_page_count = (range.mapped_pages p).card) ∧
    ∀ requested frames, let result := resize_user_process_heap p requested frames
      (∀ address, p.heap.heap_mapped_end ≤ address → address < result.2.heap.heap_mapped_end →
        result.2.memory.byte address = 0) ∧
      (∀ address, address < p.heap.heap_break → address < result.2.heap.heap_break →
        result.2.memory.byte address = p.memory.byte address) ∧
      (result.1 = 0 → result.2 = p) := by
  have hs := inv_reached h
  obtain ⟨hstart, hbreak, hend, haligned⟩ := hs.mapped_end_spec
  have hpages : range.mapped_pages p =
      Finset.Ico (range.base / VM_PAGE_SIZE) (p.heap.heap_mapped_end / VM_PAGE_SIZE) := by
    ext page
    have hle := Nat.div_le_div_right (c := VM_PAGE_SIZE) hend
    simp only [Range.mapped_pages, Finset.mem_filter, Finset.mem_Ico]
    constructor
    · rintro ⟨hpage, hmapped⟩
      exact ⟨hpage.1, (hs.mapped page hpage).mp hmapped⟩
    · rintro ⟨hfirst, hlast⟩
      exact ⟨⟨hfirst, hlast.trans_le hle⟩, (hs.mapped page ⟨hfirst, hlast.trans_le hle⟩).mpr hlast⟩
  refine ⟨⟨hs.low, hbreak, hend, hs.mapped_end, hpages, ?_⟩, ?_⟩
  · have := range.base_aligned
    rw [hpages, Nat.card_Ico, hs.page_count]
    simp only [VM_PAGE_SIZE] at *
    omega
  · intro requested frames
    rcases hs.resize requested frames with hsame | ⟨p', heq, hzero, hsets⟩
    · simp only [hsame]
      exact ⟨fun _ _ _ => by omega, fun _ _ _ => trivial, fun _ => trivial⟩
    · simp only [heq, hsets.heap, hsets.byte]
      refine ⟨fun a ha ha' => if_pos ⟨ha, ha'⟩, fun a ha _ => if_neg (by omega), ?_⟩
      exact fun h => absurd h hzero

end

/-! ## A small heap -/

/-- The heap of a process with its code at 4 MiB. -/
def small : Range := ⟨0x510000, 0x5f8000, by decide, by decide, by decide, by decide⟩

def unmapped (range : Range) : Process :=
  let heap := ⟨range.base, range.base, range.base, range.limit, 0⟩
  ⟨heap, heap, ⟨∅, fun _ => 0xaa, Nat.zero_le _⟩⟩

theorem five_thousand_bytes_take_two_pages :
    ∃ p, (heaps small).Reachable p ∧ p.heap.heap_break = small.base + 5000 ∧
      p.heap.heap_page_count = 2 ∧ (small.mapped_pages p).card = 2 := by
  have hstarts : Starts small (unmapped small) := ⟨rfl, fun _ _ => Finset.notMem_empty _⟩
  have hgrow : move_break (unmapped small) (small.base + 5000) (some fun _ => 0xaa) = _ ∧ _ ∨ _ :=
    hstarts.inv.grow (by decide) (by decide) (by decide)
  rcases hgrow with ⟨-, hnone | hmany⟩ | ⟨p, heq, hsets⟩
  · cases hnone
  · exact absurd hmany (by decide)
  have hcount : p.heap.heap_page_count = 2 := by
    rw [hsets.heap]
    decide
  have hp : (heaps small).Reachable p := by
    refine (Machine.Reachable.of_init hstarts).step (l := ⟨small.base + 5000, some fun _ => 0xaa⟩) ?_
    show some (resize_user_process_heap _ _ _).2 = some p
    unfold resize_user_process_heap
    rw [if_neg (by decide), if_neg (by decide), if_neg (by decide), heq]
  refine ⟨p, hp, congrArg Heap.heap_break hsets.heap, hcount, ?_⟩
  rw [← (the_break_is_one_quantity hp).1.2.2.2.2.2]
  exact hcount

end mini_kernel.program_break
