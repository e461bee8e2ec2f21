-- The physical allocator: one bitmap, a counter of free blocks, a hint where to
-- look next, and three ways to look for free blocks. A pointer is an address, and
-- zero is no pointer.
import MiniKernel.Lib.Bitmap
import MiniKernel.Lib.Word
import MiniKernel.Mm.Layout

open mini_kernel.lib

namespace mini_kernel.pmm

def LOW_MEMORY_RESERVE_SIZE : Nat := 2 * 1024 * 1024
def E820_TYPE_USABLE : Nat := 1
def E820_MAX_ENTRIES : Nat := 128
def BOOT_INFO_MAGIC : Nat := 0x4649424D
def BOOT_RESERVED_RANGE_MAX : Nat := 16
def sizeof_BootInfo : Nat := 952
def sizeof_BootReservedRange : Nat := 24

/-- The statics of the allocator. The counters that only `pmm_get_stats` shows are
left out. -/
structure Pmm where
  memory_bitmap64 : Bitmap
  free_blocks64 : Nat
  next_free_hint64 : Nat

/-! ## Blocks and ranges -/

def Pmm.mmap_test64 (p : Pmm) (bit : Nat) : Bool := p.memory_bitmap64.test bit

def mark_all_used64 (p : Pmm) : Pmm :=
  { memory_bitmap64 := p.memory_bitmap64.fill PMM_BITMAP_SIZE, free_blocks64 := 0, next_free_hint64 := 0 }

def mark_block_used64 (p : Pmm) (index : Nat) : Pmm :=
  if PMM_TOTAL_BLOCKS ≤ index then p
  else if p.mmap_test64 index then p
  else
    { p with
      memory_bitmap64 := p.memory_bitmap64.set index
      free_blocks64 := p.free_blocks64 - 1 }

def mark_block_free64 (p : Pmm) (index : Nat) : Pmm :=
  if PMM_TOTAL_BLOCKS ≤ index then p
  else if p.mmap_test64 index then
    { memory_bitmap64 := p.memory_bitmap64.unset index
      free_blocks64 := u32 (p.free_blocks64 + 1)
      next_free_hint64 := if index < p.next_free_hint64 then index else p.next_free_hint64 }
  else p

/-- A loop that marks `count` blocks in a row. -/
def mark_blocks_used (p : Pmm) (first : Nat) : Nat → Pmm
  | 0 => p
  | count + 1 => mark_block_used64 (mark_blocks_used p first count) (u32 (first + count))

def mark_blocks_free (p : Pmm) (first : Nat) : Nat → Pmm
  | 0 => p
  | count + 1 => mark_block_free64 (mark_blocks_free p first count) (u32 (first + count))

def mark_range_used64 (p : Pmm) (start finish : Nat) : Pmm :=
  if finish ≤ start then p
  else
    let first_block := align_down start PMM_PAGE_SIZE / PMM_PAGE_SIZE
    let last_block := min (align_up finish PMM_PAGE_SIZE / PMM_PAGE_SIZE) PMM_TOTAL_BLOCKS
    mark_blocks_used p first_block (last_block - first_block)

def mark_range_size_used64 (p : Pmm) (start size : Nat) : Pmm :=
  if size = 0 then p
  else
    let finish := u64 (start + size)
    mark_range_used64 p start (if finish < start then PMM_MAX_RAM_SIZE else finish)

def mark_range_free64 (p : Pmm) (start finish : Nat) : Pmm :=
  let first_block := align_up start PMM_PAGE_SIZE / PMM_PAGE_SIZE
  let last_block := align_down finish PMM_PAGE_SIZE / PMM_PAGE_SIZE
  if PMM_TOTAL_BLOCKS ≤ first_block then p
  else
    let last_block := min last_block PMM_TOTAL_BLOCKS
    if last_block ≤ first_block then p else mark_blocks_free p first_block (last_block - first_block)

/-! ## The map of the firmware -/

structure E820Entry where
  base_low : Nat
  base_high : Nat
  length_low : Nat
  length_high : Nat
  type : Nat

structure BootReservedRange where
  base : Nat
  size : Nat

/-- What the allocator reads of the boot record; `entries` is the table at
`memory_map_addr`. -/
structure BootInfo where
  magic : Nat
  size : Nat
  kernel_load_addr : Nat
  kernel_sector_count : Nat
  kernel_file_size : Nat
  memory_map_entry_count : Nat
  entries : Nat → E820Entry
  reserved_range_count : Nat
  reserved_range_entry_size : Nat
  reserved_ranges : Nat → BootReservedRange

def E820Entry.base (entry : E820Entry) : Nat := (entry.base_high <<< 32) ||| entry.base_low

def e820_entry_end64 (entry : E820Entry) : Nat :=
  let finish := u64 (entry.base + ((entry.length_high <<< 32) ||| entry.length_low))
  if finish < entry.base ∨ PMM_MAX_RAM_SIZE < finish then PMM_MAX_RAM_SIZE else finish

def kernel_reserved_size64 (boot_info : BootInfo) : Nat :=
  if boot_info.kernel_file_size ≠ 0 then boot_info.kernel_file_size
  else if boot_info.kernel_sector_count ≠ 0 then u32 (boot_info.kernel_sector_count * 512)
  else 0

/-- The loop over the reserved ranges, in their order. -/
def reserve_ranges (boot_info : BootInfo) (p : Pmm) : Nat → Pmm
  | 0 => p
  | count + 1 =>
    let range := boot_info.reserved_ranges count
    mark_range_size_used64 (reserve_ranges boot_info p count) range.base range.size

def reserve_boot_info_ranges64 (p : Pmm) (boot_info : BootInfo) : Pmm :=
  let kernel_size := kernel_reserved_size64 boot_info
  let p :=
    if boot_info.kernel_load_addr ≠ 0 ∧ kernel_size ≠ 0 then
      mark_range_size_used64 p boot_info.kernel_load_addr kernel_size
    else p
  if boot_info.size < sizeof_BootInfo ∨
      boot_info.reserved_range_entry_size < sizeof_BootReservedRange then p
  else reserve_ranges boot_info p (min boot_info.reserved_range_count BOOT_RESERVED_RANGE_MAX)

def free_entry (p : Pmm) (entry : E820Entry) : Pmm :=
  if entry.type ≠ E820_TYPE_USABLE then p
  else if PMM_MAX_RAM_SIZE ≤ entry.base then p
  else mark_range_free64 p entry.base (e820_entry_end64 entry)

/-- The loop over the entries of the map, in their order. -/
def free_entries (boot_info : BootInfo) (p : Pmm) : Nat → Pmm
  | 0 => p
  | count + 1 => free_entry (free_entries boot_info p count) (boot_info.entries count)

def init_from_e820_64 (p : Pmm) : Option BootInfo → Option Pmm
  | none => none
  | some boot_info =>
    if boot_info.magic ≠ BOOT_INFO_MAGIC ∨ boot_info.memory_map_entry_count = 0 then none
    else
      let p := free_entries boot_info (mark_all_used64 p)
        (min boot_info.memory_map_entry_count E820_MAX_ENTRIES)
      let p := mark_range_used64 p 0 LOW_MEMORY_RESERVE_SIZE
      some (reserve_boot_info_ranges64 p boot_info)

/-- Without a valid map no block is free. -/
def pmm_init (p : Pmm) (boot_info : Option BootInfo) : Pmm :=
  let p := { p with next_free_hint64 := 0 }
  match init_from_e820_64 p boot_info with
  | some p => p
  | none => mark_all_used64 p

/-! ## Taking blocks -/

/-- The hint after the blocks before `next` were taken. -/
def Pmm.hint_at (p : Pmm) (next : Nat) : Pmm :=
  { p with next_free_hint64 := if PMM_TOTAL_BLOCKS ≤ next then 0 else next }

/-- The block that the scan looks at in a step: from the start on, and around. -/
def scan_index (start step : Nat) : Nat :=
  if PMM_TOTAL_BLOCKS ≤ start + step then start + step - PMM_TOTAL_BLOCKS else start + step

/-- The scan for one block, with the turns that are left. -/
def scan (p : Pmm) (start : Nat) : (turns step : Nat) → Option Nat
  | 0, _ => none
  | turns + 1, step =>
    if !p.mmap_test64 (scan_index start step) then some (scan_index start step)
    else scan p start turns (step + 1)

/-- `fault` says whether a failure is injected into the call. -/
def pmm_alloc_block (p : Pmm) (fault : Bool) : Nat × Pmm :=
  if fault then (0, p)
  else if p.free_blocks64 = 0 then (0, p)
  else
    let start := if PMM_TOTAL_BLOCKS ≤ p.next_free_hint64 then 0 else p.next_free_hint64
    match scan p start PMM_TOTAL_BLOCKS 0 with
    | some i => (i * PMM_PAGE_SIZE, (mark_block_used64 p i).hint_at (i + 1))
    | none => (0, p)

/-- The scan for `count` free blocks in a row: the run it is in began at
`run_start` and is `run_length` long. -/
def scan_run (p : Pmm) (count : Nat) : (turns i run_start run_length : Nat) → Option Nat
  | 0, _, _, _ => none
  | turns + 1, i, run_start, run_length =>
    if !p.mmap_test64 i then
      let run_start := if run_length = 0 then i else run_start
      if run_length + 1 = count then some run_start
      else scan_run p count turns (i + 1) run_start (run_length + 1)
    else scan_run p count turns (i + 1) run_start 0

def take_run (p : Pmm) (first count : Nat) : Nat × Pmm :=
  (first * PMM_PAGE_SIZE, (mark_blocks_used p first count).hint_at (first + count))

def pmm_alloc_blocks (p : Pmm) (count : Nat) (fault : Bool) : Nat × Pmm :=
  if count = 0 then (0, p)
  else if fault then (0, p)
  else if p.free_blocks64 < count ∨ PMM_TOTAL_BLOCKS < count then (0, p)
  else
    match scan_run p count PMM_TOTAL_BLOCKS 0 0 0 with
    | some run_start => take_run p run_start count
    | none => (0, p)

/-- The free blocks from `start` on, `count` at most. -/
def available (p : Pmm) (start : Nat) : (count : Nat) → Nat
  | 0 => 0
  | count + 1 => if p.mmap_test64 start then 0 else available p (start + 1) count + 1

/-- The scan under constraints: a start that is not aligned or would cross a
boundary is passed over, and a used block takes the scan behind it. -/
def scan_constrained (p : Pmm) (count alignment_blocks boundary_bytes maximum_address : Nat)
    (start : Nat) : Option Nat :=
  if start + count ≤ PMM_TOTAL_BLOCKS then
    let bytes := count * PMM_PAGE_SIZE
    let address := start * PMM_PAGE_SIZE
    if start &&& (alignment_blocks - 1) ≠ 0 then
      scan_constrained p count alignment_blocks boundary_bytes maximum_address (start + 1)
    else if maximum_address < address ∨ maximum_address - address < bytes - 1 then none
    else if boundary_bytes ≠ 0 ∧ address / boundary_bytes ≠ (address + bytes - 1) / boundary_bytes then
      scan_constrained p count alignment_blocks boundary_bytes maximum_address (start + 1)
    else if available p start count ≠ count then
      scan_constrained p count alignment_blocks boundary_bytes maximum_address
        (start + available p start count + 1)
    else some start
  else none
termination_by PMM_TOTAL_BLOCKS + 1 - start

def pmm_alloc_blocks_constrained (p : Pmm)
    (count alignment_blocks boundary_bytes maximum_address : Nat) (fault : Bool) : Nat × Pmm :=
  if count = 0 ∨ alignment_blocks = 0 ∨ alignment_blocks &&& (alignment_blocks - 1) ≠ 0 ∨
      p.free_blocks64 < count ∨ PMM_TOTAL_BLOCKS < count then (0, p)
  else if fault then (0, p)
  else
    match scan_constrained p count alignment_blocks boundary_bytes maximum_address 0 with
    | some start => take_run p start count
    | none => (0, p)

/-! ## Giving blocks back -/

def pmm_free_block (p : Pmm) (addr : Nat) : Pmm := mark_block_free64 p (u32 (addr / PMM_PAGE_SIZE))

def pmm_free_blocks (p : Pmm) (addr count : Nat) : Pmm :=
  mark_blocks_free p (addr / PMM_PAGE_SIZE) count

end mini_kernel.pmm
