-- The kernel heap (kernel/mm/heap.cpp). Headers live in memory and point to each
-- other by address: one thread in address order, and eight threads of free
-- blocks. The model keeps every pointer write of the source, in its order.
import MiniKernel.Lib.Linked
import MiniKernel.Lib.Word
import MiniKernel.Mm.Layout

open mini_kernel.lib mini_kernel.vm mini_kernel.pmm Function

namespace mini_kernel.heap

def HEAP_BLOCK_MAGIC : Nat := 0x48454150
def HEAP_FREE_BIN_COUNT : Nat := 8

/-- `sizeof(struct heap_header)`: four words of four bytes and four pointers. -/
def HEADER_SIZE : Nat := 48

structure heap_header where
  magic : Nat
  size : Nat
  requested_size : Nat
  is_free : Bool
  in_free_list : Bool
  next : Nat
  prev : Nat
  free_next : Nat
  free_prev : Nat
  deriving DecidableEq

/-- What `heap_zero_region` leaves at an address. -/
def zeroHeader : heap_header := ⟨0, 0, 0, false, false, 0, 0, 0, 0⟩

/-- The calls of the heap to the page layer. -/
inductive VmCall
  | alloc_map_range (virt size : Nat)
  | unmap_free_range (virt page_count : Nat)
  deriving DecidableEq

/-- The statics of `heap.cpp`, the headers in memory, and the calls made to the
page layer, newest first. -/
structure Heap where
  mem : Nat → heap_header
  heap_free_bins : Nat → Nat
  heap_start : Nat
  heap_tail : Nat
  heap_next_virtual : Nat
  heap_mapped_pages : Nat
  heap_alloc_requests : Nat
  heap_free_requests : Nat
  heap_alloc_failures : Nat
  heap_invalid_free_requests : Nat
  heap_double_free_requests : Nat
  heap_free_list_hits : Nat
  heap_free_list_misses : Nat
  heap_current_used_bytes : Nat
  heap_peak_used_bytes : Nat
  heap_grow_requests : Nat
  vm_calls : List VmCall

/-- What a call finds around the heap: an injected fault, and whether
`vm_alloc_map_range` maps the pages. A mapping that fails has no effect. -/
structure Env where
  fault : Bool
  map_ok : Bool

/-- A write of some fields of the header at `a`. -/
def Heap.write (h : Heap) (a : Nat) (f : heap_header → heap_header) : Heap :=
  { h with mem := update h.mem a (f (h.mem a)) }

theorem write_mem (h : Heap) (a x : Nat) (f : heap_header → heap_header) :
    (h.write a f).mem x = if x = a then f (h.mem a) else h.mem x := by
  simp only [Heap.write, update_apply]

/-- The statics that no write to a header and no move of the tail touches. -/
def Heap.rest (h : Heap) : Heap := { h with mem := fun _ => zeroHeader, heap_tail := 0 }

@[simp] theorem write_rest (h : Heap) (a : Nat) (f : heap_header → heap_header) :
    (h.write a f).rest = h.rest := rfl

@[simp] theorem write_tail (h : Heap) (a : Nat) (f : heap_header → heap_header) :
    (h.write a f).heap_tail = h.heap_tail := rfl

def heap_address_in_mapped_range (h : Heap) (address size : Nat) : Bool :=
  if address = 0 ∨ size = 0 then false
  else
    let «end» := u64 (address + size)
    decide («end» ≥ address ∧ address ≥ VM_KERNEL_HEAP_BASE ∧ «end» ≤ h.heap_next_virtual)

def heap_block_valid (h : Heap) (block : Nat) : Bool :=
  if ¬ heap_address_in_mapped_range h block HEADER_SIZE then false
  else if (h.mem block).magic ≠ HEAP_BLOCK_MAGIC ∨ (h.mem block).size < HEADER_SIZE then false
  else heap_address_in_mapped_range h block (h.mem block).size

def heap_bin_index (size : Nat) : Nat :=
  if size ≤ 64 then 0
  else if size ≤ 128 then 1
  else if size ≤ 256 then 2
  else if size ≤ 512 then 3
  else if size ≤ 1024 then 4
  else if size ≤ 2048 then 5
  else if size ≤ 4096 then 6
  else 7

def heap_init_block (h : Heap) (block size : Nat) (is_free : Bool) (next prev : Nat) : Heap :=
  h.write block fun _ => ⟨HEAP_BLOCK_MAGIC, size, 0, is_free, false, next, prev, 0, 0⟩

def heap_remove_free_block (h : Heap) (block : Nat) : Heap :=
  if ¬ heap_block_valid h block ∨ ¬ (h.mem block).in_free_list then h
  else
    let bin := heap_bin_index (h.mem block).size
    let h₁ :=
      if (h.mem block).free_prev ≠ 0 then
        h.write (h.mem block).free_prev fun b => { b with free_next := (h.mem block).free_next }
      else if bin < HEAP_FREE_BIN_COUNT ∧ h.heap_free_bins bin = block then
        { h with heap_free_bins := update h.heap_free_bins bin (h.mem block).free_next }
      else h
    let h₂ :=
      if (h₁.mem block).free_next ≠ 0 then
        h₁.write (h₁.mem block).free_next fun b => { b with free_prev := (h₁.mem block).free_prev }
      else h₁
    h₂.write block fun b => { b with free_next := 0, free_prev := 0, in_free_list := false }

def heap_insert_free_block (h : Heap) (block : Nat) : Heap :=
  if ¬ heap_block_valid h block ∨ ¬ (h.mem block).is_free ∨ (h.mem block).in_free_list then h
  else
    let bin := heap_bin_index (h.mem block).size
    let h₁ := h.write block fun b =>
      { b with free_prev := 0, free_next := h.heap_free_bins bin }
    let h₂ :=
      if h₁.heap_free_bins bin ≠ 0 then
        h₁.write (h₁.heap_free_bins bin) fun b => { b with free_prev := block }
      else h₁
    let h₃ := { h₂ with heap_free_bins := update h₂.heap_free_bins bin block }
    h₃.write block fun b => { b with in_free_list := true }

/-- More turns than any thread of the heap has nodes: a header takes
`HEADER_SIZE` bytes of the mapped range. -/
def turns (h : Heap) : Nat := (h.heap_next_virtual - VM_KERNEL_HEAP_BASE) / HEADER_SIZE + 1

/-- The `while` loop of `heap_find_free_block` along one bin. `none`: the turns
ran out. `some 0`: the end of the bin. -/
def find_in_bin (h : Heap) (total_size : Nat) : Nat → Nat → Option Nat
  | 0, _ => none
  | fuel + 1, current =>
    if current = 0 then some 0
    else if heap_block_valid h current ∧ (h.mem current).is_free ∧
        (h.mem current).size ≥ total_size then some current
    else find_in_bin h total_size fuel (h.mem current).free_next

/-- The `for` loop of `heap_find_free_block` over the bins that are left. -/
def find_in_bins (h : Heap) (total_size : Nat) : List Nat → Option Nat
  | [] => some 0
  | bin :: bins => do
    let current ← find_in_bin h total_size (turns h) (h.heap_free_bins bin)
    if current = 0 then find_in_bins h total_size bins else some current

def heap_find_free_block (h : Heap) (total_size : Nat) : Option (Nat × Heap) := do
  let bin := heap_bin_index total_size
  let current ← find_in_bins h total_size (List.range' bin (HEAP_FREE_BIN_COUNT - bin))
  if current = 0 then
    some (0, { h with heap_free_list_misses := u64 (h.heap_free_list_misses + 1) })
  else some (current, { h with heap_free_list_hits := u64 (h.heap_free_list_hits + 1) })

def heap_update_peak_used (h : Heap) : Heap :=
  if h.heap_current_used_bytes > h.heap_peak_used_bytes then
    { h with heap_peak_used_bytes := h.heap_current_used_bytes }
  else h

def heap_mark_allocated (h : Heap) (block requested_size : Nat) : Heap :=
  let h := h.write block fun b => { b with is_free := false, requested_size := requested_size }
  let h := { h with
    heap_current_used_bytes := u64 (h.heap_current_used_bytes + requested_size) }
  heap_update_peak_used h

def heap_mark_free (h : Heap) (block : Nat) : Heap :=
  let h :=
    if h.heap_current_used_bytes ≥ (h.mem block).requested_size then
      { h with
        heap_current_used_bytes := h.heap_current_used_bytes - (h.mem block).requested_size }
    else { h with heap_current_used_bytes := 0 }
  h.write block fun b => { b with is_free := true, requested_size := 0 }

def heap_zero_region (h : Heap) (region size : Nat) : Heap :=
  { h with mem := fun a => if region ≤ a ∧ a < region + size then zeroHeader else h.mem a }

def split_block (h : Heap) (block total_size : Nat) : Heap :=
  if (h.mem block).size < total_size + HEADER_SIZE + 16 then h
  else
    let next_block := block + total_size
    let h₁ := heap_remove_free_block h block
    let h₂ := heap_init_block h₁ next_block ((h₁.mem block).size - total_size) true
      (h₁.mem block).next block
    let h₃ :=
      if (h₂.mem next_block).next ≠ 0 then
        h₂.write (h₂.mem next_block).next fun b => { b with prev := next_block }
      else h₂
    let h₄ := h₃.write block fun b => { b with size := total_size, next := next_block }
    let h₅ := if h₄.heap_tail = block then { h₄ with heap_tail := next_block } else h₄
    heap_insert_free_block h₅ next_block

def heap_blocks_adjacent (h : Heap) (left right : Nat) : Bool :=
  heap_block_valid h left && heap_block_valid h right &&
    decide (u64 (left + (h.mem left).size) = right)

def merge_with_next (h : Heap) (block : Nat) : Nat × Heap :=
  if block = 0 ∨ (h.mem block).next = 0 then (block, h)
  else
    let next := (h.mem block).next
    if ¬ (h.mem block).is_free ∨ ¬ (h.mem next).is_free ∨ ¬ heap_blocks_adjacent h block next then
      (block, h)
    else
      let h₁ := heap_remove_free_block h block
      let h₂ := heap_remove_free_block h₁ next
      let h₃ := h₂.write block fun b =>
        { b with
          size := u32 ((h₂.mem block).size + (h₂.mem next).size)
          requested_size := 0
          next := (h₂.mem next).next }
      let h₄ :=
        if (h₃.mem block).next ≠ 0 then
          h₃.write (h₃.mem block).next fun b => { b with prev := block }
        else h₃
      let h₅ := if h₄.heap_tail = next then { h₄ with heap_tail := block } else h₄
      (block, heap_insert_free_block h₅ block)

def coalesce_around (h : Heap) (block : Nat) : Nat × Heap :=
  if block = 0 ∨ ¬ heap_block_valid h block ∨ ¬ (h.mem block).is_free then (block, h)
  else
    let h₁ := heap_insert_free_block h block
    let prev := (h₁.mem block).prev
    let r :=
      if prev ≠ 0 ∧ (h₁.mem prev).is_free ∧ heap_blocks_adjacent h₁ prev block then
        merge_with_next h₁ prev
      else (block, h₁)
    merge_with_next r.2 r.1

def append_region (env : Env) (h : Heap) (bytes : Nat) : Nat × Heap :=
  let h := { h with heap_grow_requests := u32 (h.heap_grow_requests + 1) }
  let page_count := u32 (bytes + PMM_PAGE_SIZE - 1) / PMM_PAGE_SIZE
  let region := h.heap_next_virtual
  let region_size := page_count * PMM_PAGE_SIZE
  if u64 (region + region_size) > VM_KERNEL_HEAP_LIMIT then (0, h)
  else if ¬ env.map_ok then (0, h)
  else
    let h := { h with vm_calls := .alloc_map_range region region_size :: h.vm_calls }
    let h := { h with
      heap_mapped_pages := u32 (h.heap_mapped_pages + page_count)
      heap_next_virtual := u64 (h.heap_next_virtual + region_size) }
    let h := heap_zero_region h region region_size
    let block := region
    let h := heap_init_block h block (u32 (page_count * PMM_PAGE_SIZE)) true 0 h.heap_tail
    let h :=
      if h.heap_start = 0 then { h with heap_start := block, heap_tail := block }
      else
        let h := h.write h.heap_tail fun b => { b with next := block }
        { h with heap_tail := block }
    (block, heap_insert_free_block h block)

/-- `vm_unmap_free_range` at the end of the heap, and the statics after it. It
unmaps the pages it is asked to. -/
def release_pages (h : Heap) (releasable_start page_count : Nat) : Heap :=
  let unmapped := page_count
  { h with
    vm_calls := .unmap_free_range releasable_start page_count :: h.vm_calls
    heap_mapped_pages := if unmapped > h.heap_mapped_pages then 0 else h.heap_mapped_pages - unmapped
    heap_next_virtual := releasable_start }

/-- The whole tail is gone: the block before it is the tail. -/
def drop_tail (h : Heap) (previous_tail : Nat) : Heap :=
  let h :=
    if previous_tail ≠ 0 then h.write previous_tail fun b => { b with next := 0 }
    else { h with heap_start := 0 }
  { h with heap_tail := previous_tail }

/-- The tail stays with fewer bytes. -/
def cut_tail (h : Heap) (size : Nat) : Heap :=
  heap_insert_free_block (h.write h.heap_tail fun b => { b with size := size, next := 0 })
    h.heap_tail

/-- One turn of the loop of `shrink_heap_tail`, and whether the loop goes on. -/
def shrink_turn (h : Heap) : Bool × Heap :=
  let block_start := h.heap_tail
  let block_end := u64 (block_start + (h.mem h.heap_tail).size)
  if block_end ≠ h.heap_next_virtual then (false, h)
  else
    let releasable_start :=
      if block_start = align_down block_start PMM_PAGE_SIZE ∧
          (h.mem h.heap_tail).size ≥ PMM_PAGE_SIZE then block_start
      else align_up (block_start + HEADER_SIZE) PMM_PAGE_SIZE
    if releasable_start ≥ block_end then (false, h)
    else
      let previous_tail :=
        if releasable_start = block_start then (h.mem h.heap_tail).prev else 0
      let h₁ := heap_remove_free_block h h.heap_tail
      let page_count := u32 ((block_end - releasable_start) / PMM_PAGE_SIZE)
      let h₂ := release_pages h₁ releasable_start page_count
      if releasable_start = block_start then (true, drop_tail h₂ previous_tail)
      else (false, cut_tail h₂ (u32 (releasable_start - block_start)))

/-- The loop of `shrink_heap_tail`. `none`: the turns ran out. -/
def shrink_loop : Nat → Heap → Option Heap
  | 0, _ => none
  | fuel + 1, h =>
    if h.heap_tail = 0 ∨ ¬ (h.mem h.heap_tail).is_free then some h
    else
      let r := shrink_turn h
      if r.1 then shrink_loop fuel r.2 else some r.2

def shrink_heap_tail (h : Heap) : Option Heap := shrink_loop (turns h) h

def heap_init (env : Env) (mem : Nat → heap_header) : Heap :=
  let h : Heap :=
    { mem := mem
      heap_free_bins := fun _ => 0
      heap_start := 0
      heap_tail := 0
      heap_next_virtual := VM_KERNEL_HEAP_BASE
      heap_mapped_pages := 0
      heap_alloc_requests := 0
      heap_free_requests := 0
      heap_alloc_failures := 0
      heap_invalid_free_requests := 0
      heap_double_free_requests := 0
      heap_free_list_hits := 0
      heap_free_list_misses := 0
      heap_current_used_bytes := 0
      heap_peak_used_bytes := 0
      heap_grow_requests := 0
      vm_calls := [] }
  heap_update_peak_used (append_region env h (PMM_PAGE_SIZE * 4)).2

/-- The ways out of `kmalloc` that give no block. -/
def kmalloc_fails (h : Heap) : Option (Nat × Heap) :=
  some (0, { h with heap_alloc_failures := u64 (h.heap_alloc_failures + 1) })

/-- The common end of `kmalloc`: cut the block, take it out of its bin, mark it. -/
def kmalloc_take (h : Heap) (current total_size size : Nat) : Option (Nat × Heap) :=
  let h := split_block h current total_size
  let h := heap_remove_free_block h current
  let h := heap_mark_allocated h current (u32 size)
  some (current + HEADER_SIZE, h)

/-- `kmalloc` once the size has passed its checks: find a block or grow. -/
def kmalloc_sized (env : Env) (h : Heap) (total_size size : Nat) : Option (Nat × Heap) := do
  let (current, h) ← heap_find_free_block h total_size
  if current = 0 then
    let grow_size := if total_size < PMM_PAGE_SIZE * 4 then PMM_PAGE_SIZE * 4 else total_size
    let r := append_region env h grow_size
    if r.1 = 0 then kmalloc_fails r.2 else kmalloc_take r.2 r.1 total_size size
  else kmalloc_take h current total_size size

/-- The pointer that `kmalloc` returns, 0 for none, and the heap after it. -/
def kmalloc (env : Env) (h : Heap) (size : Nat) : Option (Nat × Heap) :=
  let h := { h with heap_alloc_requests := u64 (h.heap_alloc_requests + 1) }
  if size = 0 then kmalloc_fails h
  else if env.fault then kmalloc_fails h
  else if size > 0xFFFFFFFF - HEADER_SIZE then kmalloc_fails h
  else
    let aligned_total := align_up (size + HEADER_SIZE) 16
    if aligned_total > 0xFFFFFFFF then kmalloc_fails h
    else kmalloc_sized env h (u32 aligned_total) size

/-- `kfree` once the header is known. -/
def kfree_block (h : Heap) (header : Nat) : Option Heap :=
  if ¬ heap_block_valid h header then
    some { h with heap_invalid_free_requests := u64 (h.heap_invalid_free_requests + 1) }
  else if (h.mem header).is_free then
    some { h with heap_double_free_requests := u64 (h.heap_double_free_requests + 1) }
  else
    let h := heap_mark_free h header
    shrink_heap_tail (coalesce_around h header).2

def kfree (h : Heap) (ptr : Nat) : Option Heap :=
  if ptr = 0 then some h
  else
    kfree_block { h with heap_free_requests := u64 (h.heap_free_requests + 1) }
      (u64 (ptr + 2 ^ 64 - HEADER_SIZE))

end mini_kernel.heap
