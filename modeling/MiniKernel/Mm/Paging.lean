-- The page tables (arch/x86_64/mm/paging.cpp). A table is a frame of 512 entries
-- in physical memory, and an entry points on by a physical address, so tables
-- may be shared between roots. A new root starts as a copy of the kernel's top
-- table and copies a table further down only before it writes to it.
import MiniKernel.Lib.Word
import MiniKernel.Mm.Layout

open mini_kernel.lib mini_kernel.vm

namespace mini_kernel.paging

/-- A physical address of a frame; 0 is the null pointer of the source. -/
abbrev Frame := U64
abbrev Index := BitVec 9
abbrev Entry := U64

/-- The bits of an entry that hold a physical address. -/
def ADDRESS_MASK : U64 := 0x000FFFFFFFFFF000
def HUGE_2M_MASK : U64 := 0x000FFFFFFFE00000
def HUGE_1G_MASK : U64 := 0x000FFFFFC0000000

/-- Physical memory as tables, the kernel's root, and what `pmm_alloc_block` will
return next (0, or the end of the list: no memory). -/
structure Vm where
  mem : Frame → Index → Entry
  pml4_phys : Frame
  supply : List Frame

/-- `entry & flag`, as a condition. -/
def has (entry flag : U64) : Bool := entry &&& flag != 0

def pml4_index (virt : U64) : Index := (virt >>> 39).setWidth 9
def pdpt_index (virt : U64) : Index := (virt >>> 30).setWidth 9
def pd_index (virt : U64) : Index := (virt >>> 21).setWidth 9
def pt_index (virt : U64) : Index := (virt >>> 12).setWidth 9

def entry_to_table (entry : Entry) : Frame := entry &&& ADDRESS_MASK
def entry_to_phys (entry : Entry) : Frame := entry &&& ADDRESS_MASK

/-- `table[index] = entry`. -/
def Vm.write (s : Vm) (table : Frame) (index : Index) (entry : Entry) : Vm :=
  { s with mem := Function.update s.mem table (Function.update (s.mem table) index entry) }

/-- All 512 entries of a table. -/
def Vm.fill (s : Vm) (table : Frame) (entries : Index → Entry) : Vm :=
  { s with mem := Function.update s.mem table entries }

def pmm_alloc_block (s : Vm) : Frame × Vm :=
  match s.supply with
  | [] => (0, s)
  | phys :: supply => (phys, { s with supply := supply })

def zero_table (s : Vm) (table : Frame) : Vm := s.fill table fun _ => 0

def allocate_table (s : Vm) : Frame × Vm :=
  let r := pmm_alloc_block s
  if r.1 = 0 then (0, r.2) else (r.1, zero_table r.2 r.1)

def clone_table (s : Vm) (source_phys : Frame) : Frame × Vm :=
  let r := allocate_table s
  if r.1 = 0 then (0, r.2) else (r.1, r.2.fill r.1 (r.2.mem source_phys))

/-- The entry for a table that was just allocated. The flags are those of the
mapping, or those of the 2 MiB entry that the table splits. -/
def table_entry (phys flags : U64) : Entry :=
  phys ||| VM_FLAG_PRESENT ||| VM_FLAG_WRITABLE ||| (flags &&& VM_FLAG_USER) |||
    (flags &&& VM_FLAG_NO_EXECUTE)

/-- The entries of the table that takes the place of a 2 MiB entry. -/
def split_entries (entry : Entry) (i : Index) : Entry :=
  let base := entry &&& HUGE_2M_MASK
  let flags := entry &&& (0xFFF ||| VM_FLAG_NO_EXECUTE) &&& ~~~VM_FLAG_HUGE
  (base + i.setWidth 64 * 4096) ||| flags

def split_huge_page (s : Vm) (pd : Frame) (index : Index) : Bool × Vm :=
  let entry := s.mem pd index
  if ¬ has entry VM_FLAG_PRESENT ∨ ¬ has entry VM_FLAG_HUGE then (false, s)
  else
    let r := allocate_table s
    if r.1 = 0 then (false, r.2)
    else
      let s := r.2.fill r.1 (split_entries entry)
      (true, s.write pd index (table_entry r.1 entry))

def root_table (s : Vm) (root_phys : Frame) : Frame :=
  (if root_phys = 0 then s.pml4_phys else root_phys) &&& ADDRESS_MASK

def ensure_private_child (s : Vm) (table kernel_table : Frame) (index : Index) : Bool × Vm :=
  if kernel_table = 0 then (true, s)
  else
    let entry := s.mem table index
    let kernel_entry := s.mem kernel_table index
    if ¬ has entry VM_FLAG_PRESENT ∨ ¬ has kernel_entry VM_FLAG_PRESENT ∨
        has entry VM_FLAG_HUGE ∨ has kernel_entry VM_FLAG_HUGE then (true, s)
    else if entry_to_phys entry ≠ entry_to_phys kernel_entry then (true, s)
    else
      let r := clone_table s (entry_to_phys entry)
      if r.1 = 0 then (false, r.2)
      else (true, r.2.write table index (r.1 ||| (entry &&& (0xFFF ||| VM_FLAG_NO_EXECUTE))))

def kernel_child (s : Vm) (table : Frame) (index : Index) : Frame :=
  if table = 0 then 0
  else
    let entry := s.mem table index
    if ¬ has entry VM_FLAG_PRESENT ∨ has entry VM_FLAG_HUGE then 0 else entry_to_table entry

/-- The value that `relax_table_entry_for_flags` writes. -/
def relaxed (entry flags : U64) : Entry :=
  let updated := if has flags VM_FLAG_USER then entry ||| VM_FLAG_USER else entry
  if ¬ has flags VM_FLAG_NO_EXECUTE then updated &&& ~~~VM_FLAG_NO_EXECUTE else updated

def relax_table_entry_for_flags (s : Vm) (table : Frame) (index : Index) (flags : U64) : Vm :=
  let entry := s.mem table index
  if ¬ has entry VM_FLAG_PRESENT ∨ has entry VM_FLAG_HUGE then s
  else s.write table index (relaxed entry flags)

def get_or_create_next (s : Vm) (table : Frame) (index : Index) (flags : U64) : Frame × Vm :=
  let entry := s.mem table index
  if has entry VM_FLAG_PRESENT then
    if has entry VM_FLAG_HUGE then (0, s)
    else
      let s := relax_table_entry_for_flags s table index flags
      (entry_to_table (s.mem table index), s)
  else
    let r := allocate_table s
    if r.1 = 0 then (0, r.2) else (r.1, r.2.write table index (table_entry r.1 flags))

/-- The last table of a mapping: the one behind the directory entry, relaxed, or
a new one if there is memory for it. -/
def leaf_table (s : Vm) (pd : Frame) (pdi : Index) (flags : U64) : Option Frame × Vm :=
  let entry := s.mem pd pdi
  if has entry VM_FLAG_PRESENT then
    let s := relax_table_entry_for_flags s pd pdi flags
    (some (entry_to_table (s.mem pd pdi)), s)
  else
    let r := allocate_table s
    if r.1 = 0 then (none, r.2) else (some r.1, r.2.write pd pdi (table_entry r.1 flags))

def leaf_entry (phys flags : U64) : Entry :=
  (phys &&& ADDRESS_MASK) ||| flags ||| VM_FLAG_PRESENT

/-- The end of both map functions: the last table, and the entry in it. -/
def map_leaf (s : Vm) (pd virt phys flags : U64) : Bool × Vm :=
  match leaf_table s pd (pd_index virt) flags with
  | (none, s) => (false, s)
  | (some pt, s) => (true, s.write pt (pt_index virt) (leaf_entry phys flags))

def arch_vm_map_page (s : Vm) (virt phys flags : U64) : Bool × Vm :=
  let pdpt := get_or_create_next s s.pml4_phys (pml4_index virt) flags
  if pdpt.1 = 0 then (false, pdpt.2)
  else
    let pd := get_or_create_next pdpt.2 pdpt.1 (pdpt_index virt) flags
    if pd.1 = 0 then (false, pd.2)
    else
      let entry := pd.2.mem pd.1 (pd_index virt)
      let r :=
        if has entry VM_FLAG_PRESENT ∧ has entry VM_FLAG_HUGE then
          split_huge_page pd.2 pd.1 (pd_index virt)
        else (true, pd.2)
      if ¬ r.1 then (false, r.2) else map_leaf r.2 pd.1 virt phys flags

def arch_vm_map_page_in_root (s : Vm) (root_phys virt phys flags : U64) : Bool × Vm :=
  let root := root_table s root_phys
  if root = s.pml4_phys then arch_vm_map_page s virt phys flags
  else
    let pml4i := pml4_index virt
    let pdpti := pdpt_index virt
    let pdi := pd_index virt
    let r := ensure_private_child s root s.pml4_phys pml4i
    if ¬ r.1 then (false, r.2)
    else
      let pdpt := get_or_create_next r.2 root pml4i flags
      if pdpt.1 = 0 then (false, pdpt.2)
      else
        let kernel_pdpt := kernel_child pdpt.2 s.pml4_phys pml4i
        let r := ensure_private_child pdpt.2 pdpt.1 kernel_pdpt pdpti
        if ¬ r.1 then (false, r.2)
        else
          let pd := get_or_create_next r.2 pdpt.1 pdpti flags
          if pd.1 = 0 then (false, pd.2)
          else
            let kernel_pd := kernel_child pd.2 kernel_pdpt pdpti
            let entry := pd.2.mem pd.1 pdi
            let r :=
              if has entry VM_FLAG_PRESENT then
                if has entry VM_FLAG_HUGE then split_huge_page pd.2 pd.1 pdi
                else ensure_private_child pd.2 pd.1 kernel_pd pdi
              else (true, pd.2)
            if ¬ r.1 then (false, r.2) else map_leaf r.2 pd.1 virt phys flags

/-- The walk of `arch_vm_unmap_page` and `arch_vm_unmap_page_in_root`, which are
the same below the root. -/
def unmap_from (s : Vm) (root virt : U64) : Bool × Vm :=
  let pml4e := s.mem root (pml4_index virt)
  if ¬ has pml4e VM_FLAG_PRESENT then (false, s)
  else
    let pdpte := s.mem (entry_to_table pml4e) (pdpt_index virt)
    if ¬ has pdpte VM_FLAG_PRESENT ∨ has pdpte VM_FLAG_HUGE then (false, s)
    else
      let pde := s.mem (entry_to_table pdpte) (pd_index virt)
      if ¬ has pde VM_FLAG_PRESENT ∨ has pde VM_FLAG_HUGE then (false, s)
      else
        let pte := s.mem (entry_to_table pde) (pt_index virt)
        if ¬ has pte VM_FLAG_PRESENT then (false, s)
        else (true, s.write (entry_to_table pde) (pt_index virt) 0)

def arch_vm_unmap_page (s : Vm) (virt : U64) : Bool × Vm := unmap_from s s.pml4_phys virt

def arch_vm_unmap_page_in_root (s : Vm) (root_phys virt : U64) : Bool × Vm :=
  let root := root_table s root_phys
  if root = s.pml4_phys then arch_vm_unmap_page s virt else unmap_from s root virt

/-- The walk of `arch_vm_get_phys` and `arch_vm_get_phys_in_root`. -/
def phys_from (s : Vm) (root virt : U64) : U64 :=
  let pml4e := s.mem root (pml4_index virt)
  if ¬ has pml4e VM_FLAG_PRESENT then 0
  else
    let pdpte := s.mem (entry_to_table pml4e) (pdpt_index virt)
    if ¬ has pdpte VM_FLAG_PRESENT then 0
    else if has pdpte VM_FLAG_HUGE then (pdpte &&& HUGE_1G_MASK) ||| (virt &&& 0x3FFFFFFF)
    else
      let pde := s.mem (entry_to_table pdpte) (pd_index virt)
      if ¬ has pde VM_FLAG_PRESENT then 0
      else if has pde VM_FLAG_HUGE then (pde &&& HUGE_2M_MASK) ||| (virt &&& 0x1FFFFF)
      else
        let pte := s.mem (entry_to_table pde) (pt_index virt)
        if ¬ has pte VM_FLAG_PRESENT then 0 else (pte &&& ADDRESS_MASK) ||| (virt &&& 0xFFF)

def arch_vm_get_phys (s : Vm) (virt : U64) : U64 := phys_from s s.pml4_phys virt

def arch_vm_get_phys_in_root (s : Vm) (root_phys virt : U64) : U64 :=
  let root := root_table s root_phys
  if root = s.pml4_phys then arch_vm_get_phys s virt else phys_from s root virt

/-- The walk of `arch_vm_get_flags` and `arch_vm_get_flags_in_root`. -/
def flags_from (s : Vm) (root virt : U64) : U64 :=
  let pml4e := s.mem root (pml4_index virt)
  if ¬ has pml4e VM_FLAG_PRESENT then 0
  else
    let access := (VM_FLAG_USER ||| VM_FLAG_WRITABLE) &&& pml4e
    let pdpte := s.mem (entry_to_table pml4e) (pdpt_index virt)
    if ¬ has pdpte VM_FLAG_PRESENT then 0
    else
      let access := access &&& pdpte
      if has pdpte VM_FLAG_HUGE then
        VM_FLAG_PRESENT ||| access ||| (pdpte &&& VM_FLAG_NO_EXECUTE)
      else
        let pde := s.mem (entry_to_table pdpte) (pd_index virt)
        if ¬ has pde VM_FLAG_PRESENT then 0
        else
          let access := access &&& pde
          if has pde VM_FLAG_HUGE then
            VM_FLAG_PRESENT ||| access ||| (pde &&& VM_FLAG_NO_EXECUTE)
          else
            let pte := s.mem (entry_to_table pde) (pt_index virt)
            if ¬ has pte VM_FLAG_PRESENT then 0
            else VM_FLAG_PRESENT ||| (access &&& pte) ||| (pte &&& VM_FLAG_NO_EXECUTE)

def arch_vm_get_flags (s : Vm) (virt : U64) : U64 := flags_from s s.pml4_phys virt

def arch_vm_get_flags_in_root (s : Vm) (root_phys virt : U64) : U64 :=
  let root := root_table s root_phys
  if root = s.pml4_phys then arch_vm_get_flags s virt else flags_from s root virt

def arch_vm_create_root (s : Vm) : Frame × Vm := clone_table s s.pml4_phys

/-- The tables that the boot loader leaves (`build_identity_tables`): six frames
in a row, with the first 4 GiB mapped to themselves by 2 MiB entries. The entries
for the framebuffer are among these. -/
def build_identity_tables (mem : Frame → Index → Entry) (table_phys : Frame) :
    Frame → Index → Entry := fun frame index =>
  if frame = table_phys then
    if index = 0 then (table_phys + 0x1000) ||| 0x03 else 0
  else if frame = table_phys + 0x1000 then
    if index = 0 then (table_phys + 0x2000) ||| 0x03
    else if index = 1 then (table_phys + 0x3000) ||| 0x03
    else if index = 2 then (table_phys + 0x4000) ||| 0x03
    else if index = 3 then (table_phys + 0x5000) ||| 0x03
    else 0
  else if frame = table_phys + 0x2000 then (index.setWidth 64 <<< 21) ||| 0x83
  else if frame = table_phys + 0x3000 then ((512 + index.setWidth 64) <<< 21) ||| 0x83
  else if frame = table_phys + 0x4000 then ((1024 + index.setWidth 64) <<< 21) ||| 0x83
  else if frame = table_phys + 0x5000 then ((1536 + index.setWidth 64) <<< 21) ||| 0x83
  else mem frame index

end mini_kernel.paging
