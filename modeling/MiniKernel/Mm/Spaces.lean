-- Address spaces and the frames they take from the allocator: mapping a range with
-- new frames, unmapping it in chunks, and the shootdown that stands between the two
-- (kernel/mm/address_space.cpp). What the page tables do is a map from pages to
-- frames; which frame the allocator finds, whether there is memory for a table and
-- what the other CPUs acknowledge is up to the surroundings.
import MiniKernel.Lib.Machine
import MiniKernel.Lib.Word
import MiniKernel.Mm.Paging

open mini_kernel.lib mini_kernel.vm mini_kernel.pmm Function

namespace mini_kernel.space

def ADDRESS_SPACE_MAX_REGIONS : Nat := 32
def ADDRESS_SPACE_TLB_PAGE_LIMIT : Nat := 32
def ADDRESS_SPACE_QUARANTINE_LIMIT : Nat := 64
def ADDRESS_SPACE_REGION_READ : Nat := 1
def ADDRESS_SPACE_REGION_WRITE : Nat := 2
def ADDRESS_SPACE_REGION_EXECUTE : Nat := 4

/-- The pages that the tables tell apart: bits 12 to 47 of an address. -/
def PAGES : Nat := 2 ^ 36

abbrev Page := Fin PAGES

def page_of (address : Nat) : Page := ⟨address / VM_PAGE_SIZE % PAGES, Nat.mod_lt _ (by decide)⟩

def align_down_page (value : Nat) : Nat := align_down value VM_PAGE_SIZE
def align_up_page (value : Nat) : Nat := align_up value VM_PAGE_SIZE

structure AddressSpaceRegion where
  active : Bool
  rights : Nat
  start : Nat
  finish : Nat
deriving DecidableEq

abbrev RegionIndex := Fin ADDRESS_SPACE_MAX_REGIONS

abbrev Regions := RegionIndex → AddressSpaceRegion

/-- A space. `rooted` says that it has a root, and `table` what the root maps: the
frame of a page, or 0. -/
structure AddressSpace where
  rooted : Bool
  table : Page → Nat
  regions : Regions
  region_count : Nat
  tlb_generation : Nat
  operation_token : Nat
  cached_cpu_mask : U32
  shootdown_count : Nat
  shootdown_timeout_count : Nat
  quarantined_page_count : Nat
  retired_page_count : Nat

def address_space_init : AddressSpace where
  rooted := false
  table := fun _ => 0
  regions := fun _ => ⟨false, 0, 0, 0⟩
  region_count := 0
  tlb_generation := 1
  operation_token := 0
  cached_cpu_mask := 0
  shootdown_count := 0
  shootdown_timeout_count := 0
  quarantined_page_count := 0
  retired_page_count := 0

/-! ## Shootdowns -/

structure AddressSpaceInvalidation where
  generation : Nat
  token : Nat
  address : Nat
  page_count : Nat
  target_mask : U32
  full_flush : Bool
deriving DecidableEq

/-- What `smp_tlb_shootdown` comes back with. -/
structure Shootdown where
  completed : Bool
  acknowledged : U32
deriving DecidableEq

/-- A counter that leaves out zero when it wraps. -/
def bump (counter : Nat) : Nat := if u64 (counter + 1) = 0 then 1 else u64 (counter + 1)

/-- The gate is closed for good after a shootdown that failed. -/
def AddressSpace.mutation_gate_enter (space : AddressSpace) : Bool := space.shootdown_timeout_count == 0

def begin_invalidation_unlocked (space : AddressSpace) (address page_count : Nat) (full_flush : Bool) :
    AddressSpaceInvalidation × AddressSpace :=
  let space :=
    { space with
      tlb_generation := bump space.tlb_generation
      operation_token := bump space.operation_token }
  ({ generation := space.tlb_generation
     token := space.operation_token
     address := align_down_page address
     page_count := page_count
     target_mask := space.cached_cpu_mask
     full_flush := full_flush || page_count == 0 || decide (ADDRESS_SPACE_TLB_PAGE_LIMIT < page_count) },
    space)

/-- The answers to the shootdowns of a call, in their order. -/
abbrev Answers := Nat → Shootdown

/-- The answer to an invalidation; one without targets needs no shootdown. -/
def answer_to (invalidation : AddressSpaceInvalidation) (answers : Answers) : Shootdown :=
  if invalidation.target_mask = 0 then ⟨true, 0⟩ else answers 0

def answers_after (invalidation : AddressSpaceInvalidation) (answers : Answers) : Answers :=
  if invalidation.target_mask = 0 then answers else fun k => answers (k + 1)

def complete_invalidation (space : AddressSpace) (invalidation : AddressSpaceInvalidation)
    (answer : Shootdown) : Bool × AddressSpace :=
  let token_valid := space.operation_token = invalidation.token ∧
    space.tlb_generation = invalidation.generation
  if answer.completed ∧ token_valid ∧
      answer.acknowledged &&& invalidation.target_mask = invalidation.target_mask then
    (true, { space with shootdown_count := space.shootdown_count + 1 })
  else (false, { space with shootdown_timeout_count := space.shootdown_timeout_count + 1 })

/-! ## Regions -/

def flags_to_rights (flags : U64) : Nat :=
  let rights := ADDRESS_SPACE_REGION_READ
  let rights := if flags &&& VM_FLAG_WRITABLE ≠ 0 then rights ||| ADDRESS_SPACE_REGION_WRITE else rights
  if flags &&& VM_FLAG_NO_EXECUTE = 0 then rights ||| ADDRESS_SPACE_REGION_EXECUTE else rights

def free_region (regions : Regions) : Option RegionIndex :=
  (List.finRange ADDRESS_SPACE_MAX_REGIONS).find? fun i => !(regions i).active

/-- A region that the range goes on from, or goes up to. -/
def joins (regions : Regions) (start finish rights : Nat) (i : RegionIndex) : Bool :=
  let region := regions i
  region.active && (region.finish == start || region.start == finish) && region.rights == rights

def add_region (space : AddressSpace) (start finish rights : Nat) : Bool × AddressSpace :=
  match (List.finRange ADDRESS_SPACE_MAX_REGIONS).find? (joins space.regions start finish rights) with
  | some i =>
    let region := space.regions i
    let region :=
      if region.finish = start then { region with finish := finish } else { region with start := start }
    (true, { space with regions := update space.regions i region })
  | none =>
    match free_region space.regions with
    | some i =>
      (true, { space with
        regions := update space.regions i ⟨true, rights, start, finish⟩
        region_count := space.region_count + 1 })
    | none => (false, space)

def address_space_add_region (space : AddressSpace) (start size rights : Nat) : Bool × AddressSpace :=
  if size = 0 then (true, space)
  else
    let first := align_down_page start
    let finish := align_up_page (u64 (start + size))
    if finish ≤ first then (false, space)
    else if !space.mutation_gate_enter then (false, space)
    else add_region space first finish rights

/-- The loop that takes a range out of the regions. A range inside a region cuts it
in two; without a free entry the upper part is dropped. -/
def remove_loop (start finish : Nat) : List RegionIndex → Regions × Nat → Regions × Nat
  | [], r => r
  | i :: rest, (regions, count) =>
    let region := regions i
    if !region.active ∨ region.finish ≤ start ∨ finish ≤ region.start then
      remove_loop start finish rest (regions, count)
    else if start ≤ region.start ∧ region.finish ≤ finish then
      remove_loop start finish rest (update regions i ⟨false, 0, 0, 0⟩, count - 1)
    else if start ≤ region.start then
      remove_loop start finish rest (update regions i { region with start := finish }, count)
    else if region.finish ≤ finish then
      remove_loop start finish rest (update regions i { region with finish := start }, count)
    else
      match free_region regions with
      | some j =>
        (update (update regions j ⟨true, region.rights, finish, region.finish⟩) i
          { region with finish := start }, count + 1)
      | none => (update regions i { region with finish := start }, count)

def address_space_remove_region (space : AddressSpace) (start size : Nat) : AddressSpace :=
  if size = 0 then space
  else if !space.mutation_gate_enter then space
  else
    let r := remove_loop (align_down_page start) (align_up_page (u64 (start + size)))
      (List.finRange ADDRESS_SPACE_MAX_REGIONS) (space.regions, space.region_count)
    { space with regions := r.1, region_count := r.2 }

/-! ## Frames -/

/-- A frame that `address_space_unmap_free_range` gave to `pmm_free_block`: where it
was mapped, the shootdown before it, and the CPUs that may have known it then. -/
structure Passed (n : Nat) where
  owner : Fin n
  address : Nat
  frame : Nat
  invalidation : AddressSpaceInvalidation
  acknowledged : U32
  cached_cpu_mask : U32
deriving DecidableEq

/-- What happened to frames: one was obtained by `address_space_alloc_map_range`, given
back by it at once because it could not be mapped, or passed on after unmapping. -/
inductive Event (n : Nat)
  | obtained (frame : Nat)
  | unused (frame : Nat)
  | passed (record : Passed n)
deriving DecidableEq

/-- Spaces over one allocator. `history` is what happened to frames, the last event
first, and `quarantine` the frames that a space counts in `quarantined_page_count`. -/
structure System (n : Nat) where
  spaces : Fin n → AddressSpace
  pool : Nat → Bool
  history : List (Event n)
  quarantine : List (Fin n × Nat)

section
variable {n : Nat}

def System.put (s : System n) (i : Fin n) (space : AddressSpace) : System n :=
  { s with spaces := update s.spaces i space }

/-- One block from the allocator, the one that it happens to find. -/
def pmm_alloc_block (s : System n) (found : Nat) : Nat × System n :=
  if found ≠ 0 ∧ found % PMM_PAGE_SIZE = 0 ∧ found < PMM_MAX_RAM_SIZE ∧ s.pool found then
    (found, { s with pool := update s.pool found false, history := .obtained found :: s.history })
  else (0, s)

/-- What the surroundings decide when a page is mapped: the block found, whether the
tables can be built, and the blocks that become tables. -/
structure Offer where
  found : Nat
  maps : Bool
  tables : List Nat
deriving DecidableEq

def System.take_tables (s : System n) (tables : List Nat) : System n :=
  { s with pool := fun frame => s.pool frame && !tables.contains frame }

/-- The frame that a page with this entry is mapped to. Address bits of the flags are part of
the entry too. -/
def frame_of (phys : Nat) (flags : U64) : Nat :=
  (paging.entry_to_phys (paging.leaf_entry (BitVec.ofNat 64 phys) flags)).toNat

def vm_map_page_in_root (s : System n) (i : Fin n) (address phys : Nat) (flags : U64) (offer : Offer) :
    Bool × System n :=
  let s := s.take_tables offer.tables
  if offer.maps then
    let space := s.spaces i
    (true, s.put i { space with table := update space.table (page_of address) (frame_of phys flags) })
  else (false, s)

/-- The loop that maps new frames, with the pages that are left. -/
def map_pages (i : Fin n) (flags : U64) :
    (pages address : Nat) → List Offer → System n → Nat × System n
  | 0, _, _, s => (0, s)
  | pages + 1, address, offers, s =>
    let offer := offers.headD ⟨0, false, []⟩
    let phys := pmm_alloc_block s offer.found
    if phys.1 = 0 then (0, phys.2)
    else
      let mapped := vm_map_page_in_root phys.2 i address phys.1 flags offer
      if !mapped.1 then
        (0, { mapped.2 with
          pool := update mapped.2.pool phys.1 true
          history := .unused phys.1 :: mapped.2.history })
      else
        let rest := map_pages i flags pages (address + VM_PAGE_SIZE) offers.tail mapped.2
        (rest.1 + 1, rest.2)

/-- The loop that unmaps, with the pages that are left; the frames in their order. -/
def unmap_pages (i : Fin n) : (pages address : Nat) → System n → List Nat × System n
  | 0, _, s => ([], s)
  | pages + 1, address, s =>
    let space := s.spaces i
    let phys := space.table (page_of address)
    if phys = 0 then ([], s)
    else
      let s := s.put i { space with table := update space.table (page_of address) 0 }
      let rest := unmap_pages i pages (u64 (address + VM_PAGE_SIZE)) s
      (phys :: rest.1, rest.2)

/-- The loop that gives the frames of a chunk to `pmm_free_block`. -/
def pass_frames (i : Fin n) (invalidation : AddressSpaceInvalidation) (acknowledged : U32) :
    (address : Nat) → List Nat → System n → System n
  | _, [], s => s
  | address, frame :: rest, s =>
    let record : Passed n :=
      ⟨i, address, frame, invalidation, acknowledged, (s.spaces i).cached_cpu_mask⟩
    let s := { s with pool := update s.pool frame true, history := .passed record :: s.history }
    pass_frames i invalidation acknowledged (u64 (address + VM_PAGE_SIZE)) rest s

/-- The frames of a chunk are counted, and a shootdown for them begins. -/
def quarantine_chunk (s : System n) (i : Fin n) (chunk_begin : Nat) (physical : List Nat) :
    AddressSpaceInvalidation × System n :=
  let space := s.spaces i
  let space := { space with quarantined_page_count := space.quarantined_page_count + physical.length }
  let r := begin_invalidation_unlocked space chunk_begin physical.length
    (decide (ADDRESS_SPACE_TLB_PAGE_LIMIT < physical.length))
  (r.1, { (s.put i r.2) with quarantine := physical.map (Prod.mk i) ++ s.quarantine })

/-- The frames of a chunk go back to the allocator. -/
def retire_chunk (s : System n) (i : Fin n) (chunk_begin : Nat) (physical : List Nat)
    (invalidation : AddressSpaceInvalidation) (acknowledged : U32) : System n :=
  let s := pass_frames i invalidation acknowledged chunk_begin physical s
  let space := s.spaces i
  let space :=
    { space with
      quarantined_page_count := space.quarantined_page_count - physical.length
      retired_page_count := space.retired_page_count + physical.length }
  { (s.put i space) with quarantine := s.quarantine.drop physical.length }

/-- What one turn of the loop over the chunks comes to. -/
structure Turn (n : Nat) where
  unmapped : Nat
  again : Bool
  system : System n
  answers : Answers

def unmap_chunk (s : System n) (i : Fin n) (chunk_begin chunk : Nat) (answers : Answers) : Turn n :=
  if !(s.spaces i).mutation_gate_enter then ⟨0, false, s, answers⟩
  else
    let r := unmap_pages i chunk chunk_begin s
    let physical := r.1
    if physical = [] then ⟨0, false, r.2, answers⟩
    else
      let q := quarantine_chunk r.2 i chunk_begin physical
      let answer := answer_to q.1 answers
      let completed := complete_invalidation (q.2.spaces i) q.1 answer
      let s := q.2.put i completed.2
      if !completed.1 then ⟨physical.length, false, s, answers_after q.1 answers⟩
      else
        ⟨physical.length, decide (physical.length = chunk),
          retire_chunk s i chunk_begin physical q.1 answer.acknowledged, answers_after q.1 answers⟩

/-- The loop over the chunks. Every turn but the last unmaps a page, so that as many
turns as there are pages are enough. -/
def unmap_chunks (i : Fin n) (start page_count : Nat) :
    (turns total_unmapped : Nat) → System n → Answers → Nat × System n
  | 0, total_unmapped, s, _ => (total_unmapped, s)
  | turns + 1, total_unmapped, s, answers =>
    if page_count ≤ total_unmapped then (total_unmapped, s)
    else
      let chunk := min (page_count - total_unmapped) ADDRESS_SPACE_QUARANTINE_LIMIT
      let r := unmap_chunk s i (u64 (start + total_unmapped * VM_PAGE_SIZE)) chunk answers
      if r.again then unmap_chunks i start page_count turns (total_unmapped + r.unmapped) r.system r.answers
      else (total_unmapped + r.unmapped, r.system)

def address_space_unmap_free_range (s : System n) (i : Fin n) (virt page_count : Nat)
    (answers : Answers) : Nat × System n :=
  if !(s.spaces i).rooted ∨ page_count = 0 then (0, s)
  else
    let start := align_down_page virt
    let r := unmap_chunks i start page_count page_count 0 s answers
    if r.1 = 0 then r
    else (r.1, r.2.put i (address_space_remove_region (r.2.spaces i) start (r.1 * VM_PAGE_SIZE)))

/-- A root starts with what the kernel's own tables map. `tables` are the blocks that
become its tables, if there are any. -/
def ensure_root_unlocked (kernel : Page → Nat) (s : System n) (i : Fin n) (tables : Option (List Nat)) :
    Bool × System n :=
  let space := s.spaces i
  if space.rooted then (true, s)
  else
    match tables with
    | none => (false, s)
    | some tables => (true, (s.take_tables tables).put i { space with rooted := true, table := kernel })

/-- The shootdown after mapping; without a new page there is none. -/
def announce (s : System n) (i : Fin n) (start mapped : Nat) (answers : Answers) :
    Bool × System n × Answers :=
  if mapped = 0 then (true, s, answers)
  else
    let b := begin_invalidation_unlocked (s.spaces i) start mapped
      (decide (ADDRESS_SPACE_TLB_PAGE_LIMIT < mapped))
    let c := complete_invalidation b.2 b.1 (answer_to b.1 answers)
    (c.1, s.put i c.2, answers_after b.1 answers)

def address_space_alloc_map_range (kernel : Page → Nat) (s : System n) (i : Fin n) (virt size : Nat)
    (flags : U64) (root : Option (List Nat)) (offers : List Offer) (answers : Answers) :
    Bool × System n :=
  if size = 0 then (true, s)
  else if !(s.spaces i).mutation_gate_enter then (false, s)
  else
    let r := ensure_root_unlocked kernel s i root
    if !r.1 then (false, r.2)
    else
      let start := align_down_page virt
      let finish := align_up_page (u64 (virt + size))
      let m := map_pages i flags ((finish - start) / VM_PAGE_SIZE) start offers r.2
      let expected := u32 (u64 (finish + 2 ^ 64 - start) / VM_PAGE_SIZE)
      let a := announce m.2 i start m.1 answers
      if !a.1 then (false, a.2.1)
      else if m.1 ≠ expected then (false, (address_space_unmap_free_range a.2.1 i start m.1 a.2.2).2)
      else
        let added := address_space_add_region (a.2.1.spaces i) virt size (flags_to_rights flags)
        if !added.1 then (false, (address_space_unmap_free_range a.2.1 i start m.1 a.2.2).2)
        else (true, a.2.1.put i added.2)

def address_space_unmap_page (s : System n) (i : Fin n) (virt : Nat) (answers : Answers) :
    Bool × System n :=
  let space := s.spaces i
  if !space.rooted then (false, s)
  else if !space.mutation_gate_enter then (false, s)
  else if space.table (page_of virt) = 0 then (false, s)
  else
    let space := { space with table := update space.table (page_of virt) 0 }
    let b := begin_invalidation_unlocked space virt 1 false
    let c := complete_invalidation b.2 b.1 (answer_to b.1 answers)
    (c.1, s.put i c.2)

/-- A CPU loads the space. -/
def address_space_activate (s : System n) (i : Fin n) (cpu : Fin 32) : System n :=
  let space := s.spaces i
  if space.rooted then
    s.put i { space with cached_cpu_mask := space.cached_cpu_mask ||| (1#32 <<< cpu.val) }
  else s

/-! ## The runs -/

inductive Call (n : Nat)
  | alloc_map_range (i : Fin n) (virt size flags : U64) (root : Option (List Nat))
      (offers : List Offer) (answers : Answers)
  | unmap_free_range (i : Fin n) (virt : U64) (page_count : U32) (answers : Answers)
  | unmap_page (i : Fin n) (virt : U64) (answers : Answers)
  | activate (i : Fin n) (cpu : Fin 32)

def System.call (kernel : Page → Nat) (s : System n) : Call n → Option (System n)
  | .alloc_map_range i virt size flags root offers answers =>
    some (address_space_alloc_map_range kernel s i virt.toNat size.toNat flags root offers answers).2
  | .unmap_free_range i virt page_count answers =>
    some (address_space_unmap_free_range s i virt.toNat page_count.toNat answers).2
  | .unmap_page i virt answers => some (address_space_unmap_page s i virt.toNat answers).2
  | .activate i cpu => some (address_space_activate s i cpu)

/-- New spaces over an allocator with the blocks of `pool`. -/
def start (n : Nat) (pool : Nat → Bool) : System n where
  spaces := fun _ => address_space_init
  pool := pool
  history := []
  quarantine := []

def spaces (n : Nat) (kernel : Page → Nat) : Machine (System n) (Call n) :=
  .ofFun (fun s => ∃ pool, s = start n pool) (System.call kernel)

end

end mini_kernel.space
