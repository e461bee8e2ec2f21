-- Changing a FAT32 volume (drivers/fs/fat32/src/fat32_cluster.cpp, fat32_lfn.cpp and
-- `write_file_path` of fat32_api.cpp): a file is written to new clusters, then its
-- directory slot is changed, then its old clusters are freed.
import MiniKernel.Lib.Disk
import MiniKernel.Fat32.Volume

open mini_kernel.lib mini_kernel.vfs List

namespace mini_kernel.fat32

namespace FAT32Driver
variable (drv : FAT32Driver)

def write_sector_relative (lba : Nat) (sector : Sector) : Prog Sector Bool :=
  match drv.place lba with
  | none => pure false
  | some i => do
    Prog.write i sector
    pure true

/-- A read in the middle of a program. -/
def look {α : Type} (f : Disk → α) : Prog Sector α := Prog.ask fun d => some (f d)

/-! ## The table -/

/-- The entry keeps its upper four bits. -/
def with_entry (sector : Sector) (i value : Nat) : Sector :=
  store sector i (leBytes (u32_at sector i / 2 ^ 28 * 2 ^ 28 + value % 2 ^ 28) 4)

/-- The loop over the copies of the table. -/
def write_fat_copies (cluster value : Nat) : List Nat → Prog Sector Bool
  | [] => pure true
  | fat_copy :: rest => do
    let fat_lba := u32 (drv.fat_start_lba + u32 (fat_copy * drv.bpb.sectors_per_fat_32) +
      (drv.fat_place cluster).1)
    let read ← look fun d => drv.read_sector_relative d fat_lba
    match read with
    | none => pure false
    | some sector =>
      let written ← drv.write_sector_relative fat_lba
        (with_entry sector (drv.fat_place cluster).2 value)
      if written then write_fat_copies cluster value rest else pure false

def write_fat_entry (cluster value : Nat) : Prog Sector Bool :=
  drv.write_fat_copies cluster value (range drv.bpb.fat_count)

def write_cluster_sector (cluster sector_offset : Nat) (sector : Sector) : Prog Sector Bool :=
  if sector_offset ≥ drv.bpb.sectors_per_cluster then pure false
  else drv.write_sector_relative (u32 (drv.cluster_to_lba cluster + sector_offset)) sector

def alloc_free_cluster : Prog Sector (Option Nat) :=
  if ¬ drv.initialized then pure none
  else do
    let free ← look fun d =>
      (range' 2 (drv.limit - 2)).find? fun cluster => drv.read_fat_entry d cluster = 0
    match free with
    | none => pure none
    | some cluster =>
      let written ← drv.write_fat_entry cluster 0x0FFFFFFF
      if written then pure (some cluster) else pure none

/-- The loop of `free_cluster_chain`; `left` turns are left. -/
def free_chain_loop : Nat → Nat → Prog Sector Bool
  | 0, _ => pure true
  | left + 1, cluster =>
    if cluster ≥ 2 then do
      let next ← look fun d => drv.read_fat_entry d cluster
      let written ← drv.write_fat_entry cluster 0
      if ¬ written then pure false
      else if next = cluster ∨ next < 2 ∨ is_end_of_chain next then pure true
      else free_chain_loop left next
    else pure true

def free_cluster_chain (start_cluster : Nat) : Prog Sector Bool :=
  if ¬ drv.initialized then pure false
  else if start_cluster < 2 then pure true
  else drv.free_chain_loop 4096 start_cluster

/-- The loop over the sectors of a cluster; it returns what is left to write. -/
def write_sectors (cluster : Nat) : List Nat → Bytes → Prog Sector (Option Bytes)
  | [], buffer => pure (some buffer)
  | sector_offset :: rest, buffer => do
    let chunk := buffer.take drv.bpb.bytes_per_sector
    let written ← drv.write_cluster_sector cluster sector_offset (store (fun _ => 0) 0 chunk)
    if written then
      let buffer := buffer.drop drv.bpb.bytes_per_sector
      if buffer = [] then pure (some []) else write_sectors cluster rest buffer
    else pure none

/-- A chain that is given up. -/
def give_up (first_cluster : Nat) : Prog Sector (Option Nat) :=
  if first_cluster ≥ 2 then do
    let _ ← drv.free_cluster_chain first_cluster
    pure none
  else pure none

/-- A cluster is linked behind the one before it, if there is one. -/
def link_cluster (previous_cluster cluster : Nat) : Prog Sector Bool :=
  if previous_cluster ≥ 2 then drv.write_fat_entry previous_cluster cluster else pure true

/-- The loop of `write_cluster_chain`: a new cluster for each part of the buffer. -/
def write_chain_loop : Nat → Bytes → Nat → Nat → Prog Sector (Option Nat)
  | 0, _, _, _ => Prog.diverge
  | turns + 1, buffer, first_cluster, previous_cluster =>
    if buffer = [] then pure (some first_cluster)
    else do
      let allocated ← drv.alloc_free_cluster
      match allocated with
      | none => drv.give_up first_cluster
      | some cluster =>
        let first_cluster := if first_cluster = 0 then cluster else first_cluster
        let linked ← drv.link_cluster previous_cluster cluster
        if ¬ linked then drv.give_up first_cluster
        else
          let left ← drv.write_sectors cluster (range drv.bpb.sectors_per_cluster) buffer
          match left with
          | none => drv.give_up first_cluster
          | some buffer => write_chain_loop turns buffer first_cluster cluster

def write_cluster_chain (turns : Nat) (buffer : Bytes) : Prog Sector (Option Nat) :=
  if ¬ drv.initialized then pure none
  else drv.write_chain_loop turns buffer 0 0

/-! ## Directory slots -/

/-- The slots of a sector from one on are written over. -/
def put_slots (sector : Sector) (entry_index : Nat) (bytes : Bytes) : Sector :=
  store sector (32 * entry_index) bytes

/-- The slots at a place are read, changed and written back. -/
def change_slots (target : Location) (bytes : Bytes) : Prog Sector Bool := do
  let read ← look fun d => drv.read_cluster_sector d target.dir_cluster target.sector_offset
  match read with
  | none => pure false
  | some sector =>
    drv.write_cluster_sector target.dir_cluster target.sector_offset
      (put_slots sector target.entry_index bytes)

def update_dir_entry (target : Location) (entry : Bytes) : Prog Sector Bool :=
  if target.entry_index ≥ drv.entry_count then pure false
  else drv.change_slots target entry

/-- Free slots behind the end mark are marked as free. -/
def normalize (sector : Sector) : Sector := fun j =>
  if j % 32 = 0 ∧ j / 32 < drv.entry_count ∧ sector j = 0x00 then 0xE5 else sector j

def has_end_mark (sector : Sector) : Bool :=
  (range drv.entry_count).any fun i => sector (32 * i) = 0x00

/-- The first run of free slots in a sector. -/
def free_run (sector : Sector) (slot_count : Nat) : Option Nat :=
  (range (drv.entry_count + 1 - slot_count)).find? fun i =>
    (range slot_count).all fun j => sector (32 * (i + j)) = 0x00 ∨ sector (32 * (i + j)) = 0xE5

/-- A sector with an end mark is written back without it. -/
def normalize_sector (cluster sector_offset : Nat) (sector : Sector) : Prog Sector Bool :=
  if drv.has_end_mark sector then
    drv.write_cluster_sector cluster sector_offset (drv.normalize sector)
  else pure true

/-- The loop over the sectors of a directory cluster, for `slot_count` free slots. -/
def free_slots_in (slot_count cluster : Nat) :
    List Nat → Prog Sector (Option (VfsResult Location))
  | [] => pure none
  | sector_offset :: rest => do
    let read ← look fun d => drv.read_cluster_sector d cluster sector_offset
    match read with
    | none => pure (some (.error .io))
    | some sector =>
      let written ← drv.normalize_sector cluster sector_offset sector
      if ¬ written then pure (some (.error .io))
      else
        match drv.free_run (drv.normalize sector) slot_count with
        | some i => pure (some (.ok ⟨cluster, sector_offset, i⟩))
        | none => free_slots_in slot_count cluster rest

/-- A new cluster of a directory is cleared. -/
def clear_sectors (cluster : Nat) : List Nat → Prog Sector Bool
  | [] => pure true
  | sector_offset :: rest => do
    let written ← drv.write_cluster_sector cluster sector_offset fun _ => 0
    if written then clear_sectors cluster rest else pure false

/-- The new cluster is cleared, then linked behind the last one. -/
def clear_and_link (last_cluster new_cluster : Nat) : Prog Sector Bool := do
  let cleared ← drv.clear_sectors new_cluster (range drv.bpb.sectors_per_cluster)
  if cleared then drv.write_fat_entry last_cluster new_cluster else pure false

/-- A cluster is added behind the last one of a directory. -/
def grow_directory (last_cluster : Nat) : Prog Sector (VfsResult Location) :=
  if last_cluster < 2 then pure (.error .io)
  else do
    let allocated ← drv.alloc_free_cluster
    match allocated with
    | none => pure (.error .io)
    | some new_cluster =>
      let linked ← drv.clear_and_link last_cluster new_cluster
      if linked then pure (.ok ⟨new_cluster, 0, 0⟩)
      else do
        let _ ← drv.free_cluster_chain new_cluster
        pure (.error .io)

/-- The loop along the clusters of the directory. -/
def free_slots_loop (slot_count : Nat) : Nat → Nat → Nat → Prog Sector (VfsResult Location)
  | 0, _, _ => Prog.diverge
  | turns + 1, cluster, last_cluster =>
    if cluster ≥ 2 ∧ ¬ is_end_of_chain cluster then do
      let found ← drv.free_slots_in slot_count cluster (range drv.bpb.sectors_per_cluster)
      match found with
      | some result => pure result
      | none =>
        let next ← look fun d => drv.read_fat_entry d cluster
        if next = cluster then pure (.error .io) else free_slots_loop slot_count turns next cluster
    else drv.grow_directory last_cluster

def find_free_dir_slots (turns dir_cluster slot_count : Nat) : Prog Sector (VfsResult Location) :=
  if ¬ drv.initialized then pure (.error .not_ready)
  else if slot_count = 0 ∨ slot_count > drv.entry_count then pure (.error .invalid_path)
  else drv.free_slots_loop slot_count turns dir_cluster 0

/-! ## Writing a file -/

/-- The loop over the serial numbers: the first alias that the directory does not have. -/
def free_alias (turns : Nat) (d : Disk) (dir_cluster : Nat) (leaf : Bytes) :
    List Nat → Option (Option Bytes)
  | [] => some none
  | serial :: rest =>
    let leaf83 := fat32_build_short_alias_name leaf serial
    match drv.find_short_name_in_directory turns d dir_cluster leaf83 with
    | none => none
    | some (.error .not_found) => some (some leaf83)
    | some _ => free_alias turns d dir_cluster leaf rest

/-- Where the slot of a file is written, its short name, and the first cluster that the file had. -/
structure Target where
  location : Location
  leaf83 : Bytes
  old_cluster : Nat
  found : Bool

/-- The short name of a new file: its own, or an alias of its long name. -/
def short_name_for (turns parent_cluster : Nat) (leaf83 leaf : Bytes) (d : Disk) :
    Option (Option Bytes) :=
  if fat32_is_simple_83_name leaf then some (some leaf83)
  else drv.free_alias turns d parent_cluster leaf (range' 1 99)

/-- The slot of a new file. -/
def new_target (turns parent_cluster : Nat) (leaf83 leaf : Bytes) :
    Prog Sector (VfsResult Target) := do
  let short_name ← Prog.ask (drv.short_name_for turns parent_cluster leaf83 leaf)
  match short_name with
  | none => pure (.error .io)
  | some leaf83 =>
    let slots ← drv.find_free_dir_slots turns parent_cluster
      (if fat32_is_simple_83_name leaf then 1 else fat32_lfn_slot_count leaf + 1)
    match slots with
    | .error e => pure (.error e)
    | .ok location => pure (.ok ⟨location, leaf83, 0, false⟩)

/-- The slot of the file, the one it has or a new one. -/
def find_target (frames : Frames) (turns : Nat) (path : Bytes) :
    Prog Sector (VfsResult Target) := do
  let parent ← Prog.ask fun d => drv.resolve_parent_path frames turns d path
  match parent with
  | .error e => pure (.error e)
  | .ok (parent_cluster, leaf83) =>
    let leaf := fat32_leaf_name_from_path path
    let existing ← Prog.ask fun d =>
      drv.find_in_directory_with_location frames.last turns d parent_cluster leaf
    match existing with
    | .ok (location, entry) =>
      if entry.is_dir then pure (.error .invalid_path)
      else pure (.ok ⟨location, entry.name, dir_entry_cluster entry, true⟩)
    | .error .not_found => drv.new_target turns parent_cluster leaf83 leaf
    | .error e => pure (.error e)

/-- The slots of a file: the short entry, behind the slots of its long name if it is new
and has one. -/
def file_slots (leaf : Bytes) (target : Target) (first_cluster size : Nat) : Bytes :=
  let entry := new_entry target.leaf83 0x20 first_cluster size
  if fat32_is_simple_83_name leaf ∨ target.found then entry
  else (lfn_entries leaf (fat32_short_name_checksum target.leaf83)).flatMap FAT32DirEntry.bytes ++ entry

/-- The slots are written, unless a long name has too many of them. -/
def write_slots (leaf : Bytes) (target : Target) (first_cluster size : Nat) : Prog Sector Bool :=
  if fat32_is_simple_83_name leaf ∨ target.found then
    drv.update_dir_entry target.location (file_slots leaf target first_cluster size)
  else if fat32_lfn_slot_count leaf + 1 > 8 then pure false
  else drv.change_slots target.location (file_slots leaf target first_cluster size)

/-- The second part of `write_file_path`, from the new clusters on. -/
def write_target (turns : Nat) (leaf buffer : Bytes) (target : Target) :
    Prog Sector (VfsResult Unit) := do
  let chain ← drv.write_cluster_chain turns buffer
  match chain with
  | none => pure (.error .io)
  | some first_cluster =>
    let written ← drv.write_slots leaf target first_cluster buffer.length
    if ¬ written then do
      let _ ← drv.give_up first_cluster
      pure (.error .io)
    else if target.old_cluster ≥ 2 then do
      let freed ← drv.free_cluster_chain target.old_cluster
      pure (if freed then .ok () else .error .io)
    else pure (.ok ())

def write_file_path (frames : Frames) (turns : Nat) (path buffer : Bytes) :
    Prog Sector (VfsResult Unit) := do
  let target ← drv.find_target frames turns path
  match target with
  | .error e => pure (.error e)
  | .ok target => drv.write_target turns (fat32_leaf_name_from_path path) buffer target

end FAT32Driver

end mini_kernel.fat32
