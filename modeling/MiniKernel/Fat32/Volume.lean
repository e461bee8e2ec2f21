-- Reading a FAT32 volume (drivers/fs/fat32/src/fat32_common.cpp, fat32_dir.cpp and
-- fat32_api.cpp): sectors, the file allocation table, directories, paths and files.
-- A loop along a chain may go round for ever, so it takes a number of turns.
import MiniKernel.Lib.Scan
import MiniKernel.Fat32.Names
import MiniKernel.Vfs.Open

open mini_kernel.lib mini_kernel.vfs

namespace mini_kernel.fat32

/-! ## The driver -/

/-- The fields of the boot sector that the driver reads. -/
structure FAT32BPB where
  bytes_per_sector : Nat
  sectors_per_cluster : Nat
  reserved_sectors : Nat
  fat_count : Nat
  root_entry_count : Nat
  total_sectors_16 : Nat
  sectors_per_fat_16 : Nat
  total_sectors_32 : Nat
  sectors_per_fat_32 : Nat
  root_cluster : Nat
deriving DecidableEq

/-- What holds the volume: a ramdisk of so many bytes, or an ATA drive of so many sectors. -/
inductive Device
  | ramdisk (ramdisk_size : Nat)
  | ata (sectors : Nat)
deriving DecidableEq

structure FAT32Driver where
  device : Device
  start_lba : Nat
  bpb : FAT32BPB
  initialized : Bool
  fat_start_lba : Nat
  data_start_lba : Nat
  total_sectors : Nat
deriving DecidableEq

/-- The 512 bytes of a sector. -/
abbrev Sector := Memory

/-- The sectors of the device. -/
abbrev Disk := Nat → Sector

namespace FAT32Driver
variable (drv : FAT32Driver)

/-- The place of a sector on the device, if it is on it. -/
def place (lba : Nat) : Option Nat :=
  let sector := u32 (drv.start_lba + lba)
  match drv.device with
  | .ramdisk ramdisk_size =>
    if sector * 512 > ramdisk_size ∨ ramdisk_size - sector * 512 < 512 then none else some sector
  | .ata sectors =>
    -- the registers of the drive take 28 bits; it answers with an error past its end
    if sector % 2 ^ 28 < sectors then some (sector % 2 ^ 28) else none

def read_sector_relative (d : Disk) (lba : Nat) : Option Sector := (drv.place lba).map d

end FAT32Driver

def FAT32BPB.parse (sector : Sector) : FAT32BPB where
  bytes_per_sector := leAt (load sector 0 512) 11 2
  sectors_per_cluster := leAt (load sector 0 512) 13 1
  reserved_sectors := leAt (load sector 0 512) 14 2
  fat_count := leAt (load sector 0 512) 16 1
  root_entry_count := leAt (load sector 0 512) 17 2
  total_sectors_16 := leAt (load sector 0 512) 19 2
  sectors_per_fat_16 := leAt (load sector 0 512) 22 2
  total_sectors_32 := leAt (load sector 0 512) 32 4
  sectors_per_fat_32 := leAt (load sector 0 512) 36 4
  root_cluster := leAt (load sector 0 512) 44 4

/-- The volume is taken if the boot sector passes these checks. -/
def FAT32BPB.accepted (bpb : FAT32BPB) : Bool :=
  bpb.bytes_per_sector = 512 ∧ bpb.sectors_per_cluster ≠ 0 ∧ bpb.root_entry_count = 0 ∧
    bpb.sectors_per_fat_16 = 0 ∧ bpb.sectors_per_fat_32 ≠ 0 ∧ bpb.fat_count ≠ 0 ∧
    2 ≤ bpb.root_cluster

namespace FAT32Driver
variable (drv : FAT32Driver)

def init (d : Disk) : FAT32Driver :=
  let drv := { drv with initialized := false }
  match drv.read_sector_relative d 0 with
  | none => drv
  | some sector =>
    let bpb := FAT32BPB.parse sector
    if bpb.accepted then
      { drv with
        bpb := bpb
        initialized := true
        total_sectors := if bpb.total_sectors_16 ≠ 0 then bpb.total_sectors_16
          else bpb.total_sectors_32
        fat_start_lba := bpb.reserved_sectors
        data_start_lba := u32 (bpb.reserved_sectors + u32 (bpb.fat_count * bpb.sectors_per_fat_32)) }
    else { drv with bpb := bpb }

/-! ## Clusters and the table -/

def cluster_to_lba (cluster : Nat) : Nat :=
  u32 (drv.data_start_lba + u32 (u32 (cluster + 2 ^ 32 - 2) * drv.bpb.sectors_per_cluster))

/-- Where the entry of a cluster is: the sector in a copy of the table, and the byte there. -/
def fat_place (cluster : Nat) : Nat × Nat :=
  (u32 (cluster * 4) / drv.bpb.bytes_per_sector, u32 (cluster * 4) % drv.bpb.bytes_per_sector)

/-- The number at a place of a sector. -/
def u32_at (sector : Sector) (i : Nat) : Nat := leAt (load sector i 4) 0 4

def read_fat_entry (d : Disk) (cluster : Nat) : Nat :=
  match drv.read_sector_relative d (u32 (drv.fat_start_lba + (drv.fat_place cluster).1)) with
  | none => 0x0FFFFFF7
  | some sector => u32_at sector (drv.fat_place cluster).2 % 2 ^ 28

def read_cluster_sector (d : Disk) (cluster sector_offset : Nat) : Option Sector :=
  if sector_offset ≥ drv.bpb.sectors_per_cluster then none
  else drv.read_sector_relative d (u32 (drv.cluster_to_lba cluster + sector_offset))

/-- The clusters are numbered from two up to this. -/
def limit : Nat :=
  u32 (u32 (drv.total_sectors + 2 ^ 32 - drv.data_start_lba) / drv.bpb.sectors_per_cluster + 2)

def is_end_of_chain (value : Nat) : Bool := value ≥ 0x0FFFFFF8

/-! ## Directories -/

/-- What the bytes of each `lfn_name` on the stack hold when its function is called. -/
structure Frames where
  /-- The calls of `read_dir_entry_internal` along a path, by the number of segments behind
  the one that is looked up and by the number of the entry that is read. -/
  search : Nat → Nat → Memory
  /-- The call for the directory that the path leads to. -/
  last : Memory

/-- A slot of a directory. -/
structure Location where
  dir_cluster : Nat
  sector_offset : Nat
  entry_index : Nat
deriving DecidableEq

abbrev Slot := Location × FAT32DirEntry

def entry_count : Nat := drv.bpb.bytes_per_sector / 32

/-- A slot of a directory sector. -/
def slot_at (sector : Sector) (i : Nat) : FAT32DirEntry := ⟨load sector (32 * i) 32, length_load⟩

/-- The slots of a directory sector, with their places. -/
def sector_slots (cluster sector_offset : Nat) (sector : Sector) :
    List Slot :=
  (List.range drv.entry_count).map fun i => (⟨cluster, sector_offset, i⟩, slot_at sector i)

variable {σ α : Type}

/-- The loops over the sectors of a cluster and the slots in them. -/
def scan_cluster (d : Disk) (visit : σ → Slot → σ ⊕ VfsResult α) (s : σ)
    (cluster : Nat) : σ ⊕ VfsResult α :=
  scan (fun s sector_offset =>
      match drv.read_cluster_sector d cluster sector_offset with
      | none => .inr (.error .io)
      | some sector => scan visit s (drv.sector_slots cluster sector_offset sector))
    s (List.range drv.bpb.sectors_per_cluster)

/-- The loop along the clusters of a directory. -/
def scan_directory (d : Disk) (visit : σ → Slot → σ ⊕ VfsResult α) :
    Nat → σ → Nat → Option (σ ⊕ VfsResult α)
  | 0, _, _ => none
  | turns + 1, s, cluster =>
    if cluster ≥ 2 ∧ ¬ is_end_of_chain cluster then
      match drv.scan_cluster d visit s cluster with
      | .inr result => some (.inr result)
      | .inl s =>
        let next := drv.read_fat_entry d cluster
        if next = cluster then some (.inr (.error .io))
        else scan_directory d visit turns s next
    else some (.inl s)

/-- What `read_dir_entry_internal` does at a slot; it counts the entries that it has seen. -/
def visit_index (visible_index name_capacity : Nat) (s : Nat × LfnState)
    (slot : Slot) :
    (Nat × LfnState) ⊕ VfsResult (Option (FAT32DirEntry × Bytes)) :=
  match slot_kind slot.2 with
  | .end_mark => .inr (.ok none)
  | .shown =>
    if s.1 = visible_index then
      match s.2.entry_name slot.2 name_capacity with
      | none => .inr (.error .io)
      | some name => .inr (.ok (some (slot.2, name)))
    else .inl (s.1 + 1, s.2.after slot.2)
  | _ => .inl (s.1, s.2.after slot.2)

/-- The entry with a number, or nothing behind the last one. -/
def read_dir_entry_internal (stack : Memory) (turns : Nat) (d : Disk)
    (dir_cluster visible_index name_capacity : Nat) :
    Option (VfsResult (Option (FAT32DirEntry × Bytes))) :=
  if ¬ drv.initialized ∨ dir_cluster < 2 then some (.error .invalid_path)
  else
    (drv.scan_directory d (visit_index visible_index name_capacity) turns (0, .start stack)
      dir_cluster).map (outcome (.ok none))

/-- The loop of `find_in_directory`. -/
def find_from (stack : Nat → Memory) (turns : Nat) (d : Disk) (dir_cluster : Nat)
    (segment : Bytes) : Nat → Nat → Option (VfsResult FAT32DirEntry)
  | 0, _ => none
  | left + 1, index =>
    match drv.read_dir_entry_internal (stack index) turns d dir_cluster index VFS_NAME_MAX with
    | none => none
    | some (.error e) => some (.error e)
    | some (.ok none) => some (.error .not_found)
    | some (.ok (some (entry, name))) =>
      if name = segment then some (.ok entry)
      else find_from stack turns d dir_cluster segment left (index + 1)

def find_in_directory (stack : Nat → Memory) (turns : Nat) (d : Disk) (dir_cluster : Nat)
    (segment : Bytes) : Option (VfsResult FAT32DirEntry) :=
  if segment = [] then some (.error .invalid_path)
  else drv.find_from stack turns d dir_cluster segment turns 0

/-- What `find_short_name_in_directory` does at a slot. -/
def visit_short_name (short_name : Bytes) (_ : Unit) (slot : Slot) :
    Unit ⊕ VfsResult FAT32DirEntry :=
  if slot.2.char 0 = 0x00 then .inr (.error .not_found)
  else if slot.2.char 0 = 0xE5 ∨ slot.2.attributes = 0x0F ∨ slot.2.attributes &&& 0x08 ≠ 0 then
    .inl ()
  else if slot.2.name ≠ short_name then .inl ()
  else .inr (.ok slot.2)

def find_short_name_in_directory (turns : Nat) (d : Disk) (dir_cluster : Nat)
    (short_name : Bytes) : Option (VfsResult FAT32DirEntry) :=
  (drv.scan_directory d (visit_short_name short_name) turns () dir_cluster).map
    (outcome (.error .not_found))

/-- What `find_in_directory_with_location` does at a slot. -/
def visit_name (segment : Bytes) (lfn : LfnState) (slot : Slot) :
    LfnState ⊕ VfsResult Slot :=
  match slot_kind slot.2 with
  | .end_mark => .inr (.error .not_found)
  | .shown =>
    match lfn.entry_name slot.2 VFS_NAME_MAX with
    | none => .inr (.error .io)
    | some name => if name = segment then .inr (.ok slot) else .inl (lfn.after slot.2)
  | _ => .inl (lfn.after slot.2)

def find_in_directory_with_location (stack : Memory) (turns : Nat) (d : Disk)
    (dir_cluster : Nat) (segment : Bytes) :
    Option (VfsResult Slot) :=
  if segment = [] then some (.error .invalid_path)
  else
    (drv.scan_directory d (visit_name segment) turns (.start stack) dir_cluster).map
      (outcome (.error .not_found))

/-! ## Paths -/

/-- The parts of a path between its slashes, as the cursor steps over them. -/
def path_segments (path : Bytes) : List Bytes :=
  (path.splitOn 0x2F).filter (· ≠ [])

/-- `fat32_leaf_name_from_path`: what follows the last slash. -/
def fat32_leaf_name_from_path (path : Bytes) : Bytes :=
  (path.splitOn 0x2F).getLastD []

/-- The checks of a segment: it fits its buffer, and is not a dot name. -/
def segment_error (segment : Bytes) : Option VfsError :=
  if segment.length ≥ VFS_NAME_MAX then some .invalid_path
  else if segment = [0x2E] ∨ segment = [0x2E, 0x2E] then some .unsupported
  else none

/-- What a path leads to: no entry for the root directory. -/
structure Resolved where
  entry : Option FAT32DirEntry
  cluster : Nat
deriving DecidableEq

/-- The loop over the segments, from the entry found so far. -/
def resolve_from (frames : Frames) (turns : Nat) (d : Disk) (current : Resolved) :
    List Bytes → Option (VfsResult Resolved)
  | [] => some (.ok current)
  | segment :: rest =>
    match segment_error segment with
    | some e => some (.error e)
    | none =>
      match drv.find_in_directory (frames.search rest.length) turns d current.cluster segment with
      | none => none
      | some (.error e) => some (.error e)
      | some (.ok entry) =>
        if rest ≠ [] ∧ ¬ entry.is_dir then some (.error .not_found)
        else resolve_from frames turns d ⟨some entry, dir_entry_cluster entry⟩ rest

def resolve_path (frames : Frames) (turns : Nat) (d : Disk) (path : Bytes) :
    Option (VfsResult Resolved) :=
  if ¬ drv.initialized then some (.error .not_ready)
  else drv.resolve_from frames turns d ⟨none, drv.bpb.root_cluster⟩ (path_segments path)

/-- The loop of `resolve_parent_path`: the directory of the last segment, and its short name. -/
def resolve_parent_from (frames : Frames) (turns : Nat) (d : Disk) (current_cluster : Nat) :
    List Bytes → Option (VfsResult (Nat × Bytes))
  | [] => some (.error .invalid_path)
  | segment :: rest =>
    match segment_error segment with
    | some e => some (.error e)
    | none =>
      if rest = [] then some (.ok (current_cluster, to_name83 segment))
      else
        match drv.find_in_directory (frames.search rest.length) turns d current_cluster segment with
        | none => none
        | some (.error e) => some (.error e)
        | some (.ok entry) =>
          if ¬ entry.is_dir then some (.error .not_found)
          else resolve_parent_from frames turns d (dir_entry_cluster entry) rest

def resolve_parent_path (frames : Frames) (turns : Nat) (d : Disk) (path : Bytes) :
    Option (VfsResult (Nat × Bytes)) :=
  if ¬ drv.initialized then some (.error .invalid_path)
  else drv.resolve_parent_from frames turns d drv.bpb.root_cluster (path_segments path)

/-! ## Files -/

def node_type (entry : FAT32DirEntry) : VFSNodeType := if entry.is_dir then .dir else .file

def get_path_info (frames : Frames) (turns : Nat) (d : Disk) (path : Bytes) :
    Option (VfsResult VFSFileInfo) :=
  (drv.resolve_path frames turns d path).map fun result => result.map fun resolved =>
    match resolved.entry with
    | none => ⟨.dir, 0⟩
    | some entry => ⟨node_type entry, if entry.is_dir then 0 else entry.file_size⟩

/-- The loop over the sectors of a cluster of a file. -/
def read_sectors (d : Disk) (cluster : Nat) (s : Bytes × Nat) (sector_offset : Nat) :
    (Bytes × Nat) ⊕ VfsResult Bytes :=
  let (copied, remaining) := s
  if remaining = 0 then .inl s
  else
    match drv.read_cluster_sector d cluster sector_offset with
    | none => .inr (.error .io)
    | some sector =>
      let chunk := if remaining > drv.bpb.bytes_per_sector then drv.bpb.bytes_per_sector
        else remaining
      .inl (copied ++ load sector 0 chunk, remaining - chunk)

/-- The loop along the clusters of a file. -/
def read_chain (d : Disk) : Nat → Bytes × Nat → Nat → Option (VfsResult Bytes)
  | 0, _, _ => none
  | turns + 1, s, cluster =>
    if cluster ≥ 2 ∧ ¬ is_end_of_chain cluster ∧ s.2 > 0 then
      match scan (drv.read_sectors d cluster) s (List.range drv.bpb.sectors_per_cluster) with
      | .inr result => some result
      | .inl s =>
        let next := drv.read_fat_entry d cluster
        if next = cluster then some (.error .io) else read_chain d turns s next
    else some (if s.2 = 0 then .ok s.1 else .error .io)

def read_file_path (frames : Frames) (turns : Nat) (d : Disk) (path : Bytes)
    (buffer_size : Nat) : Option (VfsResult Bytes) :=
  match drv.resolve_path frames turns d path with
  | none => none
  | some (.error e) => some (.error e)
  | some (.ok resolved) =>
    match resolved.entry with
    | none => some (.error .invalid_path)
    | some entry =>
      if entry.is_dir then some (.error .invalid_path)
      else if buffer_size < max entry.file_size 1 then some (.error .buffer_too_small)
      else drv.read_chain d turns ([], entry.file_size) resolved.cluster

end FAT32Driver

end mini_kernel.fat32
