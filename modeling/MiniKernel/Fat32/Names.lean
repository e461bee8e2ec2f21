-- Names in the directories of the FAT32 driver (drivers/fs/fat32/src/fat32_common.cpp and
-- fat32_lfn.cpp): short names of eleven bytes, and long names that are spread over
-- slots in front of the short one.
import MiniKernel.Lib.Word
import MiniKernel.Lib.Bytes
import MiniKernel.Lib.Store

open mini_kernel.lib Function List

namespace mini_kernel.fat32

/-! ## Directory slots -/

/-- The 32 bytes of a directory slot. -/
structure FAT32DirEntry where
  bytes : Bytes
  length : bytes.length = 32
deriving DecidableEq

namespace FAT32DirEntry

def name (entry : FAT32DirEntry) : Bytes := entry.bytes.take 11

/-- A character of the name. -/
def char (entry : FAT32DirEntry) (i : Nat) : UInt8 := entry.bytes.getD i 0

def attributes (entry : FAT32DirEntry) : UInt8 := entry.bytes.getD 11 0

def first_cluster_high (entry : FAT32DirEntry) : Nat := leAt entry.bytes 20 2

def first_cluster_low (entry : FAT32DirEntry) : Nat := leAt entry.bytes 26 2

def file_size (entry : FAT32DirEntry) : Nat := leAt entry.bytes 28 4

/-- The bit of the attributes that a directory has. -/
def is_dir (entry : FAT32DirEntry) : Bool := entry.attributes &&& 0x10 ≠ 0

end FAT32DirEntry

/-- The high and the low half of the number, which is not cut to 28 bits. -/
def dir_entry_cluster (entry : FAT32DirEntry) : Nat :=
  entry.first_cluster_high * 2 ^ 16 + entry.first_cluster_low

/-- The entry that `write_file_path` fills in: every other field is zero. -/
def new_entry (name83 : Bytes) (attributes : UInt8) (first_cluster size : Nat) : Bytes :=
  name83 ++ attributes :: replicate 8 0 ++ leBytes (first_cluster / 2 ^ 16) 2 ++
    replicate 4 0 ++ leBytes first_cluster 2 ++ leBytes size 4

/-- A slot that holds a part of a long name. -/
structure FAT32LFNEntry where
  order : UInt8
  name1 : List Nat
  attributes : UInt8
  entry_type : UInt8
  checksum : UInt8
  name2 : List Nat
  first_cluster_low : Nat
  name3 : List Nat
deriving DecidableEq

/-- `n` characters of two bytes from an offset on. -/
def chars_at (bytes : Bytes) (i : Nat) : Nat → List Nat
  | 0 => []
  | n + 1 => leAt bytes i 2 :: chars_at bytes (i + 2) n

def FAT32DirEntry.lfn (entry : FAT32DirEntry) : FAT32LFNEntry where
  order := entry.bytes.getD 0 0
  name1 := chars_at entry.bytes 1 5
  attributes := entry.bytes.getD 11 0
  entry_type := entry.bytes.getD 12 0
  checksum := entry.bytes.getD 13 0
  name2 := chars_at entry.bytes 14 6
  first_cluster_low := leAt entry.bytes 26 2
  name3 := chars_at entry.bytes 28 2

def FAT32LFNEntry.bytes (lfn : FAT32LFNEntry) : Bytes :=
  lfn.order :: lfn.name1.flatMap (leBytes · 2) ++
    [lfn.attributes, lfn.entry_type, lfn.checksum] ++ lfn.name2.flatMap (leBytes · 2) ++
    leBytes lfn.first_cluster_low 2 ++ lfn.name3.flatMap (leBytes · 2)

/-! ## Short names -/

def fat32_to_upper (ch : UInt8) : UInt8 :=
  if 0x61 ≤ ch ∧ ch ≤ 0x7A then ch - 0x20 else ch

def fat32_is_alnum_ascii (ch : UInt8) : Bool :=
  (0x41 ≤ ch ∧ ch ≤ 0x5A) ∨ (0x61 ≤ ch ∧ ch ≤ 0x7A) ∨ (0x30 ≤ ch ∧ ch ≤ 0x39)

/-- The characters `_ $ ~ ! # % - { } ( ) @ ^ &`. -/
def short_marks : Bytes :=
  [0x5F, 0x24, 0x7E, 0x21, 0x23, 0x25, 0x2D, 0x7B, 0x7D, 0x28, 0x29, 0x40, 0x5E, 0x26]

def fat32_sanitize_short_char (ch : UInt8) : UInt8 :=
  let ch := fat32_to_upper ch
  if fat32_is_alnum_ascii ch then ch
  else if ch ∈ short_marks then ch
  else 0x5F

/-- The loop of `fat32_is_simple_83_name`. -/
def simple_83_loop (base_len ext_len : Nat) (saw_dot : Bool) : Bytes → Bool
  | [] => 0 < base_len
  | ch :: rest =>
    if ch = 0x2E then
      if saw_dot ∨ base_len = 0 then false else simple_83_loop base_len ext_len true rest
    else if ch = 0x20 ∨ ch = 0x2F ∨ ch = 0x5C then false
    else if fat32_to_upper ch ≠ ch then false
    else if ¬ fat32_is_alnum_ascii ch ∧ ch ∉ short_marks then false
    else if ¬ saw_dot then
      if base_len + 1 > 8 then false else simple_83_loop (base_len + 1) ext_len saw_dot rest
    else if ext_len + 1 > 3 then false
    else simple_83_loop base_len (ext_len + 1) saw_dot rest

def fat32_is_simple_83_name (name : Bytes) : Bool := simple_83_loop 0 0 false name

/-- The characters, cut or filled up with blanks. -/
def padded (n : Nat) (chars : Bytes) : Bytes :=
  chars.take n ++ replicate (n - chars.length) 0x20

theorem length_padded (n : Nat) (chars : Bytes) : (padded n chars).length = n := by
  simp only [padded, length_append, length_take, length_replicate]
  omega

def to_name83 (segment : Bytes) : Bytes :=
  let base := (segment.takeWhile (· ≠ 0x2E)).take 8
  let ext := match segment.drop base.length with
    | 0x2E :: ext => ext
    | _ => []
  padded 8 (base.map fat32_to_upper) ++ padded 3 (ext.map fat32_to_upper)

/-- The name as it is shown, up to a NUL in it, if it fits. -/
def dir_entry_name (entry : FAT32DirEntry) (capacity : Nat) : Option Bytes :=
  if capacity < 2 then none
  else
    let base := (entry.name.take 8).takeWhile (· ≠ 0x20)
    let ext := entry.name.drop 8
    let out := if ext.any (· ≠ 0x20) then base ++ 0x2E :: ext.takeWhile (· ≠ 0x20) else base
    if out.length < capacity then some (out.takeWhile (· ≠ 0)) else none

def fat32_is_dot_name (entry : FAT32DirEntry) : Bool :=
  if entry.char 0 ≠ 0x2E then false
  else if entry.char 1 = 0x20 then true
  else entry.char 1 = 0x2E ∧ entry.char 2 = 0x20

def fat32_short_name_checksum (name : Bytes) : UInt8 :=
  name.foldl (fun sum ch => (if sum &&& 1 ≠ 0 then (0x80 : UInt8) else 0) + (sum >>> 1) + ch) 0

/-- The part after the last dot. -/
def last_extension (leaf_name : Bytes) : Bytes :=
  if 0x2E ∈ leaf_name then (leaf_name.reverse.takeWhile (· ≠ 0x2E)).reverse else []

def fat32_build_short_alias_name (leaf_name : Bytes) (serial : Nat) : Bytes :=
  let ext := ((last_extension leaf_name).take 3).map fat32_sanitize_short_char
  let prefix_limit := if serial ≥ 10 then 5 else 6
  let base := ((leaf_name.takeWhile (· ≠ 0x2E)).take prefix_limit).map fat32_sanitize_short_char
  let base := if base = [] then [0x58] else base
  let digits := if serial ≥ 10 then
      [UInt8.ofNat (0x30 + serial / 10 % 10), UInt8.ofNat (0x30 + serial % 10)]
    else [UInt8.ofNat (0x30 + serial)]
  padded 8 (base ++ 0x7E :: digits) ++ padded 3 ext

theorem length_build_short_alias_name (leaf_name : Bytes) (serial : Nat) :
    (fat32_build_short_alias_name leaf_name serial).length = 11 := by
  simp only [fat32_build_short_alias_name, length_append, length_padded]

/-! ## Long names -/

/-- The size of the buffers for names. -/
def VFS_NAME_MAX : Nat := 64

def fat32_lfn_slot_count (long_name : Bytes) : Nat := (long_name.length + 12) / 13

def fat32_lfn_reset (buffer : Memory) : Memory := update buffer 0 0

/-- The loop over the characters; `index` is `base_index + i`. -/
def fat32_lfn_append_chunk (buffer : Memory) (capacity : Nat) :
    List Nat → Nat → Memory
  | [], _ => buffer
  | value :: src, index =>
    if value = 0x0000 then
      if index < capacity then update buffer index 0 else buffer
    else if value = 0xFFFF then buffer
    else if index ≥ capacity then buffer
    else fat32_lfn_append_chunk (update buffer index (UInt8.ofNat value)) capacity src
      (index + 1)

def fat32_lfn_collect (buffer : Memory) (capacity : Nat) (lfn : FAT32LFNEntry) :
    Memory :=
  let order := (lfn.order &&& 0x1F).toNat
  if order = 0 then buffer
  else
    let base := (order - 1) * 13
    let buffer := fat32_lfn_append_chunk buffer capacity lfn.name1 base
    let buffer := fat32_lfn_append_chunk buffer capacity lfn.name2 (base + 5)
    fat32_lfn_append_chunk buffer capacity lfn.name3 (base + 11)

/-- The character at a place of the name, then the end, then the filling. -/
def lfn_char (long_name : Bytes) (pos : Nat) : Nat :=
  if pos < long_name.length then (long_name.getD pos 0).toNat
  else if pos = long_name.length then 0x0000
  else 0xFFFF

def lfn_chars (long_name : Bytes) (pos n : Nat) : List Nat := load (lfn_char long_name) pos n

def fat32_make_lfn_entry (long_name : Bytes) (chunk_index chunk_count : Nat)
    (checksum : UInt8) : FAT32LFNEntry where
  order := UInt8.ofNat (chunk_index + 1) ||| if chunk_index + 1 = chunk_count then 0x40 else 0
  name1 := lfn_chars long_name (chunk_index * 13) 5
  attributes := 0x0F
  entry_type := 0
  checksum := checksum
  name2 := lfn_chars long_name (chunk_index * 13 + 5) 6
  first_cluster_low := 0
  name3 := lfn_chars long_name (chunk_index * 13 + 11) 2

theorem length_make_lfn_entry (long_name : Bytes) (chunk_index chunk_count : Nat) (checksum : UInt8) :
    (fat32_make_lfn_entry long_name chunk_index chunk_count checksum).bytes.length = 32 := by
  simp [FAT32LFNEntry.bytes, fat32_make_lfn_entry, lfn_chars]

/-- The slots of a long name: the last part comes first. -/
def lfn_entries (long_name : Bytes) (checksum : UInt8) : List FAT32DirEntry :=
  let lfn_count := fat32_lfn_slot_count long_name
  (range lfn_count).map fun i =>
    ⟨(fat32_make_lfn_entry long_name (lfn_count - 1 - i) lfn_count checksum).bytes,
      length_make_lfn_entry ..⟩

/-! ## Reading a directory -/

/-- What a loop over the slots keeps of the long name. -/
structure LfnState where
  lfn_name : Memory
  lfn_active : Bool
  lfn_checksum : UInt8

/-- The state at the start of a loop; the rest of the buffer is what the stack held. -/
def LfnState.start (stack : Memory) : LfnState := ⟨fat32_lfn_reset stack, false, 0⟩

def LfnState.reset (lfn : LfnState) : LfnState :=
  { lfn with lfn_name := fat32_lfn_reset lfn.lfn_name, lfn_active := false }

def LfnState.collect (lfn : LfnState) (entry : FAT32DirEntry) : LfnState :=
  let slot := entry.lfn
  let lfn := if slot.order &&& 0x40 ≠ 0 ∨ ¬ lfn.lfn_active ∨ slot.checksum ≠ lfn.lfn_checksum then
      ⟨fat32_lfn_reset lfn.lfn_name, true, slot.checksum⟩
    else lfn
  { lfn with lfn_name := fat32_lfn_collect lfn.lfn_name VFS_NAME_MAX slot }

/-- The characters of a buffer up to the end mark, as many as fit. -/
def c_string (buffer : Memory) (capacity : Nat) : Bytes :=
  (load buffer 0 (capacity - 1)).takeWhile (· ≠ 0)

/-- The name of a short entry after what was collected. -/
def LfnState.entry_name (lfn : LfnState) (entry : FAT32DirEntry) (capacity : Nat) :
    Option Bytes :=
  if lfn.lfn_active ∧ lfn.lfn_name 0 ≠ 0 ∧
      fat32_short_name_checksum entry.name = lfn.lfn_checksum then
    some (c_string lfn.lfn_name capacity)
  else dir_entry_name entry capacity

/-- What the loops do at a slot. -/
inductive SlotKind
  | end_mark
  | free
  | long_name
  | hidden
  | shown
deriving DecidableEq

def slot_kind (entry : FAT32DirEntry) : SlotKind :=
  if entry.char 0 = 0x00 then .end_mark
  else if entry.char 0 = 0xE5 then .free
  else if entry.attributes = 0x0F then .long_name
  else if entry.attributes &&& 0x08 ≠ 0 ∨ fat32_is_dot_name entry then .hidden
  else .shown

/-- What is left of the long name behind a slot. -/
def LfnState.after (lfn : LfnState) (entry : FAT32DirEntry) : LfnState :=
  match slot_kind entry with
  | .long_name => lfn.collect entry
  | _ => lfn.reset

end mini_kernel.fat32
