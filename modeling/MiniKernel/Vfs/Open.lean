-- Open files (kernel/vfs/vfs_open.cpp, kernel/vfs/vfs_core.cpp). A file is read into
-- memory when it is opened, changed there, and written back when it is closed. What
-- the backend and the allocator answer is given with each call.
import MiniKernel.Lib.Store
import MiniKernel.Lib.Word

open mini_kernel.lib Function

namespace mini_kernel.vfs

def VFS_MAX_OPEN_FILES : Nat := 8

def VFS_PATH_MAX : Nat := 160

def VFS_OPEN_READ : U32 := 0x1

def VFS_OPEN_WRITE : U32 := 0x2

def VFS_OPEN_CREATE : U32 := 0x4

def VFS_OPEN_TRUNCATE : U32 := 0x8

def VFS_OPEN_APPEND : U32 := 0x10

/-- `VFS_ERR_*`. -/
inductive VfsError
  | not_ready | invalid_path | not_found | buffer_too_small | io | already_mounted | no_slot
  | unsupported
  deriving DecidableEq

abbrev VfsResult := Except VfsError

inductive VFSNodeType
  | none | file | dir
  deriving DecidableEq

inductive VFSHandleKind
  | none | file | dir
  deriving DecidableEq

/-- `VFS_SEEK_*`, or any other number. -/
inductive Whence
  | set | cur | end_ | other
  deriving DecidableEq

structure VFSFileInfo where
  type : VFSNodeType
  size : Nat

structure VFSOpenFile where
  active : Bool
  dirty : Bool
  kind : VFSHandleKind
  mode : BitVec 16
  owner_pid : U32
  position : Nat
  size : Nat
  capacity : Nat
  path : Bytes
  buffer : Option Memory

abbrev Fd := Fin VFS_MAX_OPEN_FILES

abbrev Table := Fd → VFSOpenFile

/-- What the backend's `read_file` does with a buffer: it fails, or fills in at most
the size it was given. -/
structure ReadFile where
  answer : Nat → VfsResult Bytes
  bounded : ∀ buffer_size bytes, answer buffer_size = .ok bytes → bytes.length ≤ buffer_size

/-! ## Slots and buffers -/

def has {w : Nat} (mode flag : BitVec w) : Bool := mode &&& flag != 0

/-- The freed buffer is not in the table any more. -/
def vfs_reset_open_file : VFSOpenFile :=
  { active := false, dirty := false, kind := .none, mode := 0, owner_pid := 0, position := 0,
    size := 0, capacity := 0, path := [], buffer := none }

/-- The table after `vfs_init`. -/
def vfs_init : Table := fun _ => vfs_reset_open_file

def vfs_get_open_file (t : Table) (fd : Int) : Option Fd :=
  if h : 0 ≤ fd ∧ fd < VFS_MAX_OPEN_FILES then
    let i : Fd := ⟨fd.toNat, by omega⟩
    if (t i).active then some i else none
  else none

def vfs_alloc_open_slot (t : Table) : Option Fd :=
  (List.finRange VFS_MAX_OPEN_FILES).find? fun fd => !(t fd).active

/-- At most `fuel` turns of the loop of `vfs_growth_capacity`; none if it has not
ended by then. -/
def growth_loop (required : Nat) : Nat → Nat → Option Nat
  | 0, _ => none
  | fuel + 1, capacity =>
    if capacity < required then growth_loop required fuel (u32 (capacity * 2)) else some capacity

/-- A loop that has not ended after these turns goes on forever with capacity 0. -/
def vfs_growth_capacity (required : Nat) : Option Nat := growth_loop required 33 64

/-- The file with room for `required` bytes; `memory` is what `kmalloc` returns. The
outer result is none if the call does not return. -/
def vfs_ensure_open_file_capacity (file : VFSOpenFile) (required : Nat)
    (memory : Option Memory) : Option (VfsResult VFSOpenFile) :=
  if required ≤ file.capacity then some (.ok file)
  else (vfs_growth_capacity required).map fun new_capacity =>
    match memory with
    | none => .error .io
    | some new_buffer =>
      let new_buffer := match file.buffer with
        | some buffer =>
          if file.size > 0 then store new_buffer 0 (load buffer 0 file.size) else new_buffer
        | none => new_buffer
      .ok { file with buffer := some new_buffer, capacity := new_capacity }

/-- What is in the buffer. -/
def VFSOpenFile.bytes (file : VFSOpenFile) (position count : Nat) : Bytes :=
  match file.buffer with
  | some buffer => load buffer position count
  | none => []

def vfs_copy_string (capacity : Nat) (src : Bytes) : Bytes := src.take (capacity - 1)

/-! ## Calls -/

/-- The checks of `vfs_open_for_owner`; `info` is the answer of `vfs_get_file_info`. The
result is what there is already. -/
def open_checks (path : Bytes) (mode : U32) (info : VfsResult VFSFileInfo) :
    VfsResult (Option VFSFileInfo) :=
  if path = [] then .error .invalid_path
  else if !has mode (VFS_OPEN_READ ||| VFS_OPEN_WRITE) then .error .invalid_path
  else match info with
  | .error e => if has mode VFS_OPEN_CREATE then .ok none else .error e
  | .ok i => if i.type ≠ .file then .error .invalid_path else .ok (some i)

def initial_size (mode : U32) (exists_ : Option VFSFileInfo) : Nat :=
  match exists_ with
  | some i => if has mode VFS_OPEN_TRUNCATE then 0 else i.size
  | none => 0

/-- The record of a file that has been opened. -/
def opened_file (path : Bytes) (mode owner_pid : U32) (exists_ : Option VFSFileInfo)
    (size capacity : Nat) (buffer : Memory) : VFSOpenFile :=
  { active := true
    dirty := (exists_.isNone && has mode VFS_OPEN_CREATE) ||
      (has mode VFS_OPEN_WRITE && has mode VFS_OPEN_TRUNCATE)
    kind := .file
    mode := mode.setWidth 16
    owner_pid := owner_pid
    position := if has mode VFS_OPEN_APPEND then size else 0
    size := size
    capacity := capacity
    path := vfs_copy_string VFS_PATH_MAX path
    buffer := some buffer }

/-- `read` is the answer of `vfs_read_file`. The result is none if the call does not
return. -/
def vfs_open_for_owner (t : Table) (path : Bytes) (mode owner_pid : U32)
    (info : VfsResult VFSFileInfo) (memory : Option Memory) (read : ReadFile) :
    Option (VfsResult Fd × Table) :=
  match open_checks path mode info with
  | .error e => some (.error e, t)
  | .ok exists_ =>
    match vfs_alloc_open_slot t with
    | none => some (.error .no_slot, t)
    | some fd =>
      let size := initial_size mode exists_
      (vfs_growth_capacity (if size > 0 then size else 1)).map fun capacity =>
        match memory with
        | none => (.error .io, update t fd { t fd with buffer := none })
        | some buffer =>
          if size > 0 then
            match read.answer capacity with
            | .error _ => (.error .io, update t fd vfs_reset_open_file)
            | .ok bytes =>
              (.ok fd, update t fd (opened_file path mode owner_pid exists_ bytes.length
                capacity (store buffer 0 bytes)))
          else
            (.ok fd, update t fd (opened_file path mode owner_pid exists_ 0 capacity buffer))

def vfs_read (t : Table) (fd : Int) (buffer_size : Nat) : VfsResult Bytes × Table :=
  match vfs_get_open_file t fd with
  | none => (.error .invalid_path, t)
  | some i =>
    let file := t i
    if file.kind ≠ .file then (.error .invalid_path, t)
    else if !has file.mode (VFS_OPEN_READ.setWidth 16) then (.error .unsupported, t)
    else
      let available := if file.position < file.size then file.size - file.position else 0
      let count := min buffer_size available
      (.ok (file.bytes file.position count), update t i { file with position := u32 (file.position + count) })

/-- The bytes copied to the position; the file is dirty also if there are none. -/
def VFSOpenFile.put (file : VFSOpenFile) (bytes : Bytes) : VFSOpenFile :=
  if bytes.length > 0 then
    let position := u32 (file.position + bytes.length)
    { file with
      buffer := file.buffer.map fun buffer => store buffer file.position bytes
      position := position
      size := if position > file.size then position else file.size
      dirty := true }
  else { file with dirty := true }

def vfs_write (t : Table) (fd : Int) (bytes : Bytes) (memory : Option Memory) :
    Option (VfsResult Nat × Table) :=
  match vfs_get_open_file t fd with
  | none => some (.error .invalid_path, t)
  | some i =>
    let file := t i
    if file.kind ≠ .file then some (.error .invalid_path, t)
    else if !has file.mode (VFS_OPEN_WRITE.setWidth 16) then some (.error .unsupported, t)
    else
      let required := u32 (file.position + bytes.length)
      (vfs_ensure_open_file_capacity file (if required > 0 then required else 1) memory).map fun
      | .error _ => (.error .io, t)
      | .ok file => (.ok bytes.length, update t i (file.put bytes))

/-- What an offset is counted from. -/
def seek_base (position size : Nat) : Whence → Option Int
  | .set => some 0
  | .cur => some position
  | .end_ => some size
  | .other => none

def vfs_seek (t : Table) (fd : Int) (offset : U32) (whence : Whence) :
    VfsResult Nat × Table :=
  match vfs_get_open_file t fd with
  | none => (.error .invalid_path, t)
  | some i =>
    let file := t i
    if file.kind ≠ .file then (.error .invalid_path, t)
    else
      match seek_base file.position file.size whence with
      | none => (.error .invalid_path, t)
      | some base =>
        let next := base + offset.toInt
        if next < 0 ∨ next > 0x7FFFFFFF then (.error .invalid_path, t)
        else (.ok next.toNat, update t i { file with position := next.toNat })

/-- The first result is what is passed to `vfs_write_file`, if it is called; `written`
is its answer. -/
def vfs_close (t : Table) (fd : Int) (written : VfsResult Unit) :
    Option (Bytes × Bytes) × VfsResult Unit × Table :=
  match vfs_get_open_file t fd with
  | none => (none, .error .invalid_path, t)
  | some i =>
    let file := t i
    if file.kind = .dir then (none, .ok (), update t i vfs_reset_open_file)
    else if file.dirty then
      let passed := (file.path, file.bytes 0 file.size)
      match written with
      | .error e => (some passed, .error e, t)
      | .ok _ => (some passed, .ok (), update t i vfs_reset_open_file)
    else (none, .ok (), update t i vfs_reset_open_file)

/-! ## All files of a process -/

def ofOwner (owner_pid : U32) (file : VFSOpenFile) : Bool :=
  file.active && file.owner_pid = owner_pid

/-- One turn of the loop of `vfs_close_all_for_owner`; `written` gives the answer of
the backend for each descriptor. -/
def close_if_owned (owner_pid : U32)
    (written : Fd → VfsResult Unit) (r : Nat × Table)
    (fd : Fd) : Nat × Table :=
  if ofOwner owner_pid (r.2 fd) then (r.1 + 1, (vfs_close r.2 fd.val (written fd)).2.2) else r

/-- The number of files found, and the table. -/
def vfs_close_all_for_owner (t : Table) (owner_pid : U32)
    (written : Fd → VfsResult Unit) : Nat × Table :=
  (List.finRange VFS_MAX_OPEN_FILES).foldl (close_if_owned owner_pid written) (0, t)

def vfs_count_open_for_owner (t : Table) (owner_pid : U32) : Nat :=
  (List.finRange VFS_MAX_OPEN_FILES).countP fun fd => ofOwner owner_pid (t fd)

end mini_kernel.vfs
