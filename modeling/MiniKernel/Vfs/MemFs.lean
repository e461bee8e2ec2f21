-- The memory file system (kernel/vfs/vfs_memfs.cpp): a pool of nodes with parent
-- links, and for each directory a list of its children threaded through the pool. A
-- path is cut into segments one at a time while the tree is walked. Loops that follow
-- the links are given as many turns as there are nodes; a call that would need more
-- does not return.
import MiniKernel.Vfs.Open

open mini_kernel.lib mini_kernel.vfs Function

namespace mini_kernel.memfs

def MEMFS_MAX_NODES : Nat := 16

def MEMFS_MAX_NAME : Nat := 16

def MEMFS_MAX_FILE_SIZE : Nat := 256

/-- The bytes of a C string before its terminator. -/
abbrev Text := List UInt8

def SLASH : UInt8 := 47

def DOT : UInt8 := 46

/-- A place in the table of nodes. -/
abbrev Node := Fin MEMFS_MAX_NODES

/-- An index into the pool, `none` for `-1`. -/
abbrev Index := Option Node

structure MemFSNode where
  active : Bool
  type : VFSNodeType
  parent : Index
  first_child : Index
  next_sibling : Index
  name : Text
  size : Nat
  data : Memory

abbrev Nodes := Node → MemFSNode

def root : Node := ⟨0, by decide⟩

/-- An inactive node. Its old bytes stay where they are. -/
def MemFSNode.reset (node : MemFSNode) : MemFSNode :=
  { node with
    active := false, type := .none, parent := none, first_child := none
    next_sibling := none, name := [], size := 0 }

/-- The pool of `vfs_mount_memfs`. -/
def vfs_mount_memfs (s : Nodes) : Nodes :=
  update (fun i => (s i).reset) root
    { (s root).reset with active := true, type := .dir }

/-! ## Nodes -/

def memfs_get_node (s : Nodes) (index : Index) : Index :=
  index.filter fun i => (s i).active

def memfs_is_reserved_segment (name : Text) : Bool := name == [DOT] || name == [DOT, DOT]

def memfs_find_child_loop (s : Nodes) (name : Text) : Nat → Index → Option Index
  | 0, _ => none
  | _ + 1, none => some none
  | fuel + 1, some child_index =>
    match memfs_get_node s (some child_index) with
    | some child =>
      if (s child).name = name then some (some child_index)
      else memfs_find_child_loop s name fuel (s child).next_sibling
    | none => memfs_find_child_loop s name fuel none

def memfs_find_child (s : Nodes) (dir_index : Index) (name : Text) : Option Index :=
  match memfs_get_node s dir_index with
  | none => some none
  | some dir =>
    if (s dir).type ≠ .dir then some none
    else memfs_find_child_loop s name (MEMFS_MAX_NODES + 1) (s dir).first_child

/-- `node->next_sibling = parent->first_child; parent->first_child = node`. -/
def link_first (s : Nodes) (parent node : Node) : Nodes :=
  let s := update s node { s node with next_sibling := (s parent).first_child }
  update s parent { s parent with first_child := some node }

def memfs_alloc_node (s : Nodes) (type : VFSNodeType) (parent : Index) (name : Text) :
    Option (Node × Nodes) :=
  if name = [] ∨ MEMFS_MAX_NAME ≤ name.length ∨ memfs_is_reserved_segment name then none
  else
    match (List.finRange MEMFS_MAX_NODES).find? fun i => decide (1 ≤ i.val) && !(s i).active with
    | none => none
    | some i =>
      let s := update s i
        { s i with
          active := true, type := type, parent := parent, first_child := none
          next_sibling := none, size := 0, name := vfs_copy_string MEMFS_MAX_NAME name }
      match memfs_get_node s parent with
      | some parent_node => some (i, link_first s parent_node i)
      | none => some (i, s)

def memfs_unlink_child_loop (s : Nodes) (parent child_index : Node) :
    Nat → Index → Index → Option Nodes
  | 0, _, _ => none
  | _ + 1, _, none => some s
  | fuel + 1, previous, some current =>
    let next := (memfs_get_node s (some current)).bind fun node => (s node).next_sibling
    if current = child_index then
      match previous with
      | none => some (update s parent { s parent with first_child := next })
      | some _ =>
        match memfs_get_node s previous with
        | some node => some (update s node { s node with next_sibling := next })
        | none => some s
    else memfs_unlink_child_loop s parent child_index fuel (some current) next

def memfs_unlink_child (s : Nodes) (parent_index : Index) (child_index : Node) :
    Option Nodes :=
  match memfs_get_node s parent_index with
  | none => some s
  | some parent =>
    memfs_unlink_child_loop s parent child_index (MEMFS_MAX_NODES + 1) none (s parent).first_child

def memfs_reset_node (s : Nodes) (index : Node) : Option Nodes :=
  match memfs_get_node s (some index) with
  | none => some s
  | some node => do
    let s ← if (s node).parent.isSome then memfs_unlink_child s (s node).parent index else some s
    some (update s node (s node).reset)

/-! ## Paths -/

/-- What `memfs_next_segment` returns: -1, 0, or 1 with the segment and the cursor. -/
inductive Segment
  | invalid
  | done
  | next (segment cursor : Text)

/-- The bytes up to the next slash, unless they are too many. -/
def memfs_segment_loop : Text → Text → Option (Text × Text)
  | segment, [] => some (segment, [])
  | segment, c :: cursor =>
    if c = SLASH then some (segment, c :: cursor)
    else if segment.length + 1 ≥ MEMFS_MAX_NAME then none
    else memfs_segment_loop (segment ++ [c]) cursor

def memfs_next_segment (cursor : Text) : Segment :=
  if cursor.head? = some SLASH then .invalid
  else if cursor = [] then .done
  else
    match memfs_segment_loop [] cursor with
    | none => .invalid
    | some (segment, cursor) =>
      if segment.length = 0 ∨ memfs_is_reserved_segment segment then .invalid
      else
        match cursor with
        | [] => .next segment []
        | c :: rest =>
          if c = SLASH then
            if rest = [] then .invalid else .next segment rest
          else .next segment cursor

def memfs_lookup_path_loop (s : Nodes) :
    Nat → Text → Node → Option (VfsResult Node)
  | 0, _, _ => none
  | fuel + 1, cursor, current =>
    match memfs_next_segment cursor with
    | .invalid => some (.error .invalid_path)
    | .done => some (.ok current)
    | .next segment cursor => do
      match ← memfs_find_child s (some current) segment with
      | none => some (.error .not_found)
      | some child => memfs_lookup_path_loop s fuel cursor child

def memfs_lookup_path (s : Nodes) (relative_path : Text) :
    Option (VfsResult Node) :=
  if relative_path = [] then some (.ok root)
  else memfs_lookup_path_loop s (relative_path.length + 1) relative_path root

def memfs_lookup_parent_loop (s : Nodes) :
    Nat → Text → Node → Option (VfsResult (Node × Text))
  | 0, _, _ => none
  | fuel + 1, cursor, current =>
    match memfs_next_segment cursor with
    | .invalid => some (.error .invalid_path)
    | .done => some (.error .invalid_path)
    | .next segment next_cursor =>
      if next_cursor = [] then
        some (.ok (current, vfs_copy_string MEMFS_MAX_NAME segment))
      else do
        match ← memfs_find_child s (some current) segment with
        | none => some (.error .not_found)
        | some child =>
          match memfs_get_node s (some child) with
          | none => some (.error .not_found)
          | some child_node =>
            if (s child_node).type ≠ .dir then some (.error .not_found)
            else memfs_lookup_parent_loop s fuel next_cursor child

def memfs_lookup_parent (s : Nodes) (relative_path : Text) :
    Option (VfsResult (Node × Text)) :=
  if relative_path = [] then some (.error .invalid_path)
  else memfs_lookup_parent_loop s (relative_path.length + 1) relative_path root

/-! ## The backend's calls -/

def memfs_backend_get_file_info (s : Nodes) (relative_path : Text) :
    Option (VfsResult VFSFileInfo) := do
  match ← memfs_lookup_path s relative_path with
  | .error e => some (.error e)
  | .ok node_index =>
    match memfs_get_node s (some node_index) with
    | none => some (.error .not_found)
    | some node =>
      some (.ok { type := (s node).type, size := if (s node).type = .file then (s node).size else 0 })

def memfs_backend_read_file (s : Nodes) (relative_path : Text) (buffer_size : Nat) :
    Option (VfsResult (List UInt8)) := do
  match ← memfs_lookup_path s relative_path with
  | .error e => some (.error e)
  | .ok node_index =>
    match memfs_get_node s (some node_index) with
    | none => some (.error .invalid_path)
    | some node =>
      if (s node).type ≠ .file then some (.error .invalid_path)
      else if buffer_size < (if (s node).size > 0 then (s node).size else 1) then
        some (.error .buffer_too_small)
      else some (.ok ((List.range (s node).size).map (s node).data))

/-- `node->data[i] = buffer[i]` for `i < size`, and the new size. -/
def MemFSNode.store (node : MemFSNode) (buffer : Option Memory) (size : Nat) : MemFSNode :=
  { node with
    data := fun i => if i < size then (buffer.getD node.data) i else node.data i
    size := size % 2 ^ 16 }

def memfs_backend_write_file (s : Nodes) (relative_path : Text) (buffer : Option Memory)
    (size : Nat) : Option (VfsResult Unit × Nodes) :=
  if size > MEMFS_MAX_FILE_SIZE ∨ (size > 0 ∧ buffer.isNone) then some (.error .io, s)
  else do
    match ← memfs_lookup_parent s relative_path with
    | .error e => some (.error e, s)
    | .ok (parent_index, leaf_name) =>
      let child ← memfs_find_child s (some parent_index) leaf_name
      match memfs_get_node s child with
      | none =>
        match memfs_alloc_node s .file (some parent_index) leaf_name with
        | none => some (.error .io, s)
        | some (node, s) => some (.ok (), update s node ((s node).store buffer size))
      | some node =>
        if (s node).type ≠ .file then some (.error .invalid_path, s)
        else some (.ok (), update s node ((s node).store buffer size))

def memfs_backend_touch_file (s : Nodes) (relative_path : Text) :
    Option (VfsResult Unit × Nodes) :=
  memfs_backend_write_file s relative_path none 0

def memfs_backend_delete_file (s : Nodes) (relative_path : Text) :
    Option (VfsResult Unit × Nodes) := do
  match ← memfs_lookup_path s relative_path with
  | .error e => some (.error e, s)
  | .ok node_index =>
    match memfs_get_node s (some node_index) with
    | none => some (.error .invalid_path, s)
    | some node =>
      if (s node).type ≠ .file then some (.error .invalid_path, s)
      else do
        let s ← memfs_reset_node s node_index
        some (.ok (), s)

def memfs_backend_mkdir (s : Nodes) (relative_path : Text) :
    Option (VfsResult Unit × Nodes) := do
  match ← memfs_lookup_parent s relative_path with
  | .error e => some (.error e, s)
  | .ok (parent_index, leaf_name) =>
    match ← memfs_find_child s (some parent_index) leaf_name with
    | some _ => some (.error .already_mounted, s)
    | none =>
      match memfs_alloc_node s .dir (some parent_index) leaf_name with
      | none => some (.error .io, s)
      | some (_, s) => some (.ok (), s)

def memfs_backend_rmdir (s : Nodes) (relative_path : Text) :
    Option (VfsResult Unit × Nodes) := do
  match ← memfs_lookup_path s relative_path with
  | .error e => some (.error e, s)
  | .ok node_index =>
    if node_index = root then some (.error .unsupported, s)
    else
      match memfs_get_node s (some node_index) with
      | none => some (.error .invalid_path, s)
      | some node =>
        if (s node).type ≠ .dir then some (.error .invalid_path, s)
        else if (s node).first_child.isSome then some (.error .io, s)
        else do
          let s ← memfs_reset_node s node_index
          some (.ok (), s)

def memfs_is_descendant_loop (s : Nodes) (possible_ancestor : Node) :
    Nat → Index → Option Bool
  | 0, _ => none
  | _ + 1, none => some false
  | fuel + 1, some current =>
    if current = possible_ancestor then some true
    else
      match memfs_get_node s (some current) with
      | none => some false
      | some node => memfs_is_descendant_loop s possible_ancestor fuel (s node).parent

def memfs_is_descendant (s : Nodes) (node_index possible_ancestor : Node) :
    Option Bool :=
  memfs_is_descendant_loop s possible_ancestor (MEMFS_MAX_NODES + 1) (some node_index)

/-- The end of `memfs_backend_rename_path`, once the new name is known to be free: the
node goes to its new parent and takes its new name. -/
def memfs_move_node (s : Nodes) (node new_parent_index : Node)
    (new_leaf_name : Text) : Option (VfsResult Unit × Nodes) :=
  let named (s : Nodes) : Nodes :=
    update s node { s node with name := vfs_copy_string MEMFS_MAX_NAME new_leaf_name }
  if (s node).parent ≠ some new_parent_index then do
    let s ← memfs_unlink_child s (s node).parent node
    match memfs_get_node s (some new_parent_index) with
    | none => some (.error .invalid_path, s)
    | some new_parent =>
      if (s new_parent).type ≠ .dir then some (.error .invalid_path, s)
      else
        let s := link_first s new_parent node
        let s := update s node { s node with parent := some new_parent_index }
        some (.ok (), named s)
  else some (.ok (), named s)

def memfs_backend_rename_path (s : Nodes) (old_relative_path new_relative_path : Text) :
    Option (VfsResult Unit × Nodes) := do
  match ← memfs_lookup_path s old_relative_path with
  | .error e => some (.error e, s)
  | .ok node_index =>
    if node_index = root then some (.error .unsupported, s)
    else do
      match ← memfs_lookup_parent s new_relative_path with
      | .error e => some (.error e, s)
      | .ok (new_parent_index, new_leaf_name) =>
        match memfs_get_node s (some node_index) with
        | none => some (.error .not_found, s)
        | some node =>
          if (s node).parent = some new_parent_index ∧ (s node).name = new_leaf_name then
            some (.ok (), s)
          else do
            match ← memfs_find_child s (some new_parent_index) new_leaf_name with
            | some _ => some (.error .already_mounted, s)
            | none => do
              let inside ← memfs_is_descendant s new_parent_index node_index
              if (s node).type = .dir ∧ (new_parent_index = node_index ∨ inside) then
                some (.error .invalid_path, s)
              else memfs_move_node s node new_parent_index new_leaf_name

end mini_kernel.memfs
