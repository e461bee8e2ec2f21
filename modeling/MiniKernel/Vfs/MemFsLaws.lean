-- The memory file system is a tree and refines a map from paths. Each call that
-- succeeds changes the map as its name says, each call that fails leaves it, and the
-- lookups read the map.
import MiniKernel.Vfs.MemFsPaths

open mini_kernel.lib mini_kernel.vfs Function List Option

namespace mini_kernel.memfs

/-! ## The map -/

/-- What a path leads to. -/
inductive Entry
  | directory
  | file (bytes : Bytes)

/-- From lists of segments to files and directories. -/
abbrev PathMap := List Text → Option Entry

/-- The map of the freshly mounted file system. -/
def PathMap.mounted : PathMap := fun q => if q = [] then some .directory else none

/-- `old` and what is below it go to `new`. -/
def PathMap.rename (m : PathMap) (old new : List Text) : PathMap := fun q =>
  if old = new then m q
  else if new <+: q then m (old ++ q.drop new.length)
  else if old <+: q then none
  else m q

/-- The first `size` bytes of a buffer. -/
def bytes_of (buffer : Option Memory) (size : Nat) : Bytes :=
  (range size).map (buffer.getD fun _ => 0)

inductive Call
  | write_file (path : Text) (buffer : Option Memory) (size : Nat)
  | touch_file (path : Text)
  | delete_file (path : Text)
  | mkdir (path : Text)
  | rmdir (path : Text)
  | rename_path (old new : Text)

/-- The call as the code makes it. -/
def Call.run (s : Nodes) : Call → Option (VfsResult Unit × Nodes)
  | .write_file path buffer size => memfs_backend_write_file s path buffer size
  | .touch_file path => memfs_backend_touch_file s path
  | .delete_file path => memfs_backend_delete_file s path
  | .mkdir path => memfs_backend_mkdir s path
  | .rmdir path => memfs_backend_rmdir s path
  | .rename_path old new => memfs_backend_rename_path s old new

/-- The map with an entry, or no entry, at a path string. -/
def PathMap.put (m : PathMap) (path : Text) (e : Option Entry) : PathMap :=
  match segments path with
  | some q => update m q e
  | none => m

/-- What a call that succeeds does to the map. -/
def Call.effect (m : PathMap) : Call → PathMap
  | .write_file path buffer size => m.put path (some (.file (bytes_of buffer size)))
  | .touch_file path => m.put path (some (.file []))
  | .delete_file path => m.put path none
  | .mkdir path => m.put path (some .directory)
  | .rmdir path => m.put path none
  | .rename_path old new =>
    match segments old, segments new with
    | some p, some q => m.rename p q
    | _, _ => m

def entry (node : MemFSNode) : Entry :=
  if node.type = .dir then .directory else .file ((range node.size).map node.data)

/-- The tree leads to the entries of the map. -/
def Shows (s : Nodes) (m : PathMap) : Prop :=
  ∀ q e, m q = some e ↔ ∃ i, Path root (up s) q i ∧ entry (s i) = e

variable {s s' : Nodes} {m : PathMap} {i j k p : Node} {name path : Text}
  {q r : List Text}

theorem entry_of_alike {a b : MemFSNode} (h : Alike a b) : entry a = entry b := by
  simp only [entry, h.type, h.size, h.data]

theorem Shows.eq (h : Shows s m) (hq : Path root (up s) q i) : m q = some (entry (s i)) :=
  (h q _).mpr ⟨i, hq, rfl⟩

theorem Shows.eq_none (h : Shows s m) (hq : ∀ i, ¬ Path root (up s) q i) : m q = none := by
  rcases hm : m q with _ | e
  · rfl
  · obtain ⟨i, hi, _⟩ := (h q e).mp hm
    exact absurd hi (hq i)

/-- It is enough to say where each path leads, or that it leads nowhere. -/
theorem shows_of (hyes : ∀ q i, Path root (up s) q i → m q = some (entry (s i)))
    (hno : ∀ q, (∀ i, ¬ Path root (up s) q i) → m q = none) : Shows s m := by
  intro q e
  constructor
  · intro hm
    by_cases hex : ∃ i, Path root (up s) q i
    · obtain ⟨i, hi⟩ := hex
      refine ⟨i, hi, ?_⟩
      rw [hyes q i hi] at hm
      simpa using hm
    · rw [hno q (not_exists.mp hex)] at hm
      cases hm
  · rintro ⟨i, hi, rfl⟩
    exact hyes q i hi

/-- The bytes of a file change. -/
theorem Shows.store (h : Shows s m) (ht : Tree s) (hup : up s' = up s)
    (hother : ∀ j, j ≠ k → entry (s' j) = entry (s j)) (hk : Path root (up s) q k) :
    Shows s' (update m q (some (entry (s' k)))) := by
  apply shows_of
  · intro r i hi
    rw [hup] at hi
    by_cases hr : r = q
    · subst hr
      rw [update_self, hi.node_unique ht.names hk]
    · have hik : i ≠ k := by
        rintro rfl
        exact hr (hi.unique ht.names hk)
      rw [update_of_ne hr, hother i hik, h.eq hi]
  · intro r hr
    rw [hup] at hr
    have hne : r ≠ q := by
      rintro rfl
      exact hr k hk
    rw [update_of_ne hne, h.eq_none hr]

theorem Placed.shows_hang (hp : Placed k p name s s') (h : Shows s m) (ht : Tree s)
    (hk : (s k).active = false) (hq : Path root (memfs.up s) q p)
    (hfree : ∀ j, memfs.up s j ≠ some (p, name)) :
    Shows s' (update m (q ++ [name]) (some (entry (s' k)))) := by
  have hiff (r : List Text) (j : Node) :
      Path root (memfs.up s') r j ↔ Path root (memfs.up s) r j ∨ (j = k ∧ r = q ++ [name]) := by
    rw [hp.up]
    exact path_hang ht.names (not_root_of_inactive ht hk) (by simp [memfs.up, hk])
      (fun j x => no_kid_of_inactive ht hk) hq
  apply shows_of
  · intro r i hi
    rcases (hiff r i).mp hi with hi | ⟨rfl, rfl⟩
    · have hik : i ≠ k := by
        rintro rfl
        have hact := ht.active_of_path hi
        simp [hk] at hact
      have hr : r ≠ q ++ [name] := by
        rintro rfl
        obtain ⟨a, ha, hup⟩ := path_snoc.mp hi
        obtain rfl := ha.node_unique ht.names hq
        exact hfree i hup
      rw [update_of_ne hr, entry_of_alike (hp.other i hik), h.eq hi]
    · rw [update_self]
  · intro r hr
    have hne : r ≠ q ++ [name] := fun h => hr k ((hiff r k).mpr (.inr ⟨rfl, h⟩))
    rw [update_of_ne hne]
    exact h.eq_none fun i hi => hr i ((hiff r i).mpr (.inl hi))

theorem Cut.shows (hc : Cut k s s') (h : Shows s m) (ht : Tree s) (hk : k ≠ root)
    (hleaf : ∀ j, ¬ Kid s k j) (hq : Path root (memfs.up s) q k) : Shows s' (update m q none) := by
  have hiff (r : List Text) (j : Node) :
      Path root (memfs.up s') r j ↔ Path root (memfs.up s) r j ∧ j ≠ k := by
    rw [hc.up]
    apply path_cut hk
    intro i x hup
    exact hleaf i ⟨(up_eq_some.mp hup).1, (up_eq_some.mp hup).2.1⟩
  apply shows_of
  · intro r i hi
    obtain ⟨hi, hik⟩ := (hiff r i).mp hi
    have hr : r ≠ q := by
      rintro rfl
      exact hik (hi.node_unique ht.names hq)
    rw [update_of_ne hr, entry_of_alike (hc.other i hik), h.eq hi]
  · intro r hr
    by_cases hrq : r = q
    · subst hrq
      rw [update_self]
    rw [update_of_ne hrq]
    apply h.eq_none
    intro i hi
    refine hr i ((hiff r i).mpr ⟨hi, ?_⟩)
    rintro rfl
    exact hrq (hi.unique ht.names hq)

theorem Placed.shows_move (hp : Placed k p name s s') (h : Shows s m) (ht : Tree s)
    (hentry : entry (s' k) = entry (s k)) (hq : Path root (memfs.up s) q k) (hk : k ≠ root)
    (hr : Path root (memfs.up s) r p) (hout : ¬ q <+: r)
    (hfree : ∀ j, memfs.up s j ≠ some (p, name)) : Shows s' (m.rename q (r ++ [name])) := by
  have hiff (t : List Text) (j : Node) :
      Path root (memfs.up s') t j ↔ Moved q (r ++ [name]) (Path root (memfs.up s) · j) t := by
    rw [hp.up]
    exact path_move ht.names hq (Tree.path_ne_nil hq hk) hr hout fun j _ => hfree j
  have hne : q ≠ r ++ [name] := by
    rintro rfl
    obtain ⟨a, ha, hup⟩ := path_snoc.mp hq
    obtain rfl := ha.node_unique ht.names hr
    exact hfree k hup
  have hsame : ∀ j, entry (s' j) = entry (s j) := by
    intro j
    by_cases hjk : j = k
    · rw [hjk, hentry]
    · exact entry_of_alike (hp.other j hjk)
  apply shows_of
  · intro t i hi
    rw [hiff, Moved] at hi
    rw [PathMap.rename, if_neg hne, hsame i]
    split at hi
    · rename_i hnew
      rw [if_pos hnew, h.eq hi]
    · rename_i hnew
      split at hi
      · cases hi
      · rename_i hold
        rw [if_neg hnew, if_neg hold, h.eq hi]
  · intro t ht'
    simp only [hiff, Moved] at ht'
    rw [PathMap.rename, if_neg hne]
    split
    · rename_i hnew
      exact h.eq_none fun i => by simpa [hnew] using ht' i
    · rename_i hnew
      split
      · rfl
      · rename_i hold
        exact h.eq_none fun i => by simpa [hnew, hold] using ht' i

/-! ## The functions that change the tree -/

variable {kids : Node → Node → Prop} {node : MemFSNode}

/-- A node that stands in no list may be rewritten. -/
theorem Threads.update_free (h : Threads s kids) (hfree : ∀ i, ¬ kids i k)
    (hnode : node.active → node.first_child = none ∧ ∀ j, ¬ kids k j) : Threads (update s k node) kids := by
  intro i hi
  by_cases hik : i = k
  · subst hik
    rw [update_self] at hi ⊢
    obtain ⟨hfirst, hnone⟩ := hnode hi
    exact ⟨[], threaded_nil.mpr hfirst, by simpa using hnone⟩
  · rw [update_of_ne hik] at hi ⊢
    obtain ⟨l, hl, hmem⟩ := h i hi
    refine ⟨l, hl.congr ?_, hmem⟩
    intro j hj
    have hjk : j ≠ k := by
      rintro rfl
      exact hfree i ((hmem j).mp hj)
    simp [nexts, hjk]

/-- What is not a link of the child lists may be rewritten. -/
theorem Threads.update_kept (h : Threads s kids) (hactive : node.active = (s k).active)
    (hfirst : node.first_child = (s k).first_child) (hnext : node.next_sibling = (s k).next_sibling) :
    Threads (update s k node) kids := by
  have hnexts : nexts (update s k node) = nexts s := by
    funext j
    by_cases hj : j = k
    · subst hj
      simpa [nexts] using hnext
    · simp [nexts, hj]
  intro i hi
  rw [hnexts]
  by_cases hik : i = k
  · subst hik
    rw [update_self] at hi ⊢
    rw [hfirst]
    exact h i (by rwa [← hactive])
  · rw [update_of_ne hik] at hi ⊢
    exact h i hi

/-- `memfs_alloc_node` fails, or hangs up a node that was not active. -/
theorem alloc_node_spec (ht : Tree s) (type : VFSNodeType) (hp : (s p).active) (hname : IsName name) :
    memfs_alloc_node s type (some p) name = none ∨
      ∃ k s', memfs_alloc_node s type (some p) name = some (k, s') ∧ (s k).active = false ∧
        Placed k p name s s' ∧ (s' k).type = type := by
  unfold memfs_alloc_node
  rw [if_neg (by
    rintro (h | h | h)
    · exact hname.1 h
    · exact absurd hname.2.1 (by omega)
    · simp [hname.2.2.1] at h)]
  rcases hfind : (finRange MEMFS_MAX_NODES).find? _ with _ | k
  · exact .inl rfl
  · right
    have hk : (s k).active = false := by
      have hsome := find?_some hfind
      simp only [Bool.and_eq_true, Bool.not_eq_true'] at hsome
      exact hsome.2
    have hpk : p ≠ k := by
      rintro rfl
      simp [hk] at hp
    have hnone : ∀ i, ¬ Kid s i k := by
      intro i hi
      simp [Kid, hk] at hi
    simp only
    rw [get_node_active (by rwa [update_of_ne hpk])]
    simp only
    refine ⟨k, _, rfl, hk, ⟨?_, ?_, ?_, ?_, ?_⟩, ?_⟩
    · intro j hj
      refine (relinked_link_first j).trans ?_
      rw [update_of_ne hj]
      exact .refl _
    · rw [(relinked_link_first k).active, update_self]
    · rw [(relinked_link_first k).parent, update_self]
    · rw [(relinked_link_first k).name, update_self]
      exact copy_name hname
    · refine Threads.congr (Threads.link_first (ht.threads.update_free hnone ?_) hnone hpk.symm ?_) ?_
      · exact fun _ => ⟨rfl, fun j hj => no_kid_of_inactive ht hk hj.up⟩
      · rwa [update_of_ne hpk]
      · intro i j
        constructor
        · rintro (h | h)
          · refine .inl ⟨h, ?_⟩
            rintro rfl
            exact hnone i h
          · exact .inr h
        · rintro (h | h)
          · exact .inl h.1
          · exact .inr h
    · rw [(relinked_link_first k).type, update_self]

/-- `memfs_reset_node` cuts a node off. -/
theorem reset_node_spec (ht : Tree s) (hk : (s k).active) (hroot : k ≠ root) :
    ∃ s', memfs_reset_node s k = some s' ∧ Cut k s s' := by
  obtain ⟨p, hpar, hp, _⟩ := ht.parent k hk hroot
  obtain ⟨s₁, hunlink, hsame, hthreads⟩ :=
    unlink_child_spec ht.threads kid_oneParent (fun i j h => h.1) hp ⟨hk, hpar⟩
  refine ⟨update s₁ k (s₁ k).reset, ?_, ⟨?_, ?_, ?_⟩⟩
  · simp [memfs_reset_node, get_node_active hk, hpar, hunlink]
  · intro j hj
    rw [update_of_ne hj]
    exact hsame j
  · simp [MemFSNode.reset]
  · exact hthreads.update_free (by simp) (by simp [MemFSNode.reset])

/-- The end of `memfs_backend_rename_path` gives the node its new place. -/
theorem move_node_spec (ht : Tree s) (hk : (s k).active) (hroot : k ≠ root) (hpk : p ≠ k)
    (hp : (s p).active) (hdir : (s p).type = .dir) (hname : IsName name) :
    ∃ s', memfs_move_node s k p name = some (.ok (), s') ∧ Placed k p name s s' ∧
      (s' k).type = (s k).type ∧ entry (s' k) = entry (s k) := by
  unfold memfs_move_node
  rw [copy_name hname]
  split
  · -- to another directory
    obtain ⟨p₀, hpar, hp₀, _⟩ := ht.parent k hk hroot
    obtain ⟨s₁, hunlink, hsame, hthreads⟩ :=
      unlink_child_spec ht.threads kid_oneParent (fun i j h => h.1) hp₀ ⟨hk, hpar⟩
    have hp₁ : (s₁ p).active := by rwa [(hsame p).active]
    have hdir₁ : (s₁ p).type = .dir := by rwa [(hsame p).type]
    have hlink (j : Node) : Alike (link_first s₁ p k j) (s j) :=
      (relinked_link_first j).trans (hsame j)
    rw [hpar, hunlink]
    simp only [bind_eq_bind, bind_some, get_node_active hp₁, hdir₁, ne_eq,
      not_true_eq_false, if_false]
    refine ⟨_, rfl, ⟨?_, ?_, ?_, ?_, ?_⟩, ?_, ?_⟩
    · intro j hj
      rw [update_of_ne hj, update_of_ne hj]
      exact hlink j
    · simpa [(hlink k).active] using hk
    · simp
    · simp
    · refine Threads.update_kept (Threads.update_kept ?_ rfl rfl rfl) rfl rfl rfl
      exact hthreads.link_first (by simp) hpk.symm hp₁
    · simp [(hlink k).type]
    · simp [entry, (hlink k).type, (hlink k).size, (hlink k).data]
  · -- within its directory
    rename_i hpar
    simp only [ne_eq, not_not] at hpar
    refine ⟨_, rfl, ⟨?_, ?_, ?_, ?_, ?_⟩, ?_, ?_⟩
    · intro j hj
      beta_reduce
      rw [update_of_ne hj]
      exact .refl _
    · simpa using hk
    · simpa using hpar
    · simp
    · refine Threads.congr (ht.threads.update_kept rfl rfl rfl) ?_
      intro i j
      by_cases hjk : j = k
      · subst hjk
        have hiff : p = i ↔ i = p := eq_comm
        simp [Kid, hk, hpar, hiff]
      · simp [hjk]
    · simp
    · simp [entry]

/-! ## One call -/

/-- The map after a call: changed when it succeeded. -/
def Call.after (c : Call) (m : PathMap) : VfsResult Unit → PathMap
  | .ok () => c.effect m
  | .error _ => m

/-- The call returned, and left a tree that shows the map after it. -/
def Keeps (c : Call) (m : PathMap) (out : Option (VfsResult Unit × Nodes)) : Prop :=
  ∃ r s', out = some (r, s') ∧ Tree s' ∧ Shows s' (c.after m r)

variable {c : Call}

theorem Keeps.error {e : VfsError} (ht : Tree s) (hm : Shows s m) : Keeps c m (some (.error e, s)) :=
  ⟨_, _, rfl, ht, hm⟩

theorem put_eq {e : Option Entry} (h : segments path = some q) : m.put path e = update m q e := by
  simp [PathMap.put, h]

section
variable (ht : Tree s)
include ht

variable {buffer : Option Memory}

/-- Storing bytes in a file changes its entry and nothing else. -/
theorem keeps_store {size : Nat} {m₀ : PathMap}
    (hm : Shows s m₀) (hq : Path root (up s) q k) (htype : (s k).type = .file)
    (hsize : ¬ (size > MEMFS_MAX_FILE_SIZE ∨ (size > 0 ∧ buffer.isNone)))
    (heff : c.effect m = update m₀ q (some (.file (bytes_of buffer size)))) :
    Keeps c m (some (.ok (), update s k ((s k).store buffer size))) := by
  have hfield {β : Type} (f : MemFSNode → β) (hf : f ((s k).store buffer size) = f (s k))
      (j : Node) : f (update s k ((s k).store buffer size) j) = f (s j) := by
    by_cases hj : j = k
    · subst hj
      rw [update_self, hf]
    · rw [update_of_ne hj]
  have hactive := hfield MemFSNode.active rfl
  have hparent := hfield MemFSNode.parent rfl
  have hname := hfield MemFSNode.name rfl
  refine ⟨_, _, rfl, ?_, ?_⟩
  · exact ht.congr hactive (hfield MemFSNode.type rfl) hparent hname
      (ht.threads.update_kept rfl rfl rfl)
  · have hup : up (update s k ((s k).store buffer size)) = up s := by
      funext j
      simp only [up, hactive, hparent, hname]
    have hentry : entry ((s k).store buffer size) = .file (bytes_of buffer size) := by
      simp only [not_or, not_and, gt_iff_lt, not_lt, MEMFS_MAX_FILE_SIZE] at hsize
      simp only [entry, MemFSNode.store, htype, reduceCtorEq, if_false, bytes_of,
        Nat.mod_eq_of_lt (show size < 2 ^ 16 by omega), Entry.file.injEq, map_inj_left,
        mem_range]
      intro i hi
      cases buffer with
      | none => simp at hsize; omega
      | some b => simp [hi]
    have hshows := hm.store ht hup (k := k) ?_ hq
    · rwa [update_self, hentry, ← heff] at hshows
    · intro j hj
      rw [update_of_ne hj]

section
variable (hm : Shows s m)
include hm

theorem write_file_keeps {size : Nat} (path : Text)
    (heff : c.effect m = m.put path (some (.file (bytes_of buffer size)))) :
    Keeps c m (memfs_backend_write_file s path buffer size) := by
  unfold memfs_backend_write_file
  split
  · exact .error ht hm
  rename_i hsize
  rcases lookup_parent_cases ht path with ⟨e, hlook⟩ | ⟨p, leaf, q, hlook, hleaf, hdir, hseg, hp, hact⟩
  · rw [hlook]
    exact .error ht hm
  · rw [put_eq hseg] at heff
    rcases find_child_cases ht hact leaf with ⟨hfind, hfree⟩ | ⟨k, hfind, hk⟩ <;>
      simp only [hlook, bind_eq_bind, bind_some, hfind]
    rotate_left
    · rw [get_node_active (up_eq_some.mp hk).1]
      simp only
      split
      · exact .error ht hm
      · rename_i htype
        exact keeps_store ht hm (hp.step hk) (by simpa using htype) hsize heff
    · rw [get_node_none]
      rcases alloc_node_spec ht .file hact hleaf with hnone | ⟨k, s₁, hsome, hk, hplaced, htype⟩
      · rw [hnone]
        exact .error ht hm
      · rw [hsome]
        have ht₁ := hplaced.hang ht hk (.inl htype) hact hdir hleaf hfree
        have hm₁ := hplaced.shows_hang hm ht hk hp hfree
        have hpath : Path root (up s₁) (q ++ [leaf]) k := by
          rw [hplaced.up, path_hang ht.names (not_root_of_inactive ht hk) (by simp [up, hk])
            (fun j x => no_kid_of_inactive ht hk) hp]
          exact .inr ⟨rfl, rfl⟩
        exact keeps_store ht₁ hm₁ hpath htype hsize (by rw [heff, update_idem])

theorem mkdir_keeps (path : Text) : Keeps (.mkdir path) m (memfs_backend_mkdir s path) := by
  unfold memfs_backend_mkdir
  rcases lookup_parent_cases ht path with ⟨e, hlook⟩ | ⟨p, leaf, q, hlook, hleaf, hdir, hseg, hp, hact⟩
  · rw [hlook]
    exact .error ht hm
  · rcases find_child_cases ht hact leaf with ⟨hfind, hfree⟩ | ⟨k, hfind, -⟩ <;>
      simp only [hlook, bind_eq_bind, bind_some, hfind]
    rotate_left
    · exact .error ht hm
    · rcases alloc_node_spec ht .dir hact hleaf with hnone | ⟨k, s₁, hsome, hk, hplaced, htype⟩
      · rw [hnone]
        exact .error ht hm
      · rw [hsome]
        refine ⟨_, _, rfl, hplaced.hang ht hk (.inr htype) hact hdir hleaf hfree, ?_⟩
        have hshows := hplaced.shows_hang hm ht hk hp hfree
        have hentry : entry (s₁ k) = .directory := by simp [entry, htype]
        rwa [hentry, ← put_eq hseg] at hshows

/-- A node without children that a path leads to is taken away. -/
theorem reset_keeps (hseg : segments path = some q)
    (hk : Path root (up s) q k) (hroot : k ≠ root) (hleaf : ∀ j, ¬ Kid s k j)
    (heff : c.effect m = m.put path none) : Keeps c m (do
      let s ← memfs_reset_node s k
      some (.ok (), s)) := by
  obtain ⟨s', hreset, hcut⟩ := reset_node_spec ht (ht.active_of_path hk) hroot
  refine ⟨.ok (), s', by simp [hreset], hcut.tree ht hroot hleaf, ?_⟩
  rw [Call.after, heff, put_eq hseg]
  exact hcut.shows hm ht hroot hleaf hk

theorem delete_file_keeps (path : Text) : Keeps (.delete_file path) m (memfs_backend_delete_file s path) := by
  unfold memfs_backend_delete_file
  obtain ⟨found, hlook, hfound⟩ := lookup_path_spec ht path
  rw [hlook]
  rcases found with e | k
  · exact .error ht hm
  · obtain ⟨q, hseg, hk⟩ := (hfound k).mp rfl
    simp only [bind_eq_bind, bind_some, get_node_active (ht.active_of_path hk)]
    split
    · exact .error ht hm
    rename_i htype
    simp only [ne_eq, not_not] at htype
    apply reset_keeps ht hm hseg hk
    · rintro rfl
      simp [ht.root_dir] at htype
    · intro j hj
      have hdir := (ht.parent_dir hj.up).2
      simp [htype] at hdir
    · rfl

theorem rmdir_keeps (path : Text) : Keeps (.rmdir path) m (memfs_backend_rmdir s path) := by
  unfold memfs_backend_rmdir
  obtain ⟨found, hlook, hfound⟩ := lookup_path_spec ht path
  rw [hlook]
  rcases found with e | k
  · exact .error ht hm
  · obtain ⟨q, hseg, hk⟩ := (hfound k).mp rfl
    have hact := ht.active_of_path hk
    simp only [bind_eq_bind, bind_some, get_node_active hact]
    split
    · exact .error ht hm
    rename_i hroot
    split
    · exact .error ht hm
    split
    · exact .error ht hm
    rename_i hempty
    apply reset_keeps ht hm hseg hk hroot
    · intro j hj
      obtain ⟨l, hl, hmem⟩ := ht.threads k hact
      have hnil : (s k).first_child = none := by simpa using hempty
      rw [hnil] at hl
      obtain rfl := hl.unique .nil
      simpa using (hmem j).mpr hj
    · rfl

end

/-- A file has nothing below it, so no path goes through it. -/
theorem file_not_above (hk : Path root (up s) q k) (htype : (s k).type ≠ .dir)
    (hp : Path root (up s) r p) (hdir : (s p).type = .dir) : ¬ q <+: r := by
  rintro ⟨t, rfl⟩
  cases t with
  | nil =>
    rw [append_nil] at hp
    exact htype (hp.node_unique ht.names hk ▸ hdir)
  | cons x t =>
    obtain ⟨i, j, hi, hj⟩ := hp.child
    exact htype (hi.node_unique ht.names hk ▸ (ht.parent_dir hj).2)

theorem rename_path_keeps (hm : Shows s m) (old new : Text) :
    Keeps (.rename_path old new) m (memfs_backend_rename_path s old new) := by
  unfold memfs_backend_rename_path
  obtain ⟨found, hlook, hfound⟩ := lookup_path_spec ht old
  rw [hlook]
  rcases found with e | k
  · exact .error ht hm
  · obtain ⟨q, hseg, hk⟩ := (hfound k).mp rfl
    have hact := ht.active_of_path hk
    simp only [bind_eq_bind, bind_some, get_node_active hact]
    split
    · exact .error ht hm
    rename_i hroot
    rcases lookup_parent_cases ht new with ⟨e, hlook⟩ | ⟨p, leaf, r, hlook, hleaf, hdir, hnew, hp, hpact⟩
    · rw [hlook]
      exact .error ht hm
    · have heff : (Call.rename_path old new).effect m = m.rename q (r ++ [leaf]) := by
        simp [Call.effect, hseg, hnew]
      simp only [hlook, bind_some]
      split
      · -- the node has this place already
        rename_i hsame
        have hup : up s k = some (p, leaf) := up_eq_some.mpr ⟨hact, hsame⟩
        have hq : q = r ++ [leaf] := hk.unique ht.names (hp.step hup)
        refine ⟨_, _, rfl, ht, ?_⟩
        have hrename : m.rename q (r ++ [leaf]) = m := by
          funext t
          rw [PathMap.rename, if_pos hq]
        rw [Call.after, heff, hrename]
        exact hm
      · rcases find_child_cases ht hpact leaf with ⟨hfind, hfree⟩ | ⟨_, hfind, -⟩ <;> rw [hfind]
        rotate_left
        · exact .error ht hm
        · simp only [bind_some, is_descendant_spec ht hk hp]
          split
          · exact .error ht hm
          rename_i hinside
          have hout : ¬ q <+: r := by
            by_cases htype : (s k).type = .dir
            · simp only [htype, true_and, not_or, decide_eq_true_eq] at hinside
              exact hinside.2
            · exact file_not_above ht hk htype hp hdir
          have hpk : p ≠ k := by
            rintro rfl
            exact hout (hk.unique ht.names hp ▸ prefix_rfl)
          obtain ⟨s', hmove, hplaced, htype, hentry⟩ :=
            move_node_spec ht hact hroot hpk hpact hdir hleaf
          refine ⟨_, _, hmove, hplaced.move ht htype hk hroot hp hdir hout hleaf hfree, ?_⟩
          rw [Call.after, heff]
          exact hplaced.shows_move hm ht hentry hk hroot hp hout hfree

/-- Each call returns and keeps the tree and its map. -/
theorem call_keeps (hm : Shows s m) (c : Call) : Keeps c m (c.run s) := by
  cases c with
  | write_file path buffer size => exact write_file_keeps ht hm path rfl
  | touch_file path =>
    have heff : (Call.touch_file path).effect m =
        m.put path (some (.file (bytes_of none 0))) := by simp [Call.effect, bytes_of]
    exact write_file_keeps ht hm path heff
  | delete_file path => exact delete_file_keeps ht hm path
  | mkdir path => exact mkdir_keeps ht hm path
  | rmdir path => exact rmdir_keeps ht hm path
  | rename_path old new => exact rename_path_keeps ht hm old new

end

/-! ## Runs -/

theorem mounted_active (s : Nodes) (i : Node) : (vfs_mount_memfs s i).active = decide (i = root) := by
  by_cases hi : i = root <;> simp [vfs_mount_memfs, hi, MemFSNode.reset]

theorem mounted_root (s : Nodes) :
    vfs_mount_memfs s root = { (s root).reset with active := true, type := .dir } := by
  simp [vfs_mount_memfs]

theorem up_mounted (s : Nodes) (i : Node) : up (vfs_mount_memfs s) i = none := by
  by_cases hi : i = root
  · subst hi
    simp [up, mounted_root, MemFSNode.reset]
  · simp [up, mounted_active, hi]

theorem path_mounted (s : Nodes) : Path root (up (vfs_mount_memfs s)) q i ↔ q = [] ∧ i = root := by
  constructor
  · intro h
    cases h with
    | root => exact ⟨rfl, rfl⟩
    | step _ h => simp [up_mounted] at h
  · rintro ⟨rfl, rfl⟩
    exact .root

theorem tree_mounted (s : Nodes) : Tree (vfs_mount_memfs s) := by
  have honly : ∀ i, (vfs_mount_memfs s i).active → i = root := by simp [mounted_active]
  refine ⟨?_, ?_, ?_, ?_, ?_, ?_, ?_⟩
  · simp [mounted_root, MemFSNode.reset]
  · intro i hi
    rw [honly i hi]
    simp [mounted_root]
  · exact fun j hj hroot => absurd (honly j hj) hroot
  · intro i hi
    refine ⟨[], ?_, ?_⟩
    · rw [honly i hi, mounted_root]
      exact .nil
    · intro j
      simp only [not_mem_nil, false_iff]
      intro hj
      simpa [up_mounted] using hj.up
  · intro i j hi hj _ _
    rw [honly i hi, honly j hj]
  · exact fun j hj hroot => absurd (honly j hj) hroot
  · intro j hj
    exact ⟨[], (path_mounted s).mpr ⟨rfl, honly j hj⟩⟩

theorem shows_mounted (s : Nodes) : Shows (vfs_mount_memfs s) .mounted := by
  apply shows_of
  · intro q i h
    obtain ⟨rfl, rfl⟩ := (path_mounted s).mp h
    simp [PathMap.mounted, entry, mounted_root]
  · intro q h
    have hne : q ≠ [] := fun he => h root ((path_mounted s).mpr ⟨he, rfl⟩)
    simp [PathMap.mounted, hne]

/-- A call, with the map that the successful calls define kept beside the nodes. -/
def Call.step : Nodes × PathMap → Call → Option (Nodes × PathMap)
  | (s, m), c => do
    let (r, s') ← c.run s
    some (s', c.after m r)

/-- Every sequence of calls returns, with a tree that shows the map. -/
theorem run_keeps (ht : Tree s) (hm : Shows s m) (calls : List Call) :
    ∃ s' m', calls.foldlM Call.step (s, m) = some (s', m') ∧ Tree s' ∧ Shows s' m' := by
  induction calls generalizing s m with
  | nil => exact ⟨s, m, rfl, ht, hm⟩
  | cons c calls ih =>
    obtain ⟨r, s₁, hrun, ht₁, hm₁⟩ := call_keeps ht hm c
    obtain ⟨s', m', hrest, h⟩ := ih ht₁ hm₁
    refine ⟨s', m', ?_, h⟩
    rw [foldlM_cons, Call.step, hrun]
    exact hrest

/-- The active nodes form a tree rooted at node 0. -/
structure FormsTree (s : Nodes) : Prop where
  root : (s root).active ∧ (s root).type = .dir
  /-- Each child list ends, and holds active nodes of its directory only. -/
  lists : ∀ i, (s i).active → ∃ l, Threaded (nexts s) (s i).first_child l ∧ ∀ j ∈ l, Kid s i j
  /-- Each node but the root stands once in the list of its parent, a directory. -/
  once : ∀ j, (s j).active → j ≠ memfs.root →
    ∃ i l, (s j).parent = some i ∧ (s i).active ∧ (s i).type = .dir ∧
      Threaded (nexts s) (s i).first_child l ∧ l.count j = 1
  acyclic : ∀ j, ¬ Relation.TransGen (Kid s) j j
  rooted : ∀ j, (s j).active → Relation.ReflTransGen (Kid s) memfs.root j
  distinct : ∀ i j, i ≠ j → (s i).active → (s j).active → (s i).parent = (s j).parent →
    (s i).name ≠ (s j).name
  named : ∀ j, (s j).active → j ≠ memfs.root → (s j).name ≠ []

/-- A chain of children makes the path longer. -/
theorem path_of_chain (h : Relation.TransGen (Kid s) i j) (hq : Path root (up s) q i) :
    ∃ r, r ≠ [] ∧ Path root (up s) (q ++ r) j := by
  induction h with
  | @single c hj => exact ⟨[(s c).name], by simp, hq.step hj.up⟩
  | @tail b c _ hj ih =>
    obtain ⟨r, _, hr⟩ := ih
    refine ⟨r ++ [(s c).name], by simp, ?_⟩
    rw [← append_assoc]
    exact hr.step hj.up

theorem Tree.forms (ht : Tree s) : FormsTree s where
  root := ⟨ht.root_dir.1, ht.root_dir.2.1⟩
  lists := by
    intro i hi
    obtain ⟨l, hl, hmem⟩ := ht.threads i hi
    exact ⟨l, hl, fun j => (hmem j).mp⟩
  once := by
    intro j hj hroot
    obtain ⟨i, hi, hact, hdir⟩ := ht.parent j hj hroot
    obtain ⟨l, hl, hmem⟩ := ht.threads i hact
    refine ⟨i, l, hi, hact, hdir, hl, ?_⟩
    exact count_eq_one_of_mem hl.nodup ((hmem j).mpr ⟨hj, hi⟩)
  acyclic := by
    intro j h
    have hact : (s j).active := by
      cases h with
      | single hj => exact hj.1
      | tail _ hj => exact hj.1
    obtain ⟨q, hq⟩ := ht.path j hact
    obtain ⟨r, hne, hr⟩ := path_of_chain h hq
    exact hne (by simpa using hr.unique ht.names hq)
  rooted := by
    intro j hj
    obtain ⟨q, hq⟩ := ht.path j hj
    induction hq with
    | root => exact .refl
    | step _ hup ih =>
      exact (ih (ht.parent_dir hup).1).tail ⟨(up_eq_some.mp hup).1, (up_eq_some.mp hup).2.1⟩
  distinct := fun i j hne hi hj hpar hname => hne (ht.distinct i j hi hj hpar hname)
  named := fun j hj hroot => (ht.named j hj hroot).1

/-- What `memfs_backend_get_file_info` tells about an entry. -/
def Entry.info : Entry → VFSFileInfo
  | .directory => { type := .dir, size := 0 }
  | .file bytes => { type := .file, size := bytes.length }

/-- The lookups return, and read the map. -/
structure Agrees (s : Nodes) (m : PathMap) : Prop where
  lookup : ∀ path, ∃ found, memfs_lookup_path s path = some found ∧
    ∀ e, (∃ i, found = .ok i ∧ (s i).active ∧ entry (s i) = e) ↔
      ∃ q, segments path = some q ∧ m q = some e
  info : ∀ path, ∃ out, memfs_backend_get_file_info s path = some out ∧
    ∀ info, out = .ok info ↔ ∃ q e, segments path = some q ∧ m q = some e ∧ e.info = info
  read : ∀ path buffer_size, ∃ out, memfs_backend_read_file s path buffer_size = some out ∧
    ∀ bytes, out = .ok bytes ↔ ∃ q, segments path = some q ∧ m q = some (.file bytes) ∧
      max bytes.length 1 ≤ buffer_size

theorem entry_file {node : MemFSNode} {bytes : Bytes} :
    entry node = .file bytes ↔ node.type ≠ .dir ∧ (range node.size).map node.data = bytes := by
  unfold entry
  split <;> simp_all

theorem entry_info {node : MemFSNode} (h : node.type = .file ∨ node.type = .dir) : (entry node).info =
      { type := node.type, size := if node.type = .file then node.size else 0 } := by
  rcases h with h | h <;> simp [entry, Entry.info, h]

theorem agrees (ht : Tree s) (hm : Shows s m) : Agrees s m where
  lookup := by
    intro path
    obtain ⟨found, hlook, hfound⟩ := lookup_path_spec ht path
    refine ⟨found, hlook, ?_⟩
    intro e
    simp only [hfound, hm _ e]
    constructor
    · rintro ⟨i, ⟨q, hseg, hi⟩, _, he⟩
      exact ⟨q, hseg, i, hi, he⟩
    · rintro ⟨q, hseg, i, hi, he⟩
      exact ⟨i, ⟨q, hseg, hi⟩, ht.active_of_path hi, he⟩
  info := by
    intro path
    obtain ⟨found, hlook, hfound⟩ := lookup_path_spec ht path
    unfold memfs_backend_get_file_info
    rw [hlook]
    rcases found with e | k
    · refine ⟨_, rfl, ?_⟩
      intro info
      simp only [reduceCtorEq, false_iff]
      rintro ⟨q, e, hseg, hq, _⟩
      obtain ⟨i, hi, _⟩ := (hm q _).mp hq
      simpa using (hfound i).mpr ⟨q, hseg, hi⟩
    · obtain ⟨q, hseg, hk⟩ := (hfound k).mp rfl
      have hact := ht.active_of_path hk
      simp only [bind_eq_bind, bind_some, get_node_active hact]
      refine ⟨_, rfl, ?_⟩
      intro info
      simp only [hseg, some.injEq, ↓existsAndEq, true_and, hm.eq hk, entry_info (ht.typed k hact),
        Except.ok.injEq]
  read := by
    intro path buffer_size
    obtain ⟨found, hlook, hfound⟩ := lookup_path_spec ht path
    unfold memfs_backend_read_file
    rw [hlook]
    rcases found with e | k
    · refine ⟨_, rfl, ?_⟩
      intro bytes
      simp only [reduceCtorEq, false_iff]
      rintro ⟨q, hseg, hq, _⟩
      obtain ⟨i, hi, _⟩ := (hm q _).mp hq
      simpa using (hfound i).mpr ⟨q, hseg, hi⟩
    · obtain ⟨q, hseg, hk⟩ := (hfound k).mp rfl
      have hact := ht.active_of_path hk
      have hread : ∀ bytes, (∃ r, segments path = some r ∧ m r = some (.file bytes) ∧
          max bytes.length 1 ≤ buffer_size) ↔
          entry (s k) = .file bytes ∧ max (s k).size 1 ≤ buffer_size := by
        intro bytes
        simp only [hseg, some.injEq, exists_eq_left', hm.eq hk]
        apply and_congr_right
        intro he
        rw [← (entry_file.mp he).2]
        simp
      simp only [bind_eq_bind, bind_some, get_node_active hact, hread]
      have hmax : (if (s k).size > 0 then (s k).size else 1) = max (s k).size 1 := by
        split <;> omega
      rw [hmax]
      split
      · rename_i htype
        have hdir : (s k).type = .dir := (ht.typed k hact).resolve_left htype
        exact ⟨_, rfl, by simp [entry, hdir]⟩
      rename_i htype
      simp only [ne_eq, not_not] at htype
      split
      · rename_i hsmall
        exact ⟨_, rfl, by simp; omega⟩
      rename_i hroom
      refine ⟨_, rfl, ?_⟩
      intro bytes
      simp only [entry_file, htype, Except.ok.injEq]
      constructor
      · intro h
        exact ⟨⟨by simp, h⟩, by omega⟩
      · exact fun h => h.1.2

/-- Every sequence of calls on the mounted file system returns. The active nodes form
a tree, the lookups agree with the map that the successful calls define, and a call
that fails leaves them in agreement with the same map. -/
theorem memfs_is_a_tree_of_paths (s₀ : Nodes) (calls : List Call) :
    ∃ s m, calls.foldlM Call.step (vfs_mount_memfs s₀, PathMap.mounted) = some (s, m) ∧
      FormsTree s ∧ Agrees s m ∧
      ∀ c : Call, ∃ r s', c.run s = some (r, s') ∧ ∀ e, r = .error e → Agrees s' m := by
  obtain ⟨s, m, hrun, ht, hm⟩ := run_keeps (tree_mounted s₀) (shows_mounted s₀) calls
  refine ⟨s, m, hrun, ht.forms, agrees ht hm, ?_⟩
  intro c
  obtain ⟨r, s', hcall, ht', hm'⟩ := call_keeps ht hm c
  refine ⟨r, s', hcall, ?_⟩
  rintro e rfl
  exact agrees ht' hm'

/-- An empty pool of nodes. -/
def blank : Nodes := fun _ =>
  { active := false, type := .none, parent := none, first_child := none, next_sibling := none
    name := [], size := 0, data := fun _ => 0 }

-- A file in directory "a" is found under "b" once the directory is renamed.
example : ([Call.mkdir [97], .touch_file [97, SLASH, 120], .rename_path [97] [98]].foldlM Call.step
    (vfs_mount_memfs blank, PathMap.mounted)).bind
      (fun (s, _) => (memfs_lookup_path s [98, SLASH, 120]).map Except.toBool) = some true := by
  decide +kernel

end mini_kernel.memfs
