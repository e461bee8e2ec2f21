-- What a changed volume still shows. If each directory lists what it listed before, with
-- some entries swapped, then a path that led to an entry leads to what the entry was
-- swapped for.
import MiniKernel.Fat32.Tree

open mini_kernel.lib mini_kernel.vfs List

namespace mini_kernel.fat32

open FAT32Driver

/-! ## Listings -/

variable {segment : Bytes}

section
variable {swap : Listed → Listed} {xs : List Listed}

theorem find?_map_swap (hname : ∀ x, (swap x).name = x.name) (segment : Bytes) :
    (xs.map swap).find? (·.name = segment) = (xs.find? (·.name = segment)).map swap := by
  rw [find?_map]
  congr 2
  funext x
  simp [hname]

end

namespace FAT32Driver

section
variable {drv : FAT32Driver} {d d' : Disk} {c : Nat} {l : List Nat} {turns : Nat}
  {frames : Frames} {swap : Listed → Listed}

/-! ## The directory of a path -/

/-- The directory that holds the last of the segments, and that segment. -/
noncomputable def walk_parent (drv : FAT32Driver) (d : Disk) (current : Option Listed) :
    List Bytes → VfsResult (Option Listed × Bytes)
  | [] => .error .invalid_path
  | segment :: rest =>
    match segment_error segment with
    | some e => .error e
    | none =>
      if rest = [] then .ok (current, segment)
      else
        match drv.find_at d (drv.resolved_of current).cluster segment with
        | .error e => .error e
        | .ok x => if ¬ x.entry.is_dir then .error .not_found else walk_parent drv d (some x) rest

variable {current r : Option Listed} {x : Listed} {segments : List Bytes} {path : Bytes}

section
variable (hm : drv.Mounted) (hw : drv.Steady d)
include hm hw

theorem Steady.resolve_parent_from_eq
    (ht : drv.Enough turns) (hcur : drv.DirInTree d current) (hs : ∀ s ∈ segments, s ≠ []) :
    drv.resolve_parent_from frames turns d (drv.resolved_of current).cluster segments =
      some ((drv.walk_parent d current segments).map fun p =>
        ((drv.resolved_of p.1).cluster, to_name83 p.2)) := by
  induction segments generalizing current with
  | nil => rfl
  | cons segment rest ih =>
    rw [resolve_parent_from, walk_parent]
    cases segment_error segment with
    | some e => rfl
    | none =>
      by_cases hrest : rest = []
      · simp only [if_pos hrest]
        rfl
      simp only [if_neg hrest]
      rw [hw.find_in_directory_at hm ht hcur.holder (hs _ mem_cons_self)]
      cases hf : drv.find_at d (drv.resolved_of current).cluster segment with
      | error e => rfl
      | ok x =>
        simp only [Except.map]
        by_cases hx : x.entry.is_dir
        · rw [if_neg (by simp [hx]), if_neg (by simp [hx])]
          exact ih (hw.dir_found hm hcur hf hx) (forall_mem_cons.mp hs).2
        · rw [if_pos hx, if_pos hx]

theorem Steady.resolve_parent_path_eq (ht : drv.Enough turns) (path : Bytes) :
    drv.resolve_parent_path frames turns d path =
      some ((drv.walk_parent d none (path_segments path)).map fun p =>
        ((drv.resolved_of p.1).cluster, to_name83 p.2)) := by
  rw [resolve_parent_path, if_neg (by simp [hm.initialized])]
  exact hw.resolve_parent_from_eq hm ht dirInTree_root segment_ne_nil

end

/-- A path leads to what its directory has under its last segment. -/
theorem walk_eq_parent (hne : segments ≠ []) :
    drv.walk d current segments = (drv.walk_parent d current segments).bind fun p =>
      (drv.find_at d (drv.resolved_of p.1).cluster p.2).map some := by
  induction segments generalizing current with
  | nil => exact absurd rfl hne
  | cons segment rest ih =>
    rw [walk, walk_parent]
    cases segment_error segment with
    | some e => rfl
    | none =>
      simp only
      by_cases hrest : rest = []
      · subst hrest
        rw [if_pos rfl]
        simp only [Except.bind]
        cases drv.find_at d (drv.resolved_of current).cluster segment with
        | error e => rfl
        | ok x => rfl
      · rw [if_neg hrest]
        cases drv.find_at d (drv.resolved_of current).cluster segment with
        | error e => rfl
        | ok x =>
          simp only
          by_cases hx : x.entry.is_dir
          · rw [if_neg (by simp [hx]), if_neg (by simp [hx])]
            exact ih hrest
          · rw [if_pos ⟨hrest, hx⟩, if_pos hx]
            rfl

/-- The walk to a directory ends before its last segment; what comes before is a directory. -/
theorem WellFormed.walk_parent_cons (hm : drv.Mounted) (hw : drv.WellFormed d)
    {p : Option Listed × Bytes} (hcur : drv.DirInTree d current)
    (h : drv.walk_parent d current (segment :: segments) = .ok p) :
    segment_error segment = none ∧ (segments = [] ∧ p = (current, segment) ∨
      segments ≠ [] ∧ ∃ x, drv.find_at d (drv.resolved_of current).cluster segment = .ok x ∧
        drv.DirInTree d (some x) ∧ drv.walk_parent d (some x) segments = .ok p) := by
  rw [walk_parent] at h
  split at h
  · cases h
  rename_i herr
  refine ⟨herr, ?_⟩
  by_cases hrest : segments = []
  · rw [if_pos hrest] at h
    cases h
    exact .inl ⟨hrest, rfl⟩
  rw [if_neg hrest] at h
  split at h
  · cases h
  rename_i x hf
  split at h
  · cases h
  · rename_i hdir
    exact .inr ⟨hrest, x, hf, hw.dir_found hm hcur hf (by simpa using hdir), h⟩

theorem WellFormed.walk_parent_leads (hm : drv.Mounted) (hw : drv.WellFormed d)
    {p : Option Listed} {before : List Bytes} {leaf : Bytes}
    (hlead : drv.Leads d before current) (hcur : drv.DirInTree d current)
    (h : drv.walk_parent d current segments = .ok (p, leaf)) :
    drv.DirInTree d p ∧ segments.getLast? = some leaf ∧
      ∃ s, before ++ segments = s ++ [leaf] ∧ drv.Leads d s p := by
  induction segments generalizing current before with
  | nil => cases h
  | cons segment rest ih =>
    obtain ⟨-, ⟨rfl, heq⟩ | ⟨hrest, x, hf, hx, hnext⟩⟩ := hw.walk_parent_cons hm hcur h
    · cases heq
      exact ⟨hcur, rfl, before, rfl, hlead⟩
    · obtain ⟨hp, hlast, s, hsplit, hs⟩ := ih (.step hlead hcur hf) hx hnext
      refine ⟨hp, ?_, s, ?_, hs⟩
      · obtain ⟨a, rest, rfl⟩ := exists_cons_of_ne_nil hrest
        rw [getLast?_cons_cons]
        exact hlast
      · rw [← hsplit, append_assoc]
        rfl

/-! ## Transfer -/

/-- What `d` shows, `d'` shows too with every stack, with files swapped. -/
structure Shows (drv : FAT32Driver) (d d' : Disk) (swap : Listed → Listed) : Prop where
  name : ∀ x, (swap x).name = x.name
  is_dir : ∀ x, drv.InTree d (some x) → (swap x).entry.is_dir = x.entry.is_dir
  dir : ∀ x, drv.InTree d (some x) → x.entry.is_dir → swap x = x
  lists : ∀ {o c l}, drv.Holder d o c true → drv.ClusterChain d c l →
    drv.ClusterChain d' c l ∧ ∀ stack, drv.dir_listing stack d' l = (drv.entries d l).map swap

theorem Shows.dir_swap (h : drv.Shows d d' swap)
    (hcur : drv.DirInTree d current) : current.map swap = current := by
  cases current with
  | none => rfl
  | some x => rw [Option.map_some, h.dir x hcur.1 (hcur.2 x rfl)]

section
variable (hm : drv.Mounted) (hw : drv.WellFormed d) (ht : drv.Enough turns) (h : drv.Shows d d' swap)
include hm hw ht h

/-- An entry is found in its directory, swapped. -/
theorem Shows.find (hcur : drv.DirInTree d current) (hs : segment ≠ [])
    (hf : drv.find_at d (drv.resolved_of current).cluster segment = .ok x) (stack : Nat → Memory) :
    drv.find_in_directory stack turns d' (drv.resolved_of current).cluster segment =
      some (.ok (swap x).entry) := by
  obtain ⟨l, hl⟩ := hw.chains hcur.holder (find_at_mem hf).1
  obtain ⟨hl', hlists⟩ := h.lists hcur.holder hl
  have hlook := hm.lookup_of_find hl hf
  rw [lookup] at hlook
  rw [hm.find_in_directory_eq hl' ht (fun i => hlists (stack i)) hs, find?_map_swap h.name, hlook]
  rfl

/-- A path that led to an entry leads to what the entry was swapped for. -/
theorem Shows.resolve_from (hcur : segments ≠ [] → drv.DirInTree d current) (hs : ∀ s ∈ segments, s ≠ [])
    (hwalk : drv.walk d current segments = .ok r) :
    drv.resolve_from frames turns d' (drv.resolved_of (current.map swap)) segments =
      some (.ok (drv.resolved_of (r.map swap))) := by
  induction segments generalizing current with
  | nil =>
    cases hwalk
    rfl
  | cons segment rest ih =>
    have hdir := hcur (cons_ne_nil _ _)
    obtain ⟨herr, x, hf, hx, hnext, hrest⟩ := hw.walk_cons hm hdir hwalk
    rw [h.dir_swap hdir, FAT32Driver.resolve_from, herr]
    simp only
    rw [h.find hm hw ht hdir (hs _ mem_cons_self) hf]
    simp only [h.is_dir x hx]
    rw [if_neg fun hno => hno.2 ((hnext hno.1).2 x rfl)]
    exact ih hnext (forall_mem_cons.mp hs).2 hrest

theorem Shows.resolve_path (hwalk : drv.walk d none (path_segments path) = .ok r) :
    drv.resolve_path frames turns d' path = some (.ok (drv.resolved_of (r.map swap))) := by
  rw [FAT32Driver.resolve_path, if_neg (by simp [hm.initialized])]
  have hroot : path_segments path ≠ [] → drv.DirInTree d none := fun _ => dirInTree_root
  exact h.resolve_from hm hw ht hroot segment_ne_nil hwalk

/-- A file is read as its swapped entry says. -/
theorem Shows.read_file (hwalk : drv.walk d none (path_segments path) = .ok (some x))
    (hfile : x.entry.is_dir = false) (hchain : 2 ≤ dir_entry_cluster (swap x).entry →
      ∃ l, drv.ClusterChain d' (dir_entry_cluster (swap x).entry) l) (buffer_size : Nat) :
    drv.read_file_path frames turns d' path buffer_size =
      some (if buffer_size < max (swap x).entry.file_size 1 then .error .buffer_too_small
        else drv.contents d' (swap x).entry) := by
  have hx := hw.walk_in_tree hm dirInTree_root.1 (fun _ => dirInTree_root) hwalk
  rw [read_file_path, h.resolve_path hm hw ht hwalk]
  simp only [Option.map_some, resolved_of]
  rw [h.is_dir x hx, hfile, if_neg (by simp)]
  by_cases hsize : buffer_size < max (swap x).entry.file_size 1
  · rw [if_pos hsize, if_pos hsize]
  · rw [if_neg hsize, if_neg hsize]
    exact hm.read_chain_contents ht hchain

omit hw in
/-- A path to something that was not swapped reads as before, if the file has its bytes. -/
theorem Shows.read_same (hw : drv.Steady d) {frames' : Frames} (hwalk : drv.walk d none (path_segments path) = .ok r)
    (hswap : ∀ x, r = some x → swap x = x)
    (hfile : ∀ x, r = some x → drv.InTree d (some x) → x.entry.is_dir = false →
      (2 ≤ dir_entry_cluster x.entry → ∃ l, drv.ClusterChain d' (dir_entry_cluster x.entry) l) ∧
        drv.contents d' x.entry = drv.contents d x.entry) (buffer_size : Nat) :
    drv.read_file_path frames' turns d' path buffer_size =
      drv.read_file_path frames turns d path buffer_size := by
  rw [hw.read_file_path_eq hm ht, hwalk]
  have hresolve : drv.resolve_path frames' turns d' path = _ :=
    h.resolve_path hm hw ht hwalk
  cases r with
  | none =>
    rw [read_file_path, hresolve]
    rfl
  | some x =>
    have hx := hw.walk_in_tree hm dirInTree_root.1 (fun _ => dirInTree_root) hwalk
    simp only [Except.bind, file_result]
    by_cases hdir : x.entry.is_dir
    · rw [read_file_path, hresolve]
      simp only [Option.map_some, hswap x rfl, resolved_of]
      rw [if_pos hdir, if_pos hdir]
    · have hnot : x.entry.is_dir = false := by simpa using hdir
      obtain ⟨hchain, hcontents⟩ := hfile x rfl hx hnot
      have hread : drv.read_file_path frames' turns d' path buffer_size = _ :=
        h.read_file hm hw ht hwalk hnot (by rwa [hswap x rfl]) buffer_size
      rw [hswap x rfl, hcontents] at hread
      rw [hread, if_neg hdir]

end

end

end FAT32Driver

end mini_kernel.fat32
