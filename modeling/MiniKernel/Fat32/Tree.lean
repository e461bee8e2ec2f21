-- The tree of a volume, said without loops: what a file holds, where a path leads, and
-- which clusters are in use. A volume is well formed if the chains of its entries end
-- and share no cluster. The law: on a well-formed volume the readers give just that.
import MiniKernel.Fat32.Directory

open mini_kernel.lib mini_kernel.vfs List

namespace mini_kernel.fat32

open FAT32Driver

namespace FAT32Driver

section
variable {drv : FAT32Driver} {d d' : Disk} {c : Nat} {l : List Nat} {turns : Nat}

/-! ## What a file holds -/

def cluster_bytes (drv : FAT32Driver) (d : Disk) (c : Nat) : Bytes :=
  (range drv.bpb.sectors_per_cluster).flatMap fun off => load (d (drv.sector_place c off)) 0 512

def chain_bytes (drv : FAT32Driver) (d : Disk) (l : List Nat) : Bytes :=
  l.flatMap (drv.cluster_bytes d)

/-- The loop over sectors copies their bytes, as many as remain. -/
theorem Mounted.scan_read_sectors (hm : drv.Mounted) (hc : drv.IsCluster c) {offs : List Nat}
    (ho : ∀ off ∈ offs, off < drv.bpb.sectors_per_cluster) (copied : Bytes) (remaining : Nat) :
    scan (drv.read_sectors d c) (copied, remaining) offs =
      .inl (copied ++ (offs.flatMap fun off => load (d (drv.sector_place c off)) 0 512).take remaining,
        remaining - 512 * offs.length) := by
  induction offs generalizing copied remaining with
  | nil => simp [scan]
  | cons off offs ih =>
    have hrest := ih (forall_mem_cons.mp ho).2
    rw [scan, read_sectors]
    simp only
    by_cases h0 : remaining = 0
    · subst h0
      simp only [if_pos]
      rw [hrest]
      simp
    · rw [if_neg h0, hm.read_cluster_sector_eq hc (ho off mem_cons_self)]
      simp only [hm.bytes_per_sector]
      rw [hrest]
      simp only [flatMap_cons, take_append, length_load, length_cons, Sum.inl.injEq,
        Prod.mk.injEq]
      generalize hsector : d (drv.sector_place c off) = sector
      by_cases hle : remaining > 512
      · have hall : (load sector 0 512).take remaining = load sector 0 512 :=
          take_of_length_le (by rw [length_load]; omega)
        rw [if_pos hle, hall, append_assoc]
        exact ⟨rfl, by omega⟩
      · rw [if_neg hle, take_load (by omega), Nat.sub_self, Nat.sub_eq_zero_of_le (by omega)]
        exact ⟨by rw [take_zero, append_nil, append_nil], by omega⟩

section
variable (drv : FAT32Driver) (d : Disk)

theorem chain_bytes_nil : drv.chain_bytes d [] = [] := rfl

theorem chain_bytes_cons (c : Nat) (l : List Nat) :
    drv.chain_bytes d (c :: l) = drv.cluster_bytes d c ++ drv.chain_bytes d l := rfl

theorem length_cluster_bytes (c : Nat) :
    (drv.cluster_bytes d c).length = drv.bpb.sectors_per_cluster * 512 := by
  simp [cluster_bytes]

theorem length_chain_bytes (l : List Nat) :
    (drv.chain_bytes d l).length = l.length * (drv.bpb.sectors_per_cluster * 512) := by
  simp [chain_bytes, length_flatMap, length_cluster_bytes]

end

/-- The loop along a chain gives the bytes of the chain, if there are enough of them. -/
theorem Mounted.read_chain_eq (hm : drv.Mounted) (h : drv.ClusterChain d c l)
    (ht : l.length < turns) (copied : Bytes) (remaining : Nat) :
    drv.read_chain d turns (copied, remaining) c =
      some (if remaining ≤ (drv.chain_bytes d l).length then
        .ok (copied ++ (drv.chain_bytes d l).take remaining) else .error .io) := by
  have hdone : ∀ {turns c copied}, 0 < turns →
      drv.read_chain d turns (copied, 0) c = some (.ok copied) := by
    intro turns c copied ht
    obtain ⟨turns, rfl⟩ := Nat.exists_eq_add_one.mpr ht
    rw [read_chain, if_neg (by simp)]
    rfl
  have hcopy : ∀ {c}, drv.IsCluster c → ∀ copied remaining,
      scan (drv.read_sectors d c) (copied, remaining) (range drv.bpb.sectors_per_cluster) =
        .inl (copied ++ (drv.cluster_bytes d c).take remaining,
          remaining - (drv.cluster_bytes d c).length) := by
    intro c hc copied remaining
    rw [hm.scan_read_sectors hc (fun off ho => mem_range.mp ho), length_cluster_bytes,
      length_range, Nat.mul_comm]
    rfl
  induction h generalizing copied remaining turns with
  | @last c hc hend =>
    obtain ⟨turns, rfl⟩ : ∃ t, turns = t + 2 := ⟨turns - 2, by simp at ht; omega⟩
    by_cases h0 : remaining = 0
    · subst h0
      rw [hdone (by omega)]
      simp
    have hnext : drv.read_fat_entry d c ≠ c := fun he => hm.mark_ne_cluster _ hend (he.symm ▸ hc)
    have hcm := hm.cluster_not_mark hc
    rw [read_chain, if_pos ⟨hcm.1, hcm.2, by simp; omega⟩, hcopy hc]
    simp only
    rw [if_neg hnext, read_chain, if_neg (by simp [hend])]
    simp only [chain_bytes, flatMap_cons, flatMap_nil, append_nil]
    by_cases hle : remaining ≤ (drv.cluster_bytes d c).length
    · rw [if_pos (by omega), if_pos hle]
    · rw [if_neg (by omega), if_neg hle]
  | @cons c l hc hl ih =>
    obtain ⟨turns, rfl⟩ : ∃ t, turns = t + 1 := ⟨turns - 1, by simp at ht; omega⟩
    by_cases h0 : remaining = 0
    · subst h0
      rw [hdone (by omega)]
      simp
    have hnext : drv.read_fat_entry d c ≠ c := (Chain.cons hc hl).next_ne hm.mark_ne_cluster
    have hcm := hm.cluster_not_mark hc
    rw [read_chain, if_pos ⟨hcm.1, hcm.2, by simp; omega⟩, hcopy hc]
    simp only
    rw [if_neg hnext, ih (by simp at ht; omega)]
    simp only [chain_bytes_cons, length_append, take_append, append_assoc]
    by_cases hle : remaining ≤ (drv.cluster_bytes d c).length + (drv.chain_bytes d l).length
    · rw [if_pos (by omega), if_pos hle]
    · rw [if_neg (by omega), if_neg hle]

/-- A file without clusters is read only if it is empty. -/
theorem read_chain_none (hc : c < 2) (ht : 0 < turns) (remaining : Nat) :
    drv.read_chain d turns ([], remaining) c = some (if remaining = 0 then .ok [] else .error .io) := by
  obtain ⟨turns, rfl⟩ := Nat.exists_eq_add_one.mpr ht
  rw [read_chain, if_neg (by simp; omega)]

end

end FAT32Driver

/-! ## The entries in use -/

/-- The entries that a list of slots shows. -/
def visible (slots : List Slot) : List Slot :=
  (slots.takeWhile fun slot => slot_kind slot.2 ≠ .end_mark).filter fun slot =>
    slot_kind slot.2 = .shown

theorem listing_visible (lfn : LfnState) (slots : List Slot) :
    (listing lfn slots).map (fun x => (x.location, x.entry)) = visible slots := by
  induction slots generalizing lfn with
  | nil => rfl
  | cons slot rest ih =>
    unfold visible at ih ⊢
    rw [listing, takeWhile_cons]
    cases hk : slot_kind slot.2 <;> simp [hk, ih]

variable {slots : List Slot}

theorem mem_visible_of_listing {lfn : LfnState} {x : Listed}
    (h : x ∈ listing lfn slots) : (x.location, x.entry) ∈ visible slots := by
  rw [← listing_visible lfn]
  exact mem_map_of_mem h

theorem mem_of_visible {slot : Slot}
    (h : slot ∈ visible slots) : slot ∈ slots ∧ slot_kind slot.2 = .shown := by
  obtain ⟨hm, hk⟩ := mem_filter.mp h
  exact ⟨(takeWhile_sublist _).subset hm, by simpa using hk⟩

namespace FAT32Driver

/-- What may have clusters: the root directory, and each entry that a directory shows. It
is known by the slot that names it. -/
inductive Holder (drv : FAT32Driver) (d : Disk) : Option Location → Nat → Bool → Prop
  | root : Holder drv d none drv.bpb.root_cluster true
  | entry {o : Option Location} {c : Nat} {l : List Nat} {slot : Slot} :
      Holder drv d o c true → drv.ClusterChain d c l → slot ∈ visible (drv.dir_slots d l) →
      Holder drv d (some slot.1) (dir_entry_cluster slot.2) slot.2.is_dir

/-- Every chain ends, and no two share a cluster. -/
structure WellFormed (drv : FAT32Driver) (d : Disk) : Prop where
  chains : ∀ {o c k}, drv.Holder d o c k → 2 ≤ c → ∃ l, drv.ClusterChain d c l
  unshared : ∀ {o o' c c' k k' l l'}, drv.Holder d o c k → drv.Holder d o' c' k' →
    drv.ClusterChain d c l → drv.ClusterChain d c' l' → o ≠ o' → l.Disjoint l'

/-- Moreover, what a directory lists does not depend on the stack. -/
structure Steady (drv : FAT32Driver) (d : Disk) : Prop extends drv.WellFormed d where
  lists : ∀ {o c l}, drv.Holder d o c true → drv.ClusterChain d c l →
    ∀ stack, drv.dir_listing stack d l = drv.entries d l

instance {drv : FAT32Driver} {d : Disk} : Coe (drv.Steady d) (drv.WellFormed d) :=
  ⟨Steady.toWellFormed⟩

section
variable {drv : FAT32Driver} {d d' : Disk} {c : Nat} {l : List Nat} {turns : Nat}
  {frames : Frames} {segment : Bytes}

open Classical in
/-- The chain from a number on; empty if there is none. -/
noncomputable def chain_of (drv : FAT32Driver) (d : Disk) (c : Nat) : List Nat :=
  if h : ∃ l, drv.ClusterChain d c l then h.choose else []

theorem Mounted.chain_of_eq (hm : drv.Mounted) (h : drv.ClusterChain d c l) : drv.chain_of d c = l := by
  have hex : ∃ l, drv.ClusterChain d c l := ⟨l, h⟩
  rw [chain_of, dif_pos hex]
  exact hex.choose_spec.unique hm.mark_ne_cluster h

theorem chain_of_small (hc : c < 2) : drv.chain_of d c = [] := by
  rw [chain_of, dif_neg]
  rintro ⟨l, h⟩
  have := (h.node_of_mem c h.head_mem).1
  omega

/-! ## Where a path leads -/

/-- The entry with a name in the directory at a cluster. -/
noncomputable def find_at (drv : FAT32Driver) (d : Disk) (c : Nat) (segment : Bytes) :
    VfsResult Listed :=
  if c < 2 then .error .invalid_path
  else match drv.lookup d (drv.chain_of d c) segment with
    | some x => .ok x
    | none => .error .not_found

theorem Mounted.find_at_eq (hm : drv.Mounted) (h : drv.ClusterChain d c l) :
    drv.find_at d c segment = match drv.lookup d l segment with
      | some x => .ok x
      | none => .error .not_found := by
  have hc := (h.node_of_mem c h.head_mem).1
  rw [find_at, if_neg (by omega), hm.chain_of_eq h]

theorem Mounted.lookup_of_find (hm : drv.Mounted) (h : drv.ClusterChain d c l) {x : Listed}
    (hf : drv.find_at d c segment = .ok x) : drv.lookup d l segment = some x := by
  rw [hm.find_at_eq h] at hf
  split at hf
  · rename_i hlook
    rw [hlook, Except.ok.inj hf]
  · cases hf

/-- The directory is found, or has no clusters. -/
theorem Steady.find_in_directory_at (hm : drv.Mounted) (hw : drv.Steady d) (ht : drv.Enough turns)
    {o : Option Location} (ho : drv.Holder d o c true) (hs : segment ≠ []) (stack : Nat → Memory) :
    drv.find_in_directory stack turns d c segment =
      some ((drv.find_at d c segment).map (·.entry)) := by
  by_cases h2 : c < 2
  · obtain ⟨turns, rfl⟩ : ∃ t, turns = t + 1 := ⟨turns - 1, by unfold Enough at ht; omega⟩
    rw [find_in_directory, if_neg hs, find_from, read_dir_entry_internal, if_pos (.inr h2), find_at,
      if_pos h2]
    rfl
  · obtain ⟨l, h⟩ := hw.chains ho (by omega)
    have hall := hw.lists ho h
    rw [hm.find_in_directory_eq h ht (fun i => hall (stack i)) hs, hm.find_at_eq h, lookup]
    cases (drv.entries d l).find? (·.name = segment) <;> rfl

/-- What has been found, as `resolve_path` returns it. -/
def resolved_of (drv : FAT32Driver) : Option Listed → Resolved
  | none => ⟨none, drv.bpb.root_cluster⟩
  | some x => ⟨some x.entry, dir_entry_cluster x.entry⟩

/-- What the segments lead to, from what has been found. -/
noncomputable def walk (drv : FAT32Driver) (d : Disk) (current : Option Listed) :
    List Bytes → VfsResult (Option Listed)
  | [] => .ok current
  | segment :: rest =>
    match segment_error segment with
    | some e => .error e
    | none =>
      match drv.find_at d (drv.resolved_of current).cluster segment with
      | .error e => .error e
      | .ok x =>
        if rest ≠ [] ∧ ¬ x.entry.is_dir then .error .not_found
        else walk drv d (some x) rest

/-- The root directory, or an entry of the tree. -/
def InTree (drv : FAT32Driver) (d : Disk) : Option Listed → Prop
  | none => True
  | some x => drv.Holder d (some x.location) (dir_entry_cluster x.entry) x.entry.is_dir

/-- A directory of the tree. -/
def DirInTree (drv : FAT32Driver) (d : Disk) (current : Option Listed) : Prop :=
  drv.InTree d current ∧ ∀ x, current = some x → x.entry.is_dir

variable {current r : Option Listed} {x : Listed} {segments : List Bytes}

theorem DirInTree.holder (h : drv.DirInTree d current) :
    drv.Holder d (current.map (·.location)) (drv.resolved_of current).cluster true := by
  cases current with
  | none => exact .root
  | some x =>
    have hx := h.1
    rw [InTree, h.2 x rfl] at hx
    exact hx

theorem find_at_mem (h : drv.find_at d c segment = .ok x) :
    2 ≤ c ∧ x.name = segment ∧ x ∈ drv.entries d (drv.chain_of d c) := by
  unfold find_at at h
  split at h
  · cases h
  rename_i hc
  cases hl : drv.lookup d (drv.chain_of d c) segment with
  | none =>
    rw [hl] at h
    cases h
  | some y =>
    rw [hl] at h
    cases h
    have hname := find?_some hl
    exact ⟨by omega, by simpa using hname, mem_of_find?_eq_some hl⟩

section
variable (hm : drv.Mounted) (hw : drv.WellFormed d) (hcur : drv.DirInTree d current)
include hm hw hcur

/-- What is found in a directory of the tree is in the tree. -/
theorem WellFormed.found_in_tree
    (h : drv.find_at d (drv.resolved_of current).cluster segment = .ok x) : drv.InTree d (some x) := by
  obtain ⟨h2, -, hmem⟩ := find_at_mem h
  obtain ⟨l, hl⟩ := hw.chains hcur.holder h2
  rw [hm.chain_of_eq hl] at hmem
  exact .entry hcur.holder hl (mem_visible_of_listing hmem)

theorem WellFormed.dir_found (h : drv.find_at d (drv.resolved_of current).cluster segment = .ok x)
    (hx : x.entry.is_dir) : drv.DirInTree d (some x) := by
  refine ⟨hw.found_in_tree hm hcur h, ?_⟩
  intro y hy
  cases hy
  exact hx

/-- The first segment of a walk is found, and is a directory if more segments follow. -/
theorem WellFormed.walk_cons (h : drv.walk d current (segment :: segments) = .ok r) :
    segment_error segment = none ∧
      ∃ x, drv.find_at d (drv.resolved_of current).cluster segment = .ok x ∧
        drv.InTree d (some x) ∧ (segments ≠ [] → drv.DirInTree d (some x)) ∧
        drv.walk d (some x) segments = .ok r := by
  rw [walk] at h
  split at h
  · cases h
  rename_i herr
  split at h
  · cases h
  rename_i x hf
  split at h
  · cases h
  · rename_i hnot
    refine ⟨herr, x, hf, hw.found_in_tree hm hcur hf, fun hne => hw.dir_found hm hcur hf ?_, h⟩
    by_contra hfile
    exact hnot ⟨hne, hfile⟩

end

theorem segment_ne_nil {path : Bytes} : ∀ segment ∈ path_segments path, segment ≠ [] := by
  intro segment h
  simpa using (mem_filter.mp h).2

/-- The loop over the segments leads where the walk leads. -/
theorem Steady.resolve_from_eq (hm : drv.Mounted) (hw : drv.Steady d) (ht : drv.Enough turns)
    (current : Option Listed) (hcur : segments ≠ [] → drv.DirInTree d current) (hs : ∀ s ∈ segments, s ≠ []) :
    drv.resolve_from frames turns d (drv.resolved_of current) segments =
      some ((drv.walk d current segments).map drv.resolved_of) := by
  induction segments generalizing current with
  | nil => rfl
  | cons segment rest ih =>
    have hdir := hcur (cons_ne_nil _ _)
    rw [resolve_from, walk]
    cases segment_error segment with
    | some e => rfl
    | none =>
      simp only
      rw [hw.find_in_directory_at hm ht hdir.holder (hs _ mem_cons_self)]
      cases hf : drv.find_at d (drv.resolved_of current).cluster segment with
      | error e => rfl
      | ok x =>
        simp only [Except.map]
        by_cases hnot : rest ≠ [] ∧ ¬ x.entry.is_dir
        · rw [if_pos hnot, if_pos hnot]
        rw [if_neg hnot, if_neg hnot]
        refine ih (some x) ?_ (forall_mem_cons.mp hs).2
        intro hne
        refine hw.dir_found hm hdir hf ?_
        by_contra hfile
        exact hnot ⟨hne, hfile⟩

theorem dirInTree_root : drv.DirInTree d none := ⟨trivial, fun _ h => nomatch h⟩

theorem Steady.resolve_path_eq (hm : drv.Mounted) (hw : drv.Steady d) (ht : drv.Enough turns)
    (path : Bytes) : drv.resolve_path frames turns d path =
      some ((drv.walk d none (path_segments path)).map drv.resolved_of) := by
  rw [resolve_path, if_neg (by simp [hm.initialized])]
  exact hw.resolve_from_eq hm ht none (fun _ => dirInTree_root) segment_ne_nil

/-- What a path leads to is in the tree. -/
theorem WellFormed.walk_in_tree (hm : drv.Mounted) (hw : drv.WellFormed d)
    (hcur : drv.InTree d current) (hdir : segments ≠ [] → drv.DirInTree d current)
    (h : drv.walk d current segments = .ok r) : drv.InTree d r := by
  induction segments generalizing current with
  | nil =>
    cases h
    exact hcur
  | cons segment rest ih =>
    obtain ⟨-, x, -, hx, hxdir, hrest⟩ := hw.walk_cons hm (hdir (cons_ne_nil _ _)) h
    exact ih hx hxdir hrest

/-- The bytes of a file. -/
noncomputable def contents (drv : FAT32Driver) (d : Disk) (entry : FAT32DirEntry) :
    VfsResult Bytes :=
  let bytes := drv.chain_bytes d (drv.chain_of d (dir_entry_cluster entry))
  if entry.file_size ≤ bytes.length then .ok (bytes.take entry.file_size) else .error .io

theorem Mounted.read_chain_contents (hm : drv.Mounted) (ht : drv.Enough turns) {entry : FAT32DirEntry}
    (hc : 2 ≤ dir_entry_cluster entry → ∃ l, drv.ClusterChain d (dir_entry_cluster entry) l) :
    drv.read_chain d turns ([], entry.file_size) (dir_entry_cluster entry) =
      some (drv.contents d entry) := by
  unfold contents
  by_cases h2 : dir_entry_cluster entry < 2
  · rw [read_chain_none h2 (by unfold Enough at ht; omega), chain_of_small h2]
    simp [chain_bytes]
  · obtain ⟨l, hl⟩ := hc (by omega)
    rw [hm.read_chain_eq hl (hm.chain_turns hl ht), hm.chain_of_eq hl]
    rfl

/-- What `read_file_path` gives for what a path leads to. -/
noncomputable def file_result (drv : FAT32Driver) (d : Disk) (buffer_size : Nat) :
    Option Listed → VfsResult Bytes
  | none => .error .invalid_path
  | some x =>
    if x.entry.is_dir then .error .invalid_path
    else if buffer_size < max x.entry.file_size 1 then .error .buffer_too_small
    else drv.contents d x.entry

theorem Steady.read_file_path_eq (hm : drv.Mounted) (hw : drv.Steady d)
    (ht : drv.Enough turns) (path : Bytes) (buffer_size : Nat) :
    drv.read_file_path frames turns d path buffer_size =
      some ((drv.walk d none (path_segments path)).bind (drv.file_result d buffer_size)) := by
  rw [read_file_path, hw.resolve_path_eq hm ht]
  cases hwalk : drv.walk d none (path_segments path) with
  | error e => rfl
  | ok r =>
    have hr := hw.walk_in_tree hm dirInTree_root.1 (fun _ => dirInTree_root) hwalk
    cases r with
    | none => rfl
    | some x =>
      simp only [Except.map, resolved_of, Except.bind, file_result]
      by_cases hdir : x.entry.is_dir
      · rw [if_pos hdir, if_pos hdir]
      · rw [if_neg hdir, if_neg hdir]
        by_cases hsize : buffer_size < max x.entry.file_size 1
        · rw [if_pos hsize, if_pos hsize]
        · rw [if_neg hsize, if_neg hsize]
          exact hm.read_chain_contents ht (hw.chains hr)

/-! ## Different paths lead to different slots -/

theorem nodup_locations (hd : l.Nodup) : ((drv.dir_slots d l).map Prod.fst).Nodup := by
  have hinj : ((drv.dir_slots d l).map Prod.fst) = l.flatMap fun c =>
      (range drv.bpb.sectors_per_cluster).flatMap fun off =>
        (range drv.entry_count).map fun i => (⟨c, off, i⟩ : Location) := by
    simp only [dir_slots, cluster_slots, sector_slots, map_flatMap, map_map]
    rfl
  rw [hinj, nodup_flatMap]
  constructor
  · intro c _
    rw [nodup_flatMap]
    constructor
    · intro off _
      refine List.Nodup.map ?_ nodup_range
      intro i j h
      cases h
      rfl
    · refine List.Pairwise.imp ?_ (nodup_range (n := drv.bpb.sectors_per_cluster))
      intro off off' hne loc h h'
      simp only [mem_map] at h h'
      obtain ⟨i, -, rfl⟩ := h
      obtain ⟨j, -, he⟩ := h'
      cases he
      exact hne rfl
  · refine List.Pairwise.imp ?_ hd
    intro c c' hne loc h h'
    simp only [mem_flatMap, mem_map] at h h'
    obtain ⟨_, -, i, -, rfl⟩ := h
    obtain ⟨_, -, j, -, he⟩ := h'
    cases he
    exact hne rfl

/-- A directory shows each slot once. -/
theorem Mounted.listed_inj (hm : drv.Mounted) (hl : drv.ClusterChain d c l) {y : Listed}
    (hx : x ∈ drv.entries d l) (hy : y ∈ drv.entries d l)
    (h : x.location = y.location) : x = y := by
  have hsub : ((drv.entries d l).map Listed.location).Sublist
      ((drv.dir_slots d l).map Prod.fst) := by
    have : (drv.entries d l).map Listed.location =
        ((drv.entries d l).map fun x => (x.location, x.entry)).map Prod.fst := by
      rw [map_map]
      rfl
    rw [this, entries, dir_listing, listing_visible]
    exact (filter_sublist.trans (takeWhile_sublist _)).map _
  exact inj_on_of_nodup_map (hsub.nodup (nodup_locations (hl.nodup hm.mark_ne_cluster))) hx hy h

/-- A slot is in one directory only. -/
theorem WellFormed.same_dir (hm : drv.Mounted) (hw : drv.WellFormed d) {p p' : Option Listed}
    {x' : Listed} (hp : drv.DirInTree d p) (hp' : drv.DirInTree d p')
    (h2 : 2 ≤ (drv.resolved_of p).cluster) (h2' : 2 ≤ (drv.resolved_of p').cluster)
    (hx : x ∈ drv.entries d (drv.chain_of d (drv.resolved_of p).cluster))
    (hx' : x' ∈ drv.entries d (drv.chain_of d (drv.resolved_of p').cluster))
    (hloc : x.location = x'.location) : p.map Listed.location = p'.map Listed.location := by
  obtain ⟨l, hl⟩ := hw.chains hp.holder h2
  obtain ⟨l', hl'⟩ := hw.chains hp'.holder h2'
  rw [hm.chain_of_eq hl] at hx
  rw [hm.chain_of_eq hl'] at hx'
  have hin := (mem_dir_slots.mp (mem_of_visible (mem_visible_of_listing hx)).1).1
  have hin' := (mem_dir_slots.mp (mem_of_visible (mem_visible_of_listing hx')).1).1
  by_contra hne
  exact hw.unshared hp.holder hp'.holder hl hl' hne hin (hloc ▸ hin')

/-- The segments lead from the root directory to an entry. -/
inductive Leads (drv : FAT32Driver) (d : Disk) : List Bytes → Option Listed → Prop
  | root : Leads drv d [] none
  | step {segments : List Bytes} {current : Option Listed} {segment : Bytes} {x : Listed} :
      Leads drv d segments current → drv.DirInTree d current →
      drv.find_at d (drv.resolved_of current).cluster segment = .ok x →
      Leads drv d (segments ++ [segment]) (some x)

theorem WellFormed.walk_leads (hm : drv.Mounted) (hw : drv.WellFormed d) {before : List Bytes}
    (hlead : drv.Leads d before current) (hdir : segments ≠ [] → drv.DirInTree d current)
    (h : drv.walk d current segments = .ok r) : drv.Leads d (before ++ segments) r := by
  induction segments generalizing current before with
  | nil =>
    cases h
    rwa [append_nil]
  | cons segment rest ih =>
    have hcur := hdir (cons_ne_nil _ _)
    obtain ⟨-, x, hf, -, hxdir, hrest⟩ := hw.walk_cons hm hcur h
    rw [append_cons]
    exact ih (.step hlead hcur hf) hxdir hrest

theorem WellFormed.leads_inj (hm : drv.Mounted) (hw : drv.WellFormed d)
    {s s' : List Bytes} {r' : Option Listed} (h : drv.Leads d s r)
    (h' : drv.Leads d s' r') (he : r.map Listed.location = r'.map Listed.location) :
    s = s' ∧ r = r' := by
  induction h generalizing s' r' with
  | root =>
    cases h' with
    | root => exact ⟨rfl, rfl⟩
    | step _ _ _ => cases he
  | @step segments current segment x hlead hdir hf ih =>
    cases h' with
    | root => cases he
    | @step segments' current' segment' x' hlead' hdir' hf' =>
      obtain ⟨h2, hname, hmem⟩ := find_at_mem hf
      obtain ⟨h2', hname', hmem'⟩ := find_at_mem hf'
      have hloc : x.location = x'.location := by simpa using he
      have hsame := hw.same_dir hm hdir hdir' h2 h2' hmem hmem' hloc
      obtain ⟨rfl, rfl⟩ := ih hlead' hsame
      obtain ⟨l, hl⟩ := hw.chains hdir.holder h2
      rw [hm.chain_of_eq hl] at hmem hmem'
      obtain rfl := hm.listed_inj hl hmem hmem' hloc
      exact ⟨by rw [← hname, ← hname'], rfl⟩

end

end FAT32Driver

end mini_kernel.fat32
