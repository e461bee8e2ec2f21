-- What the loops over a directory find, said without loops: a directory is a list of
-- slots, and the slots show a list of entries with their names. The laws: an entry is
-- read by its place in that list, and found by the first place that has its name.
import MiniKernel.Fat32.Layout

open mini_kernel.lib mini_kernel.vfs List

namespace mini_kernel.fat32

namespace FAT32Driver

section
variable {drv : FAT32Driver} {d d' : Disk} {c : Nat} {l : List Nat} {turns : Nat}

/-! ## The slots of a directory -/

/-- The clusters of the chain that starts at a cluster. -/
def ClusterChain (drv : FAT32Driver) (d : Disk) : Nat → List Nat → Prop :=
  Chain drv.IsCluster (fun v => is_end_of_chain v = true) (drv.read_fat_entry d)

def cluster_slots (drv : FAT32Driver) (d : Disk) (c : Nat) : List Slot :=
  (range drv.bpb.sectors_per_cluster).flatMap fun off =>
    drv.sector_slots c off (d (drv.sector_place c off))

def dir_slots (drv : FAT32Driver) (d : Disk) (l : List Nat) : List Slot :=
  l.flatMap (drv.cluster_slots d)

section
variable (hm : drv.Mounted)
include hm

theorem Mounted.mark_ne_cluster (x : Nat) (h : is_end_of_chain x) : ¬ drv.IsCluster x := by
  intro hx
  have h1 := hx.2
  have h2 := hm.limit_le
  have h3 : x ≥ 0x0FFFFFF8 := by simpa [is_end_of_chain] using h
  omega

theorem Mounted.cluster_not_mark (hc : drv.IsCluster c) :
    c ≥ 2 ∧ ¬ is_end_of_chain c := ⟨hc.1, fun h => hm.mark_ne_cluster c h hc⟩

/-- A chain has no more clusters than the volume. -/
theorem Mounted.chain_length (h : drv.ClusterChain d c l) : l.length ≤ drv.limit := by
  have hsub : l ⊆ range drv.limit := by
    intro x hx
    exact mem_range.mpr (h.node_of_mem x hx).2
  have := ((h.nodup hm.mark_ne_cluster).subperm hsub).length_le
  rwa [length_range] at this

theorem Mounted.entry_count_eq : drv.entry_count = 16 := by
  rw [entry_count, hm.bytes_per_sector]

theorem Mounted.length_dir_slots (l : List Nat) :
    (drv.dir_slots d l).length = l.length * (drv.bpb.sectors_per_cluster * 16) := by
  have hc : ∀ c, (drv.cluster_slots d c).length = drv.bpb.sectors_per_cluster * 16 := by
    intro c
    simp [cluster_slots, sector_slots, hm.entry_count_eq]
  simp [dir_slots, length_flatMap, hc]

end

theorem mem_dir_slots {slot : Slot} : slot ∈ drv.dir_slots d l ↔ slot.1.dir_cluster ∈ l ∧
      slot.1.sector_offset < drv.bpb.sectors_per_cluster ∧ slot.1.entry_index < drv.entry_count ∧
      slot.2 = slot_at (d (drv.sector_place slot.1.dir_cluster slot.1.sector_offset))
        slot.1.entry_index := by
  simp only [dir_slots, cluster_slots, sector_slots, mem_flatMap, mem_map, mem_range]
  constructor
  · rintro ⟨c, hc, off, ho, i, hi, rfl⟩
    exact ⟨hc, ho, hi, rfl⟩
  · rintro ⟨hc, ho, hi, he⟩
    exact ⟨_, hc, _, ho, _, hi, Prod.ext rfl he.symm⟩

variable {σ α : Type} {visit : σ → Slot → σ ⊕ VfsResult α} {s : σ}

theorem Mounted.scan_cluster_eq (hm : drv.Mounted) (hc : drv.IsCluster c) :
    drv.scan_cluster d visit s c = scan visit s (drv.cluster_slots d c) := by
  unfold scan_cluster cluster_slots
  rw [← scan_flatMap]
  apply scan_congr
  intro s off hoff
  rw [hm.read_cluster_sector_eq hc (mem_range.mp hoff)]

/-- The loop along a chain is one loop over the slots of the directory. -/
theorem Mounted.scan_directory_eq (hm : drv.Mounted) (h : drv.ClusterChain d c l) (ht : l.length < turns) :
    drv.scan_directory d visit turns s c = some (scan visit s (drv.dir_slots d l)) := by
  induction h generalizing s turns with
  | @last c hc hend =>
    obtain ⟨turns, rfl⟩ : ∃ t, turns = t + 2 := ⟨turns - 2, by simp at ht; omega⟩
    have hnext : drv.read_fat_entry d c ≠ c := fun he => hm.mark_ne_cluster _ hend (he.symm ▸ hc)
    rw [scan_directory, if_pos (hm.cluster_not_mark hc), hm.scan_cluster_eq hc]
    simp only [dir_slots, flatMap_cons, flatMap_nil, append_nil]
    cases hs : scan visit s (drv.cluster_slots d c) with
    | inr r => rfl
    | inl s' =>
      simp only
      rw [if_neg hnext, scan_directory, if_neg (by simp [hend])]
  | @cons c l hc hl ih =>
    obtain ⟨turns, rfl⟩ : ∃ t, turns = t + 1 := ⟨turns - 1, by simp at ht; omega⟩
    have hnext : drv.read_fat_entry d c ≠ c := (Chain.cons hc hl).next_ne hm.mark_ne_cluster
    rw [scan_directory, if_pos (hm.cluster_not_mark hc), hm.scan_cluster_eq hc]
    simp only [dir_slots, flatMap_cons, scan_append]
    cases hs : scan visit s (drv.cluster_slots d c) with
    | inr r => rfl
    | inl s' =>
      simp only
      rw [if_neg hnext]
      exact ih (by simp at ht; omega)

end

end FAT32Driver

/-! ## What the slots show -/

open FAT32Driver

/-- An entry with the name that the readers see. -/
structure Listed where
  location : Location
  entry : FAT32DirEntry
  name : Bytes
deriving DecidableEq

theorem entry_name_isSome (lfn : LfnState) (entry : FAT32DirEntry) :
    (lfn.entry_name entry VFS_NAME_MAX).isSome := by
  unfold LfnState.entry_name
  split
  · rfl
  have h8 : ((entry.name.take 8).takeWhile (· ≠ 0x20)).length ≤ 8 := by
    refine (takeWhile_sublist _).length_le.trans ?_
    rw [length_take]
    omega
  have h3 : ((entry.name.drop 8).takeWhile (· ≠ 0x20)).length ≤ 3 := by
    refine (takeWhile_sublist _).length_le.trans ?_
    rw [length_drop, FAT32DirEntry.name, length_take]
    omega
  unfold dir_entry_name VFS_NAME_MAX
  rw [if_neg (by decide)]
  simp only
  rw [if_pos]
  · rfl
  · split
    · rw [length_append, length_cons]
      omega
    · omega

/-- The name of a short entry. -/
def LfnState.shown_name (lfn : LfnState) (entry : FAT32DirEntry) : Bytes :=
  (lfn.entry_name entry VFS_NAME_MAX).getD []

theorem entry_name_eq (lfn : LfnState) (entry : FAT32DirEntry) :
    lfn.entry_name entry VFS_NAME_MAX = some (lfn.shown_name entry) := by
  have := entry_name_isSome lfn entry
  unfold LfnState.shown_name
  cases h : lfn.entry_name entry VFS_NAME_MAX with
  | none => simp [h] at this
  | some name => rfl

/-- The entries that a list of slots shows. -/
def listing : LfnState → List Slot → List Listed
  | _, [] => []
  | lfn, slot :: rest =>
    match slot_kind slot.2 with
    | .end_mark => []
    | .shown => ⟨slot.1, slot.2, lfn.shown_name slot.2⟩ :: listing (lfn.after slot.2) rest
    | _ => listing (lfn.after slot.2) rest

theorem length_listing_le (lfn : LfnState) (slots : List Slot) :
    (listing lfn slots).length ≤ slots.length := by
  induction slots generalizing lfn with
  | nil => exact Nat.le_refl _
  | cons slot rest ih =>
    unfold listing
    split
    · exact Nat.zero_le _
    · exact Nat.succ_le_succ (ih _)
    · exact (ih _).trans (Nat.le_succ _)

/-- The loop that counts the entries stops at the one with the number. -/
theorem scan_visit_index {i seen : Nat} (h : seen ≤ i) (lfn : LfnState) (slots : List Slot) :
    outcome (.ok none) (scan (visit_index i VFS_NAME_MAX) (seen, lfn) slots) =
      .ok ((listing lfn slots)[i - seen]?.map fun x => (x.entry, x.name)) := by
  induction slots generalizing seen lfn with
  | nil => rfl
  | cons slot rest ih =>
    rw [scan, listing, visit_index]
    cases hk : slot_kind slot.2 with
    | end_mark => rfl
    | shown =>
      simp only
      by_cases he : seen = i
      · subst he
        rw [if_pos rfl, entry_name_eq, Nat.sub_self]
        rfl
      · rw [if_neg he, show i - seen = (i - (seen + 1)) + 1 by omega, getElem?_cons_succ]
        exact ih (by omega) _
    | free => exact ih h _
    | long_name => exact ih h _
    | hidden => exact ih h _

/-- The loop that looks for a name stops at the first entry that has it. -/
theorem scan_visit_name (segment : Bytes) (lfn : LfnState) (slots : List Slot) :
    outcome (.error .not_found) (scan (visit_name segment) lfn slots) =
      match (listing lfn slots).find? (·.name = segment) with
      | some x => .ok (x.location, x.entry)
      | none => .error .not_found := by
  induction slots generalizing lfn with
  | nil => rfl
  | cons slot rest ih =>
    rw [scan, listing, visit_name]
    cases hk : slot_kind slot.2 with
    | end_mark => rfl
    | shown =>
      simp only
      rw [entry_name_eq]
      by_cases he : lfn.shown_name slot.2 = segment
      · simp [he, outcome]
      · simp only [he, if_false, find?_cons, decide_false]
        exact ih _
    | free => exact ih _
    | long_name => exact ih _
    | hidden => exact ih _

namespace FAT32Driver

section
variable {drv : FAT32Driver} {d d' : Disk} {c : Nat} {l : List Nat} {turns : Nat}
  {stack : Memory} {segment : Bytes}

/-- The entries of the directory on the clusters, as they are read with a stack. -/
def dir_listing (drv : FAT32Driver) (stack : Memory) (d : Disk) (l : List Nat) : List Listed :=
  listing (.start stack) (drv.dir_slots d l)

/-- The entries of the directory, as they are read with a clean stack. -/
def entries (drv : FAT32Driver) (d : Disk) (l : List Nat) : List Listed :=
  drv.dir_listing (fun _ => 0) d l

/-- More turns than any loop over a directory can take. -/
def Enough (drv : FAT32Driver) (turns : Nat) : Prop :=
  drv.limit * (drv.bpb.sectors_per_cluster * 16) < turns

section
variable (hm : drv.Mounted)
include hm

theorem Mounted.limit_turns (ht : drv.Enough turns) : drv.limit < turns := by
  have hspc := hm.sectors_per_cluster
  have h1 : drv.limit * 1 ≤ drv.limit * (drv.bpb.sectors_per_cluster * 16) :=
    Nat.mul_le_mul_left _ (by omega)
  unfold Enough at ht
  omega

section
variable (h : drv.ClusterChain d c l) (ht : drv.Enough turns)
include h ht

theorem Mounted.chain_turns : l.length < turns :=
  (hm.chain_length h).trans_lt (hm.limit_turns ht)

theorem Mounted.listing_turns (stack : Memory) : (drv.dir_listing stack d l).length < turns := by
  have hmul : l.length * (drv.bpb.sectors_per_cluster * 16) ≤
      drv.limit * (drv.bpb.sectors_per_cluster * 16) :=
    Nat.mul_le_mul_right _ (hm.chain_length h)
  have hle := length_listing_le (.start stack) (drv.dir_slots d l)
  rw [hm.length_dir_slots] at hle
  unfold Enough at ht
  unfold dir_listing
  omega

/-- An entry is read by its place in the listing. -/
theorem Mounted.read_dir_entry_internal_eq (i : Nat) :
    drv.read_dir_entry_internal stack turns d c i VFS_NAME_MAX =
      some (.ok ((drv.dir_listing stack d l)[i]?.map fun x => (x.entry, x.name))) := by
  have hc := (h.node_of_mem c h.head_mem).1
  rw [read_dir_entry_internal, if_neg (by simp [hm.initialized]; omega),
    hm.scan_directory_eq h (hm.chain_turns h ht), Option.map_some,
    scan_visit_index (Nat.zero_le _)]
  rfl

end

end

/-- The first entry of the directory with a name. -/
def lookup (drv : FAT32Driver) (d : Disk) (l : List Nat) (segment : Bytes) : Option Listed :=
  (drv.entries d l).find? (·.name = segment)

section
variable (hm : drv.Mounted) (h : drv.ClusterChain d c l) (ht : drv.Enough turns)
include hm h ht

section
variable {stack : Nat → Memory} {xs : List Listed} (hxs : ∀ i, drv.dir_listing (stack i) d l = xs)
include hxs

/-- Each entry is read with a stack of its own. As long as the entries do not depend on it, the
search ends where the list says. -/
theorem Mounted.find_from_eq {left index : Nat} (hindex : index ≤ xs.length) (hleft : xs.length < left + index) :
    drv.find_from stack turns d c segment left index =
      some (match (xs.drop index).find? (·.name = segment) with
        | some x => .ok x.entry
        | none => .error .not_found) := by
  induction left generalizing index with
  | zero => omega
  | succ left ih =>
    rw [find_from, hm.read_dir_entry_internal_eq h ht, hxs index]
    rcases Nat.lt_or_ge index xs.length with hlt | hge
    · rw [getElem?_eq_getElem hlt, drop_eq_getElem_cons hlt, Option.map_some, find?_cons]
      by_cases he : xs[index].name = segment
      · simp [he]
      · simp only [he, if_false, decide_false]
        exact ih (by omega) (by omega)
    · rw [drop_of_length_le hge, getElem?_eq_none hge]
      rfl

/-- An entry is found at the first place with its name. -/
theorem Mounted.find_in_directory_eq (hs : segment ≠ []) :
    drv.find_in_directory stack turns d c segment =
      some (match xs.find? (·.name = segment) with
        | some x => .ok x.entry
        | none => .error .not_found) := by
  have hlen := hm.listing_turns h ht (stack 0)
  rw [hxs 0] at hlen
  rw [find_in_directory, if_neg hs, hm.find_from_eq h ht hxs (Nat.zero_le _) hlen]
  rfl

end

theorem Mounted.find_with_location_eq (hs : segment ≠ []) :
    drv.find_in_directory_with_location stack turns d c segment =
      some (match (drv.dir_listing stack d l).find? (·.name = segment) with
        | some x => .ok (x.location, x.entry)
        | none => .error .not_found) := by
  rw [find_in_directory_with_location, if_neg hs,
    hm.scan_directory_eq h (hm.chain_turns h ht), Option.map_some, scan_visit_name]
  rfl

end

end

end FAT32Driver

end mini_kernel.fat32
