-- Writing one slot of a directory: what the new entry says, what becomes of the other
-- slots of its sector, and what the directory lists then. An entry that is written
-- over keeps its name, also if it has a long one.
import MiniKernel.Fat32.Shows
import MiniKernel.Fat32.Clusters

open mini_kernel.lib mini_kernel.vfs List

namespace mini_kernel.fat32

open FAT32Driver

/-! ## The entry of a file -/

/-- The entry that `write_file_path` writes. -/
def file_entry (name83 : Bytes) (h : name83.length = 11) (first_cluster size : Nat) :
    FAT32DirEntry :=
  ⟨new_entry name83 0x20 first_cluster size, by simp [new_entry, h]⟩

section
variable {name83 : Bytes} {h : name83.length = 11} {first_cluster size : Nat}

theorem file_entry_name : (file_entry name83 h first_cluster size).name = name83 := by
  simp only [FAT32DirEntry.name, file_entry, new_entry, append_assoc]
  rw [← h, take_left]

theorem file_entry_char {i : Nat} (hi : i < 11) :
    (file_entry name83 h first_cluster size).char i = name83.getD i 0 := by
  simp only [FAT32DirEntry.char, file_entry, new_entry, append_assoc]
  exact getD_append _ _ _ _ (by omega)

theorem file_entry_attributes : (file_entry name83 h first_cluster size).attributes = 0x20 := by
  simp only [FAT32DirEntry.attributes, file_entry, new_entry, append_assoc]
  rw [getD_append_right _ _ _ _ (by omega), h]
  rfl

theorem file_entry_is_dir : (file_entry name83 h first_cluster size).is_dir = false := by
  rw [FAT32DirEntry.is_dir, file_entry_attributes]
  rfl

theorem file_entry_size (hs : size < 2 ^ 32) : (file_entry name83 h first_cluster size).file_size = size := by
  have hlen : (name83 ++ (0x20 : UInt8) :: replicate 8 0 ++ leBytes (first_cluster / 2 ^ 16) 2 ++
      replicate 4 0 ++ leBytes first_cluster 2).length = 28 := by simp [h]
  simp only [FAT32DirEntry.file_size, file_entry, new_entry]
  have := leAt_append_right (name83 ++ (0x20 : UInt8) :: replicate 8 0 ++
    leBytes (first_cluster / 2 ^ 16) 2 ++ replicate 4 0 ++ leBytes first_cluster 2)
    (leBytes size 4) 0 4
  rw [hlen] at this
  rw [this, leAt_leBytes]
  exact Nat.mod_eq_of_lt hs

theorem file_entry_cluster (hc : first_cluster < 2 ^ 32) :
    dir_entry_cluster (file_entry name83 h first_cluster size) = first_cluster := by
  have hhigh : (file_entry name83 h first_cluster size).first_cluster_high =
      first_cluster / 2 ^ 16 % 256 ^ 2 := by
    have hlen : (name83 ++ (0x20 : UInt8) :: replicate 8 0).length = 20 := by simp [h]
    have := leAt_append_right (name83 ++ (0x20 : UInt8) :: replicate 8 0)
      (leBytes (first_cluster / 2 ^ 16) 2) 0 2
    rw [hlen] at this
    simp only [FAT32DirEntry.first_cluster_high, file_entry, new_entry]
    rw [leAt_append_left _ _ (by simp [h]), leAt_append_left _ _ (by simp [h]),
      leAt_append_left _ _ (by simp [h]), this, leAt_leBytes]
  have hlow : (file_entry name83 h first_cluster size).first_cluster_low =
      first_cluster % 256 ^ 2 := by
    have hlen : (name83 ++ (0x20 : UInt8) :: replicate 8 0 ++
        leBytes (first_cluster / 2 ^ 16) 2 ++ replicate 4 0).length = 26 := by simp [h]
    have := leAt_append_right (name83 ++ (0x20 : UInt8) :: replicate 8 0 ++
      leBytes (first_cluster / 2 ^ 16) 2 ++ replicate 4 0) (leBytes first_cluster 2) 0 2
    rw [hlen] at this
    simp only [FAT32DirEntry.first_cluster_low, file_entry, new_entry]
    rw [leAt_append_left _ _ (by simp [h]), this, leAt_leBytes]
  rw [dir_entry_cluster, hhigh, hlow]
  omega

end

/-! ## What is shown depends on the name and the attributes -/

theorem char_eq_name (entry : FAT32DirEntry) {i : Nat} (hi : i < 11) :
    entry.char i = entry.name.getD i 0 := by
  simp [FAT32DirEntry.char, FAT32DirEntry.name, getD_eq_getElem?_getD, getElem?_take_of_lt hi]

theorem length_name (entry : FAT32DirEntry) : entry.name.length = 11 := by
  rw [FAT32DirEntry.name, length_take, entry.length]
  rfl

theorem dot_name_congr {e e' : FAT32DirEntry} (h : e'.name = e.name) :
    fat32_is_dot_name e' = fat32_is_dot_name e := by
  unfold fat32_is_dot_name
  rw [char_eq_name e' (by decide), char_eq_name e' (by decide), char_eq_name e' (by decide),
    char_eq_name e (by decide), char_eq_name e (by decide), char_eq_name e (by decide), h]

theorem shown_name_congr (lfn : LfnState) {e e' : FAT32DirEntry} (h : e'.name = e.name) :
    lfn.shown_name e' = lfn.shown_name e := by
  unfold LfnState.shown_name LfnState.entry_name dir_entry_name
  rw [h]

variable {e : FAT32DirEntry}

/-- A plain file with a name that may be shown is shown. -/
theorem slot_kind_file (h0 : e.char 0 ≠ 0x00) (hfree : e.char 0 ≠ 0xE5)
    (hattr : e.attributes = 0x20) (hdot : fat32_is_dot_name e = false) : slot_kind e = .shown := by
  rw [slot_kind, if_neg h0, if_neg hfree, hattr, if_neg (by decide), if_neg]
  rw [hdot]
  decide

theorem slot_kind_shown (h : slot_kind e = .shown) :
    e.char 0 ≠ 0x00 ∧ e.char 0 ≠ 0xE5 ∧ fat32_is_dot_name e = false := by
  unfold slot_kind at h
  split_ifs at h with h0 hfree _ hnot
  rw [not_or] at hnot
  exact ⟨h0, hfree, by simpa using hnot.2⟩

/-- The new entry of a file that was shown is shown. -/
theorem file_entry_shown {x : FAT32DirEntry} (hx : slot_kind x = .shown) {first_cluster size : Nat} :
    slot_kind (file_entry x.name (length_name x) first_cluster size) = .shown := by
  obtain ⟨h0, hfree, hdot⟩ := slot_kind_shown hx
  refine slot_kind_file ?_ ?_ file_entry_attributes ?_
  · rwa [file_entry_char (by decide), ← char_eq_name x (by decide)]
  · rwa [file_entry_char (by decide), ← char_eq_name x (by decide)]
  · rwa [dot_name_congr file_entry_name]

/-! ## One slot of a sector -/

section
variable {sector : Sector} {e : FAT32DirEntry} {i j : Nat}

theorem slot_at_put_slots :
    slot_at (put_slots sector i e.bytes) j = if j = i then e else slot_at sector j := by
  have hlen := e.length
  by_cases hj : j = i
  · subst hj
    rw [if_pos rfl]
    have : load (store sector (32 * j) e.bytes) (32 * j) e.bytes.length = e.bytes := load_store
    rw [hlen] at this
    simp only [slot_at, put_slots, this]
  · rw [if_neg hj]
    simp only [slot_at, put_slots]
    congr 1
    rcases Nat.lt_or_gt_of_ne hj with hlt | hgt
    · exact load_store_before (by omega)
    · exact load_store_after (by omega)

theorem put_slots_self : put_slots sector i (slot_at sector i).bytes = sector := by
  funext j
  simp only [put_slots, store, slot_at, load]
  split
  · by_cases hj : j - 32 * i < 32
    · rw [getD_eq_getElem _ _ (by simpa using hj)]
      simp only [getElem_map, getElem_range]
      congr 1
      omega
    · rw [getD_eq_default _ _ (by simpa using hj)]
  · rfl

end

/-! ## Swapping an entry -/

/-- The slot at a place has another entry. -/
def swap_slot (at_ : Location) (e : FAT32DirEntry) (slot : Slot) :
    Slot :=
  if slot.1 = at_ then (slot.1, e) else slot

/-- The entry at a place is another one, under the same name. -/
def swap_entry (at_ : Location) (e : FAT32DirEntry) (x : Listed) : Listed :=
  if x.location = at_ then { x with entry := e } else x

theorem swap_entry_name (at_ : Location) (e : FAT32DirEntry) (x : Listed) :
    (swap_entry at_ e x).name = x.name := by
  unfold swap_entry
  split <;> rfl

/-- A swap with the same name shows in the listing as a swap, and nowhere else. -/
theorem listing_swap {at_ : Location} (he : slot_kind e = .shown) (lfn : LfnState) {slots : List Slot}
    (hs : ∀ slot ∈ slots, slot.1 = at_ → slot_kind slot.2 = .shown ∧ e.name = slot.2.name) :
    listing lfn (slots.map (swap_slot at_ e)) = (listing lfn slots).map (swap_entry at_ e) := by
  induction slots generalizing lfn with
  | nil => rfl
  | cons slot rest ih =>
    have hrest := fun lfn => ih lfn (forall_mem_cons.mp hs).2
    rw [map_cons, listing, listing]
    by_cases hat : slot.1 = at_
    · obtain ⟨hk, hname⟩ := hs slot mem_cons_self hat
      have hswap : swap_slot at_ e slot = (slot.1, e) := if_pos hat
      have hafter : lfn.after e = lfn.after slot.2 := by
        unfold LfnState.after
        rw [he, hk]
      rw [hswap]
      simp only [he, hk, map_cons, hrest, hafter, shown_name_congr lfn hname]
      rw [swap_entry, if_pos hat]
    · have hswap : swap_slot at_ e slot = slot := if_neg hat
      rw [hswap]
      cases hk : slot_kind slot.2 with
      | end_mark => rfl
      | shown =>
        simp only [map_cons, hrest]
        rw [swap_entry, if_neg hat]
      | free => exact hrest _
      | long_name => exact hrest _
      | hidden => exact hrest _

namespace FAT32Driver

section
variable {drv : FAT32Driver} {d d' : Disk} {l : List Nat} {at_ : Location} {e : FAT32DirEntry}

/-- The slots of a directory when one sector has a slot changed. -/
theorem dir_slots_put (h : ∀ c ∈ l, ∀ off < drv.bpb.sectors_per_cluster, d' (drv.sector_place c off) =
      if c = at_.dir_cluster ∧ off = at_.sector_offset then
        put_slots (d (drv.sector_place c off)) at_.entry_index e.bytes
      else d (drv.sector_place c off)) : drv.dir_slots d' l = (drv.dir_slots d l).map (swap_slot at_ e) := by
  unfold dir_slots cluster_slots sector_slots
  rw [map_flatMap]
  apply flatMap_congr
  intro c hc
  rw [map_flatMap]
  apply flatMap_congr
  intro off ho
  rw [map_map, h c hc off (mem_range.mp ho)]
  apply map_congr_left
  intro i _
  simp only [Function.comp, swap_slot]
  by_cases hco : c = at_.dir_cluster ∧ off = at_.sector_offset
  · rw [if_pos hco, slot_at_put_slots]
    obtain ⟨rfl, rfl⟩ := hco
    by_cases hi : i = at_.entry_index
    · rw [if_pos hi, if_pos (by rw [hi])]
    · rw [if_neg hi, if_neg]
      intro he
      exact hi (by rw [← he])
  · rw [if_neg hco, if_neg]
    intro he
    exact hco (by rw [← he]; exact ⟨rfl, rfl⟩)

/-- The entry of a file that was written has the bytes, as long as its clusters are left alone. -/
theorem Written.file (hm : drv.Mounted) {d₀ : Disk} {buffer : Bytes} {first : Nat}
    (hw : drv.Written d₀ buffer first l d) (hsize : buffer.length < 2 ^ 32)
    (hfat : ∀ x ∈ l, drv.read_fat_entry d' x = drv.read_fat_entry d x)
    (hdata : ∀ x ∈ l, ∀ off < drv.bpb.sectors_per_cluster,
      d' (drv.sector_place x off) = d (drv.sector_place x off))
    {name83 : Bytes} (hlen : name83.length = 11) (he : e = file_entry name83 hlen first buffer.length) :
    (2 ≤ dir_entry_cluster e → ∃ l, drv.ClusterChain d' (dir_entry_cluster e) l) ∧
      e.file_size = buffer.length ∧ drv.contents d' e = .ok buffer := by
  have hfirst : first < 2 ^ 32 := by
    rcases hw.chain with ⟨-, rfl⟩ | hch
    · decide
    · have h1 := (hch.node_of_mem _ hch.head_mem).2
      have h2 := hm.limit_le
      omega
  have hcluster : dir_entry_cluster e = first := he ▸ file_entry_cluster hfirst
  have hesize : e.file_size = buffer.length := he ▸ file_entry_size hsize
  have hbytes : drv.chain_bytes d' (drv.chain_of d' first) = drv.chain_bytes d l := by
    rcases hw.chain with ⟨rfl, rfl⟩ | hch
    · rw [chain_of_small (by decide), chain_bytes_nil, chain_bytes_nil]
    · rw [hm.chain_of_eq (hch.congr hfat)]
      exact chain_bytes_congr hdata
  refine ⟨?_, hesize, ?_⟩
  · rw [hcluster]
    intro h2
    rcases hw.chain with ⟨-, rfl⟩ | hch
    · exact absurd h2 (by decide)
    · exact ⟨l, hch.congr hfat⟩
  · unfold contents
    simp only [hcluster, hbytes, hesize]
    rw [if_pos hw.room, hw.bytes]

end

end FAT32Driver

end mini_kernel.fat32
