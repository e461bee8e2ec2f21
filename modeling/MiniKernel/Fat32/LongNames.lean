-- The law of long names: what the writer spreads over the slots, the reader puts together
-- again, unless the name fills its last slot. Such a name has no end mark, and the
-- reader runs on into what the buffer held before.
import MiniKernel.Lib.Word
import MiniKernel.Fat32.Names

open mini_kernel.lib List Function

namespace mini_kernel.fat32

section
variable {long_name : Bytes} {buffer : Memory} {checksum : UInt8}

/-! ## One slot -/

theorem lfn_chars_succ (pos n : Nat) : lfn_chars long_name pos (n + 1) =
    lfn_char long_name pos :: lfn_chars long_name (pos + 1) n := by
  unfold lfn_chars
  rw [Nat.add_comm n 1, load_add]
  rfl

theorem lfn_char_lt (pos : Nat) : lfn_char long_name pos < 2 ^ 16 := by
  unfold lfn_char
  split
  · exact lt_trans (UInt8.toNat_lt _) (by decide)
  · split <;> decide

/-- A run of characters lands at its place; behind the end mark nothing is written. -/
theorem append_chunk_chars (hnz : ∀ c ∈ long_name, c ≠ 0) {capacity : Nat}
    (hfit : long_name.length < capacity) (pos n : Nat) :
    fat32_lfn_append_chunk buffer capacity (lfn_chars long_name pos n) pos =
      fun i => if pos ≤ i ∧ i < pos + n ∧ i ≤ long_name.length then long_name.getD i 0
        else buffer i := by
  induction n generalizing pos buffer with
  | zero =>
    funext i
    rw [if_neg (by omega)]
    rfl
  | succ n ih =>
    rw [lfn_chars_succ, fat32_lfn_append_chunk]
    rcases Nat.lt_trichotomy pos long_name.length with hlt | heq | hgt
    · have hmem : long_name.getD pos 0 ≠ 0 := by
        rw [getD_eq_getElem _ _ hlt]
        exact hnz _ (getElem_mem hlt)
      have hchar : lfn_char long_name pos = (long_name.getD pos 0).toNat := if_pos hlt
      have hbyte := (long_name.getD pos 0).toNat_lt
      have hne : (long_name.getD pos 0).toNat ≠ 0 := fun h => hmem (UInt8.toNat_inj.mp h)
      rw [hchar, if_neg hne, if_neg (by omega),
        if_neg (by omega), ih]
      funext i
      by_cases hi : i = pos
      · subst hi
        rw [if_neg (by omega), if_pos (by omega), update_self, UInt8.ofNat_toNat]
      · rw [update_of_ne hi]
        by_cases h : pos + 1 ≤ i ∧ i < pos + 1 + n ∧ i ≤ long_name.length
        · rw [if_pos h, if_pos (by omega)]
        · rw [if_neg h, if_neg (by omega)]
    · have hchar : lfn_char long_name pos = 0 := by simp [lfn_char, heq]
      rw [hchar, if_pos rfl, if_pos (by omega)]
      funext i
      by_cases hi : i = pos
      · subst hi
        rw [update_self, if_pos (by omega), getD_eq_default _ _ (by omega)]
      · rw [update_of_ne hi, if_neg (by omega)]
    · have hchar : lfn_char long_name pos = 0xFFFF := by
        rw [lfn_char, if_neg (by omega), if_neg (by omega)]
      rw [hchar, if_neg (by decide), if_pos rfl]
      funext i
      rw [if_neg (by omega)]

theorem chars_at_flatMap (front back : Bytes) (chars : List Nat) (h : ∀ c ∈ chars, c < 2 ^ 16) :
    chars_at (front ++ chars.flatMap (leBytes · 2) ++ back) front.length chars.length = chars := by
  induction chars generalizing front with
  | nil => rfl
  | cons c chars ih =>
    have hc : leAt (front ++ (c :: chars).flatMap (leBytes · 2) ++ back) front.length 2 = c := by
      rw [flatMap_cons, append_assoc, append_assoc]
      have := leAt_append_right front (leBytes c 2 ++ (chars.flatMap (leBytes · 2) ++ back)) 0 2
      rw [Nat.add_zero] at this
      rw [this, leAt_append_left _ _ (by simp), leAt_leBytes]
      exact Nat.mod_eq_of_lt (h c mem_cons_self)
    have hrest := ih (front ++ leBytes c 2) (forall_mem_cons.mp h).2
    rw [length_append, length_leBytes] at hrest
    rw [length_cons, chars_at, hc]
    simp only [flatMap_cons, ← append_assoc]
    rw [hrest]

theorem getD_behind {bytes : Bytes} {x : UInt8} {i : Nat} (front back : Bytes)
    (h : bytes = front ++ x :: back) (hi : front.length = i) : bytes.getD i 0 = x := by
  subst hi h
  rw [getD_append_right _ _ _ _ (Nat.le_refl _), Nat.sub_self]
  rfl

theorem chars_at_behind {bytes : Bytes} {chars : List Nat} {i n : Nat}
    (front back : Bytes) (h : bytes = front ++ chars.flatMap (leBytes · 2) ++ back)
    (hi : front.length = i) (hn : chars.length = n) (hchars : ∀ c ∈ chars, c < 2 ^ 16) :
    chars_at bytes i n = chars := by
  subst hi hn h
  exact chars_at_flatMap front back chars hchars

variable {entry : FAT32DirEntry} {k : Nat}

/-- A slot is read back from its bytes. -/
theorem lfn_of_bytes {lfn : FAT32LFNEntry} (h : entry.bytes = lfn.bytes)
    (h1 : lfn.name1.length = 5) (h2 : lfn.name2.length = 6) (h3 : lfn.name3.length = 2)
    (hlow : lfn.first_cluster_low = 0)
    (hchars : ∀ c ∈ lfn.name1 ++ lfn.name2 ++ lfn.name3, c < 2 ^ 16) : entry.lfn = lfn := by
  obtain ⟨order, name1, attributes, entry_type, checksum, name2, low, name3⟩ := lfn
  simp only [mem_append] at h1 h2 h3 hlow hchars
  subst hlow
  rw [FAT32LFNEntry.bytes] at h
  have hlen : ∀ chars : List Nat, (chars.flatMap (leBytes · 2)).length = 2 * chars.length := by
    intro chars
    simp [Nat.mul_comm]
  -- the bytes in front of the fields
  generalize hc2 : name2.flatMap (leBytes · 2) = chars2 at h
  generalize hc3 : name3.flatMap (leBytes · 2) = chars3 at h
  generalize hc1 : name1.flatMap (leBytes · 2) = chars1 at h
  have hl1 : chars1.length = 10 := by rw [← hc1, hlen, h1]
  have hl2 : chars2.length = 12 := by rw [← hc2, hlen, h2]
  rw [FAT32DirEntry.lfn, FAT32LFNEntry.mk.injEq]
  refine ⟨?_, ?_, ?_, ?_, ?_, ?_, ?_, ?_⟩
  · exact getD_behind [] _ h rfl
  · refine chars_at_behind [order] (attributes :: entry_type :: checksum :: chars2 ++
      leBytes 0 2 ++ chars3) ?_ rfl h1 fun c hc => hchars c (.inl (.inl hc))
    rw [h, hc1]
    simp
  · exact getD_behind (order :: chars1) (entry_type :: checksum :: chars2 ++ leBytes 0 2 ++ chars3)
      (by rw [h]; simp) (by simp [hl1])
  · exact getD_behind (order :: chars1 ++ [attributes]) (checksum :: chars2 ++ leBytes 0 2 ++ chars3)
      (by rw [h]; simp) (by simp [hl1])
  · exact getD_behind (order :: chars1 ++ [attributes, entry_type]) (chars2 ++ leBytes 0 2 ++ chars3)
      (by rw [h]; simp) (by simp [hl1])
  · refine chars_at_behind (order :: chars1 ++ [attributes, entry_type, checksum])
      (leBytes 0 2 ++ chars3) ?_ (by simp [hl1]) h2 fun c hc => hchars c (.inl (.inr hc))
    rw [h, hc2]
    simp
  · have hfront : (order :: chars1 ++ [attributes, entry_type, checksum] ++ chars2).length = 26 := by
      simp [hl1, hl2]
    have := leAt_append_right (order :: chars1 ++ [attributes, entry_type, checksum] ++ chars2)
      (leBytes 0 2 ++ chars3) 0 2
    rw [hfront, ← append_assoc, ← h] at this
    calc leAt entry.bytes 26 2 = leAt (leBytes 0 2 ++ chars3) 0 2 := this
      _ = leAt (leBytes 0 2) 0 2 := leAt_append_left _ _ (by simp)
      _ = 0 := leAt_leBytes 0 2
  · refine chars_at_behind (order :: chars1 ++ [attributes, entry_type, checksum] ++ chars2 ++
      leBytes 0 2) [] ?_ (by simp [hl1, hl2]) h3 fun c hc => hchars c (.inr hc)
    rw [h, hc3]
    simp

/-- The slot as it is read from the directory is the one that was made. -/
theorem lfn_of_made (chunk_index chunk_count : Nat)
    (h : entry.bytes = (fat32_make_lfn_entry long_name chunk_index chunk_count checksum).bytes) :
    entry.lfn = fat32_make_lfn_entry long_name chunk_index chunk_count checksum := by
  apply lfn_of_bytes h
  · exact length_load
  · exact length_load
  · exact length_load
  · rfl
  · intro c hc
    simp only [fat32_make_lfn_entry, lfn_chars, load, mem_append, mem_map] at hc
    rcases hc with (⟨i, -, rfl⟩ | ⟨i, -, rfl⟩) | ⟨i, -, rfl⟩ <;> exact lfn_char_lt _

/-- The order byte of a slot that is not the last part. -/
theorem order_small (h : k < 5) :
    UInt8.ofNat (k + 1) ≠ 0 ∧ UInt8.ofNat (k + 1) ≠ 0xE5 ∧ UInt8.ofNat (k + 1) &&& 0x40 = 0 ∧
      (UInt8.ofNat (k + 1) &&& 0x1F).toNat = k + 1 := by
  interval_cases k <;> decide

/-- The order byte of the last part. -/
theorem order_last (h : k < 5) :
    UInt8.ofNat (k + 1) ||| 0x40 ≠ 0 ∧ UInt8.ofNat (k + 1) ||| 0x40 ≠ 0xE5 ∧
      (UInt8.ofNat (k + 1) ||| 0x40) &&& 0x40 ≠ 0 ∧
      ((UInt8.ofNat (k + 1) ||| 0x40) &&& 0x1F).toNat = k + 1 := by
  interval_cases k <;> decide

theorem made_order (long_name : Bytes) (checksum : UInt8) (count : Nat) (h : k < 5) :
    let order := (fat32_make_lfn_entry long_name k count checksum).order
    order ≠ 0 ∧ order ≠ 0xE5 ∧ (order &&& 0x40 ≠ 0 ↔ k + 1 = count) ∧
      (order &&& 0x1F).toNat = k + 1 := by
  show UInt8.ofNat (k + 1) ||| (if k + 1 = count then 0x40 else 0) ≠ 0 ∧ _
  simp only [fat32_make_lfn_entry]
  split
  · obtain ⟨h0, h5, h40, h1f⟩ := order_last h
    exact ⟨h0, h5, ⟨fun _ => ‹_›, fun _ => h40⟩, h1f⟩
  · rw [UInt8.or_zero]
    obtain ⟨h0, h5, h40, h1f⟩ := order_small h
    exact ⟨h0, h5, ⟨fun h' => absurd h40 h', fun h' => absurd h' ‹_›⟩, h1f⟩

/-- A slot of a long name puts its characters in their place. -/
theorem collect_made (hnz : ∀ c ∈ long_name, c ≠ 0) (hfit : long_name.length < VFS_NAME_MAX)
    {count : Nat} (hk : k < 5) :
    fat32_lfn_collect buffer VFS_NAME_MAX (fat32_make_lfn_entry long_name k count checksum) =
      fun i => if 13 * k ≤ i ∧ i < 13 * k + 13 ∧ i ≤ long_name.length then long_name.getD i 0
        else buffer i := by
  obtain ⟨-, -, -, horder⟩ := made_order long_name checksum count hk
  unfold fat32_lfn_collect
  rw [horder, if_neg (by omega)]
  simp only [fat32_make_lfn_entry, Nat.add_sub_cancel, append_chunk_chars hnz hfit]
  funext i
  by_cases h : 13 * k ≤ i ∧ i < 13 * k + 13 ∧ i ≤ long_name.length
  · rw [if_pos h]
    split_ifs <;> first | rfl | omega
  · rw [if_neg h, if_neg (by omega), if_neg (by omega), if_neg (by omega)]

/-! ## All slots of a name -/

/-- The buffer when the parts from `k` on have been collected. -/
def collected (long_name : Bytes) (buffer : Memory) (k : Nat) : Memory :=
  fun i => if 13 * k ≤ i ∧ i < 13 * fat32_lfn_slot_count long_name ∧ i ≤ long_name.length then
      long_name.getD i 0
    else buffer i

theorem slot_count_le (hfit : long_name.length < VFS_NAME_MAX) : fat32_lfn_slot_count long_name ≤ 5 := by
  unfold fat32_lfn_slot_count VFS_NAME_MAX at *
  omega

theorem collect_collected (hnz : ∀ c ∈ long_name, c ≠ 0) (hfit : long_name.length < VFS_NAME_MAX)
    (hk : k < fat32_lfn_slot_count long_name) :
    fat32_lfn_collect (collected long_name buffer (k + 1)) VFS_NAME_MAX
      (fat32_make_lfn_entry long_name k (fat32_lfn_slot_count long_name) checksum) =
      collected long_name buffer k := by
  have := slot_count_le hfit
  rw [collect_made hnz hfit (by omega)]
  funext i
  unfold collected
  split_ifs <;> first | rfl | omega

/-- A slot of a long name is collected; the last part starts the name anew. -/
theorem after_made (hfit : long_name.length < VFS_NAME_MAX) (hk : k < fat32_lfn_slot_count long_name)
    (h : entry.bytes =
      (fat32_make_lfn_entry long_name k (fat32_lfn_slot_count long_name) checksum).bytes)
    (lfn : LfnState) (hlfn : k + 1 = fat32_lfn_slot_count long_name ∨
      lfn.lfn_active ∧ lfn.lfn_checksum = checksum) :
    lfn.after entry =
      let buffer := if k + 1 = fat32_lfn_slot_count long_name then fat32_lfn_reset lfn.lfn_name
        else lfn.lfn_name
      ⟨fat32_lfn_collect buffer VFS_NAME_MAX
        (fat32_make_lfn_entry long_name k (fat32_lfn_slot_count long_name) checksum),
        true, checksum⟩ := by
  have := slot_count_le hfit
  have hslot := lfn_of_made k _ h
  obtain ⟨h0, h5, h40, -⟩ := made_order long_name checksum (fat32_lfn_slot_count long_name)
    (k := k) (by omega)
  have hkind : slot_kind entry = .long_name := by
    have hattributes : entry.attributes = 0x0F := congrArg FAT32LFNEntry.attributes hslot
    have horder : entry.char 0 = _ := congrArg FAT32LFNEntry.order hslot
    unfold slot_kind
    rw [horder, if_neg h0, if_neg h5, if_pos hattributes]
  rw [LfnState.after, hkind]
  simp only [LfnState.collect, hslot]
  by_cases hlast : k + 1 = fat32_lfn_slot_count long_name
  · rw [if_pos (.inl (h40.mpr hlast)), if_pos hlast]
    rfl
  obtain ⟨hactive, hchecksum⟩ := hlfn.resolve_left hlast
  rw [if_neg, if_neg hlast, hactive, hchecksum]
  rintro (h | h | h)
  · exact hlast (h40.mp h)
  · exact h hactive
  · exact h hchecksum.symm

theorem collected_all : collected long_name buffer (fat32_lfn_slot_count long_name) = buffer := by
  funext i
  rw [collected, if_neg (by omega)]

/-- Behind the first slots the last parts of the name have been collected. -/
theorem after_slots (hnz : ∀ c ∈ long_name, c ≠ 0) (hfit : long_name.length < VFS_NAME_MAX)
    (checksum : UInt8) (lfn : LfnState) {m : Nat} (hm : m + 1 ≤ fat32_lfn_slot_count long_name) :
    ((lfn_entries long_name checksum).take (m + 1)).foldl LfnState.after lfn =
      ⟨collected long_name (fat32_lfn_reset lfn.lfn_name)
        (fat32_lfn_slot_count long_name - (m + 1)), true, checksum⟩ := by
  set count := fat32_lfn_slot_count long_name with hcount
  have hlen : (lfn_entries long_name checksum).length = count := by
    simp [lfn_entries, hcount]
  have hget : ∀ (i : Nat) (hi : i < (lfn_entries long_name checksum).length),
      ((lfn_entries long_name checksum)[i]).bytes =
        (fat32_make_lfn_entry long_name (count - (i + 1)) count checksum).bytes := by
    intro i hi
    simp only [lfn_entries, getElem_map, getElem_range, Nat.sub_sub, Nat.add_comm, hcount]
  induction m with
  | zero =>
    have hk : count - (0 + 1) + 1 = count := by omega
    rw [take_succ_eq_append_getElem (by omega), take_zero, nil_append,
      foldl_cons, foldl_nil,
      after_made hfit (by omega) (hget 0 (by omega)) lfn (.inl hk), if_pos hk,
      ← collect_collected hnz hfit (by omega), hk, collected_all]
  | succ m ih =>
    have hk : count - (m + 1 + 1) + 1 ≠ count := by omega
    rw [take_succ_eq_append_getElem (by omega), foldl_append, foldl_cons,
      foldl_nil, ih (by omega),
      after_made hfit (by omega) (hget (m + 1) (by omega)) _ (.inr ⟨rfl, rfl⟩), if_neg hk,
      ← collect_collected hnz hfit (k := count - (m + 1 + 1)) (by omega),
      show count - (m + 1 + 1) + 1 = count - (m + 1) by omega]

/-! ## The name that is read -/

theorem takeWhile_load {name : Bytes} (hnz : ∀ c ∈ name, c ≠ 0) {n : Nat}
    (hle : name.length ≤ n) (hname : ∀ i < name.length, buffer i = name.getD i 0) :
    (load buffer 0 n).takeWhile (· ≠ 0) = name ↔ name.length = n ∨ buffer name.length = 0 := by
  have hload : load buffer 0 name.length = name := by
    apply ext_getElem (by simp)
    intro i h1 h2
    simp only [load, getElem_map, getElem_range, Nat.zero_add]
    rw [hname i h2, getD_eq_getElem _ _ h2]
  obtain ⟨k, rfl⟩ := Nat.exists_eq_add_of_le hle
  have hall : name.takeWhile (· ≠ 0) = name := by
    rw [takeWhile_eq_self_iff]
    intro c hc
    simpa using hnz c hc
  rw [load_add, hload, takeWhile_append_of_pos (by simpa using hnz), Nat.zero_add]
  cases k with
  | zero => simp
  | succ k =>
    have hone : load buffer name.length 1 = [buffer name.length] := rfl
    rw [Nat.add_comm k 1, load_add, hone, singleton_append]
    by_cases hend : buffer name.length = 0
    · rw [takeWhile_cons_of_neg (by simpa using hend)]
      simp [hend]
    · rw [takeWhile_cons_of_pos (by simpa using hend)]
      simp [hend]

/-- The slots of a name and the short entry behind them give the name back exactly if the
name leaves room for its end mark, or the buffer happens to hold a zero there. -/
theorem a_long_name_is_read_back_iff (long_name : List UInt8) (hlen : 1 ≤ long_name.length)
    (hmax : long_name.length ≤ 63) (hnz : ∀ c ∈ long_name, c ≠ 0) (short : FAT32DirEntry)
    (lfn : LfnState) :
    ((lfn_entries long_name (fat32_short_name_checksum short.name)).foldl LfnState.after
        lfn).entry_name short VFS_NAME_MAX = some long_name ↔
      long_name.length % 13 ≠ 0 ∨ lfn.lfn_name long_name.length = 0 := by
  have hfit : long_name.length < VFS_NAME_MAX := Nat.lt_succ_of_le hmax
  obtain ⟨m, hm⟩ : ∃ m, fat32_lfn_slot_count long_name = m + 1 :=
    Nat.exists_eq_add_one.mpr (by unfold fat32_lfn_slot_count; omega)
  have hcount : fat32_lfn_slot_count long_name = (long_name.length + 12) / 13 := rfl
  -- the state behind all slots
  have hslots := after_slots hnz hfit (fat32_short_name_checksum short.name) lfn hm.ge
  rw [take_of_length_le (by simp [lfn_entries, hm]), hm, Nat.sub_self] at hslots
  have hbuffer : ∀ i < long_name.length,
      collected long_name (fat32_lfn_reset lfn.lfn_name) 0 i = long_name.getD i 0 := by
    intro i hi
    rw [collected, if_pos (by omega)]
  have hend : collected long_name (fat32_lfn_reset lfn.lfn_name) 0 long_name.length = 0 ↔
      long_name.length % 13 ≠ 0 ∨ lfn.lfn_name long_name.length = 0 := by
    unfold collected
    by_cases hmod : long_name.length % 13 = 0
    · rw [if_neg (by omega), fat32_lfn_reset, update_of_ne (by omega)]
      simp [hmod]
    · rw [if_pos (by omega), getD_eq_default _ _ (Nat.le_refl _)]
      simp [hmod]
  have hfirst : collected long_name (fat32_lfn_reset lfn.lfn_name) 0 0 ≠ 0 := by
    rw [hbuffer 0 (by omega), getD_eq_getElem _ _ (by omega)]
    exact hnz _ (getElem_mem _)
  rw [hslots, LfnState.entry_name, if_pos ⟨rfl, hfirst, rfl⟩, Option.some.injEq]
  refine (takeWhile_load hnz hmax hbuffer).trans ?_
  rw [hend]
  constructor
  · rintro (h | h)
    · exact .inl (by omega)
    · exact h
  · exact .inr

end

/-- The short entry of an empty file, under the first alias of its long name. -/
def alias_entry (long_name : Bytes) : FAT32DirEntry :=
  ⟨new_entry (fat32_build_short_alias_name long_name 1) 0x20 0 0, by
    simp [new_entry, length_build_short_alias_name]⟩

/-- The name that a reader finds at the short entry behind the slots of a long name. -/
def name_read (long_name : Bytes) (lfn : LfnState) : Option Bytes :=
  ((lfn_entries long_name (fat32_short_name_checksum (alias_entry long_name).name)).foldl
    LfnState.after lfn).entry_name (alias_entry long_name) VFS_NAME_MAX

/-- `a b.c` -/
def spaced : Bytes := [0x61, 0x20, 0x62, 0x2E, 0x63]

theorem a_name_with_a_blank_is_read_back :
    fat32_is_simple_83_name spaced = false ∧
      name_read spaced (.start fun _ => 0x78) = some spaced := by
  refine ⟨by decide, ?_⟩
  have hnz : ∀ c ∈ spaced, c ≠ 0 := by simp [spaced]
  have h := a_long_name_is_read_back_iff spaced (by decide) (by decide) hnz (alias_entry spaced)
    (.start fun _ => 0x78)
  exact h.mpr (.inl (by decide))

/-- Twenty times `b`. -/
def twenty : Bytes := replicate 20 0x62

/-- Thirteen times `a`. -/
def thirteen : Bytes := replicate 13 0x61

/-- Behind a file with a longer name, its last letters show up in a name that fills its
slot, even if the stack was clean. -/
theorem the_end_of_a_longer_name_shows :
    fat32_is_simple_83_name thirteen = false ∧ thirteen.length = 13 ∧ 0 ∉ thirteen ∧
    name_read thirteen ((lfn_entries twenty (fat32_short_name_checksum (alias_entry twenty).name) ++
      [alias_entry twenty]).foldl LfnState.after (.start fun _ => 0)) =
        some (thirteen ++ replicate 7 0x62) := by
  refine ⟨by decide, by decide, by decide, ?_⟩
  decide +kernel

end mini_kernel.fat32
