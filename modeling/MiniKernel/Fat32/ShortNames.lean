-- Short names of eight and three characters. The law: a simple name that is packed into
-- the eleven bytes of a slot is shown as it was, without a dot at its end.
import MiniKernel.Fat32.Overwrite

open mini_kernel.lib mini_kernel.vfs List

namespace mini_kernel.fat32

/-! ## What a simple name is made of -/

/-- A character that a simple name may have, the dot apart. -/
def is_short_char (ch : UInt8) : Prop :=
  fat32_to_upper ch = ch ∧ (fat32_is_alnum_ascii ch ∨ ch ∈ short_marks)

theorem is_short_char.ne {ch : UInt8} (h : is_short_char ch) :
    ch ≠ 0x00 ∧ ch ≠ 0xE5 ∧ ch ≠ 0x2E ∧ ch ≠ 0x20 := by
  obtain ⟨-, h⟩ := h
  refine ⟨?_, ?_, ?_, ?_⟩ <;>
  · rintro rfl
    revert h
    decide

variable {base_len : Nat} {name : Bytes}

/-- The loop takes one of the characters. -/
theorem simple_83_loop_cons {ext_len : Nat} {saw_dot : Bool} {ch : UInt8}
    {rest : Bytes} (hch : ch ≠ 0x2E) (h : simple_83_loop base_len ext_len saw_dot (ch :: rest)) :
    is_short_char ch ∧
      if saw_dot then ext_len + 1 ≤ 3 ∧ simple_83_loop base_len (ext_len + 1) saw_dot rest
      else base_len + 1 ≤ 8 ∧ simple_83_loop (base_len + 1) ext_len saw_dot rest := by
  rw [simple_83_loop, if_neg hch] at h
  split at h
  · cases h
  split at h
  · cases h
  rename_i hupper
  split at h
  · cases h
  rename_i halnum
  refine ⟨⟨by simpa using hupper, ?_⟩, ?_⟩
  · by_contra hno
    rw [not_or] at hno
    exact halnum hno
  · cases saw_dot with
    | false =>
      rw [if_pos (by simp)] at h
      rw [if_neg (by simp)]
      split at h
      · cases h
      · exact ⟨by omega, h⟩
    | true =>
      rw [if_neg (by simp)] at h
      rw [if_pos rfl]
      split at h
      · cases h
      · exact ⟨by omega, h⟩

/-- Behind the dot there are at most three characters, and no other dot. -/
theorem simple_extension {ext_len : Nat} (he : ext_len ≤ 3)
    (h : simple_83_loop base_len ext_len true name) :
    (∀ ch ∈ name, is_short_char ch) ∧ ext_len + name.length ≤ 3 := by
  induction name generalizing ext_len with
  | nil => exact ⟨by simp, he⟩
  | cons ch rest ih =>
    by_cases hch : ch = 0x2E
    · subst hch
      rw [simple_83_loop, if_pos rfl, if_pos (.inl rfl)] at h
      cases h
    obtain ⟨hshort, hrest⟩ := simple_83_loop_cons hch h
    rw [if_pos rfl] at hrest
    obtain ⟨hall, hlen⟩ := ih hrest.1 hrest.2
    refine ⟨?_, by rw [length_cons]; omega⟩
    exact forall_mem_cons.mpr ⟨hshort, hall⟩

/-- A simple name is a base, perhaps with a dot and an extension. -/
structure Simple (base : Bytes) (ext : Option Bytes) : Prop where
  base_chars : ∀ ch ∈ base, is_short_char ch
  base_length : base.length ≤ 8
  ext_chars : ∀ ch ∈ ext.getD [], is_short_char ch
  ext_length : (ext.getD []).length ≤ 3

/-- The name as it is written. -/
def written (base : Bytes) (ext : Option Bytes) : Bytes :=
  base ++ (ext.map (0x2E :: ·)).getD []

theorem simple_split (hb : base_len ≤ 8) (h : simple_83_loop base_len 0 false name) :
    ∃ base ext, name = written base ext ∧ Simple base ext ∧ 0 < base_len + base.length ∧
      base_len + base.length ≤ 8 := by
  induction name generalizing base_len with
  | nil =>
    have hpos : 0 < base_len := by simpa [simple_83_loop] using h
    exact ⟨[], none, rfl, ⟨by simp, by simp, by simp, by simp⟩, by simpa using hpos, hb⟩
  | cons ch rest ih =>
    by_cases hch : ch = 0x2E
    · subst hch
      rw [simple_83_loop, if_pos rfl] at h
      split at h
      · cases h
      rename_i hno
      rw [not_or] at hno
      obtain ⟨hall, hlen⟩ := simple_extension (by decide) h
      refine ⟨[], some rest, rfl, ⟨by simp, by simp, hall, by simpa using hlen⟩, ?_, hb⟩
      rw [length_nil]
      omega
    · obtain ⟨hshort, hrest⟩ := simple_83_loop_cons hch h
      rw [if_neg (by simp)] at hrest
      obtain ⟨base, ext, rfl, hs, -, hlen⟩ := ih hrest.1 hrest.2
      refine ⟨ch :: base, ext, rfl, ⟨?_, ?_, hs.ext_chars, hs.ext_length⟩, ?_, ?_⟩
      · exact forall_mem_cons.mpr ⟨hshort, hs.base_chars⟩
      · rw [length_cons]
        omega
      · rw [length_cons]
        omega
      · rw [length_cons]
        omega

theorem simple_name_split (h : fat32_is_simple_83_name name) :
    ∃ base ext, name = written base ext ∧ Simple base ext ∧ base ≠ [] := by
  obtain ⟨base, ext, hname, hs, hpos, -⟩ := simple_split (Nat.zero_le _) h
  refine ⟨base, ext, hname, hs, ?_⟩
  rintro rfl
  simp at hpos

/-! ## Packing and unpacking -/

section
variable {base : Bytes} {ext : Option Bytes} {chars : Bytes}

theorem map_upper (h : ∀ ch ∈ chars, is_short_char ch) : chars.map fat32_to_upper = chars := by
  conv_rhs => rw [← map_id chars]
  apply map_congr_left
  intro ch hch
  exact (h ch hch).1

theorem Simple.to_name83 (h : Simple base ext) :
    to_name83 (written base ext) = padded 8 base ++ padded 3 (ext.getD []) := by
  have hdot : ∀ ch ∈ base, ch ≠ 0x2E := fun ch hch => (h.base_chars ch hch).ne.2.2.1
  have htake : (written base ext).takeWhile (· ≠ 0x2E) = base := by
    rw [written, takeWhile_append_of_pos (by simpa using hdot)]
    cases ext with
    | none => simp
    | some ext => simp
  have hdrop : (written base ext).drop base.length = (ext.map (0x2E :: ·)).getD [] := by
    rw [written, drop_left]
  unfold fat32.to_name83
  simp only [htake, take_of_length_le h.base_length, hdrop, map_upper h.base_chars]
  cases ext with
  | none => rfl
  | some ext =>
    simp only [Option.map_some, Option.getD_some]
    have hupper : ext.map fat32_to_upper = ext := map_upper h.ext_chars
    rw [hupper]

theorem takeWhile_padded {n : Nat} (h : ∀ ch ∈ chars, is_short_char ch)
    (hlen : chars.length ≤ n) : (padded n chars).takeWhile (· ≠ 0x20) = chars := by
  have hblank : ∀ ch ∈ chars, ch ≠ 0x20 := fun ch hch => (h ch hch).ne.2.2.2
  rw [padded, take_of_length_le hlen, takeWhile_append_of_pos (by simpa using hblank)]
  cases n - chars.length with
  | zero => simp
  | succ k => simp [replicate_succ]

theorem any_padded {n : Nat} (h : ∀ ch ∈ chars, is_short_char ch)
    (hlen : chars.length ≤ n) : (padded n chars).any (· ≠ 0x20) ↔ chars ≠ [] := by
  rw [padded, take_of_length_le hlen]
  cases chars with
  | nil => simp
  | cons ch rest => simp [(h ch mem_cons_self).ne.2.2.2]

/-- What is shown is the base, with the extension if it is not empty. -/
theorem Simple.dir_entry_name (h : Simple base ext) {e : FAT32DirEntry}
    (he : e.name = fat32.to_name83 (written base ext)) : dir_entry_name e VFS_NAME_MAX =
      some (if ext.getD [] = [] then base else base ++ 0x2E :: ext.getD []) := by
  have hbase : e.name.take 8 = padded 8 base := by
    rw [he, h.to_name83]
    exact take_left' (length_padded _ _)
  have hext : e.name.drop 8 = padded 3 (ext.getD []) := by
    rw [he, h.to_name83]
    exact drop_left' (length_padded _ _)
  have hb := h.base_length
  have hx := h.ext_length
  unfold fat32.dir_entry_name VFS_NAME_MAX
  rw [if_neg (by decide)]
  have hany := any_padded h.ext_chars hx
  simp only [hbase, hext, takeWhile_padded h.base_chars hb, takeWhile_padded h.ext_chars hx]
  have hshort : ∀ {chars : Bytes}, (∀ ch ∈ chars, is_short_char ch) → ∀ ch ∈ chars, ch ≠ 0 :=
    fun h ch hch => (h ch hch).ne.1
  have hzero := hshort h.base_chars
  by_cases hnil : ext.getD [] = []
  · rw [if_neg (fun ha => hany.mp ha hnil), if_pos hnil, if_pos (by omega),
      takeWhile_eq_self_iff.mpr (by simpa using hzero)]
  · rw [if_pos (hany.mpr hnil), if_neg hnil, if_pos, takeWhile_eq_self_iff.mpr]
    · have hext := hshort h.ext_chars
      simp only [mem_append, mem_cons, decide_eq_true_eq]
      rintro ch (hch | rfl | hch)
      · exact hzero ch hch
      · decide
      · exact hext ch hch
    · rw [length_append, length_cons]
      omega

end

/-- A simple name is shown as it was, but for a dot at its end. -/
theorem simple_name_shown {name : Bytes} (h : fat32_is_simple_83_name name)
    {e : FAT32DirEntry} (he : e.name = to_name83 name) : dir_entry_name e VFS_NAME_MAX =
      some (if name.getLast? = some 0x2E then name.dropLast else name) := by
  obtain ⟨base, ext, rfl, hs, hne⟩ := simple_name_split h
  rw [hs.dir_entry_name he]
  have hlast : ∀ {chars : Bytes}, (∀ ch ∈ chars, is_short_char ch) →
      chars.getLast? ≠ some 0x2E := by
    intro chars hall hl
    exact (hall _ (mem_of_getLast? hl)).ne.2.2.1 rfl
  cases ext with
  | none =>
    have hw : written base none = base := append_nil _
    rw [hw, if_neg (hlast hs.base_chars)]
    rfl
  | some ext =>
    have hw : written base (some ext) = base ++ 0x2E :: ext := rfl
    rw [hw, Option.getD_some]
    by_cases hnil : ext = []
    · subst hnil
      rw [if_pos rfl, if_pos (by simp), dropLast_concat]
    obtain ⟨ch, rest, rfl⟩ := exists_cons_of_ne_nil hnil
    have hend : (base ++ 0x2E :: ch :: rest).getLast? = (ch :: rest).getLast? := by
      rw [getLast?_append, getLast?_cons_cons]
      simp [getLast?_cons]
    rw [if_neg hnil, if_neg]
    rw [hend]
    exact hlast hs.ext_chars

theorem length_to_name83 (segment : Bytes) : (to_name83 segment).length = 11 := by
  simp only [to_name83, length_append, length_padded]

namespace FAT32Driver

/-! ## Files under simple names -/

/-- A simple name that does not end with a dot is shown as it was given. A file under it is
found again, by both searches, and a second write takes its slot. -/
theorem simple_names_round_trip {name : List UInt8} (hsimple : fat32_is_simple_83_name name = true) :
    (∀ e : FAT32DirEntry, e.name = to_name83 name →
      (dir_entry_name e VFS_NAME_MAX = some name ↔ name.getLast? ≠ some 0x2E)) ∧
    (name.getLast? ≠ some 0x2E → ∀ (drv : FAT32Driver) (stack : Nat → UInt8) (turns : Nat) (d : Disk) (c : Nat)
      (l : List Nat) (x : Listed), drv.Mounted → drv.Enough turns → drv.ClusterChain d c l →
      x ∈ drv.dir_listing stack d l → x.entry.name = to_name83 name →
      dir_entry_name x.entry VFS_NAME_MAX = some x.name → ∃ y ∈ drv.dir_listing stack d l, y.name = name ∧
        (∀ search, (∀ i, drv.dir_listing (search i) d l = drv.dir_listing stack d l) →
          drv.find_in_directory search turns d c name = some (.ok y.entry)) ∧
        ∀ path frames, drv.dir_listing frames.last d l = drv.dir_listing stack d l →
          drv.resolve_parent_path frames turns d path = some (.ok (c, to_name83 name)) →
          fat32_leaf_name_from_path path = name → drv.find_target frames turns path d =
            some (if y.entry.is_dir then .error .invalid_path
              else .ok ⟨y.location, y.entry.name, dir_entry_cluster y.entry, true⟩, [])) := by
  have hshown : ∀ e : FAT32DirEntry, e.name = to_name83 name →
      (dir_entry_name e VFS_NAME_MAX = some name ↔ name.getLast? ≠ some 0x2E) := by
    intro e he
    rw [simple_name_shown hsimple he]
    split
    · rename_i hdot
      simp only [hdot, ne_eq, not_true_eq_false, iff_false, Option.some.injEq]
      intro h
      have := congrArg length h
      rw [length_dropLast] at this
      have hne : name ≠ [] := by
        rintro rfl
        cases hdot
      have := length_pos_iff.mpr hne
      omega
    · rename_i hdot
      simp [hdot]
  refine ⟨hshown, ?_⟩
  intro hdot drv stack turns d c l x hm ht hl hx hname hshort
  have hne : name ≠ [] := by
    rintro rfl
    cases hsimple
  have hxname : x.name = name := Option.some.inj (hshort.symm.trans ((hshown x.entry hname).mpr hdot))
  obtain ⟨y, hy⟩ : ∃ y, (drv.dir_listing stack d l).find? (·.name = name) = some y := by
    rw [← Option.isSome_iff_exists, find?_isSome]
    exact ⟨x, hx, by simpa using hxname⟩
  refine ⟨y, mem_of_find?_eq_some hy, by simpa using find?_some hy, ?_, ?_⟩
  · intro search hsearch
    rw [hm.find_in_directory_eq hl ht hsearch hne, hy]
  intro path frames hstack hparent hleaf
  have hlocate : drv.find_in_directory_with_location frames.last turns d c name =
      some (.ok (y.location, y.entry)) := by rw [hm.find_with_location_eq hl ht hne, hstack, hy]
  simp only [find_target, bind, Prog.seq, Prog.ask, hparent, hleaf, hlocate, Option.map_some,
    Option.bind_some, apply_writes, foldl_nil]
  split <;> rfl

/-- The file of the small volume is found as `A`. -/
theorem the_small_file_is_found :
    ∃ y : Listed, y.name = [0x41] ∧
      small_driver.find_in_directory (fun _ _ => 0) 113 small_disk 2 [0x41] = some (.ok y.entry) := by
  obtain ⟨y, -, hname, hfind, -⟩ := (simple_names_round_trip (by decide : fat32_is_simple_83_name [0x41])).2 (by decide)
    small_driver (fun _ => 0) 113 small_disk 2 [2] ⟨⟨2, 0, 0⟩, file_entry small_name (by decide) 3 3, [0x41]⟩
    small_mounted small_enough (small_chain (.inl rfl)) (by decide +kernel) (by decide +kernel)
    (by decide +kernel)
  exact ⟨y, hname, hfind _ fun _ => rfl⟩

/-- The name `A.` is simple and is shown as `A`; so a write under it makes another file with
the slot name of `A`. -/
theorem a_dot_at_the_end_is_lost :
    fat32_is_simple_83_name [0x41, 0x2E] = true ∧
      dir_entry_name (file_entry (to_name83 [0x41, 0x2E]) (length_to_name83 _) 3 3) VFS_NAME_MAX =
        some [0x41] ∧
      (small_driver.find_target (filled 0) 113 [0x2F, 0x41, 0x2E] small_disk).map
        (fun r => r.1.map fun target => (target.leaf83, target.found)) = some (.ok (small_name, false)) := by
  refine ⟨by decide, by decide +kernel, by decide +kernel⟩

end FAT32Driver

end mini_kernel.fat32
