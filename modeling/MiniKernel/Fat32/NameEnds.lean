-- Where the long names of a volume end. The buffer that a long name is collected in is not
-- cleared: a name that fills its last slot has no end mark, and what is read then depends
-- on the stack. The law: if every long name has its end, nothing that a directory
-- lists depends on it.
import MiniKernel.Fat32.Tree

open mini_kernel.lib List Function

namespace mini_kernel.fat32

open FAT32Driver

/-! ## What a slot writes -/

/-- A character of a long name, neither its end nor what fills a slot behind it. -/
def IsChar (value : Nat) : Prop := value ≠ 0x0000 ∧ value ≠ 0xFFFF

instance (value : Nat) : Decidable (IsChar value) := inferInstanceAs (Decidable (_ ∧ _))

/-- The values of a slot in their order. -/
def FAT32LFNEntry.values (lfn : FAT32LFNEntry) : List Nat := lfn.name1 ++ lfn.name2 ++ lfn.name3

section
variable {buffer : Memory} {capacity index i : Nat} {src : List Nat}

theorem append_chunk_outside (h : i < index ∨ index + src.length ≤ i) :
    fat32_lfn_append_chunk buffer capacity src index i = buffer i := by
  induction src generalizing buffer index with
  | nil => rfl
  | cons value src ih =>
    rw [length_cons] at h
    rw [fat32_lfn_append_chunk]
    split_ifs
    · exact update_of_ne (by omega) ..
    · rfl
    · rfl
    · rfl
    · rw [ih (by omega), update_of_ne (by omega)]

/-- Only characters stand before a place, and there a character or the end. -/
def Reached (values : List Nat) (p : Nat) : Prop :=
  (∀ q < p, IsChar (values.getD q 0)) ∧ values.getD p 0 ≠ 0xFFFF

theorem Reached.left {xs ys : List Nat} {p : Nat} (h : Reached (xs ++ ys) p) (hp : p < xs.length) :
    Reached xs p ∧ (xs ++ ys).getD p 0 = xs.getD p 0 := by
  have hget : ∀ q ≤ p, (xs ++ ys).getD q 0 = xs.getD q 0 := fun q hq =>
    getD_append _ _ _ _ (by omega)
  refine ⟨⟨fun q hq => hget q hq.le ▸ h.1 q hq, hget p le_rfl ▸ h.2⟩, hget p le_rfl⟩

theorem Reached.right {xs ys : List Nat} {p : Nat} (h : Reached (xs ++ ys) (xs.length + p)) :
    Reached ys p ∧ (xs ++ ys).getD (xs.length + p) 0 = ys.getD p 0 := by
  have hget : ∀ q, (xs ++ ys).getD (xs.length + q) 0 = ys.getD q 0 := by
    intro q
    rw [getD_append_right _ _ _ _ (by omega), Nat.add_sub_cancel_left]
  exact ⟨⟨fun q hq => hget q ▸ h.1 _ (by omega), hget p ▸ h.2⟩, hget p⟩

theorem append_chunk_reached {p : Nat} (h : Reached src p) (hp : p < src.length)
    (hfit : index + p < capacity) :
    fat32_lfn_append_chunk buffer capacity src index (index + p) = UInt8.ofNat (src.getD p 0) := by
  obtain ⟨hbefore, hvalue⟩ := h
  induction src generalizing buffer index p with
  | nil => cases hp
  | cons value src ih =>
    rw [fat32_lfn_append_chunk]
    cases p with
    | zero =>
      rw [getD_cons_zero] at hvalue ⊢
      simp only [Nat.add_zero] at hfit ⊢
      split_ifs with h0
      · rw [update_self, h0]
        rfl
      · omega
      · rw [append_chunk_outside (by omega), update_self]
    | succ p =>
      obtain ⟨h0, hfill⟩ := hbefore 0 (by omega)
      rw [getD_cons_zero] at h0 hfill
      rw [if_neg h0, if_neg hfill, if_neg (by omega), getD_cons_succ,
        show index + (p + 1) = index + 1 + p by omega]
      exact ih (by simpa using hp) (by omega) (fun q hq => hbefore (q + 1) (by omega)) hvalue

theorem length_chars_at (bytes : Bytes) (n : Nat) : (chars_at bytes i n).length = n := by
  induction n generalizing i with
  | zero => rfl
  | succ n ih => rw [chars_at, length_cons, ih]

variable {entry : FAT32DirEntry} {k : Nat}

section
variable (horder : (entry.lfn.order &&& 0x1F).toNat = k + 1)
include horder

theorem collect_eq : fat32_lfn_collect buffer capacity entry.lfn =
    fat32_lfn_append_chunk (fat32_lfn_append_chunk (fat32_lfn_append_chunk buffer capacity
      entry.lfn.name1 (13 * k)) capacity entry.lfn.name2 (13 * k + 5)) capacity entry.lfn.name3
      (13 * k + 11) := by
  rw [fat32_lfn_collect, horder, if_neg (by omega), Nat.add_sub_cancel, Nat.mul_comm k 13]

/-- A slot writes to its own part of the buffer. -/
theorem collect_outside (h : i < 13 * k ∨ 13 * (k + 1) ≤ i) :
    fat32_lfn_collect buffer capacity entry.lfn i = buffer i := by
  have h1 : entry.lfn.name1.length = 5 := length_chars_at ..
  have h2 : entry.lfn.name2.length = 6 := length_chars_at ..
  have h3 : entry.lfn.name3.length = 2 := length_chars_at ..
  rw [collect_eq horder, append_chunk_outside (by omega), append_chunk_outside (by omega),
    append_chunk_outside (by omega)]

theorem collect_reached {p : Nat} (h : Reached entry.lfn.values p) (hp : p < 13)
    (hfit : 13 * k + p < capacity) :
    fat32_lfn_collect buffer capacity entry.lfn (13 * k + p) = UInt8.ofNat (entry.lfn.values.getD p 0) := by
  have h1 : entry.lfn.name1.length = 5 := length_chars_at ..
  have h2 : entry.lfn.name2.length = 6 := length_chars_at ..
  have h3 : entry.lfn.name3.length = 2 := length_chars_at ..
  have h12 : (entry.lfn.name1 ++ entry.lfn.name2).length = 11 := by rw [length_append, h1, h2]
  rw [collect_eq horder]
  unfold FAT32LFNEntry.values at h ⊢
  rcases Nat.lt_or_ge p 11 with hlt | hge
  · obtain ⟨h, hvalue⟩ := h.left (by omega)
    rw [hvalue, append_chunk_outside (by omega)]
    rcases Nat.lt_or_ge p 5 with hlt | hge
    · obtain ⟨h, hvalue⟩ := h.left (by omega)
      rw [hvalue, append_chunk_outside (by omega), append_chunk_reached h (by omega) hfit]
    · obtain ⟨q, rfl⟩ := Nat.exists_eq_add_of_le hge
      rw [← h1] at h ⊢
      obtain ⟨h, hvalue⟩ := h.right
      rw [hvalue, ← Nat.add_assoc, append_chunk_reached h (by omega) (by omega)]
  · obtain ⟨q, rfl⟩ := Nat.exists_eq_add_of_le hge
    rw [← h12] at h ⊢
    obtain ⟨h, hvalue⟩ := h.right
    rw [hvalue, ← Nat.add_assoc, append_chunk_reached h (by omega) (by omega)]

end

end

/-! ## Reading with two stacks -/

/-- The last part of a name, the one behind `k` others: its characters go on up to the end
mark, or up to the end of the buffer. -/
def HasEnd (k : Nat) (values : List Nat) : Prop :=
  ∃ p ≤ 13, (∀ q < p, IsChar (values.getD q 0)) ∧
    (p < 13 ∧ values.getD p 0 = 0 ∨ VFS_NAME_MAX ≤ 13 * k + p + 1)

/-- The long names in front of the end mark are spelled out: behind a last part with an end
come the other parts of the name in their order, each full of characters, though
perhaps not all of them. `k` parts of a name are still to come. -/
def Spelled (k : Nat) (checksum : UInt8) : List Slot → Prop
  | [] => True
  | slot :: rest =>
    let part := slot.2.lfn
    let number := (part.order &&& 0x1F).toNat
    match slot_kind slot.2 with
    | .end_mark => True
    | .long_name =>
      if part.order &&& 0x40 ≠ 0 then
        number ≠ 0 ∧ HasEnd (number - 1) part.values ∧ Spelled (number - 1) part.checksum rest
      else
        k ≠ 0 ∧ number = k ∧ part.checksum = checksum ∧ (∀ q < 13, IsChar (part.values.getD q 0)) ∧
          Spelled (k - 1) checksum rest
    | _ => Spelled 0 checksum rest

/-- Two readers of the same slots have the same of the name that they collect, up to its
first zero. -/
structure Alike (k : Nat) (sum : UInt8) (s t : LfnState) : Prop where
  active : s.lfn_active = t.lfn_active
  checksum : s.lfn_checksum = t.lfn_checksum
  waits : k ≠ 0 → s.lfn_active ∧ s.lfn_checksum = sum ∧ s.lfn_name 0 = 0 ∧ t.lfn_name 0 = 0
  same : s.lfn_active → ∀ i, 13 * k ≤ i → i + 1 < VFS_NAME_MAX →
    (∀ j, 13 * k ≤ j → j < i → s.lfn_name j ≠ 0) → s.lfn_name i = t.lfn_name i

theorem takeWhile_load_congr {b b' : Memory} {i n : Nat}
    (h : ∀ j, i ≤ j → j < i + n → (∀ m, i ≤ m → m < j → b m ≠ 0) → b j = b' j) :
    (load b i n).takeWhile (· ≠ 0) = (load b' i n).takeWhile (· ≠ 0) := by
  induction n generalizing i with
  | zero => rfl
  | succ n ih =>
    have hfirst : b i = b' i := h i le_rfl (by omega) (fun m _ _ => by omega)
    rw [Nat.add_comm n 1, load_add, load_add]
    change (b i :: load b (i + 1) n).takeWhile _ = (b' i :: load b' (i + 1) n).takeWhile _
    rw [← hfirst]
    by_cases hb : b i = 0
    · rw [takeWhile_cons_of_neg (by simpa using hb), takeWhile_cons_of_neg (by simpa using hb)]
    · rw [takeWhile_cons_of_pos (by simpa using hb), takeWhile_cons_of_pos (by simpa using hb), ih]
      intro j hj hjn hm
      refine h j (by omega) (by omega) fun m him hmj => ?_
      rcases eq_or_lt_of_le him with rfl | hlt
      · exact hb
      · exact hm m hlt hmj

section
variable {k : Nat} {sum : UInt8} {s t : LfnState} {entry : FAT32DirEntry}

theorem Alike.shown_name (h : Alike k sum s t) (entry : FAT32DirEntry) :
    s.shown_name entry = t.shown_name entry := by
  unfold LfnState.shown_name LfnState.entry_name
  rw [← h.active, ← h.checksum]
  cases hactive : s.lfn_active with
  | false => simp
  | true =>
    by_cases hk : k = 0
    · subst hk
      have hsame := h.same hactive
      have hstring : c_string s.lfn_name VFS_NAME_MAX = c_string t.lfn_name VFS_NAME_MAX :=
        takeWhile_load_congr fun j _ hj hz => hsame j (by omega) (by unfold VFS_NAME_MAX at *; omega)
          fun m _ => hz m (by omega)
      rw [hsame 0 (by omega) (by decide) (fun m _ _ => by omega), hstring]
    · obtain ⟨-, -, hs, ht⟩ := h.waits hk
      rw [if_neg (by simp [hs]), if_neg (by simp [ht])]

theorem alike_reset (sum : UInt8) (h : s.lfn_checksum = t.lfn_checksum) : Alike 0 sum s.reset t.reset :=
  ⟨rfl, h, fun h => absurd rfl h, fun h => by cases h⟩

/-- Every place of the last part is reached, unless the end comes before it. -/
theorem HasEnd.reached {values : List Nat} (h : HasEnd k values) {q : Nat}
    (hfit : 13 * k + q + 1 < VFS_NAME_MAX)
    (hz : ∀ m < q, m < 13 → Reached values m → values.getD m 0 ≠ 0) : q < 13 ∧ Reached values q := by
  obtain ⟨p, hp, hchars, hstop⟩ := h
  have hlast : p ≤ q → p < 13 ∧ values.getD p 0 = 0 := fun hle => hstop.resolve_right (by omega)
  rcases Nat.lt_or_ge q p with hlt | hge
  · exact ⟨by omega, fun m hm => hchars m (by omega), (hchars q hlt).2⟩
  obtain ⟨hp13, hzero⟩ := hlast hge
  have hreached : Reached values p := ⟨hchars, by rw [hzero]; decide⟩
  rcases eq_or_lt_of_le hge with rfl | hgt
  · exact ⟨hp13, hreached⟩
  · exact absurd hzero (hz p hgt hp13 hreached)

section
variable (horder : (entry.lfn.order &&& 0x1F).toNat = k + 1)
include horder

/-- The last part of a name starts the name anew. -/
theorem alike_last (h40 : entry.lfn.order &&& 0x40 ≠ 0) (hend : HasEnd k entry.lfn.values) :
    Alike k entry.lfn.checksum (s.collect entry) (t.collect entry) := by
  have hcollect : ∀ s : LfnState, s.collect entry = ⟨fat32_lfn_collect (fat32_lfn_reset s.lfn_name)
      VFS_NAME_MAX entry.lfn, true, entry.lfn.checksum⟩ := by
    intro s
    rw [LfnState.collect, if_pos (.inl h40)]
  have hfirst : ∀ s : LfnState, k ≠ 0 → fat32_lfn_collect (fat32_lfn_reset s.lfn_name)
      VFS_NAME_MAX entry.lfn 0 = 0 := fun s hk =>
    (collect_outside horder (by omega)).trans (update_self ..)
  rw [hcollect, hcollect]
  refine ⟨rfl, rfl, fun hk => ⟨rfl, rfl, hfirst s hk, hfirst t hk⟩, fun _ i hi hfit hz => ?_⟩
  obtain ⟨q, rfl⟩ := Nat.exists_eq_add_of_le hi
  obtain ⟨hq, hreached⟩ := hend.reached hfit fun m hm hm13 hr hzero =>
    hz (13 * k + m) (by omega) (by omega)
      ((collect_reached horder hr hm13 (by omega)).trans (congrArg UInt8.ofNat hzero))
  exact (collect_reached horder hreached hq (by omega)).trans
    (collect_reached horder hreached hq (by omega)).symm

/-- A part in front of the one that was collected goes in front of it. -/
theorem Alike.next (h : Alike (k + 1) sum s t) (h40 : entry.lfn.order &&& 0x40 = 0)
    (hsum : entry.lfn.checksum = sum) (hchars : ∀ q < 13, IsChar (entry.lfn.values.getD q 0)) :
    Alike k sum (s.collect entry) (t.collect entry) := by
  obtain ⟨hactive, hchecksum, hs, ht⟩ := h.waits (by omega)
  have hcollect : ∀ s : LfnState, s.lfn_active → s.lfn_checksum = sum → s.collect entry =
      { s with lfn_name := fat32_lfn_collect s.lfn_name VFS_NAME_MAX entry.lfn } := by
    intro s ha hc
    rw [LfnState.collect, if_neg]
    rintro (h | h | h)
    · exact h h40
    · exact h ha
    · exact h (hsum.trans hc.symm)
  rw [hcollect s hactive hchecksum, hcollect t (h.active ▸ hactive) (h.checksum ▸ hchecksum)]
  refine ⟨h.active, h.checksum, fun hk => ⟨hactive, hchecksum, ?_, ?_⟩, fun _ i hi hfit hz => ?_⟩
  · exact (collect_outside horder (by omega)).trans hs
  · exact (collect_outside horder (by omega)).trans ht
  rcases Nat.lt_or_ge i (13 * (k + 1)) with hlt | hge
  · obtain ⟨q, rfl⟩ := Nat.exists_eq_add_of_le hi
    have hreached : Reached entry.lfn.values q := ⟨fun m _ => hchars m (by omega), (hchars q (by omega)).2⟩
    exact (collect_reached horder hreached (by omega) (by omega)).trans
      (collect_reached horder hreached (by omega) (by omega)).symm
  · -- this part does not touch what was collected before
    have houtside : ∀ {b : Memory} j, 13 * (k + 1) ≤ j →
        fat32_lfn_collect b VFS_NAME_MAX entry.lfn j = b j := fun j hj =>
      collect_outside horder (.inr hj)
    refine (houtside i hge).trans (.trans ?_ (houtside i hge).symm)
    exact h.same hactive i hge hfit fun j hj hji => houtside (b := s.lfn_name) j hj ▸ hz j (by omega) hji

end

/-- Spelled out, the slots show the same to both readers. -/
theorem Alike.listing_eq {slots : List Slot} (h : Alike k sum s t) (hslots : Spelled k sum slots) :
    listing s slots = listing t slots := by
  induction slots generalizing k sum s t with
  | nil => rfl
  | cons slot rest ih =>
    unfold Spelled at hslots
    have hreset := ih (alike_reset sum h.checksum)
    rw [listing, listing]
    unfold LfnState.after
    cases hk : slot_kind slot.2 with
    | end_mark => rfl
    | shown =>
      simp only [hk] at hslots ⊢
      rw [h.shown_name, hreset hslots]
    | free =>
      simp only [hk] at hslots ⊢
      exact hreset hslots
    | hidden =>
      simp only [hk] at hslots ⊢
      exact hreset hslots
    | long_name =>
      simp only [hk] at hslots ⊢
      split_ifs at hslots with h40
      · obtain ⟨hnumber, hend, hrest⟩ := hslots
        exact ih (alike_last (by omega) h40 hend) hrest
      · obtain ⟨hk0, hnumber, hsum, hchars, hrest⟩ := hslots
        obtain ⟨k, rfl⟩ := Nat.exists_eq_succ_of_ne_zero hk0
        exact ih (h.next hnumber (not_not.mp h40) hsum hchars) hrest

end

theorem spelled_of_short {k : Nat} {sum : UInt8} {slots : List Slot}
    (h : ∀ slot ∈ slots, slot_kind slot.2 ≠ .long_name) : Spelled k sum slots := by
  induction slots generalizing k with
  | nil => trivial
  | cons slot rest ih =>
    obtain ⟨hslot, hrest⟩ := forall_mem_cons.mp h
    unfold Spelled
    cases hk : slot_kind slot.2 with
    | long_name => exact absurd hk hslot
    | end_mark => trivial
    | shown => exact ih hrest
    | free => exact ih hrest
    | hidden => exact ih hrest

namespace FAT32Driver

/-- Every long name of the volume is spelled out and has its end. -/
def NamesEnd (drv : FAT32Driver) (d : Disk) : Prop :=
  ∀ {o c l}, drv.Holder d o c true → drv.ClusterChain d c l → Spelled 0 0 (drv.dir_slots d l)

theorem NamesEnd.steady {drv : FAT32Driver} {d : Disk} (h : drv.NamesEnd d) (hw : drv.WellFormed d) :
    drv.Steady d where
  toWellFormed := hw
  lists ho hl stack := by
    have halike : Alike 0 0 (.start stack) (.start fun _ => 0) :=
      ⟨rfl, rfl, fun h => absurd rfl h, fun h => by cases h⟩
    exact halike.listing_eq (h ho hl)

end FAT32Driver

end mini_kernel.fat32
