-- What the loops of the address spaces do to the books: mapping leaves loose pages,
-- unmapping a chunk holds its frames, and a chunk that was acknowledged gives them
-- back.
import MiniKernel.Mm.PagingBits
import MiniKernel.Mm.SpaceBooks

open mini_kernel.lib mini_kernel.vm mini_kernel.pmm Function List

namespace mini_kernel.space

section
variable {n : Nat} {kernel : Page → Nat} {s s' s'' : System n} {i : Fin n} {loose : Page → Prop}
  {held : List Nat} {pages address frame : Nat} {table : Page → Nat}

/-- The page `k` pages above the address. -/
def page_at (address k : Nat) : Page := page_of (address + k * VM_PAGE_SIZE)

theorem page_at_zero (address : Nat) : page_at address 0 = page_of address := by
  simp [page_at]

theorem page_at_step (address k : Nat) : page_at (address + VM_PAGE_SIZE) k = page_at address (k + 1) := by
  unfold page_at
  congr 1
  ring

theorem page_at_step_u64 (address k : Nat) :
    page_at (u64 (address + VM_PAGE_SIZE)) k = page_at address (k + 1) := page_of_next address k

theorem page_at_u64 (address k : Nat) : page_at (u64 address) k = page_at address k := by
  apply Fin.ext
  simp only [page_at, page_of, u64, VM_PAGE_SIZE, PAGES]
  omega

theorem page_at_add (address j k : Nat) :
    page_at (address + j * VM_PAGE_SIZE) k = page_at address (j + k) := by
  unfold page_at
  congr 1
  ring

theorem page_at_inj {j k : Nat} (hj : j < PAGES) (hk : k < PAGES)
    (h : page_at address j = page_at address k) : j = k := page_of_inj hj hk h

/-- Only the table of the space changed, beside the pool and the history. -/
structure Retabled (i : Fin n) (s s' : System n) (table : Page → Nat) : Prop where
  spaces : s'.spaces = update s.spaces i { s i with table := table }
  quarantine : s'.quarantine = s.quarantine

theorem Retabled.self (h : Retabled i s s' table) : s'.spaces i = { s i with table := table } := by
  rw [h.spaces, update_self]

theorem Retabled.refl (i : Fin n) (s : System n) : Retabled i s s (s i).table :=
  ⟨(update_eq_self i s.spaces).symm, rfl⟩

theorem Retabled.trans {table' : Page → Nat} (h : Retabled i s s' table) (h' : Retabled i s' s'' table') :
    Retabled i s s'' table' := by
  refine ⟨?_, h'.quarantine.trans h.quarantine⟩
  rw [h'.spaces, h.self, h.spaces, update_idem]

/-! ## Mapping -/

/-- What the mapping loop leaves: `mapped` pages from the address on are mapped. -/
structure Mapped (kernel : Page → Nat) (i : Fin n) (loose : Page → Prop) (held : List Nat)
    (address pages : Nat) (s : System n) (m : Nat × System n) : Prop where
  kept : Kept kernel m.2 i (fun q => loose q ∨ ∃ k < m.1, q = page_at address k) held
  le : m.1 ≤ pages
  retabled : Retabled i s m.2 (m.2.spaces i).table
  mapped : ∀ k < m.1, (m.2.spaces i).table (page_at address k) ≠ 0
  other : ∀ q, (∀ k < m.1, q ≠ page_at address k) → (m.2.spaces i).table q = (s i).table q

theorem Mapped.none (h : Kept kernel s' i loose held) (hs : s'.spaces = s.spaces)
    (hq : s'.quarantine = s.quarantine) : Mapped kernel i loose held address pages s (0, s') := by
  refine ⟨h.imp fun q _ hq => .inl hq, Nat.zero_le _, ⟨?_, hq⟩, ?_, ?_⟩
  · simp only [hs, update_eq_self]
  · intro k hk
    exact absurd hk (Nat.not_lt_zero k)
  · intro q _
    simp only [hs]

theorem Mapped.succ {m : Nat × System n} (hn : pages + 1 ≤ PAGES)
    (h : Mapped kernel i (fun q => loose q ∨ q = page_at address 0) held (address + VM_PAGE_SIZE) pages s' m)
    (hs : Retabled i s s' (update (s i).table (page_at address 0) frame)) (hz : frame ≠ 0) :
    Mapped kernel i loose held address (pages + 1) s (m.1 + 1, m.2) := by
  have hle := h.le
  have hfirst : ∀ k < m.1, page_at address 0 ≠ page_at (address + VM_PAGE_SIZE) k := by
    intro k hk heq
    rw [page_at_step] at heq
    have := page_at_inj (by omega) (by omega) heq
    omega
  refine ⟨h.kept.imp ?_, Nat.succ_le_succ hle, hs.trans h.retabled, ?_, ?_⟩
  · rintro q - ((hq | hq) | ⟨k, hk, hq⟩)
    · exact .inl hq
    · exact .inr ⟨0, Nat.succ_pos _, hq⟩
    · rw [page_at_step] at hq
      exact .inr ⟨k + 1, Nat.succ_lt_succ hk, hq⟩
  · intro k hk
    cases k with
    | zero =>
      simp only
      rw [h.other _ hfirst, hs.self]
      simpa using hz
    | succ k =>
      rw [← page_at_step]
      exact h.mapped k (Nat.lt_of_succ_lt_succ hk)
  · intro q hq
    have hq0 : q ≠ page_at address 0 := hq 0 (Nat.succ_pos _)
    simp only
    rw [h.other q, hs.self]
    · simp only
      rw [update_of_ne hq0]
    · intro k hk
      rw [page_at_step]
      exact hq (k + 1) (Nat.succ_lt_succ hk)

/-- Flags without address bits leave the frame as it is. -/
theorem frame_of_block {phys : Nat} {flags : U64} (hflags : flags &&& paging.ADDRESS_MASK = 0)
    (hblock : phys % PMM_PAGE_SIZE = 0) (hlt : phys < PMM_MAX_RAM_SIZE) : frame_of phys flags = phys := by
  have hwide : (BitVec.ofNat 64 phys).toNat = phys := Nat.mod_eq_of_lt (hlt.trans (by decide))
  have hshift : phys = (phys / PMM_PAGE_SIZE) <<< 12 := by
    simp only [Nat.shiftLeft_eq, PMM_PAGE_SIZE] at *
    omega
  have hmask : paging.ADDRESS_MASK.toNat = (2 ^ 40 - 1) <<< 12 := rfl
  rw [frame_of, paging.entry_to_phys, paging.leaf_entry_phys hflags, BitVec.toNat_and, hwide, hmask]
  conv_lhs => rw [hshift]
  rw [← Nat.shiftLeft_and_distrib, Nat.and_two_pow_sub_one_eq_mod, Nat.mod_eq_of_lt, ← hshift]
  exact (Nat.div_le_self _ _).trans_lt (hlt.trans (by decide))

theorem map_pages_mapped {flags : U64} (hflags : flags &&& paging.ADDRESS_MASK = 0)
    (offers : List Offer) (h : Kept kernel s i loose held) (hrooted : (s i).rooted) (hn : pages ≤ PAGES)
    (hfree : ∀ k < pages, kernel (page_at address k) = 0 ∧ (s i).table (page_at address k) = 0) :
    Mapped kernel i loose held address pages s (map_pages i flags pages address offers s) := by
  induction pages generalizing s address offers loose with
  | zero => exact .none h rfl rfl
  | succ pages ih =>
    unfold map_pages
    generalize offers.headD ⟨0, false, []⟩ = offer
    by_cases hfound : offer.found ≠ 0 ∧ offer.found % PMM_PAGE_SIZE = 0 ∧ offer.found < PMM_MAX_RAM_SIZE ∧
        s.pool offer.found
    · obtain ⟨hz, hblock, hlt, hpool⟩ := hfound
      simp only [pmm_alloc_block, hz, hblock, hlt, hpool, ne_eq, not_false_eq_true, and_self, if_true,
        if_false, vm_map_page_in_root, frame_of_block hflags hblock hlt]
      by_cases hmaps : offer.maps
      · simp only [hmaps, if_true, Bool.not_true, Bool.false_eq_true, if_false]
        obtain ⟨hk0, ht0⟩ := hfree 0 (Nat.succ_pos _)
        have hmap := h.map hz hpool hk0 ht0 hrooted offer.tables
        rw [page_at_zero] at hmap
        refine .succ hn (ih offers.tail ?_ ?_ (by omega) ?_) ⟨?_, rfl⟩ hz
        · rw [page_at_zero]
          exact hmap
        · rw [put_spaces_self]
          exact hrooted
        · intro k hk
          obtain ⟨hk1, ht1⟩ := hfree (k + 1) (Nat.succ_lt_succ hk)
          have hne : page_at address (k + 1) ≠ page_of address := by
            rw [← page_at_zero]
            intro heq
            have := page_at_inj (by omega) (by omega) heq
            omega
          rw [page_at_step, put_spaces_self]
          refine ⟨hk1, ?_⟩
          simp only
          rw [update_of_ne hne]
          exact ht1
        · rw [page_at_zero]
          rfl
      · rw [Bool.not_eq_true] at hmaps
        simp only [hmaps, Bool.false_eq_true, if_false, Bool.not_false, if_true]
        refine .none (h.unused hz hpool _ ?_) rfl rfl
        intro f hf
        by_cases heq : f = offer.found
        · exact .inl heq
        · rw [update_of_ne heq] at hf
          simp only [System.take_tables, Bool.and_eq_true] at hf
          rw [update_of_ne heq] at hf
          exact .inr hf.1
    · have hnone : pmm_alloc_block s offer.found = (0, s) := if_neg hfound
      simp only [hnone, if_true]
      exact .none h rfl rfl

/-! ## Unmapping -/

theorem unmap_pages_retabled (i : Fin n) (pages address : Nat) (s : System n) :
    Retabled i s (unmap_pages i pages address s).2 ((unmap_pages i pages address s).2.spaces i).table := by
  induction pages generalizing s address with
  | zero => exact .refl i s
  | succ pages ih =>
    unfold unmap_pages
    simp only
    split
    · exact .refl i s
    · have hfirst : Retabled i s (s.put i { s i with
          table := update (s i).table (page_of address) 0 }) _ := ⟨rfl, rfl⟩
      exact hfirst.trans (ih _ _)

/-- What the unmapping loop leaves: the frames it took are held. -/
structure Unmapped (kernel : Page → Nat) (i : Fin n) (loose : Page → Prop) (held : List Nat)
    (address : Nat) (s : System n) (u : List Nat × System n) : Prop where
  kept : Kept kernel u.2 i loose (u.1 ++ held)
  less : ∀ q, (u.2.spaces i).table q = 0 ∨ (u.2.spaces i).table q = (s i).table q
  unmapped : ∀ k < u.1.length, (u.2.spaces i).table (page_at address k) = 0
  other : ∀ q, (∀ k < u.1.length, q ≠ page_at address k) → (u.2.spaces i).table q = (s i).table q

theorem Unmapped.none (h : Kept kernel s i loose held) : Unmapped kernel i loose held address s ([], s) :=
  ⟨h, fun _ => .inr rfl, fun k hk => absurd hk (Nat.not_lt_zero k), fun _ _ => rfl⟩

theorem unmap_pages_unmapped (h : Kept kernel s i loose held)
    (hkernel : ∀ k < pages, kernel (page_at address k) = 0) :
    Unmapped kernel i loose held address s (unmap_pages i pages address s) := by
  induction pages generalizing s address held with
  | zero => exact .none h
  | succ pages ih =>
    unfold unmap_pages
    simp only
    split
    · exact .none h
    rename_i hz
    have hk0 := hkernel 0 (Nat.succ_pos _)
    rw [page_at_zero] at hk0
    have hnext : ∀ k < pages, kernel (page_at (u64 (address + VM_PAGE_SIZE)) k) = 0 := by
      intro k hk
      rw [page_at_step_u64]
      exact hkernel (k + 1) (Nat.succ_lt_succ hk)
    have hrest := ih (h.unmap hk0 rfl hz) hnext
    generalize unmap_pages i pages (u64 (address + VM_PAGE_SIZE)) _ = rest at hrest
    refine ⟨hrest.kept.perm perm_middle, ?_, ?_, ?_⟩
    · intro q
      rcases hrest.less q with hq | hq
      · exact .inl hq
      · rw [put_spaces_self] at hq
        simp only at hq
        by_cases heq : q = page_of address
        · rw [heq, update_self] at hq
          exact .inl (heq ▸ hq)
        · rw [update_of_ne heq] at hq
          exact .inr hq
    · intro k hk
      cases k with
      | zero =>
        rw [page_at_zero]
        rcases hrest.less (page_of address) with hq | hq
        · exact hq
        · simpa using hq
      | succ k =>
        rw [← page_at_step_u64]
        exact hrest.unmapped k (Nat.lt_of_succ_lt_succ hk)
    · intro q hq
      have hq0 : q ≠ page_of address := page_at_zero address ▸ hq 0 (Nat.succ_pos _)
      simp only
      rw [hrest.other q, put_spaces_self]
      · simp only
        rw [update_of_ne hq0]
      · intro k hk
        rw [page_at_step_u64]
        exact hq (k + 1) (Nat.succ_lt_succ hk)

theorem unmap_pages_le (i : Fin n) (pages address : Nat) (s : System n) :
    (unmap_pages i pages address s).1.length ≤ pages := by
  induction pages generalizing s address with
  | zero => exact Nat.le_refl _
  | succ pages ih =>
    unfold unmap_pages
    simp only
    split
    · exact Nat.zero_le _
    · exact Nat.succ_le_succ (ih _ _)

/-- A range that is mapped throughout is unmapped throughout. -/
theorem unmap_pages_all (hn : pages ≤ PAGES)
    (hmapped : ∀ k < pages, (s i).table (page_at address k) ≠ 0) :
    (unmap_pages i pages address s).1.length = pages := by
  induction pages generalizing s address with
  | zero => rfl
  | succ pages ih =>
    have h0 := hmapped 0 (Nat.succ_pos _)
    rw [page_at_zero] at h0
    unfold unmap_pages
    simp only [h0, if_false, length_cons]
    rw [ih (by omega)]
    intro k hk
    have hne : page_at address (k + 1) ≠ page_of address := by
      rw [← page_at_zero]
      intro heq
      have := page_at_inj (by omega) (by omega) heq
      omega
    rw [page_at_step_u64, put_spaces_self]
    simp only
    rw [update_of_ne hne]
    exact hmapped (k + 1) (Nat.succ_lt_succ hk)

/-! ## Shootdowns -/

/-- The shootdown came through, and every CPU of the mask acknowledged it. -/
def Shootdown.Good (answer : Shootdown) (mask : U32) : Prop :=
  answer.completed ∧ answer.acknowledged &&& mask = mask

section
variable {space : AddressSpace} {invalidation : AddressSpaceInvalidation} {answer : Shootdown}

/-- Only the counters of the shootdowns change. -/
theorem complete_invalidation_eq (space : AddressSpace) (invalidation : AddressSpaceInvalidation)
    (answer : Shootdown) : ∃ done failed, (complete_invalidation space invalidation answer).2 =
      { space with shootdown_count := done, shootdown_timeout_count := failed } := by
  unfold complete_invalidation
  simp only
  split
  · exact ⟨_, _, rfl⟩
  · exact ⟨_, _, rfl⟩

theorem complete_invalidation_true (h : (complete_invalidation space invalidation answer).1) :
    answer.Good invalidation.target_mask ∧
      (complete_invalidation space invalidation answer).2.shootdown_timeout_count =
        space.shootdown_timeout_count := by
  unfold complete_invalidation at h ⊢
  simp only at h ⊢
  split at h
  · rename_i hc
    rw [if_pos hc]
    exact ⟨⟨hc.1, hc.2.2⟩, rfl⟩
  · cases h

/-- Right after it began, an invalidation is completed by a good answer. -/
theorem complete_invalidation_good {address page_count : Nat} {full_flush : Bool}
    {b : AddressSpaceInvalidation × AddressSpace}
    (hb : begin_invalidation_unlocked space address page_count full_flush = b)
    (h : answer.Good space.cached_cpu_mask) : (complete_invalidation b.2 b.1 answer).1 := by
  subst hb
  unfold complete_invalidation
  simp only
  rw [if_pos]
  exact ⟨h.1, ⟨rfl, rfl⟩, h.2⟩

end

variable {answer : Shootdown} {invalidation : AddressSpaceInvalidation} {chunk_begin : Nat}

theorem good_getLsbD {mask : U32} (h : answer.Good mask) (cpu : Nat)
    (hcpu : mask.getLsbD cpu) : answer.acknowledged.getLsbD cpu := by
  rw [← h.2, BitVec.getLsbD_and, Bool.and_eq_true] at hcpu
  exact hcpu.1

/-! ## A chunk -/

/-- Every space counts its frames in the quarantine. -/
def Counted (s : System n) : Prop :=
  ∀ i, (s i).quarantined_page_count = s.quarantine.countP fun held => held.1 == i

@[simp] theorem pass_frames_same (i : Fin n) (invalidation : AddressSpaceInvalidation)
    (acknowledged : U32) (address : Nat) (frames : List Nat) (s : System n) :
    (pass_frames i invalidation acknowledged address frames s).spaces = s.spaces ∧
      (pass_frames i invalidation acknowledged address frames s).quarantine = s.quarantine := by
  induction frames generalizing s address with
  | nil => exact ⟨rfl, rfl⟩
  | cons frame frames ih =>
    unfold pass_frames
    simp only [ih, and_self]

theorem pass_frames_kept {frames : List Nat}
    {k : Nat} (h : Kept kernel s i loose (frames ++ held)) (hgood : answer.Good (s i).cached_cpu_mask)
    (haddress : address = u64 (invalidation.address + k * VM_PAGE_SIZE))
    (hk : k + frames.length ≤ invalidation.page_count) :
    Kept kernel (pass_frames i invalidation answer.acknowledged address frames s) i loose held := by
  induction frames generalizing s address k with
  | nil => exact h
  | cons frame frames ih =>
    unfold pass_frames
    simp only [length_cons] at hk
    have hpass := Kept.pass ⟨i, address, frame, invalidation, answer.acknowledged,
      (s i).cached_cpu_mask⟩ h ⟨good_getLsbD hgood, k, Nat.lt_of_lt_of_le (by omega) hk, haddress⟩
    refine ih (k := k + 1) hpass hgood ?_ (by omega)
    rw [haddress]
    simp only [u64, VM_PAGE_SIZE]
    omega

theorem Kept.requarantine (h : Kept kernel s i loose held) (quarantine : List (Fin n × Nat)) :
    Kept kernel { s with quarantine := quarantine } i loose held :=
  ⟨h.balanced, h.fresh, h.fits, h.told⟩

theorem countP_own (i j : Fin n) (frames : List Nat) (quarantine : List (Fin n × Nat)) :
    (frames.map (Prod.mk i) ++ quarantine).countP (fun held => held.1 == j) =
      (if j = i then frames.length else 0) + quarantine.countP fun held => held.1 == j := by
  rw [countP_append]
  congr 1
  split
  · rename_i h
    subst h
    rw [countP_eq_length.mpr (by simp), length_map]
  · rename_i h
    rw [countP_eq_zero]
    intro held hheld
    obtain ⟨frame, -, rfl⟩ := mem_map.mp hheld
    simpa using Ne.symm h

theorem snd_own (i : Fin n) (frames : List Nat) (quarantine : List (Fin n × Nat)) :
    (frames.map (Prod.mk i) ++ quarantine).map Prod.snd = frames ++ quarantine.map Prod.snd := by
  simp [comp_def]

theorem Counted.put {space : AddressSpace} (h : Counted s)
    (hcount : space.quarantined_page_count = (s i).quarantined_page_count) :
    Counted (s.put i space) := by
  intro j
  by_cases hj : j = i
  · subst hj
    rw [put_spaces_self, hcount]
    exact h j
  · rw [put_spaces_of_ne _ _ hj]
    exact h j

theorem Retabled.counted (h : Retabled i s s' table) (hcounted : Counted s) : Counted s' := by
  intro j
  rw [h.spaces, h.quarantine, ← hcounted j]
  by_cases hj : j = i
  · subst hj
    rw [update_self]
  · rw [update_of_ne hj]

/-- The regions, the root, the mask and the table of the space are as they were. -/
structure Same (i : Fin n) (s s' : System n) : Prop where
  regions : (s' i).regions = (s i).regions
  rooted : (s' i).rooted = (s i).rooted
  cached : (s' i).cached_cpu_mask = (s i).cached_cpu_mask
  table : (s' i).table = (s i).table

theorem Same.trans (h : Same i s s') (h' : Same i s' s'') : Same i s s'' :=
  ⟨h'.regions.trans h.regions, h'.rooted.trans h.rooted, h'.cached.trans h.cached, h'.table.trans h.table⟩

/-- The regions, the root and the mask of the space are as they were, and no page was
mapped. -/
structure Less (i : Fin n) (s s' : System n) : Prop where
  regions : (s' i).regions = (s i).regions
  rooted : (s' i).rooted = (s i).rooted
  cached : (s' i).cached_cpu_mask = (s i).cached_cpu_mask
  table : ∀ q, (s' i).table q = 0 ∨ (s' i).table q = (s i).table q

theorem Less.refl (i : Fin n) (s : System n) : Less i s s := ⟨rfl, rfl, rfl, fun _ => .inr rfl⟩

theorem Less.trans (h : Less i s s') (h' : Less i s' s'') : Less i s s'' := by
  refine ⟨h'.regions.trans h.regions, h'.rooted.trans h.rooted, h'.cached.trans h.cached, fun q => ?_⟩
  rcases h'.table q with hq | hq
  · exact .inl hq
  · rcases h.table q with hq' | hq'
    · exact .inl (hq.trans hq')
    · exact .inr (hq.trans hq')

theorem Same.less (h : Same i s s') : Less i s s' :=
  ⟨h.regions, h.rooted, h.cached, fun q => .inr (congrFun h.table q)⟩

theorem Less.unmapped (h : Less i s s') {q : Page} (hq : (s i).table q = 0) : (s' i).table q = 0 := by
  rcases h.table q with h | h
  · exact h
  · exact h.trans hq

/-- What a turn of the loop over the chunks leaves. -/
structure Turned (kernel : Page → Nat) (i : Fin n) (loose : Page → Prop) (chunk_begin chunk : Nat)
    (s : System n) (t : Turn n) : Prop where
  kept : Kept kernel t.system i loose (t.system.quarantine.map Prod.snd)
  counted : Counted t.system
  less : Less i s t.system
  le : t.unmapped ≤ chunk
  unmapped : ∀ k < t.unmapped, (t.system i).table (page_at chunk_begin k) = 0
  other : ∀ q, (∀ k < t.unmapped, q ≠ page_at chunk_begin k) →
    (t.system i).table q = (s i).table q

/-- The chunk is counted and its shootdown begins. -/
theorem quarantine_chunk_kept {physical : List Nat} (chunk_begin : Nat)
    (h : Kept kernel s i loose (physical ++ s.quarantine.map Prod.snd)) (hcounted : Counted s) :
    let s' := (quarantine_chunk s i chunk_begin physical).2
    Kept kernel s' i loose (physical ++ s.quarantine.map Prod.snd) ∧ Counted s' ∧ Same i s s' := by
  refine ⟨?_, ?_, ?_⟩
  · apply Kept.requarantine
    exact h.put_same rfl rfl rfl
  · intro j
    simp only [quarantine_chunk]
    rw [countP_own]
    by_cases hj : j = i
    · subst hj
      rw [put_spaces_self, if_pos rfl]
      simp only [begin_invalidation_unlocked]
      rw [hcounted j]
      omega
    · rw [put_spaces_of_ne _ _ hj, if_neg hj, hcounted j]
      omega
  · refine ⟨?_, ?_, ?_, ?_⟩ <;>
      simp only [quarantine_chunk, begin_invalidation_unlocked, put_spaces_self]

/-- The chunk was acknowledged and goes back. -/
theorem retire_chunk_kept {physical : List Nat} {quarantine : List (Fin n × Nat)}
    (h : Kept kernel s i loose (physical ++ quarantine.map Prod.snd)) (hcounted : Counted s)
    (hq : s.quarantine = physical.map (Prod.mk i) ++ quarantine)
    (hgood : answer.Good (s i).cached_cpu_mask) (hbegin : chunk_begin < 2 ^ 64)
    (haddress : invalidation.address = chunk_begin) (hcount : invalidation.page_count = physical.length) :
    let s' := retire_chunk s i chunk_begin physical invalidation answer.acknowledged
    Kept kernel s' i loose (quarantine.map Prod.snd) ∧ Counted s' ∧ s'.quarantine = quarantine ∧
      Same i s s' := by
  have hkept := pass_frames_kept (k := 0) h hgood
    (by rw [haddress, Nat.zero_mul, Nat.add_zero, u64_of_lt hbegin]) (by omega)
  have hdrop : s.quarantine.drop physical.length = quarantine := by
    rw [hq]
    exact drop_left' (length_map _)
  unfold retire_chunk
  simp only [pass_frames_same, hdrop]
  refine ⟨?_, ?_, trivial, ?_⟩
  · apply Kept.requarantine
    refine hkept.put_same ?_ ?_ ?_ <;> simp
  · intro j
    have hj' := hcounted j
    rw [hq, countP_own] at hj'
    by_cases hj : j = i
    · subst hj
      rw [if_pos rfl] at hj'
      simp only [put_spaces_self]
      omega
    · rw [if_neg hj] at hj'
      simp only
      rw [put_spaces_of_ne _ _ hj, (pass_frames_same ..).1]
      omega
  · refine ⟨?_, ?_, ?_, ?_⟩ <;> simp only [put_spaces_self]

theorem unmap_chunk_turned {chunk : Nat} (answers : Answers)
    (h : Kept kernel s i loose (s.quarantine.map Prod.snd)) (hcounted : Counted s)
    (hkernel : ∀ k < chunk, kernel (page_at chunk_begin k) = 0) (hbegin : chunk_begin < 2 ^ 64)
    (haligned : align_down_page chunk_begin = chunk_begin) :
    Turned kernel i loose chunk_begin chunk s (unmap_chunk s i chunk_begin chunk answers) := by
  have hstop : ∀ answers, Turned kernel i loose chunk_begin chunk s ⟨0, false, s, answers⟩ :=
    fun _ => ⟨h, hcounted, .refl i s, Nat.zero_le _, fun k hk => absurd hk (Nat.not_lt_zero k), fun _ _ => rfl⟩
  unfold unmap_chunk
  split
  · exact hstop answers
  have hu := unmap_pages_unmapped h hkernel
  have hretabled := unmap_pages_retabled i chunk chunk_begin s
  have hle := unmap_pages_le i chunk chunk_begin s
  generalize unmap_pages i chunk chunk_begin s = u at hu hretabled hle
  obtain ⟨physical, s₁⟩ := u
  have hless : Less i s s₁ := by
    refine ⟨?_, ?_, ?_, hu.less⟩ <;> rw [hretabled.self]
  have hq₁ : s₁.quarantine = s.quarantine := hretabled.quarantine
  have hcounted₁ : Counted s₁ := hretabled.counted hcounted
  simp only
  split
  · rename_i hnil
    refine ⟨?_, hcounted₁, hless, Nat.zero_le _, fun k hk => absurd hk (Nat.not_lt_zero k), fun q _ => ?_⟩
    · simpa [hnil, hq₁] using hu.kept
    · exact hu.other q fun k hk => by simp [hnil] at hk
  have hkept₁ : Kept kernel s₁ i loose (physical ++ s₁.quarantine.map Prod.snd) := by
    rw [hq₁]
    exact hu.kept
  obtain ⟨hkept₂, hcounted₂, hsame₂⟩ := quarantine_chunk_kept chunk_begin hkept₁ hcounted₁
  obtain ⟨haddress, hcount, hmask, hq₂⟩ : let q := quarantine_chunk s₁ i chunk_begin physical
      q.1.address = chunk_begin ∧ q.1.page_count = physical.length ∧
      q.1.target_mask = (s₁ i).cached_cpu_mask ∧
      q.2.quarantine = physical.map (Prod.mk i) ++ s₁.quarantine := ⟨haligned, rfl, rfl, rfl⟩
  generalize quarantine_chunk s₁ i chunk_begin physical = q at *
  generalize answer_to q.1 answers = answer
  obtain ⟨done, failed, hc⟩ := complete_invalidation_eq (q.2.spaces i) q.1 answer
  have hkept₃ : Kept kernel (q.2.put i (complete_invalidation (q.2.spaces i) q.1 answer).2) i loose
      (physical ++ s₁.quarantine.map Prod.snd) := by
    refine hkept₂.put_same ?_ ?_ ?_ <;> rw [hc]
  have hcounted₃ : Counted (q.2.put i (complete_invalidation (q.2.spaces i) q.1 answer).2) :=
    hcounted₂.put (by rw [hc])
  have hsame₃ : Same i q.2 (q.2.put i (complete_invalidation (q.2.spaces i) q.1 answer).2) := by
    refine ⟨?_, ?_, ?_, ?_⟩ <;> rw [put_spaces_self, hc]
  -- from the unmapped pages on, the table stays
  have hrest : ∀ t : Turn n, Same i s₁ t.system → t.unmapped = physical.length →
      Less i s t.system ∧
      (∀ k < t.unmapped, (t.system i).table (page_at chunk_begin k) = 0) ∧
      ∀ q, (∀ k < t.unmapped, q ≠ page_at chunk_begin k) →
        (t.system i).table q = (s i).table q := by
    intro t hsame hlength
    rw [hsame.table, hlength]
    exact ⟨hless.trans hsame.less, hu.unmapped, hu.other⟩
  split
  · obtain ⟨hless', hunmapped, hother⟩ := hrest ⟨physical.length, false, _, answers_after q.1 answers⟩
      (hsame₂.trans hsame₃) rfl
    refine ⟨?_, hcounted₃, hless', hle, hunmapped, hother⟩
    rw [put_quarantine, hq₂, snd_own]
    exact hkept₃
  · rename_i hcompleted
    have hgood := (complete_invalidation_true (by simpa using hcompleted)).1
    rw [hmask, ← (hsame₂.trans hsame₃).cached] at hgood
    obtain ⟨hkept₄, hcounted₄, hq₄, hsame₄⟩ := retire_chunk_kept hkept₃ hcounted₃ hq₂ hgood
      hbegin haddress hcount
    obtain ⟨hless', hunmapped, hother⟩ := hrest ⟨physical.length, decide (physical.length = chunk), _,
      answers_after q.1 answers⟩ (hsame₂.trans (hsame₃.trans hsame₄)) rfl
    refine ⟨?_, hcounted₄, hless', hle, hunmapped, hother⟩
    simp only
    rw [hq₄]
    exact hkept₄

/-- Every answer is good, or none is asked for. -/
def AllGood (answers : Answers) (mask : U32) : Prop := mask = 0 ∨ ∀ k, (answers k).Good mask

theorem answer_to_good {answers : Answers}
    (h : invalidation.target_mask = 0 ∨ (answers 0).Good invalidation.target_mask) :
    (answer_to invalidation answers).Good invalidation.target_mask := by
  unfold answer_to
  split
  · rename_i hz
    rw [hz]
    exact ⟨rfl, rfl⟩
  · rename_i hz
    exact h.resolve_left hz

theorem AllGood.after {answers : Answers} {mask : U32}
    (h : AllGood answers mask) : AllGood (answers_after invalidation answers) mask := by
  unfold answers_after
  split
  · exact h
  · exact h.imp_right fun h k => h (k + 1)

/-- A chunk that is mapped throughout is unmapped throughout, and the loop goes on if
its shootdown is acknowledged. -/
theorem unmap_chunk_all {chunk : Nat} (answers : Answers)
    (hgate : (s i).mutation_gate_enter) (hpos : 0 < chunk) (hn : chunk ≤ PAGES)
    (hmapped : ∀ k < chunk, (s i).table (page_at chunk_begin k) ≠ 0) :
    let t := unmap_chunk s i chunk_begin chunk answers
    t.unmapped = chunk ∧ (AllGood answers (s i).cached_cpu_mask → t.again ∧
      (t.system i).mutation_gate_enter ∧ AllGood t.answers (s i).cached_cpu_mask) := by
  have hall := unmap_pages_all hn hmapped
  have hself := (unmap_pages_retabled i chunk chunk_begin s).self
  unfold unmap_chunk
  rw [hgate]
  simp only [Bool.not_true, Bool.false_eq_true, if_false]
  generalize unmap_pages i chunk chunk_begin s = u at hall hself
  obtain ⟨physical, s₁⟩ := u
  simp only at hall hself ⊢
  have hne : physical ≠ [] := by
    rintro rfl
    simp only [length_nil] at hall
    omega
  rw [if_neg hne]
  set q := quarantine_chunk s₁ i chunk_begin physical with hchunk
  have hq : q.2.spaces i = (begin_invalidation_unlocked
      { s₁ i with quarantined_page_count := (s₁ i).quarantined_page_count + physical.length }
      chunk_begin physical.length (decide (ADDRESS_SPACE_TLB_PAGE_LIMIT < physical.length))).2 :=
    put_spaces_self _ _ _
  refine ⟨?_, fun hgood => ?_⟩
  · split
    · exact hall
    · exact hall
  · have hmask : q.1.target_mask = (s i).cached_cpu_mask := by
      simp only [hchunk, quarantine_chunk, begin_invalidation_unlocked]
      rw [congrArg AddressSpace.cached_cpu_mask hself]
    have hfirst : q.1.target_mask = 0 ∨ (answers 0).Good q.1.target_mask := by
      rw [hmask]
      exact hgood.imp_right fun h => h 0
    have hanswer := answer_to_good hfirst
    have hcompleted : (complete_invalidation (q.2.spaces i) q.1 (answer_to q.1 answers)).1 := by
      rw [hq]
      exact complete_invalidation_good rfl hanswer
    have htimeout := (complete_invalidation_true hcompleted).2
    rw [if_neg (by simp [hcompleted])]
    refine ⟨decide_eq_true hall, ?_, hgood.after⟩
    simp only [retire_chunk, put_spaces_self, pass_frames_same, AddressSpace.mutation_gate_enter]
    rw [htimeout, hq]
    simp only [begin_invalidation_unlocked]
    rw [congrArg AddressSpace.shootdown_timeout_count hself]
    exact hgate

end

end mini_kernel.space
