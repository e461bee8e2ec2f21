-- The law of the frames: a frame goes back to the allocator only after every CPU
-- that may know it has forgotten it, never twice, and between the calls it is mapped
-- in a region, back, or counted in the quarantine. The last part needs care of the
-- callers: unmapping a single page, mapping over a page, a shootdown that fails after
-- mapping and a full table of regions each lose a frame or its region.
import MiniKernel.Mm.SpaceLoops

open mini_kernel.lib mini_kernel.vm List

namespace mini_kernel.space

section
variable {n : Nat} {kernel : Page → Nat} {s s' : System n} {i : Fin n} {loose : Page → Prop}
  {held : List Nat} {start page_count total : Nat} {answers : Answers}

/-! ## The loop over the chunks -/

theorem align_down_page_spec (value : Nat) :
    align_down_page value ≤ value ∧ align_down_page value % VM_PAGE_SIZE = 0 :=
  ⟨align_down_le _ _, align_down_mod _ _⟩

theorem align_down_page_of_mod {value : Nat}
    (h : value % VM_PAGE_SIZE = 0) : align_down_page value = value := by
  unfold align_down_page align_down
  rw [h, Nat.sub_zero]

theorem chunk_begin_mod (h : start % VM_PAGE_SIZE = 0) (total : Nat) :
    u64 (start + total * VM_PAGE_SIZE) % VM_PAGE_SIZE = 0 := by
  simp only [u64, VM_PAGE_SIZE] at h ⊢
  omega

theorem page_at_chunk (start total k : Nat) :
    page_at (u64 (start + total * VM_PAGE_SIZE)) k = page_at start (total + k) := by
  rw [page_at_u64, page_at_add]

/-- What the loop over the chunks leaves. -/
structure Cleared (kernel : Page → Nat) (i : Fin n) (loose : Page → Prop) (start page_count : Nat)
    (s : System n) (r : Nat × System n) : Prop where
  kept : Kept kernel r.2 i loose (r.2.quarantine.map Prod.snd)
  counted : Counted r.2
  less : Less i s r.2
  le : r.1 ≤ page_count
  unmapped : ∀ k < r.1, (r.2.spaces i).table (page_at start k) = 0

theorem unmap_chunks_cleared (turns : Nat) (answers : Answers)
    (h : Kept kernel s i loose (s.quarantine.map Prod.snd)) (hcounted : Counted s)
    (hkernel : ∀ k < page_count, kernel (page_at start k) = 0) (hstart : start % VM_PAGE_SIZE = 0)
    (htotal : total ≤ page_count) (hdone : ∀ k < total, (s i).table (page_at start k) = 0) :
    Cleared kernel i loose start page_count s (unmap_chunks i start page_count turns total s answers) := by
  induction turns generalizing s total answers with
  | zero => exact ⟨h, hcounted, .refl i s, htotal, hdone⟩
  | succ turns ih =>
    unfold unmap_chunks
    split
    · exact ⟨h, hcounted, .refl i s, htotal, hdone⟩
    rename_i hmore
    have hchunk : ∀ k < min (page_count - total) ADDRESS_SPACE_QUARANTINE_LIMIT,
        kernel (page_at (u64 (start + total * VM_PAGE_SIZE)) k) = 0 := by
      intro k hk
      rw [page_at_chunk]
      exact hkernel _ (by omega)
    have ht := unmap_chunk_turned answers h hcounted hchunk (Nat.mod_lt _ (by decide))
      (align_down_page_of_mod (chunk_begin_mod hstart total))
    simp only
    generalize unmap_chunk s i (u64 (start + total * VM_PAGE_SIZE)) _ answers = t at ht
    have hdone' : ∀ k < total + t.unmapped, (t.system i).table (page_at start k) = 0 := by
      intro k hk
      by_cases hkt : k < total
      · exact ht.less.unmapped (hdone k hkt)
      · have := ht.unmapped (k - total) (by omega)
        rwa [page_at_chunk, Nat.add_sub_cancel' (by omega)] at this
    have htotal' : total + t.unmapped ≤ page_count := by
      have := ht.le
      omega
    split
    · have hrest := ih t.answers ht.kept ht.counted htotal' hdone'
      exact ⟨hrest.kept, hrest.counted, ht.less.trans hrest.less, hrest.le, hrest.unmapped⟩
    · exact ⟨ht.kept, ht.counted, ht.less, htotal', hdone'⟩

theorem unmap_chunks_done {turns : Nat} (h : page_count ≤ total) :
    unmap_chunks i start page_count turns total s answers = (total, s) := by
  cases turns with
  | zero => rfl
  | succ turns => exact if_pos h

/-- A range that is mapped throughout is unmapped throughout if one chunk is enough or
all shootdowns are acknowledged. -/
theorem unmap_chunks_all (turns total : Nat) (answers : Answers)
    (h : Kept kernel s i loose (s.quarantine.map Prod.snd))
    (hcounted : Counted s) (hkernel : ∀ k < page_count, kernel (page_at start k) = 0)
    (hstart : start % VM_PAGE_SIZE = 0) (hgate : (s i).mutation_gate_enter)
    (hn : page_count ≤ PAGES) (htotal : total ≤ page_count) (hturns : page_count ≤ total + turns)
    (hmapped : ∀ k, total ≤ k → k < page_count → (s i).table (page_at start k) ≠ 0)
    (hgood : page_count ≤ total + ADDRESS_SPACE_QUARANTINE_LIMIT ∨
      AllGood answers (s i).cached_cpu_mask) :
    (unmap_chunks i start page_count turns total s answers).1 = page_count := by
  induction turns generalizing s total answers with
  | zero => exact Nat.le_antisymm htotal hturns
  | succ turns ih =>
    unfold unmap_chunks
    split
    · exact Nat.le_antisymm htotal (by assumption)
    rename_i hmore
    have hchunk : min (page_count - total) ADDRESS_SPACE_QUARANTINE_LIMIT ≤ page_count - total :=
      Nat.min_le_left _ _
    have hkernel' : ∀ k < min (page_count - total) ADDRESS_SPACE_QUARANTINE_LIMIT,
        kernel (page_at (u64 (start + total * VM_PAGE_SIZE)) k) = 0 := by
      intro k hk
      rw [page_at_chunk]
      exact hkernel _ (by omega)
    have hmapped' : ∀ k < min (page_count - total) ADDRESS_SPACE_QUARANTINE_LIMIT,
        (s i).table (page_at (u64 (start + total * VM_PAGE_SIZE)) k) ≠ 0 := by
      intro k hk
      rw [page_at_chunk]
      exact hmapped _ (by omega) (by omega)
    have hpos : 0 < min (page_count - total) ADDRESS_SPACE_QUARANTINE_LIMIT :=
      Nat.lt_min.mpr ⟨by omega, by decide⟩
    have ht := unmap_chunk_turned answers h hcounted hkernel' (Nat.mod_lt _ (by decide))
      (align_down_page_of_mod (chunk_begin_mod hstart total))
    obtain ⟨hlength, hagain⟩ := unmap_chunk_all answers hgate hpos (by omega) hmapped'
    simp only
    generalize unmap_chunk s i (u64 (start + total * VM_PAGE_SIZE)) _ answers = t at ht hlength hagain
    rcases hgood with hone | hgood
    · have hlast : total + t.unmapped = page_count := by omega
      split
      · rw [unmap_chunks_done (by omega)]
        exact hlast
      · exact hlast
    · obtain ⟨hagain, hgate', hgood'⟩ := hagain hgood
      rw [if_pos hagain]
      refine ih _ t.answers ht.kept ht.counted hgate' (by omega) (by omega) ?_ (.inr ?_)
      · intro k hlo hhi
        rw [ht.other _ ?_]
        · exact hmapped k (by omega) hhi
        · intro j hj
          rw [page_at_chunk]
          intro heq
          have := page_at_inj (by omega) (by omega) heq
          omega
      · rw [ht.less.cached]
        exact hgood'

/-! ## Taking a range out -/

variable {finish virt rights mapped frame : Nat} {space : AddressSpace}

/-- Addresses of pages that are not mapped leave the regions. -/
theorem Kept.remove {count : Nat} {regions : Regions} (h : Kept kernel s i loose held)
    (hw : Without start finish (s i).regions regions)
    (hgone : ∀ a, start ≤ a → a < finish → (s i).table (page_of a) = 0) :
    Kept kernel (s.put i { s i with regions := regions, region_count := count }) i loose held := by
  have hf := h.fits_self
  refine h.put rfl ⟨?_, ?_, hw.proper, hf.unrooted⟩
  · intro p hk ht
    rcases hf.covered p hk ht with ⟨a, rfl, ha⟩ | hl
    · refine .inl ⟨a, rfl, hw.kept a ha ?_⟩
      rintro ⟨hlo, hhi⟩
      exact ht (hgone a hlo hhi)
    · exact .inr hl
  · rintro p ⟨a, rfl, ha⟩
    exact hf.own _ ⟨a, rfl, hw.less a ha⟩

theorem range_page {a : Nat} (hstart : start % VM_PAGE_SIZE = 0) (hlo : start ≤ a) :
    page_of a = page_at start ((a - start) / VM_PAGE_SIZE) := by
  apply Fin.ext
  simp only [page_at, page_of, VM_PAGE_SIZE, PAGES] at hstart ⊢
  omega

/-- The end of a range of whole pages: nothing of it is beyond the last page, also if
the sum wraps. -/
theorem range_end {a : Nat} (hstart : start % VM_PAGE_SIZE = 0) (hlt : start < 2 ^ 64) (hn : total ≤ PAGES)
    (hlo : start ≤ a) (hhi : a < align_up_page (u64 (start + total * VM_PAGE_SIZE))) :
    (a - start) / VM_PAGE_SIZE < total := by
  simp only [align_up_page, align_up, align_down, u64, VM_PAGE_SIZE, PAGES] at *
  omega

/-- What `address_space_unmap_free_range` leaves. -/
structure Freed (kernel : Page → Nat) (i : Fin n) (loose : Page → Prop) (start : Nat)
    (r : Nat × System n) : Prop where
  kept : Kept kernel r.2 i loose (r.2.quarantine.map Prod.snd)
  counted : Counted r.2
  unmapped : ∀ k < r.1, (r.2.spaces i).table (page_at start k) = 0

theorem unmap_free_range_freed (answers : Answers)
    (h : Kept kernel s i loose (s.quarantine.map Prod.snd)) (hcounted : Counted s)
    (hkernel : ∀ k < page_count, kernel (page_at (align_down_page virt) k) = 0)
    (hvirt : virt < 2 ^ 64) (hn : page_count ≤ PAGES)
    (hroom : Room (align_down_page virt) (s i).regions (finRange ADDRESS_SPACE_MAX_REGIONS)) :
    Freed kernel i loose (align_down_page virt) (address_space_unmap_free_range s i virt page_count answers) := by
  unfold address_space_unmap_free_range
  split
  · exact ⟨h, hcounted, fun k hk => absurd hk (Nat.not_lt_zero k)⟩
  obtain ⟨hle, hmod⟩ := align_down_page_spec virt
  have hc := unmap_chunks_cleared page_count answers h hcounted hkernel hmod (Nat.zero_le _)
    fun k hk => absurd hk (Nat.not_lt_zero k)
  simp only
  generalize unmap_chunks i (align_down_page virt) page_count page_count 0 s answers = r at hc
  split
  · exact ⟨hc.kept, hc.counted, hc.unmapped⟩
  unfold address_space_remove_region
  split_ifs
  · exact ⟨hc.kept.put_same rfl rfl rfl, hc.counted.put rfl, by simpa using hc.unmapped⟩
  · exact ⟨hc.kept.put_same rfl rfl rfl, hc.counted.put rfl, by simpa using hc.unmapped⟩
  · rw [align_down_page_of_mod hmod]
    have hw := remove_loop_without (align_up_page (u64 (align_down_page virt + r.1 * VM_PAGE_SIZE)))
      (finRange ADDRESS_SPACE_MAX_REGIONS) (sortedLT_finRange _).pairwise (r.2.spaces i).region_count
      hc.kept.fits_self.proper (hc.less.regions.symm ▸ hroom)
    refine ⟨hc.kept.remove hw ?_, hc.counted.put rfl, by simpa using hc.unmapped⟩
    intro a hlo hhi
    have hk := range_end hmod (by omega) (hc.le.trans hn) hlo hhi
    rw [range_page hmod hlo]
    exact hc.unmapped _ hk

/-- A range that was just mapped goes back whole. -/
theorem unmap_free_range_all (answers : Answers)
    (h : Kept kernel s i loose (s.quarantine.map Prod.snd)) (hcounted : Counted s)
    (hkernel : ∀ k < page_count, kernel (page_at (align_down_page virt) k) = 0)
    (hrooted : (s i).rooted) (hgate : (s i).mutation_gate_enter) (hn : page_count ≤ PAGES)
    (hmapped : ∀ k < page_count, (s i).table (page_at (align_down_page virt) k) ≠ 0)
    (hgood : page_count ≤ ADDRESS_SPACE_QUARANTINE_LIMIT ∨ AllGood answers (s i).cached_cpu_mask) :
    (address_space_unmap_free_range s i virt page_count answers).1 = page_count := by
  have hall := unmap_chunks_all page_count 0 answers h hcounted hkernel
    (align_down_page_spec virt).2 hgate hn (Nat.zero_le _) (by omega) (fun k _ => hmapped k)
    (by simpa using hgood)
  unfold address_space_unmap_free_range
  split
  · rename_i hno
    rw [hrooted] at hno
    simpa using Eq.symm (hno.resolve_left (by simp))
  · simp only
    split
    · exact hall
    · exact hall

/-! ## Mapping a range -/

/-- A root is there, and nothing else has changed but pages of the kernel. -/
structure Rooted (kernel : Page → Nat) (i : Fin n) (held : List Nat) (s s' : System n) : Prop where
  kept : Kept kernel s' i (fun _ => False) held
  rooted : (s' i).rooted
  table : ∀ p, kernel p = 0 → (s' i).table p = (s i).table p
  regions : (s' i).regions = (s i).regions
  cached : (s' i).cached_cpu_mask = (s i).cached_cpu_mask
  gate : (s' i).mutation_gate_enter = (s i).mutation_gate_enter
  counted : Counted s → Counted s'
  quarantine : s'.quarantine = s.quarantine

theorem ensure_root_rooted (root : Option (List Nat)) (h : Kept kernel s i (fun _ => False) held) :
    let r := ensure_root_unlocked kernel s i root
    r.1 = false ∧ r.2 = s ∨ r.1 ∧ Rooted kernel i held s r.2 := by
  unfold ensure_root_unlocked
  simp only
  split
  · rename_i hr
    exact .inr ⟨rfl, h, hr, fun _ _ => rfl, rfl, rfl, rfl, id, rfl⟩
  rename_i hr
  have hun := h.fits_self.unrooted (by simpa using hr)
  split
  · exact .inl ⟨rfl, rfl⟩
  rename_i tables
  have hholds : holds kernel ((s.take_tables tables).put i
      { s i with rooted := true, table := kernel }) = holds kernel s := by
    funext ⟨j, p⟩
    unfold holds
    by_cases hj : j = i
    · subst hj
      simp [hun]
    · simp only
      rw [put_spaces_of_ne _ _ hj]
      rfl
  have ht := h.take_tables tables
  refine .inr ⟨rfl, ⟨?_, ht.fresh, ?_, ht.told⟩, ?_, ?_, ?_, ?_, ?_, ?_, rfl⟩
  · rw [hholds]
    exact h.balanced
  · intro j
    by_cases hj : j = i
    · subst hj
      rw [put_spaces_self]
      have hf := h.fits j
      exact ⟨fun p hk hp => absurd hk hp, hf.own, hf.proper, fun h => by cases h⟩
    · rw [put_spaces_of_ne _ _ hj]
      exact h.fits j
  · simp
  · intro p hk
    simp [hk, hun]
  · simp
  · simp
  · simp [AddressSpace.mutation_gate_enter]
  · intro hcounted
    exact Counted.put (s := s.take_tables tables) hcounted rfl

theorem add_region_same {space' : AddressSpace} (h : add_region space start finish rights = (true, space')) :
    space'.table = space.table ∧ space'.rooted = space.rooted ∧
      space'.quarantined_page_count = space.quarantined_page_count := by
  unfold add_region at h
  split at h
  · injection h with _ h
    subst h
    exact ⟨rfl, rfl, rfl⟩
  split at h
  · injection h with _ h
    subst h
    exact ⟨rfl, rfl, rfl⟩
  · injection h with h
    cases h

theorem add_region_of_true {size : Nat} (hsize : size ≠ 0)
    (h : (address_space_add_region space virt size rights).1) :
    align_down_page virt < align_up_page (u64 (virt + size)) ∧
      add_region space (align_down_page virt) (align_up_page (u64 (virt + size))) rights =
        (true, (address_space_add_region space virt size rights).2) := by
  unfold address_space_add_region at h ⊢
  rw [if_neg hsize] at h ⊢
  simp only at h ⊢
  split_ifs at h with hlt hgate
  rw [if_neg hlt, if_neg hgate]
  exact ⟨Nat.lt_of_not_le hlt, Prod.ext h rfl⟩

/-- A range of new pages comes under a region. -/
theorem Kept.add (hstart : start % VM_PAGE_SIZE = 0)
    (hfinish : finish % VM_PAGE_SIZE = 0) (hlt : start < finish)
    (h : Kept kernel s i (fun q => False ∨ ∃ k < mapped, q = page_at start k) held)
    (hmapped : mapped ≤ (finish - start) / VM_PAGE_SIZE)
    (hkernel : ∀ k < (finish - start) / VM_PAGE_SIZE, kernel (page_at start k) = 0)
    (hadd : add_region (s i) start finish rights = (true, space)) :
    Kept kernel (s.put i space) i (fun _ => False) held := by
  have hf := h.fits_self
  obtain ⟨hproper, hcovers⟩ := add_region_covers hf.proper hlt hadd
  obtain ⟨htable, hrooted, -⟩ := add_region_same hadd
  refine h.put htable ⟨?_, ?_, hproper, ?_⟩
  · intro p hk ht
    rw [htable] at ht
    left
    rcases hf.covered p hk ht with ⟨a, rfl, ha⟩ | hno | ⟨k, hk', rfl⟩
    · exact ⟨a, rfl, (hcovers a).mpr (.inl ha)⟩
    · exact hno.elim
    · refine ⟨start + k * VM_PAGE_SIZE, rfl, (hcovers _).mpr (.inr ⟨by omega, ?_⟩)⟩
      have : k < (finish - start) / VM_PAGE_SIZE := by omega
      simp only [VM_PAGE_SIZE] at *
      omega
  · rintro p ⟨a, rfl, ha⟩
    rcases (hcovers a).mp ha with ha | ⟨hlo, hhi⟩
    · exact hf.own _ ⟨a, rfl, ha⟩
    · rw [range_page hstart hlo]
      apply hkernel
      simp only [VM_PAGE_SIZE] at *
      omega
  · rw [hrooted, htable]
    exact hf.unrooted

/-- What an acknowledged shootdown after mapping leaves: everything but its counters. -/
structure Announced (kernel : Page → Nat) (i : Fin n) (loose : Page → Prop) (s : System n)
    (a : Bool × System n × Answers) : Prop where
  completed : a.1
  kept : Kept kernel a.2.1 i loose (a.2.1.quarantine.map Prod.snd)
  counted : Counted a.2.1
  same : Same i s a.2.1
  gate : (a.2.1.spaces i).mutation_gate_enter

theorem announce_announced (start mapped : Nat) (answers : Answers)
    (h : Kept kernel s i loose (s.quarantine.map Prod.snd))
    (hcounted : Counted s) (hgate : (s i).mutation_gate_enter)
    (hfirst : (s i).cached_cpu_mask = 0 ∨ (answers 0).Good (s i).cached_cpu_mask) :
    Announced kernel i loose s (announce s i start mapped answers) := by
  unfold announce
  split
  · exact ⟨rfl, h, hcounted, ⟨rfl, rfl, rfl, rfl⟩, hgate⟩
  simp only
  generalize hb : begin_invalidation_unlocked (s i) start mapped
    (decide (ADDRESS_SPACE_TLB_PAGE_LIMIT < mapped)) = b
  have hmask : b.1.target_mask = (s i).cached_cpu_mask := by
    rw [← hb]
    rfl
  obtain ⟨generation, token, hbegun⟩ : ∃ generation token, b.2 =
      { s i with tlb_generation := generation, operation_token := token } := by
    rw [← hb]
    exact ⟨_, _, rfl⟩
  have hanswer := answer_to_good (hmask ▸ hfirst)
  rw [hmask] at hanswer
  have hcompleted := complete_invalidation_good hb hanswer
  have htimeout := (complete_invalidation_true hcompleted).2
  obtain ⟨done, failed, hc⟩ := complete_invalidation_eq b.2 b.1 (answer_to b.1 answers)
  refine ⟨hcompleted, ?_, ?_, ⟨?_, ?_, ?_, ?_⟩, ?_⟩
  · refine h.put_same ?_ ?_ ?_ <;> rw [hc, hbegun]
  · exact hcounted.put (by rw [hc, hbegun])
  · rw [put_spaces_self, hc, hbegun]
  · rw [put_spaces_self, hc, hbegun]
  · rw [put_spaces_self, hc, hbegun]
  · rw [put_spaces_self, hc, hbegun]
  · rw [put_spaces_self, AddressSpace.mutation_gate_enter, htimeout, hbegun]
    exact hgate

theorem announce_answers {mask : U32} (h : AllGood answers mask) :
    AllGood (announce s i start mapped answers).2.2 mask := by
  unfold announce
  split
  · exact h
  · exact h.after

/-- The pages of the range that a call asks for. -/
def range_pages (virt size : Nat) : Nat :=
  (align_up_page (u64 (virt + size)) - align_down_page virt) / VM_PAGE_SIZE

/-- The care that a call for new pages takes, or the gate is closed: the flags have no address
bits, none of the pages is mapped or the kernel's, the table of regions has room, the
shootdown after mapping is acknowledged, and so are the others if more than one chunk
may have to go back. -/
def AllocCare (kernel : Page → Nat) (space : AddressSpace) (virt size : Nat) (flags : U64)
    (answers : Answers) : Prop :=
  space.mutation_gate_enter = false ∨
    flags &&& paging.ADDRESS_MASK = 0 ∧
    range_pages virt size ≤ PAGES ∧
    (∀ k < range_pages virt size,
      kernel (page_at (align_down_page virt) k) = 0 ∧ space.table (page_at (align_down_page virt) k) = 0) ∧
    Room (align_down_page virt) space.regions (finRange ADDRESS_SPACE_MAX_REGIONS) ∧
    (space.cached_cpu_mask = 0 ∨ (answers 0).Good space.cached_cpu_mask) ∧
    (range_pages virt size ≤ ADDRESS_SPACE_QUARANTINE_LIMIT ∨ AllGood answers space.cached_cpu_mask)

/-- What holds between the calls. -/
structure Settled (kernel : Page → Nat) (s : System n) : Prop where
  balanced : Balanced (holds kernel s) (outs s.history) (s.quarantine.map Prod.snd)
  fresh : ∀ frame, s.pool frame → standing s.history frame ≠ .out
  fits : ∀ j, Fits kernel (s j) fun _ => False
  told : Told s.history
  counted : Counted s

theorem Settled.kept (h : Settled kernel s) (i : Fin n) :
    Kept kernel s i (fun _ => False) (s.quarantine.map Prod.snd) :=
  ⟨h.balanced, h.fresh, fun j => (h.fits j).imp fun _ _ _ hp => hp.elim, h.told⟩

theorem Kept.settled (h : Kept kernel s i (fun _ => False) (s.quarantine.map Prod.snd))
    (hcounted : Counted s) : Settled kernel s :=
  ⟨h.balanced, h.fresh, fun j => (h.fits j).imp fun _ _ _ hp => hp.2, h.told, hcounted⟩

/-- What is mapped and under no region goes back whole. -/
theorem Freed.settle {r : Nat × System n}
    (h : Freed kernel i (fun q => False ∨ ∃ k < page_count, q = page_at start k) start r)
    (hall : r.1 = page_count) : Settled kernel r.2 := by
  refine (h.kept.imp ?_).settled h.counted
  rintro q hq (hno | ⟨k, hk, rfl⟩)
  · exact hno
  · exact hq (h.unmapped k (hall ▸ hk))

/-- What was mapped by a call that fails goes back. -/
theorem roll_back_settled (answers : Answers) (hmod : start % VM_PAGE_SIZE = 0)
    (h : Kept kernel s i (fun q => False ∨ ∃ k < mapped, q = page_at start k) (s.quarantine.map Prod.snd))
    (hcounted : Counted s) (hkernel : ∀ k < mapped, kernel (page_at start k) = 0) (hstart : start < 2 ^ 64)
    (hn : mapped ≤ PAGES) (hroom : Room start (s i).regions (finRange ADDRESS_SPACE_MAX_REGIONS))
    (hrooted : (s i).rooted) (hgate : (s i).mutation_gate_enter)
    (hmapped : ∀ k < mapped, (s i).table (page_at start k) ≠ 0)
    (hgood : mapped ≤ ADDRESS_SPACE_QUARANTINE_LIMIT ∨ AllGood answers (s i).cached_cpu_mask) :
    Settled kernel (address_space_unmap_free_range s i start mapped answers).2 := by
  have haligned := align_down_page_of_mod hmod
  have hkernel' : ∀ k < mapped, kernel (page_at (align_down_page start) k) = 0 := by rwa [haligned]
  have hfreed := unmap_free_range_freed answers h hcounted hkernel' hstart hn (by rwa [haligned])
  have hall := unmap_free_range_all answers h hcounted hkernel' hrooted hgate hn (by rwa [haligned]) hgood
  rw [haligned] at hfreed
  exact hfreed.settle hall

theorem alloc_map_range_settled {size : Nat} (flags : U64) (root : Option (List Nat)) (offers : List Offer)
    (h : Settled kernel s) (hvirt : virt < 2 ^ 64) (hcare : AllocCare kernel (s i) virt size flags answers) :
    Settled kernel (address_space_alloc_map_range kernel s i virt size flags root offers answers).2 := by
  unfold address_space_alloc_map_range
  split
  · exact h
  split
  · exact h
  rename_i hgate
  have hgate : (s i).mutation_gate_enter := by simpa using hgate
  obtain hclosed | ⟨hflags, hn, hfree, hroom, hfirst, hgood⟩ := hcare
  · rw [hgate] at hclosed
    cases hclosed
  obtain ⟨hno, hsame⟩ | ⟨hyes, hr⟩ := ensure_root_rooted root (h.kept i)
  · simp only [hno, Bool.not_false, if_true, hsame]
    exact h
  simp only [hyes, Bool.not_true, Bool.false_eq_true, if_false]
  generalize (ensure_root_unlocked kernel s i root).2 = s₁ at hr
  obtain ⟨hle, hmod⟩ := align_down_page_spec virt
  have hfree₁ : ∀ k < range_pages virt size, kernel (page_at (align_down_page virt) k) = 0 ∧
      (s₁ i).table (page_at (align_down_page virt) k) = 0 := by
    intro k hk
    obtain ⟨hkernel, htable⟩ := hfree k hk
    exact ⟨hkernel, (hr.table _ hkernel).trans htable⟩
  have hm := map_pages_mapped hflags offers hr.kept hr.rooted hn hfree₁
  rw [range_pages] at hm
  generalize map_pages i flags _ (align_down_page virt) offers s₁ = m at hm
  -- the space after the loop differs in its table only
  have hself := hm.retabled.self
  have hregions : (m.2.spaces i).regions = (s i).regions := by rw [hself, hr.regions]
  have hcached : (m.2.spaces i).cached_cpu_mask = (s i).cached_cpu_mask := by rw [hself, hr.cached]
  have hrooted : (m.2.spaces i).rooted := by rw [hself, hr.rooted]
  have hopen : (m.2.spaces i).mutation_gate_enter := by
    rw [hself]
    exact hr.gate.trans hgate
  have hq : m.2.quarantine = s.quarantine := hm.retabled.quarantine.trans hr.quarantine
  have ha := announce_announced (align_down_page virt) m.1 answers (hq.symm ▸ hm.kept)
    (hm.retabled.counted (hr.counted h.counted)) hopen (hcached.symm ▸ hfirst)
  have hanswers : m.1 ≤ ADDRESS_SPACE_QUARANTINE_LIMIT ∨
      AllGood (announce m.2 i (align_down_page virt) m.1 answers).2.2 (s i).cached_cpu_mask :=
    hgood.imp (fun hle => hm.le.trans hle) announce_answers
  generalize announce m.2 i (align_down_page virt) m.1 answers = a at ha hanswers
  obtain ⟨completed, s₂, answers₂⟩ := a
  obtain ⟨hcompleted, hkept, hcounted₂, hsame, hgate₂⟩ := ha
  simp only at hcompleted hkept hcounted₂ hsame hgate₂ hanswers
  have hkernel : ∀ k < m.1, kernel (page_at (align_down_page virt) k) = 0 := fun k hk =>
    (hfree k (Nat.lt_of_lt_of_le hk hm.le)).1
  have hback := roll_back_settled answers₂ hmod hkept hcounted₂ hkernel (by omega) (hm.le.trans hn)
    (by rw [hsame.regions, hregions]; exact hroom) (hsame.rooted.trans hrooted) hgate₂
    (by rw [hsame.table]; exact hm.mapped) (by rw [hsame.cached, hcached]; exact hanswers)
  simp only [hcompleted, Bool.not_true, Bool.false_eq_true, if_false]
  split
  · exact hback
  split
  · exact hback
  rename_i hadded
  simp only [Bool.not_eq_eq_eq_not, Bool.not_true, Bool.not_eq_false] at hadded
  obtain ⟨hlt, hadd⟩ := add_region_of_true (by assumption) hadded
  obtain ⟨-, -, hcount⟩ := add_region_same hadd
  have hnew := Kept.add hmod (align_down_mod _ _) hlt hkept hm.le (fun k hk => (hfree k hk).1) hadd
  exact hnew.settled (hcounted₂.put hcount)

theorem activate_settled (h : Settled kernel s) (i : Fin n) (cpu : Fin 32) :
    Settled kernel (address_space_activate s i cpu) := by
  unfold address_space_activate
  simp only
  split
  · refine Kept.settled (i := i) ?_ (h.counted.put rfl)
    exact (h.kept i).put_same rfl rfl rfl
  · exact h

/-! ## The runs -/

/-- The care that each call takes. -/
def Careful (kernel : Page → Nat) (s : System n) : Call n → Prop
  | .alloc_map_range i virt size flags _ _ answers =>
    AllocCare kernel (s i) virt.toNat size.toNat flags answers
  | .unmap_free_range i virt page_count _ =>
    (∀ k < page_count.toNat, kernel (page_at (align_down_page virt.toNat) k) = 0) ∧
      Room (align_down_page virt.toNat) (s i).regions (finRange ADDRESS_SPACE_MAX_REGIONS)
  | .unmap_page i virt _ =>
    (s i).mutation_gate_enter = false ∨ (s i).table (page_of virt.toNat) = 0
  | .activate _ _ => True

theorem start_settled (n : Nat) (kernel : Page → Nat) (pool : Nat → Bool) :
    Settled kernel (mini_kernel.space.start n pool) := by
  refine ⟨?_, ?_, ?_, trivial, fun i => rfl⟩
  · intro frame
    have hnone : holders (holds kernel (mini_kernel.space.start n pool)) frame = 0 := by
      apply countOf_eq_zero
      intro r
      simp [holds, mini_kernel.space.start, address_space_init]
    rw [hnone]
    rfl
  · intro frame _ h
    cases h
  · intro j
    refine ⟨fun p _ hp => absurd rfl hp, ?_, ?_, fun _ _ => rfl⟩
    · rintro p ⟨a, -, i, h, -⟩
      cases h
    · intro i h
      cases h

theorem call_settled {c : Call n} (h : Settled kernel s) (hcare : Careful kernel s c)
    (hc : s.call kernel c = some s') : Settled kernel s' := by
  cases c with
  | alloc_map_range i virt size flags root offers answers =>
    injection hc with hc
    exact hc ▸ alloc_map_range_settled flags root offers h virt.isLt hcare
  | unmap_free_range i virt page_count answers =>
    injection hc with hc
    have hn : page_count.toNat ≤ PAGES := page_count.isLt.le.trans (by decide)
    have hfreed := unmap_free_range_freed answers (h.kept i) h.counted hcare.1 virt.isLt hn hcare.2
    exact hc ▸ hfreed.kept.settled hfreed.counted
  | unmap_page i virt answers =>
    injection hc with hc
    -- nothing is mapped there, or the gate is closed
    have hsame : (address_space_unmap_page s i virt.toNat answers).2 = s := by
      unfold address_space_unmap_page
      simp only
      split_ifs with h1 h2 h3
      · rfl
      · rfl
      · rfl
      · rcases hcare with hgate | htable
        · rw [hgate] at h2
          exact absurd rfl h2
        · exact absurd htable h3
    rw [hsame] at hc
    exact hc ▸ h
  | activate i cpu =>
    injection hc with hc
    exact hc ▸ activate_settled h i cpu

/-- A page that lies in a region maps the frame. -/
def MappedInRegion (s : System n) (frame : Nat) : Prop :=
  ∃ i p, (s i).table p = frame ∧ InRegion (s i) p

/-- The frame is one of those that `quarantined_page_count` counts. -/
def Quarantined (s : System n) (frame : Nat) : Prop := ∃ i, (i, frame) ∈ s.quarantine

/-- A frame that was obtained is mapped in a region, back, or in the quarantine, and
only one of these. -/
def InOnePlace (s : System n) (frame : Nat) : Prop :=
  MappedInRegion s frame ∧ standing s.history frame ≠ .returned ∧ ¬ Quarantined s frame ∨
  ¬ MappedInRegion s frame ∧ standing s.history frame = .returned ∧ ¬ Quarantined s frame ∨
  ¬ MappedInRegion s frame ∧ standing s.history frame ≠ .returned ∧ Quarantined s frame

theorem Settled.mapped_iff (h : Settled kernel s) (hz : frame ≠ 0) :
    MappedInRegion s frame ↔ 0 < holders (holds kernel s) frame := by
  constructor
  · rintro ⟨i, p, ht, hr⟩
    have hk := (h.fits i).own p hr
    apply countOf_pos (i := (i, p))
    simp [holds, hk, ht, hz]
  · intro hpos
    obtain ⟨⟨i, p⟩, hmem⟩ := Finset.card_pos.mp hpos
    have hheld := of_decide_eq_true (Finset.mem_filter.mp hmem).2
    simp only [holds] at hheld
    split at hheld
    · rename_i hp
      injection hheld with ht
      exact ⟨i, p, ht, ((h.fits i).covered p hp.1 hp.2).resolve_right id⟩
    · cases hheld

theorem quarantined_iff : Quarantined s frame ↔ 0 < (s.quarantine.map Prod.snd).count frame := by
  rw [count_pos_iff, mem_map]
  constructor
  · rintro ⟨i, hi⟩
    exact ⟨(i, frame), hi, rfl⟩
  · rintro ⟨⟨i, f⟩, hi, rfl⟩
    exact ⟨i, hi⟩

theorem Settled.in_one_place (h : Settled kernel s) (hs : standing s.history frame ≠ .never) :
    InOnePlace s frame := by
  have hz := h.told.nonzero hs
  have hcount := h.balanced frame
  unfold InOnePlace
  rw [h.mapped_iff hz, quarantined_iff]
  cases hst : standing s.history frame with
  | never => exact absurd hst hs
  | out =>
    rw [outs, if_pos hst] at hcount
    by_cases hq : 0 < (s.quarantine.map Prod.snd).count frame
    · exact .inr (.inr ⟨by omega, by decide, hq⟩)
    · exact .inl ⟨by omega, by decide, hq⟩
  | returned =>
    rw [outs_of_not_out (by rw [hst]; decide)] at hcount
    exact .inr (.inl ⟨by omega, rfl, by omega⟩)

end

/-- In every run whose calls take care, a frame that `address_space_unmap_free_range`
passed on was out and acknowledged by every CPU that may have known it, every space
counts its frames in the quarantine, and every frame is in one place. -/
theorem frames_are_in_one_place (n : Nat) (kernel : Page → Nat) (s : System n)
    (h : (spaces n kernel).ReachedBy (Careful kernel) s) :
    (∀ later record earlier, s.history = later ++ .passed record :: earlier →
      record.Acknowledged ∧ standing earlier record.frame = .out) ∧
    (∀ i, (s.spaces i).quarantined_page_count = s.quarantine.countP fun held => held.1 == i) ∧
    ∀ frame, standing s.history frame ≠ .never → InOnePlace s frame := by
  have hs : Settled kernel s := by
    apply h.inv
    · rintro s ⟨pool, rfl⟩
      exact start_settled n kernel pool
    · intro s c s' hs hcare hc
      exact call_settled hs hcare hc
  refine ⟨?_, hs.counted, fun frame hframe => hs.in_one_place hframe⟩
  intro later record earlier heq
  have htold := hs.told
  rw [heq] at htold
  exact htold.split

/-- A space gets a page and is loaded, and then a second page, whose shootdown fails. -/
def lost_after_mapping : List (Call 1) :=
  [.alloc_map_range 0 0x400000 4096 0 (some []) [⟨0x1000, true, []⟩] fun _ => ⟨true, 0⟩,
    .activate 0 0,
    .alloc_map_range 0 0x800000 4096 0 (some []) [⟨0x2000, true, []⟩] fun _ => ⟨false, 0⟩]

/-- The second frame is obtained and not back, mapped outside of every region and not
counted in the quarantine. -/
theorem a_failed_shootdown_loses_a_frame : ∃ s, (spaces 1 fun _ => 0).Reachable s ∧
    standing s.history 0x2000 = .out ∧ ¬ InOnePlace s 0x2000 := by
  obtain ⟨s, hreach, hout, hq, htable, hregion, hregions⟩ : ∃ s, (spaces 1 fun _ => 0).Reachable s ∧
      standing s.history 0x2000 = .out ∧ s.quarantine = [] ∧ (s 0).table (page_of 0x400000) = 0x1000 ∧
      (s 0).regions ⟨0, by decide⟩ = ⟨true, 5, 0x400000, 0x401000⟩ ∧
      ∀ j, j.val ≠ 0 → ((s 0).regions j).active = false :=
    Machine.exists_reachable (.start ⟨fun _ => true, rfl⟩) lost_after_mapping (by decide +kernel)
  refine ⟨s, hreach, hout, ?_⟩
  rintro (⟨⟨i, p, hp, a, rfl, j, hj⟩, -, -⟩ | ⟨-, hback, -⟩ | ⟨-, -, j, hj⟩)
  · -- the one region holds the first page only
    rw [Subsingleton.elim i 0] at hp hj
    by_cases h0 : j = ⟨0, by decide⟩
    · rw [h0, hregion] at hj
      obtain ⟨-, hlo, hhi⟩ := hj
      have hpage : page_of a = page_of 0x400000 := by
        apply Fin.ext
        have hdiv : a / 4096 = 0x400000 / 4096 := by
          simp only at hlo hhi
          omega
        simp only [page_of, VM_PAGE_SIZE, hdiv]
      rw [hpage, htable] at hp
      cases hp
    · rw [AddressSpaceRegion.Has, hregions j fun h => h0 (Fin.ext h)] at hj
      cases hj.1
  · rw [hout] at hback
    cases hback
  · rw [hq] at hj
    cases hj

/-- A page that is mapped, and loaded by a CPU. -/
def one_page : System 1 :=
  address_space_activate
    (address_space_alloc_map_range (fun _ => 0) (start 1 fun _ => true) 0 0x400000 4096 0 (some [])
      [⟨0x1000, true, []⟩] fun _ => ⟨true, 0⟩).2 0 0

theorem one_page_is_reached : (spaces 1 fun _ => 0).ReachedBy (Careful fun _ => 0) one_page := by
  have hcare : Careful (fun _ => 0) (start 1 fun _ => true)
      (.alloc_map_range 0 0x400000 4096 0 (some []) [⟨0x1000, true, []⟩] fun _ => ⟨true, 0⟩) := by
    refine .inr ⟨by decide, by decide, fun k _ => ⟨rfl, rfl⟩, .inl ⟨⟨0, by decide⟩, rfl⟩, .inl rfl, .inl (by decide)⟩
  have hstart : (spaces 1 fun _ => 0).ReachedBy (Careful fun _ => 0) (start 1 fun _ => true) :=
    .start ⟨_, rfl⟩
  exact (hstart.next hcare rfl).next (l := .activate 0 0) trivial rfl

/-- The page is unmapped, acknowledged, and its frame is back. -/
theorem the_frame_comes_back : ∃ s, (spaces 1 fun _ => 0).ReachedBy (Careful fun _ => 0) s ∧
    standing s.history 0x1000 = .returned ∧ InOnePlace s 0x1000 := by
  have hcare : Careful (fun _ => 0) one_page (.unmap_free_range 0 0x400000 1 fun _ => ⟨true, 1⟩) :=
    ⟨fun _ _ => rfl, .inl ⟨⟨1, by decide⟩, by decide +kernel⟩⟩
  have hreached := one_page_is_reached.next hcare rfl
  have hback : standing (address_space_unmap_free_range one_page 0 (0x400000#64).toNat (1#32).toNat
      fun _ => ⟨true, 1⟩).2.history 0x1000 = .returned := by decide +kernel
  refine ⟨_, hreached, hback, (frames_are_in_one_place 1 _ _ hreached).2.2 0x1000 ?_⟩
  intro hnever
  exact Standing.noConfusion (hnever.symm.trans hback)

end mini_kernel.space
