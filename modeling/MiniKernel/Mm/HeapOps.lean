-- `kmalloc` and `kfree` on a sound heap: both return, both leave a sound heap
-- with no two free neighbours, and each changes the blocks in use by one at most.
import MiniKernel.Mm.HeapSound

open mini_kernel.lib mini_kernel.vm mini_kernel.pmm List Option

namespace mini_kernel.heap

section
variable {h : Heap} {l l₁ l₂ : List Block} {bins : Nat → List Nat} {b : Block}

theorem Sound.of_eq {h' : Heap} (S : Sound h l bins) (hmem : h'.mem = h.mem)
    (hbins : h'.heap_free_bins = h.heap_free_bins) (hstart : h'.heap_start = h.heap_start)
    (htail : h'.heap_tail = h.heap_tail) (hnext : h'.heap_next_virtual = h.heap_next_virtual)
    (hused : h'.heap_current_used_bytes = h.heap_current_used_bytes) : Sound h' l bins :=
  ⟨S.rep.of_eq hmem hbins hstart htail hnext, S.kept, hused.trans S.used⟩

theorem update_peak_sound (S : Sound h l bins) : Sound (heap_update_peak_used h) l bins := by
  unfold heap_update_peak_used
  split
  · exact S.of_eq rfl rfl rfl rfl rfl rfl
  · exact S

/-- A block in use is in no bin. -/
theorem Sound.used_out (S : Sound h l bins) (hb : b ∈ l) (hf : b.free = false) (i : Nat) :
    b.addr ∉ bins i := by
  intro hx
  have := (S.rep.bin.index S.rep.tile hb hx).2
  rw [hf] at this
  cases this

/-! ## Freeing -/

section
variable (S : Sound h (l₁ ++ b :: l₂) bins)
include S

theorem Sound.mark_free (hf : b.free = false) :
    Sound (heap_insert_free_block (heap_mark_free h b.addr) b.addr)
      (l₁ ++ { b with free := true, req := 0 } :: l₂) (within bins { b with free := true, req := 0 }) ∧
    Rep (heap_mark_free h b.addr) (l₁ ++ { b with free := true, req := 0 } :: l₂) bins := by
  have hb : b ∈ l₁ ++ b :: l₂ := by simp
  have hreq : (h b.addr).requested_size = b.req := (S.rep.tile.holds b hb).req
  have hge : h.heap_current_used_bytes ≥ (h b.addr).requested_size := by
    rw [S.used, hreq, reqs_append, reqs_cons]
    omega
  have hout := S.used_out hb hf
  have R : Rep (heap_mark_free h b.addr) (l₁ ++ { b with free := true, req := 0 } :: l₂) bins := by
    unfold heap_mark_free
    rw [if_pos hge]
    refine Rep.mark (f := true) (r := 0) ?_ hout
    exact S.rep.of_eq rfl rfl rfl rfl rfl
  have K := S.kept
  simp only [forall_mem_append, forall_mem_cons] at K
  refine ⟨⟨R.insert (b := { b with free := true, req := 0 }) (by simp) rfl (hout _), ?_, ?_⟩, R⟩
  · simp only [forall_mem_append, forall_mem_cons]
    refine ⟨fun d hd => (K.1 d hd).within, kept_within rfl ?_, fun d hd => (K.2.2 d hd).within⟩
    have := K.2.1.payload
    simp only
    omega
  · rw [insert_used]
    unfold heap_mark_free
    rw [if_pos hge, write_used]
    simp only [S.used, hreq, reqs_append, reqs_cons]
    omega

theorem Sound.kfree_block (hA : Apart (l₁ ++ b :: l₂)) (hf : b.free = false) :
    ∃ h' l' bins', kfree_block h b.addr = some h' ∧ Sound h' l' bins' ∧ Apart l' ∧
      taken l' = taken l₁ ++ taken l₂ := by
  have hb : b ∈ l₁ ++ b :: l₂ := by simp
  have hbf : (h b.addr).is_free = false := (S.rep.tile.holds b hb).free.trans hf
  unfold heap.kfree_block
  rw [if_neg (by simp [S.rep.tile.valid hb]), if_neg (by simp [hbf])]
  obtain ⟨S₂, R₂⟩ := S.mark_free hf
  obtain ⟨hA₁, hA₂, _⟩ := isChain_append.mp hA
  have hb' : ({ b with free := true, req := 0 } : Block) ∈
      l₁ ++ { b with free := true, req := 0 } :: l₂ := by simp
  obtain ⟨l', bins', S₃, hA₃, ht⟩ := Sound.coalesce (b := { b with free := true, req := 0 }) S₂
    (R₂.tile.valid hb') (R₂.tile.holds _ hb').free rfl hA₁ (isChain_cons.mp hA₂).2
  obtain ⟨h', l'', bins'', he, S₄, hA₄, ht'⟩ := S₃.shrink_heap_tail hA₃
  exact ⟨h', l'', bins'', he, S₄, hA₄, ht'.trans ht⟩

/-- `kfree` of a block in use returns, and takes that block alone out of use. -/
theorem Sound.kfree (hA : Apart (l₁ ++ b :: l₂)) (hf : b.free = false) :
    ∃ h' l' bins', kfree h (b.addr + HEADER_SIZE) = some h' ∧ Sound h' l' bins' ∧ Apart l' ∧
      taken l' = taken l₁ ++ taken l₂ := by
  have hbb := S.rep.tile.bounds (b := b) (by simp)
  have hhdr : u64 (b.addr + HEADER_SIZE + 2 ^ 64 - HEADER_SIZE) = b.addr := by
    unfold u64 VM_KERNEL_HEAP_LIMIT HEADER_SIZE at *
    omega
  unfold heap.kfree
  rw [if_neg (by unfold HEADER_SIZE; omega), hhdr]
  exact Sound.kfree_block (S.of_eq rfl rfl rfl rfl rfl rfl) hA hf

end

/-! ## Finding -/

variable {t size bytes : Nat} {env : Env}

/-- The walk along a bin ends, at the end of the bin or at a block that is large
enough. -/
theorem find_in_bin_spec {fuel p : Nat} {as : List Nat} (R : TileRep h l) (hsub : ∀ a ∈ as, a ∈ addrs l)
    (hL : Linked (fun a => (h a).free_next) (fun a => (h a).free_prev) p as 0)
    (hfuel : as.length < fuel) : ∃ r, find_in_bin h t fuel (as.headD 0) = some r ∧
      (r = 0 ∨ r ∈ as ∧ (h r).is_free ∧ t ≤ (h r).size) := by
  induction as generalizing fuel p with
  | nil =>
    cases fuel with
    | zero => simp at hfuel
    | succ fuel => exact ⟨0, by simp [find_in_bin], .inl rfl⟩
  | cons a as ih =>
    cases fuel with
    | zero => simp at hfuel
    | succ fuel =>
      obtain ⟨_, hn, hL'⟩ := hL
      have ha0 : a ≠ 0 := R.ne_zero (hsub a (by simp))
      unfold find_in_bin
      rw [headD_cons, if_neg ha0]
      split
      · rename_i hc
        exact ⟨a, rfl, .inr ⟨by simp, hc.2.1, hc.2.2⟩⟩
      obtain ⟨r, h1, h2⟩ := ih (fun x hx => hsub x (by simp [hx])) hL' (by simpa using hfuel)
      refine ⟨r, ?_, ?_⟩
      · rw [← h1]
        exact congrArg _ hn
      · rcases h2 with rfl | ⟨hm, hs⟩
        · exact .inl rfl
        · exact .inr ⟨by simp [hm], hs⟩

theorem Sound.find_in_bins (S : Sound h l bins) (t : Nat) (is : List Nat) :
    ∃ r, find_in_bins h t is = some r ∧ (r = 0 ∨ ∃ b ∈ l, b.addr = r ∧ b.free ∧ t ≤ b.size) := by
  induction is with
  | nil => exact ⟨0, rfl, .inl rfl⟩
  | cons i is ih =>
    have hsub : ∀ a ∈ bins i, a ∈ addrs l := fun a ha => S.rep.bin.mem_addrs ha
    have hlen : (bins i).length < turns h := by
      have h1 := ((S.rep.bin.nodup i).subperm hsub).length_le
      have h2 := S.length_lt_turns
      unfold addrs at h1
      rw [length_map] at h1
      omega
    obtain ⟨r, h1, h2⟩ := find_in_bin_spec (t := t) S.rep.tile hsub (S.rep.bin.links i) hlen
    unfold heap.find_in_bins
    rw [S.rep.bin.head i, h1, bind_eq_bind, bind_some]
    split
    · exact ih
    rename_i h0
    refine ⟨_, rfl, .inr ?_⟩
    obtain ⟨hm, hf, hs⟩ := h2.resolve_left h0
    obtain ⟨b, hb, rfl⟩ := mem_addrs.mp (hsub _ hm)
    have hh := S.rep.tile.holds b hb
    exact ⟨b, hb, rfl, hh.free ▸ hf, hh.size ▸ hs⟩

/-! ## Taking -/

/-- What is asked for never exceeds what is mapped. -/
theorem Tiles.reqs_le {a e : Nat} (T : Tiles a l e) (hp : ∀ b ∈ l, b.req + HEADER_SIZE ≤ b.size) :
    reqs l ≤ e - a := by
  induction l generalizing a with
  | nil => simp
  | cons b l ih =>
    obtain ⟨_, _, _, T'⟩ := T
    rw [forall_mem_cons] at hp
    have h1 := ih T' hp.2
    have h2 := T'.le
    rw [reqs_cons]
    omega

/-- The end of `kmalloc_take`: the block leaves its bin and is marked. -/
theorem Rep.take (R : Rep h (l₁ ++ b :: l₂) bins) (K₁ : ∀ d ∈ l₁, Kept bins d)
    (K₂ : ∀ d ∈ l₂, Kept bins d) (hused : h.heap_current_used_bytes = reqs l₁ + reqs l₂)
    (hs : size + HEADER_SIZE ≤ b.size) :
    Sound (heap_mark_allocated (heap_remove_free_block h b.addr) b.addr (u32 size))
      (l₁ ++ { b with free := false, req := size } :: l₂) (without bins b.addr) := by
  have hb : b ∈ l₁ ++ b :: l₂ := by simp
  have hbb := R.tile.bounds hb
  have hlim : VM_KERNEL_HEAP_LIMIT < 2 ^ 32 := by decide
  have hnd := R.bin.nodup
  have hne := R.tile.addr_ne
  rw [u32_of_lt (by omega)]
  have R' : Rep ((heap_remove_free_block h b.addr).write b.addr
      fun hd => { hd with is_free := false, requested_size := size })
      (l₁ ++ { b with free := false, req := size } :: l₂) (without bins b.addr) :=
    (R.remove hb).mark fun i => by simp [mem_without hnd]
  have K : ∀ d ∈ l₁ ++ ({ b with free := false, req := size } : Block) :: l₂,
      Kept (without bins b.addr) d := by
    simp only [forall_mem_append, forall_mem_cons]
    exact ⟨fun d hd => (K₁ d hd).without hnd (hne.1 d hd), kept_used rfl hs,
      fun d hd => (K₂ d hd).without hnd (hne.2 d hd)⟩
  have hle := R'.tile.tiles.reqs_le fun d hd => (K d hd).payload
  have hlim' := R'.tile.limit
  unfold heap_mark_allocated
  refine update_peak_sound ⟨R'.of_eq rfl rfl rfl rfl rfl, K, ?_⟩
  show u64 ((heap_remove_free_block h b.addr).heap_current_used_bytes + size) = _
  rw [remove_used, hused]
  simp only [reqs_append, reqs_cons] at hle ⊢
  rw [u64_of_lt (by omega)]
  omega

/-- The block that `kmalloc_take` hands out: the front of a free block. -/
theorem Sound.take (S : Sound h (l₁ ++ b :: l₂) bins) (hA₁ : Apart l₁)
    (hA₂ : Apart (b :: l₂)) (hf : b.free) (ht16 : t % 16 = 0)
    (ht : size + HEADER_SIZE ≤ t) (hts : t ≤ b.size) :
    ∃ s h' l' bins', kmalloc_take h b.addr t size = some (b.addr + HEADER_SIZE, h') ∧
      size + HEADER_SIZE ≤ s ∧ Sound h' l' bins' ∧ Apart l' ∧
      taken l' = taken l₁ ++ ⟨b.addr, s, size, false⟩ :: taken l₂ := by
  have hb : b ∈ l₁ ++ b :: l₂ := by simp
  have hsz : (h b.addr).size = b.size := (S.rep.tile.holds b hb).size
  have hne := S.rep.tile.addr_ne
  have hnd := S.rep.bin.nodup
  have K := S.kept
  simp only [forall_mem_append, forall_mem_cons] at K
  obtain ⟨K₁, Kb, K₂⟩ := K
  have hb0 := Kb.zero hf
  obtain ⟨hA, hA₂'⟩ := isChain_cons.mp hA₂
  have hhead : ∀ d ∈ l₂.head?, d.free = false := fun d hd => by simpa [hf] using hA d hd
  have hu := S.used
  rw [reqs_append, reqs_cons, hb0, Nat.zero_add] at hu
  unfold kmalloc_take
  by_cases hbig : t + HEADER_SIZE + 16 ≤ b.size
  · have R := S.rep.split hf ht16 (by omega) hbig
    have KR : ∀ d, Kept bins d → d.addr ≠ b.addr →
        Kept (within (without bins b.addr) ⟨b.addr + t, b.size - t, 0, true⟩) d :=
      fun d hk hd => (hk.without hnd hd).within
    refine ⟨t, _, _, _, rfl, ht, Rep.take (b := { b with size := t }) R
      (fun d hd => KR d (K₁ d hd) (hne.1 d hd)) ?_ ?_ ht, ?_, ?_⟩
    · rw [forall_mem_cons]
      exact ⟨kept_within rfl (by simp only; omega), fun d hd => KR d (K₂ d hd) (hne.2 d hd)⟩
    · rw [split_used, hu, reqs_cons, Nat.zero_add]
    · refine isChain_append.mpr ⟨hA₁, isChain_cons.mpr ⟨by simp,
        isChain_cons.mpr ⟨?_, hA₂'⟩⟩, by simp⟩
      intro d hd
      simp [hhead d hd]
    · rw [taken_append, taken_cons_used _ rfl, taken_cons_free _ rfl]
  · have hno : split_block h b.addr t = h := by
      unfold split_block
      rw [hsz, if_pos (by omega)]
    rw [hno]
    refine ⟨b.size, _, _, _, rfl, by omega, S.rep.take K₁ K₂ hu (by omega), ?_, ?_⟩
    · exact isChain_append.mpr ⟨hA₁, isChain_cons.mpr ⟨by simp, hA₂'⟩, by simp⟩
    · rw [taken_append, taken_cons_used _ rfl]

/-! ## Growing -/

theorem region_bytes_ge (hb : bytes + PMM_PAGE_SIZE ≤ 2 ^ 32) : bytes ≤ region_bytes bytes := by
  unfold region_bytes u32 PMM_PAGE_SIZE at *
  omega

/-- A region that does not fit, or is not mapped, changes a counter only. -/
theorem append_fails (hnv : h.heap_next_virtual ≤ VM_KERNEL_HEAP_LIMIT)
    (hf : env.map_ok = false ∨ VM_KERNEL_HEAP_LIMIT < h.heap_next_virtual + region_bytes bytes) :
    append_region env h bytes =
      (0, { h with heap_grow_requests := u32 (h.heap_grow_requests + 1) }) := by
  have hr : region_bytes bytes ≤ 2 ^ 32 := by
    unfold region_bytes u32 PMM_PAGE_SIZE
    omega
  have hw : u64 (h.heap_next_virtual + region_bytes bytes) =
      h.heap_next_virtual + region_bytes bytes :=
    u64_of_lt (by unfold VM_KERNEL_HEAP_LIMIT at hnv; omega)
  unfold region_bytes at hw hf
  unfold append_region
  dsimp only
  rw [hw]
  rcases hf with hf | hf
  · simp [hf]
  · rw [if_pos hf]

theorem Sound.append (S : Sound h l bins) (hm : env.map_ok)
    (hpos : 0 < bytes) (hb : bytes + PMM_PAGE_SIZE ≤ 2 ^ 32)
    (hfit : h.heap_next_virtual + region_bytes bytes ≤ VM_KERNEL_HEAP_LIMIT) :
    (append_region env h bytes).1 = h.heap_next_virtual ∧ Sound (append_region env h bytes).2
      (l ++ [⟨h.heap_next_virtual, region_bytes bytes, 0, true⟩])
      (within bins ⟨h.heap_next_virtual, region_bytes bytes, 0, true⟩) := by
  have hge := region_bytes_ge hb
  obtain ⟨h1, R⟩ := S.rep.append hm rfl (by omega) hfit
  refine ⟨h1, R, ?_, ?_⟩
  · simp only [forall_mem_append, forall_mem_singleton]
    refine ⟨fun d hd => (S.kept d hd).within, kept_within rfl ?_⟩
    exact (R.tile.tiles.size (b := ⟨h.heap_next_virtual, region_bytes bytes, 0, true⟩)
      (by simp)).2
  · rw [append_used, S.used]
    simp

/-! ## Allocating -/

/-- What a call of `kmalloc` may leave: no block, or one more block in use. -/
def Served (l l' : List Block) (size p : Nat) : Prop :=
  (p = 0 ∧ taken l' = taken l) ∨
  ∃ a s t₁ t₂, p = a + HEADER_SIZE ∧ size + HEADER_SIZE ≤ s ∧ taken l = t₁ ++ t₂ ∧
    taken l' = t₁ ++ ⟨a, s, size, false⟩ :: t₂

theorem Sound.kmalloc_sized (S : Sound h l bins) (hA : Apart l)
    (ht16 : t % 16 = 0) (ht : size + HEADER_SIZE ≤ t) (hlt : t + PMM_PAGE_SIZE ≤ 2 ^ 32) :
    ∃ p h' l' bins', kmalloc_sized env h t size = some (p, h') ∧ Sound h' l' bins' ∧ Apart l' ∧
      Served l l' size p := by
  obtain ⟨r, h1, h2⟩ := S.find_in_bins t
    (range' (heap_bin_index t) (HEAP_FREE_BIN_COUNT - heap_bin_index t))
  unfold heap.kmalloc_sized heap_find_free_block
  simp only [h1, bind_eq_bind, bind_some]
  by_cases h0 : r = 0
  · simp only [h0, if_true, bind_some]
    have S₁ : Sound { h with heap_free_list_misses := u64 (h.heap_free_list_misses + 1) } l bins :=
      S.of_eq rfl rfl rfl rfl rfl rfl
    generalize ({ h with heap_free_list_misses := u64 (h.heap_free_list_misses + 1) } : Heap) = g
      at S₁
    obtain ⟨n, hn⟩ : ∃ n, (if t < PMM_PAGE_SIZE * 4 then PMM_PAGE_SIZE * 4 else t) = n := ⟨_, rfl⟩
    have hn' : t ≤ n ∧ n + PMM_PAGE_SIZE ≤ 2 ^ 32 := by
      unfold PMM_PAGE_SIZE at *
      split at hn <;> omega
    rw [hn]
    by_cases hok : env.map_ok ∧
        g.heap_next_virtual + region_bytes n ≤ VM_KERNEL_HEAP_LIMIT
    · have hpos : 0 < n := by unfold HEADER_SIZE at ht; omega
      obtain ⟨e1, S₂⟩ := S₁.append hok.1 hpos hn'.2 hok.2
      have hbase : VM_KERNEL_HEAP_BASE ≤ g.heap_next_virtual := S₁.rep.tile.tiles.le
      have hge := region_bytes_ge hn'.2
      rw [e1, if_neg (by unfold VM_KERNEL_HEAP_BASE at hbase; omega)]
      obtain ⟨s, h', l', bins', hk, hs, S₃, hA₃, htk⟩ :=
        S₂.take hA (isChain_singleton _) rfl ht16 ht (by simp only; omega)
      refine ⟨_, h', l', bins', hk, S₃, hA₃, .inr ⟨_, s, taken l, [], rfl, hs, by simp, htk⟩⟩
    · have hf : env.map_ok = false ∨
          VM_KERNEL_HEAP_LIMIT < g.heap_next_virtual + region_bytes n := by
        rw [Classical.not_and_iff_not_or_not] at hok
        rcases hok with hok | hok
        · exact .inl (by simpa using hok)
        · exact .inr (by omega)
      rw [append_fails S₁.rep.tile.limit hf]
      exact ⟨0, _, l, bins, rfl, S₁.of_eq rfl rfl rfl rfl rfl rfl, hA, .inl ⟨rfl, rfl⟩⟩
  · simp only [h0, if_false, bind_some]
    obtain ⟨b, hb, rfl, hbf, hbs⟩ := h2.resolve_left h0
    obtain ⟨l₁, l₂, rfl⟩ := append_of_mem hb
    have S₁ : Sound { h with heap_free_list_hits := u64 (h.heap_free_list_hits + 1) }
        (l₁ ++ b :: l₂) bins := S.of_eq rfl rfl rfl rfl rfl rfl
    obtain ⟨hA₁, hA₂, _⟩ := isChain_append.mp hA
    obtain ⟨s, h', l', bins', hk, hs, S₃, hA₃, htk⟩ := S₁.take hA₁ hA₂ hbf ht16 ht hbs
    refine ⟨_, h', l', bins', hk, S₃, hA₃, .inr ⟨_, s, taken l₁, taken l₂, rfl, hs, ?_, htk⟩⟩
    rw [taken_append, taken_cons_free _ hbf]

/-- `kmalloc` returns on every sound heap. -/
theorem Sound.kmalloc (env : Env) (S : Sound h l bins) (hA : Apart l) (hlt : size < 2 ^ 31) :
    ∃ p h' l' bins', kmalloc env h size = some (p, h') ∧ Sound h' l' bins' ∧ Apart l' ∧
      Served l l' size p := by
  obtain ⟨a1, a2, a3⟩ := align_up_spec (size + HEADER_SIZE) 16 (by decide)
    (by unfold HEADER_SIZE; omega)
  have S₁ : Sound { h with heap_alloc_requests := u64 (h.heap_alloc_requests + 1) } l bins :=
    S.of_eq rfl rfl rfl rfl rfl rfl
  unfold heap.kmalloc
  generalize ({ h with heap_alloc_requests := u64 (h.heap_alloc_requests + 1) } : Heap) = g at S₁
  have hfail : ∃ p h' l' bins', kmalloc_fails g = some (p, h') ∧ Sound h' l' bins' ∧ Apart l' ∧
      Served l l' size p :=
    ⟨0, _, l, bins, rfl, S₁.of_eq rfl rfl rfl rfl rfl rfl, hA, .inl ⟨rfl, rfl⟩⟩
  simp only
  split_ifs
  · exact hfail
  · exact hfail
  · exact hfail
  · exact hfail
  · unfold HEADER_SIZE at *
    rw [u32_of_lt (by omega)]
    exact S₁.kmalloc_sized hA a3 a1 (by unfold PMM_PAGE_SIZE; omega)

end

end mini_kernel.heap
