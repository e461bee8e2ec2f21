-- Cut a block, join two blocks, mark a block: what these operations of the heap
-- do to the list of blocks and to the bins.
import MiniKernel.Mm.HeapBins

open mini_kernel.lib mini_kernel.vm List

namespace mini_kernel.heap

/-- The heap means the blocks `l`, with the free ones in `bins`. -/
structure Rep (h : Heap) (l : List Block) (bins : Nat → List Nat) : Prop where
  tile : TileRep h l
  bin : BinRep h l bins

/-- The bins with an address taken out. -/
def without (bins : Nat → List Nat) (a : Nat) : Nat → List Nat := fun i => (bins i).erase a

/-- The bins with a block put in front of its bin. -/
def within (bins : Nat → List Nat) (b : Block) : Nat → List Nat :=
  Function.update bins (heap_bin_index b.size) (b.addr :: bins (heap_bin_index b.size))

section
variable {h : Heap} {l l₁ l₂ : List Block} {bins : Nat → List Nat} {b : Block}

theorem Rep.remove (H : Rep h l bins) (hb : b ∈ l) :
    Rep (heap_remove_free_block h b.addr) l (without bins b.addr) :=
  ⟨H.tile.of_same (sameTiles_remove h _), H.bin.remove H.tile hb⟩

theorem Rep.insert (H : Rep h l bins) (hb : b ∈ l) (hf : b.free)
    (hout : b.addr ∉ bins (heap_bin_index b.size)) :
    Rep (heap_insert_free_block h b.addr) l (within bins b) :=
  ⟨H.tile.of_same (sameTiles_insert h _), H.bin.insert H.tile hb hf hout⟩

variable {bins : Nat → List Nat}

theorem mem_without (hd : ∀ i, (bins i).Nodup) {a x i : Nat} :
    x ∈ without bins a i ↔ x ≠ a ∧ x ∈ bins i := (hd i).mem_erase_iff

theorem mem_within {b : Block} {x i : Nat} :
    x ∈ within bins b i ↔ (x = b.addr ∧ i = heap_bin_index b.size) ∨ x ∈ bins i := by
  unfold within
  by_cases hi : i = heap_bin_index b.size
  · subst hi
    simp
  · simp [hi]

/-- A run of blocks gives way to another run over the same addresses. -/
theorem Tiles.replace {m m' : List Block} {a e : Nat} (T : Tiles a (l₁ ++ (m ++ l₂)) e)
    (htiles : ∀ a e, Tiles a m e → Tiles a m' e) : Tiles a (l₁ ++ (m' ++ l₂)) e := by
  obtain ⟨e₁, t₁, t₂⟩ := tiles_append.mp T
  obtain ⟨e₂, t₂, t₃⟩ := tiles_append.mp t₂
  exact tiles_append.mpr ⟨e₁, t₁, tiles_append.mpr ⟨e₂, htiles _ _ t₂, t₃⟩⟩

/-- The heap `h'` has the run `m'` between `l₁` and `l₂` where `h` has the run `m`. -/
structure Replaces (h h' : Heap) (l₁ m m' l₂ : List Block) : Prop where
  old_run : m ≠ []
  new_run : m' ≠ []
  head : (addrs m').headD 0 = (addrs m).headD 0
  links : Linked (fun a => (h' a).next) (fun a => (h' a).prev)
    ((addrs l₁).getLastD 0) (addrs m') ((addrs l₂).headD 0)
  tiles : ∀ a e, Tiles a m e → Tiles a m' e
  holds : ∀ b ∈ m', Holds (h' b.addr) b
  side : ∀ x, x ∉ addrs m' → h' x =
    if x = (addrs l₂).headD 0 ∧ (addrs l₂).headD 0 ≠ 0 then
      { h x with prev := (addrs m').getLastD 0 }
    else h.mem x
  rest : h'.rest = h.rest
  tail : h'.heap_tail = if l₂ = [] then (addrs m').getLastD 0 else h.heap_tail

section
variable {h' : Heap} {m m' : List Block} (C : Replaces h h' l₁ m m' l₂)
include C

/-- Left of the new run nothing changes; right of it the first block points back
to the new run. -/
theorem Replaces.sides (R : TileRep h (l₁ ++ (m ++ l₂))) : (∀ x ∈ addrs l₁, h'.mem x = h x) ∧
    (∀ x ∈ addrs l₂, h'.mem x = { h x with
      prev := if x = (addrs l₂).headD 0 then (addrs m').getLastD 0 else (h x).prev }) := by
  have hd := (R.tiles.replace C.tiles).nodup
  simp only [addrs_append, nodup_append, mem_append] at hd
  obtain ⟨_, ⟨_, _, hd2⟩, hd1⟩ := hd
  constructor
  · intro x hx
    rw [C.side x fun hm => hd1 x hx x (.inl hm) rfl, if_neg]
    rintro ⟨rfl, h0⟩
    have h2 : addrs l₂ ≠ [] := by
      intro h2
      rw [h2] at h0
      exact h0 rfl
    exact hd1 _ hx _ (.inr (headD_mem h2)) rfl
  · intro x hx
    have hx0 : x ≠ 0 := R.ne_zero (by simp [hx])
    rw [C.side x fun hm => hd2 x hm x hx rfl]
    by_cases he : x = (addrs l₂).headD 0
    · rw [if_pos ⟨he, he ▸ hx0⟩, if_pos he]
    · rw [if_neg fun e => he e.1, if_neg he]

theorem Replaces.tile (R : TileRep h (l₁ ++ (m ++ l₂))) : TileRep h' (l₁ ++ (m' ++ l₂)) := by
  obtain ⟨hleft, hright⟩ := C.sides R
  have hstart : h'.heap_start = h.heap_start := (congrArg Heap.heap_start C.rest :)
  have hnext : h'.heap_next_virtual = h.heap_next_virtual :=
    (congrArg Heap.heap_next_virtual C.rest :)
  have hmne : addrs m ≠ [] := by simpa [addrs] using C.old_run
  have hmne' : addrs m' ≠ [] := by simpa [addrs] using C.new_run
  have hhd : ∀ d, (addrs m').headD d = (addrs m).headD d := by
    intro d
    rw [headD_eq hmne' d 0, C.head, headD_eq hmne 0 d]
  have hd := R.tiles.nodup
  simp only [addrs_append, nodup_append] at hd
  have hL := R.links
  simp only [addrs_append] at hL
  obtain ⟨L₁, L₂⟩ := linked_append.mp hL
  obtain ⟨_, L₃⟩ := linked_append.mp L₂
  refine ⟨?_, ?_, ?_, ?_, ?_, ?_, ?_⟩
  · simp only [addrs_append]
    refine linked_append.mpr ⟨?_, linked_append.mpr ⟨C.links, ?_⟩⟩
    · rw [headD_append, hhd, ← headD_append]
      exact L₁.congr (fun x hx => by rw [hleft x hx]) (fun x hx => by rw [hleft x hx])
    · refine L₃.set_head hd.2.1.2.1 ?_ ?_ ?_
      · intro hne
        simp only [hright _ (headD_mem hne), if_true]
        exact getLastD_eq hmne' _ _
      · intro x hx hne
        simp only [hright x hx, if_neg hne]
      · intro x hx
        simp only [hright x hx]
  · rw [hstart, R.start]
    simp only [addrs_append, headD_append, hhd]
  · have hl := R.tail
    rw [C.tail]
    simp only [addrs_append, getLastD_append] at hl ⊢
    split
    · rename_i h2
      subst h2
      exact getLastD_eq hmne' _ _
    · rename_i h2
      have hne : addrs l₂ ≠ [] := by simpa [addrs] using h2
      rw [hl, getLastD_eq hne]
  · rw [hnext]
    exact R.tiles.replace C.tiles
  · intro c hc
    rcases mem_append.mp hc with hc | hc
    · rw [hleft _ (addr_mem hc)]
      exact R.holds c (by simp [hc])
    rcases mem_append.mp hc with hc | hc
    · exact C.holds c hc
    · have H := R.holds c (by simp [hc])
      rw [hright _ (addr_mem hc)]
      exact ⟨H.magic, H.size, H.req, H.free⟩
  · rw [hnext]
    exact R.paged
  · rw [hnext]
    exact R.limit

end

/-- The neighbours of a block, as the headers have them. -/
theorem TileRep.neighbours (R : TileRep h (l₁ ++ b :: l₂)) : (h b.addr).prev = (addrs l₁).getLastD 0 ∧
      (h b.addr).next = (addrs l₂).headD 0 ∧
      ((addrs l₂).headD 0 ≠ 0 → (h ((addrs l₂).headD 0)).prev = b.addr) := by
  have hL := R.links
  simp only [addrs_append, addrs_cons] at hL
  obtain ⟨_, h1, h2, h3⟩ := linked_append.mp hL
  refine ⟨h1, h2, ?_⟩
  cases l₂ with
  | nil => exact fun h0 => absurd rfl h0
  | cons c l => exact fun _ => h3.1

/-- The tail is the block after which there is none. -/
theorem TileRep.tail_iff (R : TileRep h (l₁ ++ b :: l₂)) : h.heap_tail = b.addr ↔ l₂ = [] := by
  have ht := R.tail
  simp only [addrs_append, addrs_cons, getLastD_append, getLastD_cons] at ht
  rw [ht]
  constructor
  · intro he
    by_contra h2
    have hne : addrs l₂ ≠ [] := by simpa [addrs] using h2
    have hm : b.addr ∈ addrs l₂ := he ▸ getLastD_mem hne
    have hd := R.tiles.nodup
    simp only [addrs_append, addrs_cons, nodup_append, nodup_cons] at hd
    exact hd.2.1.1 hm
  · rintro rfl
    rfl

theorem BinRep.mem_addrs (B : BinRep h l bins) {i x : Nat} (hx : x ∈ bins i) : x ∈ addrs l := by
  obtain ⟨c, hc, rfl, _⟩ := B.mem i x hx
  exact addr_mem hc

/-- The same for a heap with bins, when the bins hold no block of either run. -/
theorem Rep.replace {h' : Heap} {m m' : List Block} (H : Rep h (l₁ ++ (m ++ l₂)) bins)
    (C : Replaces h h' l₁ m m' l₂)
    (hout : ∀ i, ∀ b ∈ m, b.addr ∉ bins i) (hflag : ∀ b ∈ m', (h' b.addr).in_free_list = false) :
    Rep h' (l₁ ++ (m' ++ l₂)) bins := by
  obtain ⟨hleft, hright⟩ := C.sides H.tile
  have T := C.tile H.tile
  have hbins : ∀ {i x}, x ∈ bins i → x ∈ addrs l₁ ∨ x ∈ addrs l₂ := by
    intro i x hx
    obtain ⟨c, hc, rfl, _⟩ := H.bin.mem i x hx
    simp only [mem_append] at hc
    rcases hc with hc | hc | hc
    · exact .inl (addr_mem hc)
    · exact absurd hx (hout i c hc)
    · exact .inr (addr_mem hc)
  have hout' : ∀ i, ∀ c ∈ m', c.addr ∉ bins i := by
    intro i c hc hx
    have hd := T.tiles.nodup
    simp only [addrs_append, nodup_append, mem_append] at hd
    rcases hbins hx with h1 | h1
    · exact hd.2.2 _ h1 _ (.inl (addr_mem hc)) rfl
    · exact hd.2.1.2.2 _ (addr_mem hc) _ h1 rfl
  have hfree : ∀ x, x ∈ addrs l₁ ∨ x ∈ addrs l₂ →
      (h' x).free_next = (h x).free_next ∧ (h' x).free_prev = (h x).free_prev ∧
      (h' x).in_free_list = (h x).in_free_list := by
    rintro x (hx | hx)
    · rw [hleft x hx]
      exact ⟨rfl, rfl, rfl⟩
    · rw [hright x hx]
      exact ⟨rfl, rfl, rfl⟩
  refine ⟨T, H.bin.transfer (congrArg Heap.heap_free_bins C.rest :) ?_ ?_ ?_⟩
  · intro i x hx
    exact ⟨(hfree x (hbins hx)).1, (hfree x (hbins hx)).2.1⟩
  · intro i c hc hx
    simp only [mem_append] at hc ⊢
    rcases hc with hc | hc | hc
    · exact .inl hc
    · exact absurd hx (hout i c hc)
    · exact .inr (.inr hc)
  · intro c hc
    simp only [mem_append] at hc
    rcases hc with hc | hc | hc
    · rw [(hfree _ (.inl (addr_mem hc))).2.2]
      exact H.bin.flag c (by simp [hc])
    · simp [hflag c hc, hout' _ c hc]
    · rw [(hfree _ (.inr (addr_mem hc))).2.2]
      exact H.bin.flag c (by simp [hc])

/-! ## A block is cut -/

/-- The heap of `split_block` before the rest goes into its bin. -/
theorem split_fields {h g : Heap} {a t nx : Nat} (hbig : t + HEADER_SIZE + 16 ≤ (h a).size)
    (ht : 0 < t) (hg : heap_remove_free_block h a = g) (hnx : (g a).next = nx) (hna : nx ≠ a)
    (hnb : nx ≠ a + t) : ∃ k, split_block h a t = heap_insert_free_block k (a + t) ∧ (∀ x, k.mem x =
        if x = a then { g a with size := t, next := a + t } else if x = a + t then
          ⟨HEAP_BLOCK_MAGIC, (g a).size - t, 0, true, false, nx, a, 0, 0⟩
        else if x = nx ∧ nx ≠ 0 then { g x with prev := a + t } else g.mem x) ∧
      k.rest = g.rest ∧ k.heap_tail = if g.heap_tail = a then a + t else g.heap_tail := by
  unfold split_block
  rw [if_neg (by omega), hg]
  refine ⟨_, rfl, ?_, ?_, ?_⟩
  · intro x
    have h1 : a ≠ a + t := by omega
    simp only [heap_init_block, apply_ite Heap.mem, ite_self, write_mem, if_true, hnx]
    by_cases h0 : nx = 0
    · simp only [h0, ne_eq, not_true_eq_false, if_false, write_mem, h1, and_false]
    · simp only [h0, ne_eq, not_false_eq_true, if_true, write_mem, h1, and_true, hna.symm, hnb,
        if_false]
      grind
  · split_ifs <;> rfl
  · split_ifs <;> simp_all [heap_init_block]

theorem Rep.split {t : Nat} (H : Rep h (l₁ ++ b :: l₂) bins) (hf : b.free)
    (ht16 : t % 16 = 0) (ht : HEADER_SIZE ≤ t) (hbig : t + HEADER_SIZE + 16 ≤ b.size) :
    Rep (split_block h b.addr t) (l₁ ++ { b with size := t } :: ⟨b.addr + t, b.size - t, 0, true⟩ :: l₂)
      (within (without bins b.addr) ⟨b.addr + t, b.size - t, 0, true⟩) := by
  have hb : b ∈ l₁ ++ b :: l₂ := by simp
  have G := H.remove hb
  obtain ⟨g, hg⟩ : ∃ g, heap_remove_free_block h b.addr = g := ⟨_, rfl⟩
  rw [hg] at G
  obtain ⟨T₁, T₂⟩ := G.tile.tiles.around
  have hsz := (H.tile.holds b hb).size
  have hgb := G.tile.holds b hb
  obtain ⟨hpv, hnx, _⟩ := G.tile.neighbours
  have hlo : ∀ x ∈ addrs l₁, x < b.addr := fun x hx => by
    have := (T₁.lt_of_mem hx).2
    unfold HEADER_SIZE at this
    omega
  have hhi : ∀ x ∈ addrs l₂, b.addr + b.size ≤ x := fun x hx => (T₂.lt_of_mem hx).1
  have hb0 : b.addr ≠ 0 := G.tile.ne_zero (addr_mem hb)
  unfold HEADER_SIZE at ht hbig
  have hnxb : (addrs l₂).headD 0 ≠ b.addr ∧ (addrs l₂).headD 0 ≠ b.addr + t := by
    by_cases h2 : addrs l₂ = []
    · rw [h2]
      simp only [headD_nil]
      omega
    · have := hhi _ (headD_mem (n := 0) h2)
      omega
  obtain ⟨k, hk, km, kr, kt⟩ :=
    split_fields (by unfold HEADER_SIZE; omega) (by omega) hg hnx hnxb.1 hnxb.2
  have hin : (g b.addr).in_free_list = false := by
    rw [← Bool.not_eq_true, G.bin.flag b hb, mem_without H.bin.nodup]
    simp
  have kb := km b.addr
  have kn := km (b.addr + t)
  rw [if_pos rfl] at kb
  rw [if_neg (by omega), if_pos rfl] at kn
  have K : Rep k (l₁ ++ ([{ b with size := t }, ⟨b.addr + t, b.size - t, 0, true⟩] ++ l₂))
      (without bins b.addr) := by
    refine G.replace (m := [b]) ⟨by simp, by simp, rfl, ?_, ?_, ?_, ?_, kr, ?_⟩ ?_ ?_
    · simp only [addrs_cons, addrs_nil, Linked, kb, kn, headD_cons, headD_nil, and_true]
      exact hpv
    · rintro a e ⟨rfl, _, _, rfl⟩
      refine ⟨rfl, ht16, ht, rfl, ?_, ?_, ?_⟩ <;> simp only [Tiles, HEADER_SIZE] <;> omega
    · simp only [mem_cons, not_mem_nil, or_false, forall_eq_or_imp, forall_eq]
      rw [kb, kn]
      exact ⟨⟨hgb.magic, rfl, hgb.req, hgb.free⟩, ⟨rfl, by rw [hgb.size], rfl, rfl⟩⟩
    · intro x hx
      simp only [addrs_cons, addrs_nil, mem_cons, not_mem_nil, or_false, not_or] at hx
      rw [km, if_neg hx.1, if_neg hx.2]
      rfl
    · simp only [kt, G.tile.tail_iff]
      rfl
    · intro i c hc
      rw [mem_singleton] at hc
      subst hc
      simp [mem_without H.bin.nodup]
    · simp only [mem_cons, not_mem_nil, or_false, forall_eq_or_imp, forall_eq]
      rw [kb, kn]
      exact ⟨hin, rfl⟩
  rw [hk]
  have hnb : b.addr + t ∉ without bins b.addr (heap_bin_index (b.size - t)) := by
    intro hx
    have := G.bin.mem_addrs hx
    simp only [addrs_append, addrs_cons, mem_append, mem_cons] at this
    rcases this with h1 | h1 | h1
    · have := hlo _ h1; omega
    · omega
    · have := hhi _ h1; omega
  exact K.insert (b := ⟨b.addr + t, b.size - t, 0, true⟩) (by simp) rfl hnb

/-! ## Two blocks are joined -/

/-- The heap of `merge_with_next` before the joined block goes into its bin. -/
theorem merge_fields {h g : Heap} {a c nx : Nat} (ha : a ≠ 0) (hc : (h a).next = c)
    (hc0 : c ≠ 0) (haf : (h a).is_free) (hcf : (h c).is_free)
    (hadj : heap_blocks_adjacent h a c)
    (hg : heap_remove_free_block (heap_remove_free_block h a) c = g)
    (hnx : (g c).next = nx) (hna : nx ≠ a) :
    ∃ k, merge_with_next h a = (a, heap_insert_free_block k a) ∧ (∀ x, k.mem x = if x = a then
          { g a with size := u32 ((g a).size + (g c).size), requested_size := 0, next := nx }
        else if x = nx ∧ nx ≠ 0 then { g x with prev := a } else g.mem x) ∧
      k.rest = g.rest ∧ k.heap_tail = if g.heap_tail = c then a else g.heap_tail := by
  unfold merge_with_next
  rw [if_neg (by simp [ha, hc, hc0]), hc]
  simp only [haf, hcf, hadj, not_true_eq_false, or_self, if_false]
  rw [hg]
  refine ⟨_, rfl, ?_, ?_, ?_⟩
  · intro x
    simp only [apply_ite Heap.mem, ite_self, write_mem, if_true, hnx]
    by_cases h0 : nx = 0
    · simp only [h0, ne_eq, not_true_eq_false, if_false, write_mem, and_false]
    · simp only [h0, ne_eq, not_false_eq_true, if_true, write_mem, and_true, hna, if_false]
      grind
  · split_ifs <;> rfl
  · split_ifs <;> simp_all

/-- Neighbours are adjacent in the sense of the code. -/
theorem TileRep.adjacent {c : Block} (R : TileRep h (l₁ ++ b :: c :: l₂)) :
    heap_blocks_adjacent h b.addr c.addr := by
  have hb : b ∈ l₁ ++ b :: c :: l₂ := by simp
  have hc : c ∈ l₁ ++ b :: c :: l₂ := by simp
  have hbs := R.bounds hb
  have he : c.addr = b.addr + b.size := R.tiles.around.2.1
  unfold heap_blocks_adjacent
  rw [R.valid hb, R.valid hc, (R.holds b hb).size, u64_of_lt, he]
  · simp
  · unfold VM_KERNEL_HEAP_LIMIT at hbs
    omega

theorem Rep.merge {c : Block} (H : Rep h (l₁ ++ b :: c :: l₂) bins) (hbf : b.free)
    (hcf : c.free) : (merge_with_next h b.addr).1 = b.addr ∧
    Rep (merge_with_next h b.addr).2 (l₁ ++ ⟨b.addr, b.size + c.size, 0, true⟩ :: l₂)
      (within (without (without bins b.addr) c.addr) ⟨b.addr, b.size + c.size, 0, true⟩) := by
  have hb : b ∈ l₁ ++ b :: c :: l₂ := by simp
  have hc : c ∈ l₁ ++ b :: c :: l₂ := by simp
  have G := (H.remove hb).remove hc
  obtain ⟨g, hg⟩ : ∃ g, heap_remove_free_block (heap_remove_free_block h b.addr) c.addr = g :=
    ⟨_, rfl⟩
  rw [hg] at G
  obtain ⟨_, hce, _, _, T₂⟩ := G.tile.tiles.around
  rw [← hce] at T₂
  have hbb := G.tile.bounds hb
  have hcb := G.tile.bounds hc
  have hgb := G.tile.holds b hb
  have hgc := G.tile.holds c hc
  obtain ⟨hpv, _⟩ := G.tile.neighbours
  have G' : TileRep g ((l₁ ++ [b]) ++ c :: l₂) := by simpa using G.tile
  obtain ⟨_, hnx, _⟩ := G'.neighbours
  have hhi : ∀ x ∈ addrs l₂, c.addr + c.size ≤ x := fun x hx => (T₂.lt_of_mem hx).1
  have hb0 : b.addr ≠ 0 := G.tile.ne_zero (addr_mem hb)
  have hc0 : c.addr ≠ 0 := G.tile.ne_zero (addr_mem hc)
  unfold HEADER_SIZE VM_KERNEL_HEAP_BASE VM_KERNEL_HEAP_LIMIT at hbb hcb
  have hna : (addrs l₂).headD 0 ≠ b.addr := by
    by_cases h2 : addrs l₂ = []
    · rw [h2]
      exact hb0.symm
    · have := hhi _ (headD_mem (n := 0) h2)
      omega
  obtain ⟨k, hk, km, kr, kt⟩ := merge_fields (c := c.addr) hb0 H.tile.neighbours.2.1 hc0
    ((H.tile.holds b hb).free.trans hbf) ((H.tile.holds c hc).free.trans hcf) H.tile.adjacent hg
    hnx hna
  have hin : (g b.addr).in_free_list = false := by
    rw [← Bool.not_eq_true, G.bin.flag b hb, mem_without (H.remove hb).bin.nodup,
      mem_without H.bin.nodup]
    simp
  have kb := km b.addr
  rw [if_pos rfl, hgb.size, hgc.size, u32_of_lt (by omega)] at kb
  have K : Rep k (l₁ ++ ([⟨b.addr, b.size + c.size, 0, true⟩] ++ l₂))
      (without (without bins b.addr) c.addr) := by
    refine G.replace (m := [b, c]) ⟨by simp, by simp, rfl, ?_, ?_, ?_, ?_, kr, ?_⟩ ?_ ?_
    · simp only [addrs_cons, addrs_nil, Linked, kb, and_true]
      exact ⟨hpv, rfl⟩
    · rintro a e ⟨rfl, hb16, _, hca, hc16, _, rfl⟩
      refine ⟨rfl, ?_, ?_, ?_⟩ <;> simp only [Tiles, HEADER_SIZE] <;> omega
    · rw [forall_mem_singleton]
      rw [kb]
      exact ⟨hgb.magic, rfl, rfl, hgb.free.trans hbf⟩
    · intro x hx
      simp only [addrs_cons, addrs_nil, mem_singleton] at hx
      rw [km, if_neg hx]
      rfl
    · simp only [kt, G'.tail_iff]
      rfl
    · intro i d hd
      simp only [mem_cons, not_mem_nil, or_false] at hd
      rcases hd with rfl | rfl <;>
        simp [mem_without (H.remove hb).bin.nodup, mem_without H.bin.nodup]
    · rw [forall_mem_singleton]
      rw [kb]
      exact hin
  rw [hk]
  refine ⟨rfl, K.insert (b := ⟨b.addr, b.size + c.size, 0, true⟩) (by simp) rfl ?_⟩
  simp [mem_without (H.remove hb).bin.nodup, mem_without H.bin.nodup]

/-! ## A block is marked -/

/-- The counters of the heap say nothing about the blocks. -/
theorem Rep.of_eq {h' : Heap} (H : Rep h l bins) (hmem : h'.mem = h.mem)
    (hbins : h'.heap_free_bins = h.heap_free_bins) (hstart : h'.heap_start = h.heap_start)
    (htail : h'.heap_tail = h.heap_tail) (hnext : h'.heap_next_virtual = h.heap_next_virtual) :
    Rep h' l bins := by
  obtain ⟨⟨t1, t2, t3, t4, t5, t6, t7⟩, ⟨b1, b2, b3, b4, b5⟩⟩ := H
  cases h
  cases h'
  cases hmem
  cases hbins
  cases hstart
  cases htail
  cases hnext
  exact ⟨⟨t1, t2, t3, t4, t5, t6, t7⟩, ⟨b1, b2, b3, b4, b5⟩⟩

/-- A block that is in no bin changes hands. -/
theorem Rep.mark {f : Bool} {r : Nat} (H : Rep h (l₁ ++ b :: l₂) bins) (hout : ∀ i, b.addr ∉ bins i) :
    Rep (h.write b.addr fun hd => { hd with is_free := f, requested_size := r })
      (l₁ ++ { b with free := f, req := r } :: l₂) bins := by
  have hb : b ∈ l₁ ++ b :: l₂ := by simp
  have hh := H.tile.holds b hb
  obtain ⟨hpv, hnx, hback⟩ := H.tile.neighbours
  have hin : (h b.addr).in_free_list = false := by
    rw [← Bool.not_eq_true, H.bin.flag b hb]
    exact hout _
  show Rep _ (l₁ ++ ([{ b with free := f, req := r }] ++ l₂)) bins
  refine H.replace (m := [b]) ⟨by simp, by simp, rfl, ?_, ?_, ?_, ?_, write_rest _ _ _, ?_⟩ ?_ ?_
  · simp only [addrs_cons, addrs_nil, Linked, write_mem, if_true, and_true]
    exact ⟨hpv, hnx⟩
  · rintro a e ⟨rfl, h1, h2, h3⟩
    exact ⟨rfl, h1, h2, h3⟩
  · rw [forall_mem_singleton]
    rw [write_mem, if_pos rfl]
    exact ⟨hh.magic, hh.size, rfl, rfl⟩
  · intro x hx
    simp only [addrs_cons, addrs_nil, mem_singleton] at hx
    rw [write_mem, if_neg hx]
    split
    · rename_i he
      obtain ⟨rfl, h0⟩ := he
      have hp := hback h0
      generalize h.mem ((addrs l₂).headD 0) = hd at hp ⊢
      cases hd
      cases hp
      rfl
    · rfl
  · rw [write_tail]
    split
    · rename_i h2
      exact H.tile.tail_iff.mpr h2
    · rfl
  · intro i d hd
    rw [mem_singleton] at hd
    subst hd
    exact hout i
  · rw [forall_mem_singleton]
    rw [write_mem, if_pos rfl]
    exact hin
end

end mini_kernel.heap
