-- The mapped end of the heap moves: `append_region` adds a block after the last
-- one, and `shrink_heap_tail` gives whole pages of a free tail back.
import MiniKernel.Mm.HeapTiles

open mini_kernel.lib mini_kernel.vm mini_kernel.pmm List Function

namespace mini_kernel.heap

section
variable {h : Heap} {l : List Block} {bins : Nat → List Nat} {b : Block}

/-! ## The heap grows -/

/-- The bytes that `append_region` asks for: whole pages. -/
def region_bytes (bytes : Nat) : Nat :=
  u32 (bytes + PMM_PAGE_SIZE - 1) / PMM_PAGE_SIZE * PMM_PAGE_SIZE

/-- The heap of `append_region` before the new block goes into its bin. -/
theorem append_fields {env : Env} {h : Heap} {bytes a n : Nat} (hm : env.map_ok)
    (ha : h.heap_next_virtual = a) (hn : region_bytes bytes = n)
    (hfit : a + n ≤ VM_KERNEL_HEAP_LIMIT) (htail : h.heap_tail < a) :
    ∃ k, append_region env h bytes = (a, heap_insert_free_block k a) ∧ (∀ x, k.mem x =
        if x = a then ⟨HEAP_BLOCK_MAGIC, n, 0, true, false, 0, h.heap_tail, 0, 0⟩
        else if a ≤ x ∧ x < a + n then zeroHeader
        else if h.heap_start ≠ 0 ∧ x = h.heap_tail then { h x with next := a } else h.mem x) ∧
      k.heap_free_bins = h.heap_free_bins ∧
      k.heap_start = (if h.heap_start = 0 then a else h.heap_start) ∧ k.heap_tail = a ∧
      k.heap_next_virtual = a + n ∧ k.heap_current_used_bytes = h.heap_current_used_bytes := by
  have hlim : VM_KERNEL_HEAP_LIMIT < 2 ^ 32 := by decide
  unfold region_bytes at hn
  unfold append_region
  dsimp only
  rw [hn, ha, u64_of_lt (by omega), if_neg (by omega), if_neg (by simp [hm]),
    u32_of_lt (n := n) (by omega)]
  refine ⟨_, rfl, ?_, ?_, ?_, ?_, ?_, ?_⟩
  · intro x
    simp only [heap_init_block, heap_zero_region, Heap.write, update_apply]
    by_cases h0 : h.heap_start = 0
    · simp only [h0, if_true, ne_eq, not_true_eq_false, false_and, if_false,
        update_apply]
    · simp only [h0, if_false, ne_eq, not_false_eq_true, true_and, update_apply,
        htail.ne]
      grind
  all_goals
    simp only [heap_init_block, heap_zero_region, Heap.write]
    split_ifs <;> rfl

theorem Rep.append {env : Env} {bytes n : Nat} (H : Rep h l bins) (hm : env.map_ok)
    (hn : region_bytes bytes = n) (hpos : 0 < n) (hfit : h.heap_next_virtual + n ≤ VM_KERNEL_HEAP_LIMIT) :
    (append_region env h bytes).1 = h.heap_next_virtual ∧
    Rep (append_region env h bytes).2 (l ++ [⟨h.heap_next_virtual, n, 0, true⟩])
      (within bins ⟨h.heap_next_virtual, n, 0, true⟩) := by
  obtain ⟨a, ha⟩ : ∃ a, h.heap_next_virtual = a := ⟨_, rfl⟩
  have T := H.tile.tiles
  rw [ha] at hfit T ⊢
  have hn4 : n % PMM_PAGE_SIZE = 0 := by
    rw [← hn]
    exact Nat.mul_mod_left _ _
  have hlo : ∀ x ∈ addrs l, x < a := fun x hx => by
    have := (T.lt_of_mem hx).2
    unfold HEADER_SIZE at this
    omega
  have hbase : VM_KERNEL_HEAP_BASE ≤ a := T.le
  have htail : h.heap_tail < a := by
    rw [H.tile.tail]
    by_cases hl : addrs l = []
    · rw [hl]
      unfold VM_KERNEL_HEAP_BASE at hbase
      simp only [getLastD_nil]
      omega
    · exact hlo _ (getLastD_mem hl)
  have hstart : h.heap_start = 0 ↔ addrs l = [] := by
    rw [H.tile.start]
    constructor
    · intro h0
      by_contra hl
      exact H.tile.ne_zero (headD_mem (n := 0) hl) h0
    · intro hl
      rw [hl]
      rfl
  obtain ⟨k, hk, km, kb, ks, kt, kn, _⟩ := append_fields hm ha hn hfit htail
  have kl : ∀ x ∈ addrs l, k.mem x =
      if x = (addrs l).getLastD 0 then { h x with next := a } else h.mem x := by
    intro x hx
    have h1 := hlo x hx
    have h2 : h.heap_start ≠ 0 := fun h0 => by
      rw [hstart.mp h0] at hx
      simp at hx
    rw [km, if_neg (by omega), if_neg (by omega), ← H.tile.tail]
    simp only [h2, ne_eq, not_false_eq_true, true_and]
  have ka := km a
  rw [if_pos rfl] at ka
  have KT : TileRep k (l ++ [⟨a, n, 0, true⟩]) := by
    refine ⟨?_, ?_, ?_, ?_, ?_, ?_, ?_⟩
    · simp only [addrs_append, addrs_cons, addrs_nil]
      refine H.tile.links.push_back T.nodup ?_ ?_ ?_ ?_ ?_
      · rw [ka, H.tile.tail]
      · rw [ka]
      · intro hl
        rw [kl _ (getLastD_mem hl), if_pos rfl]
      · intro x hx hne
        rw [kl x hx, if_neg hne]
      · intro x hx
        rw [kl x hx]
        split <;> rfl
    · rw [ks, addrs_append, headD_append]
      split
      · rename_i h0
        rw [hstart.mp h0]
        rfl
      · rename_i h0
        rw [H.tile.start, headD_eq fun hl => h0 (hstart.mpr hl)]
    · rw [kt, addrs_append, getLastD_append]
      rfl
    · rw [kn]
      refine tiles_append.mpr ⟨a, T, rfl, ?_, ?_, rfl⟩ <;>
        simp only [PMM_PAGE_SIZE, HEADER_SIZE] at * <;> omega
    · refine forall_mem_append.mpr ⟨fun b hb => ?_, forall_mem_singleton.mpr ?_⟩
      · have hh := H.tile.holds b hb
        rw [kl _ (addr_mem hb)]
        split
        · exact ⟨hh.magic, hh.size, hh.req, hh.free⟩
        · exact hh
      · rw [ka]
        exact ⟨rfl, rfl, rfl, rfl⟩
    · have := H.tile.paged
      rw [kn, ← ha, Nat.add_mod, this, hn4]
      rfl
    · rw [kn]
      exact hfit
  have kfree : ∀ x ∈ addrs l, (k x).free_next = (h x).free_next ∧
      (k x).free_prev = (h x).free_prev ∧
      (k x).in_free_list = (h x).in_free_list := by
    intro x hx
    rw [kl x hx]
    split <;> exact ⟨rfl, rfl, rfl⟩
  have hnew : ∀ i, a ∉ bins i := fun i hx => (hlo a (H.bin.mem_addrs hx)).false
  have K : Rep k (l ++ [⟨a, n, 0, true⟩]) bins := by
    refine ⟨KT, H.bin.transfer kb ?_ ?_ ?_⟩
    · intro i x hx
      have := kfree x (H.bin.mem_addrs hx)
      exact ⟨this.1, this.2.1⟩
    · intro i c hc _
      simp [hc]
    · refine forall_mem_append.mpr ⟨fun c hc => ?_, forall_mem_singleton.mpr ?_⟩
      · rw [(kfree _ (addr_mem hc)).2.2]
        exact H.bin.flag c hc
      · simp [ka, hnew]
  rw [hk]
  refine ⟨rfl, K.insert (b := ⟨a, n, 0, true⟩) (by simp) rfl ?_⟩
  exact hnew _

/-! ## The heap shrinks -/

/-- The first page that a free tail does not need. -/
def releasable (b : Block) : Nat :=
  if b.addr % PMM_PAGE_SIZE = 0 ∧ PMM_PAGE_SIZE ≤ b.size then b.addr
  else align_up (b.addr + HEADER_SIZE) PMM_PAGE_SIZE

theorem align_down_eq_self (a : Nat) : a = align_down a PMM_PAGE_SIZE ↔ a % PMM_PAGE_SIZE = 0 := by
  unfold align_down PMM_PAGE_SIZE
  omega

/-- A turn of the loop at the tail `b`. -/
theorem shrink_turn_eq (R : TileRep h (l ++ [b])) : shrink_turn h =
      if b.addr + b.size ≤ releasable b then (false, h) else
        let g := release_pages (heap_remove_free_block h b.addr) (releasable b)
          (u32 ((b.addr + b.size - releasable b) / PMM_PAGE_SIZE))
        if releasable b = b.addr then (true, drop_tail g ((addrs l).getLastD 0))
        else (false, cut_tail g (u32 (releasable b - b.addr))) := by
  have hb : b ∈ l ++ [b] := by simp
  have htail : h.heap_tail = b.addr := R.tail_iff.mpr rfl
  have hend : h.heap_next_virtual = b.addr + b.size := R.tiles.around.2.symm
  have hbb := R.bounds hb
  unfold VM_KERNEL_HEAP_LIMIT at hbb
  obtain ⟨hpv, _⟩ := R.neighbours
  have hrel : (if b.addr % PMM_PAGE_SIZE = 0 ∧ PMM_PAGE_SIZE ≤ b.size then b.addr
      else align_up (b.addr + HEADER_SIZE) PMM_PAGE_SIZE) = releasable b := rfl
  unfold shrink_turn
  simp only [htail, (R.holds b hb).size, u64_of_lt (n := b.addr + b.size) (by omega), hend,
    align_down_eq_self, hpv, ge_iff_le, hrel, ne_eq, not_true_eq_false, if_false]
  split
  · rfl
  · split <;> rfl

theorem drop_tail_fields (g : Heap) (a n pt : Nat) :
    (∀ x, ((drop_tail (release_pages g a n) pt).mem x) =
      if x = pt ∧ pt ≠ 0 then { g x with next := 0 } else g.mem x) ∧
    (drop_tail (release_pages g a n) pt).heap_start = (if pt = 0 then 0 else g.heap_start) ∧
    (drop_tail (release_pages g a n) pt).heap_tail = pt ∧
    (drop_tail (release_pages g a n) pt).heap_next_virtual = a ∧
    (drop_tail (release_pages g a n) pt).heap_free_bins = g.heap_free_bins ∧
    (drop_tail (release_pages g a n) pt).heap_current_used_bytes = g.heap_current_used_bytes := by
  unfold drop_tail release_pages
  by_cases h0 : pt = 0
  · simp [h0]
  simp only [h0, ne_eq, not_false_eq_true, if_true, if_false, write_mem, and_true]
  refine ⟨?_, rfl, trivial, rfl, rfl, rfl⟩
  intro x
  split
  · rename_i he
    subst he
    rfl
  · rfl

/-- The last block goes with its pages. -/
theorem Rep.drop_tail {n : Nat} (H : Rep h (l ++ [b]) bins) (ha : b.addr % PMM_PAGE_SIZE = 0) :
    Rep (drop_tail (release_pages (heap_remove_free_block h b.addr) b.addr n)
      ((addrs l).getLastD 0)) l (without bins b.addr) := by
  have hb : b ∈ l ++ [b] := by simp
  have G := H.remove hb
  generalize heap_remove_free_block h b.addr = g at G
  obtain ⟨T, _⟩ := G.tile.tiles.around
  have hbb := G.tile.bounds hb
  have hL := G.tile.links
  simp only [addrs_append, addrs_cons, addrs_nil] at hL
  obtain ⟨L, _⟩ := linked_append.mp hL
  obtain ⟨km, ks, kt, kn, kb, _⟩ := drop_tail_fields g b.addr n ((addrs l).getLastD 0)
  generalize heap.drop_tail (release_pages g b.addr n) ((addrs l).getLastD 0) = k at *
  have hl0 : addrs l ≠ [] → (addrs l).getLastD 0 ≠ 0 := fun hl =>
    G.tile.ne_zero (by rw [addrs_append]; exact mem_append_left _ (getLastD_mem hl))
  -- only `next` of the new tail changes
  have hm : ∀ x, ∃ nx, k.mem x = { g x with next := nx } := by
    intro x
    rw [km]
    split
    · exact ⟨_, rfl⟩
    · exact ⟨_, rfl⟩
  refine ⟨⟨?_, ?_, kt, kn ▸ T, ?_, kn ▸ ha, by omega⟩, G.bin.transfer kb ?_ ?_ ?_⟩
  · refine L.set_last T.nodup ?_ ?_ ?_
    · intro hl
      rw [km, if_pos ⟨rfl, hl0 hl⟩]
    · intro x hx hne
      rw [km, if_neg fun e => hne e.1]
    · intro x hx
      obtain ⟨nx, he⟩ := hm x
      rw [he]
  · rw [ks, G.tile.start]
    cases l with
    | nil => rfl
    | cons c l =>
      rw [if_neg (hl0 (by simp))]
      rfl
  · intro c hc
    have hh := G.tile.holds c (by simp [hc])
    obtain ⟨nx, he⟩ := hm c.addr
    rw [he]
    exact ⟨hh.magic, hh.size, hh.req, hh.free⟩
  · intro i x hx
    obtain ⟨nx, he⟩ := hm x
    rw [he]
    exact ⟨rfl, rfl⟩
  · intro i c hc hx
    rcases mem_append.mp hc with hc | hc
    · exact hc
    · rw [mem_singleton] at hc
      subst hc
      exact absurd rfl ((mem_without H.bin.nodup).mp hx).1
  · intro c hc
    obtain ⟨nx, he⟩ := hm c.addr
    rw [he]
    exact G.bin.flag c (by simp [hc])

/-- The last block keeps its first `s` bytes. -/
theorem Rep.cut_tail {s n : Nat} (H : Rep h (l ++ [b]) bins) (hf : b.free)
    (h16 : s % 16 = 0) (hs : HEADER_SIZE ≤ s) (hle : s ≤ b.size) (ha : (b.addr + s) % PMM_PAGE_SIZE = 0) :
    Rep (cut_tail (release_pages (heap_remove_free_block h b.addr) (b.addr + s) n) (u32 s))
      (l ++ [{ b with size := s }]) (within (without bins b.addr) { b with size := s }) := by
  have hb : b ∈ l ++ [b] := by simp
  have G := H.remove hb
  generalize heap_remove_free_block h b.addr = g at G
  obtain ⟨T, _⟩ := G.tile.tiles.around
  have hgb := G.tile.holds b hb
  have hbb := G.tile.bounds hb
  have hlim : VM_KERNEL_HEAP_LIMIT < 2 ^ 32 := by decide
  have hlo : ∀ x ∈ addrs l, x ≠ b.addr := fun x hx => by
    have := (T.lt_of_mem hx).2
    unfold HEADER_SIZE at this
    omega
  have htail : g.heap_tail = b.addr := G.tile.tail_iff.mpr rfl
  obtain ⟨k, hk⟩ : ∃ k, (release_pages g (b.addr + s) n).write b.addr
      (fun hd => { hd with size := s, next := 0 }) = k := ⟨_, rfl⟩
  have km : ∀ x, k.mem x =
      if x = b.addr then { g x with size := s, next := 0 } else g.mem x := by
    intro x
    rw [← hk, write_mem]
    split
    · rename_i he
      subst he
      rfl
    · rfl
  have kl : ∀ x ∈ addrs l, k.mem x = g x := fun x hx => by rw [km, if_neg (hlo x hx)]
  have kb := km b.addr
  rw [if_pos rfl] at kb
  have hcut : heap.cut_tail (release_pages g (b.addr + s) n) (u32 s) =
      heap_insert_free_block k b.addr := by
    rw [u32_of_lt (by omega), ← hk]
    unfold heap.cut_tail
    rw [show (release_pages g (b.addr + s) n).heap_tail = b.addr from htail]
  have hout : ∀ i, b.addr ∉ without bins b.addr i := by
    intro i
    simp [mem_without H.bin.nodup]
  rw [hcut]
  have hm : ∀ x, (k x).next = (g x).next ∧ (k x).prev = (g x).prev ∧
      (k x).free_next = (g x).free_next ∧ (k x).free_prev = (g x).free_prev ∧
      (k x).in_free_list = (g x).in_free_list := by
    intro x
    rw [km]
    split
    · rename_i he
      subst he
      exact ⟨G.tile.neighbours.2.1.symm, rfl, rfl, rfl, rfl⟩
    · exact ⟨rfl, rfl, rfl, rfl, rfl⟩
  have hnv : k.heap_next_virtual = b.addr + s := by
    rw [← hk]
    rfl
  have haddr : addrs (l ++ [{ b with size := s }]) = addrs (l ++ [b]) := by simp
  have K : Rep k (l ++ [{ b with size := s }]) (without bins b.addr) := by
    refine ⟨⟨?_, ?_, ?_, ?_, ?_, hnv ▸ ha, by omega⟩, G.bin.transfer ?_ ?_ ?_ ?_⟩
    · rw [haddr]
      exact G.tile.links.congr (fun x _ => (hm x).1) (fun x _ => (hm x).2.1)
    · rw [haddr, ← G.tile.start, ← hk]
      rfl
    · rw [haddr, ← G.tile.tail, ← hk]
      rfl
    · rw [hnv]
      exact tiles_append.mpr ⟨b.addr, T, rfl, h16, hs, rfl⟩
    · refine forall_mem_append.mpr ⟨fun c hc => ?_, forall_mem_singleton.mpr ?_⟩
      · rw [kl _ (addr_mem hc)]
        exact G.tile.holds c (by simp [hc])
      · rw [kb]
        exact ⟨hgb.magic, rfl, hgb.req, hgb.free⟩
    · rw [← hk]
      rfl
    · exact fun i x _ => ⟨(hm x).2.2.1, (hm x).2.2.2.1⟩
    · intro i c hc hx
      rcases mem_append.mp hc with hc | hc
      · simp [hc]
      · rw [mem_singleton] at hc
        subst hc
        exact absurd hx (hout i)
    · intro c hc
      rw [(hm _).2.2.2.2]
      rcases mem_append.mp hc with hc | hc
      · exact G.bin.flag c (by simp [hc])
      · rw [mem_singleton] at hc
        subst hc
        have := G.bin.flag b hb
        simp only [hout, iff_false] at this ⊢
        exact this
  exact K.insert (b := { b with size := s }) (by simp) hf (hout _)
end

end mini_kernel.heap
