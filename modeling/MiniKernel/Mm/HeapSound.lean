-- A sound heap: every free block is in its bin, a block holds what was asked of
-- it, and the counter of used bytes is right. The steps of `kmalloc` and `kfree`
-- go from sound heap to sound heap.
import MiniKernel.Mm.HeapGrow

open mini_kernel.lib mini_kernel.vm mini_kernel.pmm List

namespace mini_kernel.heap

/-- The bytes asked for, over all blocks. -/
def reqs (l : List Block) : Nat := (l.map Block.req).sum

/-- The blocks in use. -/
def taken (l : List Block) : List Block := l.filter fun b => !b.free

@[simp] theorem reqs_append (l₁ l₂ : List Block) : reqs (l₁ ++ l₂) = reqs l₁ + reqs l₂ := by
  simp [reqs]
@[simp] theorem reqs_cons (b : Block) (l : List Block) : reqs (b :: l) = b.req + reqs l := by
  simp [reqs]
@[simp] theorem reqs_nil : reqs [] = 0 := rfl
@[simp] theorem taken_append (l₁ l₂ : List Block) : taken (l₁ ++ l₂) = taken l₁ ++ taken l₂ := by
  simp [taken]
@[simp] theorem taken_nil : taken [] = [] := rfl

theorem taken_cons_free {b : Block} (l : List Block) (hf : b.free) : taken (b :: l) = taken l := by
  simp [taken, hf]

theorem taken_cons_used {b : Block} (l : List Block) (hf : b.free = false) :
    taken (b :: l) = b :: taken l := by
  simp [taken, hf]

/-- No two neighbours are both free. -/
def Apart (l : List Block) : Prop := l.IsChain fun b c => ¬ (b.free ∧ c.free)

/-- A free block is in its bin and holds nothing; any block holds what was asked
of it. -/
structure Kept (bins : Nat → List Nat) (b : Block) : Prop where
  full : b.free → b.addr ∈ bins (heap_bin_index b.size)
  zero : b.free → b.req = 0
  payload : b.req + HEADER_SIZE ≤ b.size

structure Sound (h : Heap) (l : List Block) (bins : Nat → List Nat) : Prop where
  rep : Rep h l bins
  kept : ∀ b ∈ l, Kept bins b
  used : h.heap_current_used_bytes = reqs l

/-! ## The counter stays -/

theorem SameTiles.used {h h' : Heap} (S : SameTiles h h') :
    h'.heap_current_used_bytes = h.heap_current_used_bytes := by
  obtain ⟨m, b, he⟩ := S.heads
  rw [he]

theorem write_used (h : Heap) (a : Nat) (f : heap_header → heap_header) :
    (h.write a f).heap_current_used_bytes = h.heap_current_used_bytes := rfl

theorem remove_used (h : Heap) (a : Nat) :
    (heap_remove_free_block h a).heap_current_used_bytes = h.heap_current_used_bytes :=
  (sameTiles_remove h a).used

theorem insert_used (h : Heap) (a : Nat) :
    (heap_insert_free_block h a).heap_current_used_bytes = h.heap_current_used_bytes :=
  (sameTiles_insert h a).used

theorem split_used (h : Heap) (a t : Nat) :
    (split_block h a t).heap_current_used_bytes = h.heap_current_used_bytes := by
  unfold split_block
  split
  · rfl
  · rw [insert_used, ← remove_used h a]
    split_ifs <;> rfl

theorem merge_used (h : Heap) (a : Nat) :
    (merge_with_next h a).2.heap_current_used_bytes = h.heap_current_used_bytes := by
  unfold merge_with_next
  split
  · rfl
  · dsimp only
    split
    · rfl
    · rw [insert_used, ← remove_used h a, ← remove_used (heap_remove_free_block h a)]
      split_ifs <;> rfl

theorem append_used (env : Env) (h : Heap) (bytes : Nat) :
    (append_region env h bytes).2.heap_current_used_bytes = h.heap_current_used_bytes := by
  unfold append_region
  dsimp only
  split
  · rfl
  · split
    · rfl
    · rw [insert_used]
      split <;> rfl

theorem cut_tail_used (h : Heap) (a n s : Nat) :
    (cut_tail (release_pages h a n) s).heap_current_used_bytes = h.heap_current_used_bytes := by
  unfold cut_tail
  rw [insert_used]
  rfl

/-! ## Blocks that stay -/

section
variable {h : Heap} {l l₁ l₂ : List Block} {bins : Nat → List Nat} {b c d : Block}

theorem Kept.without (K : Kept bins d) (hd : ∀ i, (bins i).Nodup) {a : Nat} (hne : d.addr ≠ a) :
    Kept (without bins a) d :=
  ⟨fun hf => (mem_without hd).mpr ⟨hne, K.full hf⟩, K.zero, K.payload⟩

theorem Kept.within (K : Kept bins d) : Kept (within bins b) d :=
  ⟨fun hf => mem_within.mpr (.inr (K.full hf)), K.zero, K.payload⟩

/-- A free block that holds nothing is kept by the bin it is put in. -/
theorem kept_within (hr : b.req = 0) (hs : HEADER_SIZE ≤ b.size) : Kept (within bins b) b :=
  ⟨fun _ => mem_within.mpr (.inl ⟨rfl, rfl⟩), fun _ => hr, by omega⟩

/-- A block in use is kept by any bins. -/
theorem kept_used (hf : b.free = false) (hs : b.req + HEADER_SIZE ≤ b.size) : Kept bins b :=
  ⟨by simp [hf], by simp [hf], hs⟩

theorem TileRep.addr_ne (R : TileRep h (l₁ ++ b :: l₂)) :
    (∀ d ∈ l₁, d.addr ≠ b.addr) ∧ ∀ d ∈ l₂, d.addr ≠ b.addr := by
  have hd := R.tiles.nodup
  simp only [addrs_append, addrs_cons, nodup_append, nodup_cons] at hd
  exact ⟨fun d hm => hd.2.2 _ (addr_mem hm) _ (by simp),
    fun d hm he => hd.2.1.1 (he ▸ addr_mem hm)⟩

/-! ## Join -/

theorem Sound.merge (S : Sound h (l₁ ++ b :: c :: l₂) bins) (hbf : b.free) (hcf : c.free) :
    (merge_with_next h b.addr).1 = b.addr ∧
    Sound (merge_with_next h b.addr).2 (l₁ ++ ⟨b.addr, b.size + c.size, 0, true⟩ :: l₂)
      (within (without (without bins b.addr) c.addr) ⟨b.addr, b.size + c.size, 0, true⟩) := by
  obtain ⟨h1, h2⟩ := S.rep.merge hbf hcf
  have hnd := S.rep.bin.nodup
  have hnd' := (S.rep.remove (b := b) (by simp)).bin.nodup
  have hb := S.rep.tile.addr_ne
  have R' : TileRep h ((l₁ ++ [b]) ++ c :: l₂) := by simpa using S.rep.tile
  have hc := R'.addr_ne
  have K := S.kept
  simp only [forall_mem_append, forall_mem_cons] at K hb hc
  obtain ⟨K₁, Kb, Kc, K₂⟩ := K
  have hb0 := Kb.zero hbf
  have hc0 := Kc.zero hcf
  refine ⟨h1, h2, ?_, ?_⟩
  · simp only [forall_mem_append, forall_mem_cons]
    refine ⟨?_, kept_within rfl ?_, ?_⟩
    · exact fun d hd => (((K₁ d hd).without hnd (hb.1 d hd)).without hnd' (hc.1.1 d hd)).within
    · show HEADER_SIZE ≤ b.size + c.size
      have := Kb.payload
      omega
    · exact fun d hd => (((K₂ d hd).without hnd (hb.2.2 d hd)).without hnd' (hc.2 d hd)).within
  · rw [merge_used, S.used]
    simp [hb0, hc0]

section
variable (S : Sound h (l₁ ++ b :: l₂) bins)
include S

/-- A block whose right neighbour is in use, or is not there, stays as it is. -/
theorem Sound.merge_none (hn : ∀ d ∈ l₂.head?, d.free = false) : merge_with_next h b.addr = (b.addr, h) := by
  obtain ⟨_, hnx, _⟩ := S.rep.tile.neighbours
  unfold merge_with_next
  rw [hnx]
  cases l₂ with
  | nil => rw [if_pos (.inr rfl)]
  | cons d l₂ =>
    have hd : (h d.addr).is_free = false :=
      (S.rep.tile.holds d (by simp)).free.trans (hn d rfl)
    split
    · rfl
    · simp [hd]

/-- The left half of `coalesce_around`: a free left neighbour joins. -/
theorem Sound.coalesce_left (hbf : b.free) (h₁ : Apart l₁) {r : Nat × Heap}
    (hr : r = if (h b.addr).prev ≠ 0 ∧ (h (h b.addr).prev).is_free ∧
        heap_blocks_adjacent h (h b.addr).prev b.addr then
      merge_with_next h (h b.addr).prev else (b.addr, h)) :
    ∃ l₁' b' bins', r.1 = b'.addr ∧ b'.free ∧ Sound r.2 (l₁' ++ b' :: l₂) bins' ∧
      Apart l₁' ∧ (∀ d ∈ l₁'.getLast?, d.free = false) ∧ taken l₁' = taken l₁ := by
  obtain ⟨hpv, _⟩ := S.rep.tile.neighbours
  rcases eq_nil_or_concat l₁ with rfl | ⟨l₀, p, rfl⟩
  · rw [if_neg fun e => e.1 hpv] at hr
    subst hr
    exact ⟨[], b, bins, rfl, hbf, S, h₁, by simp, rfl⟩
  · have S' : Sound h (l₀ ++ p :: b :: l₂) bins := by simpa using S
    rw [concat_eq_append] at h₁ hpv
    have hp : (h b.addr).prev = p.addr := by
      rw [hpv, addrs_append, getLastD_append]
      rfl
    have hpf : (h p.addr).is_free = p.free := (S'.rep.tile.holds p (by simp)).free
    have hp0 : p.addr ≠ 0 := S'.rep.tile.ne_zero (by simp)
    obtain ⟨hA₀, _, hA⟩ := isChain_append.mp h₁
    rw [hp, hpf] at hr
    cases hfree : p.free with
    | false =>
      rw [hfree, if_neg (by simp)] at hr
      subst hr
      refine ⟨l₀ ++ [p], b, bins, rfl, hbf, by simpa using S, h₁, ?_, by simp⟩
      simpa using hfree
    | true =>
      rw [hfree, if_pos ⟨hp0, rfl, S'.rep.tile.adjacent⟩] at hr
      subst hr
      obtain ⟨h1, h2⟩ := S'.merge hfree hbf
      refine ⟨l₀, ⟨p.addr, p.size + b.size, 0, true⟩, _, h1, rfl, h2, hA₀, ?_, ?_⟩
      · intro d hd
        have := hA d hd p rfl
        simpa [hfree] using this
      · rw [concat_eq_append, taken_append, taken_cons_free _ hfree]
        simp

/-- The right half of `coalesce_around`: a free right neighbour joins. -/
theorem Sound.coalesce_right (hbf : b.free) (h₂ : Apart l₂) :
    ∃ b' l₂' bins', b'.free ∧ Sound (merge_with_next h b.addr).2 (l₁ ++ b' :: l₂') bins' ∧
      Apart l₂' ∧ (∀ d ∈ l₂'.head?, d.free = false) ∧ taken l₂' = taken l₂ := by
  by_cases hn : ∀ d ∈ l₂.head?, d.free = false
  · rw [S.merge_none hn]
    exact ⟨b, l₂, bins, hbf, S, h₂, hn, rfl⟩
  cases l₂ with
  | nil => simp at hn
  | cons c l₃ =>
    have hcf : c.free := by simpa using hn
    obtain ⟨hA, hA₃⟩ := isChain_cons.mp h₂
    refine ⟨_, l₃, _, rfl, (S.merge hbf hcf).2, hA₃, ?_, (taken_cons_free _ hcf).symm⟩
    intro d hd
    simpa [hcf] using hA d hd

end

/-- `coalesce_around` after it put the block into its bin: the neighbours that
are free join it, and no two free blocks are left side by side. -/
theorem Sound.coalesce (S : Sound (heap_insert_free_block h b.addr) (l₁ ++ b :: l₂) bins)
    (hv : heap_block_valid h b.addr) (hf : (h b.addr).is_free)
    (hbf : b.free) (h₁ : Apart l₁) (h₂ : Apart l₂) :
    ∃ l' bins', Sound (coalesce_around h b.addr).2 l' bins' ∧ Apart l' ∧
      taken l' = taken l₁ ++ taken l₂ := by
  have hb0 : b.addr ≠ 0 := S.rep.tile.ne_zero (by simp)
  obtain ⟨l₁', b', bins', hr, hbf', S', hA, hlast, ht⟩ := S.coalesce_left hbf h₁ rfl
  obtain ⟨b'', l₂', bins'', hbf'', S'', hA', hhead, ht'⟩ := S'.coalesce_right hbf' h₂
  refine ⟨l₁' ++ b'' :: l₂', bins'', ?_, ?_, ?_⟩
  · unfold coalesce_around
    rw [if_neg (by simp [hb0, hv, hf])]
    dsimp only
    rw [hr]
    exact S''
  · refine isChain_append.mpr ⟨hA, isChain_cons.mpr ⟨?_, hA'⟩, ?_⟩
    · intro d hd
      simp [hhead d hd]
    · intro d hd
      simp [hlast d hd]
  · rw [taken_append, taken_cons_free _ hbf'', ht, ht']

/-! ## Give back -/

theorem Apart.of_last {b' : Block} (hA : Apart (l ++ [b])) (hf : b'.free = b.free) : Apart (l ++ [b']) := by
  unfold Apart at *
  rw [isChain_append] at hA ⊢
  refine ⟨hA.1, by simp, ?_⟩
  intro x hx y hy
  simp only [head?_cons, Option.mem_def, Option.some.injEq] at hy
  subst hy
  rw [hf]
  exact hA.2.2 x hx b rfl

/-- Where a tail is cut: at its own start, or at a page after its header. -/
theorem releasable_cases (hhi : b.addr + b.size ≤ VM_KERNEL_HEAP_LIMIT) (h16 : b.addr % 16 = 0) :
    (releasable b = b.addr ∧ b.addr % PMM_PAGE_SIZE = 0) ∨
    (b.addr + HEADER_SIZE ≤ releasable b ∧ releasable b % PMM_PAGE_SIZE = 0 ∧
      (releasable b - b.addr) % 16 = 0) := by
  unfold releasable
  split
  · rename_i hc
    exact .inl ⟨rfl, hc.1⟩
  · obtain ⟨h1, _, h3⟩ := align_up_spec (b.addr + HEADER_SIZE) PMM_PAGE_SIZE
      (by decide) (by unfold VM_KERNEL_HEAP_LIMIT at hhi; unfold HEADER_SIZE PMM_PAGE_SIZE; omega)
    refine .inr ⟨h1, h3, ?_⟩
    unfold PMM_PAGE_SIZE at *
    omega

/-- One turn of the loop at a free tail keeps the heap sound and every block in
use, and goes on only with one block less. -/
theorem Sound.shrink_turn (S : Sound h (l ++ [b]) bins) (hA : Apart (l ++ [b])) (hf : b.free) :
    ∃ l' bins', Sound (shrink_turn h).2 l' bins' ∧ Apart l' ∧ taken l' = taken (l ++ [b]) ∧
      ((shrink_turn h).1 → l' = l) := by
  have hb : b ∈ l ++ [b] := by simp
  have R := S.rep.tile
  have hbb := R.bounds hb
  have h16 := R.tiles.aligned (by decide) hb
  have Kb := S.kept b hb
  have K₁ : ∀ d ∈ l, Kept (without bins b.addr) d := fun d hd =>
    (S.kept d (by simp [hd])).without S.rep.bin.nodup (R.addr_ne.1 d hd)
  have htk : taken (l ++ [b]) = taken l := by
    rw [taken_append, taken_cons_free _ hf]
    simp
  have hA₁ : Apart l := (isChain_append.mp hA).1
  rw [shrink_turn_eq R, htk]
  by_cases hrel : b.addr + b.size ≤ releasable b
  · rw [if_pos hrel]
    exact ⟨l ++ [b], bins, S, hA, htk, by simp⟩
  rw [if_neg hrel]
  dsimp only
  rcases releasable_cases (by omega) h16 with ⟨he, ha⟩ | ⟨h1, h2, h3⟩
  · rw [if_pos he, he]
    refine ⟨l, _, ⟨S.rep.drop_tail ha, K₁, ?_⟩, hA₁, rfl, fun _ => rfl⟩
    rw [(drop_tail_fields _ _ _ _).2.2.2.2.2, remove_used, S.used]
    simp [Kb.zero hf]
  · rw [if_neg (by unfold HEADER_SIZE at h1; omega)]
    obtain ⟨s, hs⟩ : ∃ s, releasable b = b.addr + s := ⟨releasable b - b.addr, by omega⟩
    rw [hs] at h1 h2 h3 hrel ⊢
    rw [Nat.add_sub_cancel_left] at h3 ⊢
    refine ⟨l ++ [{ b with size := s }], _,
      ⟨S.rep.cut_tail hf h3 (by omega) (by omega) h2, ?_, ?_⟩, hA.of_last rfl, ?_, by simp⟩
    · simp only [forall_mem_append, forall_mem_singleton]
      exact ⟨fun d hd => (K₁ d hd).within, kept_within (Kb.zero hf) (by simp; omega)⟩
    · rw [cut_tail_used, remove_used, S.used]
      simp
    · rw [taken_append, taken_cons_free _ (by exact hf)]
      simp

/-- The loop ends within as many turns as there are blocks. -/
theorem Sound.shrink_loop {fuel : Nat} (S : Sound h l bins) (hA : Apart l) (hfuel : l.length < fuel) :
    ∃ h' l' bins', shrink_loop fuel h = some h' ∧ Sound h' l' bins' ∧ Apart l' ∧
      taken l' = taken l := by
  induction fuel generalizing h l bins with
  | zero => omega
  | succ fuel ih =>
    unfold heap.shrink_loop
    rcases eq_nil_or_concat l with rfl | ⟨l₀, b, rfl⟩
    · have ht : h.heap_tail = 0 := S.rep.tile.tail
      rw [if_pos (.inl ht)]
      exact ⟨h, [], bins, rfl, S, hA, rfl⟩
    · rw [concat_eq_append] at S hA hfuel ⊢
      have ht : h.heap_tail = b.addr := S.rep.tile.tail_iff.mpr rfl
      have hb0 : b.addr ≠ 0 := S.rep.tile.ne_zero (by simp)
      have hbf : (h b.addr).is_free = b.free := (S.rep.tile.holds b (by simp)).free
      rw [ht, hbf]
      cases hf : b.free with
      | false =>
        rw [if_pos (by simp)]
        exact ⟨h, _, bins, rfl, S, hA, rfl⟩
      | true =>
        rw [if_neg (by simp [hb0])]
        obtain ⟨l', bins', S', hA', ht', hon⟩ := S.shrink_turn hA hf
        dsimp only
        split
        · rename_i h1
          obtain rfl := hon h1
          rw [← ht']
          exact ih S' hA' (by simpa using hfuel)
        · exact ⟨_, l', bins', rfl, S', hA', ht'⟩

theorem Sound.length_lt_turns (S : Sound h l bins) : l.length < turns h := by
  have := S.rep.tile.tiles.length_le
  unfold turns
  rw [Nat.lt_succ_iff, Nat.le_div_iff_mul_le (by decide), Nat.mul_comm]
  exact this

theorem Sound.shrink_heap_tail (S : Sound h l bins) (hA : Apart l) :
    ∃ h' l' bins', shrink_heap_tail h = some h' ∧ Sound h' l' bins' ∧ Apart l' ∧
      taken l' = taken l := S.shrink_loop hA S.length_lt_turns

end

end mini_kernel.heap
