-- Out of a bin and into a bin: what `heap_remove_free_block` and
-- `heap_insert_free_block` do to the threads of the bins. Neither touches the
-- thread in address order.
import MiniKernel.Mm.HeapRep

open mini_kernel.lib mini_kernel.vm Function List

namespace mini_kernel.heap

/-! ## The address order stays -/

theorem sameTiles_remove (h : Heap) (block : Nat) : SameTiles h (heap_remove_free_block h block) := by
  have S := SameTiles.refl h
  unfold heap_remove_free_block
  split
  · exact S
  dsimp only
  refine .write ?_ (by intro _; rfl)
  split_ifs <;>
    first
    | exact S
    | exact S.write (by intro _; rfl)
    | exact S.bin _
    | exact (S.write (by intro _; rfl)).write (by intro _; rfl)
    | exact (S.bin _).write (by intro _; rfl)

theorem sameTiles_insert (h : Heap) (block : Nat) : SameTiles h (heap_insert_free_block h block) := by
  have S := SameTiles.refl h
  unfold heap_insert_free_block
  split
  · exact S
  · dsimp only
    refine .write (.bin ?_ _) (by intro _; rfl)
    split
    · exact (S.write (by intro _; rfl)).write (by intro _; rfl)
    · exact S.write (by intro _; rfl)

/-! ## Who is in a bin -/

theorem heap_bin_index_lt (size : Nat) : heap_bin_index size < HEAP_FREE_BIN_COUNT := by
  unfold heap_bin_index HEAP_FREE_BIN_COUNT
  split_ifs <;> omega

variable {h : Heap} {bins : Nat → List Nat}

theorem BinRep.ne_zero {l : List Block} (R : TileRep h l)
    (B : BinRep h l bins) {i a : Nat} (ha : a ∈ bins i) : a ≠ 0 := by
  obtain ⟨b, hb, rfl, _⟩ := B.mem i a ha
  exact R.ne_zero (addr_mem hb)

/-- A block is in no bin but the one of its size. -/
theorem BinRep.index {l : List Block} (R : TileRep h l)
    (B : BinRep h l bins) {b : Block} (hb : b ∈ l) {i : Nat} (hi : b.addr ∈ bins i) :
    heap_bin_index b.size = i ∧ b.free := by
  obtain ⟨c, hc, he, hf, hx⟩ := B.mem i _ hi
  obtain rfl := R.tiles.eq_of_addr hc hb he
  exact ⟨hx, hf⟩

/-! ## Out of a bin -/

/-- What `heap_remove_free_block` writes for a block that is in a bin. -/
theorem remove_fields {a i fp fn : Nat} (hv : heap_block_valid h a)
    (hin : (h a).in_free_list) (hi : heap_bin_index (h a).size = i)
    (hfp : (h a).free_prev = fp) (hfn : (h a).free_next = fn) (hpa : fp ≠ a)
    (hhd : fp = 0 → h.heap_free_bins i = a) : let h' := heap_remove_free_block h a
    (∀ x, (h' x).free_next = if x = a then 0 else if x = fp ∧ fp ≠ 0 then fn else (h x).free_next) ∧
    (∀ x, (h' x).free_prev = if x = a then 0 else if x = fn ∧ fn ≠ 0 then fp else (h x).free_prev) ∧
    (∀ x, (h' x).in_free_list = if x = a then false else (h x).in_free_list) ∧
    h'.heap_free_bins = if fp = 0 then update h.heap_free_bins i fn else h.heap_free_bins := by
  have hlt : i < HEAP_FREE_BIN_COUNT := hi ▸ heap_bin_index_lt _
  unfold heap_remove_free_block
  rw [if_neg (by simp [hv, hin])]
  simp only [hi, hfp, hfn, ne_eq, hlt, true_and]
  by_cases h0 : fp = 0
  · subst h0
    simp only [hhd rfl]
    by_cases h1 : fn = 0
    · subst h1
      simp +contextual [Heap.write, update_apply, hfn, apply_ite]
    · simp +contextual [Heap.write, update_apply, hfn, h1, hfp]
      grind
  · have hpa' : a ≠ fp := fun e => hpa e.symm
    by_cases h1 : fn = 0
    · subst h1
      simp +contextual [Heap.write, update_apply, hfn, h0, hpa']
      grind
    · simp +contextual [Heap.write, update_apply, hfn, h0, h1, hpa', hfp]
      grind

section
variable {h : Heap} {l : List Block} {bins : Nat → List Nat} {b : Block}

/-- No address is in two bins. -/
theorem BinRep.unique (R : TileRep h l) (B : BinRep h l bins) {i j x : Nat} (hi : x ∈ bins i)
    (hj : x ∈ bins j) : i = j := by
  obtain ⟨c, hc, rfl, _, rfl⟩ := B.mem i x hi
  exact (B.index R hc hj).1

/-- The block leaves its bin; a block in no bin leaves nothing. -/
theorem BinRep.remove (R : TileRep h l) (B : BinRep h l bins) (hb : b ∈ l) :
    BinRep (heap_remove_free_block h b.addr) l fun i => (bins i).erase b.addr := by
  have hsz : (h b.addr).size = b.size := (R.holds b hb).size
  by_cases hin : (h b.addr).in_free_list
  · have hm := (B.flag b hb).mp hin
    obtain ⟨i₀, hi₀⟩ : ∃ i, heap_bin_index b.size = i := ⟨_, rfl⟩
    rw [hi₀] at hm
    obtain ⟨l₁, l₂, hl⟩ := append_of_mem hm
    have hd : (l₁ ++ b.addr :: l₂).Nodup := hl ▸ B.nodup i₀
    have hL := B.links i₀
    rw [hl] at hL
    obtain ⟨_, hfp, hfn, _⟩ := linked_append.mp hL
    have hsub : ∀ x, x ∈ l₁ ∨ x ∈ l₂ → x ∈ bins i₀ := by
      intro x hx
      rw [hl]
      rcases hx with hx | hx <;> simp [hx]
    have hne : ∀ x, x ∈ l₁ ∨ x ∈ l₂ → x ≠ b.addr := by
      rintro x hx rfl
      rw [nodup_append, nodup_cons] at hd
      rcases hx with hx | hx
      · exact hd.2.2 _ hx _ (by simp) rfl
      · exact hd.2.1.1 hx
    have hfp0 : l₁ ≠ [] → l₁.getLastD 0 ≠ 0 := fun h1 =>
      B.ne_zero R (hsub _ (.inl (getLastD_mem h1)))
    have hfn0 : l₂ ≠ [] → l₂.headD 0 ≠ 0 := fun h1 =>
      B.ne_zero R (hsub _ (.inr (headD_mem h1)))
    have hpa : l₁.getLastD 0 ≠ b.addr := by
      by_cases h1 : l₁ = []
      · subst h1
        exact (R.ne_zero (addr_mem hb)).symm
      · exact hne _ (.inl (getLastD_mem h1))
    have hhd : l₁.getLastD 0 = 0 → h.heap_free_bins i₀ = b.addr := by
      intro h0
      have h1 : l₁ = [] := by
        by_contra h1
        exact hfp0 h1 h0
      rw [B.head i₀, hl, h1]
      rfl
    obtain ⟨F1, F2, F3, F4⟩ :=
      remove_fields (R.valid hb) hin (by rw [hsz, hi₀]) hfp hfn hpa hhd
    have herase : (bins i₀).erase b.addr = l₁ ++ l₂ := by
      rw [hl, erase_append_right _ (fun hx => hne _ (.inl hx) rfl), erase_cons_head]
    have hother : ∀ i, i ≠ i₀ → (bins i).erase b.addr = bins i := fun i hi =>
      erase_of_not_mem fun hx => hi (B.unique R hx hm)
    refine ⟨?_, ?_, ?_, ?_, ?_⟩
    · intro i
      by_cases hi : i = i₀
      · subst hi
        rw [herase]
        refine hL.unlink hd ?_ ?_ ?_ ?_
        · intro h1
          rw [F1, if_neg (hne _ (.inl (getLastD_mem h1))), if_pos ⟨rfl, hfp0 h1⟩]
          exact hfn.symm
        · intro h2
          rw [F2, if_neg (hne _ (.inr (headD_mem h2))), if_pos ⟨rfl, hfn0 h2⟩]
          exact hfp.symm
        · intro x hx hx'
          rw [F1, if_neg (hne x (mem_append.mp hx)), if_neg]
          rintro ⟨rfl, h0⟩
          grind [getLastD_mem]
        · intro x hx hx'
          rw [F2, if_neg (hne x (mem_append.mp hx)), if_neg]
          rintro ⟨rfl, h0⟩
          grind [headD_mem]
      · rw [hother i hi]
        have hout : ∀ x ∈ bins i, x ∉ bins i₀ := fun x hx hy => hi (B.unique R hx hy)
        have hxb : ∀ x ∈ bins i, x ≠ b.addr := fun x hx e => hout x hx (e ▸ hm)
        refine (B.links i).congr ?_ ?_
        · intro x hx
          rw [F1, if_neg (hxb x hx), if_neg]
          rintro ⟨rfl, h0⟩
          have h1 : l₁ ≠ [] := by
            rintro rfl
            exact h0 rfl
          exact hout _ hx (hsub _ (.inl (getLastD_mem h1)))
        · intro x hx
          rw [F2, if_neg (hxb x hx), if_neg]
          rintro ⟨rfl, h0⟩
          have h2 : l₂ ≠ [] := by
            rintro rfl
            exact h0 rfl
          exact hout _ hx (hsub _ (.inr (headD_mem h2)))
    · intro i
      rw [F4]
      by_cases hi : i = i₀
      · subst hi
        rw [herase]
        cases l₁ with
        | nil => simp
        | cons y ys => rw [if_neg (hfp0 (by simp)), B.head, hl]; rfl
      · rw [hother i hi, ← B.head]
        split
        · rw [update_of_ne hi]
        · rfl
    · intro i
      exact (B.nodup i).erase _
    · intro i x hx
      exact B.mem i x (mem_of_mem_erase hx)
    · intro c hc
      rw [F3]
      by_cases hcb : c.addr = b.addr
      · rw [if_pos hcb, hcb]
        simp [(B.nodup _).mem_erase_iff]
      · rw [if_neg hcb, B.flag c hc, mem_erase_of_ne hcb]
  · have hnot : ∀ i, b.addr ∉ bins i := by
      intro i hi
      obtain ⟨rfl, _⟩ := B.index R hb hi
      exact hin ((B.flag b hb).mpr hi)
    have hh : heap_remove_free_block h b.addr = h := by
      unfold heap_remove_free_block
      rw [if_pos (.inr hin)]
    have hbins : (fun i => (bins i).erase b.addr) = bins :=
      funext fun i => erase_of_not_mem (hnot i)
    rw [hh, hbins]
    exact B

/-! ## Into a bin -/

/-- What `heap_insert_free_block` writes for a free block that is in no bin. -/
theorem insert_fields {a i fn : Nat} (hv : heap_block_valid h a)
    (hf : (h a).is_free) (hin : (h a).in_free_list = false)
    (hi : heap_bin_index (h a).size = i) (hfn : h.heap_free_bins i = fn) (hne : fn ≠ a) :
    let h' := heap_insert_free_block h a
    (∀ x, (h' x).free_next = if x = a then fn else (h x).free_next) ∧
    (∀ x, (h' x).free_prev = if x = a then 0 else if x = fn ∧ fn ≠ 0 then a else (h x).free_prev) ∧
    (∀ x, (h' x).in_free_list = if x = a then true else (h x).in_free_list) ∧
    h'.heap_free_bins = update h.heap_free_bins i a := by
  unfold heap_insert_free_block
  rw [if_neg (by simp [hv, hf, hin])]
  have hne' : a ≠ fn := hne.symm
  by_cases h0 : fn = 0
  · simp +contextual [Heap.write, update_apply, hi, hfn, h0]
    grind
  · simp +contextual [Heap.write, update_apply, hi, hfn, h0, hne']
    grind

/-- A free block goes to the front of the bin of its size. -/
theorem BinRep.insert (R : TileRep h l) (B : BinRep h l bins) (hb : b ∈ l)
    (hf : b.free) (hout : b.addr ∉ bins (heap_bin_index b.size)) :
    BinRep (heap_insert_free_block h b.addr) l
      (update bins (heap_bin_index b.size) (b.addr :: bins (heap_bin_index b.size))) := by
  have hh := R.holds b hb
  have hin : (h b.addr).in_free_list = false := by
    rw [← Bool.not_eq_true, B.flag b hb]
    exact hout
  obtain ⟨i₀, hi₀⟩ : ∃ i, heap_bin_index b.size = i := ⟨_, rfl⟩
  rw [hi₀] at hout ⊢
  have hnot : ∀ i, b.addr ∉ bins i := by
    intro i hx
    rw [← (B.index R hb hx).1, hi₀] at hx
    exact hout hx
  have hhd : ∀ i, bins i ≠ [] → (bins i).headD 0 ≠ 0 := fun i h1 => B.ne_zero R (headD_mem h1)
  have hne : (bins i₀).headD 0 ≠ b.addr := by
    by_cases h1 : bins i₀ = []
    · rw [h1]
      exact (R.ne_zero (addr_mem hb)).symm
    · exact fun e => hout (e ▸ headD_mem h1)
  obtain ⟨F1, F2, F3, F4⟩ := insert_fields (R.valid hb) (hh.free.trans hf) hin
    (by rw [hh.size, hi₀]) (B.head i₀) hne
  have hxb : ∀ i, ∀ x ∈ bins i, x ≠ b.addr := fun i x hx e => hnot i (e ▸ hx)
  refine ⟨?_, ?_, ?_, ?_, ?_⟩
  · intro i
    by_cases hi : i = i₀
    · subst hi
      rw [update_self]
      refine (B.links i).push_front (B.nodup i) ?_ ?_ ?_ ?_ ?_
      · rw [F2, if_pos rfl]
      · rw [F1, if_pos rfl]
      · intro h1
        rw [F2, if_neg hne, if_pos ⟨rfl, hhd i h1⟩]
      · intro x hx
        rw [F1, if_neg (hxb i x hx)]
      · intro x hx hx'
        rw [F2, if_neg (hxb i x hx), if_neg (fun e => hx' e.1)]
    · rw [update_of_ne hi]
      refine (B.links i).congr ?_ ?_
      · intro x hx
        rw [F1, if_neg (hxb i x hx)]
      · intro x hx
        rw [F2, if_neg (hxb i x hx), if_neg]
        rintro ⟨rfl, h0⟩
        have h1 : bins i₀ ≠ [] := by
          intro h1
          rw [h1] at h0
          exact h0 rfl
        exact hi (B.unique R hx (headD_mem h1))
  · intro i
    rw [F4]
    by_cases hi : i = i₀
    · subst hi
      simp
    · rw [update_of_ne hi, update_of_ne hi, B.head]
  · intro i
    by_cases hi : i = i₀
    · subst hi
      rw [update_self, nodup_cons]
      exact ⟨hout, B.nodup i⟩
    · rw [update_of_ne hi]
      exact B.nodup i
  · intro i x hx
    by_cases hi : i = i₀
    · subst hi
      rw [update_self, mem_cons] at hx
      rcases hx with rfl | hx
      · exact ⟨b, hb, rfl, hf, hi₀⟩
      · exact B.mem i x hx
    · rw [update_of_ne hi] at hx
      exact B.mem i x hx
  · intro c hc
    rw [F3]
    by_cases hcb : c.addr = b.addr
    · obtain rfl := R.tiles.eq_of_addr hc hb hcb
      rw [hi₀, update_self]
      simp
    · rw [if_neg hcb, B.flag c hc]
      by_cases hi : heap_bin_index c.size = i₀
      · rw [hi, update_self, mem_cons]
        simp [hcb]
      · rw [update_of_ne hi]

/-- The bins hold in any heap that agrees on them. -/
theorem BinRep.transfer {h' : Heap} {l' : List Block} (B : BinRep h l bins)
    (hheads : h'.heap_free_bins = h.heap_free_bins)
    (hmem : ∀ i, ∀ x ∈ bins i, (h' x).free_next = (h x).free_next ∧
      (h' x).free_prev = (h x).free_prev) (hkeep : ∀ i, ∀ c ∈ l, c.addr ∈ bins i → c ∈ l')
    (hflag : ∀ c ∈ l', (h' c.addr).in_free_list ↔
      c.addr ∈ bins (heap_bin_index c.size)) : BinRep h' l' bins := by
  refine ⟨?_, ?_, B.nodup, ?_, hflag⟩
  · intro i
    exact (B.links i).congr (fun x hx => (hmem i x hx).1) (fun x hx => (hmem i x hx).2)
  · intro i
    rw [hheads, B.head]
  · intro i x hx
    obtain ⟨c, hc, rfl, h2, h3⟩ := B.mem i x hx
    exact ⟨c, hkeep i c hc hx, rfl, h2, h3⟩

end

end mini_kernel.heap
