-- The laws of the heap over whole runs. From `heap_init`, through any calls of
-- `kmalloc` and of `kfree` on live pointers, the blocks tile the mapped range,
-- the bins hold the free blocks, and live payloads never overlap.
import MiniKernel.Lib.Machine
import MiniKernel.Mm.HeapOps

open mini_kernel.lib mini_kernel.vm mini_kernel.pmm List

namespace mini_kernel.heap

/-! ## Runs -/

/-- A heap in use, and the pointers that `kmalloc` gave out and that were not
freed yet, each with the size asked for. -/
structure Run where
  now : Heap
  live : List (Nat × Nat)

inductive Call
  | kmalloc (env : Env) (size : Nat)
  | kfree (ptr : Nat)

/-- One call. A size is below 2^31, and a pointer is freed only while it is live
(or null). -/
def call (s : Run) : Call → Option Run
  | .kmalloc env size =>
    if size < 2 ^ 31 then do
      let (p, h) ← kmalloc env s.now size
      some ⟨h, if p = 0 then s.live else (p, size) :: s.live⟩
    else none
  | .kfree p =>
    if p = 0 ∨ p ∈ s.live.map Prod.fst then do
      let h ← kfree s.now p
      some ⟨h, s.live.filter fun x => x.1 ≠ p⟩
    else none

/-- Runs from `heap_init`, whatever memory held before and whether or not the
first pages could be mapped. -/
def runs : Machine Run Call := .ofFun (fun s => ∃ env mem, s = ⟨heap_init env mem, []⟩) call

/-! ## What a whole heap is -/

/-- The bytes behind a pointer, by the header before it. -/
def payload (h : Heap) (p : Nat) : Nat := (h (p - HEADER_SIZE)).size - HEADER_SIZE

/-- Two payloads share no byte. -/
def Disjoint (h : Heap) (x y : Nat × Nat) : Prop :=
  x.1 + payload h x.1 ≤ y.1 ∨ y.1 + payload h y.1 ≤ x.1

/-- The heap, block by block: `l` lists its blocks in address order, `bins` the
addresses along each bin. -/
structure Whole (h : Heap) (live : List (Nat × Nat)) (l : List Block) (bins : Nat → List Nat) :
    Prop where
  tile : TileRep h l
  bin : BinRep h l bins
  size : ∀ b ∈ l, b.size % 16 = 0 ∧ HEADER_SIZE ≤ b.size
  apart : Apart l
  binned : ∀ b ∈ l, ∀ i,
    (bins i).count b.addr = if b.free ∧ i = heap_bin_index b.size then 1 else 0
  used : h.heap_current_used_bytes = (live.map Prod.snd).sum
  known : ∀ p n, (p, n) ∈ live ↔ ∃ b ∈ l, b.free = false ∧ p = b.addr + HEADER_SIZE ∧ n = b.req
  aligned : ∀ x ∈ live, x.1 % 16 = 0
  large : ∀ x ∈ live, x.2 ≤ payload h x.1
  disjoint : live.Pairwise (Disjoint h)

/-- What the run keeps: a sound heap whose blocks in use are the live pointers. -/
def Inv (s : Run) : Prop :=
  ∃ l bins, Sound s.now l bins ∧ Apart l ∧
    s.live.Perm ((taken l).map fun b => (b.addr + HEADER_SIZE, b.req))

section
variable {s s' : Run} {l : List Block} {bins : Nat → List Nat}

theorem mem_taken {b : Block} : b ∈ taken l ↔ b ∈ l ∧ b.free = false := by
  simp [taken]

theorem reqs_taken (hz : ∀ b ∈ l, b.free → b.req = 0) : reqs (taken l) = reqs l := by
  induction l with
  | nil => rfl
  | cons b l ih =>
    rw [forall_mem_cons] at hz
    cases hf : b.free with
    | true => rw [taken_cons_free _ hf, reqs_cons, ih hz.2, hz.1 hf, Nat.zero_add]
    | false => rw [taken_cons_used _ hf, reqs_cons, reqs_cons, ih hz.2]

theorem Tiles.pairwise {a e : Nat} (T : Tiles a l e) : l.Pairwise fun b c => b.addr + b.size ≤ c.addr := by
  induction l generalizing a with
  | nil => exact .nil
  | cons b l ih =>
    obtain ⟨h1, _, _, T'⟩ := T
    refine pairwise_cons.mpr ⟨fun c hc => ?_, ih T'⟩
    have := (T'.bounds hc).1
    omega

theorem Sound.payload_eq {h : Heap} (S : Sound h l bins) {b : Block} (hb : b ∈ l) :
    payload h (b.addr + HEADER_SIZE) = b.size - HEADER_SIZE := by
  unfold payload
  rw [Nat.add_sub_cancel, (S.rep.tile.holds b hb).size]

/-- The invariant says that the heap is whole. -/
theorem Inv.whole (h : Inv s) : ∃ l bins, Whole s.now s.live l bins := by
  obtain ⟨l, bins, S, hA, hp⟩ := h
  have T := S.rep.tile.tiles
  have hmem : ∀ x, x ∈ s.live ↔ ∃ b ∈ l, b.free = false ∧ x = (b.addr + HEADER_SIZE, b.req) := by
    intro x
    rw [hp.mem_iff, mem_map]
    constructor
    · rintro ⟨b, hb, rfl⟩
      exact ⟨b, (mem_taken.mp hb).1, (mem_taken.mp hb).2, rfl⟩
    · rintro ⟨b, hb, hf, rfl⟩
      exact ⟨b, mem_taken.mpr ⟨hb, hf⟩, rfl⟩
  refine ⟨l, bins, S.rep.tile, S.rep.bin, fun b hb => T.size hb, hA, ?_, ?_, ?_, ?_, ?_, ?_⟩
  · intro b hb i
    split
    · rename_i hc
      rw [hc.2]
      exact count_eq_one_of_mem (S.rep.bin.nodup _) ((S.kept b hb).full hc.1)
    · rename_i hc
      refine count_eq_zero_of_not_mem fun hx => hc ?_
      obtain ⟨h1, h2⟩ := S.rep.bin.index S.rep.tile hb hx
      exact ⟨h2, h1.symm⟩
  · rw [S.used, ← reqs_taken fun b hb hf => (S.kept b hb).zero hf, (hp.map Prod.snd).sum_eq,
      map_map]
    rfl
  · intro p n
    rw [hmem]
    simp only [Prod.mk.injEq]
  · intro x hx
    obtain ⟨b, hb, _, rfl⟩ := (hmem x).mp hx
    have := T.aligned (by decide) hb
    unfold HEADER_SIZE
    simp only
    omega
  · intro x hx
    obtain ⟨b, hb, _, rfl⟩ := (hmem x).mp hx
    have := (S.kept b hb).payload
    rw [S.payload_eq hb]
    simp only
    omega
  · refine (hp.pairwise_iff fun {x y} h => h.symm).mpr ?_
    rw [pairwise_map]
    refine List.Pairwise.imp_of_mem ?_ (T.pairwise.filter _)
    intro b c hb hc hbc
    left
    have := (T.size (mem_taken.mp hb).1).2
    rw [S.payload_eq (mem_taken.mp hb).1]
    simp only
    omega

/-! ## The steps keep it -/

/-- Before its first region the heap has no blocks. -/
theorem sound_empty {h : Heap} (hs : h.heap_start = 0) (ht : h.heap_tail = 0)
    (hb : h.heap_free_bins = fun _ => 0) (hn : h.heap_next_virtual = VM_KERNEL_HEAP_BASE)
    (hu : h.heap_current_used_bytes = 0) : Sound h [] fun _ => [] :=
  ⟨⟨⟨trivial, hs, ht, hn.symm, by simp, by rw [hn]; rfl, by rw [hn]; decide⟩,
    ⟨fun _ => trivial, fun _ => by rw [hb]; rfl, fun _ => .nil, by simp, by simp⟩⟩, by simp, hu⟩

/-- `heap_init` makes one free block, or none if its pages could not be mapped. -/
theorem sound_init (env : Env) (mem : Nat → heap_header) :
    ∃ l bins, Sound (heap_init env mem) l bins ∧ Apart l ∧ taken l = [] := by
  unfold heap_init
  extract_lets h
  have S : Sound h [] fun _ => [] := sound_empty rfl rfl rfl rfl rfl
  have hnv : h.heap_next_virtual = VM_KERNEL_HEAP_BASE := rfl
  clear_value h
  generalize hn : PMM_PAGE_SIZE * 4 = n
  have hr : h.heap_next_virtual + region_bytes n ≤ VM_KERNEL_HEAP_LIMIT := by
    rw [hnv, ← hn]
    norm_num [region_bytes, u32, PMM_PAGE_SIZE, VM_KERNEL_HEAP_BASE, VM_KERNEL_HEAP_LIMIT]
  unfold PMM_PAGE_SIZE at hn
  cases hok : env.map_ok with
  | true =>
    have S' := (S.append hok (by omega) (by unfold PMM_PAGE_SIZE; omega) hr).2
    exact ⟨_, _, update_peak_sound S', isChain_singleton _, taken_cons_free _ rfl⟩
  | false =>
    rw [append_fails S.rep.tile.limit (.inl hok)]
    have S' : Sound { h with heap_grow_requests := u32 (h.heap_grow_requests + 1) } []
        fun _ => [] := S.of_eq rfl rfl rfl rfl rfl rfl
    exact ⟨[], _, update_peak_sound S', isChain_nil, rfl⟩

theorem inv_init (env : Env) (mem : Nat → heap_header) : Inv ⟨heap_init env mem, []⟩ := by
  obtain ⟨l, bins, S, hA, ht⟩ := sound_init env mem
  generalize heap_init env mem = h at S
  refine ⟨l, bins, S, hA, ?_⟩
  rw [ht]
  exact List.Perm.refl _

theorem Inv.kmalloc (h : Inv s) (env : Env) {size : Nat} (hlt : size < 2 ^ 31) :
    ∃ p h', kmalloc env s.now size = some (p, h') ∧
      Inv ⟨h', if p = 0 then s.live else (p, size) :: s.live⟩ := by
  obtain ⟨l, bins, S, hA, hp⟩ := h
  obtain ⟨p, h', l', bins', hk, S', hA', hs⟩ := S.kmalloc env hA hlt
  refine ⟨p, h', hk, l', bins', S', hA', ?_⟩
  rcases hs with ⟨rfl, ht⟩ | ⟨a, n, t₁, t₂, rfl, _, ht, ht'⟩
  · simp only [if_true, ht]
    exact hp
  · rw [if_neg (by unfold HEADER_SIZE; omega), ht']
    rw [ht] at hp
    simp only [map_append, map_cons] at hp ⊢
    exact (hp.cons _).trans perm_middle.symm

theorem Inv.kfree (h : Inv s) {p : Nat} (hp : p = 0 ∨ p ∈ s.live.map Prod.fst) :
    ∃ h', kfree s.now p = some h' ∧ Inv ⟨h', s.live.filter fun x => x.1 ≠ p⟩ := by
  obtain ⟨l, bins, S, hA, hperm⟩ := h
  have hlive : ∀ x ∈ s.live, ∃ b ∈ l, b.free = false ∧ x = (b.addr + HEADER_SIZE, b.req) := by
    intro x hx
    obtain ⟨b, hb, rfl⟩ := mem_map.mp (hperm.mem_iff.mp hx)
    exact ⟨b, (mem_taken.mp hb).1, (mem_taken.mp hb).2, rfl⟩
  by_cases h0 : p = 0
  · subst h0
    refine ⟨s.now, if_pos rfl, l, bins, S, hA, ?_⟩
    have hall : (s.live.filter fun x => x.1 ≠ 0) = s.live := by
      refine filter_eq_self.mpr fun x hx => ?_
      obtain ⟨b, _, _, rfl⟩ := hlive x hx
      simp [HEADER_SIZE]
    simpa only [hall] using hperm
  · obtain ⟨x, hx, rfl⟩ := mem_map.mp (hp.resolve_left h0)
    obtain ⟨b, hb, hf, rfl⟩ := hlive x hx
    obtain ⟨l₁, l₂, rfl⟩ := append_of_mem hb
    obtain ⟨h', l', bins', hk, S', hA', ht⟩ := S.kfree hA hf
    refine ⟨h', hk, l', bins', S', hA', ?_⟩
    have hne := S.rep.tile.addr_ne
    -- of the blocks in use, only `b` has this pointer
    have hout : ∀ m : List Block, (∀ d ∈ m, d.addr ≠ b.addr) →
        (((taken m).map fun d => (d.addr + HEADER_SIZE, d.req)).filter
          fun x => x.1 ≠ b.addr + HEADER_SIZE) =
        (taken m).map fun d => (d.addr + HEADER_SIZE, d.req) := by
      intro m hm
      refine filter_eq_self.mpr fun x hx => ?_
      obtain ⟨d, hd, rfl⟩ := mem_map.mp hx
      have := hm d (mem_taken.mp hd).1
      simpa using this
    refine (hperm.filter _).trans (List.Perm.of_eq ?_)
    rw [ht, taken_append, taken_cons_used _ hf, map_append, map_cons, filter_append,
      filter_cons_of_neg (by simp), hout l₁ hne.1, hout l₂ hne.2, map_append]

theorem inv_call (c : Call) (h : Inv s) (hc : call s c = some s') : Inv s' := by
  cases c with
  | kmalloc env size =>
    simp only [call] at hc
    split at hc
    · rename_i hlt
      obtain ⟨p, h', hk, hi⟩ := h.kmalloc env hlt
      simp only [hk, Option.bind_eq_bind, Option.bind_some, Option.some.injEq] at hc
      exact hc ▸ hi
    · cases hc
  | kfree p =>
    simp only [call] at hc
    split at hc
    · rename_i hp
      obtain ⟨h', hk, hi⟩ := h.kfree hp
      simp only [hk, Option.bind_eq_bind, Option.bind_some, Option.some.injEq] at hc
      exact hc ▸ hi
    · cases hc

theorem inv_runs (hs : runs.Reachable s) : Inv s := by
  refine hs.inv ?_ fun _ c _ h hc => inv_call c h hc
  rintro s ⟨env, mem, rfl⟩
  exact inv_init env mem

/-- The heap is whole in every state of every run; a call of `kmalloc` always
returns, with a pointer that is aligned, large enough and clear of every live
payload, or with none; a call of `kfree` on a live pointer always returns. -/
theorem the_heap_stays_whole (hs : runs.Reachable s) :
    (∃ l bins, Whole s.now s.live l bins) ∧
    (∀ env size, size < 2 ^ 31 → ∃ p h', kmalloc env s.now size = some (p, h') ∧
      (p ≠ 0 → p % 16 = 0 ∧ size ≤ payload h' p ∧ ∀ x ∈ s.live, Disjoint h' (p, size) x)) ∧
    (∀ p ∈ s.live.map Prod.fst, ∃ h', kfree s.now p = some h') := by
  have hi := inv_runs hs
  refine ⟨hi.whole, ?_, ?_⟩
  · intro env size hlt
    obtain ⟨p, h', hk, hi'⟩ := hi.kmalloc env hlt
    refine ⟨p, h', hk, fun h0 => ?_⟩
    rw [if_neg h0] at hi'
    obtain ⟨l, bins, W⟩ := hi'.whole
    have hm : (p, size) ∈ (p, size) :: s.live := by simp
    exact ⟨W.aligned _ hm, W.large _ hm, (pairwise_cons.mp W.disjoint).1⟩
  · intro p hp
    obtain ⟨h', hk, _⟩ := hi.kfree (.inr hp)
    exact ⟨h', hk⟩

/-- A heap right after boot, with four pages mapped. -/
def booted : Run := ⟨heap_init ⟨false, true⟩ fun _ => zeroHeader, []⟩

theorem the_heap_stays_whole_with_a_live_pointer :
    ∃ s, runs.Reachable s ∧ s.live = [(0x40004030, 20000)] ∧
      ∃ l bins, Whole s.now s.live l bins := by
  obtain ⟨s, hs, hl⟩ : ∃ s, runs.Reachable s ∧ s.live = [(0x40004030, 20000)] :=
    Machine.exists_reachable (s := booted) (.of_init ⟨_, _, rfl⟩) [.kmalloc ⟨false, true⟩ 100,
      .kmalloc ⟨false, true⟩ 20000, .kfree 0x40000030] (by decide +kernel)
  exact ⟨s, hs, hl, (the_heap_stays_whole hs).1⟩

end

end mini_kernel.heap
