-- What the heap means: a list of blocks in address order that tiles the mapped
-- range, and one list of free blocks for each bin. `TileRep` and `BinRep` say
-- that the headers in memory thread these lists.
import MiniKernel.Mm.Heap

open mini_kernel.lib mini_kernel.vm mini_kernel.pmm List

namespace mini_kernel.heap

/-- The laws read a heap as its memory. -/
instance : CoeFun Heap fun _ => Nat → heap_header := ⟨Heap.mem⟩

/-! ## The blocks -/

/-- A block of the heap: where it lies, and what its header says about it. -/
structure Block where
  addr : Nat
  size : Nat
  req : Nat
  free : Bool

/-- The blocks lie end to end from `a` to `e`. -/
def Tiles : Nat → List Block → Nat → Prop
  | a, [], e => a = e
  | a, b :: l, e => b.addr = a ∧ b.size % 16 = 0 ∧ HEADER_SIZE ≤ b.size ∧ Tiles (a + b.size) l e

/-- The header says what the block says. -/
structure Holds (hd : heap_header) (b : Block) : Prop where
  magic : hd.magic = HEAP_BLOCK_MAGIC
  size : hd.size = b.size
  req : hd.requested_size = b.req
  free : hd.is_free = b.free

/-- The addresses of the blocks. -/
def addrs (l : List Block) : List Nat := l.map Block.addr

@[simp] theorem addrs_nil : addrs [] = [] := rfl
@[simp] theorem addrs_cons (b : Block) (l : List Block) : addrs (b :: l) = b.addr :: addrs l := rfl
@[simp] theorem addrs_append (l₁ l₂ : List Block) : addrs (l₁ ++ l₂) = addrs l₁ ++ addrs l₂ := by
  simp [addrs]

variable {l : List Block} {x a e : Nat} {b : Block} {h : Heap}

theorem mem_addrs : x ∈ addrs l ↔ ∃ b ∈ l, b.addr = x := by
  simp [addrs]

theorem addr_mem (h : b ∈ l) : b.addr ∈ addrs l :=
  mem_addrs.mpr ⟨b, h, rfl⟩

/-- The thread in address order, from `heap_start` to `heap_tail`, and the
headers along it. -/
structure TileRep (h : Heap) (l : List Block) : Prop where
  links : Linked (fun a => (h a).next) (fun a => (h a).prev) 0 (addrs l) 0
  start : h.heap_start = (addrs l).headD 0
  tail : h.heap_tail = (addrs l).getLastD 0
  tiles : Tiles VM_KERNEL_HEAP_BASE l h.heap_next_virtual
  holds : ∀ b ∈ l, Holds (h b.addr) b
  paged : h.heap_next_virtual % PMM_PAGE_SIZE = 0
  limit : h.heap_next_virtual ≤ VM_KERNEL_HEAP_LIMIT

/-- The threads of the bins. A block is in the bin of its size, or in none. -/
structure BinRep (h : Heap) (l : List Block) (bins : Nat → List Nat) : Prop where
  links : ∀ i, Linked (fun a => (h a).free_next) (fun a => (h a).free_prev) 0 (bins i) 0
  head : ∀ i, h.heap_free_bins i = (bins i).headD 0
  nodup : ∀ i, (bins i).Nodup
  mem : ∀ i, ∀ a ∈ bins i, ∃ b ∈ l, b.addr = a ∧ b.free ∧ heap_bin_index b.size = i
  flag : ∀ b ∈ l, (h b.addr).in_free_list ↔ b.addr ∈ bins (heap_bin_index b.size)

/-! ## Tiles -/

variable {l₁ l₂ : List Block}

theorem tiles_append : Tiles a (l₁ ++ l₂) e ↔ ∃ m, Tiles a l₁ m ∧ Tiles m l₂ e := by
  induction l₁ generalizing a with
  | nil => simp [Tiles]
  | cons b l ih => simp only [cons_append, Tiles, ih, and_assoc, exists_and_left]

theorem Tiles.le (h : Tiles a l e) : a ≤ e := by
  induction l generalizing a with
  | nil => exact Nat.le_of_eq h
  | cons b l ih => have := ih h.2.2.2; omega

theorem Tiles.bounds (h : Tiles a l e) (hb : b ∈ l) : a ≤ b.addr ∧ b.addr + b.size ≤ e := by
  induction l generalizing a with
  | nil => simp at hb
  | cons c l ih =>
    obtain ⟨h1, _, _, h4⟩ := h
    rcases mem_cons.mp hb with rfl | hb
    · exact ⟨h1.ge, by have := h4.le; omega⟩
    · have := ih h4 hb; omega

theorem Tiles.size (h : Tiles a l e) (hb : b ∈ l) : b.size % 16 = 0 ∧ HEADER_SIZE ≤ b.size := by
  induction l generalizing a with
  | nil => simp at hb
  | cons c l ih =>
    rcases mem_cons.mp hb with rfl | hb
    · exact ⟨h.2.1, h.2.2.1⟩
    · exact ih h.2.2.2 hb

/-- Where a block lies among the others. -/
theorem Tiles.around (h : Tiles a (l₁ ++ b :: l₂) e) :
    Tiles a l₁ b.addr ∧ Tiles (b.addr + b.size) l₂ e := by
  obtain ⟨m, h1, h2⟩ := tiles_append.mp h
  obtain ⟨rfl, _, _, h3⟩ := h2
  exact ⟨h1, h3⟩

theorem Tiles.lt_of_mem (h : Tiles a l e) (hx : x ∈ addrs l) : a ≤ x ∧ x + HEADER_SIZE ≤ e := by
  obtain ⟨b, hb, rfl⟩ := mem_addrs.mp hx
  have h1 := h.bounds hb
  have h2 := (h.size hb).2
  omega

theorem Tiles.nodup (h : Tiles a l e) : (addrs l).Nodup := by
  induction l generalizing a with
  | nil => simp
  | cons b l ih =>
    obtain ⟨h1, _, h3, h4⟩ := h
    rw [addrs_cons, nodup_cons]
    refine ⟨?_, ih h4⟩
    intro hm
    have := (h4.lt_of_mem hm).1
    unfold HEADER_SIZE at h3
    omega

theorem Tiles.aligned (h : Tiles a l e) (ha : a % 16 = 0) (hb : b ∈ l) : b.addr % 16 = 0 := by
  induction l generalizing a with
  | nil => simp at hb
  | cons c l ih =>
    obtain ⟨h1, h2, _, h4⟩ := h
    rcases mem_cons.mp hb with rfl | hb
    · omega
    · exact ih h4 (by omega) hb

/-- A block is known by its address. -/
theorem Tiles.eq_of_addr (h : Tiles a l e) {c : Block}
    (hb : b ∈ l) (hc : c ∈ l) (he : b.addr = c.addr) : b = c := by
  have hd := h.nodup
  exact inj_on_of_nodup_map hd hb hc he

theorem Tiles.length_le (h : Tiles a l e) : HEADER_SIZE * l.length ≤ e - a := by
  induction l generalizing a with
  | nil => simp
  | cons b l ih =>
    obtain ⟨_, _, h3, h4⟩ := h
    have := ih h4
    have := h4.le
    rw [length_cons, Nat.mul_succ]
    omega

/-! ## Headers that the code calls valid -/

theorem TileRep.bounds (R : TileRep h l) (hb : b ∈ l) :
    VM_KERNEL_HEAP_BASE ≤ b.addr ∧ b.addr + b.size ≤ h.heap_next_virtual ∧
      HEADER_SIZE ≤ b.size ∧ h.heap_next_virtual ≤ VM_KERNEL_HEAP_LIMIT :=
  ⟨(R.tiles.bounds hb).1, (R.tiles.bounds hb).2, (R.tiles.size hb).2, R.limit⟩

theorem TileRep.ne_zero (R : TileRep h l) (hx : x ∈ addrs l) : x ≠ 0 := by
  have := (R.tiles.lt_of_mem hx).1
  unfold VM_KERNEL_HEAP_BASE at this
  omega

theorem in_mapped_range {n : Nat} (h1 : VM_KERNEL_HEAP_BASE ≤ a) (h2 : 0 < n)
    (h3 : a + n ≤ h.heap_next_virtual) (h4 : h.heap_next_virtual ≤ VM_KERNEL_HEAP_LIMIT) :
    heap_address_in_mapped_range h a n := by
  unfold VM_KERNEL_HEAP_BASE VM_KERNEL_HEAP_LIMIT at *
  have hw : u64 (a + n) = a + n := u64_of_lt (by omega)
  unfold heap_address_in_mapped_range
  rw [if_neg (by omega)]
  simp only [hw, decide_eq_true_eq, VM_KERNEL_HEAP_BASE]
  omega

/-- Every block of the heap passes `heap_block_valid`. -/
theorem TileRep.valid (R : TileRep h l) (hb : b ∈ l) : heap_block_valid h b.addr := by
  obtain ⟨h1, h2, h3, h4⟩ := R.bounds hb
  have hh := R.holds b hb
  have hs : 0 < b.size := by unfold HEADER_SIZE at h3; omega
  unfold heap_block_valid
  rw [in_mapped_range h1 (by decide) (by omega) h4, hh.magic, hh.size,
    in_mapped_range h1 hs h2 h4]
  simp only [not_true_eq_false, if_false, ne_eq, false_or]
  rw [if_neg (by omega)]

/-! ## The fields that the bins do not touch -/

/-- A header without the fields of the bins. -/
def tileOf (hd : heap_header) : heap_header :=
  { hd with in_free_list := false, free_next := 0, free_prev := 0 }

/-- `h'` differs from `h` in the fields of the bins only. -/
structure SameTiles (h h' : Heap) : Prop where
  heads : ∃ m b, h' = { h with mem := m, heap_free_bins := b }
  mem : ∀ a, tileOf (h' a) = tileOf (h a)

theorem SameTiles.refl (h : Heap) : SameTiles h h := ⟨⟨_, _, rfl⟩, fun _ => rfl⟩

theorem SameTiles.write {g : Heap} {f : heap_header → heap_header}
    (S : SameTiles h g) (hf : ∀ hd, tileOf (f hd) = tileOf hd) : SameTiles h (g.write a f) := by
  obtain ⟨⟨m, b, rfl⟩, hm⟩ := S
  refine ⟨⟨_, b, rfl⟩, fun x => ?_⟩
  rw [← hm]
  by_cases hx : x = a
  · subst hx; simp [Heap.write, hf]
  · simp [Heap.write, hx]

theorem SameTiles.bin {g : Heap} (S : SameTiles h g) (b : Nat → Nat) :
    SameTiles h { g with heap_free_bins := b } := by
  obtain ⟨⟨m, b', rfl⟩, hm⟩ := S
  exact ⟨⟨m, b, rfl⟩, hm⟩

theorem SameTiles.field {β : Type} {h h' : Heap} (S : SameTiles h h') (f : heap_header → β)
    (hf : ∀ hd, f (tileOf hd) = f hd) (a : Nat) : f (h' a) = f (h a) := by
  rw [← hf, S.mem, hf]

theorem TileRep.of_same {h h' : Heap} {l : List Block} (R : TileRep h l) (S : SameTiles h h') :
    TileRep h' l := by
  have hh : ∀ b ∈ l, Holds (h' b.addr) b := fun b hb =>
    have H := R.holds b hb
    ⟨(S.field (·.magic) (fun _ => rfl) _).trans H.magic, (S.field (·.size) (fun _ => rfl) _).trans H.size,
      (S.field (·.requested_size) (fun _ => rfl) _).trans H.req,
      (S.field (·.is_free) (fun _ => rfl) _).trans H.free⟩
  have hl : Linked (fun a => (h' a).next) (fun a => (h' a).prev) 0 (addrs l) 0 :=
    R.links.congr (fun x _ => S.field (·.next) (fun _ => rfl) x) fun x _ => S.field (·.prev) (fun _ => rfl) x
  obtain ⟨⟨m, bs, rfl⟩, _⟩ := S
  exact ⟨hl, R.start, R.tail, R.tiles, hh, R.paged, R.limit⟩

end mini_kernel.heap
