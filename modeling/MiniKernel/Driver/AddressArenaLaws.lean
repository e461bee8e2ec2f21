-- The arena stays partitioned. The free extents and the ranges of the records lie end
-- to end over it, no two free ones side by side. An allocation stands right behind
-- another one or at the base, so there is always room in the table of extents for a
-- release.
import MiniKernel.Driver.AddressArena
import MiniKernel.Lib.Tiling

open mini_kernel.lib mini_kernel.vm mini_kernel.driver Function List

namespace mini_kernel.driver_va

/-- The laws read an arena as its records. -/
instance : CoeFun Arena fun _ => Fin DRIVER_IMAGE_VA_MAX_ALLOCATIONS → DriverVaRecord := ⟨Arena.allocations⟩

/-! ## The pieces of the arena -/

/-- A run of pages, free or reserved for a record. -/
structure Piece where
  base : Nat
  pages : Nat
  holder : Option (Fin DRIVER_IMAGE_VA_MAX_ALLOCATIONS)

def Piece.free (x : Piece) : Bool := x.holder.isNone

def Piece.size (x : Piece) : Nat := x.pages * VM_PAGE_SIZE

open Piece (free size)

/-- The extents of the free pieces. -/
def extents (l : List Piece) : List DriverVaExtent :=
  (l.filter free).map fun x => ⟨x.base, x.pages⟩

/-- The records that hold pieces. -/
def holders (l : List Piece) : List (Fin DRIVER_IMAGE_VA_MAX_ALLOCATIONS) :=
  l.filterMap Piece.holder

/-- The pieces that the tables describe. -/
structure Books (a : Arena) (l : List Piece) : Prop where
  laid : Laid Piece.base size a.arena_base l a.arena_limit
  pages : ∀ x ∈ l, 0 < x.pages
  alternate : Alternate free l
  table : a.free_extents = extents l
  once : (holders l).Nodup
  held : ∀ i, (a i).active ↔ i ∈ holders l
  range : ∀ x ∈ l, ∀ i, x.holder = some i →
    x.base = (a i).reserved_base ∧ x.pages = (a i).reserved_pages
  room : (∀ i, (a i).active) →
    a.free_extents.length ≤ DRIVER_IMAGE_VA_MAX_ALLOCATIONS

/-- What an active record says about its range. -/
structure Formed (r : DriverVaRecord) : Prop where
  owner : driver_identity_is_valid r.owner
  generation : r.generation ≠ 0
  usable : r.usable_base = r.reserved_base + DRIVER_IMAGE_VA_GUARD_PAGES * VM_PAGE_SIZE
  guarded : r.reserved_pages = r.usable_pages + DRIVER_IMAGE_VA_GUARD_PAGES * 2
  pages : 0 < r.usable_pages

structure Sound (a : Arena) : Prop where
  books : ∃ l, Books a l
  formed : ∀ i, (a i).active → Formed (a i)
  base : a.arena_base = DRIVER_IMAGE_VA_BASE
  limit : a.arena_limit = DRIVER_IMAGE_VA_LIMIT
  guard : a.guard_pages = DRIVER_IMAGE_VA_GUARD_PAGES

variable {a a' : Arena} {l l₁ l₂ : List Piece} {x : Piece}
  {i : Fin DRIVER_IMAGE_VA_MAX_ALLOCATIONS}

@[simp] theorem extents_nil : extents [] = [] := rfl

@[simp] theorem extents_append : extents (l₁ ++ l₂) = extents l₁ ++ extents l₂ := by
  simp [extents]

theorem extents_cons_free (hx : x.holder = none) : extents (x :: l) = ⟨x.base, x.pages⟩ :: extents l := by
  simp [extents, free, hx]

theorem extents_cons_held (hx : x.holder = some i) : extents (x :: l) = extents l := by
  simp [extents, free, hx]

@[simp] theorem holders_nil : holders [] = [] := rfl

@[simp] theorem holders_append : holders (l₁ ++ l₂) = holders l₁ ++ holders l₂ := by
  simp [holders]

theorem holders_cons_free (hx : x.holder = none) : holders (x :: l) = holders l := by
  simp [holders, hx]

theorem holders_cons_held (hx : x.holder = some i) : holders (x :: l) = i :: holders l := by
  simp [holders, hx]

theorem mem_holders : i ∈ holders l ↔ ∃ x ∈ l, x.holder = some i := by
  simp [holders]

theorem length_extents : (extents l).length = l.countP free := by
  simp [extents, countP_eq_length_filter]

theorem length_holders : (holders l).length = l.countP (fun x => !x.free) := by
  simp only [holders, length_filterMap_eq_countP, free, Option.not_isNone]

theorem mem_extents {e : DriverVaExtent} :
    e ∈ extents l ↔ ∃ x ∈ l, x.holder = none ∧ x.base = e.base ∧ x.pages = e.page_count := by
  obtain ⟨b, n⟩ := e
  simp [extents, free, and_assoc]

variable {m₁ m₂ : List DriverVaExtent}

/-- An extent in the table is a free piece among the others. -/
theorem extents_split {e : DriverVaExtent} (h : extents l = m₁ ++ e :: m₂) :
    ∃ l₁ x l₂, l = l₁ ++ x :: l₂ ∧ x.holder = none ∧ x.base = e.base ∧ x.pages = e.page_count ∧
      extents l₁ = m₁ ∧ extents l₂ = m₂ := by
  unfold extents at h ⊢
  obtain ⟨k₁, k₂, hfilter, rfl, htail⟩ := map_eq_append_iff.mp h
  obtain ⟨x, k, rfl, rfl, rfl⟩ := map_eq_cons_iff.mp htail
  obtain ⟨l₁, l', rfl, rfl, hrest⟩ := filter_eq_append_iff.mp hfilter
  obtain ⟨m, l₂, rfl, hnone, hx, rfl⟩ := filter_eq_cons_iff.mp hrest
  refine ⟨l₁ ++ m, x, l₂, by simp, by simpa [free] using hx, rfl, rfl, ?_, rfl⟩
  have hm : m.filter free = [] := filter_eq_nil_iff.mpr hnone
  simp [hm]

/-- The tables leave room for one more extent. -/
theorem Books.length_le (h : Books a l) : a.free_extents.length ≤ DRIVER_IMAGE_VA_MAX_ALLOCATIONS := by
  by_cases hall : ∀ i, (a i).active
  · exact h.room hall
  obtain ⟨i, hi⟩ := not_forall.mp hall
  have hnot : i ∉ holders l := fun hin => hi ((h.held i).mpr hin)
  have hcard := (nodup_cons.mpr ⟨hnot, h.once⟩).length_le_card
  have hle := h.alternate.count_le
  rw [← length_extents, ← length_holders, ← h.table] at hle
  simp only [length_cons, Fintype.card_fin] at hcard
  omega

/-! ## Taking the front of an extent -/

/-- What is left of an extent. -/
def rest (x : Piece) (reserved : Nat) : List Piece :=
  if x.pages - reserved = 0 then []
  else [⟨x.base + reserved * VM_PAGE_SIZE, x.pages - reserved, none⟩]

theorem laid_front {reserved : Nat} (hfit : reserved ≤ x.pages) (b c : Nat)
    (h : Laid Piece.base size b [x] c) :
    Laid Piece.base size b (⟨x.base, reserved, some i⟩ :: rest x reserved) c := by
  obtain ⟨hb, hc⟩ := h
  simp only [Laid, size] at hc
  refine ⟨hb, ?_⟩
  have hsplit : x.pages * VM_PAGE_SIZE =
      reserved * VM_PAGE_SIZE + (x.pages - reserved) * VM_PAGE_SIZE := by
    rw [← Nat.add_mul, Nat.add_sub_cancel' hfit]
  unfold rest
  split
  · rename_i hzero
    rw [hzero, Nat.zero_mul] at hsplit
    simp only [Laid, size]
    omega
  · simp only [Laid, size]
    omega

theorem shrink_extent_eq {reserved : Nat} :
    shrink_extent (m₁ ++ ⟨x.base, x.pages⟩ :: m₂) m₁.length reserved ⟨x.base, x.pages⟩ =
      m₁ ++ (extents (rest x reserved) ++ m₂) := by
  unfold shrink_extent rest
  simp only
  split
  · simp [eraseIdx_append_of_length_le]
  · rw [extents_cons_free rfl]
    simp

variable {record : DriverVaRecord}

section

variable {reserved : Nat}

theorem holders_rest : holders (rest x reserved) = [] := by
  unfold rest
  split <;> simp [holders]

theorem holders_front : holders (l₁ ++ (⟨x.base, reserved, some i⟩ :: rest x reserved ++ l₂)) =
    holders l₁ ++ i :: holders l₂ := by
  rw [holders_append, cons_append, holders_cons_held rfl, holders_append, holders_rest,
    nil_append]

theorem extents_front : extents (l₁ ++ (⟨x.base, reserved, some i⟩ :: rest x reserved ++ l₂)) =
    extents l₁ ++ (extents (rest x reserved) ++ extents l₂) := by
  rw [extents_append, cons_append, extents_cons_held rfl, extents_append]

theorem pages_rest {y : Piece} (hy : y ∈ rest x reserved) : 0 < y.pages := by
  unfold rest at hy
  split at hy
  · simp at hy
  · rename_i hleft
    rw [mem_singleton] at hy
    subst hy
    exact Nat.pos_of_ne_zero hleft

theorem alternate_front (hx : x.holder = none) (h : Alternate free (x :: l₂)) :
    Alternate free (⟨x.base, reserved, some i⟩ :: rest x reserved ++ l₂) := by
  unfold rest
  split
  · cases l₂ with
    | nil => exact isChain_singleton _
    | cons y l₂ =>
      refine isChain_cons_cons.mpr ⟨by simp [free], ?_⟩
      exact (isChain_cons_cons.mp h).2
  · refine isChain_cons_cons.mpr ⟨by simp [free], ?_⟩
    cases l₂ with
    | nil => exact isChain_singleton _
    | cons y l₂ =>
      obtain ⟨hxy, htail⟩ := isChain_cons_cons.mp h
      refine isChain_cons_cons.mpr ⟨?_, htail⟩
      simpa [free, hx] using hxy

/-- The pieces and the tables after an allocation. -/
theorem Books.allocate (h : Books a (l₁ ++ x :: l₂))
    (hx : x.holder = none) (hfit : reserved ≤ x.pages) (hpos : 0 < reserved)
    (hi : (a i).active = false) (hact : record.active)
    (hbase : record.reserved_base = x.base) (hpages : record.reserved_pages = reserved) : Books { a with
        free_extents := extents l₁ ++ (extents (rest x reserved) ++ extents l₂)
        allocations := update a.allocations i record }
      (l₁ ++ (⟨x.base, reserved, some i⟩ :: rest x reserved ++ l₂)) := by
  have hold : holders (l₁ ++ x :: l₂) = holders l₁ ++ holders l₂ := by
    rw [holders_append, holders_cons_free hx]
  have hnot : i ∉ holders l₁ ++ holders l₂ := by
    intro hin
    have hactive := (h.held i).mpr (hold ▸ hin)
    simp [hi] at hactive
  have honce : (holders l₁ ++ i :: holders l₂).Nodup := by
    rw [nodup_middle, nodup_cons, ← hold]
    exact ⟨hold ▸ hnot, h.once⟩
  obtain ⟨halt₁, halt₂, hseam⟩ := alternate_append.mp h.alternate
  have hlast : ∀ y ∈ l₁.getLast?, y.free = false := by
    intro y hy
    have hxfree : x.free := by simp [free, hx]
    simpa [hxfree] using hseam y hy x (by simp)
  have halt : Alternate free (⟨x.base, reserved, some i⟩ :: rest x reserved ++ l₂) :=
    alternate_front hx halt₂
  refine ⟨?_, ?_, ?_, extents_front.symm, ?_, ?_, ?_, ?_⟩
  · have hl : Laid Piece.base size a.arena_base (l₁ ++ ([x] ++ l₂)) a.arena_limit := h.laid
    exact hl.replace fun b c => laid_front hfit b c
  · intro y hy
    simp only [mem_append, mem_cons] at hy
    rcases hy with hy | (rfl | hy) | hy
    · exact h.pages y (by simp [hy])
    · exact hpos
    · exact pages_rest hy
    · exact h.pages y (by simp [hy])
  · refine alternate_append.mpr ⟨halt₁, halt, ?_⟩
    intro y hy z _
    simp [hlast y hy]
  · rw [holders_front]
    exact honce
  · intro j
    rw [holders_front]
    by_cases hj : j = i
    · subst hj
      simp [hact]
    · have hheld := h.held j
      rw [hold] at hheld
      simp [hheld, hj]
  · intro y hy j hyj
    have hkeep : y ∈ l₁ ++ x :: l₂ →
        y.base = (update a.allocations i record j).reserved_base ∧
          y.pages = (update a.allocations i record j).reserved_pages := by
      intro hin
      have hj : j ≠ i := by
        rintro rfl
        exact hnot (hold ▸ mem_holders.mpr ⟨y, hin, hyj⟩)
      rw [update_of_ne hj]
      exact h.range y hin j hyj
    simp only [mem_append, mem_cons] at hy
    rcases hy with hy | (rfl | hy) | hy
    · exact hkeep (by simp [hy])
    · obtain rfl : i = j := by simpa using hyj
      simp only [update_self]
      exact ⟨hbase.symm, hpages.symm⟩
    · have hin : j ∈ holders (rest x reserved) := mem_holders.mpr ⟨y, hy, hyj⟩
      simp [holders_rest] at hin
    · exact hkeep (by simp [hy])
  · -- No free piece stands before the new one, so the free pieces are not one ahead.
    intro _
    rw [← extents_front (i := i), length_extents, countP_append]
    calc l₁.countP free +
          (⟨x.base, reserved, some i⟩ :: rest x reserved ++ l₂).countP free
        ≤ l₁.countP (fun y => !y.free) +
          (⟨x.base, reserved, some i⟩ :: rest x reserved ++ l₂).countP (fun y => !y.free) :=
          Nat.add_le_add (halt₁.count_le_last hlast) halt.count_le_head
      _ = (holders l₁ ++ i :: holders l₂).length := by
          rw [← countP_append, ← length_holders, holders_front]
      _ ≤ DRIVER_IMAGE_VA_MAX_ALLOCATIONS := by simpa using honce.length_le_card

end

/-! ## Putting a range back -/

section

variable {base limit b n : Nat}

/-- The pieces left of a range, once a free one at its side is joined to it. -/
structure JoinedLeft (base b n : Nat) (l l' : List Piece) (b' n' : Nat) : Prop where
  laid : Laid Piece.base size base l' b'
  ends : b' + n' * VM_PAGE_SIZE = b + n * VM_PAGE_SIZE
  pages : 0 < n'
  alternate : Alternate free l'
  last : ∀ y ∈ l'.getLast?, y.free = false
  holders : holders l' = holders l
  kept : ∀ y ∈ l', y ∈ l

theorem merge_previous_spec (hl : Laid Piece.base size base l b) (hpages : ∀ y ∈ l, 0 < y.pages)
    (halt : Alternate free l) (hn : 0 < n) (hfit : b + n * VM_PAGE_SIZE ≤ 2 ^ 32) :
    ∃ l' b' n', merge_previous (extents l) ⟨b, n⟩ = (extents l', ⟨b', n'⟩) ∧
      JoinedLeft base b n l l' b' n' := by
  rcases eq_nil_or_concat' l with rfl | ⟨l, y, rfl⟩
  · refine ⟨[], b, n, rfl, hl, rfl, hn, halt, by simp, rfl, by simp⟩
  · obtain ⟨hl₀, hend⟩ := hl.around
    have hy : y.base + y.size = b := hend
    simp only [size] at hy
    obtain ⟨halt₀, _, hseam⟩ := alternate_append.mp halt
    rcases hholder : y.holder with _ | i
    · -- the piece at the side is free
      have hyfree : y.free := by simp [free, hholder]
      have hu : u32 (y.pages + n) = y.pages + n := by
        apply u32_of_lt
        simp only [VM_PAGE_SIZE] at hy hfit
        omega
      refine ⟨l, y.base, y.pages + n, ?_, hl₀, ?_, by omega, halt₀, ?_, ?_, ?_⟩
      · rw [extents_append, extents_cons_free hholder, extents_nil]
        simp [merge_previous, extent_end, hy, hu]
      · rw [Nat.add_mul, ← Nat.add_assoc, hy]
      · intro z hz
        simpa [hyfree] using hseam z hz y (by simp)
      · rw [holders_append, holders_cons_free hholder, holders_nil, append_nil]
      · intro z hz
        simp [hz]
    · -- no extent ends at the range
      have hypos := hpages y (by simp)
      refine ⟨l ++ [y], b, n, ?_, hl, rfl, hn, halt, ?_, rfl, fun z hz => hz⟩
      · unfold merge_previous
        rcases hlast : (extents (l ++ [y])).getLast? with _ | e
        · rfl
        · have hmem := mem_of_getLast? hlast
          rw [extents_append, extents_cons_held hholder, extents_nil, append_nil] at hmem
          obtain ⟨z, hz, _, hbase, hcount⟩ := mem_extents.mp hmem
          have hle := (hl₀.bounds hz).2
          have hne : extent_end e ≠ b := by
            rw [extent_end, ← hbase, ← hcount]
            simp only [size, VM_PAGE_SIZE] at hle hy ⊢
            omega
          simp [hne]
      · intro z hz
        obtain rfl : y = z := by simpa using hz
        simp [free, hholder]

/-- The same on the right. -/
structure JoinedRight (limit b n : Nat) (l l' : List Piece) (n' : Nat) : Prop where
  laid : Laid Piece.base size (b + n' * VM_PAGE_SIZE) l' limit
  pages : 0 < n'
  alternate : Alternate free l'
  head : ∀ y ∈ l'.head?, y.free = false
  holders : holders l' = holders l
  kept : ∀ y ∈ l', y ∈ l

theorem merge_next_spec (hl : Laid Piece.base size (b + n * VM_PAGE_SIZE) l limit)
    (hpages : ∀ y ∈ l, 0 < y.pages) (halt : Alternate free l) (hn : 0 < n) (hfit : limit ≤ 2 ^ 32) :
    ∃ l' n', merge_next ⟨b, n⟩ (extents l) = ⟨b, n'⟩ :: extents l' ∧ JoinedRight limit b n l l' n' := by
  cases l with
  | nil => exact ⟨[], n, rfl, hl, hn, halt, by simp, rfl, by simp⟩
  | cons y l =>
    obtain ⟨hy, htail⟩ := hl
    have hle := htail.le
    simp only [size] at htail hle
    have halt' : Alternate free l := List.IsChain.tail halt
    rcases hholder : y.holder with _ | i
    · have hyfree : y.free := by simp [free, hholder]
      have hu : u32 (n + y.pages) = n + y.pages := by
        apply u32_of_lt
        simp only [VM_PAGE_SIZE] at hle hfit
        omega
      refine ⟨l, n + y.pages, ?_, ?_, by omega, halt', ?_, ?_, ?_⟩
      · rw [extents_cons_free hholder]
        simp [merge_next, extent_end, hy, hu]
      · rw [Nat.add_mul, ← Nat.add_assoc]
        exact htail
      · intro z hz
        cases l with
        | nil => simp at hz
        | cons w l =>
          obtain rfl : w = z := by simpa using hz
          simpa [hyfree] using (isChain_cons_cons.mp halt).1
      · rw [holders_cons_free hholder]
      · intro z hz
        simp [hz]
    · have hypos := hpages y (by simp)
      refine ⟨y :: l, n, ?_, ⟨hy, htail⟩, hn, halt, ?_, rfl, fun z hz => hz⟩
      · rw [extents_cons_held hholder]
        unfold merge_next
        rcases hrest : extents l with _ | ⟨e, m⟩
        · rfl
        · obtain ⟨z, hz, _, hbase, _⟩ := mem_extents.mp (show e ∈ extents l by simp [hrest])
          have hge := (htail.bounds hz).1
          have hne : extent_end ⟨b, n⟩ ≠ e.base := by
            rw [extent_end, ← hbase]
            simp only [VM_PAGE_SIZE] at hge ⊢
            omega
          simp [hne]
      · intro z hz
        obtain rfl : y = z := by simpa using hz
        simp [free, hholder]

/-- A list cut where a test fails for the first time. -/
theorem cut_at {α : Type} (p : α → Bool) (m₁ m₂ : List α) (h₁ : ∀ e ∈ m₁, p e)
    (h₂ : ∀ e ∈ m₂, p e = false) : (m₁ ++ m₂).takeWhile p = m₁ ∧ (m₁ ++ m₂).dropWhile p = m₂ := by
  rw [takeWhile_append_of_pos h₁, dropWhile_append_of_pos h₁]
  cases m₂ with
  | nil => simp
  | cons e m => simp [h₂ e (by simp)]

/-- A record's range goes back between the extents below it and those above it. -/
theorem Books.insert (h : Books a (l₁ ++ x :: l₂)) (hx : x.holder = some i)
    (hlimit : a.arena_limit ≤ 2 ^ 32) : ∃ l₁' l₂' b n, let l' := l₁' ++ ⟨b, n, none⟩ :: l₂'
      insert_extent_locked a x.base x.pages = some (extents l') ∧
      Laid Piece.base size a.arena_base l' a.arena_limit ∧ Alternate free l' ∧ 0 < n ∧
      holders l' = holders l₁ ++ holders l₂ ∧ ∀ y ∈ l₁' ++ l₂', y ∈ l₁ ++ x :: l₂ := by
  obtain ⟨hl₁, hl₂⟩ := h.laid.around
  have hxpos := h.pages x (by simp)
  have hbounds := h.laid.bounds (show x ∈ l₁ ++ x :: l₂ by simp)
  obtain ⟨halt₁, halt₂, _⟩ := alternate_append.mp h.alternate
  simp only [size] at hl₂ hbounds
  have hfree : a.free_extents = extents l₁ ++ extents l₂ := by
    rw [h.table, extents_append, extents_cons_held hx]
  -- The extents of the pieces on either side.
  have hbelow : ∀ e ∈ extents l₁, e.base < x.base ∧ extent_end e ≤ x.base := by
    intro e he
    obtain ⟨y, hy, _, hb, hn⟩ := mem_extents.mp he
    have hle := (hl₁.bounds hy).2
    have hpos := h.pages y (by simp [hy])
    rw [extent_end, ← hb, ← hn]
    simp only [size, VM_PAGE_SIZE] at hle ⊢
    omega
  have habove : ∀ e ∈ extents l₂, x.base + x.pages * VM_PAGE_SIZE ≤ e.base := by
    intro e he
    obtain ⟨y, hy, _, hb, _⟩ := mem_extents.mp he
    rw [← hb]
    exact (hl₂.bounds hy).1
  have hcut := cut_at (fun e => decide (e.base < x.base)) (extents l₁) (extents l₂)
    (fun e he => by simpa using (hbelow e he).1)
    (fun e he => by
      have hge := habove e he
      simp only [VM_PAGE_SIZE] at hge
      simp only [decide_eq_false_iff_not]
      omega)
  obtain ⟨l₁', b, n, hprev, hleft⟩ := merge_previous_spec hl₁ (fun y hy => h.pages y (by simp [hy]))
    halt₁ hxpos (by omega)
  rw [← hleft.ends] at hl₂
  obtain ⟨l₂', n', hnext, hright⟩ := merge_next_spec hl₂ (fun y hy => h.pages y (by simp [hy]))
    (List.IsChain.tail halt₂) hleft.pages hlimit
  refine ⟨l₁', l₂', b, n', ?_, ?_, ?_, hright.pages, ?_, ?_⟩
  · have hroom := h.length_le
    unfold insert_extent_locked
    rw [if_neg (by simp only [DRIVER_IMAGE_VA_MAX_EXTENTS]; omega)]
    simp only
    rw [if_neg (by omega), hfree, hcut.1, hcut.2, if_neg, hprev]
    · simp only [hnext]
      rw [extents_append, extents_cons_free rfl]
    · rintro (⟨e, he, hgt⟩ | ⟨e, he, hgt⟩)
      · have hle := (hbelow e (mem_of_getLast? he)).2
        omega
      · have hge := habove e (mem_of_head? he)
        omega
  · exact laid_append.mpr ⟨b, hleft.laid, rfl, hright.laid⟩
  · refine alternate_append.mpr ⟨hleft.alternate, ?_, ?_⟩
    · rcases l₂' with _ | ⟨y, l₂'⟩
      · exact isChain_singleton _
      · refine isChain_cons_cons.mpr ⟨?_, hright.alternate⟩
        simp [hright.head y (by simp)]
    · intro y hy z _
      simp [hleft.last y hy]
  · rw [holders_append, holders_cons_free rfl, hleft.holders, hright.holders]
  · intro y hy
    rcases mem_append.mp hy with hy | hy
    · simp [hleft.kept y hy]
    · simp [hright.kept y hy]

end

/-- A record gives its range back. -/
theorem Books.release (h : Books a l) (record : DriverVaRecord) (hi : (a i).active)
    (hrec : record.active = false) (hlimit : a.arena_limit ≤ 2 ^ 32) :
    ∃ free_extents l', insert_extent_locked a (a i).reserved_base
        (a i).reserved_pages = some free_extents ∧ Books { a with
          free_extents := free_extents, allocations := update a.allocations i record } l' := by
  obtain ⟨x, hx, hholder⟩ := mem_holders.mp ((h.held i).mp hi)
  obtain ⟨hbase, hpages⟩ := h.range x hx i hholder
  obtain ⟨l₁, l₂, rfl⟩ := append_of_mem hx
  obtain ⟨l₁', l₂', b, n, hinsert, hlaid, halt, hn, hholders, hkept⟩ := h.insert hholder hlimit
  rw [hbase, hpages] at hinsert
  have hold : holders (l₁ ++ x :: l₂) = holders l₁ ++ i :: holders l₂ := by
    rw [holders_append, holders_cons_held hholder]
  have honce := h.once
  rw [hold, nodup_middle, nodup_cons] at honce
  refine ⟨_, _, hinsert, hlaid, ?_, halt, rfl, ?_, ?_, ?_, ?_⟩
  · intro y hy
    simp only [mem_append, mem_cons] at hy
    rcases hy with hy | rfl | hy
    · exact h.pages y (hkept y (by simp [hy]))
    · exact hn
    · exact h.pages y (hkept y (by simp [hy]))
  · rw [hholders]
    exact honce.2
  · intro j
    rw [hholders]
    by_cases hj : j = i
    · subst hj
      simpa [hrec] using honce.1
    · have hheld := h.held j
      rw [hold] at hheld
      simpa [hj] using hheld
  · intro y hy j hyj
    have hin : j ∈ holders l₁ ++ holders l₂ := hholders ▸ mem_holders.mpr ⟨y, hy, hyj⟩
    have hj : j ≠ i := by
      rintro rfl
      exact honce.1 hin
    have hold' : y ∈ l₁ ++ x :: l₂ := by
      simp only [mem_append, mem_cons] at hy
      rcases hy with hy | rfl | hy
      · exact hkept y (by simp [hy])
      · cases hyj
      · exact hkept y (by simp [hy])
    simp only [update_of_ne hj]
    exact h.range y hold' j hyj
  · intro hall
    have hactive := hall i
    simp [hrec] at hactive

/-! ## The calls -/

theorem Sound.limit_le (h : Sound a) : a.arena_limit ≤ 2 ^ 32 := by
  rw [h.limit]
  decide

/-- A change of one record that is not in its range. -/
theorem Books.congr (h : Books a l) (hactive : record.active = (a i).active)
    (hbase : record.reserved_base = (a i).reserved_base)
    (hpages : record.reserved_pages = (a i).reserved_pages) :
    Books { a with allocations := update a.allocations i record } l := by
  have hsame : ∀ j, (update a.allocations i record j).active = (a j).active ∧
      (update a.allocations i record j).reserved_base = (a j).reserved_base ∧
      (update a.allocations i record j).reserved_pages =
        (a j).reserved_pages := by
    intro j
    by_cases hj : j = i
    · subst hj
      simp [hactive, hbase, hpages]
    · simp [hj]
  refine ⟨h.laid, h.pages, h.alternate, h.table, h.once, ?_, ?_, ?_⟩
  · simpa only [(hsame _).1] using h.held
  · simpa only [(hsame _).2.1, (hsame _).2.2] using h.range
  · simpa only [(hsame _).1] using h.room

variable {handle : DriverVaHandle} {owner : DriverIdentity}

theorem resolve_some (h : resolve_locked a owner handle = some i) :
    (a i).active ∧ (a i).owner = owner ∧ handle.slot = i.val ∧
      (a i).generation = handle.generation := by
  unfold resolve_locked driver_image_va_handle_is_valid at h
  split at h
  · cases h
  rename_i hvalid
  split at hvalid
  · split at hvalid
    · split at h
      · cases h
      rename_i hbad
      simp only [Option.some.injEq] at hvalid h
      subst h
      subst hvalid
      simp only [Bool.or_eq_true, Bool.not_eq_true', decide_eq_true_eq, not_or, ne_eq,
        Decidable.not_not, Bool.not_eq_false] at hbad
      exact ⟨hbad.1.1, driver_identity_equal_iff.mp hbad.2, rfl, hbad.1.2⟩
    · cases hvalid
  · cases hvalid

theorem Sound.formed_update (h : Sound a) (hrec : record.active → Formed record) (j) :
    (update a.allocations i record j).active → Formed (update a.allocations i record j) :=
  (forall_update_iff _ fun _ r => r.active → Formed r).mpr ⟨hrec, fun j _ => h.formed j⟩ j

theorem Sound.allocate (h : Sound a) (env : Answers) (owner : DriverIdentity) (page_count : Nat) :
    Sound (driver_image_va_allocate a env owner page_count).2 := by
  unfold driver_image_va_allocate
  split
  · exact h
  rename_i hvalid
  simp only [Bool.or_eq_true, Bool.not_eq_true', decide_eq_true_eq, not_or, Bool.not_eq_false] at hvalid
  split
  · exact h
  split
  · exact h
  dsimp only
  split
  · exact h
  split
  · rename_i i index hrecord hindex
    obtain ⟨hlt, hfit, _⟩ := findIdx?_eq_some_iff_getElem.mp hindex
    split
    · exact h
    rename_i e he
    obtain ⟨l, hl⟩ := h.books
    have hi : (a i).active = false := by
      split at hrecord
      · cases hrecord
      · simpa using find?_some hrecord
    -- the extent is a free piece
    have hsplit : extents l = a.free_extents.take index ++ e :: a.free_extents.drop (index + 1) := by
      rw [← hl.table]
      rw [getElem?_eq_getElem hlt, Option.some.injEq] at he
      rw [← he, cons_getElem_drop_succ, take_append_drop]
    obtain ⟨l₁, x, l₂, rfl, hx, hbase, hpages, h₁, h₂⟩ := extents_split hsplit
    have hextent : e = ⟨x.base, x.pages⟩ := by rw [hbase, hpages]
    have hlen : (extents l₁).length = index := by
      rw [h₁, length_take]
      omega
    have hshrink := @shrink_extent_eq x (extents l₁) (extents l₂)
      (page_count + a.guard_pages * 2)
    have htable : a.free_extents = extents l₁ ++ ⟨x.base, x.pages⟩ :: extents l₂ := by
      rw [hl.table, extents_append, extents_cons_free hx]
    rw [hlen, ← htable, ← hextent] at hshrink
    have hroom : page_count + a.guard_pages * 2 ≤ x.pages := by
      rw [getElem?_eq_getElem hlt, Option.some.injEq] at he
      rw [he, hextent] at hfit
      simpa using hfit
    refine ⟨?_, ?_, h.base, h.limit, h.guard⟩
    · simp only [hshrink]
      exact ⟨_, hl.allocate hx hroom (by omega) hi rfl hbase.symm rfl⟩
    · exact h.formed_update fun _ => ⟨hvalid.1.2, next_generation_ne_zero _, by rw [h.guard],
        by rw [h.guard], Nat.pos_of_ne_zero hvalid.2⟩
  · exact h

/-- A release by the owner of a live range that is not in quarantine goes through. -/
theorem Sound.release_ok (h : Sound a)
    (hres : resolve_locked a owner handle = some i) (hq : (a i).quarantined = false) :
    ∃ a', driver_image_va_release a owner handle = (.ok, a') ∧ Sound a' ∧ (a' i).active = false ∧
      ∀ j, j ≠ i → a' j = a j := by
  obtain ⟨hactive, howner, _, _⟩ := resolve_some hres
  obtain ⟨l, hl⟩ := h.books
  obtain ⟨free, l', hinsert, hbooks⟩ := hl.release (i := i)
    { a i with
      active := false, owner := driver_identity_invalid, reserved_base := 0
      usable_base := 0, reserved_pages := 0, usable_pages := 0 } hactive rfl h.limit_le
  have hvalid : driver_identity_is_valid owner := howner ▸ (h.formed i hactive).owner
  have hhandle : (driver_image_va_handle_is_valid handle).isNone = false := by
    rcases hnone : driver_image_va_handle_is_valid handle with _ | j
    · simp [resolve_locked, hnone] at hres
    · rfl
  refine ⟨_, ?_, ⟨⟨_, hbooks⟩, ?_, h.base, h.limit, h.guard⟩, ?_, fun j hj => update_of_ne hj _ _⟩
  · simp only [driver_image_va_release, hvalid, hhandle, hres, hq, hinsert]
    rfl
  · exact h.formed_update fun hfalse => by cases hfalse
  · exact congrArg DriverVaRecord.active (update_self i _ a.allocations)

theorem Sound.release (h : Sound a) (owner : DriverIdentity) (handle : DriverVaHandle) :
    Sound (driver_image_va_release a owner handle).2 := by
  rcases hres : resolve_locked a owner handle with _ | i
  · unfold driver_image_va_release
    rw [hres]
    split <;> exact h
  · by_cases hq : (a i).quarantined
    · unfold driver_image_va_release
      rw [hres]
      split
      · exact h
      · simp only [hq, if_true]
        exact h
    · obtain ⟨a', heq, hsound, -⟩ := h.release_ok hres (by simpa using hq)
      rw [heq]
      exact hsound

theorem Sound.quarantine (h : Sound a) (owner : DriverIdentity) (handle : DriverVaHandle) :
    Sound (driver_image_va_quarantine a owner handle).2 := by
  unfold driver_image_va_quarantine
  split
  · exact h
  rename_i i _
  obtain ⟨l, hl⟩ := h.books
  refine ⟨⟨l, hl.congr rfl rfl rfl⟩, h.formed_update fun hj => ?_, h.base, h.limit, h.guard⟩
  have hformed := h.formed i hj
  exact ⟨hformed.owner, hformed.generation, hformed.usable, hformed.guarded, hformed.pages⟩

/-! ## Runs -/

/-- The calls on the arena, by any owners. -/
inductive Call
  | allocate (env : Answers) (owner : DriverIdentity) (page_count : Nat)
  | release (owner : DriverIdentity) (handle : DriverVaHandle)
  | quarantine (owner : DriverIdentity) (handle : DriverVaHandle)

def Call.step (a : Arena) : Call → Arena
  | .allocate env owner page_count => (driver_image_va_allocate a env owner page_count).2
  | .release owner handle => (driver_image_va_release a owner handle).2
  | .quarantine owner handle => (driver_image_va_quarantine a owner handle).2

theorem Sound.step (h : Sound a) (c : Call) : Sound (c.step a) := by
  cases c with
  | allocate env owner page_count => exact h.allocate env owner page_count
  | release owner handle => exact h.release owner handle
  | quarantine owner handle => exact h.quarantine owner handle

theorem Sound.run (h : Sound a) (calls : List Call) : Sound (calls.foldl Call.step a) :=
  foldlRecOn calls _ h fun _ h c _ => h.step c

theorem init_eq (a : Arena) : driver_image_va_init a =
    { free_extents := [⟨DRIVER_IMAGE_VA_BASE, 0x8000⟩]
      allocations := fun i => emptyRecord (a i).generation
      arena_base := DRIVER_IMAGE_VA_BASE, arena_limit := DRIVER_IMAGE_VA_LIMIT
      guard_pages := DRIVER_IMAGE_VA_GUARD_PAGES, initialized := true } := by
  have hpages : (DRIVER_IMAGE_VA_LIMIT - DRIVER_IMAGE_VA_BASE) / VM_PAGE_SIZE = 0x8000 := by
    decide
  unfold driver_image_va_init initialize_arena
  rw [if_neg (by decide), hpages]
  simp only
  rw [if_neg (by decide)]

theorem sound_init (a : Arena) : Sound (driver_image_va_init a) := by
  rw [init_eq]
  have hend : DRIVER_IMAGE_VA_BASE + 0x8000 * VM_PAGE_SIZE = DRIVER_IMAGE_VA_LIMIT := by decide
  refine ⟨⟨[⟨DRIVER_IMAGE_VA_BASE, 0x8000, none⟩], ?_, ?_, ?_, rfl, ?_, ?_, ?_, ?_⟩, ?_, rfl, rfl,
    rfl⟩
  · exact ⟨rfl, hend⟩
  · simp
  · exact isChain_singleton _
  · simp [holders]
  · simp [holders, emptyRecord]
  · simp
  · intro _
    show 1 ≤ DRIVER_IMAGE_VA_MAX_ALLOCATIONS
    decide
  · intro i hi
    simp [emptyRecord] at hi

/-- The free ranges and the ranges of the active records, as starts and lengths. -/
def ranges (a : Arena) : List (Nat × Nat) :=
  a.free_extents.map (fun e => (e.base, e.page_count * VM_PAGE_SIZE)) ++
    ((finRange DRIVER_IMAGE_VA_MAX_ALLOCATIONS).filter fun i => (a i).active).map
      fun i => ((a i).reserved_base, (a i).reserved_pages * VM_PAGE_SIZE)

/-- The ranges are those of the pieces, in another order. -/
theorem Books.ranges_perm (h : Books a l) : (ranges a).Perm (l.map fun x => (x.base, x.size)) := by
  have hheld : ((finRange DRIVER_IMAGE_VA_MAX_ALLOCATIONS).filter
      fun i => (a i).active).Perm (holders l) := by
    rw [perm_ext_iff_of_nodup ((nodup_finRange _).filter _) h.once]
    intro i
    simp [h.held]
  have hsplit := (filter_append_perm free l).map fun x => (x.base, x.size)
  refine List.Perm.trans ?_ hsplit
  rw [map_append]
  unfold ranges
  apply List.Perm.append
  · rw [h.table, driver_va.extents, map_map]
    exact List.Perm.refl _
  · refine (hheld.map _).trans ?_
    have hmap : (holders l).map (fun i => ((a i).reserved_base,
        (a i).reserved_pages * VM_PAGE_SIZE)) =
        (l.filter fun x => !x.free).map fun x => (x.base, x.size) := by
      have hrange := h.range
      clear h hheld hsplit
      induction l with
      | nil => rfl
      | cons x l ih =>
        have hrest := ih fun y hy => hrange y (by simp [hy])
        rcases hx : x.holder with _ | i
        · rw [holders_cons_free hx, hrest]
          simp [free, hx]
        · obtain ⟨hbase, hpages⟩ := hrange x (by simp) i hx
          rw [holders_cons_held hx, map_cons, hrest]
          simp [free, hx, size, hbase, hpages]
    rw [hmap]

/-- Two free pieces have a piece between them. -/
theorem sorted_of_laid {b c : Nat} (hl : Laid Piece.base size b l c)
    (hpages : ∀ x ∈ l, 0 < x.pages) (halt : Alternate free l) :
    (extents l).Pairwise fun e f => extent_end e < f.base := by
  induction l generalizing b with
  | nil => exact .nil
  | cons x l ih =>
    obtain ⟨_, htail⟩ := hl
    have hrest := ih htail (fun y hy => hpages y (by simp [hy])) (List.IsChain.tail halt)
    rcases hx : x.holder with _ | i
    · rw [extents_cons_free hx, pairwise_cons]
      refine ⟨?_, hrest⟩
      intro f hf
      obtain ⟨y, hy, hyfree, hbase, _⟩ := mem_extents.mp hf
      cases l with
      | nil => simp at hy
      | cons z l =>
        -- the next piece is not free, so the other free one comes after it
        obtain ⟨hxz, _⟩ := isChain_cons_cons.mp halt
        have hzy : y ≠ z := by
          rintro rfl
          simp [free, hx, hyfree] at hxz
        have hyl : y ∈ l := by simpa [hzy] using hy
        obtain ⟨hz, htail'⟩ := htail
        have hge := (htail'.bounds hyl).1
        have hzpos := hpages z (by simp)
        rw [← hbase, extent_end]
        simp only [size, VM_PAGE_SIZE] at hge hz ⊢
        omega
    · rw [extents_cons_held hx]
      exact hrest

/-- The ranges of two records do not meet. -/
theorem Books.apart (h : Books a l) {j : Fin DRIVER_IMAGE_VA_MAX_ALLOCATIONS}
    (hi : (a i).active) (hj : (a j).active) (hij : i ≠ j) :
    (a i).reserved_base + (a i).reserved_pages * VM_PAGE_SIZE ≤ (a j).reserved_base ∨
      (a j).reserved_base + (a j).reserved_pages * VM_PAGE_SIZE ≤ (a i).reserved_base := by
  obtain ⟨x, hx, hxi⟩ := mem_holders.mp ((h.held i).mp hi)
  obtain ⟨y, hy, hyj⟩ := mem_holders.mp ((h.held j).mp hj)
  obtain ⟨hxb, hxp⟩ := h.range x hx i hxi
  obtain ⟨hyb, hyp⟩ := h.range y hy j hyj
  have hne : x ≠ y := by
    rintro rfl
    rw [hxi, Option.some.injEq] at hyj
    exact hij hyj
  rw [← hxb, ← hxp, ← hyb, ← hyp]
  obtain ⟨l₁, l₂, rfl⟩ := append_of_mem hx
  have hpair := pairwise_append.mp h.laid.pairwise
  simp only [mem_append, mem_cons] at hy
  rcases hy with hy | rfl | hy
  · exact .inr (hpair.2.2 y hy x (by simp))
  · exact absurd rfl hne
  · exact .inl ((pairwise_cons.mp hpair.2.1).1 y hy)

/-- What one record had, and no other record has got, is free. -/
theorem Sound.range_free (h : Sound a) (h' : Sound a') (hi : (a i).active)
    (hi' : (a' i).active = false) (hother : ∀ j, j ≠ i → a' j = a j) {address : Nat}
    (hlow : (a i).reserved_base ≤ address)
    (hhigh : address < (a i).reserved_base + (a i).reserved_pages * VM_PAGE_SIZE) :
    ∃ e ∈ a'.free_extents, e.base ≤ address ∧ address < extent_end e := by
  obtain ⟨l, hl⟩ := h.books
  obtain ⟨l', hl'⟩ := h'.books
  -- the address is one of the arena, so it lies in a piece
  obtain ⟨x, hx, hxi⟩ := mem_holders.mp ((hl.held i).mp hi)
  obtain ⟨hbase, hpages⟩ := hl.range x hx i hxi
  have hbounds := hl.laid.bounds hx
  rw [size, hbase, hpages, h.base, h.limit, ← h'.base, ← h'.limit] at hbounds
  have hcount := hl'.laid.count_inside (hbounds.1.trans hlow) (hhigh.trans_le hbounds.2)
  obtain ⟨y, hy, hin⟩ := countP_pos_iff.mp (Nat.lt_of_lt_of_eq Nat.zero_lt_one hcount.symm)
  obtain ⟨hyl, hyh⟩ : y.base ≤ address ∧ address < y.base + y.size := of_decide_eq_true hin
  rcases hholder : y.holder with _ | j
  · refine ⟨⟨y.base, y.pages⟩, ?_, hyl, hyh⟩
    rw [hl'.table]
    exact mem_extents.mpr ⟨y, hy, hholder, rfl, rfl⟩
  · -- a piece of another record is apart from the range
    have hj' := (hl'.held j).mpr (mem_holders.mpr ⟨y, hy, hholder⟩)
    have hji : j ≠ i := by
      rintro rfl
      rw [hi'] at hj'
      cases hj'
    obtain ⟨hybase, hypages⟩ := hl'.range y hy j hholder
    rw [size, hybase, hypages, hother j hji] at hyh
    rw [hybase, hother j hji] at hyl
    rw [hother j hji] at hj'
    have := hl.apart hi hj' hji.symm
    omega

/-- After any calls from the start, the free extents are sorted, disjoint and never
adjacent, every address of the arena lies in exactly one free extent or reserved
range, usable ranges are a guard page apart, and a release of a live range by its owner
succeeds: its record is not active any more, the other records are as they were, and all of
the range is free. -/
theorem arena_stays_partitioned (a₀ : Arena) (calls : List Call) :
    let a := calls.foldl Call.step (driver_image_va_init a₀)
    (a.free_extents.Pairwise fun e f => extent_end e < f.base) ∧
      (∀ r ∈ ranges a, 0 < r.2 ∧ a.arena_base ≤ r.1 ∧ r.1 + r.2 ≤ a.arena_limit) ∧
      (∀ address, a.arena_base ≤ address → address < a.arena_limit →
        (ranges a).countP (fun r => decide (r.1 ≤ address ∧ address < r.1 + r.2)) = 1) ∧
      (∀ i j, (a.allocations i).active → (a.allocations j).active → i ≠ j →
        (a.allocations i).usable_base + (a.allocations i).usable_pages * VM_PAGE_SIZE +
            VM_PAGE_SIZE ≤ (a.allocations j).usable_base ∨
          (a.allocations j).usable_base + (a.allocations j).usable_pages * VM_PAGE_SIZE +
            VM_PAGE_SIZE ≤ (a.allocations i).usable_base) ∧
      ∀ i, (a.allocations i).active → (a.allocations i).quarantined = false →
        ∃ a', driver_image_va_release a (a.allocations i).owner ⟨i, (a.allocations i).generation⟩ =
            (.ok, a') ∧ (a'.allocations i).active = false ∧
          (∀ j, j ≠ i → a'.allocations j = a.allocations j) ∧
          ∀ address, (a.allocations i).reserved_base ≤ address →
            address < (a.allocations i).reserved_base +
              (a.allocations i).reserved_pages * VM_PAGE_SIZE →
            ∃ e ∈ a'.free_extents, e.base ≤ address ∧ address < extent_end e := by
  intro a
  have h : Sound a := (sound_init a₀).run calls
  obtain ⟨l, hl⟩ := h.books
  refine ⟨?_, ?_, ?_, ?_, ?_⟩
  · rw [hl.table]
    exact sorted_of_laid hl.laid hl.pages hl.alternate
  · intro r hr
    obtain ⟨x, hx, rfl⟩ := mem_map.mp (hl.ranges_perm.mem_iff.mp hr)
    have hbounds := hl.laid.bounds hx
    have hpos := hl.pages x hx
    simp only [size, VM_PAGE_SIZE] at hbounds ⊢
    omega
  · intro address hlow hhigh
    rw [hl.ranges_perm.countP_eq, countP_map]
    exact hl.laid.count_inside hlow hhigh
  · intro i j hi hj hij
    have happart := hl.apart hi hj hij
    have hfi := h.formed i hi
    have hfj := h.formed j hj
    rw [hfi.usable, hfj.usable]
    rw [hfi.guarded, hfj.guarded] at happart
    simp only [VM_PAGE_SIZE, DRIVER_IMAGE_VA_GUARD_PAGES] at happart ⊢
    omega
  · intro i hi hq
    have hres : resolve_locked a (a i).owner ⟨i, (a i).generation⟩ =
        some i := by
      have hgen := (h.formed i hi).generation
      have hself := driver_identity_equal_iff.mpr (rfl : (a i).owner = _)
      simp [resolve_locked, driver_image_va_handle_is_valid, hgen, hi, hself]
    obtain ⟨a', heq, hsound, hinactive, hother⟩ := h.release_ok hres hq
    exact ⟨a', heq, hinactive, hother, fun _ => h.range_free hsound hi hinactive hother⟩

end mini_kernel.driver_va
