-- What the functions that write tables keep. Each of them writes only to tables
-- of the root it works for, and leaves the translations of that root alone until
-- the entry of the page itself is written.
import MiniKernel.Mm.PagingInv

open mini_kernel.vm Function Option

namespace mini_kernel.paging

/-- From `s` to `s'` only tables of `r` were written or added, and only `moved`
addresses may translate in a new way in `r`. -/
structure Kept (r : Frame) (roots : List Frame) (moved : BitVec 64 → Prop)
    (s : Vm) (tag : Tags) (s' : Vm) (tag' : Tags) : Prop where
  inv : Inv s' roots tag'
  fresh : Fresh s'.supply tag'
  pml4 : s'.pml4_phys = s.pml4_phys
  grows : ∀ f x, tag f = some x → tag' f = some x
  added : ∀ f o p, tag' f = some (o, p) → tag f = some (o, p) ∨ (o = r ∧ f ∈ s.supply)
  rest : s'.supply ⊆ s.supply
  others : ∀ f o p, tag f = some (o, p) → o ≠ r → s'.mem f = s.mem f
  phys : ∀ virt, ¬ moved virt → physAt s'.mem virt 3 r = physAt s.mem virt 3 r

/-- Nothing moves. -/
abbrev Still : BitVec 64 → Prop := fun _ => False

section
variable {s s' s'' : Vm} {roots : List Frame} {tag tag' tag'' : Tags} {r t : Frame}
  {p : List Index} {i : Index} {moved : BitVec 64 → Prop}

theorem Kept.refl (I : Inv s roots tag) (F : Fresh s.supply tag) : Kept r roots moved s tag s tag :=
  ⟨I, F, rfl, fun _ _ h => h, fun _ _ _ h => .inl h, fun _ h => h, fun _ _ _ _ _ => rfl, fun _ _ => rfl⟩

theorem Kept.trans (k : Kept r roots Still s tag s' tag') (l : Kept r roots moved s' tag' s'' tag'') :
    Kept r roots moved s tag s'' tag'' where
  inv := l.inv
  fresh := l.fresh
  pml4 := l.pml4.trans k.pml4
  grows f x h := l.grows f x (k.grows f x h)
  added f o q h := (l.added f o q h).elim (k.added f o q) fun h => .inr ⟨h.1, k.rest h.2⟩
  rest := fun _ h => k.rest (l.rest h)
  others f o q h ho := (l.others f o q (k.grows f _ h) ho).trans (k.others f o q h ho)
  phys virt hv := (l.phys virt hv).trans (k.phys virt id)

/-! ## One entry -/

variable {e : Entry} {f g : Frame} {x : Frame × List Index} {c : Index → Entry}

/-- Writing an entry that points where the old one did. -/
theorem Inv.write (I : Inv s roots tag) (ht : tag t = some (r, p))
    (he : p.length < 3 → present (s.mem t i) ∧ ¬ huge (s.mem t i) ∧ present e ∧ ¬ huge e ∧
      entry_to_table e = entry_to_table (s.mem t i)) : Inv (s.write t i e) roots tag where
  kernel := I.kernel
  root := I.root
  top := I.top
  frame := I.frame
  depth := I.depth
  child u o q j hu hq hj := by
    by_cases hc : u = t ∧ j = i
    · obtain ⟨rfl, rfl⟩ := hc
      obtain ⟨rfl, rfl⟩ := Prod.mk.inj (some.inj (hu.symm.trans ht))
      obtain ⟨h1, h2, h3, h4, h5⟩ := he hq
      rw [Vm.write_same]
      refine .inr ⟨h4, ?_⟩
      rw [h5]
      exact ((I.child u _ _ j hu hq h1).resolve_left fun h => h2 h.2).2
    · rw [Vm.write_other hc] at hj ⊢
      exact I.child u o q j hu hq hj
  linked f o j q hf := by
    obtain ⟨u, hu, h1, h2, h3⟩ := I.linked f o j q hf
    refine ⟨u, hu, ?_⟩
    by_cases hc : u = t ∧ j = i
    · obtain ⟨rfl, rfl⟩ := hc
      obtain ⟨rfl, rfl⟩ := Prod.mk.inj (some.inj (hu.symm.trans ht))
      obtain ⟨_, _, h6, h7, h8⟩ := he (I.depth f _ _ hf)
      rw [Vm.write_same]
      exact ⟨h6, h7, h8.trans h3⟩
    · rw [Vm.write_other hc]
      exact ⟨h1, h2, h3⟩

section
variable (I : Inv s roots tag) (F : Fresh s.supply tag) (hr : tag r = some (r, []))
  (ht : tag t = some (r, p))
include I F hr ht

/-- An entry of a table of `r` is replaced: what is left to show is that the walks
through it translate as before. -/
theorem Inv.keep_write {m : Nat} (hm : p.length + m = 3)
    (he : p.length < 3 → present (s.mem t i) ∧ ¬ huge (s.mem t i) ∧ present e ∧ ¬ huge e ∧
      entry_to_table e = entry_to_table (s.mem t i))
    (hthrough : ∀ virt, ¬ moved virt → pathTo virt m = p → indexAt virt m = i →
      physAt (s.write t i e).mem virt m t = physAt s.mem virt m t) :
    Kept r roots moved s tag (s.write t i e) tag where
  inv := I.write ht he
  fresh := F
  pml4 := rfl
  grows _ _ h := h
  added _ _ _ h := .inl h
  rest := fun _ h => h
  others f o q hf ho := by
    apply Vm.write_row
    rintro rfl
    exact ho (Prod.mk.inj (some.inj (hf.symm.trans ht))).1
  phys virt hv := by
    refine I.phys_write ht hm (fun f _ _ hf => Vm.write_row hf) (fun j hj => ?_) hthrough hv le_rfl
      (.inl hr)
    exact Vm.write_other fun h => hj h.2

/-- Relaxing an entry keeps what it points to. -/
theorem Inv.keep_relax (hp : p.length < 3) (flags : BitVec 64) :
    Kept r roots Still s tag (relax_table_entry_for_flags s t i flags) tag := by
  unfold relax_table_entry_for_flags
  simp only
  split_ifs with h
  · exact Kept.refl I F
  have hpr : present (s.mem t i) := by
    by_contra hn
    exact h (.inl hn)
  have hnh : ¬ huge (s.mem t i) := fun hn => h (.inr hn)
  obtain ⟨h1, h2, h3⟩ := relaxed_spec (s.mem t i) flags
  obtain ⟨m, hm⟩ : ∃ m, p.length + (m + 1) = 3 := ⟨2 - p.length, by omega⟩
  refine I.keep_write F hr ht hm
    (fun _ => ⟨hpr, hnh, h1.mpr hpr, fun hn => hnh (h2.mp hn), h3⟩) fun virt _ hpath hi => ?_
  have hc := I.seen_child (r := r) (.inl ht) hp hpr fun hn => hnh hn.2
  rw [physAt_next hi (by rwa [Vm.write_same, h1]) (by rwa [Vm.write_same, h2])
    (by rw [Vm.write_same, h3]), physAt_next hi hpr hnh rfl]
  refine I.phys_below (r := r) (L := p.length + 1) (fun f q hf hq => Vm.write_row ?_) virt
    (by omega) ?_
  · rintro rfl
    obtain ⟨_, hf⟩ := hf.tagged
    obtain ⟨_, rfl⟩ := Prod.mk.inj (some.inj (hf.symm.trans ht))
    omega
  · rw [pathTo_succ virt (by omega), hpath, hi]
    exact hc

end

/-! ## One new table -/

/-- The tags after a frame became a table. -/
def addTag (tag : Tags) (f : Frame) (x : Frame × List Index) : Tags :=
  update tag f (some x)

theorem addTag_self : addTag tag f x f = some x :=
  update_self _ _ _

theorem ne_of_tagged (hnew : tag f = none) (hg : tag g = some x) : g ≠ f := by
  rintro rfl
  rw [hnew] at hg
  cases hg

variable {y : Frame × List Index}

theorem addTag_old (hnew : tag f = none) (hg : tag g = some y) : addTag tag f x g = some y := by
  rw [addTag, update_of_ne (ne_of_tagged hnew hg), hg]

theorem addTag_cases (hg : addTag tag f x g = some y) : (g = f ∧ y = x) ∨ tag g = some y := by
  by_cases hgf : g = f
  · subst hgf
    rw [addTag_self] at hg
    exact .inl ⟨rfl, (some.inj hg).symm⟩
  · rw [addTag, update_of_ne hgf] at hg
    exact .inr hg

/-- Nothing could be allocated. -/
structure NoMemory (s : Vm) (tag : Tags) (s' : Vm) : Prop where
  mem : s'.mem = s.mem
  pml4 : s'.pml4_phys = s.pml4_phys
  fresh : Fresh s'.supply tag
  rest : s'.supply ⊆ s.supply

/-- The frame `f` was allocated and filled with `c`. -/
structure Allocated (s : Vm) (tag : Tags) (f : Frame) (c : Index → Entry) (s' : Vm) : Prop where
  frame : IsFrame f
  new : tag f = none
  supplied : f ∈ s.supply
  mem : s'.mem = update s.mem f c
  pml4 : s'.pml4_phys = s.pml4_phys
  fresh : ∀ x, Fresh s'.supply (addTag tag f x)
  rest : s'.supply ⊆ s.supply

/-- An allocation that fails changes no table. -/
theorem NoMemory.kept (h : NoMemory s tag s') (I : Inv s roots tag) : Kept r roots Still s tag s' tag where
  inv := by
    obtain ⟨mem, pml4, supply⟩ := s
    obtain ⟨mem', pml4', supply'⟩ := s'
    obtain rfl : mem' = mem := h.mem
    obtain rfl : pml4' = pml4 := h.pml4
    exact ⟨I.kernel, I.root, I.top, I.frame, I.depth, I.child, I.linked⟩
  fresh := h.fresh
  pml4 := h.pml4
  grows _ _ h := h
  added _ _ _ h := .inl h
  rest := h.rest
  others _ _ _ _ _ := by rw [h.mem]
  phys _ _ := by rw [h.mem]

/-- A new table filled with `c` hangs in entry `i` of `t`, and nothing else
changed. -/
structure Hung (s : Vm) (t : Frame) (i : Index) (f : Frame) (c : Index → Entry) (s' : Vm) :
    Prop where
  pml4 : s'.pml4_phys = s.pml4_phys
  rows : ∀ g, g ≠ f → g ≠ t → s'.mem g = s.mem g
  row : ∀ j, j ≠ i → s'.mem t j = s.mem t j
  entry : present (s'.mem t i) ∧ ¬ huge (s'.mem t i) ∧ entry_to_table (s'.mem t i) = f
  filled : s'.mem f = c

theorem Allocated.hung (A : Allocated s tag f c s')
    (ht : tag t = some (r, p)) (he : present e ∧ ¬ huge e ∧ entry_to_table e = f) :
    Hung s t i f c (s'.write t i e) := by
  have htf : t ≠ f := ne_of_tagged A.new ht
  refine ⟨A.pml4, fun g hgf hgt => ?_, fun j hj => ?_, ?_, ?_⟩
  · rw [Vm.write_row hgt, A.mem, update_of_ne hgf]
  · rw [Vm.write_other fun h => hj h.2, A.mem, update_of_ne htf]
  · rw [Vm.write_same]
    exact he
  · rw [Vm.write_row htf.symm, A.mem, update_self]

/-- An entry that a new table of `r` may take: absent, or huge, or a table of the
kernel. -/
def Open (s : Vm) (tag : Tags) (r t : Frame) (p : List Index) (i : Index) : Prop :=
  ¬ present (s.mem t i) ∨ huge (s.mem t i) ∨
    (r ≠ s.pml4_phys ∧ tag (entry_to_table (s.mem t i)) = some (s.pml4_phys, i :: p))

/-- What a new table above the last may hold: 2 MiB entries, and tables of the
kernel. -/
def FitFor (s : Vm) (tag : Tags) (p : List Index) (i : Index) (c : Index → Entry) : Prop :=
  p.length < 2 → ∀ j, present (c j) → (p.length = 1 ∧ huge (c j)) ∨
    (¬ huge (c j) ∧ tag (entry_to_table (c j)) = some (s.pml4_phys, j :: i :: p))

/-- A new table of `r` takes an open entry. -/
theorem Inv.link (I : Inv s roots tag) (ht : tag t = some (r, p))
    (hp : p.length < 3) (hf : IsFrame f) (hnew : tag f = none) (L : Hung s t i f c s')
    (hold : Open s tag r t p i) (hc : FitFor s tag p i c) : Inv s' roots (addTag tag f (r, i :: p)) := by
  have old : ∀ {g y}, tag g = some y → addTag tag f (r, i :: p) g = some y := addTag_old hnew
  have hsame : ∀ g j x, tag g = some x → ¬ (g = t ∧ j = i) → s'.mem g j = s.mem g j := by
    intro g j x hg hgj
    by_cases hgt : g = t
    · subst hgt
      exact L.row j fun h => hgj ⟨rfl, h⟩
    · rw [L.rows g (ne_of_tagged hnew hg) hgt]
  refine ⟨?_, ?_, ?_, ?_, ?_, ?_, ?_⟩
  · rw [L.pml4]
    exact old I.kernel
  · intro q hq
    rw [L.pml4]
    exact ⟨old (I.root q hq).1, (I.root q hq).2⟩
  · intro g o hg
    rw [L.pml4]
    rcases addTag_cases hg with ⟨_, h⟩ | h
    · simp at h
    · exact I.top g o h
  · intro g x hg
    rcases addTag_cases hg with ⟨rfl, _⟩ | h
    · exact hf
    · exact I.frame g x h
  · intro g o q hg
    rcases addTag_cases hg with ⟨rfl, h⟩ | h
    · obtain ⟨rfl, rfl⟩ := Prod.mk.inj h
      simp only [List.length_cons]
      omega
    · exact I.depth g o q h
  · intro u o q j hu hq hj
    rw [L.pml4]
    rcases addTag_cases hu with ⟨rfl, h⟩ | h
    · obtain ⟨rfl, rfl⟩ := Prod.mk.inj h
      simp only [List.length_cons] at hq ⊢
      rw [L.filled] at hj ⊢
      rcases hc (by omega) j hj with ⟨h1, h2⟩ | ⟨h1, h2⟩
      · exact .inl ⟨by omega, h2⟩
      · exact .inr ⟨h1, .inr (old h2)⟩
    · by_cases hc' : u = t ∧ j = i
      · obtain ⟨rfl, rfl⟩ := hc'
        obtain ⟨rfl, rfl⟩ := Prod.mk.inj (some.inj (h.symm.trans ht))
        rw [L.entry.2.2]
        exact .inr ⟨L.entry.2.1, .inl addTag_self⟩
      · rw [hsame u j _ h hc'] at hj ⊢
        rcases I.child u o q j h hq hj with h1 | ⟨h1, h2 | h2⟩
        · exact .inl h1
        · exact .inr ⟨h1, .inl (old h2)⟩
        · exact .inr ⟨h1, .inr (old h2)⟩
  · intro g o j q hg
    rcases addTag_cases hg with ⟨rfl, h⟩ | h
    · obtain ⟨rfl, hjq⟩ := Prod.mk.inj h
      obtain ⟨rfl, rfl⟩ := List.cons.inj hjq
      exact ⟨t, old ht, L.entry⟩
    · obtain ⟨u, hu, h1, h2, h3⟩ := I.linked g o j q h
      have hc' : ¬ (u = t ∧ j = i) := by
        -- the table that hung here before is not one of r's own
        rintro ⟨rfl, rfl⟩
        obtain ⟨rfl, rfl⟩ := Prod.mk.inj (some.inj (hu.symm.trans ht))
        rcases hold with h4 | h4 | ⟨h4, h5⟩
        · exact h4 h1
        · exact h2 h4
        · rw [h3, h] at h5
          exact h4 (Prod.mk.inj (some.inj h5)).1
      rw [← hsame u j _ hu hc'] at h1 h2 h3
      exact ⟨u, old hu, h1, h2, h3⟩

/-- A new table takes an open entry: what is left to show is that the walks
through it translate as before. -/
theorem Inv.keep_link (I : Inv s roots tag) (hr : tag r = some (r, [])) (ht : tag t = some (r, p))
    (hp : p.length < 3) (A : Allocated s tag f c s')
    (he : present e ∧ ¬ huge e ∧ entry_to_table e = f) (hold : Open s tag r t p i) (hc : FitFor s tag p i c)
    (hthrough : ∀ virt m, p.length + (m + 1) = 3 → pathTo virt m = i :: p → indexAt virt (m + 1) = i →
      physAt (s'.write t i e).mem virt m f = physAt s.mem virt (m + 1) t) :
    Kept r roots Still s tag (s'.write t i e) (addTag tag f (r, i :: p)) := by
  have L := A.hung (i := i) ht he
  obtain ⟨m, hm⟩ : ∃ m, p.length + (m + 1) = 3 := ⟨2 - p.length, by omega⟩
  refine ⟨I.link ht hp A.frame A.new L hold hc, A.fresh _, A.pml4, fun g x => addTag_old A.new, ?_,
    A.rest, ?_, fun virt hv => ?_⟩
  · intro g o q hg
    rcases addTag_cases hg with ⟨rfl, h⟩ | h
    · exact .inr ⟨(Prod.mk.inj h).1, A.supplied⟩
    · exact .inl h
  · intro g o q hg ho
    apply L.rows g (ne_of_tagged A.new hg)
    rintro rfl
    exact ho (Prod.mk.inj (some.inj (hg.symm.trans ht))).1
  · have hsame : ∀ v, ¬ Still v → pathTo v (m + 1) = p → indexAt v (m + 1) = i →
        physAt (s'.write t i e).mem v (m + 1) t = physAt s.mem v (m + 1) t := by
      intro v _ hpath hi
      rw [physAt_next hi L.entry.1 L.entry.2.1 L.entry.2.2]
      exact hthrough v m hm (by rw [pathTo_succ v (by omega), hpath, hi]) hi
    exact I.phys_write ht hm (fun g x hg hgt => L.rows g (ne_of_tagged A.new hg) hgt) L.row hsame hv
      le_rfl (.inl hr)

end

end mini_kernel.paging
