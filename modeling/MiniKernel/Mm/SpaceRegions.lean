-- The regions of an address space as the set of addresses they cover: a range that
-- is added is covered, and taking a range out uncovers its addresses and no others
-- unless a region has to be cut in two and no entry is free.
import MiniKernel.Lib.Count
import MiniKernel.Mm.Spaces

open mini_kernel.lib mini_kernel.vm Function List

namespace mini_kernel.space

section
variable {regions r r' r'' : Regions} {start finish a : Nat}
  {i j : RegionIndex} {region x : AddressSpaceRegion}

/-- The address lies in a region that is in use. -/
def AddressSpaceRegion.Has (region : AddressSpaceRegion) (a : Nat) : Prop :=
  region.active ∧ region.start ≤ a ∧ a < region.finish

instance (region : AddressSpaceRegion) (a : Nat) : Decidable (region.Has a) :=
  inferInstanceAs (Decidable (_ ∧ _))

def Covers (regions : Regions) (a : Nat) : Prop := ∃ i, (regions i).Has a

/-- No region in use is empty. -/
def Proper (regions : Regions) : Prop := ∀ i, (regions i).active → (regions i).start < (regions i).finish

/-! ## One entry -/

theorem covers_update : Covers (update r i x) a ↔ x.Has a ∨ ∃ j, j ≠ i ∧ (r j).Has a :=
  exists_update_iff r fun _ region => region.Has a

theorem exists_region (P : AddressSpaceRegion → Prop) (i : RegionIndex) :
    (∃ j, P (r j)) ↔ P (r i) ∨ ∃ j, j ≠ i ∧ P (r j) := by
  conv_lhs => rw [← update_eq_self i r]
  exact exists_update_iff r fun _ => P

theorem covers_iff (i : RegionIndex) : Covers r a ↔ (r i).Has a ∨ ∃ j, j ≠ i ∧ (r j).Has a :=
  exists_region (·.Has a) i

theorem Proper.update (h : Proper r) (hx : x.active → x.start < x.finish) :
    Proper (update r i x) := by
  apply (forall_update_iff r fun _ region =>
    region.active = true → region.start < region.finish).mpr
  exact ⟨hx, fun j _ => h j⟩

theorem free_region_some (h : free_region r = some i) : (r i).active = false := by
  have := find?_some h
  simpa using this

theorem free_region_none (h : free_region r = none) (i : RegionIndex) : (r i).active := by
  have := find?_eq_none.mp h i (mem_finRange i)
  simpa using this

/-! ## Adding a range -/

theorem add_region_covers {space space' : AddressSpace} {rights : Nat} (hproper : Proper space.regions)
    (hlt : start < finish) (h : add_region space start finish rights = (true, space')) :
    Proper space'.regions ∧
      ∀ a, Covers space'.regions a ↔ Covers space.regions a ∨ start ≤ a ∧ a < finish := by
  unfold add_region at h
  split at h
  · rename_i i hfind
    have hjoin := find?_some hfind
    simp only [joins, Bool.and_eq_true, Bool.or_eq_true, beq_iff_eq] at hjoin
    obtain ⟨⟨hactive, hside⟩, -⟩ := hjoin
    have hp := hproper i hactive
    injection h with _ h
    subst h
    -- the region grows at one of its ends
    have hgrown : ∀ region', region' = (if (space.regions i).finish = start then
        { space.regions i with finish := finish } else { space.regions i with start := start }) →
        (region'.active → region'.start < region'.finish) ∧
          ∀ a, region'.Has a ↔ (space.regions i).Has a ∨ start ≤ a ∧ a < finish := by
      rintro region' rfl
      split
      · refine ⟨fun _ => by simp only; omega, fun a => ?_⟩
        simp only [AddressSpaceRegion.Has, hactive, true_and]
        omega
      · refine ⟨fun _ => by simp only; omega, fun a => ?_⟩
        simp only [AddressSpaceRegion.Has, hactive, true_and]
        omega
    obtain ⟨hlt', hhas⟩ := hgrown _ rfl
    refine ⟨hproper.update hlt', fun a => ?_⟩
    simp only
    rw [covers_update, hhas, covers_iff i]
    exact or_right_comm
  · split at h
    · rename_i i hfree
      have hinactive := free_region_some hfree
      injection h with _ h
      subst h
      refine ⟨hproper.update fun _ => hlt, fun a => ?_⟩
      simp only
      rw [covers_update, covers_iff i]
      simp only [AddressSpaceRegion.Has, hinactive]
      simp only [Bool.false_eq_true, true_and, false_and, false_or]
      exact or_comm
    · injection h with h
      cases h

/-! ## Taking a range out -/

/-- The address lies in the region, with these rights. -/
def AddressSpaceRegion.Gives (region : AddressSpaceRegion) (a rights : Nat) : Prop :=
  region.Has a ∧ region.rights = rights

def Grants (regions : Regions) (a rights : Nat) : Prop := ∃ i, (regions i).Gives a rights

/-- No two regions share an address. -/
def Apart (regions : Regions) : Prop := ∀ a i j, (regions i).Has a → (regions j).Has a → i = j

/-- The region goes on beyond both ends of the range. -/
def AddressSpaceRegion.Spans (region : AddressSpaceRegion) (start finish : Nat) : Prop :=
  region.start < start ∧ start < region.finish ∧ region.start < finish ∧ finish < region.finish

/-- The range takes all of the region. -/
def AddressSpaceRegion.Cleared (region : AddressSpaceRegion) (start finish : Nat) : Prop :=
  start < region.finish ∧ region.start < finish ∧ start ≤ region.start ∧ region.finish ≤ finish

/-- The second region is what the range leaves of the first, in one piece. -/
structure Cut (start finish : Nat) (region region' : AddressSpaceRegion) : Prop where
  gives : ∀ a rights, region'.Gives a rights ↔ region.Gives a rights ∧ ¬ (start ≤ a ∧ a < finish)
  active : region'.active ↔ region.active ∧ ¬ region.Cleared start finish
  proper : region'.active → region.start < region.finish → region'.start < region'.finish
  no_span : region.active → ¬ region.Spans start finish

/-- The entries after a region was cut in two, its upper part at `j`. -/
def split_at (r : Regions) (i j : RegionIndex) (start finish : Nat) : Regions :=
  update (update r j ⟨true, (r i).rights, finish, (r i).finish⟩) i { r i with finish := start }

variable {rest entries : List RegionIndex} {count rights : Nat} {result : Regions × Nat}

/-- One turn of the loop: the region is cut and the loop goes on, or it is cut in two. -/
theorem remove_turn (start finish : Nat) (r : Regions) (i : RegionIndex)
    (rest : List RegionIndex) (count : Nat) :
    (∃ x, remove_loop start finish (i :: rest) (r, count) = remove_loop start finish rest
        (update r i x, count - ((r i).active.toNat - x.active.toNat)) ∧ Cut start finish (r i) x) ∨
    (r i).active ∧ (r i).Spans start finish ∧ remove_loop start finish (i :: rest) (r, count) =
        match free_region r with
        | some j => (split_at r i j start finish, count + 1)
        | none => (update r i { r i with finish := start }, count) := by
  rw [remove_loop]
  simp only
  split
  · rename_i hskip
    simp only [Bool.not_eq_eq_eq_not, Bool.not_true] at hskip
    refine .inl ⟨r i, by simp, fun a rights => ?_, ?_, fun _ => id, ?_⟩
    · rw [iff_self_and]
      rintro ⟨⟨hactive, hlo, hhi⟩, -⟩
      simp only [hactive, Bool.true_eq_false, false_or] at hskip
      omega
    · rw [iff_self_and]
      intro hactive hcleared
      simp only [hactive, Bool.true_eq_false, false_or] at hskip
      exact absurd hcleared.2.1 (by have := hcleared.1; omega)
    · intro hactive hspans
      simp only [hactive, Bool.true_eq_false, false_or] at hskip
      exact absurd hspans.2.2.1 (by have := hspans.2.1; omega)
  rename_i hmeets
  simp only [Bool.not_eq_eq_eq_not, Bool.not_true, not_or, Bool.not_eq_false, not_le] at hmeets
  obtain ⟨hactive, hs, hf⟩ := hmeets
  split
  · -- the whole region goes
    refine .inl ⟨⟨false, 0, 0, 0⟩, by simp [hactive], fun a rights => ?_, ?_, (fun h => by cases h), ?_⟩
    · simp only [AddressSpaceRegion.Gives, AddressSpaceRegion.Has, Bool.false_eq_true, false_and, false_iff]
      omega
    · simp only [Bool.false_eq_true, false_iff, AddressSpaceRegion.Cleared]
      omega
    · intro _ hspans
      exact absurd hspans.1 (by omega)
  split
  · -- its lower part goes
    refine .inl ⟨{ r i with start := finish }, by simp, fun a rights => ?_, ?_, fun _ _ => ?_, ?_⟩
    · simp only [AddressSpaceRegion.Gives, AddressSpaceRegion.Has, hactive, true_and]
      omega
    · simp only [hactive, AddressSpaceRegion.Cleared, true_and, true_iff]
      omega
    · simp only
      omega
    · intro _ hspans
      exact absurd hspans.1 (by omega)
  split
  · -- its upper part goes
    refine .inl ⟨{ r i with finish := start }, by simp, fun a rights => ?_, ?_, fun _ _ => ?_, ?_⟩
    · simp only [AddressSpaceRegion.Gives, AddressSpaceRegion.Has, hactive, true_and]
      omega
    · simp only [hactive, AddressSpaceRegion.Cleared, true_and, true_iff]
      omega
    · simp only
      omega
    · intro _ hspans
      exact absurd hspans.2.2.2 (by omega)
  · exact .inr ⟨hactive, ⟨by omega, hs, hf, by omega⟩, rfl⟩

/-- Cutting an entry covers nothing new, and nothing of the range in that entry. -/
theorem Cut.less (hcut : Cut start finish (r i) x) {k : RegionIndex} (ha : (update r i x k).Has a) :
    (r k).Has a ∧ (k = i → ¬ (start ≤ a ∧ a < finish)) := by
  by_cases hk : k = i
  · subst hk
    rw [update_self] at ha
    have := (hcut.gives a _).mp ⟨ha, rfl⟩
    exact ⟨this.1.1, fun _ => this.2⟩
  · rw [update_of_ne hk] at ha
    exact ⟨ha, fun h => absurd h hk⟩

theorem Cut.apart (hcut : Cut start finish (r i) x) (hapart : Apart r) : Apart (update r i x) :=
  fun a k j hk hj => hapart a k j (hcut.less hk).1 (hcut.less hj).1

/-- What the loop over the entries leaves. -/
structure Removed (start finish : Nat) (entries : List RegionIndex) (r : Regions)
    (count : Nat) (result : Regions × Nat) : Prop where
  proper : Proper r → Proper result.1
  less : ∀ a rights, Grants result.1 a rights → Grants r a rights
  kept : ∀ a rights, Grants r a rights → ¬ (start ≤ a ∧ a < finish) → Grants result.1 a rights
  gone : Apart r → (∀ k ∉ entries, ∀ a, (r k).Has a → ¬ (start ≤ a ∧ a < finish)) →
    ∀ k a, (result.1 k).Has a → ¬ (start ≤ a ∧ a < finish)
  count : count = countOf (·.active) r → result.2 = countOf (·.active) result.1

theorem Removed.cut (hcut : Cut start finish (r i) x)
    (h : Removed start finish rest (update r i x) (count - ((r i).active.toNat - x.active.toNat)) result) :
    Removed start finish (i :: rest) r count result := by
  refine ⟨?_, ?_, ?_, ?_, ?_⟩
  · exact fun hproper => h.proper (hproper.update fun hx => hcut.proper hx (hproper i (hcut.active.mp hx).1))
  · intro a rights hg
    refine (exists_region (·.Gives a rights) i).mpr (((exists_update_iff r fun _ region =>
      region.Gives a rights).mp (h.less a rights hg)).imp_left fun hg => ((hcut.gives a rights).mp hg).1)
  · intro a rights hg hout
    refine h.kept a rights ((exists_update_iff r fun _ region => region.Gives a rights).mpr
      (((exists_region (·.Gives a rights) i).mp hg).imp_left fun hg => ?_)) hout
    exact (hcut.gives a rights).mpr ⟨hg, hout⟩
  · intro hapart hdone
    refine h.gone (hcut.apart hapart) ?_
    intro k hk a ha
    by_cases hki : k = i
    · exact (hcut.less ha).2 hki
    · exact hdone k (not_mem_cons_of_ne_of_not_mem hki hk) a (hcut.less ha).1
  · intro hcount
    apply h.count
    have hmoved := countOf_update (·.active) r i x
    have hsub : x.active.toNat ≤ (r i).active.toNat := by
      cases hxa : x.active with
      | false => exact Nat.zero_le _
      | true => rw [(hcut.active.mp hxa).1]
    have hpos : (r i).active.toNat ≤ countOf (·.active) r := by
      cases hactive : (r i).active with
      | false => exact Nat.zero_le _
      | true => exact countOf_pos hactive
    omega

theorem Removed.split (hactive : (r i).active) (hj : (r j).active = false)
    (hspans : (r i).Spans start finish) :
    Removed start finish (i :: rest) r count (split_at r i j start finish, count + 1) := by
  have hji : j ≠ i := by
    rintro rfl
    rw [hj] at hactive
    cases hactive
  obtain ⟨hlo, hs, hf, hhi⟩ := hspans
  have hiff : ∀ P : AddressSpaceRegion → Prop, ¬ P (r j) → ((∃ k, P (split_at r i j start finish k)) ↔
      P { r i with finish := start } ∨ P ⟨true, (r i).rights, finish, (r i).finish⟩ ∨ ∃ k, k ≠ i ∧ P (r k)) := by
    intro P hP
    rw [split_at, exists_update_iff _ fun _ => P]
    refine or_congr_right ((exists_update_iff r fun k region => k ≠ i ∧ P region).trans (or_congr ?_ ?_))
    · exact and_iff_right hji
    · refine exists_congr fun k => and_iff_right_of_imp ?_
      rintro ⟨-, hk⟩ rfl
      exact hP hk
  have hnot : ∀ a, ¬ (r j).Has a := by
    intro a ha
    rw [ha.1] at hj
    cases hj
  refine ⟨fun hproper => (hproper.update fun _ => hhi).update fun _ => hlo, ?_, ?_, ?_, ?_⟩
  · intro a rights hg
    apply (exists_region (·.Gives a rights) i).mpr
    rcases (hiff (·.Gives a rights) fun h => hnot a h.1).mp hg with ⟨⟨h1, h2, h3⟩, hr⟩ | ⟨⟨-, h2, h3⟩, hr⟩ | hk
    · exact .inl ⟨⟨h1, h2, by simp only at h3; omega⟩, hr⟩
    · exact .inl ⟨⟨hactive, by simp only at h2; omega, h3⟩, hr⟩
    · exact .inr hk
  · intro a rights hg hout
    apply (hiff (·.Gives a rights) fun h => hnot a h.1).mpr
    rcases (exists_region (·.Gives a rights) i).mp hg with ⟨⟨h1, h2, h3⟩, hr⟩ | hk
    · by_cases ha : a < start
      · exact .inl ⟨⟨h1, h2, ha⟩, hr⟩
      · exact .inr (.inl ⟨⟨rfl, by simp only; omega, h3⟩, hr⟩)
    · exact .inr (.inr hk)
  · intro hapart _ k a hk hin
    rcases (hiff (·.Has a) (hnot a)).mp ⟨k, hk⟩ with ⟨-, -, h3⟩ | ⟨-, h2, -⟩ | ⟨k', hne, hk'⟩
    · simp only at h3
      omega
    · simp only at h2
      omega
    · -- an address of the range in another region would be in two
      exact hne (hapart a k' i hk' ⟨hactive, by omega, by omega⟩)
  · intro hcount
    have h1 := countOf_update (·.active) r j ⟨true, (r i).rights, finish, (r i).finish⟩
    have h2 := countOf_update (·.active) (update r j ⟨true, (r i).rights, finish, (r i).finish⟩) i
      { r i with finish := start }
    rw [update_of_ne hji.symm] at h2
    simp only [hj, hactive, Bool.toNat_true, Bool.toNat_false] at h1 h2
    simp only [split_at, hactive]
    omega

/-- For a region of the listed ones that goes on beyond both ends there is a free entry, or one
that the range clears before the loop comes to the region. -/
def Splits (start finish : Nat) (r : Regions) (entries : List RegionIndex) : Prop :=
  ∀ i ∈ entries, (r i).active → (r i).Spans start finish →
    (∃ j, (r j).active = false) ∨ ∃ j ∈ entries, j < i ∧ (r j).Cleared start finish

theorem remove_loop_removed (start finish : Nat) (entries : List RegionIndex)
    (hsorted : entries.Pairwise (· < ·)) (r : Regions) (count : Nat) (hsplits : Splits start finish r entries) :
    Removed start finish entries r count (remove_loop start finish entries (r, count)) := by
  induction entries generalizing r count with
  | nil => exact ⟨id, fun _ _ => id, fun _ _ h _ => h, fun _ h k => h k not_mem_nil, id⟩
  | cons i rest ih =>
    obtain ⟨hfirst, hrest⟩ := pairwise_cons.mp hsorted
    have hne : ∀ k ∈ rest, k ≠ i := fun k hk => (hfirst k hk).ne'
    obtain ⟨x, heq, hcut⟩ | ⟨hactive, hspans, heq⟩ := remove_turn start finish r i rest count
    · rw [heq]
      refine .cut hcut (ih hrest _ _ ?_)
      intro k hk hactive hspans
      rw [update_of_ne (hne k hk)] at hactive hspans
      -- an entry that is free, or is cleared now, is free for the rest of the loop
      have hfree : ∀ j, (r j).active = false ∨ j = i ∧ (r j).Cleared start finish →
          ∃ j, (update r i x j).active = false := by
        intro j hj
        refine ⟨j, Bool.eq_false_iff.mpr fun hx => ?_⟩
        by_cases hji : j = i
        · subst hji
          rw [update_self, hcut.active] at hx
          exact hj.elim (fun hj => by simp [hj] at hx) fun hj => hx.2 hj.2
        · rw [update_of_ne hji] at hx
          exact hj.elim (fun hj => by simp [hj] at hx) fun hj => hji hj.1
      rcases hsplits k (mem_cons_of_mem _ hk) hactive hspans with ⟨j, hj⟩ | ⟨j, hj, hlt, hcleared⟩
      · exact .inl (hfree j (.inl hj))
      · rcases mem_cons.mp hj with rfl | hj
        · exact .inl (hfree j (.inr ⟨rfl, hcleared⟩))
        · exact .inr ⟨j, hj, hlt, by rwa [update_of_ne (hne j hj)]⟩
    · rw [heq]
      cases hfree : free_region r with
      | some j => exact .split hactive (free_region_some hfree) hspans
      | none =>
        rcases hsplits i mem_cons_self hactive hspans with ⟨j, hj⟩ | ⟨j, hj, hlt, -⟩
        · rw [free_region_none hfree j] at hj
          cases hj
        · rcases mem_cons.mp hj with rfl | hj
          · exact absurd hlt (lt_irrefl _)
          · exact absurd hlt (hfirst j hj).not_gt

/-- In a full table a region that goes on beyond both ends loses its upper part. -/
theorem remove_loop_loses (hlt : start < finish) (entries : List RegionIndex)
    (hsorted : entries.Pairwise (· < ·)) (r : Regions) (count : Nat) (hapart : Apart r)
    (hfull : ∀ j, (r j).active) (hi : i ∈ entries) (hspans : (r i).Spans start finish)
    (hkept : ∀ j ∈ entries, j < i → ¬ (r j).Cleared start finish) :
    ¬ Covers (remove_loop start finish entries (r, count)).1 finish := by
  induction entries generalizing r count with
  | nil => exact absurd hi not_mem_nil
  | cons k rest ih =>
    obtain ⟨hfirst, hrest⟩ := pairwise_cons.mp hsorted
    obtain ⟨x, heq, hcut⟩ | ⟨hactive, hspans', heq⟩ := remove_turn start finish r k rest count
    · have hik : i ≠ k := by
        rintro rfl
        exact hcut.no_span (hfull i) hspans
      have hi := mem_of_ne_of_mem hik hi
      rw [heq]
      refine ih hrest _ _ (hcut.apart hapart) ?_ hi ?_ ?_
      · refine (forall_update_iff r fun _ region => region.active = true).mpr ⟨?_, fun j _ => hfull j⟩
        exact hcut.active.mpr ⟨hfull k, hkept k mem_cons_self (hfirst i hi)⟩
      · rwa [update_of_ne hik]
      · intro j hj
        rw [update_of_ne (hfirst j hj).ne']
        exact hkept j (mem_cons_of_mem _ hj)
    · -- both regions contain the start of the range
      obtain rfl : k = i := hapart start k i ⟨hactive, hspans'.1.le, hspans'.2.1⟩
        ⟨hfull i, hspans.1.le, hspans.2.1⟩
      have hfree : free_region r = none := by
        by_contra hsome
        obtain ⟨j, hj⟩ := Option.ne_none_iff_exists'.mp hsome
        exact absurd (hfull j) (by simp [free_region_some hj])
      rw [heq, hfree]
      intro hcovers
      rcases covers_update.mp hcovers with ⟨-, -, hhi⟩ | ⟨j, hj, hhas⟩
      · exact absurd hhi hlt.not_gt
      · exact hj (hapart finish j k hhas ⟨hactive, hspans.2.2.1.le, hspans.2.2.2⟩)

/-- From `r` to `r'` at most the addresses of the range were uncovered. -/
structure Without (start finish : Nat) (r r' : Regions) : Prop where
  less : ∀ a, Covers r' a → Covers r a
  kept : ∀ a, Covers r a → ¬ (start ≤ a ∧ a < finish) → Covers r' a
  proper : Proper r'

/-- There is a free entry, or no region of the listed ones reaches over the start of
the range. -/
def Room (start : Nat) (r : Regions) (entries : List RegionIndex) : Prop :=
  (∃ j, (r j).active = false) ∨
    ∀ i ∈ entries, (r i).active → ¬ ((r i).start < start ∧ start < (r i).finish)

theorem remove_loop_without (finish : Nat) (entries : List RegionIndex)
    (hsorted : entries.Pairwise (· < ·))
    (count : Nat) (hproper : Proper r) (hroom : Room start r entries) :
    Without start finish r (remove_loop start finish entries (r, count)).1 := by
  have h := remove_loop_removed start finish entries hsorted r count fun i hi hactive hspans =>
    .inl (hroom.resolve_right fun hno => hno i hi hactive ⟨hspans.1, hspans.2.1⟩)
  refine ⟨?_, ?_, h.proper hproper⟩
  · rintro a ⟨k, hk⟩
    obtain ⟨j, hj, -⟩ := h.less a _ ⟨k, hk, rfl⟩
    exact ⟨j, hj⟩
  · rintro a ⟨k, hk⟩ hout
    obtain ⟨j, hj, -⟩ := h.kept a _ ⟨k, hk, rfl⟩ hout
    exact ⟨j, hj⟩

end

/-! ## The removal -/

/-- The page of the address is one of those that the range touches. -/
def InPages (start size a : Nat) : Prop :=
  0 < size ∧ start / VM_PAGE_SIZE ≤ a / VM_PAGE_SIZE ∧ a / VM_PAGE_SIZE ≤ (start + size - 1) / VM_PAGE_SIZE

theorem inPages_iff {start size : Nat} (hsize : 0 < size) (hend : start + size + VM_PAGE_SIZE ≤ 2 ^ 64)
    (a : Nat) :
    InPages start size a ↔ align_down_page start ≤ a ∧ a < align_up_page (start + size) := by
  have hup := align_up_spec (start + size) VM_PAGE_SIZE (by decide) hend
  have hle := align_down_le start VM_PAGE_SIZE
  have hmod := align_down_mod start VM_PAGE_SIZE
  simp only [InPages, align_down_page, align_up_page, align_down, VM_PAGE_SIZE] at *
  omega

/-- The pages of a range that ends in the last page of all end at 2^64, which wraps to 0. -/
theorem last_page_end {start size : Nat} (hend : start + size < 2 ^ 64)
    (hlast : 2 ^ 64 < start + size + VM_PAGE_SIZE) : align_up_page (start + size) = 0 := by
  simp only [align_up_page, align_up, align_down, u64, VM_PAGE_SIZE] at *
  omega

theorem remove_loop_empty (start : Nat) (entries : List RegionIndex) (r : Regions × Nat) :
    remove_loop start 0 entries r = r := by
  induction entries with
  | nil => rfl
  | cons i rest ih => simp [remove_loop, ih]

/-- The removal can be done in the table: nothing is to be removed; or there is an entry for the
upper part of a region that is cut in two, unless the range ends in the last page of all,
whose end wraps, and then no region has an address in its pages. -/
def Removable (r : Regions) (start size : Nat) : Prop :=
  size = 0 ∨
  start + size + VM_PAGE_SIZE ≤ 2 ^ 64 ∧ Splits (align_down_page start) (align_up_page (start + size)) r
    (finRange ADDRESS_SPACE_MAX_REGIONS) ∨
  2 ^ 64 < start + size + VM_PAGE_SIZE ∧ ∀ a, Covers r a → ¬ InPages start size a

/-- Taking a range out leaves the other addresses, with their rights, and the count of the
regions, exactly when the removal can be done in the table. -/
theorem removal_is_set_difference_iff (space : AddressSpace) (start size : Nat)
    (hapart : Apart space.regions) (hcount : space.region_count = countOf (·.active) space.regions)
    (hgate : space.mutation_gate_enter = true) (hend : start + size < 2 ^ 64) :
    let space' := address_space_remove_region space start size
    ((∀ a rights, Grants space'.regions a rights ↔
        Grants space.regions a rights ∧ ¬ InPages start size a) ∧
      space'.region_count = countOf (·.active) space'.regions) ↔ Removable space.regions start size := by
  unfold address_space_remove_region Removable
  rw [hgate, u64_of_lt hend]
  by_cases hsize : size = 0
  · simp [hsize, hcount, InPages]
  rw [if_neg hsize]
  simp only [Bool.not_true, Bool.false_eq_true, if_false, hsize, false_or]
  have hpos : 0 < size := Nat.pos_of_ne_zero hsize
  by_cases hlast : start + size + VM_PAGE_SIZE ≤ 2 ^ 64
  · simp only [hlast, hlast.not_gt, true_and, false_and, or_false, inPages_iff hpos hlast]
    constructor
    · rintro ⟨hgrants, -⟩ i hi hactive hspans
      by_contra hnone
      rw [not_or, not_exists, not_exists] at hnone
      have hup := align_up_spec (start + size) VM_PAGE_SIZE (by decide) hlast
      refine remove_loop_loses ?_ _ (sortedLT_finRange _).pairwise space.regions space.region_count hapart
        (fun j => by simpa using hnone.1 j) hi hspans (fun j hj hlt hcleared => hnone.2 j ⟨hj, hlt, hcleared⟩) ?_
      · exact (align_down_le start VM_PAGE_SIZE).trans_lt (by unfold align_up_page; omega)
      · obtain ⟨k, hk, -⟩ := (hgrants (align_up_page (start + size)) (space.regions i).rights).mpr
          ⟨⟨i, ⟨hactive, hspans.2.2.1.le, hspans.2.2.2⟩, rfl⟩, fun h => lt_irrefl _ h.2⟩
        exact ⟨k, hk⟩
    · intro hsplits
      have h := remove_loop_removed _ _ _ (sortedLT_finRange _).pairwise _ space.region_count hsplits
      have hgone := h.gone hapart fun k hk => absurd (mem_finRange k) hk
      refine ⟨fun a rights => ⟨fun hg => ⟨h.less a rights hg, ?_⟩, fun hg => h.kept a rights hg.1 hg.2⟩,
        h.count hcount⟩
      exact hg.elim fun k hk => hgone k a hk.1
  · rw [not_le] at hlast
    simp only [hlast, hlast.not_ge, true_and, false_and, false_or, last_page_end hend hlast,
      remove_loop_empty, hcount, and_true, iff_self_and]
    constructor
    · rintro hgrants a ⟨i, hi⟩
      exact hgrants a _ ⟨i, hi, rfl⟩
    · rintro hout a rights ⟨i, hi, -⟩
      exact hout a ⟨i, hi⟩

/-- A space whose table is full, with a page between two regions of three. -/
def crowded : AddressSpace :=
  { address_space_init with
    regions := fun i => ⟨true, ADDRESS_SPACE_REGION_READ, i * 0x4000, i * 0x4000 + 0x3000⟩
    region_count := ADDRESS_SPACE_MAX_REGIONS }

theorem crowded_apart : Apart crowded.regions ∧ crowded.region_count = countOf (·.active) crowded.regions := by
  refine ⟨?_, by simp [crowded, countOf]⟩
  rintro a i j ⟨-, h1, h2⟩ ⟨-, h3, h4⟩
  simp only [crowded] at h1 h2 h3 h4
  apply Fin.ext
  omega

theorem the_first_page_goes :
    ¬ Grants (address_space_remove_region crowded 0 0x1000).regions 0xFFF ADDRESS_SPACE_REGION_READ ∧
      Grants (address_space_remove_region crowded 0 0x1000).regions 0x1000 ADDRESS_SPACE_REGION_READ := by
  have h := ((removal_is_set_difference_iff crowded 0 0x1000 crowded_apart.1 crowded_apart.2 (by decide)
    (by decide)).mpr (.inr (.inl ⟨by decide, fun i _ _ h => absurd h.1 (Nat.not_lt_zero _)⟩))).1
  rw [h, h]
  exact ⟨fun h => h.2 (by simp [InPages, VM_PAGE_SIZE]),
    ⟨⟨0, by decide⟩, by decide, rfl⟩, by simp [InPages, VM_PAGE_SIZE]⟩

theorem a_full_table_loses_the_upper_part :
    Apart crowded.regions ∧ crowded.region_count = countOf (·.active) crowded.regions ∧
      crowded.mutation_gate_enter = true ∧ Covers crowded.regions 0x2000 ∧
      ¬ Covers (address_space_remove_region crowded 0x1000 0x1000).regions 0x2000 := by
  refine ⟨crowded_apart.1, crowded_apart.2, by decide, ⟨⟨0, by decide⟩, by decide⟩, ?_⟩
  unfold Covers
  decide +kernel

end mini_kernel.space
