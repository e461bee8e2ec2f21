-- The check of user buffers (kernel/mm/address_space.cpp) looks up one address of every
-- page. Regions end at page boundaries and the tables map whole pages, so the answer
-- covers the other bytes of the page.
import MiniKernel.Mm.Paging
import MiniKernel.Mm.SpaceRegions

open mini_kernel.lib mini_kernel.vm mini_kernel.paging List

namespace mini_kernel.space

/-- What the check reads of a space: its regions and its root in the page tables. -/
structure View where
  regions : Regions
  root_phys : Frame
  vm : Vm

namespace View
variable (v : View) (writable : Bool)

def find_region (address : Nat) : Option RegionIndex :=
  (finRange ADDRESS_SPACE_MAX_REGIONS).find? fun i => (v.regions i).Has address

def address_space_get_flags (virt : Nat) : U64 :=
  if v.root_phys = 0 then 0 else arch_vm_get_flags_in_root v.vm v.root_phys (.ofNat 64 virt)

/-- The region has the rights that the loop asks for. -/
def admits (i : RegionIndex) : Bool :=
  (v.regions i).rights &&& ADDRESS_SPACE_REGION_READ != 0 &&
    (!writable || (v.regions i).rights &&& ADDRESS_SPACE_REGION_WRITE != 0)

/-- The page of the address has the flags that the loop asks for. -/
def mapped (address : Nat) : Bool :=
  has (v.address_space_get_flags address) VM_FLAG_USER &&
    (!writable || has (v.address_space_get_flags address) VM_FLAG_WRITABLE)

/-- The `while` loop. `none`: the turns ran out. -/
def accessible_loop (finish : Nat) : Nat → Nat → Option Bool
  | 0, _ => none
  | turns + 1, address =>
    if ¬ (v.find_region address).any (v.admits writable) then some false
    else if ¬ v.mapped writable address then some false
    else if align_down_page address = align_down_page finish then some true
    else accessible_loop finish turns (u64 (align_down_page address + VM_PAGE_SIZE))

def address_space_buffer_accessible (start size : Nat) : Option Bool :=
  if size = 0 then some true
  else if start = 0 then some false
  else
    let finish := u64 (start + size - 1)
    if finish < start then some false
    else do
      let accessible ← v.accessible_loop writable finish (size / VM_PAGE_SIZE + 2) start
      some (accessible && (v.find_region finish).isSome)

/-- The byte lies in a region with the rights, on a page with the flags. -/
def Accessible (a : Nat) : Prop :=
  (∃ i, (v.regions i).Has a ∧ v.admits writable i) ∧ v.mapped writable a

/-- The regions start and end at page boundaries, and no two share an address. -/
structure Paged : Prop where
  aligned : ∀ i, (v.regions i).active →
    (v.regions i).start % VM_PAGE_SIZE = 0 ∧ (v.regions i).finish % VM_PAGE_SIZE = 0
  apart : Apart v.regions

variable {v writable} {a b : Nat}

theorem find_region_isSome : (v.find_region a).isSome ↔ ∃ i, (v.regions i).Has a := by
  simp [find_region]

/-- The indices of an address are those of its page. -/
theorem index_same_page (hpage : a / VM_PAGE_SIZE = b / VM_PAGE_SIZE) (k : Nat) :
    (BitVec.ofNat 64 a >>> (12 + k)).setWidth 9 = (BitVec.ofNat 64 b >>> (12 + k)).setWidth 9 := by
  have hshift : BitVec.ofNat 64 a >>> 12 = BitVec.ofNat 64 b >>> 12 := by
    apply BitVec.eq_of_toNat_eq
    unfold VM_PAGE_SIZE at hpage
    simp only [BitVec.toNat_ushiftRight, BitVec.toNat_ofNat, Nat.shiftRight_eq_div_pow]
    omega
  rw [BitVec.shiftRight_add, BitVec.shiftRight_add, hshift]

theorem flags_same_page (hpage : a / VM_PAGE_SIZE = b / VM_PAGE_SIZE) :
    v.address_space_get_flags a = v.address_space_get_flags b := by
  have hindex := index_same_page hpage
  have h0 : pt_index (.ofNat 64 a) = pt_index (.ofNat 64 b) := hindex 0
  have h1 : pd_index (.ofNat 64 a) = pd_index (.ofNat 64 b) := hindex 9
  have h2 : pdpt_index (.ofNat 64 a) = pdpt_index (.ofNat 64 b) := hindex 18
  have h3 : pml4_index (.ofNat 64 a) = pml4_index (.ofNat 64 b) := hindex 27
  simp only [address_space_get_flags, arch_vm_get_flags_in_root, arch_vm_get_flags, flags_from,
    h0, h1, h2, h3]

section
variable (h : v.Paged)
include h

/-- One address of a page answers for the others. -/
theorem Paged.same_page (hpage : a / VM_PAGE_SIZE = b / VM_PAGE_SIZE) :
    v.Accessible writable a ↔ v.Accessible writable b := by
  have hhas : ∀ i, (v.regions i).Has a ↔ (v.regions i).Has b := by
    intro i
    apply and_congr_right
    intro hactive
    have := h.aligned i hactive
    unfold VM_PAGE_SIZE at this hpage
    omega
  simp only [Accessible, mapped, hhas, flags_same_page hpage]

/-- The region that is found is the only one. -/
theorem Paged.found : (v.find_region a).any (v.admits writable) ↔
    ∃ i, (v.regions i).Has a ∧ v.admits writable i := by
  rw [Option.any_eq_true]
  constructor
  · rintro ⟨i, hi, hadmits⟩
    exact ⟨i, by simpa using find?_some hi, hadmits⟩
  · rintro ⟨i, hi, hadmits⟩
    obtain ⟨j, hj⟩ := Option.isSome_iff_exists.mp (find_region_isSome.mpr ⟨i, hi⟩)
    rw [h.apart a i j hi (by simpa using find?_some hj)] at hadmits
    exact ⟨j, hj, hadmits⟩

/-- The loop returns, and says whether all bytes that are left are accessible. -/
theorem Paged.loop_eq {finish : Nat} (hfit : finish < 2 ^ 64) (writable : Bool) (turns address : Nat)
    (hle : address ≤ finish) (hturns : finish / VM_PAGE_SIZE < address / VM_PAGE_SIZE + turns) :
    ∃ r, v.accessible_loop writable finish turns address = some r ∧
      (r ↔ ∀ a, address ≤ a → a ≤ finish → v.Accessible writable a) := by
  induction turns generalizing address with
  | zero =>
    have := Nat.div_le_div_right (c := VM_PAGE_SIZE) hle
    omega
  | succ turns ih =>
    rw [accessible_loop]
    by_cases hok : v.Accessible writable address
    · rw [if_neg (not_not.mpr (h.found.mpr hok.1)), if_neg (not_not.mpr hok.2)]
      have hpage : ∀ a, a / VM_PAGE_SIZE = address / VM_PAGE_SIZE → v.Accessible writable a :=
        fun a ha => (h.same_page ha).mpr hok
      have hdown : ∀ x, align_down_page x = x - x % 4096 := fun _ => rfl
      unfold VM_PAGE_SIZE at hturns hpage ih ⊢
      by_cases hlast : align_down_page address = align_down_page finish
      · rw [if_pos hlast]
        rw [hdown, hdown] at hlast
        refine ⟨true, rfl, iff_of_true rfl fun a h1 h2 => hpage a ?_⟩
        omega
      · rw [if_neg hlast]
        rw [hdown, hdown] at hlast
        rw [hdown, u64_of_lt (by omega)]
        obtain ⟨r, hr, hall⟩ := ih (address - address % 4096 + 4096) (by omega) (by omega)
        refine ⟨r, hr, hall.trans ⟨fun hrest a h1 h2 => ?_, fun hrest a h1 => hrest a (by omega)⟩⟩
        by_cases ha : a / 4096 = address / 4096
        · exact hpage a ha
        · exact hrest a (by omega) h2
    · refine ⟨false, ?_, iff_of_false (fun h => by cases h) fun hall => hok (hall _ (Nat.le_refl _) hle)⟩
      split
      · rfl
      · rename_i hfound
        rw [if_pos fun hmapped => hok ⟨h.found.mp (not_not.mp hfound), hmapped⟩]

/-- The check returns, and it is exact: a buffer passes if and only if it does not start at
null, does not wrap and has accessible bytes only. -/
theorem buffer_check_is_exact (writable : Bool) {start size : Nat} (hstart : start < 2 ^ 64)
    (hpos : 0 < size) (hsize : size < 2 ^ 64) :
    ∃ r, v.address_space_buffer_accessible writable start size = some r ∧
      (r = true ↔ start ≠ 0 ∧ start + size - 1 < 2 ^ 64 ∧
        ∀ a, start ≤ a → a < start + size → v.Accessible writable a) := by
  unfold address_space_buffer_accessible
  rw [if_neg (by omega)]
  by_cases h0 : start = 0
  · exact ⟨false, if_pos h0, by simp [h0]⟩
  rw [if_neg h0]
  by_cases hwrap : start + size - 1 < 2 ^ 64
  · obtain ⟨r, hr, hall⟩ := h.loop_eq hwrap writable (size / VM_PAGE_SIZE + 2) start (by omega)
      (by unfold VM_PAGE_SIZE; omega)
    simp only [u64_of_lt hwrap]
    rw [if_neg (by omega), hr]
    refine ⟨_, rfl, ?_⟩
    rw [Bool.and_eq_true, hall, find_region_isSome]
    constructor
    · rintro ⟨hbytes, -⟩
      exact ⟨h0, hwrap, fun a h1 h2 => hbytes a h1 (by omega)⟩
    · rintro ⟨-, -, hbytes⟩
      obtain ⟨⟨i, hi, -⟩, -⟩ := hbytes (start + size - 1) (by omega) (by omega)
      exact ⟨fun a h1 h2 => hbytes a h1 (by omega), i, hi⟩
  · have hlow : u64 (start + size - 1) < start := by
      unfold u64
      omega
    refine ⟨false, if_pos hlow, ?_⟩
    simp only [Bool.false_eq_true, false_iff]
    exact fun hall => hwrap hall.2.1

end

/-- A buffer may cross from one page to the next. -/
theorem a_buffer_across_two_pages : ∃ v : View, v.Accessible true 0x400FFF ∧ v.Accessible true 0x401000 := by
  have h : View.Paged ⟨fun i => ⟨decide (i.val = 0), 3, 0x400000, 0x402000⟩, 0x1000,
      ⟨fun _ _ => 7, 0x1000, []⟩⟩ :=
    ⟨fun _ _ => ⟨(by decide : 0x400000 % VM_PAGE_SIZE = 0), (by decide : 0x402000 % VM_PAGE_SIZE = 0)⟩,
      fun _ i j hi hj => Fin.ext
      ((of_decide_eq_true hi.1).trans (of_decide_eq_true hj.1).symm)⟩
  obtain ⟨r, hr, hexact⟩ := buffer_check_is_exact h true (by decide : 0x400FFF < 2 ^ 64)
    (by decide : 0 < 2) (by decide)
  obtain rfl : true = r := Option.some.inj (Eq.trans (by decide +kernel) hr)
  have hbytes := (hexact.mp rfl).2.2
  exact ⟨_, hbytes _ (by decide) (by decide), hbytes _ (by decide) (by decide)⟩

end View

end mini_kernel.space
