-- What the bits of an entry say: whether it is present, whether it is huge, and
-- which frame it points to. The tables are reasoned about by these three only.
import MiniKernel.Lib.Word
import MiniKernel.Mm.Paging

open mini_kernel.lib mini_kernel.vm

namespace mini_kernel.paging

/-- A frame that an entry can point to. -/
def IsFrame (f : Frame) : Prop := f &&& ADDRESS_MASK = f ∧ f ≠ 0

instance (f : Frame) : Decidable (IsFrame f) := inferInstanceAs (Decidable (_ ∧ _))

def present (e : Entry) : Prop := has e VM_FLAG_PRESENT
def huge (e : Entry) : Prop := has e VM_FLAG_HUGE

instance (e : Entry) : Decidable (present e) := inferInstanceAs (Decidable (_ = _))
instance (e : Entry) : Decidable (huge e) := inferInstanceAs (Decidable (_ = _))

theorem has_iff (e f : U64) : has e f ↔ e &&& f ≠ 0 := by
  simp [has]

theorem not_present_zero : ¬ present 0 := by decide

variable {f : Frame}

/-- A frame has no bit outside the address. -/
theorem IsFrame.and_eq (hf : IsFrame f) (m : U64) (hm : ADDRESS_MASK &&& m = 0) : f &&& m = 0 := by
  rw [← hf.1, BitVec.and_assoc, hm]
  exact BitVec.and_zero

theorem table_entry_spec (hf : IsFrame f) (flags : U64) :
    present (table_entry f flags) ∧ ¬ huge (table_entry f flags) ∧
      entry_to_table (table_entry f flags) = f := by
  have h1 := hf.and_eq VM_FLAG_PRESENT (by decide)
  have h2 := hf.and_eq VM_FLAG_HUGE (by decide)
  have h3 := hf.1
  unfold present huge entry_to_table table_entry
  simp only [has_iff, BitVec.and_or_distrib_right, BitVec.and_assoc, h1, h2, h3]
  simp [VM_FLAG_PRESENT, VM_FLAG_WRITABLE, VM_FLAG_USER, VM_FLAG_HUGE, VM_FLAG_NO_EXECUTE,
    ADDRESS_MASK]

/-- The entry that points to the copy of a table. -/
theorem clone_entry_spec (hf : IsFrame f) (e : Entry) :
    let copy := f ||| (e &&& (0xFFF ||| VM_FLAG_NO_EXECUTE))
    (present copy ↔ present e) ∧ (huge copy ↔ huge e) ∧ entry_to_table copy = f := by
  have h1 := hf.and_eq VM_FLAG_PRESENT (by decide)
  have h2 := hf.and_eq VM_FLAG_HUGE (by decide)
  have h3 := hf.1
  unfold present huge entry_to_table
  simp only [has_iff, BitVec.and_or_distrib_right, BitVec.and_assoc, h1, h2, h3]
  simp [VM_FLAG_PRESENT, VM_FLAG_HUGE, VM_FLAG_NO_EXECUTE, ADDRESS_MASK]

theorem relaxed_spec (e flags : U64) :
    (present (relaxed e flags) ↔ present e) ∧ (huge (relaxed e flags) ↔ huge e) ∧
      entry_to_table (relaxed e flags) = entry_to_table e := by
  unfold present huge entry_to_table relaxed
  simp only [has_iff]
  split_ifs <;>
    simp [VM_FLAG_PRESENT, VM_FLAG_HUGE, VM_FLAG_USER, VM_FLAG_NO_EXECUTE, ADDRESS_MASK,
      BitVec.and_or_distrib_right, BitVec.and_assoc]

theorem leaf_entry_present (phys flags : U64) : present (leaf_entry phys flags) := by
  unfold present leaf_entry
  simp only [has_iff, BitVec.and_or_distrib_right, ne_eq]
  simp [BitVec.or_eq_zero_iff, VM_FLAG_PRESENT]

theorem leaf_entry_phys {phys flags : U64} (hf : flags &&& ADDRESS_MASK = 0) :
    leaf_entry phys flags &&& ADDRESS_MASK = phys &&& ADDRESS_MASK := by
  unfold leaf_entry
  simp only [BitVec.and_or_distrib_right, BitVec.and_assoc, hf]
  simp [ADDRESS_MASK, VM_FLAG_PRESENT]

theorem split_entries_present {e : Entry} (he : present e) (i : Index) : present (split_entries e i) := by
  unfold present split_entries at *
  simp only [has_iff, BitVec.and_or_distrib_right, BitVec.and_assoc, ne_eq] at *
  intro h
  have h2 := (BitVec.or_eq_zero_iff.mp h).2
  simp [VM_FLAG_PRESENT, VM_FLAG_HUGE, VM_FLAG_NO_EXECUTE] at h2 he
  exact he h2

/-- The offset of a page in its 2 MiB entry. -/
theorem pt_index_offset (virt : U64) : (pt_index virt).setWidth 64 * 4096 = virt &&& 0x1FF000 := by
  rw [show (4096 : U64) = BitVec.twoPow 64 12 by decide, BitVec.mul_twoPow_eq_shiftLeft]
  unfold pt_index
  refine BitVec.eq_of_getLsbD_eq fun i hi => ?_
  interval_cases i <;> simp

/-- The pages of a split entry translate as the entry did. -/
theorem split_entries_phys (e : Entry) (virt : U64) :
    (split_entries e (pt_index virt) &&& ADDRESS_MASK) ||| (virt &&& 0xFFF) =
      (e &&& HUGE_2M_MASK) ||| (virt &&& 0x1FFFFF) := by
  have hdis : e &&& HUGE_2M_MASK &&& (virt &&& 0x1FF000) = 0 := by
    rw [BitVec.and_assoc, ← BitVec.and_assoc HUGE_2M_MASK, BitVec.and_comm HUGE_2M_MASK,
      BitVec.and_assoc virt, show HUGE_2M_MASK &&& 0x1FF000 = 0 by decide]
    simp
  have hlow : virt &&& 0x1FFFFF = (virt &&& 0x1FF000) ||| (virt &&& 0xFFF) := by
    rw [← BitVec.and_or_distrib_left, show (0x1FF000 : U64) ||| 0xFFF = 0x1FFFFF by decide]
  unfold split_entries
  simp only [pt_index_offset]
  rw [BitVec.add_eq_or_of_and_eq_zero _ _ hdis, hlow]
  simp only [BitVec.and_or_distrib_right, BitVec.and_assoc]
  rw [show HUGE_2M_MASK &&& ADDRESS_MASK = HUGE_2M_MASK by decide,
    show (0x1FF000 : U64) &&& ADDRESS_MASK = 0x1FF000 by decide,
    show 0xFFF &&& (~~~VM_FLAG_HUGE &&& ADDRESS_MASK) = 0 by decide,
    show VM_FLAG_NO_EXECUTE &&& (~~~VM_FLAG_HUGE &&& ADDRESS_MASK) = 0 by decide]
  simp [BitVec.or_assoc]

end mini_kernel.paging
