-- Reference counts of kernel objects. However handles are made, cloned, closed and
-- released, an object counts exactly the handles that name it, and its memory is there
-- exactly as long as it has one.
import MiniKernel.Handle.Objects
import MiniKernel.Lib.RefCount

open mini_kernel.lib mini_kernel.handle Function

namespace mini_kernel.object

/-! ## Names -/

inductive ObjectName
  | shared (index : Fin KERNEL_SHARED_MEMORY_MAX_OBJECTS)
  | surface (index : SurfaceIndex)
  deriving DecidableEq

/-- The type of the handles to an object. -/
def ObjectName.type : ObjectName → Nat
  | .shared _ => KERNEL_HANDLE_TYPE_SHARED_MEMORY
  | .surface _ => KERNEL_HANDLE_TYPE_GRAPHICS_SURFACE

def ObjectName.index : ObjectName → Nat
  | .shared i => i
  | .surface i => i

def KernelObjects.header (o : KernelObjects) : ObjectName → ObjectHeader
  | .shared i => (o.shared_objects i).toObjectHeader
  | .surface i => (o.surface_objects i).toObjectHeader

/-- The laws read the objects as their headers. -/
instance : CoeFun KernelObjects fun _ => ObjectName → ObjectHeader := ⟨KernelObjects.header⟩

/-- The current id of an object. -/
def KernelObjects.object_id (o : KernelObjects) (x : ObjectName) : Nat :=
  make_object_id x.index (o.header x).generation

/-- The object that the type and the id of a handle name, and its generation. -/
def reference (handle : KernelHandle) : Option (ObjectName × Nat) :=
  if handle.type = KERNEL_HANDLE_TYPE_SHARED_MEMORY then
    (decode_object_id handle.object KERNEL_SHARED_MEMORY_MAX_OBJECTS).map fun p => (.shared p.1, p.2)
  else if handle.type = KERNEL_HANDLE_TYPE_GRAPHICS_SURFACE then
    (decode_object_id handle.object KERNEL_GRAPHICS_SURFACE_MAX_OBJECTS).map fun p =>
      (.surface p.1, p.2)
  else none

/-- The object that an active handle names. -/
def named (handle : KernelHandle) : Option ObjectName :=
  if handle.active then (reference handle).map Prod.fst else none

theorem decode_object_id_iff {object_id max_index generation : Nat} {index : Fin max_index}
    (hmax : max_index < 2 ^ 32 - 1) : decode_object_id object_id max_index = some (index, generation) ↔
      object_id = make_object_id index generation ∧ generation ≠ 0 := by
  have hindex : (index : Nat) + 1 < 2 ^ 32 := by have := index.isLt; omega
  constructor
  · intro h
    have hparts := pack_parts 32 object_id
    unfold decode_object_id at h
    split at h
    · cases h
    rename_i hlow
    split at h
    · simp only at h
      split at h
      · cases h
      rename_i hhigh
      cases h
      refine ⟨?_, hhigh⟩
      rw [make_object_id, Nat.sub_add_cancel (Nat.one_le_iff_ne_zero.mpr hlow)]
      exact hparts.symm
    · cases h
  · rintro ⟨rfl, hgeneration⟩
    have hlow : make_object_id index generation &&& 0xFFFFFFFF = index + 1 := pack_low hindex
    have hhigh : make_object_id index generation >>> 32 = generation := pack_high hindex
    unfold decode_object_id
    rw [hlow, hhigh, if_neg (by omega), dif_pos (by simp), if_neg hgeneration]
    simp

variable {handle : KernelHandle} {x : ObjectName} {o : KernelObjects}
  {i : Fin KERNEL_SHARED_MEMORY_MAX_OBJECTS} {header : ObjectHeader}

theorem reference_iff {generation : Nat} : reference handle = some (x, generation) ↔
      handle.type = x.type ∧ handle.object = make_object_id x.index generation ∧ generation ≠ 0 := by
  unfold reference
  cases x with
  | shared i =>
    by_cases htype : handle.type = KERNEL_HANDLE_TYPE_SHARED_MEMORY
    · rw [if_pos htype]
      have : decode_object_id handle.object _ = some (i, generation) ↔ _ :=
        decode_object_id_iff (by decide)
      simp [ObjectName.type, ObjectName.index, htype, ← this]
    · rw [if_neg htype]
      simp [ObjectName.type, htype]
  | surface i =>
    by_cases htype : handle.type = KERNEL_HANDLE_TYPE_GRAPHICS_SURFACE
    · rw [if_neg (by rw [htype]; decide), if_pos htype]
      have : decode_object_id handle.object _ = some (i, generation) ↔ _ :=
        decode_object_id_iff (by decide)
      simp [ObjectName.type, ObjectName.index, htype, ← this]
    · rw [if_neg htype]
      split <;> simp [ObjectName.type, htype]

/-- The type and the id tell the objects apart. -/
theorem object_id_inj {y : ObjectName} {g g' : Nat} (htype : x.type = y.type)
    (hid : make_object_id x.index g = make_object_id y.index g') : x = y := by
  have hfits : ∀ z : ObjectName, z.index + 1 < 2 ^ 32 := by
    intro z
    cases z with
    | shared i => exact Nat.lt_of_le_of_lt (Nat.succ_le_of_lt i.isLt) (by decide)
    | surface i => exact Nat.lt_of_le_of_lt (Nat.succ_le_of_lt i.isLt) (by decide)
  have hindex : x.index + 1 = y.index + 1 := by
    have hx : make_object_id x.index g &&& (2 ^ 32 - 1) = x.index + 1 := pack_low (hfits x)
    have hy : make_object_id y.index g' &&& (2 ^ 32 - 1) = y.index + 1 := pack_low (hfits y)
    rw [← hx, ← hy, hid]
  cases x with
  | shared i =>
    cases y with
    | shared j => exact congrArg _ (Fin.ext (Nat.succ.inj hindex))
    | surface j => cases htype
  | surface i =>
    cases y with
    | shared j => cases htype
    | surface j => exact congrArg _ (Fin.ext (Nat.succ.inj hindex))

/-- The handle names an object that exists, by its current id. -/
def Current (o : KernelObjects) (handle : KernelHandle) (x : ObjectName) : Prop :=
  reference handle = some (x, (o.header x).generation) ∧ (o.header x).active ≠ 0

theorem object_from_id_iff {max_index : Nat} {header : Fin max_index → ObjectHeader}
    {object_id : Nat} {index : Fin max_index} (hmax : max_index < 2 ^ 32 - 1) :
    object_from_id header object_id = some index ↔
      object_id = make_object_id index (header index).generation ∧
        (header index).generation ≠ 0 ∧ (header index).active ≠ 0 := by
  constructor
  · intro h
    unfold object_from_id at h
    split at h
    · cases h
    rename_i i generation hdecode
    split at h
    · cases h
    rename_i hcurrent
    cases h
    obtain ⟨hactive, hgeneration⟩ := not_or.mp hcurrent
    obtain ⟨hid, hne⟩ := (decode_object_id_iff hmax).mp hdecode
    rw [not_not] at hgeneration
    rw [hgeneration]
    exact ⟨hid, hne, hactive⟩
  · rintro ⟨hid, hne, hactive⟩
    unfold object_from_id
    rw [(decode_object_id_iff hmax).mpr ⟨hid, hne⟩]
    exact if_neg (not_or.mpr ⟨hactive, not_not.mpr rfl⟩)

theorem current_shared_iff :
    Current o handle (.shared i) ↔ handle.type = KERNEL_HANDLE_TYPE_SHARED_MEMORY ∧
      shared_from_id o handle.object = some i := by
  unfold Current shared_from_id
  rw [reference_iff, object_from_id_iff (by decide)]
  simp only [and_assoc]
  rfl

variable {i : SurfaceIndex}

theorem current_surface_iff :
    Current o handle (.surface i) ↔ handle.type = KERNEL_HANDLE_TYPE_GRAPHICS_SURFACE ∧
      surface_from_id o handle.object = some i := by
  unfold Current surface_from_id
  rw [reference_iff, object_from_id_iff (by decide)]
  simp only [and_assoc]
  rfl

/-! ## Retain and release -/

/-- The objects with another header for one of them. -/
def KernelObjects.set_header (o : KernelObjects) (header : ObjectHeader) : ObjectName → KernelObjects
  | .shared i =>
    { o with shared_objects :=
        update o.shared_objects i { o.shared_objects i with toObjectHeader := header } }
  | .surface i =>
    { o with surface_objects :=
        update o.surface_objects i { o.surface_objects i with toObjectHeader := header } }

theorem header_set_shared (o : KernelObjects) (i : Fin KERNEL_SHARED_MEMORY_MAX_OBJECTS)
    (object : SharedMemoryObject) (allocated : List Nat) : KernelObjects.header
        { o with shared_objects := update o.shared_objects i object, allocated := allocated } =
      update o.header (.shared i) object.toObjectHeader := by
  funext x
  cases x with
  | shared j =>
    by_cases hj : j = i
    · subst hj
      simp [KernelObjects.header]
    · simp [KernelObjects.header, hj]
  | surface j => simp [KernelObjects.header]

theorem header_set_surface (o : KernelObjects) (i : SurfaceIndex)
    (object : GraphicsSurfaceObject) (backing_slots : SurfaceIndex → Bool) : KernelObjects.header
        { o with surface_objects := update o.surface_objects i object, backing_slots := backing_slots } =
      update o.header (.surface i) object.toObjectHeader := by
  funext x
  cases x with
  | shared j => simp [KernelObjects.header]
  | surface j =>
    by_cases hj : j = i
    · subst hj
      simp [KernelObjects.header]
    · simp [KernelObjects.header, hj]

theorem header_set_header (o : KernelObjects) (header : ObjectHeader) (x : ObjectName) :
    (o.set_header header x).header = update o.header x header := by
  cases x with
  | shared i => exact header_set_shared o i _ o.allocated
  | surface i => exact header_set_surface o i _ o.backing_slots

/-- A reference is taken on the object that the handle names. -/
theorem retain_cases {o' : KernelObjects} (h : kernel_object_retain_handle_object o handle = some o') :
    handle.active ∧ ∃ x, Current o handle x ∧
      o' = o.set_header (retain_header (o x)) x := by
  unfold kernel_object_retain_handle_object at h
  split at h
  · cases h
  rename_i hactive
  refine ⟨by simpa using hactive, ?_⟩
  split at h
  · rename_i htype
    obtain ⟨i, hi, rfl⟩ := Option.map_eq_some_iff.mp h
    exact ⟨.shared i, current_shared_iff.mpr ⟨htype, hi⟩, rfl⟩
  split at h
  · rename_i htype
    obtain ⟨i, hi, rfl⟩ := Option.map_eq_some_iff.mp h
    exact ⟨.surface i, current_surface_iff.mpr ⟨htype, hi⟩, rfl⟩
  · cases h

theorem retain_current (hc : Current o handle x) (hactive : handle.active) :
    kernel_object_retain_handle_object o handle =
      some (o.set_header (retain_header (o x)) x) := by
  unfold kernel_object_retain_handle_object
  rw [hactive, if_neg (by decide)]
  cases x with
  | shared i =>
    obtain ⟨htype, hfrom⟩ := current_shared_iff.mp hc
    rw [if_pos htype, hfrom]
    rfl
  | surface i =>
    obtain ⟨htype, hfrom⟩ := current_surface_iff.mp hc
    rw [if_neg (by rw [htype]; decide), if_pos htype, hfrom]
    rfl

/-- A handle whose reference does not exist has nothing to give back. -/
theorem release_of_not_counted (h : is_refcounted_object_type handle.type = false) :
    kernel_object_release_handle_object o handle = o := by
  unfold is_refcounted_object_type at h
  rw [Bool.or_eq_false_iff, beq_eq_false_iff_ne, beq_eq_false_iff_ne] at h
  unfold kernel_object_release_handle_object
  rw [if_neg h.1, if_neg h.2]

/-- A reference that is not the last one: only the header changes. -/
theorem release_kept (hc : Current o handle x) (hdrop : drop_reference (o x) = (false, header)) :
    kernel_object_release_handle_object o handle = o.set_header header x := by
  unfold kernel_object_release_handle_object
  cases x with
  | shared i =>
    obtain ⟨htype, hfrom⟩ := current_shared_iff.mp hc
    simp only [KernelObjects.header] at hdrop
    rw [if_pos htype, hfrom]
    simp only [release_shared_locked, hdrop]
    rfl
  | surface i =>
    obtain ⟨htype, hfrom⟩ := current_surface_iff.mp hc
    simp only [KernelObjects.header] at hdrop
    rw [if_neg (by rw [htype]; decide), if_pos htype, hfrom]
    simp only [release_surface_locked, hdrop]
    rfl

/-- A shared memory object without its last reference. -/
def clear_shared (o : KernelObjects) (i : Fin KERNEL_SHARED_MEMORY_MAX_OBJECTS)
    (header : ObjectHeader) : KernelObjects :=
  { o with shared_objects := update o.shared_objects i
             { toObjectHeader := header, size := 0, page_count := 0, rights := 0, bytes := 0 }
           allocated := o.allocated.erase (o.shared_objects i).bytes }

/-- A surface object without its last reference. -/
def clear_surface (o : KernelObjects) (i : SurfaceIndex)
    (header : ObjectHeader) : KernelObjects :=
  { o with surface_objects := update o.surface_objects i
             { toObjectHeader := header, byte_size := 0, page_count := 0, backing_slot := 0,
               surface := cleared_surface }
           backing_slots := kernel_graphics_surface_backing_release o.backing_slots
             (o.surface_objects i).backing_slot }

theorem release_last_shared (hc : Current o handle (.shared i)) (hbytes : (o.shared_objects i).bytes ≠ 0)
    (hdrop : drop_reference (o (.shared i)) = (true, header)) :
    kernel_object_release_handle_object o handle = clear_shared o i header := by
  obtain ⟨htype, hfrom⟩ := current_shared_iff.mp hc
  simp only [KernelObjects.header] at hdrop
  unfold kernel_object_release_handle_object
  rw [if_pos htype, hfrom]
  simp only [release_shared_locked, hdrop]
  exact if_pos hbytes

theorem release_last_surface
    (hc : Current o handle (.surface i)) (hdrop : drop_reference (o (.surface i)) = (true, header)) :
    kernel_object_release_handle_object o handle = clear_surface o i header := by
  obtain ⟨htype, hfrom⟩ := current_surface_iff.mp hc
  simp only [KernelObjects.header] at hdrop
  unfold kernel_object_release_handle_object
  rw [if_neg (by rw [htype]; decide), if_pos htype, hfrom]
  simp only [release_surface_locked, hdrop]
  rfl

theorem drop_reference_cases (hactive : header.active ≠ 0) (hcount : 0 < header.ref_count) :
    (1 < header.ref_count ∧ drop_reference header =
      (false, { header with ref_count := header.ref_count - 1 })) ∨
    (header.ref_count = 1 ∧ drop_reference header =
      (true, { header with active := 0, owner_pid := 0, ref_count := 0 })) := by
  unfold drop_reference
  rw [if_neg (by omega)]
  by_cases hlast : header.ref_count - 1 ≠ 0
  · left
    rw [if_pos hlast]
    exact ⟨by omega, rfl⟩
  · right
    rw [if_neg hlast]
    exact ⟨by omega, rfl⟩

/-! ## The memory behind the objects -/

/-- The buffers in use are those of the shared memory objects, each of one object, and
the backing slots in use are those of the surfaces. -/
structure Held (o : KernelObjects) : Prop where
  buffers : ∀ p, p ∈ o.allocated ↔
    ∃ i, (o.shared_objects i).active ≠ 0 ∧ (o.shared_objects i).bytes = p
  nodup : o.allocated.Nodup
  distinct : ∀ i j, (o.shared_objects i).active ≠ 0 → (o.shared_objects j).active ≠ 0 →
    (o.shared_objects i).bytes = (o.shared_objects j).bytes → i = j
  nonzero : ∀ i, (o.shared_objects i).active ≠ 0 → (o.shared_objects i).bytes ≠ 0
  slots : ∀ i, (o.surface_objects i).active ≠ 0 → (o.surface_objects i).backing_slot = i
  backed : ∀ i, o.backing_slots i ↔ (o.surface_objects i).active ≠ 0

theorem held_init : Held kernel_objects_init where
  buffers p := by simp [kernel_objects_init]
  nodup := List.nodup_nil
  distinct i j hi := absurd rfl hi
  nonzero i hi := absurd rfl hi
  slots i hi := absurd rfl hi
  backed i := by simp [kernel_objects_init]

/-- A header that is as active as it was leaves the memory as it is. -/
theorem Held.set_header (h : Held o)
    (hactive : header.active ≠ 0 ↔ (o x).active ≠ 0) : Held (o.set_header header x) := by
  cases x with
  | shared i =>
    have hsame : ∀ j, (((o.set_header header (.shared i)).shared_objects j).active ≠ 0 ↔
        (o.shared_objects j).active ≠ 0) ∧
        ((o.set_header header (.shared i)).shared_objects j).bytes = (o.shared_objects j).bytes := by
      intro j
      by_cases hj : j = i
      · subst hj
        simpa [KernelObjects.set_header, KernelObjects.header] using hactive
      · simp [KernelObjects.set_header, hj]
    refine ⟨fun p => ?_, h.nodup, fun j k hj hk heq => ?_, fun j hj => ?_, h.slots, h.backed⟩
    · simp only [hsame]
      exact h.buffers p
    · rw [(hsame j).2, (hsame k).2] at heq
      exact h.distinct j k ((hsame j).1.mp hj) ((hsame k).1.mp hk) heq
    · rw [(hsame j).2]
      exact h.nonzero j ((hsame j).1.mp hj)
  | surface i =>
    have hsame : ∀ j, (((o.set_header header (.surface i)).surface_objects j).active ≠ 0 ↔
        (o.surface_objects j).active ≠ 0) ∧
        ((o.set_header header (.surface i)).surface_objects j).backing_slot =
          (o.surface_objects j).backing_slot := by
      intro j
      by_cases hj : j = i
      · subst hj
        simpa [KernelObjects.set_header, KernelObjects.header] using hactive
      · simp [KernelObjects.set_header, hj]
    refine ⟨h.buffers, h.nodup, h.distinct, h.nonzero, fun j hj => ?_, fun j => ?_⟩
    · rw [(hsame j).2]
      exact h.slots j ((hsame j).1.mp hj)
    · rw [(hsame j).1]
      exact h.backed j

/-- The last reference of a shared memory object goes with its buffer. -/
theorem Held.without_shared (h : Held o)
    (hactive : (o.shared_objects i).active ≠ 0) (hheader : header.active = 0) :
    Held (clear_shared o i header) := by
  have hother : ∀ j, ((clear_shared o i header).shared_objects j).active ≠ 0 → j ≠ i := by
    rintro j hj rfl
    simp [clear_shared, hheader] at hj
  have hsame : ∀ j, j ≠ i →
      (clear_shared o i header).shared_objects j = o.shared_objects j := by
    intro j hj
    exact update_of_ne hj _ _
  refine ⟨fun p => ?_, h.nodup.erase _, fun j k hj hk heq => ?_, fun j hj => ?_, h.slots, h.backed⟩
  · refine Iff.trans (h.nodup.mem_erase_iff.trans (and_congr_right' (h.buffers p))) ?_
    constructor
    · rintro ⟨hp, j, hj, rfl⟩
      have hne : j ≠ i := fun hji => hp (by rw [hji])
      refine ⟨j, ?_, ?_⟩
      · rw [hsame j hne]
        exact hj
      · rw [hsame j hne]
    · rintro ⟨j, hj, rfl⟩
      have hne := hother j hj
      rw [hsame j hne] at hj ⊢
      exact ⟨fun heq => hne (h.distinct j i hj hactive heq), j, hj, rfl⟩
  · have hnj := hother j hj
    have hnk := hother k hk
    rw [hsame j hnj] at hj heq
    rw [hsame k hnk] at hk heq
    exact h.distinct j k hj hk heq
  · have hnj := hother j hj
    rw [hsame j hnj] at hj ⊢
    exact h.nonzero j hj

/-- The last reference of a surface goes with its backing slot. -/
theorem Held.without_surface (h : Held o)
    (hactive : (o.surface_objects i).active ≠ 0) (hheader : header.active = 0) :
    Held (clear_surface o i header) := by
  have hself : ((clear_surface o i header).surface_objects i).active = 0 := by
    simp [clear_surface, hheader]
  have hsame : ∀ j, j ≠ i →
      (clear_surface o i header).surface_objects j = o.surface_objects j := by
    intro j hj
    exact update_of_ne hj _ _
  have hslots : (clear_surface o i header).backing_slots =
      update o.backing_slots i false := by
    unfold clear_surface kernel_graphics_surface_backing_release
    simp only [h.slots i hactive, Fin.is_lt, dif_pos, Fin.eta]
  refine ⟨h.buffers, h.nodup, h.distinct, h.nonzero, fun j hj => ?_, fun j => ?_⟩
  · have hne : j ≠ i := by
      rintro rfl
      exact hj hself
    rw [hsame j hne] at hj ⊢
    exact h.slots j hj
  · rw [hslots]
    by_cases hji : j = i
    · subst hji
      simp [hself]
    · rw [update_of_ne hji, hsame j hji]
      exact h.backed j

/-- What a release of a current handle does to the headers and to the memory. -/
theorem Held.release (h : Held o) (hc : Current o handle x) (hcount : 0 < (o x).ref_count) :
    (kernel_object_release_handle_object o handle).header =
        update o.header x (drop_reference (o x)).2 ∧
      Held (kernel_object_release_handle_object o handle) := by
  rcases drop_reference_cases hc.2 hcount with ⟨-, hdrop⟩ | ⟨-, hdrop⟩
  · rw [release_kept hc hdrop, hdrop]
    exact ⟨header_set_header o _ x, h.set_header Iff.rfl⟩
  · cases x with
    | shared i =>
      rw [release_last_shared hc (h.nonzero i hc.2) hdrop, hdrop]
      exact ⟨header_set_shared o i _ _, h.without_shared hc.2 rfl⟩
    | surface i =>
      rw [release_last_surface hc hdrop, hdrop]
      exact ⟨header_set_surface o i _ _, h.without_surface hc.2 rfl⟩

end mini_kernel.object
