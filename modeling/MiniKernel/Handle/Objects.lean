-- The objects behind handles (kernel/handle/kernel_objects.cpp): shared memory and
-- graphics surfaces, each with a reference count. What the allocators answer and the
-- injected faults are given with each call.
import MiniKernel.Handle.Table
import MiniKernel.Mm.Layout

open mini_kernel.lib mini_kernel.handle mini_kernel.vm Function

namespace mini_kernel.object

def KERNEL_SHARED_MEMORY_MAX_OBJECTS : Nat := 16

def KERNEL_SHARED_MEMORY_MAX_PAGES : Nat := 64

def KERNEL_GRAPHICS_SURFACE_MAX_OBJECTS : Nat := 16

def KERNEL_GRAPHICS_SURFACE_MAX_PIXELS : Nat := 1920 * 1080

def KERNEL_GRAPHICS_SURFACE_BYTES_PER_PIXEL : Nat := 4

def KERNEL_GRAPHICS_SURFACE_MAX_PAGES : Nat :=
  (KERNEL_GRAPHICS_SURFACE_MAX_PIXELS * KERNEL_GRAPHICS_SURFACE_BYTES_PER_PIXEL + VM_PAGE_SIZE - 1) /
    VM_PAGE_SIZE

def OS64_PIXEL_FORMAT_RGB : Nat := 0

def OS64_PIXEL_FORMAT_BGR : Nat := 1

def GFX_SURFACE_FLAG_PAGE_BACKED : Nat := 4

structure GraphicsSurface where
  pixels : Nat
  width : Nat
  height : Nat
  stride_pixels : Nat
  pixel_format : Nat
  flags : Nat

/-- The fields that both kinds of objects begin with. -/
structure ObjectHeader where
  active : Nat
  generation : Nat
  owner_pid : Nat
  ref_count : Nat

structure SharedMemoryObject extends ObjectHeader where
  size : Nat
  page_count : Nat
  rights : U32
  bytes : Nat

structure GraphicsSurfaceObject extends ObjectHeader where
  byte_size : Nat
  page_count : Nat
  backing_slot : Nat
  surface : GraphicsSurface

abbrev SurfaceIndex := Fin KERNEL_GRAPHICS_SURFACE_MAX_OBJECTS

/-- The objects with the memory behind them: the buffers that `kmalloc` gave and
`kfree` did not get back, and the backing slots that have their pages. -/
structure KernelObjects where
  shared_objects : Fin KERNEL_SHARED_MEMORY_MAX_OBJECTS → SharedMemoryObject
  surface_objects : SurfaceIndex → GraphicsSurfaceObject
  allocated : List Nat
  backing_slots : SurfaceIndex → Bool

/-! ## Object ids -/

def make_object_id (index generation : Nat) : Nat := (generation <<< 32) ||| (index + 1)

def decode_object_id (object_id max_index : Nat) : Option (Fin max_index × Nat) :=
  if object_id &&& 0xFFFFFFFF = 0 then none
  else if h : (object_id &&& 0xFFFFFFFF) - 1 < max_index then
    let generation := object_id >>> 32
    if generation = 0 then none else some (⟨_, h⟩, generation)
  else none

def next_generation (generation : Nat) : Nat :=
  if u32 (generation + 1) = 0 then 1 else u32 (generation + 1)

def object_from_id {max_index : Nat} (header : Fin max_index → ObjectHeader) (object_id : Nat) :
    Option (Fin max_index) :=
  match decode_object_id object_id max_index with
  | none => none
  | some (index, generation) =>
    if (header index).active = 0 ∨ (header index).generation ≠ generation then none else some index

def shared_from_id (o : KernelObjects) (object_id : Nat) :
    Option (Fin KERNEL_SHARED_MEMORY_MAX_OBJECTS) :=
  object_from_id (fun i => (o.shared_objects i).toObjectHeader) object_id

def surface_from_id (o : KernelObjects) (object_id : Nat) :
    Option SurfaceIndex :=
  object_from_id (fun i => (o.surface_objects i).toObjectHeader) object_id

/-- The first object that is not in use. -/
def free_object {max_index : Nat} (header : Fin max_index → ObjectHeader) : Option (Fin max_index) :=
  (List.finRange max_index).find? fun i => (header i).active = 0

/-! ## Surfaces and their memory -/

/-- The surface that `clear_surface` leaves. -/
def cleared_surface : GraphicsSurface :=
  { pixels := 0, width := 0, height := 0, stride_pixels := 0, pixel_format := OS64_PIXEL_FORMAT_RGB,
    flags := 0 }

def gfx_surface_init (pixels width height stride_pixels pixel_format flags : Nat) :
    Option GraphicsSurface :=
  if pixels = 0 ∨ width = 0 ∨ height = 0 ∨ stride_pixels < width ∨ width > 0x7FFFFFFF ∨
      height > 0x7FFFFFFF ∨
      (pixel_format ≠ OS64_PIXEL_FORMAT_RGB ∧ pixel_format ≠ OS64_PIXEL_FORMAT_BGR) then none
  else some ⟨pixels, width, height, stride_pixels, pixel_format, flags⟩

def slot_virtual_base (slot : Nat) : Nat :=
  VM_KERNEL_SURFACE_BASE + slot * (KERNEL_GRAPHICS_SURFACE_MAX_PAGES * VM_PAGE_SIZE)

/-- The pixels and the number of pages; `pages` says whether the pages were available
and could be mapped. A failed allocation takes its own pages back. -/
def kernel_graphics_surface_backing_allocate
    (backing_slots : SurfaceIndex → Bool)
    (slot_index : SurfaceIndex) (byte_size : Nat) (pages : Bool) :
    Option ((SurfaceIndex → Bool) × Nat × Nat) :=
  let maximum_byte_size :=
    KERNEL_GRAPHICS_SURFACE_MAX_PIXELS * KERNEL_GRAPHICS_SURFACE_BYTES_PER_PIXEL
  if byte_size = 0 ∨ byte_size > maximum_byte_size then none
  else
    let page_count := (byte_size + VM_PAGE_SIZE - 1) / VM_PAGE_SIZE
    if page_count = 0 ∨ page_count > KERNEL_GRAPHICS_SURFACE_MAX_PAGES ∨ backing_slots slot_index then
      none
    else if !pages then none
    else some (update backing_slots slot_index true, slot_virtual_base slot_index, page_count)

def kernel_graphics_surface_backing_release
    (backing_slots : SurfaceIndex → Bool) (slot_index : Nat) :
    SurfaceIndex → Bool :=
  if h : slot_index < KERNEL_GRAPHICS_SURFACE_MAX_OBJECTS then
    update backing_slots ⟨slot_index, h⟩ false
  else backing_slots

/-! ## References -/

/-- One reference less; true if it was the last one. -/
def drop_reference (header : ObjectHeader) : Bool × ObjectHeader :=
  if header.active = 0 ∨ header.ref_count = 0 then (false, header)
  else if header.ref_count - 1 ≠ 0 then (false, { header with ref_count := header.ref_count - 1 })
  else (true, { header with active := 0, owner_pid := 0, ref_count := 0 })

/-- The buffer to be freed, or 0. -/
def release_shared_locked (object : SharedMemoryObject) : Nat × SharedMemoryObject :=
  match drop_reference object.toObjectHeader with
  | (false, header) => (0, { object with toObjectHeader := header })
  | (true, header) =>
    (object.bytes, { toObjectHeader := header, size := 0, page_count := 0, rights := 0, bytes := 0 })

/-- The backing slot to be released, if there is one. -/
def release_surface_locked (object : GraphicsSurfaceObject) : Option Nat × GraphicsSurfaceObject :=
  match drop_reference object.toObjectHeader with
  | (false, header) => (none, { object with toObjectHeader := header })
  | (true, header) =>
    (some object.backing_slot,
      { toObjectHeader := header, byte_size := 0, page_count := 0, backing_slot := 0,
        surface := cleared_surface })

def is_refcounted_object_type (type : Nat) : Bool :=
  type == KERNEL_HANDLE_TYPE_SHARED_MEMORY || type == KERNEL_HANDLE_TYPE_GRAPHICS_SURFACE

def kfree (o : KernelObjects) (bytes : Nat) : KernelObjects :=
  { o with allocated := o.allocated.erase bytes }

def retain_header (header : ObjectHeader) : ObjectHeader :=
  { header with ref_count := u32 (header.ref_count + 1) }

/-- The objects after one more reference, if the handle names one that exists. -/
def kernel_object_retain_handle_object (o : KernelObjects) (handle : KernelHandle) :
    Option KernelObjects :=
  if !handle.active then none
  else if handle.type = KERNEL_HANDLE_TYPE_SHARED_MEMORY then
    (shared_from_id o handle.object).map fun i =>
      let header := retain_header (o.shared_objects i).toObjectHeader
      { o with shared_objects :=
          update o.shared_objects i { o.shared_objects i with toObjectHeader := header } }
  else if handle.type = KERNEL_HANDLE_TYPE_GRAPHICS_SURFACE then
    (surface_from_id o handle.object).map fun i =>
      let header := retain_header (o.surface_objects i).toObjectHeader
      { o with surface_objects :=
          update o.surface_objects i { o.surface_objects i with toObjectHeader := header } }
  else none

/-- Handles of the other types have their objects elsewhere. -/
def kernel_object_release_handle_object (o : KernelObjects) (handle : KernelHandle) :
    KernelObjects :=
  if handle.type = KERNEL_HANDLE_TYPE_SHARED_MEMORY then
    match shared_from_id o handle.object with
    | none => o
    | some i =>
      let (bytes, object) := release_shared_locked (o.shared_objects i)
      let o := { o with shared_objects := update o.shared_objects i object }
      if bytes ≠ 0 then kfree o bytes else o
  else if handle.type = KERNEL_HANDLE_TYPE_GRAPHICS_SURFACE then
    match surface_from_id o handle.object with
    | none => o
    | some i =>
      let (backing_slot, object) := release_surface_locked (o.surface_objects i)
      let o := { o with surface_objects := update o.surface_objects i object }
      match backing_slot with
      | none => o
      | some slot =>
        { o with backing_slots := kernel_graphics_surface_backing_release o.backing_slots slot }
  else o

/-! ## Handles to objects -/

/-- A handle for a reference that is held; without one the reference is given back. -/
def alloc_or_release (o : KernelObjects) (table : KernelHandleTable) (held : KernelHandle)
    (rights : U32) (extra : Nat) (fault : Bool) : Nat × KernelObjects × KernelHandleTable :=
  let (handle, table) := kernel_handle_alloc table held.type rights held.object extra fault
  if handle = 0 then (0, kernel_object_release_handle_object o held, table)
  else (handle, o, table)

/-- The handle by which a new object is given back. -/
def failed_handle (type object_id : Nat) : KernelHandle :=
  { active := true, type := type, rights := 0, generation := 0, object := object_id, extra := 0 }

/-- `bytes` is what `kmalloc` returns; `handle_fault` is a fault in the allocation of
the handle. -/
def kernel_shared_memory_create (o : KernelObjects) (table : KernelHandleTable)
    (owner_pid size : Nat) (rights : U32) (fault : Bool) (bytes : Nat) (handle_fault : Bool) :
    Nat × KernelObjects × KernelHandleTable :=
  if size = 0 then (0, o, table)
  else
    let page_count := u32 ((size + VM_PAGE_SIZE - 1) / VM_PAGE_SIZE)
    if page_count = 0 ∨ page_count > KERNEL_SHARED_MEMORY_MAX_PAGES then (0, o, table)
    else if fault then (0, o, table)
    else if bytes = 0 then (0, o, table)
    else
      let byte_size := u32 (page_count * VM_PAGE_SIZE)
      let o := { o with allocated := bytes :: o.allocated }
      match free_object fun i => (o.shared_objects i).toObjectHeader with
      | none => (0, kfree o bytes, table)
      | some i =>
        let generation := next_generation (o.shared_objects i).generation
        let object : SharedMemoryObject :=
          { active := 1, generation, owner_pid, ref_count := 1, size, page_count, rights, bytes }
        let o := { o with shared_objects := update o.shared_objects i object }
        alloc_or_release o table
          (failed_handle KERNEL_HANDLE_TYPE_SHARED_MEMORY (make_object_id i generation)) rights
          byte_size handle_fault

/-- The state of a surface object while its memory is allocated. -/
def set_surface_active (o : KernelObjects) (i : SurfaceIndex)
    (active : Nat) : KernelObjects :=
  { o with surface_objects :=
      update o.surface_objects i { o.surface_objects i with active := active } }

/-- A reserved object is given up again, with the memory it has. -/
def unreserve_surface (o : KernelObjects) (i : SurfaceIndex) :
    KernelObjects :=
  set_surface_active
    { o with backing_slots := kernel_graphics_surface_backing_release o.backing_slots i } i 0

/-- `pages` says whether the pages were available; `handle_fault` is a fault in the
allocation of the handle. -/
def kernel_graphics_surface_create (o : KernelObjects) (table : KernelHandleTable)
    (owner_pid width height pixel_format : Nat) (rights : U32) (pages handle_fault : Bool) :
    Nat × KernelObjects × KernelHandleTable :=
  if width = 0 ∨ height = 0 ∨
      (pixel_format ≠ OS64_PIXEL_FORMAT_RGB ∧ pixel_format ≠ OS64_PIXEL_FORMAT_BGR) ∨
      width > KERNEL_GRAPHICS_SURFACE_MAX_PIXELS / height then (0, o, table)
  else
    let pixel_count := u32 (width * height)
    if pixel_count > KERNEL_GRAPHICS_SURFACE_MAX_PIXELS then (0, o, table)
    else
      let byte_size := u32 (pixel_count * 4)
      match free_object fun i => (o.surface_objects i).toObjectHeader with
      | none => (0, o, table)
      | some i =>
        let o := set_surface_active o i 2
        match kernel_graphics_surface_backing_allocate o.backing_slots i byte_size pages with
        | none => (0, unreserve_surface o i, table)
        | some (backing_slots, pixels, page_count) =>
          let o := { o with backing_slots := backing_slots }
          match gfx_surface_init pixels width height width pixel_format
              GFX_SURFACE_FLAG_PAGE_BACKED with
          | none => (0, unreserve_surface o i, table)
          | some surface =>
            let generation := next_generation (o.surface_objects i).generation
            let object : GraphicsSurfaceObject :=
              { active := 1, generation, owner_pid, ref_count := 1, byte_size, page_count,
                backing_slot := i, surface }
            let o := { o with surface_objects := update o.surface_objects i object }
            alloc_or_release o table
              (failed_handle KERNEL_HANDLE_TYPE_GRAPHICS_SURFACE (make_object_id i generation)) rights
              byte_size handle_fault

def kernel_object_clone_handle_with_rights (o : KernelObjects) (target_table : KernelHandleTable)
    (source : KernelHandle) (rights : U32) (fault : Bool) :
    Nat × KernelObjects × KernelHandleTable :=
  if !source.active then (0, o, target_table)
  else if rights = 0 ∨ rights &&& ~~~source.rights ≠ 0 then (0, o, target_table)
  else if !is_refcounted_object_type source.type then (0, o, target_table)
  else match kernel_object_retain_handle_object o source with
  | none => (0, o, target_table)
  | some o => alloc_or_release o target_table source rights source.extra fault

/-- The closed entry comes with the result; nothing if the token does not resolve. -/
def kernel_object_close_handle (o : KernelObjects) (table : KernelHandleTable) (handle : Nat) :
    Option KernelHandle × KernelObjects × KernelHandleTable :=
  match kernel_handle_close table handle with
  | none => (none, o, table)
  | some (closed, table) => (some closed, kernel_object_release_handle_object o closed, table)

def kernel_object_release_table (o : KernelObjects) (table : KernelHandleTable) :
    Nat × KernelObjects × KernelHandleTable :=
  let (detached, table) := kernel_handle_detach_all table
  (detached.length, detached.foldl kernel_object_release_handle_object o, table)

/-- The objects after `kernel_objects_init`, with no memory in use. -/
def kernel_objects_init : KernelObjects :=
  { shared_objects := fun _ =>
      { active := 0, generation := 0, owner_pid := 0, ref_count := 0, size := 0, page_count := 0,
        rights := 0, bytes := 0 }
    surface_objects := fun _ =>
      { active := 0, generation := 0, owner_pid := 0, ref_count := 0, byte_size := 0,
        page_count := 0, backing_slot := 0, surface := cleared_surface }
    allocated := []
    backing_slots := fun _ => false }

end mini_kernel.object
