-- The address arena of driver images (kernel/driver/driver_va.cpp). Free addresses are a
-- table of extents in address order; an allocation takes the front of the first extent
-- that is long enough, and a release puts the range back and joins it to its
-- neighbours. Statistics are left out, and the spinlock is taken as acquired.
import MiniKernel.Driver.Identity
import MiniKernel.Mm.Layout

open mini_kernel.lib mini_kernel.vm mini_kernel.driver

namespace mini_kernel.driver_va

def DRIVER_IMAGE_VA_BASE : Nat := 0x70000000

def DRIVER_IMAGE_VA_LIMIT : Nat := 0x78000000

def DRIVER_IMAGE_VA_GUARD_PAGES : Nat := 1

def DRIVER_IMAGE_VA_MAX_ALLOCATIONS : Nat := DRIVER_MAX_RESOURCES

def DRIVER_IMAGE_VA_MAX_EXTENTS : Nat := DRIVER_IMAGE_VA_MAX_ALLOCATIONS + 1

structure DriverVaExtent where
  base : Nat
  page_count : Nat
deriving DecidableEq

/-- A record; its slot is its place in the table. -/
structure DriverVaRecord where
  active : Bool
  quarantined : Bool
  guard_pages : Nat
  generation : Nat
  owner : DriverIdentity
  reserved_base : Nat
  usable_base : Nat
  reserved_pages : Nat
  usable_pages : Nat

structure DriverVaHandle where
  slot : Nat
  generation : Nat
deriving DecidableEq

/-- The statics of the arena. `free_extents` are the first `g_free_extent_count` entries
of `g_free_extents`. -/
structure Arena where
  free_extents : List DriverVaExtent
  allocations : Fin DRIVER_IMAGE_VA_MAX_ALLOCATIONS → DriverVaRecord
  arena_base : Nat
  arena_limit : Nat
  guard_pages : Nat
  initialized : Bool

def extent_end (extent : DriverVaExtent) : Nat := extent.base + extent.page_count * VM_PAGE_SIZE

def emptyRecord (generation : Nat) : DriverVaRecord :=
  { active := false, quarantined := false, guard_pages := 0, generation := generation
    owner := ⟨0, 0⟩, reserved_base := 0, usable_base := 0, reserved_pages := 0, usable_pages := 0 }

def initialize_arena (a : Arena) (base limit guard_pages : Nat) : Arena :=
  if base % VM_PAGE_SIZE ≠ 0 ∨ limit % VM_PAGE_SIZE ≠ 0 ∨ limit ≤ base then a
  else
    let pages := (limit - base) / VM_PAGE_SIZE
    if pages = 0 ∨ pages > 0xFFFFFFFF ∨ guard_pages > 0x7FFF then a
    else
      { free_extents := [⟨base, pages⟩]
        allocations := fun i => emptyRecord (a.allocations i).generation
        arena_base := base
        arena_limit := limit
        guard_pages := guard_pages
        initialized := true }

def driver_image_va_init (a : Arena) : Arena :=
  initialize_arena a DRIVER_IMAGE_VA_BASE DRIVER_IMAGE_VA_LIMIT DRIVER_IMAGE_VA_GUARD_PAGES

/-- The slot of a handle with a generation. -/
def driver_image_va_handle_is_valid (handle : DriverVaHandle) :
    Option (Fin DRIVER_IMAGE_VA_MAX_ALLOCATIONS) :=
  if h : handle.slot < DRIVER_IMAGE_VA_MAX_ALLOCATIONS then
    if handle.generation ≠ 0 then some ⟨handle.slot, h⟩ else none
  else none

def resolve_locked (a : Arena) (owner : DriverIdentity) (handle : DriverVaHandle) :
    Option (Fin DRIVER_IMAGE_VA_MAX_ALLOCATIONS) :=
  match driver_image_va_handle_is_valid handle with
  | none => none
  | some i =>
    if !(a.allocations i).active || (a.allocations i).generation ≠ handle.generation ||
        !driver_identity_equal (a.allocations i).owner owner then none
    else some i

/-- What a call finds outside of the arena: whether the driver manager has the owner as
live and takes resources for it, and an injected fault. -/
structure Answers where
  live : Bool
  accepts : Bool
  fault : Bool

/-- The extents after the first `reserved` pages of one are taken. -/
def shrink_extent (l : List DriverVaExtent) (index reserved : Nat) (extent : DriverVaExtent) :
    List DriverVaExtent :=
  if extent.page_count - reserved = 0 then l.eraseIdx index
  else l.set index ⟨extent.base + reserved * VM_PAGE_SIZE, extent.page_count - reserved⟩

def driver_image_va_allocate (a : Arena) (env : Answers) (owner : DriverIdentity)
    (page_count : Nat) : Except DriverLoad (DriverVaHandle × Nat) × Arena :=
  if !a.initialized || !driver_identity_is_valid owner || page_count = 0 then
    (.error .bad_header, a)
  else if !env.live then (.error .stale_identity, a)
  else if !env.accepts then (.error .state_denied, a)
  else
    let reserved := page_count + a.guard_pages * 2
    if reserved > 0xFFFFFFFF then (.error .out_of_memory, a)
    else
      let record :=
        if env.fault then none
        else (List.finRange DRIVER_IMAGE_VA_MAX_ALLOCATIONS).find? fun i => !(a.allocations i).active
      match record, a.free_extents.findIdx? fun e => decide (reserved ≤ e.page_count) with
      | some i, some index =>
        match a.free_extents[index]? with
        | none => (.error .out_of_memory, a)
        | some extent =>
          let generation := next_generation (a.allocations i).generation
          let usable_base := extent.base + a.guard_pages * VM_PAGE_SIZE
          let record : DriverVaRecord :=
            { active := true, quarantined := false, guard_pages := a.guard_pages % 2 ^ 16
              generation := generation, owner := owner, reserved_base := extent.base
              usable_base := usable_base, reserved_pages := reserved, usable_pages := page_count }
          (.ok (⟨i, generation⟩, usable_base),
            { a with
              free_extents := shrink_extent a.free_extents index reserved extent
              allocations := Function.update a.allocations i record })
      | _, _ => (.error .out_of_memory, a)

/-- Joins a range to the extent that ends where it begins. -/
def merge_previous (before : List DriverVaExtent) (extent : DriverVaExtent) :
    List DriverVaExtent × DriverVaExtent :=
  match before.getLast? with
  | none => (before, extent)
  | some previous =>
    if extent_end previous = extent.base then
      (before.dropLast, ⟨previous.base, u32 (previous.page_count + extent.page_count)⟩)
    else (before, extent)

/-- Joins a range to the extent that begins where it ends. -/
def merge_next (extent : DriverVaExtent) : List DriverVaExtent → List DriverVaExtent
  | [] => [extent]
  | next :: after =>
    if extent_end extent = next.base then
      ⟨extent.base, u32 (extent.page_count + next.page_count)⟩ :: after
    else extent :: next :: after

def insert_extent_locked (a : Arena) (base page_count : Nat) : Option (List DriverVaExtent) :=
  if page_count = 0 ∨ a.free_extents.length ≥ DRIVER_IMAGE_VA_MAX_EXTENTS then none
  else
    let size := page_count * VM_PAGE_SIZE
    if base < a.arena_base ∨ base > a.arena_limit ∨ size > a.arena_limit - base then none
    else
      -- The extents below the range and those above it.
      let before := a.free_extents.takeWhile fun e => decide (e.base < base)
      let after := a.free_extents.dropWhile fun e => decide (e.base < base)
      if (∃ e ∈ before.getLast?, extent_end e > base) ∨ ∃ e ∈ after.head?, base + size > e.base then
        none
      else
        let (before, extent) := merge_previous before ⟨base, page_count⟩
        some (before ++ merge_next extent after)

def driver_image_va_release (a : Arena) (owner : DriverIdentity) (handle : DriverVaHandle) :
    DriverLoad × Arena :=
  if !driver_identity_is_valid owner || (driver_image_va_handle_is_valid handle).isNone then
    (.bad_header, a)
  else
    match resolve_locked a owner handle with
    | none => (.resource_denied, a)
    | some i =>
      let record := a.allocations i
      if record.quarantined then (.resource_denied, a)
      else
        match insert_extent_locked a record.reserved_base record.reserved_pages with
        | none => (.resource_denied, a)
        | some free_extents =>
          (.ok,
            { a with
              free_extents := free_extents
              allocations := Function.update a.allocations i
                { record with
                  active := false, owner := driver_identity_invalid, reserved_base := 0
                  usable_base := 0, reserved_pages := 0, usable_pages := 0 } })

def driver_image_va_quarantine (a : Arena) (owner : DriverIdentity) (handle : DriverVaHandle) :
    DriverLoad × Arena :=
  match resolve_locked a owner handle with
  | none => (.resource_denied, a)
  | some i =>
    (.ok, { a with allocations :=
      Function.update a.allocations i { a.allocations i with quarantined := true } })

end mini_kernel.driver_va
