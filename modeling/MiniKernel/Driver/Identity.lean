-- Driver identities (include/kernel/driver/driver_manager.h): a slot of the driver
-- table and the generation of what is registered there.
import MiniKernel.Lib.Word

open mini_kernel.lib

namespace mini_kernel.driver

def DRIVER_MAX_RECORDS : Nat := 32

def DRIVER_MAX_RESOURCES : Nat := 128

def DRIVER_MAX_IRQ_HOOKS : Nat := 32

def DRIVER_IDENTITY_INVALID_SLOT : Nat := 0xFFFFFFFF

structure DriverIdentity where
  slot : Nat
  generation : Nat
deriving DecidableEq

/-- The results of driver calls, `DRIVER_LOAD_*`. -/
inductive DriverLoad
  | ok | bad_header | unsupported_abi | signature_required | policy_denied | no_slot | duplicate
  | out_of_memory | unresolved_import | unsupported_reloc | entry_failed | signature_invalid
  | signature_unsupported | unload_denied | exit_failed | missing_dependency | bind_denied
  | irq_denied | state_denied | stale_identity | resource_denied | context_denied
  | allocation_budget | allocation_denied | mmio_denied | mmio_range | mmio_cache | dma_denied
  | dma_mask | dma_sync | dma_isolation | quiesce_timeout
deriving DecidableEq

def driver_identity_invalid : DriverIdentity := ⟨DRIVER_IDENTITY_INVALID_SLOT, 0⟩

def driver_identity_is_valid (identity : DriverIdentity) : Bool :=
  decide (identity.slot < DRIVER_MAX_RECORDS) && identity.generation != 0

def driver_identity_equal (left right : DriverIdentity) : Bool :=
  left.slot == right.slot && left.generation == right.generation

def next_generation (generation : Nat) : Nat :=
  let generation := u32 (generation + 1)
  if generation ≠ 0 then generation else 1

theorem driver_identity_equal_iff {left right : DriverIdentity} :
    driver_identity_equal left right ↔ left = right := by
  cases left
  cases right
  simp [driver_identity_equal]

theorem next_generation_ne_zero (generation : Nat) : next_generation generation ≠ 0 := by
  unfold next_generation
  simp only
  split
  · assumption
  · decide

end mini_kernel.driver
