-- The virtual address layout and the page flags (include/kernel/mm/vm.h), and the physical
-- blocks (include/kernel/mm/pmm.h).
import Mathlib

namespace mini_kernel.vm

def VM_PAGE_SIZE : Nat := 4096

/-- The kernel heap, and the kernel's view of graphics surfaces. -/
def VM_KERNEL_HEAP_BASE : Nat := 0x40000000
def VM_KERNEL_HEAP_LIMIT : Nat := 0x60000000
def VM_KERNEL_SURFACE_BASE : Nat := 0x78000000
def VM_KERNEL_SURFACE_LIMIT : Nat := 0x80000000

def VM_FLAG_PRESENT : BitVec 64 := 0x001
def VM_FLAG_WRITABLE : BitVec 64 := 0x002
def VM_FLAG_USER : BitVec 64 := 0x004
def VM_FLAG_HUGE : BitVec 64 := 0x080
def VM_FLAG_NO_EXECUTE : BitVec 64 := 0x8000000000000000

end mini_kernel.vm

namespace mini_kernel.pmm

def PMM_PAGE_SIZE : Nat := 4096
def PMM_MAX_RAM_SIZE : Nat := 512 * 1024 * 1024
def PMM_TOTAL_BLOCKS : Nat := PMM_MAX_RAM_SIZE / PMM_PAGE_SIZE
def PMM_BITMAP_SIZE : Nat := PMM_TOTAL_BLOCKS / 8

end mini_kernel.pmm
