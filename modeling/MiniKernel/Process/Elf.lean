-- ELF programs (kernel/process/userprog64.cpp and the image checks of
-- run_user_program_internal): from the bytes of a file to the range that the
-- loader maps for its linked addresses.
import MiniKernel.Lib.Bytes
import MiniKernel.Lib.Word
import MiniKernel.Mm.Layout

open mini_kernel.lib mini_kernel.vm

namespace mini_kernel.elf

def ELF64_EI_NIDENT : Nat := 16
def ELF64_CLASS_64 : Nat := 2
def ELF64_DATA_LSB : Nat := 1
def ELF64_VERSION_CURRENT : Nat := 1
def ELF64_OSABI_SYSTEM_V : Nat := 0
def ELF64_TYPE_EXEC : Nat := 2
def ELF64_MACHINE_X86_64 : Nat := 62
def ELF64_PT_LOAD : Nat := 1

/-- `sizeof(Elf64_Ehdr)` and `sizeof(Elf64_Phdr)`. -/
def EHDR_SIZE : Nat := 64
def PHDR_SIZE : Nat := 56

/-! ## Headers -/

/-- The fields of the file header that the loader reads. -/
structure Elf64_Ehdr where
  e_ident : List Nat
  e_type : Nat
  e_machine : Nat
  e_version : Nat
  e_entry : Nat
  e_phoff : Nat
  e_ehsize : Nat
  e_phentsize : Nat
  e_phnum : Nat

/-- The fields of a program header that the loader reads. -/
structure Elf64_Phdr where
  p_type : Nat
  p_offset : Nat
  p_vaddr : Nat
  p_filesz : Nat
  p_memsz : Nat

def readEhdr (image : Bytes) : Elf64_Ehdr where
  e_ident := (List.range ELF64_EI_NIDENT).map (byteAt image)
  e_type := leAt image 16 2
  e_machine := leAt image 18 2
  e_version := leAt image 20 4
  e_entry := leAt image 24 8
  e_phoff := leAt image 32 8
  e_ehsize := leAt image 52 2
  e_phentsize := leAt image 54 2
  e_phnum := leAt image 56 2

def readPhdr (image : Bytes) (at_ : Nat) : Elf64_Phdr where
  p_type := leAt image at_ 4
  p_offset := leAt image (at_ + 8) 8
  p_vaddr := leAt image (at_ + 16) 8
  p_filesz := leAt image (at_ + 32) 8
  p_memsz := leAt image (at_ + 40) 8

/-- The table of program headers, in the order of the file. -/
def phdrs (image : Bytes) (header : Elf64_Ehdr) : List Elf64_Phdr :=
  (List.range header.e_phnum).map fun i => readPhdr image (header.e_phoff + i * PHDR_SIZE)

/-! ## Checks -/

def elf64_has_magic (image : Bytes) : Bool :=
  if image.length < ELF64_EI_NIDENT then false
  else
    byteAt image 0 == 0x7F && byteAt image 1 == 0x45 && byteAt image 2 == 0x4C &&
      byteAt image 3 == 0x46

/-- The header of an image that the loader supports. -/
def elf64_validate_supported_image (image : Bytes) : Option Elf64_Ehdr :=
  if ¬ elf64_has_magic image ∨ image.length < EHDR_SIZE then none
  else
    let header := readEhdr image
    if header.e_ident.getD 4 0 ≠ ELF64_CLASS_64 then none
    else if header.e_ident.getD 5 0 ≠ ELF64_DATA_LSB then none
    else if header.e_ident.getD 6 0 ≠ ELF64_VERSION_CURRENT then none
    else if header.e_ident.getD 7 0 ≠ ELF64_OSABI_SYSTEM_V then none
    else if header.e_type ≠ ELF64_TYPE_EXEC then none
    else if header.e_machine ≠ ELF64_MACHINE_X86_64 then none
    else if header.e_version ≠ ELF64_VERSION_CURRENT then none
    else if header.e_ehsize ≠ EHDR_SIZE then none
    else if header.e_phnum = 0 then none
    else if header.e_phentsize ≠ PHDR_SIZE then none
    else if header.e_phoff > image.length then none
    else if u64 (header.e_phoff + header.e_phnum * PHDR_SIZE) > image.length then none
    else some header

/-- What the loop over the program headers gathers. -/
structure LoadInfo where
  load_count : Nat
  first_vaddr : Nat
  last_vaddr : Nat
  entry_covered : Bool
  deriving DecidableEq

/-- One turn of the loop: a header that is passed over, an error code, or a
segment that is counted. -/
def collect_segment (size e_entry : Nat) (info : LoadInfo) (phdr : Elf64_Phdr) :
    Except Nat LoadInfo :=
  if phdr.p_type ≠ ELF64_PT_LOAD then .ok info
  else if phdr.p_memsz = 0 then
    if phdr.p_filesz = 0 then .ok info else .error 2
  else if phdr.p_filesz > phdr.p_memsz then .error 3
  else if phdr.p_offset > size then .error 4
  else if u64 (phdr.p_offset + phdr.p_filesz) > size then .error 5
  else
    let seg_start := phdr.p_vaddr
    let seg_end := u64 (phdr.p_vaddr + phdr.p_memsz)
    if seg_end < seg_start then .error 6
    else .ok {
      load_count := u32 (info.load_count + 1)
      first_vaddr := if seg_start < info.first_vaddr then seg_start else info.first_vaddr
      last_vaddr := if seg_end > info.last_vaddr then seg_end else info.last_vaddr
      entry_covered :=
        if e_entry ≥ seg_start ∧ e_entry < seg_end then true else info.entry_covered }

def elf64_collect_load_info (image : Bytes) (header : Elf64_Ehdr) : Except Nat LoadInfo := do
  let info ← (phdrs image header).foldlM (collect_segment image.length header.e_entry)
    ⟨0, 0xFFFFFFFFFFFFFFFF, 0, false⟩
  if info.load_count = 0 then .error 7
  else if ¬ info.entry_covered then .error 8
  else .ok info

/-! ## Slots and the loader -/

def USER_SLOT0_CODE_BASE : Nat := 0x09000000
def USER_SLOT0_STACK_BASE : Nat := 0x09100000
def USER_SLOT_SPAN : Nat := 0x00200000
def USER_STACK_GUARD_PAGE_COUNT : Nat := 1
def USER_STACK_PAGE_COUNT : Nat := 4
def USER_PROGRAM_SLOT_COUNT : Nat := 16
def DRV_MAGIC : Nat := 0x5652443436534F

/-- The addresses of an execution slot, as `run_user_program_internal` lays
them out. -/
structure Slot where
  code_base : Nat
  stack_guard_base : Nat
  stack_base : Nat
  stack_top : Nat

def get_execution_slot_bases (slot_index : Nat) : Slot :=
  let code := USER_SLOT0_CODE_BASE + slot_index * USER_SLOT_SPAN
  let guard := USER_SLOT0_STACK_BASE + slot_index * USER_SLOT_SPAN
  let stack := guard + USER_STACK_GUARD_PAGE_COUNT * VM_PAGE_SIZE
  ⟨code, guard, stack, stack + USER_STACK_PAGE_COUNT * VM_PAGE_SIZE⟩

/-- What the loader keeps of an image that passed its checks. -/
structure Program where
  is_elf_image : Bool
  code_page_count : Nat
  entry_point : Nat
  elf_link_base : Nat
  elf_alias_page_count : Nat
  deriving DecidableEq

/-- The ELF branch of `run_user_program_internal`, up to where it maps. The error
is the code that goes with `PROCESS_TERM_LOAD_ERROR`. -/
def check_elf_image (slot : Slot) (image : Bytes) : Except Nat Program :=
  match elf64_validate_supported_image image with
  | none => .error 3
  | some header =>
    match elf64_collect_load_info image header with
    | .error _ => .error 4
    | .ok info =>
      let elf_load_size := u64 (info.last_vaddr + 2 ^ 64 - info.first_vaddr)
      if elf_load_size = 0 ∨ elf_load_size > slot.stack_base - slot.code_base then .error 5
      else if info.first_vaddr % VM_PAGE_SIZE ≠ 0 then .error 6
      else
        let code_page_count := u32 ((elf_load_size + VM_PAGE_SIZE - 1) / VM_PAGE_SIZE)
        .ok {
          is_elf_image := true
          code_page_count := code_page_count
          entry_point := u64 (slot.code_base + (header.e_entry + 2 ^ 64 - info.first_vaddr))
          elf_link_base := info.first_vaddr
          elf_alias_page_count := code_page_count }

/-- All the checks that `run_user_program_internal` makes of a file. -/
def check_program (slot : Slot) (image : Bytes) : Except Nat Program :=
  if image.length = 0 ∨ image.length > u32 (slot.stack_guard_base - slot.code_base) then .error 2
  else if image.length ≥ 8 ∧ leAt image 0 8 = DRV_MAGIC then .error 8
  else if elf64_has_magic image then check_elf_image slot image
  else if image.length > VM_PAGE_SIZE then .error 6
  else .ok ⟨false, 1, slot.code_base, 0, 0⟩

/-- The address of page `i` of the alias that `map_user_elf_alias` maps. -/
def alias_virt (program : Program) (i : Nat) : Nat :=
  u64 (program.elf_link_base + i * VM_PAGE_SIZE)

end mini_kernel.elf
