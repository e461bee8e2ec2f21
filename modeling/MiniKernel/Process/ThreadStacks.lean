-- The stacks of the threads of a process (thread_create_user). A slot of the arena is
-- chosen, a record is allocated, the slot is written into it, pages are mapped and a
-- region is registered, each as a step of its own, while other CPUs do the same and
-- threads exit and are joined.
import MiniKernel.Lib.Machine
import MiniKernel.Mm.Layout

open mini_kernel.lib mini_kernel.vm Function

namespace mini_kernel.thread

def PROCESS_TABLE_SIZE : Nat := 16
def THREADS_PER_PROCESS_MAX : Nat := 8
def THREAD_TABLE_SIZE : Nat := PROCESS_TABLE_SIZE * THREADS_PER_PROCESS_MAX
def USER_SLOT_SPAN : Nat := 0x00200000
def OS_THREAD_STACK_MIN : Nat := 4096
def OS_THREAD_STACK_MAX : Nat := 16384

/-- A record of the thread table. `used` is a thread id that is not zero; the last two
fields are those of its context. -/
structure Thread where
  used : Bool
  is_main : Bool
  active : Bool
  exited : Bool
  runtime_released : Bool
  user_stack_slot : Nat
  stack_base : Nat
  stack_page_count : Nat
deriving DecidableEq

def thread_record_zero : Thread := ⟨false, false, false, false, false, 0, 0, 0⟩

abbrev Record := Fin THREAD_TABLE_SIZE

/-- How far a call of `thread_create_user` is. -/
inductive Pc
  | idle
  | searched (page_count stack_slot : Nat)
  | allocated (thread : Record) (page_count stack_slot : Nat)
  | mapping (thread : Record) (page_count stack_slot mapped : Nat)
  | registering (thread : Record) (page_count stack_slot : Nat)
  | finishing (thread : Record) (page_count stack_slot : Nat)
  | unmapping (thread : Record) (stack_slot mapped : Nat)
  | discarding (thread : Record)
deriving DecidableEq

/-- The threads of one process. `pages` says for whose stack a page is mapped, and
`holding` how many pages a record has, once its slot is written. -/
structure State (n : Nat) where
  thread_table : Record → Thread
  thread_count : Nat
  code_base : Nat
  pages : Nat → Option Record
  holding : Record → Option Nat
  pc : Fin n → Pc

inductive Label (n : Nat)
  | create (c : Fin n) (stack_size : Nat)
  | next (c : Fin n) (succeeds : Bool)
  | exit (thread : Record)
  | release (thread : Record)
  | join (thread : Record)

/-! ## The arena -/

def stack_slot_span : Nat := (1 + OS_THREAD_STACK_MAX / VM_PAGE_SIZE) * VM_PAGE_SIZE
def arena_size : Nat := (THREADS_PER_PROCESS_MAX - 1) * stack_slot_span

/-- As the loader sets it. -/
def heap_limit (code_base : Nat) : Nat :=
  code_base + USER_SLOT_SPAN - (THREADS_PER_PROCESS_MAX - 1) * stack_slot_span

def guard_base (code_base stack_slot : Nat) : Nat :=
  code_base + USER_SLOT_SPAN - arena_size + stack_slot * stack_slot_span

def stack_base (code_base stack_slot : Nat) : Nat := guard_base code_base stack_slot + VM_PAGE_SIZE

def stack_page (code_base stack_slot page : Nat) : Nat := stack_base code_base stack_slot + page * VM_PAGE_SIZE

/-! ## The steps -/

section
variable {n : Nat}

def thread_stack_slot_available (s : State n) (slot : Nat) : Bool :=
  (List.finRange THREAD_TABLE_SIZE).all fun r =>
    let thread := s.thread_table r
    !(thread.used && !thread.is_main && thread.user_stack_slot == slot)

/-- The first slot that no record has. -/
def find_stack_slot (s : State n) : Option Nat :=
  (List.range (THREADS_PER_PROCESS_MAX - 1)).find? (thread_stack_slot_available s)

def free_record (s : State n) : Option Record :=
  (List.finRange THREAD_TABLE_SIZE).find? fun r => !(s.thread_table r).used

def new_record : Thread := { thread_record_zero with used := true, active := true }

def State.goto (s : State n) (c : Fin n) (pc : Pc) : State n := { s with pc := update s.pc c pc }

def State.put (s : State n) (r : Record) (thread : Thread) : State n :=
  { s with thread_table := update s.thread_table r thread }

def State.hold (s : State n) (r : Record) (held : Option Nat) : State n :=
  { s with holding := update s.holding r held }

/-- `address_space_unmap_free_range`: it stops at the first page that is not mapped. -/
def unmap_range (pages : Nat → Option Record) (address : Nat) : Nat → Nat → Option Record
  | 0 => pages
  | count + 1 =>
    match pages address with
    | none => pages
    | some _ => unmap_range (update pages address none) (address + VM_PAGE_SIZE) count

def thread_discard_record (s : State n) (r : Record) : State n :=
  { ((s.put r thread_record_zero).hold r none) with thread_count := s.thread_count - 1 }

/-- The next phase of a call. `succeeds` is whether what the phase asks for is there:
a record and its kernel stack, a block and its mapping, an entry for the region. -/
def next (s : State n) (c : Fin n) (succeeds : Bool) : Option (State n) :=
  match s.pc c with
  | .idle => none
  | .searched page_count stack_slot =>
    if THREADS_PER_PROCESS_MAX ≤ s.thread_count ∨ !succeeds then some (s.goto c .idle)
    else
      match free_record s with
      | none => some (s.goto c .idle)
      | some r =>
        some { ((s.put r new_record).goto c (.allocated r page_count stack_slot)) with
          thread_count := s.thread_count + 1 }
  | .allocated r page_count stack_slot =>
    if succeeds then
      let thread := { s.thread_table r with user_stack_slot := stack_slot }
      some (((s.put r thread).hold r (some 0)).goto c (.mapping r page_count stack_slot 0))
    else some ((thread_discard_record s r).goto c .idle)
  | .mapping r page_count stack_slot mapped =>
    if mapped = page_count then some (s.goto c (.registering r page_count stack_slot))
    else if succeeds then
      some { ((s.hold r (some (mapped + 1))).goto c (.mapping r page_count stack_slot (mapped + 1))) with
        pages := update s.pages (stack_page s.code_base stack_slot mapped) (some r) }
    else some (s.goto c (.unmapping r stack_slot mapped))
  | .registering r page_count stack_slot =>
    some (s.goto c (if succeeds then .finishing r page_count stack_slot
      else .unmapping r stack_slot page_count))
  | .finishing r page_count stack_slot =>
    let thread := { s.thread_table r with
      stack_base := stack_base s.code_base stack_slot, stack_page_count := page_count }
    some ((s.put r thread).goto c .idle)
  | .unmapping r stack_slot mapped =>
    some { ((s.hold r (some 0)).goto c (.discarding r)) with
      pages := unmap_range s.pages (stack_base s.code_base stack_slot) mapped }
  | .discarding r => some ((thread_discard_record s r).goto c .idle)

/-- A thread exits only after it was made ready, which is when its context has a stack. -/
def step (s : State n) : Label n → Option (State n)
  | .create c stack_size =>
    if s.pc c ≠ .idle then none
    else if stack_size < OS_THREAD_STACK_MIN ∨ OS_THREAD_STACK_MAX < stack_size ∨
        stack_size % VM_PAGE_SIZE ≠ 0 then some s
    else
      match find_stack_slot s with
      | none => some s
      | some stack_slot => some (s.goto c (.searched (stack_size / VM_PAGE_SIZE) stack_slot))
  | .next c succeeds => next s c succeeds
  | .exit r =>
    let thread := s.thread_table r
    if thread.active ∧ !thread.exited ∧ !thread.is_main ∧ thread.stack_base ≠ 0 then
      some (s.put r { thread with active := false, exited := true })
    else none
  | .release r =>
    let thread := s.thread_table r
    if thread.exited ∧ !thread.runtime_released ∧ !thread.is_main then
      some { ((s.put r { thread with stack_base := 0, stack_page_count := 0, runtime_released := true }).hold r
          (some 0)) with
        pages := unmap_range s.pages thread.stack_base thread.stack_page_count }
    else none
  | .join r =>
    let thread := s.thread_table r
    if thread.exited ∧ thread.runtime_released ∧ !thread.is_main then some (thread_discard_record s r)
    else none

/-- A process with its main thread only. -/
def start (n code_base : Nat) : State n where
  thread_table := update (fun _ => thread_record_zero) ⟨0, by decide⟩
    { new_record with is_main := true }
  thread_count := 1
  code_base := code_base
  pages := fun _ => none
  holding := fun _ => none
  pc := fun _ => .idle

def threads (n : Nat) : Machine (State n) (Label n) := .ofFun (fun s => ∃ code_base, s = start n code_base) step

end

end mini_kernel.thread
