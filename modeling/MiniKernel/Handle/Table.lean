-- Handle tables (kernel/handle/kernel_handle.cpp). A handle is a token that packs a
-- slot of the table with a generation, so that a token of a closed handle is stale.
-- An injected fault is given with the call.
import MiniKernel.Lib.Word

open mini_kernel.lib Function

namespace mini_kernel.handle

def KERNEL_HANDLE_TABLE_SIZE : Nat := 32

def OS_HANDLE_TOKEN_SLOT_BITS : Nat := 8

def OS_HANDLE_TOKEN_SLOT_MASK : Nat := 0xFF

def OS_HANDLE_TOKEN_GENERATION_MAX : Nat := 0x00FFFFFF

def KERNEL_HANDLE_TYPE_NONE : Nat := 0

def KERNEL_HANDLE_TYPE_SHARED_MEMORY : Nat := 3

def KERNEL_HANDLE_TYPE_GRAPHICS_SURFACE : Nat := 4

def KERNEL_HANDLE_RIGHT_READ : U32 := 0x00000001

def KERNEL_HANDLE_RIGHT_MAP : U32 := 0x00000010

def KERNEL_HANDLE_RIGHT_TRANSFER : U32 := 0x00000020

/-- The `SYS_ERR_*` of a token that does not resolve. -/
inductive HandleError
  | invalid_handle | stale_handle | wrong_handle_type | permission_denied
  deriving DecidableEq

structure KernelHandle where
  active : Bool
  type : Nat
  rights : U32
  generation : Nat
  object : Nat
  extra : Nat
  deriving DecidableEq

abbrev HandleSlot := Fin KERNEL_HANDLE_TABLE_SIZE

structure KernelHandleTable where
  next_generation : Nat
  active_count : Nat
  entries : HandleSlot → KernelHandle

/-! ## Tokens -/

def encode_handle_token (slot generation : Nat) : Nat :=
  (generation <<< OS_HANDLE_TOKEN_SLOT_BITS) ||| (slot + 1)

def decode_handle_token (handle : Nat) : Option (HandleSlot × Nat) :=
  if handle &&& OS_HANDLE_TOKEN_SLOT_MASK = 0 ∨ handle > 0xFFFFFFFF then none
  else if h : (handle &&& OS_HANDLE_TOKEN_SLOT_MASK) - 1 < KERNEL_HANDLE_TABLE_SIZE then
    let generation := handle >>> OS_HANDLE_TOKEN_SLOT_BITS
    if generation = 0 then none else some (⟨_, h⟩, generation)
  else none

/-- `table->next_generation++` with the wrap that follows it. -/
def advance_generation (table : KernelHandleTable) : KernelHandleTable :=
  let next := u32 (table.next_generation + 1)
  { table with next_generation := if next = 0 ∨ next > OS_HANDLE_TOKEN_GENERATION_MAX then 1 else next }

/-- The call is repeated once if the generation was 0: it is 1 then. -/
def next_generation (table : KernelHandleTable) : Nat × KernelHandleTable :=
  if table.next_generation = 0 then
    ((advance_generation table).next_generation, advance_generation (advance_generation table))
  else (table.next_generation, advance_generation table)

/-! ## The operations of a table -/

def resolve_unlocked_result (table : KernelHandleTable) (handle expected_type : Nat)
    (required_rights : U32) : Except HandleError HandleSlot :=
  match decode_handle_token handle with
  | none => .error .invalid_handle
  | some (slot, generation) =>
    let entry := table.entries slot
    if !entry.active ∨ entry.generation ≠ generation then .error .stale_handle
    else if expected_type ≠ KERNEL_HANDLE_TYPE_NONE ∧ entry.type ≠ expected_type then
      .error .wrong_handle_type
    else if entry.rights &&& required_rights ≠ required_rights then .error .permission_denied
    else .ok slot

def resolve_unlocked (table : KernelHandleTable) (handle expected_type : Nat)
    (required_rights : U32) : Option HandleSlot :=
  (resolve_unlocked_result table handle expected_type required_rights).toOption

/-- An entry after `kernel_handle_table_init`. -/
def empty_entry : KernelHandle :=
  { active := false, type := KERNEL_HANDLE_TYPE_NONE, rights := 0, generation := 0, object := 0,
    extra := 0 }

def kernel_handle_table_init : KernelHandleTable :=
  { next_generation := 1, active_count := 0, entries := fun _ => empty_entry }

/-- The first slot that is not active. -/
def free_slot (table : KernelHandleTable) : Option HandleSlot :=
  (List.finRange KERNEL_HANDLE_TABLE_SIZE).find? fun i => !(table.entries i).active

/-- The token and the table; the token is 0 if there is no handle. -/
def kernel_handle_alloc (table : KernelHandleTable) (type : Nat) (rights : U32)
    (object extra : Nat) (fault : Bool) : Nat × KernelHandleTable :=
  if type = KERNEL_HANDLE_TYPE_NONE then (0, table)
  else if fault then (0, table)
  else match free_slot table with
  | none => (0, table)
  | some i =>
    let (generation, table) := next_generation table
    let entry : KernelHandle :=
      { active := true, type := type % 2 ^ 8, rights, generation, object, extra }
    (encode_handle_token i generation, { table with
      entries := update table.entries i entry
      active_count := u32 (table.active_count + 1) })

def kernel_handle_resolve_copy (table : KernelHandleTable) (handle expected_type : Nat)
    (required_rights : U32) : Option KernelHandle :=
  (resolve_unlocked table handle expected_type required_rights).map table.entries

/-- A closed entry keeps its generation. -/
def close_entry (entry : KernelHandle) : KernelHandle :=
  { entry with active := false, type := KERNEL_HANDLE_TYPE_NONE, rights := 0, object := 0, extra := 0 }

/-- The closed entry and the table; nothing if the token does not resolve. -/
def kernel_handle_close (table : KernelHandleTable) (handle : Nat) :
    Option (KernelHandle × KernelHandleTable) :=
  (resolve_unlocked table handle KERNEL_HANDLE_TYPE_NONE 0).map fun slot =>
    (table.entries slot, { table with
      entries := update table.entries slot (close_entry (table.entries slot))
      active_count := table.active_count - 1 })

/-- One turn of the loop of `kernel_handle_detach_all`. -/
def detach_slot (s : List KernelHandle × KernelHandleTable) (i : HandleSlot) :
    List KernelHandle × KernelHandleTable :=
  if (s.2.entries i).active then
    (s.1 ++ [s.2.entries i],
      { s.2 with entries := update s.2.entries i (close_entry (s.2.entries i)) })
  else s

/-- The entries that were active, and the empty table. -/
def kernel_handle_detach_all (table : KernelHandleTable) : List KernelHandle × KernelHandleTable :=
  let (detached, table) := (List.finRange KERNEL_HANDLE_TABLE_SIZE).foldl detach_slot ([], table)
  (detached, { table with active_count := 0 })

/-! ## What they do -/

/-- A table hands out the generations 1 to the largest. -/
def KernelHandleTable.Valid (table : KernelHandleTable) : Prop :=
  1 ≤ table.next_generation ∧ table.next_generation ≤ OS_HANDLE_TOKEN_GENERATION_MAX

theorem valid_init : kernel_handle_table_init.Valid := by
  constructor <;> decide

section
variable (slot : HandleSlot)
include slot

theorem slot_fits : (slot : Nat) + 1 < 2 ^ OS_HANDLE_TOKEN_SLOT_BITS := by
  have := slot.isLt
  unfold KERNEL_HANDLE_TABLE_SIZE at this
  unfold OS_HANDLE_TOKEN_SLOT_BITS
  omega

theorem encode_ne_zero (generation : Nat) : encode_handle_token slot generation ≠ 0 := by
  have : (slot : Nat) + 1 ≤ encode_handle_token slot generation := Nat.right_le_or
  omega

theorem encode_le {generation : Nat} (hmax : generation ≤ OS_HANDLE_TOKEN_GENERATION_MAX) :
    encode_handle_token slot generation ≤ 0xFFFFFFFF := by
  have hslot := slot_fits slot
  unfold encode_handle_token
  rw [← Nat.shiftLeft_add_eq_or_of_lt hslot, Nat.shiftLeft_eq]
  unfold OS_HANDLE_TOKEN_SLOT_BITS at *
  unfold OS_HANDLE_TOKEN_GENERATION_MAX at hmax
  omega

theorem decode_encode {generation : Nat}
    (hpos : 1 ≤ generation) (hmax : generation ≤ OS_HANDLE_TOKEN_GENERATION_MAX) :
    decode_handle_token (encode_handle_token slot generation) = some (slot, generation) := by
  have hslot := slot_fits slot
  have hlow : encode_handle_token slot generation &&& OS_HANDLE_TOKEN_SLOT_MASK = slot + 1 :=
    pack_low hslot
  have hhigh : encode_handle_token slot generation >>> OS_HANDLE_TOKEN_SLOT_BITS = generation :=
    pack_high hslot
  have hle := encode_le slot hmax
  unfold decode_handle_token
  rw [hlow, hhigh, if_neg (by omega), dif_pos (by simp), if_neg (by omega)]
  simp

end

theorem advance_valid (table : KernelHandleTable) : (advance_generation table).Valid := by
  unfold KernelHandleTable.Valid advance_generation
  simp only
  split
  · decide
  · omega

variable {table : KernelHandleTable}

/-- A valid table gives the generation it stands at. -/
theorem next_generation_eq (h : table.Valid) :
    next_generation table = (table.next_generation, advance_generation table) := by
  unfold next_generation
  rw [if_neg (Nat.ne_of_gt h.1)]

/-- An allocation fails and changes nothing, or it fills a slot that was not active. It does
not fail for a type while there is such a slot and no fault. -/
theorem kernel_handle_alloc_cases (hv : table.Valid) (type : Nat)
    (rights : U32) (object extra : Nat) (fault : Bool) :
    kernel_handle_alloc table type rights object extra fault = (0, table) ∧
      (type ≠ KERNEL_HANDLE_TYPE_NONE → fault = false → ∀ i, (table.entries i).active) ∨
    ∃ (i : HandleSlot) (table' : KernelHandleTable),
      kernel_handle_alloc table type rights object extra fault =
        (encode_handle_token i table.next_generation, table') ∧
      (table.entries i).active = false ∧ table'.Valid ∧ table'.entries = update table.entries i
        ⟨true, type % 2 ^ 8, rights, table.next_generation, object, extra⟩ := by
  unfold kernel_handle_alloc
  split
  · rename_i hnone
    exact .inl ⟨rfl, fun htype => absurd hnone htype⟩
  split
  · rename_i hfault
    exact .inl ⟨rfl, fun _ hno => by simp [hno] at hfault⟩
  split
  · rename_i hfull
    exact .inl ⟨rfl, fun _ _ i => by simpa using List.find?_eq_none.mp hfull i (List.mem_finRange i)⟩
  rename_i i hfree
  right
  rw [next_generation_eq hv]
  exact ⟨i, _, rfl, by simpa using List.find?_some hfree, advance_valid table, rfl⟩

variable {slot : HandleSlot}

/-- What a token resolves to is an active entry. -/
theorem resolve_active {handle expected_type : Nat} {required_rights : U32}
    (h : resolve_unlocked table handle expected_type required_rights = some slot) :
    (table.entries slot).active := by
  unfold resolve_unlocked resolve_unlocked_result at h
  split at h
  · cases h
  simp only at h
  split at h
  · cases h
  rename_i hactive
  split at h
  · cases h
  split at h
  · cases h
  cases h
  simp only [not_or, Bool.not_eq_true, Bool.not_eq_false'] at hactive
  exact hactive.1

/-- The token of an active entry resolves to it. -/
theorem resolve_encode
    (hactive : (table.entries slot).active) (hpos : 1 ≤ (table.entries slot).generation)
    (hmax : (table.entries slot).generation ≤ OS_HANDLE_TOKEN_GENERATION_MAX) :
    resolve_unlocked table (encode_handle_token slot (table.entries slot).generation)
      KERNEL_HANDLE_TYPE_NONE 0 = some slot := by
  unfold resolve_unlocked resolve_unlocked_result
  rw [decode_encode slot hpos hmax]
  simp [hactive, Except.toOption]

theorem kernel_handle_close_cases {table' : KernelHandleTable} {handle : Nat}
    {closed : KernelHandle} (h : kernel_handle_close table handle = some (closed, table')) :
    ∃ i, closed = table.entries i ∧ closed.active ∧
      table'.next_generation = table.next_generation ∧
      table'.entries = update table.entries i (close_entry closed) := by
  obtain ⟨i, hi, heq⟩ := Option.map_eq_some_iff.mp h
  obtain ⟨hclosed, htable⟩ := Prod.mk.inj heq
  subst hclosed
  rw [← htable]
  exact ⟨i, rfl, resolve_active hi, rfl, rfl⟩

end mini_kernel.handle
