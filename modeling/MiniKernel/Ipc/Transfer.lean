-- Sending a message with handles (kernel/ipc/ipc.cpp). Each handle of the message is
-- cloned into the table of the receiver before the message is queued, and the clones
-- are closed again if anything fails. Faults are given with the call.
import MiniKernel.Handle.Objects
import MiniKernel.Ipc.Mailbox

open mini_kernel.lib mini_kernel.handle mini_kernel.object

namespace mini_kernel.ipc

def OS_IPC_MESSAGE_REQUEST : U32 := 1

def OS_IPC_MESSAGE_REPLY : U32 := 2

def OS_IPC_MESSAGE_EVENT : U32 := 3

def OS_IPC_FLAG_REQUEST_REPLY : U32 := 1

def OS_IPC_FLAG_HAS_HANDLES : U32 := 2

/-- `IPC_OK` and the `IPC_ERR_*` of the send path. -/
inductive IpcResult
  | ok | not_ready | invalid_argument | no_target | queue_full | message_too_large
  | permission_denied
  deriving DecidableEq

inductive ProcessState
  | empty | loaded | running | returned | failed | paused
  deriving DecidableEq

/-- What the IPC code uses of a process. -/
structure Process where
  pid : U32
  generation : U32
  active : Bool
  state : ProcessState
  handle_table : KernelHandleTable
  ipc_mailbox : KernelIpcMailbox

/-- The processes and the objects that their handles name. -/
structure System (n : Nat) where
  objects : KernelObjects
  process : Fin n → Process

section
variable {n : Nat}

def System.tables (s : System n) : Fin n → KernelHandleTable := fun t => (s.process t).handle_table

def System.set_process (s : System n) (t : Fin n) (process : Process) : System n :=
  { s with process := Function.update s.process t process }

/-- The system after a call that worked on the objects and on one table. -/
def System.put (s : System n) (t : Fin n) (objects : KernelObjects) (table : KernelHandleTable) :
    System n :=
  System.set_process { s with objects := objects } t { s.process t with handle_table := table }

def System.close_handle (s : System n) (t : Fin n) (handle : Nat) : System n :=
  let (_, objects, table) := kernel_object_close_handle s.objects (s.process t).handle_table handle
  s.put t objects table

def System.clone_handle_with_rights (s : System n) (t : Fin n) (source : KernelHandle)
    (rights : U32) (fault : Bool) : Nat × System n :=
  let (handle, objects, table) := kernel_object_clone_handle_with_rights s.objects
    (s.process t).handle_table source rights fault
  (handle, s.put t objects table)

/-! ## The send path -/

def ipc_process_can_receive (process : Process) : Bool :=
  if process.pid = 0 ∨ !process.active then false
  else if process.state = .empty ∨ process.state = .returned ∨ process.state = .failed then false
  else true

def ipc_validate_user_message_v2 (message : OsIpcMessageV2) : IpcResult :=
  if message.size ≠ sizeofMessageV2 ∨ message.abi_version ≠ OS64_IPC_ABI_VERSION_V2 then
    .invalid_argument
  else if message.length.toNat > OS_IPC_V2_MESSAGE_PAYLOAD_SIZE then .message_too_large
  else if message.handle_count.toNat > OS_IPC_V2_MAX_HANDLES then .invalid_argument
  else if message.type ≠ OS_IPC_MESSAGE_REQUEST ∧ message.type ≠ OS_IPC_MESSAGE_REPLY ∧
      message.type ≠ OS_IPC_MESSAGE_EVENT then .invalid_argument
  else if message.flags &&& ~~~(OS_IPC_FLAG_REQUEST_REPLY ||| OS_IPC_FLAG_HAS_HANDLES) ≠ 0 then
    .invalid_argument
  else if message.type ≠ OS_IPC_MESSAGE_REQUEST ∧ message.flags &&& OS_IPC_FLAG_REQUEST_REPLY ≠ 0 then
    .invalid_argument
  else if message.handle_count = 0 ∧ message.flags &&& OS_IPC_FLAG_HAS_HANDLES ≠ 0 then
    .invalid_argument
  else if message.handle_count ≠ 0 ∧ message.flags &&& OS_IPC_FLAG_HAS_HANDLES = 0 then
    .invalid_argument
  else .ok

def rollback_transferred_handles (s : System n) (target : Fin n) (handles : List Nat) : System n :=
  handles.foldl (fun s handle => if handle ≠ 0 then s.close_handle target handle else s) s

/-- The rights that the receiver gets; none if a surface lacks one of them. -/
def receiver_rights (source : KernelHandle) : Option U32 :=
  if source.type = KERNEL_HANDLE_TYPE_GRAPHICS_SURFACE then
    let rights := source.rights &&& (KERNEL_HANDLE_RIGHT_READ ||| KERNEL_HANDLE_RIGHT_MAP)
    if rights ≠ KERNEL_HANDLE_RIGHT_READ ||| KERNEL_HANDLE_RIGHT_MAP then none else some rights
  else some source.rights

/-- The loop over the handles of a message. `new_handles` are those already made;
`faults` are the faults in the allocation of each. -/
def transfer_loop (sender target : Fin n) (faults : Nat → Bool) :
    System n → List Nat → List Nat → IpcResult × List Nat × System n
  | s, new_handles, [] => (.ok, new_handles, s)
  | s, new_handles, handle :: handles =>
    match kernel_handle_resolve_copy (s.process sender).handle_table handle KERNEL_HANDLE_TYPE_NONE
        KERNEL_HANDLE_RIGHT_TRANSFER with
    | none => (.permission_denied, [], rollback_transferred_handles s target new_handles)
    | some source =>
      match receiver_rights source with
      | none => (.permission_denied, [], rollback_transferred_handles s target new_handles)
      | some rights =>
        let (cloned, s) :=
          s.clone_handle_with_rights target source rights (faults new_handles.length)
        if cloned = 0 then
          (.queue_full, [], rollback_transferred_handles s target new_handles)
        else transfer_loop sender target faults s (new_handles ++ [cloned]) handles

/-- The first `handle_count` handles of a message. -/
def OsIpcMessageV2.tokens (message : OsIpcMessageV2) : List Nat :=
  ((List.ofFn message.handles).take message.handle_count.toNat).map BitVec.toNat

/-- The message with other handles in their place. -/
def OsIpcMessageV2.with_handles (message : OsIpcMessageV2) (new_handles : List Nat) :
    OsIpcMessageV2 :=
  { message with
    handles := fun i =>
      if i.val < message.handle_count.toNat then BitVec.ofNat 64 (new_handles.getD i 0)
      else message.handles i }

def transfer_handles (s : System n) (sender target : Fin n) (prepared : OsIpcMessageV2)
    (faults : Nat → Bool) : IpcResult × OsIpcMessageV2 × System n :=
  if prepared.handle_count = 0 then (.ok, prepared, s)
  else match transfer_loop sender target faults s [] prepared.tokens with
  | (.ok, new_handles, s) => (.ok, prepared.with_handles new_handles, s)
  | (result, _, s) => (result, prepared, s)

def ipc_prepare_message_v2 (s : System n) (sender target : Fin n) (source : OsIpcMessageV2)
    (faults : Nat → Bool) : IpcResult × OsIpcMessageV2 × System n :=
  match ipc_validate_user_message_v2 source with
  | .ok =>
    let prepared := { source with
      size := sizeofMessageV2
      abi_version := OS64_IPC_ABI_VERSION_V2
      sender_pid := (s.process sender).pid
      sender_generation := (s.process sender).generation
      payload := fun i => if i.val < source.length.toNat then source.payload i else 0
      handles := fun i => if i.val < source.handle_count.toNat then source.handles i else 0 }
    transfer_handles s sender target prepared faults
  | result => (result, source, s)

/-- `push_fault` is a fault in the mailbox and `acquired` says whether its lock was
obtained. Whom the message wakes up is modelled apart. -/
def ipc_send_message_v2 (s : System n) (sender target : Fin n) (message : OsIpcMessageV2)
    (faults : Nat → Bool) (push_fault acquired : Bool) : IpcResult × System n :=
  if (s.process sender).pid = 0 ∨ !(s.process sender).active then (.not_ready, s)
  else if !ipc_process_can_receive (s.process target) then (.no_target, s)
  else if (s.process sender).pid = (s.process target).pid then (.permission_denied, s)
  else match ipc_prepare_message_v2 s sender target message faults with
  | (.ok, prepared, s) =>
    let (pushed, mailbox) :=
      ipc_mailbox_push_v2 (s.process target).ipc_mailbox prepared push_fault acquired
    let s := s.set_process target { s.process target with ipc_mailbox := mailbox }
    if !pushed then
      (.queue_full, rollback_transferred_handles s target prepared.tokens)
    else (.ok, s)
  | (result, _, s) => (result, s)

end

end mini_kernel.ipc
