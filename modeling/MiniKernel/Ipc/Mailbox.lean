-- The IPC mailbox of a process (kernel/ipc/ipc_mailbox.cpp): a ring of messages from
-- which a receiver may also take one out of the middle.
import MiniKernel.Lib.Ring
import MiniKernel.Lib.Word

open mini_kernel.lib Function

namespace mini_kernel.ipc

def IPC_MAILBOX_CAPACITY : Nat := 16

instance : NeZero IPC_MAILBOX_CAPACITY := ⟨by decide⟩

def OS64_IPC_ABI_VERSION_V2 : U32 := 2

def OS_IPC_V2_MAX_HANDLES : Nat := 2

def OS_IPC_V2_MESSAGE_PAYLOAD_SIZE : Nat := 96

def OS_IPC_MESSAGE_NONE : U32 := 0

def OS_IPC_FLAG_NONE : U32 := 0

def OS_IPC_FILTER_SENDER : U32 := 1

def OS_IPC_FILTER_TYPE : U32 := 2

def OS_IPC_FILTER_REPLY_TO : U32 := 4

structure OsIpcMessageV2 where
  size : U32
  abi_version : U32
  sender_pid : U32
  sender_generation : U32
  type : U32
  flags : U32
  length : U32
  request_id : U32
  reply_to : U32
  handle_count : U32
  handles : Fin OS_IPC_V2_MAX_HANDLES → U64
  payload : Fin OS_IPC_V2_MESSAGE_PAYLOAD_SIZE → UInt8
  deriving DecidableEq

/-- `sizeof(OsIpcMessageV2)`. -/
def sizeofMessageV2 : U32 := 152

structure OsIpcReceiveFilter where
  size : U32
  flags : U32
  sender_pid : U32
  sender_generation : U32
  type : U32
  reply_to : U32

/-- `sizeof(OsIpcReceiveFilter)`. -/
def sizeofReceiveFilter : U32 := 24

structure KernelIpcMailbox where
  messages : Fin IPC_MAILBOX_CAPACITY → OsIpcMessageV2
  head : Nat
  tail : Nat
  count : Nat
  delivered_count : Nat
  dropped_count : Nat

def clear_message_v2 : OsIpcMessageV2 :=
  { size := sizeofMessageV2
    abi_version := OS64_IPC_ABI_VERSION_V2
    sender_pid := 0
    sender_generation := 0
    type := OS_IPC_MESSAGE_NONE
    flags := OS_IPC_FLAG_NONE
    length := 0
    request_id := 0
    reply_to := 0
    handle_count := 0
    handles := fun _ => 0
    payload := fun _ => 0 }

def message_shape_valid_v2 (message : OsIpcMessageV2) : Bool :=
  if message.size ≠ sizeofMessageV2 ∨ message.abi_version ≠ OS64_IPC_ABI_VERSION_V2 then false
  else if message.length.toNat > OS_IPC_V2_MESSAGE_PAYLOAD_SIZE ∨
      message.handle_count.toNat > OS_IPC_V2_MAX_HANDLES then false
  else true

/-- No filter is the filter that takes everything. -/
def filter_matches (filter : Option OsIpcReceiveFilter) (message : OsIpcMessageV2) : Bool :=
  match filter with
  | none => true
  | some filter =>
    if filter.flags = 0 then true
    else if filter.size ≠ sizeofReceiveFilter then false
    else if filter.flags &&& OS_IPC_FILTER_SENDER ≠ 0 ∧
        (message.sender_pid ≠ filter.sender_pid ∨
          message.sender_generation ≠ filter.sender_generation) then false
    else if filter.flags &&& OS_IPC_FILTER_TYPE ≠ 0 ∧ message.type ≠ filter.type then false
    else if filter.flags &&& OS_IPC_FILTER_REPLY_TO ≠ 0 ∧ message.reply_to ≠ filter.reply_to then
      false
    else filter.flags &&&
      ~~~(OS_IPC_FILTER_SENDER ||| OS_IPC_FILTER_TYPE ||| OS_IPC_FILTER_REPLY_TO) == 0

def ipc_mailbox_init : KernelIpcMailbox :=
  { messages := fun _ => clear_message_v2
    head := 0
    tail := 0
    count := 0
    delivered_count := 0
    dropped_count := 0 }

/-- `fault` is an injected fault; `acquired` says whether the lock was obtained. -/
def ipc_mailbox_push_v2 (mailbox : KernelIpcMailbox) (message : OsIpcMessageV2)
    (fault acquired : Bool) : Bool × KernelIpcMailbox :=
  if !message_shape_valid_v2 message then (false, mailbox)
  else if fault then (false, mailbox)
  else if !acquired then (false, mailbox)
  else if mailbox.count = IPC_MAILBOX_CAPACITY then
    (false, { mailbox with dropped_count := u32 (mailbox.dropped_count + 1) })
  else (true, { mailbox with
    messages := update mailbox.messages (Fin.ofNat _ mailbox.tail) message
    tail := (mailbox.tail + 1) % IPC_MAILBOX_CAPACITY
    count := mailbox.count + 1 })

def ipc_mailbox_pop_v2 (mailbox : KernelIpcMailbox) (acquired : Bool) :
    Option OsIpcMessageV2 × KernelIpcMailbox :=
  if !acquired then (none, mailbox)
  else if mailbox.count = 0 then (none, mailbox)
  else (some (mailbox.messages (Fin.ofNat _ mailbox.head)), { mailbox with
    messages := update mailbox.messages (Fin.ofNat _ mailbox.head) clear_message_v2
    head := (mailbox.head + 1) % IPC_MAILBOX_CAPACITY
    count := mailbox.count - 1
    delivered_count := u32 (mailbox.delivered_count + 1) })

/-- The first offset whose message the filter takes. -/
def found_offset (mailbox : KernelIpcMailbox) (filter : Option OsIpcReceiveFilter) : Option Nat :=
  (List.range mailbox.count).find? fun i =>
    filter_matches filter (mailbox.messages (slot _ mailbox.head i))

def ipc_mailbox_pop_v2_match (mailbox : KernelIpcMailbox) (filter : Option OsIpcReceiveFilter)
    (acquired : Bool) : Option OsIpcMessageV2 × KernelIpcMailbox :=
  if !acquired then (none, mailbox)
  else if mailbox.count = 0 then (none, mailbox)
  else match found_offset mailbox filter with
  | none => (none, mailbox)
  | some offset =>
    let messages := shiftDown mailbox.messages mailbox.head offset mailbox.count
    let tail := (mailbox.tail + IPC_MAILBOX_CAPACITY - 1) % IPC_MAILBOX_CAPACITY
    (some (mailbox.messages (slot _ mailbox.head offset)), { mailbox with
      messages := update messages (Fin.ofNat _ tail) clear_message_v2
      tail := tail
      count := mailbox.count - 1
      delivered_count := u32 (mailbox.delivered_count + 1) })

def ipc_mailbox_drop_all (mailbox : KernelIpcMailbox) (acquired : Bool) : KernelIpcMailbox :=
  if !acquired then mailbox
  else { mailbox with
    messages := fun _ => clear_message_v2
    head := 0
    tail := 0
    count := 0
    dropped_count := u32 (mailbox.dropped_count + mailbox.count) }

end mini_kernel.ipc
