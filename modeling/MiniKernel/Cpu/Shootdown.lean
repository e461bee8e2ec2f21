-- TLB shootdowns (kernel/cpu/smp.cpp, kernel/mm/address_space.cpp). An initiator
-- fills the mailbox of each target, sends an interrupt and waits until the target
-- shows the token and the generation of the request as its last acknowledgement.
-- Every access to a mailbox is a step of its own.
import MiniKernel.Lib.Word
import MiniKernel.Lib.Machine

open mini_kernel.lib Function

namespace mini_kernel.smp

def ADDRESS_SPACE_TLB_PAGE_LIMIT : U64 := 32

/-- The fields of a request, in the order in which they are written and read. -/
inductive Field
  | identity | root | generation | token | address | page_count | full
  deriving DecidableEq

def allFields : List Field := [.identity, .root, .generation, .token, .address, .page_count, .full]

abbrev Request := Field → U64

/-- The part of `CpuLocal` that other CPUs read and write. -/
structure Mailbox where
  pending_tlb_shootdown : Bool
  tlb_request : Request
  tlb_ack_generation : U64
  tlb_ack_token : U64

def Mailbox.setField (m : Mailbox) (f : Field) (value : U64) : Mailbox :=
  { m with tlb_request := update m.tlb_request f value }

def Mailbox.setPending (m : Mailbox) (pending : Bool) : Mailbox :=
  { m with pending_tlb_shootdown := pending }

/-- The address space that a CPU has loaded: its identity and its root, or zeros
for the kernel. -/
structure Loaded where
  identity : U64
  root : U64
  deriving DecidableEq

/-- What `flush_loaded_address_space` did. -/
inductive Outcome
  | other_space_loaded
  | switched_root
  | flushed_pages (address page_count : U64)
  deriving DecidableEq

/-- A flush that a CPU was asked for, and what came of it. -/
structure Event (n : Nat) where
  cpu : Fin n
  identity : U64
  root : U64
  outcome : Outcome

/-- Where a call of `smp_tlb_shootdown` is. The list is what is left of a loop over
the CPUs. -/
inductive Pc (n : Nat)
  | idle
  /-- The invalidation has begun, and the call is about to be made. -/
  | ready
  /-- The checks have passed. -/
  | flush
  | publish (todo : List (Fin n))
  /-- The mailbox was seen free; the fields in the list are still to be written. -/
  | fill (c : Fin n) (rest : List Field) (todo : List (Fin n))
  | send (c : Fin n) (todo : List (Fin n))
  /-- The interrupt could not be sent. -/
  | cancel (c : Fin n)
  | poll (todo : List (Fin n))
  /-- The token matched, and the generation is to be read. -/
  | poll_generation (c : Fin n) (todo : List (Fin n))
  | returned (result : Bool)

structure Call (n : Nat) where
  pc : Pc n
  /-- The space that is passed, or none for the kernel. -/
  space : Option Nat
  /-- What is asked for. The identity and the root are not passed: they are those that
  the space has when the call begins. -/
  request : Request
  target_mask : Fin n → Bool
  acknowledged : Fin n → Bool
  published : Fin n → Bool
  /-- How many flushes there had been when the call began. -/
  start : Nat

/-- Where `smp_tlb_shootdown_handler` is on a CPU. -/
inductive Handler
  | idle
  | read (rest : List Field) (request : Request)
  | ack_generation (request : Request)
  | ack_token (request : Request)
  | clear

structure AddressSpace (n : Nat) where
  identity : U64
  root_phys : U64
  tlb_generation : U64
  operation_token : U64
  cached_cpu_mask : Fin n → Bool

structure State (n : Nat) where
  mailbox : Fin n → Mailbox
  loaded : Fin n → Loaded
  handler : Fin n → Handler
  call : Fin n → Call n
  online : Fin n → Bool
  space : Nat → AddressSpace n
  next_address_space_identity : U64
  kernel_tlb_generation : U64
  kernel_tlb_operation_token : U64
  log : List (Event n)

section
variable {n : Nat}

/-! ## Address spaces -/

/-- `__atomic_add_fetch`, and once more if it gave 0. -/
def next_counter (counter : U64) : U64 :=
  if counter + 1 = 0 then 1 else counter + 1

def allocate_identity (s : State n) : U64 × State n :=
  let identity := s.next_address_space_identity
  if identity = 0 then (1, { s with next_address_space_identity := 2 })
  else (identity, { s with next_address_space_identity := identity + 1 })

def address_space_reset (s : State n) (i : Nat) (root : U64) : State n :=
  let r := allocate_identity s
  { r.2 with space := update r.2.space i ⟨r.1, root, 1, 0, fun _ => false⟩ }

def address_space_init (s : State n) (i : Nat) : State n := address_space_reset s i 0

/-- A space that is used again keeps its root. -/
def address_space_recycle (s : State n) (i : Nat) : State n :=
  address_space_reset s i (s.space i).root_phys

def address_space_ensure_root (s : State n) (i : Nat) (created : U64) : State n :=
  if (s.space i).root_phys = 0 then
    { s with space := update s.space i { s.space i with root_phys := created } }
  else s

def address_space_activate_kernel (s : State n) (c : Fin n) : State n :=
  { s with loaded := update s.loaded c ⟨0, 0⟩ }

def address_space_activate (s : State n) (c : Fin n) (i : Nat) : State n :=
  let space := s.space i
  if space.root_phys = 0 then address_space_activate_kernel s c
  else { s with
    space := update s.space i
      { space with cached_cpu_mask := update space.cached_cpu_mask c true }
    loaded := update s.loaded c ⟨space.identity, space.root_phys⟩ }

/-! ## The call -/

def toRequest (generation token address page_count : U64) (full : Bool) : Request
  | .identity => 0
  | .root => 0
  | .generation => generation
  | .token => token
  | .address => address
  | .page_count => page_count
  | .full => if full then 1 else 0

def State.setCall (s : State n) (a : Fin n) (k : Call n) : State n :=
  { s with call := update s.call a k }

def State.setPc (s : State n) (a : Fin n) (pc : Pc n) : State n :=
  s.setCall a { s.call a with pc := pc }

def State.setMailbox (s : State n) (c : Fin n) (m : Mailbox) : State n :=
  { s with mailbox := update s.mailbox c m }

def State.setHandler (s : State n) (c : Fin n) (h : Handler) : State n :=
  { s with handler := update s.handler c h }

def noCall (n : Nat) : Call n :=
  ⟨.idle, none, fun _ => 0, fun _ => false, fun _ => false, fun _ => false, 0⟩

/-- The call that is made next, if there are CPUs to be asked at all. -/
def newCall (space : Option Nat) (request : Request) (target_mask : Fin n → Bool) : Call n :=
  if ∃ c, target_mask c then
    ⟨.ready, space, request, target_mask, fun _ => false, fun _ => false, 0⟩
  else noCall n

def align_down_page (value : U64) : U64 := value &&& ~~~0xFFF

/-- `begin_invalidation_unlocked`, with the call that `complete_invalidation` makes
next. -/
def begin_invalidation (s : State n) (a : Fin n) (i : Nat) (address : U64)
    (pages : U32) (full_flush : Bool) : State n :=
  let space := s.space i
  let page_count := pages.setWidth 64
  let generation := next_counter space.tlb_generation
  let token := next_counter space.operation_token
  let full := full_flush || page_count == 0 || ADDRESS_SPACE_TLB_PAGE_LIMIT.ult page_count
  let request := toRequest generation token (align_down_page address) page_count full
  { s with
    space := update s.space i
      { space with tlb_generation := generation, operation_token := token }
    call := update s.call a (newCall (some i) request space.cached_cpu_mask) }

/-- `smp_kernel_tlb_shootdown`, with the call that it makes. Its counters are not
counted on if they wrap around to 0. -/
def smp_kernel_tlb_shootdown (s : State n) (a : Fin n) (address : U64) (pages : U32) :
    State n :=
  let page_count := pages.setWidth 64
  let generation := s.kernel_tlb_generation + 1
  let token := s.kernel_tlb_operation_token + 1
  let request := toRequest (if generation ≠ 0 then generation else 1)
    (if token ≠ 0 then token else 1) address page_count false
  { s with
    kernel_tlb_generation := generation
    kernel_tlb_operation_token := token
    call := update s.call a (newCall none request s.online) }

def kernel_global (request : Request) : Bool := request .identity == 0 && request .root == 0

def flushes_all (request : Request) : Bool :=
  request .full != 0 || request .page_count == 0 ||
    ADDRESS_SPACE_TLB_PAGE_LIMIT.ult (request .page_count)

/-- What `flush_loaded_address_space` does on a CPU. -/
def flush_outcome (loaded : Loaded) (request : Request) : Outcome :=
  if ¬ kernel_global request ∧
      (loaded.identity ≠ request .identity ∨ loaded.root ≠ request .root) then .other_space_loaded
  else if flushes_all request then .switched_root
  else .flushed_pages (request .address) (request .page_count)

def flush_loaded_address_space (s : State n) (c : Fin n) (request : Request) : State n :=
  { s with log := s.log ++
      [⟨c, request .identity, request .root, flush_outcome (s.loaded c) request⟩] }

/-- The request as it is read off the space and the arguments at any time in the
call. -/
def current (s : State n) (k : Call n) : Request
  | .identity => k.space.elim 0 fun i => (s.space i).identity
  | .root => k.space.elim 0 fun i => (s.space i).root_phys
  | f => k.request f

/-- The start of `smp_tlb_shootdown`, once its checks have passed. -/
def enter (s : State n) (a : Fin n) : State n :=
  let k := s.call a
  s.setCall a { k with pc := .flush, request := current s k, start := s.log.length }

/-- The CPU flushes for itself if it is a target. -/
def flush_self (s : State n) (a : Fin n) : State n :=
  let k := s.call a
  let pc := .publish (List.finRange n)
  if k.target_mask a then
    (flush_loaded_address_space s a (current s k)).setCall a
      { k with pc := pc, acknowledged := update k.acknowledged a true }
  else s.setPc a pc

/-- The result of a call whose published targets have all acknowledged. -/
def complete (s : State n) (a : Fin n) : State n :=
  s.setPc a (.returned (decide (∀ c, (s.call a).target_mask c → (s.call a).acknowledged c)))

/-- The end of the loop that waits: done, out of time, or once more around. -/
def wait (s : State n) (a : Fin n) (more : Bool) : State n :=
  if ∀ c, (s.call a).published c → (s.call a).acknowledged c then complete s a
  else if more then s.setPc a (.poll (List.finRange n)) else s.setPc a (.returned false)

/-- One step of `smp_tlb_shootdown` on CPU `a`. What the step cannot know is in
`ok`: whether the checks at the start pass, whether there is time left to wait,
whether the interrupt can be sent. -/
def initiator_step (s : State n) (a : Fin n) (ok : Bool) : Option (State n) :=
  let k := s.call a
  match k.pc with
  | .idle => none
  | .ready =>
    if ok ∧ ¬ (k.space.isSome ∧ current s k .root = 0) ∧ k.request .generation ≠ 0 ∧
        k.request .token ≠ 0 then some (enter s a)
    else some (s.setPc a (.returned false))
  | .flush => some (flush_self s a)
  | .publish [] => some (wait s a true)
  | .publish (c :: todo) =>
    if ¬ k.target_mask c ∨ c = a then some (s.setPc a (.publish todo))
    else if ¬ s.online c then some (s.setPc a (.returned false))
    else if ¬ (s.mailbox c).pending_tlb_shootdown then some (s.setPc a (.fill c allFields todo))
    else if ok then some s
    else some (s.setPc a (.returned false))
  | .fill c (f :: rest) todo =>
    some ((s.setMailbox c ((s.mailbox c).setField f (current s k f))).setPc a (.fill c rest todo))
  | .fill c [] todo =>
    some ((s.setMailbox c ((s.mailbox c).setPending true)).setPc a (.send c todo))
  | .send c todo =>
    if ok then
      some (s.setCall a
        { k with pc := .publish todo, published := update k.published c true })
    else some (s.setPc a (.cancel c))
  | .cancel c =>
    some ((s.setMailbox c ((s.mailbox c).setPending false)).setPc a (.returned false))
  | .poll [] => some (wait s a ok)
  | .poll (c :: todo) =>
    if k.published c ∧ ¬ k.acknowledged c ∧ (s.mailbox c).tlb_ack_token = k.request .token then
      some (s.setPc a (.poll_generation c todo))
    else some (s.setPc a (.poll todo))
  | .poll_generation c todo =>
    if (s.mailbox c).tlb_ack_generation = k.request .generation then
      some (s.setCall a
        { k with pc := .poll todo, acknowledged := update k.acknowledged c true })
    else some (s.setPc a (.poll todo))
  | .returned _ => some (s.setCall a (noCall n))

/-! ## The handler -/

/-- One step of `smp_tlb_shootdown_handler` on CPU `c`. -/
def handler_step (s : State n) (c : Fin n) : State n :=
  let m := s.mailbox c
  match s.handler c with
  | .idle => if m.pending_tlb_shootdown then s.setHandler c (.read allFields fun _ => 0) else s
  | .read (f :: rest) request =>
    s.setHandler c (.read rest (update request f (m.tlb_request f)))
  | .read [] request =>
    (flush_loaded_address_space s c request).setHandler c (.ack_generation request)
  | .ack_generation request =>
    (s.setMailbox c { m with tlb_ack_generation := request .generation }).setHandler c
      (.ack_token request)
  | .ack_token request =>
    (s.setMailbox c { m with tlb_ack_token := request .token }).setHandler c .clear
  | .clear => (s.setMailbox c (m.setPending false)).setHandler c .idle

/-! ## The machine -/

inductive Label (n : Nat)
  | init (i : Nat)
  | recycle (i : Nat)
  | ensure_root (i : Nat) (created : U64)
  | activate (c : Fin n) (i : Nat)
  | activate_kernel (c : Fin n)
  | bring_online (c : Fin n)
  | begin (a : Fin n) (i : Nat) (address : U64) (pages : U32) (full_flush : Bool)
  | begin_kernel (a : Fin n) (address : U64) (pages : U32)
  | initiator (a : Fin n) (ok : Bool)
  | handler (c : Fin n)

def step (s : State n) : Label n → Option (State n)
  | .init i => some (address_space_init s i)
  | .recycle i => some (address_space_recycle s i)
  | .ensure_root i created => some (address_space_ensure_root s i created)
  | .activate c i => some (address_space_activate s c i)
  | .activate_kernel c => some (address_space_activate_kernel s c)
  | .bring_online c => some { s with online := update s.online c true }
  | .begin a i address pages full_flush =>
    match (s.call a).pc with
    | .idle => some (begin_invalidation s a i address pages full_flush)
    | _ => none
  | .begin_kernel a address pages =>
    match (s.call a).pc with
    | .idle => if pages = 0 then some s else some (smp_kernel_tlb_shootdown s a address pages)
    | _ => none
  | .initiator a ok => initiator_step s a ok
  | .handler c => some (handler_step s c)

/-- Before the first shootdown: the mailboxes are empty, no space is set up. -/
def boot (n : Nat) : State n where
  mailbox := fun _ => ⟨false, fun _ => 0, 0, 0⟩
  loaded := fun _ => ⟨0, 0⟩
  handler := fun _ => .idle
  call := fun _ => noCall n
  online := fun _ => false
  space := fun _ => ⟨0, 0, 0, 0, fun _ => false⟩
  next_address_space_identity := 1
  kernel_tlb_generation := 0
  kernel_tlb_operation_token := 0
  log := []

/-- Any number of CPUs, in any interleaving. -/
def machine (n : Nat) : Machine (State n) (Label n) := .ofFun (· = boot n) step

end

end mini_kernel.smp
