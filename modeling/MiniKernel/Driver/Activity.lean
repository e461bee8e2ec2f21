-- The activity of drivers (kernel/driver/driver_manager.cpp): pins and unpins, quiescing,
-- and the reuse of a slot of the driver table, each as the sequence of its atomic
-- operations. Any number of parties take such steps in any order. The global statistics
-- are left out.
import MiniKernel.Driver.Identity
import MiniKernel.Lib.Machine

open mini_kernel.lib mini_kernel.driver Function

namespace mini_kernel.driver_activity

/-! ## The driver table -/

/-- `DRIVER_STATE_*`. -/
inductive DriverState
  | empty | registered | ready | failed | rejected | loading | linked | quiescing
deriving DecidableEq

/-- `DRIVER_ACTIVITY_*`. -/
inductive Activity
  | call | irq | work | dma
deriving DecidableEq

/-- What the activity calls read of a driver's record. -/
structure DriverRecord where
  active : Bool
  generation : Nat
  state : DriverState

/-- `category` holds the counters `calls`, `irqs`, `work` and `dma`. -/
structure DriverQuiesceSlot where
  generation : Nat
  accepting : Bool
  in_flight : Nat
  category : Activity → Nat
  quarantined : Bool

structure Slot where
  record : DriverRecord
  quiesce : DriverQuiesceSlot

def legal_state_transition (source target : DriverState) : Bool :=
  if source = target then true
  else
    match source with
    | .registered =>
      target = .loading ∨ target = .linked ∨ target = .ready ∨ target = .failed ∨ target = .rejected
    | .loading => target = .linked ∨ target = .failed ∨ target = .rejected
    | .linked => target = .ready ∨ target = .failed ∨ target = .rejected ∨ target = .quiescing
    | .ready => target = .quiescing ∨ target = .failed
    | .quiescing => target = .failed
    | _ => false

/-- `__atomic_sub_fetch` of one. -/
def u32_pred (x : Nat) : Nat := u32 (x + (2 ^ 32 - 1))

/-! ## Where a party is -/

/-- Who calls `driver_manager_set_state_identity`: `begin_quiesce`, or anyone else. -/
inductive Setter
  | quiesce
  | other (target : DriverState)
deriving DecidableEq

def Setter.target : Setter → DriverState
  | .quiesce => .quiescing
  | .other target => target

/-- What asks `driver_manager_identity_is_live`, with what it has read so far. -/
inductive Next
  | pin (kind : Activity) (state : DriverState)
  | begin_quiesce
  | wait_quiesced (asked : Bool) (spin_limit : Nat) (injected : Bool)
  | set_state (setter : Setter)
deriving DecidableEq

/-- The next atomic operation of a party. A party has one token; `token` means that it is
active and nothing is in progress. In `wait_*`, `asked` says that `begin_quiesce` had
succeeded for this driver before the wait was called. -/
inductive Pc
  | idle
  | pin_generation (owner : DriverIdentity) (kind : Activity)
  | pin_accepting (owner : DriverIdentity) (kind : Activity)
  | pin_in_flight (owner : DriverIdentity) (kind : Activity)
  | pin_category (owner : DriverIdentity) (kind : Activity)
  | pin_state (owner : DriverIdentity) (kind : Activity)
  | pin_recheck (owner : DriverIdentity) (kind : Activity) (state : DriverState)
  | live_active (owner : DriverIdentity) (next : Next)
  | live_generation (owner : DriverIdentity) (next : Next)
  | drop_category (owner : DriverIdentity) (kind : Activity)
  | drop_in_flight (owner : DriverIdentity)
  | token (owner : DriverIdentity) (kind : Activity)
  | unpin_generation (owner : DriverIdentity) (kind : Activity)
  | unpin_category (owner : DriverIdentity) (kind : Activity)
  | unpin_in_flight (owner : DriverIdentity)
  | unpin_active (owner : DriverIdentity)
  | begin_generation (owner : DriverIdentity)
  | begin_close (owner : DriverIdentity)
  | begin_state (owner : DriverIdentity)
  | begin_reopen (owner : DriverIdentity) (result : DriverLoad)
  | set_check (owner : DriverIdentity) (setter : Setter)
  | set_store (owner : DriverIdentity) (setter : Setter)
  | wait_spin (owner : DriverIdentity) (asked : Bool) (left : Nat)
  | wait_last (owner : DriverIdentity) (asked : Bool)
  | wait_quarantine (owner : DriverIdentity)
  | clear_active (slot : Nat)
  | clear_state (slot : Nat)
  | clear_accepting (slot : Nat)
  | activate_load (slot : Nat)
  | activate_generation (slot : Nat) (generation : Nat)
  | activate_reload (slot : Nat)
  | activate_slot (slot : Nat) (generation : Nat)
  | activate_in_flight (slot : Nat)
  | activate_category (slot : Nat) (kind : Activity)
  | activate_quarantined (slot : Nat)
  | activate_accepting (slot : Nat)
  | activate_active (slot : Nat)
  | activate_state (slot : Nat)
deriving DecidableEq

/-- The slot that the operation in progress, or the token, is about. -/
def Pc.slot : Pc → Option Nat
  | .idle => none
  | .pin_generation d _ | .pin_accepting d _ | .pin_in_flight d _ | .pin_category d _
  | .pin_state d _ | .pin_recheck d _ _ | .live_active d _ | .live_generation d _
  | .drop_category d _ | .drop_in_flight d | .token d _ | .unpin_generation d _
  | .unpin_category d _ | .unpin_in_flight d | .unpin_active d | .begin_generation d
  | .begin_close d | .begin_state d | .begin_reopen d _ | .set_check d _ | .set_store d _
  | .wait_spin d _ _ | .wait_last d _ | .wait_quarantine d => some d.slot
  | .clear_active k | .clear_state k | .clear_accepting k | .activate_load k
  | .activate_generation k _ | .activate_reload k | .activate_slot k _ | .activate_in_flight k
  | .activate_category k _ | .activate_quarantined k | .activate_accepting k
  | .activate_active k | .activate_state k => some k

/-! ## One atomic operation -/

/-- What an operation does to the slot, where the party is afterwards, and what it
returns if it is over. -/
structure Turn where
  slot : Slot
  pc : Pc
  result : Option DriverLoad

def goes (slot : Slot) (pc : Pc) : Turn := ⟨slot, pc, none⟩

def returns (slot : Slot) (result : DriverLoad) : Turn := ⟨slot, .idle, some result⟩

section
variable (s : Slot)

def with_active (active : Bool) : Slot := { s with record := { s.record with active := active } }

def with_state (state : DriverState) : Slot := { s with record := { s.record with state := state } }

def with_generation (generation : Nat) : Slot :=
  { s with record := { s.record with generation := generation } }

def with_accepting (accepting : Bool) : Slot :=
  { s with quiesce := { s.quiesce with accepting := accepting } }

def with_in_flight (in_flight : Nat) : Slot :=
  { s with quiesce := { s.quiesce with in_flight := in_flight } }

def with_category (kind : Activity) (n : Nat) : Slot :=
  { s with quiesce := { s.quiesce with category := update s.quiesce.category kind n } }

def with_quarantined (quarantined : Bool) : Slot :=
  { s with quiesce := { s.quiesce with quarantined := quarantined } }

def with_quiesce_generation (generation : Nat) : Slot :=
  { s with quiesce := { s.quiesce with generation := generation } }

end

/-- The states in which a driver may be pinned. -/
def pinnable (state : DriverState) : Bool := state = .loading ∨ state = .linked ∨ state = .ready

/-- What follows a positive answer of `driver_manager_identity_is_live`. -/
def when_live (s : Slot) (d : DriverIdentity) : Next → Turn
  | .pin kind state =>
    if pinnable state then ⟨s, .token d kind, some .ok⟩ else goes s (.drop_category d kind)
  | .begin_quiesce => goes s (.begin_generation d)
  | .wait_quiesced asked spin_limit injected =>
    if injected then goes s (.wait_quarantine d)
    else if spin_limit = 0 then goes s (.wait_last d asked)
    else goes s (.wait_spin d asked (spin_limit - 1))
  | .set_state setter => goes s (.set_check d setter)

/-- What follows a negative answer. -/
def when_stale (s : Slot) (d : DriverIdentity) : Next → Turn
  | .pin kind _ => goes s (.drop_category d kind)
  | .begin_quiesce => returns s .stale_identity
  | .wait_quiesced _ _ _ => returns s .stale_identity
  | .set_state .quiesce => goes s (.begin_reopen d .stale_identity)
  | .set_state (.other _) => returns s .stale_identity

def activity_pin (s : Slot) : Pc → Option Turn
  | .pin_generation d kind => some <|
    if s.quiesce.generation ≠ d.generation then returns s .state_denied
    else goes s (.pin_accepting d kind)
  | .pin_accepting d kind => some <|
    if !s.quiesce.accepting then returns s .state_denied else goes s (.pin_in_flight d kind)
  | .pin_in_flight d kind => some <|
    goes (with_in_flight s (u32 (s.quiesce.in_flight + 1))) (.pin_category d kind)
  | .pin_category d kind => some <|
    goes (with_category s kind (u32 (s.quiesce.category kind + 1))) (.pin_state d kind)
  | .pin_state d kind => some <| goes s (.pin_recheck d kind s.record.state)
  | .pin_recheck d kind state => some <|
    if !s.quiesce.accepting then goes s (.drop_category d kind)
    else goes s (.live_active d (.pin kind state))
  | .drop_category d kind => some <|
    goes (with_category s kind (u32_pred (s.quiesce.category kind))) (.drop_in_flight d)
  | .drop_in_flight _ => some <|
    returns (with_in_flight s (u32_pred s.quiesce.in_flight)) .state_denied
  | _ => none

def identity_is_live (s : Slot) : Pc → Option Turn
  | .live_active d next => some <|
    if !s.record.active then when_stale s d next else goes s (.live_generation d next)
  | .live_generation d next => some <|
    if s.record.generation ≠ d.generation then when_stale s d next else when_live s d next
  | _ => none

/-- The call has no result; the token is cleared at the end. -/
def activity_unpin (s : Slot) : Pc → Option Turn
  | .unpin_generation d kind => some <|
    if s.quiesce.generation = d.generation then goes s (.unpin_category d kind)
    else goes s (.unpin_active d)
  | .unpin_category d kind => some <|
    goes (with_category s kind (u32_pred (s.quiesce.category kind))) (.unpin_in_flight d)
  | .unpin_in_flight d => some <|
    goes (with_in_flight s (u32_pred s.quiesce.in_flight)) (.unpin_active d)
  | .unpin_active _ => some <| goes s .idle
  | _ => none

def begin_quiesce (s : Slot) : Pc → Option Turn
  | .begin_generation d => some <|
    if s.quiesce.generation ≠ d.generation then returns s .stale_identity
    else goes s (.begin_close d)
  | .begin_close d => some <| goes (with_accepting s false) (.begin_state d)
  | .begin_state d => some <|
    if s.record.state = .quiescing ∨ s.record.state = .failed ∨ s.record.state = .rejected then
      returns s .ok
    else if s.record.state ≠ .ready ∧ s.record.state ≠ .linked then
      goes s (.begin_reopen d .state_denied)
    else goes s (.live_active d (.set_state .quiesce))
  | .begin_reopen _ result => some <| returns (with_accepting s true) result
  | _ => none

def set_state_identity (s : Slot) : Pc → Option Turn
  | .set_check d setter => some <|
    if legal_state_transition s.record.state setter.target then goes s (.set_store d setter)
    else
      match setter with
      | .quiesce => goes s (.begin_reopen d .state_denied)
      | .other _ => returns s .state_denied
  | .set_store _ setter => some <| returns (with_state s setter.target) .ok
  | _ => none

def wait_quiesced (s : Slot) : Pc → Option Turn
  | .wait_spin d asked left => some <|
    if s.quiesce.in_flight = 0 then returns s .ok
    else if left = 0 then goes s (.wait_last d asked)
    else goes s (.wait_spin d asked (left - 1))
  | .wait_last d _ => some <|
    if s.quiesce.in_flight = 0 then returns s .ok else goes s (.wait_quarantine d)
  | .wait_quarantine _ => some <| returns (with_quarantined s true) .quiesce_timeout
  | _ => none

def clear_driver_record (s : Slot) : Pc → Option Turn
  | .clear_active k => some <| goes (with_active s false) (.clear_state k)
  | .clear_state k => some <| goes (with_state s .empty) (.clear_accepting k)
  | .clear_accepting _ => some <| returns (with_accepting s false) .ok
  | _ => none

def activate_driver_record (s : Slot) : Pc → Option Turn
  | .activate_load k => some <| goes s (.activate_generation k s.record.generation)
  | .activate_generation k generation => some <|
    goes (with_generation s (next_generation generation)) (.activate_reload k)
  | .activate_reload k => some <| goes s (.activate_slot k s.record.generation)
  | .activate_slot k generation => some <|
    goes (with_quiesce_generation s generation) (.activate_in_flight k)
  | .activate_in_flight k => some <| goes (with_in_flight s 0) (.activate_category k .call)
  | .activate_category k kind => some <|
    goes (with_category s kind 0) <|
      match kind with
      | .call => .activate_category k .irq
      | .irq => .activate_category k .work
      | .work => .activate_category k .dma
      | .dma => .activate_quarantined k
  | .activate_quarantined k => some <| goes (with_quarantined s false) (.activate_accepting k)
  | .activate_accepting k => some <| goes (with_accepting s true) (.activate_active k)
  | .activate_active k => some <| goes (with_active s true) (.activate_state k)
  | .activate_state _ => some <| returns (with_state s .registered) .ok
  | _ => none

/-- The next atomic operation of a party at `pc`, if an operation is in progress. -/
def turn (s : Slot) (pc : Pc) : Option Turn :=
  activity_pin s pc <|> identity_is_live s pc <|> activity_unpin s pc <|> begin_quiesce s pc <|>
    set_state_identity s pc <|> wait_quiesced s pc <|> clear_driver_record s pc <|>
    activate_driver_record s pc

/-! ## The machine -/

/-- `begun` and `stopped` record the drivers for which `begin_quiesce` has returned OK, and
for which then a later `wait_quiesced` has. The code has no such lists. -/
structure State (n : Nat) where
  slots : Nat → Slot
  pc : Fin n → Pc
  begun : List DriverIdentity
  stopped : List DriverIdentity

inductive Label (n : Nat)
  | pin (i : Fin n) (owner : DriverIdentity) (kind : Activity)
  | unpin (i : Fin n)
  | begin_quiesce (i : Fin n) (owner : DriverIdentity)
  | wait_quiesced (i : Fin n) (owner : DriverIdentity) (spin_limit : Nat) (injected : Bool)
  | set_state (i : Fin n) (owner : DriverIdentity) (target : DriverState)
  | unregister (i : Fin n) (slot : Nat)
  | activate (i : Fin n) (slot : Nat)
  | next (i : Fin n)
deriving DecidableEq

section
variable {n : Nat}

def State.goto (s : State n) (i : Fin n) (pc : Pc) : State n :=
  { s with pc := update s.pc i pc }

/-- A call that first asks whether the driver is live; an identity that is not valid is
refused at once. -/
def State.call (s : State n) (i : Fin n) (owner : DriverIdentity) (pc : Pc) : Option (State n) :=
  if s.pc i ≠ .idle then none
  else if driver_identity_is_valid owner then some (s.goto i pc)
  else some s

/-- The return of OK that the recorded lists are about. -/
def State.note (s : State n) (pc : Pc) (result : Option DriverLoad) : State n :=
  if result ≠ some .ok then s
  else
    match pc with
    | .begin_state d | .set_store d .quiesce => { s with begun := d :: s.begun }
    | .wait_spin d true _ | .wait_last d true => { s with stopped := d :: s.stopped }
    | _ => s

def State.advance (s : State n) (i : Fin n) : Option (State n) :=
  match (s.pc i).slot with
  | none => none
  | some k =>
    match turn (s.slots k) (s.pc i) with
    | none => none
    | some t =>
      some (State.note
        { s with slots := update s.slots k t.slot, pc := update s.pc i t.pc }
        (s.pc i) t.result)

/-- A registration takes a slot that is not active (`alloc_driver_record`). -/
def step (s : State n) : Label n → Option (State n)
  | .pin i owner kind => s.call i owner (.pin_generation owner kind)
  | .unpin i =>
    match s.pc i with
    | .token owner kind => some (s.goto i (.unpin_generation owner kind))
    | _ => none
  | .begin_quiesce i owner => s.call i owner (.live_active owner .begin_quiesce)
  | .wait_quiesced i owner spin_limit injected =>
    s.call i owner
      (.live_active owner (.wait_quiesced (decide (owner ∈ s.begun)) spin_limit injected))
  | .set_state i owner target => s.call i owner (.live_active owner (.set_state (.other target)))
  | .unregister i k =>
    if s.pc i = .idle ∧ k < DRIVER_MAX_RECORDS ∧ (s.slots k).record.active then
      some (s.goto i (.clear_active k))
    else none
  | .activate i k =>
    if s.pc i = .idle ∧ k < DRIVER_MAX_RECORDS ∧ ¬ (s.slots k).record.active then
      some (s.goto i (.activate_load k))
    else none
  | .next i => s.advance i

end

/-- `driver_manager_init`. -/
def init (n : Nat) : State n :=
  { slots := fun _ =>
      ⟨{ active := false, generation := 0, state := .empty },
        { generation := 0, accepting := false, in_flight := 0, category := fun _ => 0,
          quarantined := false }⟩
    pc := fun _ => .idle
    begun := []
    stopped := [] }

def machine (n : Nat) : Machine (State n) (Label n) := .ofFun (· = init n) step

end mini_kernel.driver_activity
