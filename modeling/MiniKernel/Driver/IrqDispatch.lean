-- Driver contexts of a CPU and the dispatch of interrupts (kernel/driver/driver_irq.cpp,
-- kernel/driver/driver_alloc.cpp). Each hook is entered on behalf of its driver; the
-- handlers run afterwards. The activity counters that an entry pins are not part of the
-- context; which drivers are live and which pins are granted is given with the dispatch.
import MiniKernel.Driver.Identity

open mini_kernel.lib mini_kernel.driver

namespace mini_kernel.driver_irq

/-- `DRIVER_CONTEXT_*`. -/
inductive ContextKind
  | none | thread_sleepable | thread_atomic | irq | emergency
deriving DecidableEq

structure DriverExecutionContext where
  owner : DriverIdentity
  kind : ContextKind
  depth : Nat
deriving DecidableEq

/-- A CPU: its entry of `g_cpu_contexts`, and what its local block says. -/
structure Cpu where
  context : DriverExecutionContext
  valid : Bool
  emergency_active : Bool
deriving DecidableEq

structure DriverExecutionToken where
  previous : DriverExecutionContext
  active : Bool
deriving DecidableEq

/-- `driver_manager_identity_is_live`, as the driver table has it. -/
abbrev Live := DriverIdentity → Bool

/-- `pin` is what `driver_manager_activity_pin` returns to this entry. -/
def driver_execution_enter_common (live : Live) (cpu : Cpu) (owner : DriverIdentity)
    (kind : ContextKind) (quiesce_entry : Bool) (pin : DriverLoad) :
    Except DriverLoad (DriverExecutionToken × Cpu) :=
  if !live owner || kind = .none then .error .context_denied
  else if !cpu.valid then .error .context_denied
  else if !quiesce_entry && pin ≠ .ok then .error pin
  else
    .ok ({ previous := cpu.context, active := true },
      { cpu with context := ⟨owner, kind, u32 (cpu.context.depth + 1)⟩ })

def driver_execution_enter (live : Live) (cpu : Cpu) (owner : DriverIdentity)
    (kind : ContextKind) (pin : DriverLoad) : Except DriverLoad (DriverExecutionToken × Cpu) :=
  driver_execution_enter_common live cpu owner kind false pin

/-- The token was made on this CPU. -/
def driver_execution_leave (cpu : Cpu) (token : DriverExecutionToken) : Cpu :=
  if !token.active then cpu
  else if cpu.valid then { cpu with context := token.previous }
  else cpu

def driver_execution_current (live : Live) (cpu : Cpu) : Option DriverExecutionContext :=
  if !cpu.valid || cpu.context.depth = 0 || !live cpu.context.owner then none
  else if cpu.emergency_active then some { cpu.context with kind := .emergency }
  else some cpu.context

/-- What dispatch reads of a hook. A handler is an address. -/
structure DriverIrqHookRecord where
  active : Nat
  irq : Nat
  owner : DriverIdentity
  handler : Nat
deriving DecidableEq

abbrev HookIndex := Fin DRIVER_MAX_IRQ_HOOKS

abbrev Hooks := HookIndex → DriverIrqHookRecord

structure AdmittedIrq where
  hook : HookIndex
  token : DriverExecutionToken
deriving DecidableEq

/-- One turn of the first loop. -/
def admit_turn (live : Live) (hooks : Hooks) (pins : HookIndex → DriverLoad)
    (irq : Nat) :
    Cpu × List AdmittedIrq → HookIndex → Cpu × List AdmittedIrq
  | (cpu, admitted), i =>
    let hook := hooks i
    if hook.active ≠ 1 ∨ hook.irq ≠ irq ∨ hook.handler = 0 then (cpu, admitted)
    else if !live hook.owner then (cpu, admitted)
    else
      match driver_execution_enter live cpu hook.owner .irq (pins i) with
      | .error _ => (cpu, admitted)
      | .ok (token, cpu) => (cpu, admitted ++ [⟨i, token⟩])

/-- The call of a hook's handler, and what `driver_execution_current` tells it. -/
structure Seen where
  hook : HookIndex
  current : Option DriverExecutionContext
deriving DecidableEq

/-- One turn of the second loop. A handler leaves the context as it found it. -/
def handler_turn (live : Live) :
    Cpu × List Seen → AdmittedIrq → Cpu × List Seen
  | (cpu, seen), admitted =>
    (driver_execution_leave cpu admitted.token,
      seen ++ [⟨admitted.hook, driver_execution_current live cpu⟩])

/-- `acquired` is what `kernel_spinlock_acquire(&g_irq_lock)` returns; it fails on a CPU that
waits for a shootdown. -/
def driver_irq_dispatch (live : Live) (hooks : Hooks) (pins : HookIndex → DriverLoad)
    (acquired : Bool) (cpu : Cpu) (irq : Nat) : Cpu × List Seen :=
  if irq > 15 then (cpu, [])
  else if !acquired then (cpu, [])
  else
    let (cpu, admitted) :=
      (List.finRange DRIVER_MAX_IRQ_HOOKS).foldl (admit_turn live hooks pins irq) (cpu, [])
    admitted.foldl (handler_turn live) (cpu, [])

end mini_kernel.driver_irq
