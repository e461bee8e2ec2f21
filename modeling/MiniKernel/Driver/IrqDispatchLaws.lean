-- Interrupt handlers and the context of their driver. Dispatch enters every hook before
-- it runs the first handler, and leaves them in the order it entered them. With one
-- hook on the line the handler runs as its driver and the context comes back; with
-- two it does not.
import MiniKernel.Driver.IrqDispatch

open mini_kernel.lib mini_kernel.driver List

namespace mini_kernel.driver_irq

/-- The hook is entered: it is set on this line, its driver is live, and the entry is
granted. -/
def admits (live : Live) (hooks : Hooks) (pins : HookIndex → DriverLoad) (cpu : Cpu)
    (irq : Nat) (i : HookIndex) : Bool :=
  (hooks i).active = 1 ∧ (hooks i).irq = irq ∧ (hooks i).handler ≠ 0 ∧ live (hooks i).owner ∧
    cpu.valid ∧ pins i = .ok

/-- The hooks that a dispatch enters, in table order. -/
def admitted (live : Live) (hooks : Hooks) (pins : HookIndex → DriverLoad) (acquired : Bool)
    (cpu : Cpu) (irq : Nat) : List HookIndex :=
  if irq > 15 ∨ acquired = false then []
  else (finRange DRIVER_MAX_IRQ_HOOKS).filter (admits live hooks pins cpu irq)

/-- The context of a hook entered in context `c`. -/
def entered (hooks : Hooks) (c : DriverExecutionContext) (i : HookIndex) :
    DriverExecutionContext :=
  ⟨(hooks i).owner, .irq, u32 (c.depth + 1)⟩

/-- The tokens of hooks entered one after the other. -/
def tokens (hooks : Hooks) : DriverExecutionContext → List HookIndex →
    List AdmittedIrq
  | _, [] => []
  | c, i :: l => ⟨i, { previous := c, active := true }⟩ :: tokens hooks (entered hooks c i) l

variable {live : Live} {hooks : Hooks} {pins : HookIndex → DriverLoad} {acquired : Bool}
  {cpu : Cpu} {irq : Nat} {i : HookIndex} {l : List HookIndex}
  {c : DriverExecutionContext}

/-! ## The first loop -/

theorem admit_turn_eq (acc : List AdmittedIrq) : admit_turn live hooks pins irq (cpu, acc) i =
      if admits live hooks pins cpu irq i then ({ cpu with context := entered hooks cpu.context i },
          acc ++ [⟨i, { previous := cpu.context, active := true }⟩]) else (cpu, acc) := by
  unfold admit_turn admits driver_execution_enter driver_execution_enter_common
  simp only
  by_cases hset : (hooks i).active ≠ 1 ∨ (hooks i).irq ≠ irq ∨ (hooks i).handler = 0
  · rw [if_pos hset, if_neg]
    simp only [decide_eq_true_eq]
    tauto
  rw [if_neg hset]
  simp only [ne_eq, not_or, not_not] at hset
  by_cases hlive : live (hooks i).owner
  · by_cases hvalid : cpu.valid
    · by_cases hpin : pins i = .ok
      · simp [hset, hlive, hvalid, hpin, entered]
      · simp [hlive, hvalid, hpin]
    · simp [hlive, hvalid]
  · simp [hlive]

/-- The first loop enters the hooks one inside the other. -/
theorem admit_loop (acc : List AdmittedIrq) : l.foldl (admit_turn live hooks pins irq) (cpu, acc) =
      ({ cpu with context :=
          (l.filter (admits live hooks pins cpu irq)).foldl (entered hooks) cpu.context },
        acc ++ tokens hooks cpu.context (l.filter (admits live hooks pins cpu irq))) := by
  induction l generalizing cpu acc with
  | nil => simp [tokens]
  | cons i l ih =>
    rw [foldl_cons, admit_turn_eq]
    by_cases hi : admits live hooks pins cpu irq i
    · have hsame : admits live hooks pins { cpu with context := entered hooks cpu.context i } irq =
          admits live hooks pins cpu irq := rfl
      rw [if_pos hi, ih, hsame, filter_cons_of_pos hi]
      simp [tokens]
    · rw [if_neg hi, ih, filter_cons_of_neg hi]

/-! ## The second loop -/

/-- What the handlers see, from the context they start in. -/
def sights (live : Live) (cpu : Cpu) : List AdmittedIrq → List Seen
  | [] => []
  | a :: l => ⟨a.hook, driver_execution_current live cpu⟩ ::
      sights live (driver_execution_leave cpu a.token) l

theorem handler_loop (l : List AdmittedIrq) (seen : List Seen) :
    l.foldl (handler_turn live) (cpu, seen) =
      (l.foldl (fun cpu a => driver_execution_leave cpu a.token) cpu, seen ++ sights live cpu l) := by
  induction l generalizing cpu seen with
  | nil => simp [sights]
  | cons a l ih =>
    rw [foldl_cons, handler_turn, ih]
    simp [sights]

theorem depth_nest (h : l ≠ []) : (l.foldl (entered hooks) c).depth = u32 (c.depth + l.length) := by
  induction l generalizing c with
  | nil => exact absurd rfl h
  | cons i l ih =>
    cases l with
    | nil => rfl
    | cons j l =>
      rw [foldl_cons, ih (by simp)]
      simp only [entered, u32, length_cons]
      omega

/-- Leaving every hook ends in the context the last one was entered in. -/
theorem leave_loop (hooks : Hooks) (c : DriverExecutionContext) (cpu : Cpu) (hv : cpu.valid)
    (l : List HookIndex) (i : HookIndex) :
    (tokens hooks c (l ++ [i])).foldl (fun cpu a => driver_execution_leave cpu a.token) cpu =
      { cpu with context := l.foldl (entered hooks) c } := by
  induction l generalizing c cpu with
  | nil => simp [tokens, driver_execution_leave, hv]
  | cons j l ih =>
    rw [cons_append, tokens, foldl_cons, foldl_cons]
    have hleave : driver_execution_leave cpu { previous := c, active := true } =
        { cpu with context := c } := by simp [driver_execution_leave, hv]
    rw [hleave]
    exact ih _ _ hv

/-! ## Dispatch -/

/-- Each handler ran as the driver of its hook, and the context is as before. -/
def RunsAsOwner (hooks : Hooks) (cpu : Cpu) (out : Cpu × List Seen) : Prop :=
  (∀ seen ∈ out.2, ∃ c, seen.current = some c ∧ c.owner = (hooks seen.hook).owner ∧ c.kind = .irq) ∧
    out.1 = cpu

theorem dispatch_eq : driver_irq_dispatch live hooks pins acquired cpu irq =
      let hs := admitted live hooks pins acquired cpu irq
      let inner := { cpu with context := hs.foldl (entered hooks) cpu.context }
      ((tokens hooks cpu.context hs).foldl (fun cpu a => driver_execution_leave cpu a.token) inner,
        sights live inner (tokens hooks cpu.context hs)) := by
  unfold driver_irq_dispatch admitted
  by_cases hnone : irq > 15 ∨ acquired = false
  · rw [if_pos hnone]
    rcases hnone with hline | rfl <;> simp [*, tokens, sights]
  · simp only [not_or, Bool.not_eq_false] at hnone
    simp only [hnone, Bool.not_true, Bool.true_eq_false, or_self, if_false]
    rw [admit_loop]
    simp only [nil_append]
    rw [handler_loop]
    simp

theorem mem_admitted (h : i ∈ admitted live hooks pins acquired cpu irq) : live (hooks i).owner ∧ cpu.valid := by
  unfold admitted at h
  split at h
  · simp at h
  · have hadmits := (mem_filter.mp h).2
    simp only [admits, decide_eq_true_eq] at hadmits
    exact ⟨hadmits.2.2.2.1, hadmits.2.2.2.2.1⟩

theorem length_admitted : (admitted live hooks pins acquired cpu irq).length ≤ DRIVER_MAX_IRQ_HOOKS := by
  unfold admitted
  split
  · simp
  · refine (length_filter_le _ _).trans ?_
    simp

/-- Two hooks or more: the context that is left behind is too deep. -/
theorem context_lost (h : 2 ≤ (admitted live hooks pins acquired cpu irq).length) :
    (driver_irq_dispatch live hooks pins acquired cpu irq).1 ≠ cpu := by
  rw [dispatch_eq]
  simp only
  have hlen : (admitted live hooks pins acquired cpu irq).length ≤ 32 := length_admitted
  rcases eq_nil_or_concat' (admitted live hooks pins acquired cpu irq) with hnil | ⟨l, i, hl⟩
  · simp [hnil] at h
  · have hvalid : cpu.valid := (mem_admitted (i := i) (by rw [hl]; simp)).2
    rw [hl] at h hlen ⊢
    simp only [length_append, length_singleton] at h hlen
    have hne : l ≠ [] := by
      rintro rfl
      simp at h
    have hleft := leave_loop hooks cpu.context
      { cpu with context := (l ++ [i]).foldl (entered hooks) cpu.context } hvalid l i
    intro heq
    have hdepth := congrArg (fun cpu : Cpu => cpu.context.depth) (hleft.symm.trans heq)
    simp only [depth_nest hne, u32] at hdepth
    omega

/-- Handlers run as their own driver, and the context is given back, exactly when at most
one hook is entered, and then outside of an emergency and with room for one more
level of nesting. -/
theorem handlers_run_as_owner_iff (live : Live) (hooks : Hooks)
    (pins : Fin DRIVER_MAX_IRQ_HOOKS → DriverLoad) (acquired : Bool) (cpu : Cpu) (irq : Nat) :
    RunsAsOwner hooks cpu (driver_irq_dispatch live hooks pins acquired cpu irq) ↔
      (admitted live hooks pins acquired cpu irq).length ≤ 1 ∧
        (admitted live hooks pins acquired cpu irq ≠ [] →
          cpu.emergency_active = false ∧ u32 (cpu.context.depth + 1) ≠ 0) := by
  by_cases hmany : 2 ≤ (admitted live hooks pins acquired cpu irq).length
  · have hlost := context_lost hmany
    constructor
    · intro h
      exact absurd h.2 hlost
    · intro h
      omega
  · rcases hone : admitted live hooks pins acquired cpu irq with _ | ⟨i, l⟩
    · simp [RunsAsOwner, dispatch_eq, hone, tokens, sights]
    · obtain rfl : l = [] := by
        rw [hone] at hmany
        simp only [length_cons, not_le] at hmany
        exact length_eq_zero_iff.mp (by omega)
      obtain ⟨hlive, hvalid⟩ := mem_admitted (i := i) (by rw [hone]; simp)
      have hsee : driver_execution_current live { cpu with context := entered hooks cpu.context i } =
          if u32 (cpu.context.depth + 1) = 0 then none
          else if cpu.emergency_active then
            some { entered hooks cpu.context i with kind := .emergency }
          else some (entered hooks cpu.context i) := by
        by_cases hdepth : u32 (cpu.context.depth + 1) = 0
        · simp [driver_execution_current, entered, hdepth]
        · simp [driver_execution_current, entered, hvalid, hlive, hdepth]
      have hback := leave_loop hooks cpu.context
        { cpu with context := entered hooks cpu.context i } hvalid [] i
      simp only [nil_append, tokens, foldl_cons, foldl_nil] at hback
      simp only [RunsAsOwner, dispatch_eq, hone, tokens, sights, foldl_cons, foldl_nil,
        hback, hsee]
      by_cases hdepth : u32 (cpu.context.depth + 1) = 0
      · simp [hdepth]
      · cases hemergency : cpu.emergency_active <;> simp [hdepth, entered]

/-- Two drivers share line 5. -/
def shared_line : Hooks := fun i =>
  if i.val = 0 then { active := 1, irq := 5, owner := ⟨0, 1⟩, handler := 4096 }
  else if i.val = 1 then { active := 1, irq := 5, owner := ⟨1, 1⟩, handler := 8192 }
  else { active := 0, irq := 0, owner := driver_identity_invalid, handler := 0 }

def idle_cpu : Cpu :=
  { context := ⟨driver_identity_invalid, .none, 0⟩, valid := true, emergency_active := false }

/-- The first driver's handler runs as the second driver, the second one's as none, and
the CPU stays in the first driver's context after the interrupt. -/
theorem shared_line_runs_as_other :
    driver_irq_dispatch (fun _ => true) shared_line (fun _ => .ok) true idle_cpu 5 =
        ({ idle_cpu with context := ⟨⟨0, 1⟩, .irq, 1⟩ },
          [⟨⟨0, by decide⟩, some ⟨⟨1, 1⟩, .irq, 2⟩⟩, ⟨⟨1, by decide⟩, none⟩]) ∧
      ¬ RunsAsOwner shared_line idle_cpu
        (driver_irq_dispatch (fun _ => true) shared_line (fun _ => .ok) true idle_cpu 5) := by
  refine ⟨by decide +kernel, ?_⟩
  intro h
  exact absurd h.2 (by decide +kernel)

end mini_kernel.driver_irq
