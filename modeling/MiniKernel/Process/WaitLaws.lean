-- A signalled thread is not stranded: a wait ends once, with the first result that is
-- delivered, and when its CPU has let go of the thread, the thread is in the ready queue,
-- or a CPU has it again, in every order of the sections.
import MiniKernel.Lib.Word
import MiniKernel.Process.SchedulerLaws

open mini_kernel.lib List Function

namespace mini_kernel.sched

/-! ## The machine -/

/-- The scheduler with what the code does not have: which threads their CPU has resumed
since it claimed them, the results delivered to the last wait of a thread, and how many of
them ended it. -/
structure Waits (n m : Nat) where
  tables : Sched n m
  resumed : Fin n → Bool
  delivered : Fin n → List Int
  completed : Fin n → Nat

inductive WaitStep (n m : Nat)
  | wait_begin (cpu : Nat) (t : Fin n) (reason : WaitReason) (timeout_ticks tick_now : U32)
    (fault : Bool)
  | set_objects (cpu : Nat) (t : Fin n) (object_id aux_object_id : U64)
  | save_paused (cpu : Nat) (t : Fin n) (pause_reason : PauseReason)
  | wait_signal (t : Fin n) (reason : WaitReason) (result : Int)
  | wait_cancel_object (p : Fin m) (object_id : U64) (result : Int)
  | wait_tick (tick_now : U32)
  | complete_kernel_return (cpu : Nat) (t : Fin n)
  | claim_ready_thread (cpu : Nat) (w : Wanted) (fault : Bool)
  | resume (cpu : Nat) (t : Fin n)

section
variable {n m : Nat} [NeZero n]

/-- The CPU runs the thread, in its system call or in user mode. -/
def Waits.runs (s : Waits n m) (cpu : Nat) (t : Fin n) : Bool :=
  decide ((s.tables t).running_cpu = some cpu) && s.resumed t

/-- The tables change, and for the thread a wait has begun, or is forgotten. -/
def Waits.fresh (s : Waits n m) (t : Fin n) (tables : Sched n m) : Waits n m :=
  { s with
    tables := tables
    delivered := update s.delivered t []
    completed := update s.completed t 0 }

/-- A result is delivered to the wait of the thread. -/
def Waits.deliver (s : Waits n m) (t : Fin n) (tables : Sched n m) (result : Int) (ended : Bool) :
    Waits n m :=
  { s with
    tables := tables
    delivered := update s.delivered t (s.delivered t ++ [result])
    completed := update s.completed t (s.completed t + ended.toNat) }

/-- The turn of a loop for one thread: if it ended the wait, it delivered the result that
is there now. -/
def loop_turn (turn : Sched n m → Fin n → Sched n m) (s : Waits n m) (t : Fin n) : Waits n m :=
  let tables := turn s.tables t
  if (s.tables.context t).wait_pending && !(tables.context t).wait_pending then
    s.deliver t tables (tables.context t).wait_result true
  else { s with tables := tables }

/-- `resume_user_thread_internal`: the system call that waited is completed, which forgets
the wait, the thread is marked running, and its saved context is used up. -/
def resume_user_thread (s : Sched n m) (cpu : Nat) (t : Fin n) : Sched n m :=
  let context := s.context t
  let s := if !context.wait_pending && decide (context.wait_reason ≠ .none) then
    thread_wait_reset_unlocked s t else s
  let s := scheduler_mark_thread_running s cpu t
  s.setContext t { s.context t with resumable := false }

/-- A thread begins to wait and saves its context on the CPU that runs it. A CPU resumes
the thread that it claimed before it returns from it. -/
def wait_step (s : Waits n m) : WaitStep n m → Option (Waits n m)
  | .wait_begin cpu t reason timeout_ticks tick_now fault =>
    if s.runs cpu t then
      let r := thread_wait_begin_unlocked s.tables t reason timeout_ticks tick_now fault
      some (if r.1 then s.fresh t r.2 else { s with tables := r.2 })
    else none
  | .set_objects cpu t object_id aux_object_id =>
    if s.runs cpu t then
      some { s with tables := thread_wait_set_objects s.tables t object_id aux_object_id }
    else none
  | .save_paused cpu t pause_reason =>
    if s.runs cpu t then some { s with tables := save_paused_context s.tables t pause_reason } else none
  | .wait_signal t reason result =>
    let r := thread_wait_signal_unlocked s.tables t reason result
    if reason ≠ .none ∧ (s.tables.context t).wait_reason = reason then
      some (s.deliver t r.2 result r.1)
    else some { s with tables := r.2 }
  | .wait_cancel_object p object_id result =>
    some ((finRange n).foldl (loop_turn (cancel_turn p object_id result)) s)
  | .wait_tick tick_now => some ((finRange n).foldl (loop_turn (tick_turn tick_now)) s)
  | .complete_kernel_return cpu t =>
    if (s.tables t).running_cpu = some cpu then
      if s.resumed t then
        some { s with
          tables := scheduler_complete_kernel_return s.tables cpu t
          resumed := update s.resumed t false }
      else none
    else some { s with tables := scheduler_complete_kernel_return s.tables cpu t }
  | .claim_ready_thread cpu w fault =>
    match scheduler_claim_ready_thread s.tables cpu w fault with
    | (none, tables) => some { s with tables := tables }
    | (some t, tables) => some { s with tables := tables, resumed := update s.resumed t false }
  | .resume cpu t =>
    if (s.tables t).running_cpu = some cpu ∧ s.resumed t = false then
      some { s.fresh t (resume_user_thread s.tables cpu t) with
        resumed := update s.resumed t true }
    else none

omit [NeZero n] in
/-- The loops of the machine are those of the code. -/
theorem loop_tables (turn : Sched n m → Fin n → Sched n m) (s : Waits n m) (l : List (Fin n)) :
    (l.foldl (loop_turn turn) s).tables = l.foldl turn s.tables := by
  induction l generalizing s with
  | nil => rfl
  | cons t l ih =>
    rw [foldl_cons, foldl_cons, ih]
    congr 1
    unfold loop_turn
    simp only
    split <;> rfl

/-- Threads run on CPUs or are off; none waits, and none is ready. -/
structure WaitStart (s : Waits n m) : Prop where
  queue : s.tables.sched_queue = fun _ => none
  head : s.tables.sched_queue_head = 0
  count : s.tables.sched_queue_count = 0
  resumed : ∀ t, s.resumed t = (s.tables t).running_cpu.isSome
  ready : ∀ t, (s.tables.context t).scheduler_state ≠ .ready
  reason : ∀ t, (s.tables.context t).wait_reason = .none
  pending : ∀ t, (s.tables.context t).wait_pending = false
  delivered : ∀ t, s.delivered t = []
  completed : ∀ t, s.completed t = 0

def waits (n m : Nat) [NeZero n] : Machine (Waits n m) (WaitStep n m) := Machine.ofFun WaitStart wait_step

/-! ## The invariant -/

/-- What holds of a thread, whatever its place: `live` and `in_queue` say whether it and
its process are active and whether it is in the queue. -/
structure Watched (live : Bool) (in_queue : Prop) (thread : Thread m) (resumed : Bool)
    (delivered : List Int) (completed : Nat) : Prop where
  queued : in_queue → live ∧ thread.running_cpu = none ∧ thread.context.scheduler_state = .ready
  ready : live → thread.context.resumable → thread.context.scheduler_state = .ready →
    thread.running_cpu = none → in_queue
  signalled : live → completed = 1 → thread.running_cpu = none ∨ resumed →
    thread.context.scheduler_state = .ready
  no_wait : thread.context.wait_reason = .none → thread.context.wait_pending = false ∧ delivered = [] ∧
    completed = 0
  pending : thread.context.wait_pending → delivered = [] ∧ completed = 0
  ended : thread.context.wait_reason ≠ .none → thread.context.wait_pending = false →
    completed = 1 ∧ ∃ rest, delivered = thread.context.wait_result :: rest

/-- Every thread is watched. -/
structure WaitInv (s : Waits n m) : Prop where
  sound : Sound s.tables
  watched : ∀ t, Watched (s.tables.live t) (t ∈ s.tables.queued) (s.tables t) (s.resumed t)
    (s.delivered t) (s.completed t)

variable {s s' : Waits n m} {t : Fin n}

/-- A step for one thread keeps the invariant if that thread is watched after it. -/
theorem WaitInv.only {r : Bool} {d : List Int} {c : Nat} (h : WaitInv s)
    (honly : Only t s.tables s'.tables) (hr : s'.resumed = update s.resumed t r)
    (hd : s'.delivered = update s.delivered t d) (hc : s'.completed = update s.completed t c)
    (ht : Watched (s'.tables.live t) (t ∈ s'.tables.queued) (s'.tables t) r d c) : WaitInv s' where
  sound := honly.sound
  watched u := by
    rw [hr, hd, hc]
    by_cases hu : u = t
    · subst hu
      simpa only [update_self] using ht
    · simp only [update_of_ne hu]
      rw [honly.live hu, honly.others u hu, propext (honly.queue u hu)]
      exact h.watched u

/-- A step for one thread that changes nothing but the tables. -/
theorem WaitInv.tables (h : WaitInv s) {tables : Sched n m} (honly : Only t s.tables tables)
    (ht : Watched (tables.live t) (t ∈ tables.queued) (tables t) (s.resumed t)
      (s.delivered t) (s.completed t)) : WaitInv { s with tables := tables } :=
  h.only honly (update_eq_self _ _).symm (update_eq_self _ _).symm (update_eq_self _ _).symm ht

theorem live_same {tables tables' : Sched n m} (honly : Only t tables tables')
    (hactive : (tables' t).active = (tables t).active) : tables'.live t = tables.live t := by
  unfold Sched.live
  rw [honly.owner_active t, hactive]

/-! ## Each step keeps it -/

theorem begin_watched (h : WaitInv s) {reason : WaitReason} {tables : Sched n m}
    (honly : Only t s.tables tables) (hb : Begun t reason s.tables tables) : WaitInv (s.fresh t tables) := by
  obtain ⟨sequence, timeout_ticks, tick_now, hk⟩ := hb.thread
  refine h.only honly (update_eq_self _ _).symm rfl rfl ?_
  simp only [Waits.fresh]
  rw [hk]
  exact
    { queued := fun hq => absurd hq hb.queue
      ready := fun _ _ hstate => by cases hstate
      signalled := fun _ hone => by cases hone
      no_wait := fun hnone => absurd hnone hb.reason_ne
      pending := fun _ => ⟨rfl, rfl⟩
      ended := fun _ hpending => by cases hpending }

/-- The wait ends: nothing was delivered to it before. -/
theorem ended_watched (h : WaitInv s) {result : Int} {tables : Sched n m} (honly : Only t s.tables tables)
    (he : Ended t result s.tables tables) : WaitInv (s.deliver t tables result true) := by
  have hw := h.watched t
  obtain ⟨hdelivered, hcompleted⟩ := hw.pending he.pending
  obtain ⟨k, hk⟩ := he.thread
  have hlive : tables.live t = s.tables.live t := live_same honly (by rw [hk]; rfl)
  have hready : s.tables.live t → (tables.context t).scheduler_state = .ready := by
    intro hl
    rw [Sched.context, hk, if_pos hl]
    rfl
  have hcpu : (tables t).running_cpu = (s.tables t).running_cpu := by
    rw [hk]
    rfl
  refine h.only honly (update_eq_self _ _).symm rfl rfl ?_
  simp only [Waits.deliver, hdelivered, hcompleted]
  rw [hlive]
  refine ⟨?_, ?_, fun hl _ _ => hready hl, ?_, ?_, ?_⟩
  · intro hq
    have hfree : s.tables.Free t := by
      rcases he.queue hq with hq | hfree
      · obtain ⟨hl, hnone, -⟩ := hw.queued hq
        exact ⟨hl, hnone⟩
      · exact hfree
    exact ⟨hfree.1, by rw [hcpu]; exact hfree.2, hready hfree.1⟩
  · intro hl hr _ hnone
    apply he.enqueued ⟨hl, by rw [← hcpu]; exact hnone⟩
    rw [hk] at hr
    exact hr
  · intro hnone
    rw [hk] at hnone
    exact absurd ((hw.no_wait hnone).1.symm.trans he.pending) (by decide)
  · intro hp
    rw [hk] at hp
    cases hp
  · intro _ _
    refine ⟨rfl, [], ?_⟩
    rw [hk]
    rfl

variable {s' : Waits n m}

theorem signal_watched (h : WaitInv s) (t : Fin n) (reason : WaitReason) (result : Int)
    (hst : wait_step s (.wait_signal t reason result) = some s') : WaitInv s' := by
  have hw := h.watched t
  simp only [wait_step] at hst
  obtain ⟨honly, ⟨hfalse, hsame, hrefused⟩ | ⟨htrue, hreason, he⟩⟩ :=
    signal_does h.sound t reason result
  · rw [hfalse, hsame] at hst
    split at hst
    · -- The wait had ended already: the result is too late.
      rename_i hmatch
      cases hst
      have hnot : (s.tables.context t).wait_pending = false := by
        by_contra hp
        exact hrefused ⟨by simpa using hp, hmatch.2⟩
      have hwaited : (s.tables.context t).wait_reason ≠ .none := by
        rw [hmatch.2]
        exact hmatch.1
      obtain ⟨hone, rest, hrest⟩ := hw.ended hwaited hnot
      refine h.only (.refl h.sound t) (update_eq_self _ _).symm rfl rfl ?_
      refine ⟨hw.queued, hw.ready, hw.signalled, fun hnone => absurd hnone hwaited, ?_, ?_⟩
      · intro hp
        exact absurd (hnot.symm.trans hp) (by decide)
      · intro _ _
        exact ⟨hone, rest ++ [result], by rw [hrest]; rfl⟩
    · cases hst
      exact h
  · have hne : reason ≠ .none := by
      rintro rfl
      exact absurd ((hw.no_wait hreason).1.symm.trans he.pending) (by decide)
    rw [if_pos ⟨hne, hreason⟩, htrue] at hst
    cases hst
    exact ended_watched h honly he

variable {turn : Sched n m → Fin n → Sched n m}

section
variable (h : WaitInv s)
include h

/-- A turn that ended the wait delivered the result that the context has. -/
theorem ended_turn {result : Int}
    (honly : Only t s.tables (turn s.tables t)) (he : Ended t result s.tables (turn s.tables t)) :
    WaitInv (loop_turn turn s t) := by
  obtain ⟨k, hk⟩ := he.thread
  have hended : ((turn s.tables t).context t).wait_pending = false ∧
      ((turn s.tables t).context t).wait_result = result := by
    rw [Sched.context, hk]
    exact ⟨rfl, rfl⟩
  unfold loop_turn
  simp only
  rw [he.pending, hended.1, hended.2]
  exact ended_watched h honly he

theorem same_turn (hs : turn s.tables t = s.tables) : WaitInv (loop_turn turn s t) := by
  unfold loop_turn
  simp only
  rw [hs, Bool.and_not_self]
  exact h

theorem cancel_watched (p : Fin m) (object_id : U64) (result : Int) :
    WaitInv ((finRange n).foldl (loop_turn (cancel_turn p object_id result)) s) := by
  refine foldlRecOn _ _ h fun s h t _ => ?_
  obtain ⟨honly, hs | he⟩ := cancel_turn_does h.sound p object_id result t
  · exact same_turn h hs
  · exact ended_turn h honly he

theorem tick_watched (tick_now : U32) :
    WaitInv ((finRange n).foldl (loop_turn (tick_turn tick_now)) s) := by
  refine foldlRecOn _ _ h fun s h t _ => ?_
  obtain ⟨honly, hs | hd | ⟨result, he⟩⟩ := tick_turn_does h.sound tick_now t
  · exact same_turn h hs
  · have hw := h.watched t
    have hself : (tick_turn tick_now s.tables t).thread_table t = _ :=
      (congrArg (fun s' : Sched n m => s'.thread_table t) hd).trans (Sched.setContext_self _ _ _)
    have hpending : ((tick_turn tick_now s.tables t).context t).wait_pending =
        (s.tables.context t).wait_pending := by rw [Sched.context, hself]
    have hqueued : (tick_turn tick_now s.tables t).queued = s.tables.queued := by rw [hd]; rfl
    unfold loop_turn
    simp only
    rw [hpending, Bool.and_not_self]
    apply h.tables honly
    rw [live_same honly (by rw [hself]), hqueued, hself]
    exact ⟨hw.queued, hw.ready, hw.signalled, hw.no_wait, hw.pending, hw.ended⟩
  · exact ended_turn h honly he

/-- A thread that runs writes to its own context. -/
theorem write_watched {context : ThreadContext} (hcpu : (s.tables t).running_cpu ≠ none)
    (hstate : context.scheduler_state = (s.tables.context t).scheduler_state)
    (hreason : context.wait_reason = (s.tables.context t).wait_reason)
    (hpending : context.wait_pending = (s.tables.context t).wait_pending)
    (hresult : context.wait_result = (s.tables.context t).wait_result) :
    WaitInv { s with tables := s.tables.setContext t context } := by
  have hw := h.watched t
  have honly : Only t s.tables (s.tables.setContext t context) := only_setContext h.sound context
  apply h.tables honly
  rw [live_same honly (by simp), Sched.setContext_self]
  refine ⟨?_, ?_, ?_, ?_, ?_, ?_⟩
  · intro hq
    exact absurd (hw.queued hq).2.1 hcpu
  · intro _ _ _ hnone
    exact absurd hnone hcpu
  · simp only [hstate]
    exact hw.signalled
  · simp only [hreason, hpending]
    exact hw.no_wait
  · simp only [hpending]
    exact hw.pending
  · simp only [hreason, hpending, hresult]
    exact hw.ended

theorem complete_watched (cpu : Nat) (t : Fin n)
    (hst : wait_step s (.complete_kernel_return cpu t) = some s') : WaitInv s' := by
  have hw := h.watched t
  obtain ⟨honly, hr⟩ := complete_does h.sound cpu t
  obtain ⟨k, hk⟩ := hr.thread
  have hlive := live_same honly (by rw [hk]; rfl)
  set tables := scheduler_complete_kernel_return s.tables cpu t with htables
  -- Whether or not this CPU had the thread, a thread that was signalled is ready now.
  have hwatched : ∀ resumed, ((s.tables.live t → s.completed t = 1 →
      (released (s.tables t) cpu).running_cpu = none ∨ resumed = true →
        (s.tables.context t).scheduler_state = .ready)) →
      Watched (tables.live t) (t ∈ tables.queued) (tables t) resumed (s.delivered t)
        (s.completed t) := by
    intro resumed hsignalled
    rw [hlive, hk]
    refine ⟨?_, fun hl hres hready hnone => hr.enqueued hl hnone hres hready, hsignalled, hw.no_wait,
      hw.pending, hw.ended⟩
    intro hq
    rcases hr.queue hq with hq | ⟨hl, hnone, hready⟩
    · obtain ⟨hl, hnone, hready⟩ := hw.queued hq
      refine ⟨hl, ?_, hready⟩
      show (released (s.tables t) cpu).running_cpu = none
      simp [released, hnone]
    · exact ⟨hl, hnone, hready⟩
  simp only [wait_step] at hst
  split at hst
  · rename_i hcpu
    split at hst
    · rename_i hresumed
      cases hst
      refine h.only honly rfl (update_eq_self _ _).symm (update_eq_self _ _).symm ?_
      exact hwatched false fun hl hone _ => hw.signalled hl hone (.inr hresumed)
    · cases hst
  · rename_i hcpu
    cases hst
    apply h.tables honly
    apply hwatched
    intro hl hone hor
    apply hw.signalled hl hone
    rw [released, if_neg hcpu] at hor
    exact hor

theorem claim_watched (cpu : Nat) (w : Wanted) (fault : Bool)
    (hst : wait_step s (.claim_ready_thread cpu w fault) = some s') : WaitInv s' := by
  simp only [wait_step] at hst
  rcases claim_does h.sound cpu w fault with hnone | ⟨t, ht, honly, hgot⟩
  · rw [hnone] at hst
    cases hst
    exact h
  · have hclaim : scheduler_claim_ready_thread s.tables cpu w fault =
        (some t, (scheduler_claim_ready_thread s.tables cpu w fault).2) := Prod.ext ht rfl
    rw [hclaim] at hst
    cases hst
    have hw := h.watched t
    have hlive := live_same honly (by rw [hgot.thread]; rfl)
    refine h.only honly rfl (update_eq_self _ _).symm (update_eq_self _ _).symm ?_
    rw [hlive, hgot.thread]
    refine ⟨fun hq => absurd hq hgot.queue, fun _ _ hstate => (by cases hstate), ?_, hw.no_wait, hw.pending, hw.ended⟩
    intro _ _ hor
    rcases hor with hnone | hfalse
    · cases hnone
    · cases hfalse

end

variable {cpu : Nat}

/-- After a thread is resumed it runs, has no saved context, and no wait that ended. -/
theorem resume_does {tables : Sched n m} (h : Sound tables) (hcpu : (tables t).running_cpu = some cpu)
    (hwait : (tables.context t).wait_reason = .none → (tables.context t).wait_pending = false) :
    let r := resume_user_thread tables cpu t
    Only t tables r ∧ (t ∈ r.queued → t ∈ tables.queued) ∧ (r t).running_cpu = some cpu ∧
      (r.context t).resumable = false ∧
      ((r.context t).wait_pending = false ↔ (r.context t).wait_reason = .none) := by
  unfold resume_user_thread
  simp only
  set s1 := (if !(tables.context t).wait_pending && decide ((tables.context t).wait_reason ≠ .none) then
    thread_wait_reset_unlocked tables t else tables) with hs1
  -- Once the call is completed, a wait that is not pending is gone.
  have hcomplete : Only t tables s1 ∧ s1.queued = tables.queued ∧
      (s1 t).running_cpu = some cpu ∧
      ((s1.context t).wait_pending = false ↔ (s1.context t).wait_reason = .none) := by
    rw [hs1]
    split
    · refine ⟨only_setContext h _, rfl, ?_, ?_⟩
      · unfold thread_wait_reset_unlocked
        rw [Sched.setContext_self]
        exact hcpu
      · unfold thread_wait_reset_unlocked
        rw [Sched.context, Sched.setContext_self]
        exact ⟨fun _ => rfl, fun _ => rfl⟩
    · rename_i hkept
      refine ⟨.refl h t, rfl, hcpu, ?_, hwait⟩
      intro hp
      by_contra hreason
      simp [hp, hreason] at hkept
  obtain ⟨honly, hqueued, hcpu1, hiff⟩ := hcomplete
  obtain ⟨honly2, hdoes⟩ := mark_running_does honly.sound cpu t
  set s2 := scheduler_mark_thread_running s1 cpu t
  have hrunning : (t ∈ s2.queued → t ∈ s1.queued) ∧ (s2 t).running_cpu = some cpu ∧
      ((s2.context t).wait_pending = false ↔ (s2.context t).wait_reason = .none) := by
    rcases hdoes with ⟨hs, -⟩ | hr
    · rw [hs]
      exact ⟨id, hcpu1, hiff⟩
    · obtain ⟨context, hk, -, hsame⟩ := hr.thread
      refine ⟨fun hq => (hr.queue hq).1, by rw [hk], ?_⟩
      rw [Sched.context, hk]
      simp only
      rcases hsame with ⟨hp, hreason⟩ | ⟨hp, hreason⟩
      · rw [hp, hreason]
        exact hiff
      · rw [hp, hreason]
        simp
  refine ⟨(honly.trans honly2).trans (only_setContext honly2.sound _), ?_, ?_, ?_, ?_⟩
  · intro hq
    rw [← hqueued]
    exact hrunning.1 hq
  · rw [Sched.setContext_self]
    exact hrunning.2.1
  · rw [Sched.context, Sched.setContext_self]
  · rw [Sched.context, Sched.setContext_self]
    exact hrunning.2.2

theorem resume_watched (h : WaitInv s) (hcpu : (s.tables t).running_cpu = some cpu) :
    WaitInv { s.fresh t (resume_user_thread s.tables cpu t) with
      resumed := update s.resumed t true } := by
  have hw := h.watched t
  obtain ⟨honly, hqueue, hcpu', hresumable, hiff⟩ :=
    resume_does h.sound hcpu fun hreason => (hw.no_wait hreason).1
  refine h.only honly rfl rfl rfl ?_
  refine ⟨?_, ?_, fun _ hone => (by cases hone), ?_, fun _ => ⟨rfl, rfl⟩, ?_⟩
  · intro hq
    have hnone := (hw.queued (hqueue hq)).2.1
    rw [hcpu] at hnone
    cases hnone
  · intro _ hres
    exact absurd (hresumable.symm.trans hres) (by decide)
  · intro hreason
    exact ⟨hiff.mpr hreason, rfl, rfl⟩
  · intro hreason hp
    exact absurd (hiff.mp hp) hreason

/-! ## Every run -/

theorem start_watched (h : WaitStart s) : WaitInv s := by
  have hempty := sound_empty h.queue h.head h.count
  refine ⟨hempty.2, ?_⟩
  intro t
  rw [hempty.1, h.delivered t, h.completed t]
  exact
    { queued := fun hq => absurd hq not_mem_nil
      ready := fun _ _ hready => absurd hready (h.ready t)
      signalled := fun _ hone => by cases hone
      no_wait := fun _ => ⟨h.pending t, rfl, rfl⟩
      pending := fun _ => ⟨rfl, rfl⟩
      ended := fun hreason => absurd (h.reason t) hreason }

omit [NeZero n] in
theorem Waits.runs_cpu (h : s.runs cpu t) : (s.tables t).running_cpu ≠ none := by
  simp only [Waits.runs, Bool.and_eq_true, decide_eq_true_eq] at h
  rw [h.1]
  exact Option.some_ne_none cpu

theorem step_watched {l : WaitStep n m} (h : WaitInv s) (hst : wait_step s l = some s') : WaitInv s' := by
  cases l
  case wait_signal t reason result => exact signal_watched h t reason result hst
  case complete_kernel_return cpu t => exact complete_watched h cpu t hst
  case claim_ready_thread cpu w fault => exact claim_watched h cpu w fault hst
  all_goals simp only [wait_step, Option.ite_none_right_eq_some, Option.some.injEq] at hst
  case wait_begin cpu t reason timeout_ticks tick_now fault =>
    obtain ⟨_, rfl⟩ := hst
    obtain ⟨honly, ⟨hfalse, hs⟩ | ⟨htrue, hb⟩⟩ := begin_does h.sound t reason timeout_ticks tick_now fault
    · rw [hfalse, hs]
      exact h
    · rw [htrue]
      exact begin_watched h honly hb
  case set_objects cpu t object_id aux_object_id =>
    obtain ⟨hruns, rfl⟩ := hst
    unfold thread_wait_set_objects
    split
    · exact write_watched h (Waits.runs_cpu hruns) rfl rfl rfl rfl
    · exact h
  case save_paused cpu t pause_reason =>
    obtain ⟨hruns, rfl⟩ := hst
    exact write_watched h (Waits.runs_cpu hruns) rfl rfl rfl rfl
  case wait_cancel_object p object_id result =>
    subst hst
    exact cancel_watched h p object_id result
  case wait_tick tick_now =>
    subst hst
    exact tick_watched h tick_now
  case resume cpu t =>
    obtain ⟨hclaimed, rfl⟩ := hst
    exact resume_watched h hclaimed.1

/-- In every state: a wait has ended at most once, with the first result that was
delivered to it; and a thread whose wait has ended, which is active with an active process
and has a saved context, is in the queue once and on no CPU, or on a CPU and not in the
queue. The queue is never too full for it. -/
theorem signalled_threads_are_not_stranded (h : (waits n m).Reachable s) (t : Fin n) :
    s.completed t ≤ 1 ∧
    (∀ result rest, s.delivered t = result :: rest → s.completed t = 1 ∧
      (s.tables.context t).wait_pending = false ∧ (s.tables.context t).wait_result = result) ∧
    (s.completed t = 1 → s.tables.live t = true → (s.tables.context t).resumable = true →
      ((s.tables.thread_table t).running_cpu = none ∧ s.tables.queued.count t = 1) ∨
      ((∃ cpu, (s.tables.thread_table t).running_cpu = some cpu) ∧ s.tables.queued.count t = 0)) := by
  have hinv : WaitInv s := h.inv (fun _ hs => start_watched hs) fun _ _ _ hi hst => step_watched hi hst
  have hw := hinv.watched t
  -- The three cases of a wait: none, pending, ended.
  have hcases : (s.delivered t = [] ∧ s.completed t = 0) ∨
      ((s.tables.context t).wait_pending = false ∧ s.completed t = 1 ∧
        ∃ rest, s.delivered t = (s.tables.context t).wait_result :: rest) := by
    by_cases hreason : (s.tables.context t).wait_reason = .none
    · exact .inl (hw.no_wait hreason).2
    · cases hp : (s.tables.context t).wait_pending with
      | true => exact .inl (hw.pending hp)
      | false =>
        obtain ⟨hone, hrest⟩ := hw.ended hreason hp
        exact .inr ⟨rfl, hone, hrest⟩
  refine ⟨?_, ?_, ?_⟩
  · rcases hcases with ⟨-, hzero⟩ | ⟨-, hone, -⟩
    · omega
    · omega
  · intro result rest hdelivered
    rcases hcases with ⟨hnil, -⟩ | ⟨hp, hone, rest', hrest⟩
    · rw [hnil] at hdelivered
      cases hdelivered
    · rw [hrest] at hdelivered
      exact ⟨hone, hp, (cons.inj hdelivered).1⟩
  · intro hone hlive hresumable
    cases hcpu : (s.tables t).running_cpu with
    | none =>
      have hready := hw.signalled hlive hone (.inl hcpu)
      exact .inl ⟨rfl, count_eq_one_of_mem hinv.sound.nodup (hw.ready hlive hresumable hready hcpu)⟩
    | some cpu =>
      refine .inr ⟨⟨cpu, rfl⟩, count_eq_zero_of_not_mem ?_⟩
      intro hq
      have hnone := (hw.queued hq).2.1
      rw [hcpu] at hnone
      cases hnone

end

open mini_kernel.thread (THREAD_TABLE_SIZE PROCESS_TABLE_SIZE)

/-- The first thread runs on the first CPU. -/
def one_running : Waits THREAD_TABLE_SIZE PROCESS_TABLE_SIZE where
  tables := one_thread.tables.setThread 0 { one_thread.tables 0 with
    running_cpu := some 0
    context := { (thread_record_zero PROCESS_TABLE_SIZE).context with scheduler_state := .running } }
  resumed := fun t => decide (t.val = 0)
  delivered := fun _ => []
  completed := fun _ => 0

theorem one_running_starts : WaitStart one_running where
  queue := rfl
  head := rfl
  count := rfl
  resumed := by decide +kernel
  ready := by decide +kernel
  reason := by decide +kernel
  pending := by decide +kernel
  delivered _ := rfl
  completed _ := rfl

/-- The wait is signalled twice before the CPU has saved the context and let go of the
thread. The first result stays, and the CPU that lets go puts the thread into the queue. -/
theorem an_early_signal_is_not_lost : ∃ s : Waits THREAD_TABLE_SIZE PROCESS_TABLE_SIZE,
    (waits _ _).Reachable s ∧ (s.tables.context ⟨0, by decide⟩).wait_result = PROCESS_WAIT_TIMEOUT ∧
    s.tables.queued.count ⟨0, by decide⟩ = 1 := by
  obtain ⟨s, hreach, hdelivered, hlive, hresumable, hcpu⟩ : ∃ s : Waits THREAD_TABLE_SIZE PROCESS_TABLE_SIZE,
      (waits _ _).Reachable s ∧ s.delivered ⟨0, by decide⟩ = [PROCESS_WAIT_TIMEOUT, PROCESS_WAIT_OK] ∧
      s.tables.live ⟨0, by decide⟩ ∧ (s.tables.context ⟨0, by decide⟩).resumable ∧
      (s.tables ⟨0, by decide⟩).running_cpu = none :=
    Machine.exists_reachable (.start one_running_starts) [.wait_begin 0 ⟨0, by decide⟩ .ipc 0 0 false,
      .wait_signal ⟨0, by decide⟩ .ipc PROCESS_WAIT_TIMEOUT,
      .wait_signal ⟨0, by decide⟩ .ipc PROCESS_WAIT_OK, .save_paused 0 ⟨0, by decide⟩ .wait,
      .complete_kernel_return 0 ⟨0, by decide⟩] (by decide +kernel)
  obtain ⟨-, hfirst, hplace⟩ := signalled_threads_are_not_stranded hreach ⟨0, by decide⟩
  obtain ⟨hone, -, hresult⟩ := hfirst _ _ hdelivered
  refine ⟨s, hreach, hresult, ?_⟩
  rcases hplace hone hlive hresumable with ⟨-, hcount⟩ | ⟨⟨cpu, hsome⟩, -⟩
  · exact hcount
  · rw [hcpu] at hsome
    cases hsome

end mini_kernel.sched
