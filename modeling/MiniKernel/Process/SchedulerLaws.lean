-- The laws of the ready queue: whatever the CPUs do, in any order, no thread is in the
-- queue twice, a thread in the queue is active and on no CPU, no two CPUs have the same
-- thread, and a thread that a CPU gets is alive and does not wait.
import MiniKernel.Lib.Word
import MiniKernel.Process.SchedulerQueue
import MiniKernel.Process.ThreadStacks

open mini_kernel.lib List Function Option

namespace mini_kernel.sched

/-! ## The machine -/

/-- The scheduler, and the threads that each CPU has claimed and not given back. -/
structure Claims (n m : Nat) where
  tables : Sched n m
  held : List (Nat × Fin n)

/-- One section under the lock, and the CPU that runs it where the section asks for it. -/
inductive Section (n m : Nat)
  | enqueue_thread (t : Fin n)
  | remove_thread (t : Fin n)
  | mark_thread_running (cpu : Nat) (t : Fin n)
  | wait_begin (t : Fin n) (reason : WaitReason) (timeout_ticks tick_now : U32) (fault : Bool)
  | wait_signal (t : Fin n) (reason : WaitReason) (result : Int)
  | wait_cancel_object (p : Fin m) (object_id : U64) (result : Int)
  | wait_tick (tick_now : U32)
  | complete_kernel_return (cpu : Nat) (t : Fin n)
  | claim_ready_thread (cpu : Nat) (w : Wanted) (fault : Bool)
  | mark_exited (t : Fin n)
  | finish (p : Fin m) (failed : Bool)
  | save_paused (t : Fin n) (pause_reason : PauseReason)

section
variable {n m : Nat} [NeZero n]

/-- What the section does to the tables and the queue. -/
def run_section (s : Sched n m) : Section n m → Sched n m
  | .enqueue_thread t => scheduler_enqueue_unlocked s t
  | .remove_thread t => scheduler_remove_unlocked s t
  | .mark_thread_running cpu t => scheduler_mark_thread_running s cpu t
  | .wait_begin t reason timeout_ticks tick_now fault =>
    (thread_wait_begin_unlocked s t reason timeout_ticks tick_now fault).2
  | .wait_signal t reason result => (thread_wait_signal_unlocked s t reason result).2
  | .wait_cancel_object p object_id result => thread_wait_cancel_object s p object_id result
  | .wait_tick tick_now => process_wait_tick s tick_now
  | .complete_kernel_return cpu t => scheduler_complete_kernel_return s cpu t
  | .claim_ready_thread cpu w fault => (scheduler_claim_ready_thread s cpu w fault).2
  | .mark_exited t => thread_mark_exited s t
  | .finish p failed => process_finish s p (if failed then .failed else .returned)
  | .save_paused t pause_reason => save_paused_context s t pause_reason

/-- What the section does to the claims. -/
def claims_after (s : Claims n m) : Section n m → List (Nat × Fin n)
  | .mark_thread_running cpu t =>
    let thread := s.tables t
    if thread.owner ≠ none ∧ thread.running_cpu = none ∧ thread_cpu_eligible thread cpu = true then
      (cpu, t) :: s.held
    else s.held
  | .complete_kernel_return cpu t =>
    if (s.tables t).running_cpu = some cpu then s.held.filter (· ≠ (cpu, t)) else s.held
  | .claim_ready_thread cpu w fault =>
    match (scheduler_claim_ready_thread s.tables cpu w fault).1 with
    | none => s.held
    | some t => (cpu, t) :: s.held
  | _ => s.held

def step (s : Claims n m) (l : Section n m) : Option (Claims n m) :=
  some { tables := run_section s.tables l, held := claims_after s l }

/-- The process is over. -/
def Process.terminal (process : Process) : Bool :=
  decide (process.state = .returned) || decide (process.state = .failed)

/-- Threads and processes exist, of any kind; nothing is queued, claimed or waited for. -/
structure Start (s : Claims n m) : Prop where
  queue : s.tables.sched_queue = fun _ => none
  head : s.tables.sched_queue_head = 0
  count : s.tables.sched_queue_count = 0
  running : ∀ t, (s.tables t).running_cpu = none
  waiting : ∀ t, (s.tables.context t).wait_pending = false
  exited : ∀ t, (s.tables t).exited → (s.tables t).active = false
  terminal : ∀ p, (s.tables.process_table p).terminal → (s.tables.process_table p).active = false
  held : s.held = []

/-- The scheduler with `n` threads and `m` processes. -/
def scheduler (n m : Nat) [NeZero n] : Machine (Claims n m) (Section n m) := Machine.ofFun Start step

/-- A thread is put into the queue by `scheduler_enqueue_thread` only while it does not
wait, as all callers see to. -/
def Awake (s : Claims n m) : Section n m → Prop
  | .enqueue_thread t => (s.tables.context t).wait_pending = false
  | _ => True

/-! ## The invariant -/

/-- A thread, whether its owner is active and whether it is in the queue. That a thread which
waits is not ready is known where only threads `awake` are handed to the queue. -/
structure Fit (awake : Prop) (owner_active : Bool) (in_queue : Prop) (thread : Thread m) : Prop where
  queued : in_queue → thread.active ∧ owner_active ∧ thread.running_cpu = none ∧
    thread.context.scheduler_state = .ready
  waiting : awake → thread.context.wait_pending → thread.context.scheduler_state ≠ .ready
  exited : thread.exited → thread.active = false

/-- What every section keeps. -/
structure Good (awake : Prop) (s : Sched n m) : Prop where
  sound : Sound s
  fit : ∀ t, Fit awake (s.owner_active t) (t ∈ s.queued) (s t)
  terminal : ∀ p, (s.process_table p).terminal → (s.process_table p).active = false

variable {awake : Prop} {s s' : Sched n m} {t : Fin n}

/-- A section for one thread keeps the invariant if the thread fits after it. -/
theorem Good.only (h : Good awake s) (honly : Only t s s')
    (hfit : Fit awake (s.owner_active t) (t ∈ s'.queued) (s' t)) : Good awake s' where
  sound := honly.sound
  fit u := by
    rw [honly.owner_active u]
    by_cases hu : u = t
    · rw [hu]
      exact hfit
    · rw [honly.others u hu, propext (honly.queue u hu)]
      exact h.fit u
  terminal p := by
    rw [honly.processes]
    exact h.terminal p

/-- No thread changes its CPU. -/
def SameCpu (s s' : Sched n m) : Prop :=
  ∀ t, (s' t).running_cpu = (s t).running_cpu

theorem sameCpu_only (honly : Only t s s')
    (h : (s' t).running_cpu = (s t).running_cpu) : SameCpu s s' := by
  intro u
  by_cases hu : u = t
  · rw [hu]
    exact h
  · rw [honly.others u hu]

/-- The invariant holds after the section, and no thread has changed its CPU. -/
abbrev Steps (awake : Prop) (s s' : Sched n m) : Prop := Good awake s' ∧ SameCpu s s'

theorem Good.same (h : Good awake s) (hs : s' = s) : Steps awake s s' := by
  subst hs
  exact ⟨h, fun _ => rfl⟩

theorem Good.steps {thread : Thread m} (h : Good awake s) (honly : Only t s s') (hk : s'.thread_table t = thread)
    (hcpu : thread.running_cpu = (s t).running_cpu)
    (hfit : Fit awake (s.owner_active t) (t ∈ s'.queued) thread) : Steps awake s s' := by
  subst hk
  exact ⟨h.only honly hfit, sameCpu_only honly hcpu⟩

omit [NeZero n] in
theorem live_iff : s.live t ↔ (s t).active ∧ s.owner_active t := by
  simp [Sched.live]

/-! ## Each section keeps it -/

theorem enqueue_good (h : Good awake s) (hawake : awake → (s.context t).wait_pending = false) :
    Steps awake s (scheduler_enqueue_unlocked s t) := by
  have hfit := h.fit t
  obtain ⟨honly, he | he⟩ := enqueue_does h.sound t
  · obtain ⟨k, hk⟩ := he.thread
    have hlive := live_iff.mp he.free.1
    exact h.steps honly hk rfl
      { queued := fun _ => ⟨hlive.1, hlive.2, he.free.2, rfl⟩
        waiting := fun ha hp => absurd ((hawake ha).symm.trans hp) (by decide)
        exited := hfit.exited }
  · obtain ⟨k, hk⟩ := he.thread
    refine h.steps honly hk rfl ?_
    rw [propext he.queue]
    exact ⟨hfit.queued, hfit.waiting, hfit.exited⟩

theorem ended_good {result : Int} (h : Good awake s) (honly : Only t s s') (he : Ended t result s s') :
    Steps awake s s' := by
  have hfit := h.fit t
  obtain ⟨k, hk⟩ := he.thread
  refine h.steps honly hk rfl ⟨?_, fun _ hp => (by cases hp), hfit.exited⟩
  · intro hq
    have hfree : s.Free t := by
      rcases he.queue hq with hq | hfree
      · obtain ⟨hactive, howner, hcpu, -⟩ := hfit.queued hq
        exact ⟨live_iff.mpr ⟨hactive, howner⟩, hcpu⟩
      · exact hfree
    have hlive := live_iff.mp hfree.1
    rw [if_pos hfree.1]
    exact ⟨hlive.1, hlive.2, hfree.2, rfl⟩

theorem signal_good (h : Good awake s) (t : Fin n) (reason : WaitReason) (result : Int) :
    Steps awake s (thread_wait_signal_unlocked s t reason result).2 := by
  obtain ⟨honly, ⟨-, hs, -⟩ | ⟨-, -, he⟩⟩ := signal_does h.sound t reason result
  · exact h.same hs
  · exact ended_good h honly he

theorem begin_good (h : Good awake s) (t : Fin n) (reason : WaitReason) (timeout_ticks tick_now : U32)
    (fault : Bool) : Steps awake s (thread_wait_begin_unlocked s t reason timeout_ticks tick_now fault).2 := by
  obtain ⟨honly, ⟨-, hs⟩ | ⟨-, hb⟩⟩ := begin_does h.sound t reason timeout_ticks tick_now fault
  · exact h.same hs
  · obtain ⟨sequence, timeout, tick, hk⟩ := hb.thread
    refine h.steps honly hk rfl ⟨fun hq => absurd hq hb.queue, ?_, (h.fit t).exited⟩
    intro _ _ hready
    cases hready

/-- What each turn of a loop keeps, the loop keeps. -/
theorem loop_good {turn : Sched n m → Fin n → Sched n m}
    (hturn : ∀ s t, Good awake s → Steps awake s (turn s t)) (h : Good awake s) (l : List (Fin n)) :
    Steps awake s (l.foldl turn s) := by
  induction l generalizing s with
  | nil => exact ⟨h, fun _ => rfl⟩
  | cons t l ih =>
    obtain ⟨hgood, hsame⟩ := hturn s t h
    obtain ⟨hgood', hsame'⟩ := ih hgood
    exact ⟨hgood', fun u => (hsame' u).trans (hsame u)⟩

theorem cancel_good (h : Good awake s) (p : Fin m) (object_id : U64) (result : Int) :
    Steps awake s (thread_wait_cancel_object s p object_id result) := by
  apply loop_good _ h
  intro s t h
  obtain ⟨honly, hs | he⟩ := cancel_turn_does h.sound p object_id result t
  · exact h.same hs
  · exact ended_good h honly he

theorem tick_good (h : Good awake s) (tick_now : U32) :
    Steps awake s (process_wait_tick s tick_now) := by
  apply loop_good _ h
  intro s t h
  obtain ⟨honly, hs | hd | ⟨result, he⟩⟩ := tick_turn_does h.sound tick_now t
  · exact h.same hs
  · rw [hd] at honly ⊢
    have hfit := h.fit t
    exact h.steps honly (Sched.setContext_self _ _ _) rfl ⟨hfit.queued, hfit.waiting, hfit.exited⟩
  · exact ended_good h honly he

theorem remove_good (h : Good awake s) (t : Fin n) :
    Steps awake s (scheduler_remove_unlocked s t) := by
  have honly := only_remove h.sound t
  have hfit := h.fit t
  exact h.steps honly (by rw [remove_thread_table]) rfl
    ⟨fun hq => absurd hq (not_mem_remove h.sound t), hfit.waiting, hfit.exited⟩

theorem save_paused_good (h : Good awake s) (t : Fin n) (pause_reason : PauseReason) :
    Steps awake s (save_paused_context s t pause_reason) := by
  have honly : Only t s (save_paused_context s t pause_reason) := only_setContext h.sound _
  have hfit := h.fit t
  exact h.steps honly (Sched.setContext_self _ _ _) rfl ⟨hfit.queued, hfit.waiting, hfit.exited⟩

/-- A thread that is over fits, once it is out of the queue. -/
theorem finished_fit {owner_active : Bool} {in_queue : Prop} (hq : ¬ in_queue) (thread : Thread m) :
    Fit awake owner_active in_queue (finished thread) := by
  refine ⟨fun h => absurd h hq, ?_, fun _ => rfl⟩
  intro _ hp
  cases hp

section
variable (h : Good awake s)
include h

theorem exit_good (t : Fin n) : Steps awake s (thread_mark_exited s t) := by
  obtain ⟨honly, hs | ⟨hq, hk⟩⟩ := exit_does h.sound t
  · exact h.same hs
  · exact h.steps honly hk rfl (finished_fit hq _)

theorem finish_turn_good (p : Fin m) (t : Fin n) :
    Steps awake s (finish_turn p s t) := by
  obtain ⟨honly, ⟨hs, -⟩ | ⟨hq, hk⟩⟩ := finish_turn_does h.sound p t
  · exact h.same hs
  · exact h.steps honly hk rfl (finished_fit hq _)

/-- After the loop no thread of the process that it came to is active, and the others
are as they were. -/
theorem finish_loop (p : Fin m) (l : List (Fin n)) :
    let r := l.foldl (finish_turn p) s
    r.process_table = s.process_table ∧ ∀ t, (r t).owner = (s t).owner ∧
      ((s t).active = false → (r t).active = false) ∧
      (t ∈ l → (s t).owner = some p → (r t).active = false) := by
  induction l generalizing s with
  | nil => exact ⟨rfl, fun t => ⟨rfl, id, fun hm => absurd hm (not_mem_nil)⟩⟩
  | cons u l ih =>
    obtain ⟨honly, hdoes⟩ := finish_turn_does h.sound p u
    obtain ⟨hprocess, hrest⟩ := ih (finish_turn_good h p u).1
    -- What the turn did stays done in the turns after it.
    have hstays : ∀ t, (s t).active = false →
        ((finish_turn p s u).thread_table t).active = false := by
      intro t ht
      by_cases htu : t = u
      · rcases hdoes with ⟨hs, -⟩ | ⟨-, hk⟩
        · rw [hs]
          exact ht
        · rw [htu, hk]
          rfl
      · rw [honly.others t htu]
        exact ht
    refine ⟨hprocess.trans honly.processes, ?_⟩
    intro t
    obtain ⟨howner, hinactive, hmem⟩ := hrest t
    refine ⟨howner.trans (honly.owner_eq t), fun ht => hinactive (hstays t ht), ?_⟩
    intro hm ho
    by_cases htu : t = u
    · rcases hdoes with ⟨-, hne⟩ | ⟨-, hk⟩
      · rw [htu] at ho
        exact absurd ho hne
      · apply hinactive
        rw [htu, hk]
        rfl
    · exact hmem ((mem_cons.mp hm).resolve_left htu) (by rw [honly.owner_eq t]; exact ho)

theorem finish_good (p : Fin m) {final_state : ProcessState} :
    Steps awake s (process_finish s p final_state) := by
  obtain ⟨hgood, hsame⟩ := loop_good (fun s t h => finish_turn_good (s := s) h p t) h (finRange n)
  obtain ⟨-, hloop⟩ := finish_loop h p (finRange n)
  unfold process_finish
  simp only
  set s1 := (finRange n).foldl (finish_turn p) s
  refine ⟨⟨⟨hgood.sound.ring, hgood.sound.nodup⟩, ?_, ?_⟩, hsame⟩
  · intro t
    have hfit := hgood.fit t
    refine ⟨?_, hfit.waiting, hfit.exited⟩
    intro hq
    obtain ⟨hactive, howner, hcpu, hready⟩ := hfit.queued hq
    refine ⟨hactive, ?_, hcpu, hready⟩
    -- A thread of the process itself is not active any more, so it is not in the queue.
    have hne : (s1 t).owner ≠ some p := by
      intro ho
      rw [(hloop t).1] at ho
      have hinactive : (s1 t).active = false := (hloop t).2.2 (mem_finRange t) ho
      rw [hactive] at hinactive
      cases hinactive
    unfold Sched.owner_active at howner ⊢
    simp only
    cases ho : (s1 t).owner with
    | none =>
      rw [ho] at howner
      cases howner
    | some q =>
      rw [ho] at howner hne
      show (update s1.process_table p _ q).active = true
      rw [update_of_ne (fun hqp => hne (congrArg some hqp))]
      exact howner
  · intro q hq
    by_cases hqp : q = p
    · simp only
      rw [hqp, update_self]
    · simp only [update_of_ne hqp] at hq ⊢
      exact hgood.terminal q hq

theorem mark_running_good (cpu : Nat) (t : Fin n) : Good awake (scheduler_mark_thread_running s cpu t) := by
  obtain ⟨honly, ⟨hs, -⟩ | hr⟩ := mark_running_does h.sound cpu t
  · rw [hs]
    exact h
  · obtain ⟨context, hk, hrunning, -⟩ := hr.thread
    apply h.only honly
    rw [hk]
    refine ⟨?_, fun _ _ => by rw [hrunning]; decide, (h.fit t).exited⟩
    intro hq
    obtain ⟨hq', hcpu⟩ := hr.queue hq
    obtain ⟨-, -, hnone, -⟩ := (h.fit t).queued hq'
    rw [hnone] at hcpu
    cases hcpu

theorem complete_good (cpu : Nat) (t : Fin n) : Good awake (scheduler_complete_kernel_return s cpu t) := by
  obtain ⟨honly, hr⟩ := complete_does h.sound cpu t
  obtain ⟨k, hk⟩ := hr.thread
  have hfit := h.fit t
  apply h.only honly
  rw [hk]
  refine ⟨?_, hfit.waiting, hfit.exited⟩
  intro hq
  rcases hr.queue hq with hq | ⟨hlive, hcpu, hready⟩
  · obtain ⟨hactive, howner, hcpu, hready⟩ := hfit.queued hq
    refine ⟨hactive, howner, ?_, hready⟩
    show (released (s t) cpu).running_cpu = none
    simp [released, hcpu]
  · exact ⟨(live_iff.mp hlive).1, (live_iff.mp hlive).2, hcpu, hready⟩

end

variable {cpu : Nat} {c c' : Claims n m}

theorem got_good {w : Wanted} (h : Good awake s) (honly : Only t s s') (hgot : Got t cpu w s s') : Good awake s' := by
  apply h.only honly
  rw [hgot.thread]
  refine ⟨fun hq => absurd hq hgot.queue, ?_, (h.fit t).exited⟩
  intro _ _ hready
  cases hready

/-! ## Claims -/

/-- The claims are those that the table shows. -/
def Held (s : Claims n m) : Prop :=
  ∀ cpu t, (cpu, t) ∈ s.held ↔ (s.tables t).running_cpu = some cpu

omit [NeZero n] in
theorem held_same (h : Held c) (hsame : SameCpu c.tables c'.tables) (hheld : c'.held = c.held) : Held c' := by
  intro cpu t
  rw [hheld, hsame t]
  exact h cpu t

/-- A CPU takes a thread that no CPU has. -/
theorem held_taken (h : Held c) (honly : Only t c.tables c'.tables)
    (hnone : (c.tables t).running_cpu = none)
    (hcpu : (c'.tables t).running_cpu = some cpu) (hheld : c'.held = (cpu, t) :: c.held) : Held c' := by
  intro cpu' u
  rw [hheld, mem_cons, Prod.mk.injEq, h cpu' u]
  by_cases hu : u = t
  · rw [hu, hcpu, hnone, some.injEq]
    simp [eq_comm]
  · rw [honly.others u hu]
    simp [hu]

/-- A CPU gives a thread back. -/
theorem held_returned (h : Held c) (honly : Only t c.tables c'.tables)
    (hcpu : (c.tables t).running_cpu = some cpu) (hnone : (c'.tables t).running_cpu = none)
    (hheld : c'.held = c.held.filter (· ≠ (cpu, t))) : Held c' := by
  intro cpu' u
  rw [hheld, mem_filter, h cpu' u]
  by_cases hu : u = t
  · rw [hu, hcpu, hnone, some.injEq]
    refine ⟨?_, nofun⟩
    rintro ⟨hcpu', hne⟩
    rw [hcpu'] at hne
    simp at hne
  · rw [honly.others u hu]
    simp [hu]

theorem mark_running_held (hg : Good awake c.tables) (h : Held c) (cpu : Nat) (t : Fin n) :
    Held { tables := run_section c.tables (.mark_thread_running cpu t)
           held := claims_after c (.mark_thread_running cpu t) } := by
  obtain ⟨honly, hdoes⟩ := mark_running_does hg.sound cpu t
  simp only [run_section, claims_after]
  split
  · rename_i htakes
    rcases hdoes with ⟨-, hnot⟩ | hr
    · exact absurd htakes hnot
    · obtain ⟨context, hk, -⟩ := hr.thread
      exact held_taken h honly htakes.2.1 (by rw [hk]) rfl
  · rename_i htakes
    refine held_same h ?_ rfl
    rcases hdoes with ⟨hs, -⟩ | hr
    · intro u
      rw [hs]
    · obtain ⟨context, hk, -⟩ := hr.thread
      exact sameCpu_only honly (by rw [hk]; exact (hr.before.resolve_left htakes).symm)

theorem complete_held (hg : Good awake c.tables) (h : Held c) (cpu : Nat) (t : Fin n) :
    Held { tables := run_section c.tables (.complete_kernel_return cpu t)
           held := claims_after c (.complete_kernel_return cpu t) } := by
  obtain ⟨honly, hr⟩ := complete_does hg.sound cpu t
  obtain ⟨k, hk⟩ := hr.thread
  simp only [run_section, claims_after]
  split
  · rename_i hcpu
    refine held_returned h honly hcpu ?_ rfl
    rw [hk]
    exact if_pos hcpu
  · rename_i hcpu
    refine held_same h (sameCpu_only honly ?_) rfl
    rw [hk]
    exact if_neg hcpu

theorem claim_held (hg : Good awake c.tables) (h : Held c) (cpu : Nat) (w : Wanted) (fault : Bool) :
    Held { tables := run_section c.tables (.claim_ready_thread cpu w fault)
           held := claims_after c (.claim_ready_thread cpu w fault) } := by
  simp only [run_section, claims_after]
  rcases claim_does hg.sound cpu w fault with hnone | ⟨t, ht, honly, hgot⟩
  · rw [hnone]
    exact h
  · rw [ht]
    refine held_taken h honly (selectable_free hgot.selectable).1.2 ?_ rfl
    rw [hgot.thread]
    rfl

/-! ## Every run -/

theorem start_good (h : Start c) : Good awake c.tables ∧ Held c := by
  have hempty := sound_empty h.queue h.head h.count
  refine ⟨⟨hempty.2, ?_, h.terminal⟩, ?_⟩
  · intro t
    rw [hempty.1]
    refine ⟨fun hq => absurd hq not_mem_nil, ?_, h.exited t⟩
    intro _ hp
    exact absurd ((h.waiting t).symm.trans hp) (by decide)
  · intro cpu t
    rw [h.held, h.running t]
    simp

theorem step_good {l : Section n m} (h : Good awake c.tables ∧ Held c) (hawake : awake → Awake c l)
    (hst : step c l = some c') : Good awake c'.tables ∧ Held c' := by
  obtain ⟨hg, hh⟩ := h
  cases hst
  -- A section that changes no CPU keeps the claims.
  have hkeep : claims_after c l = c.held →
      Steps awake c.tables (run_section c.tables l) →
      Good awake (run_section c.tables l) ∧
        Held { tables := run_section c.tables l, held := claims_after c l } :=
    fun hheld h => ⟨h.1, held_same hh h.2 hheld⟩
  cases l with
  | enqueue_thread t => exact hkeep rfl (enqueue_good hg hawake)
  | remove_thread t => exact hkeep rfl (remove_good hg t)
  | mark_thread_running cpu t => exact ⟨mark_running_good hg cpu t, mark_running_held hg hh cpu t⟩
  | wait_begin t reason timeout_ticks tick_now fault =>
    exact hkeep rfl (begin_good hg t reason timeout_ticks tick_now fault)
  | wait_signal t reason result => exact hkeep rfl (signal_good hg t reason result)
  | wait_cancel_object p object_id result => exact hkeep rfl (cancel_good hg p object_id result)
  | wait_tick tick_now => exact hkeep rfl (tick_good hg tick_now)
  | complete_kernel_return cpu t => exact ⟨complete_good hg cpu t, complete_held hg hh cpu t⟩
  | claim_ready_thread cpu w fault =>
    refine ⟨?_, claim_held hg hh cpu w fault⟩
    simp only [run_section]
    rcases claim_does hg.sound cpu w fault with hnone | ⟨t, -, honly, hgot⟩
    · rw [hnone]
      exact hg
    · exact got_good hg honly hgot
  | mark_exited t => exact hkeep rfl (exit_good hg t)
  | finish p failed => exact hkeep rfl (finish_good hg p)
  | save_paused t pause_reason => exact hkeep rfl (save_paused_good hg t pause_reason)

theorem run_good {guard : Claims n m → Section n m → Prop} (h : (scheduler n m).ReachedBy guard c)
    (hguard : ∀ c l, guard c l → awake → Awake c l) : Good awake c.tables ∧ Held c :=
  h.inv (fun _ hs => start_good hs) fun _ _ _ hi hg hst => step_good hi (hguard _ _ hg) hst

/-- What a CPU gets: a thread that is alive, whose process is alive, that does not wait where
only threads awake are queued, that no CPU had, and that is out of the queue afterwards. -/
theorem got_alive {w : Wanted} {fault : Bool} (h : Good awake s)
    (hclaim : scheduler_claim_ready_thread s cpu w fault = (some t, s')) : (s t).exited = false ∧
    (∃ p, (s t).owner = some p ∧ (s.process_table p).terminal = false) ∧
    (awake → (s.context t).wait_pending = false) ∧ (s t).running_cpu = none ∧
    (s' t).running_cpu = some cpu ∧ t ∉ s'.queued := by
  rcases claim_does h.sound cpu w fault with hnone | ⟨u, hu, -, hgot⟩
  · rw [hclaim] at hnone
    cases hnone
  · rw [hclaim] at hu hgot
    cases hu
    have hfit := h.fit t
    obtain ⟨⟨hlive, hcpu⟩, hready, -, -⟩ := selectable_free hgot.selectable
    obtain ⟨hactive, howner⟩ := live_iff.mp hlive
    refine ⟨?_, ?_, ?_, hcpu, by rw [hgot.thread]; rfl, hgot.queue⟩
    · by_contra hexited
      rw [Bool.not_eq_false] at hexited
      exact absurd ((hfit.exited hexited).symm.trans hactive) (by decide)
    · unfold Sched.owner_active at howner
      split at howner
      · cases howner
      rename_i p hp
      refine ⟨p, hp, ?_⟩
      by_contra hterminal
      rw [Bool.not_eq_false] at hterminal
      exact absurd ((h.terminal p hterminal).symm.trans howner) (by decide)
    · intro ha
      by_contra hpending
      rw [Bool.not_eq_false] at hpending
      exact hfit.waiting ha hpending hready

/-- In every state that is reached: the queue holds different threads, at most as many as it
has slots; a thread in it is active and on no CPU; no two CPUs have claimed the same thread;
and whatever a CPU asks for, the thread that it gets is alive, as is its process, and is out
of the queue. It does not wait, if only threads that did not were handed to
`scheduler_enqueue_thread`. -/
theorem queue_and_claims_are_sound {c : Claims n m} (h : (scheduler n m).Reachable c) :
    c.tables.queued.Nodup ∧ c.tables.queued.length = c.tables.sched_queue_count ∧
    c.tables.sched_queue_count ≤ n ∧
    (∀ t ∈ c.tables.queued, (c.tables.thread_table t).active = true ∧
      (c.tables.thread_table t).running_cpu = none) ∧
    (∀ t cpu cpu', (cpu, t) ∈ c.held → (cpu', t) ∈ c.held → cpu = cpu') ∧
    ∀ cpu w fault t s', scheduler_claim_ready_thread c.tables cpu w fault = (some t, s') →
      (c.tables.thread_table t).exited = false ∧
      (∃ p, (c.tables.thread_table t).owner = some p ∧
        (c.tables.process_table p).terminal = false) ∧
      ((scheduler n m).ReachedBy Awake c → (c.tables.context t).wait_pending = false) ∧
      (∀ cpu', (cpu', t) ∉ c.held) ∧
      (s'.thread_table t).running_cpu = some cpu ∧ t ∉ s'.queued := by
  obtain ⟨hg, hh⟩ : Good False c.tables ∧ Held c := run_good h fun _ _ _ => False.elim
  refine ⟨hg.sound.nodup, hg.sound.count_eq.symm, hg.sound.count_le, ?_, ?_, ?_⟩
  · intro t ht
    obtain ⟨hactive, -, hcpu, -⟩ := (hg.fit t).queued ht
    exact ⟨hactive, hcpu⟩
  · intro t cpu cpu' hc hc'
    rw [hh] at hc hc'
    rw [hc] at hc'
    exact some.inj hc'
  · intro cpu w fault t s' hclaim
    obtain ⟨hexited, hprocess, -, hcpu, hcpu', hq⟩ := got_alive hg hclaim
    refine ⟨hexited, hprocess, ?_, ?_, hcpu', hq⟩
    · intro hawake
      have hgood : Good True c.tables := (run_good hawake fun _ _ hl _ => hl).1
      exact (got_alive hgood hclaim).2.2.1 trivial
    · intro cpu'' hheld
      rw [hh, hcpu] at hheld
      cases hheld

end

/-! ## Two runs -/

open mini_kernel.thread (THREAD_TABLE_SIZE PROCESS_TABLE_SIZE)

instance : NeZero THREAD_TABLE_SIZE := ⟨by decide⟩

/-- A record that no thread has. -/
def thread_record_zero (m : Nat) : Thread m where
  tid := 0
  generation := 0
  owner_pid := 0
  owner := none
  active := false
  exited := false
  priority := .normal
  running_cpu := none
  affinity_mask := 0xFF
  context :=
    { scheduler_state := .none
      pause_reason := .none
      resumable := false
      timeslice_ticks := SCHED_DEFAULT_TIMESLICE
      wait_pending := false
      wait_has_deadline := false
      wait_reserved := false
      wait_reason := .none
      wait_result := PROCESS_WAIT_OK
      wait_deadline := 0
      wait_sequence := 0
      wait_object_id := 0
      wait_aux_object_id := 0 }

def process_zero : Process := ⟨.empty, false, false, false⟩

/-- The first record is a thread of the first process, with a saved context. -/
def one_thread : Claims THREAD_TABLE_SIZE PROCESS_TABLE_SIZE where
  tables :=
    { thread_table := fun t =>
        if t.val = 0 then
          { thread_record_zero PROCESS_TABLE_SIZE with
            tid := 1
            generation := 1
            owner_pid := 1
            owner := some ⟨0, by decide⟩
            active := true
            context := { (thread_record_zero PROCESS_TABLE_SIZE).context with resumable := true } }
        else thread_record_zero PROCESS_TABLE_SIZE
      process_table := fun p => if p.val = 0 then ⟨.paused, true, false, false⟩ else process_zero
      sched_queue := fun _ => none
      sched_queue_head := 0
      sched_queue_count := 0
      next_wait_sequence := 1 }
  held := []

theorem one_thread_starts : Start one_thread where
  queue := rfl
  head := rfl
  count := rfl
  running t := by
    simp only [one_thread]
    split <;> rfl
  waiting t := by
    simp only [one_thread, Sched.context]
    split <;> rfl
  exited t := by
    simp only [one_thread]
    split <;> simp [thread_record_zero]
  terminal p := by
    simp only [one_thread]
    split <;> decide
  held := rfl

/-- A CPU that takes any thread. -/
def anyone : Wanted := ⟨⟨0, 0⟩, 0, false, false⟩

/-- The thread waits for the timer, is put into the queue all the same, and a CPU gets it
while it still waits. -/
theorem a_waiting_thread_is_claimed : ∃ c : Claims THREAD_TABLE_SIZE PROCESS_TABLE_SIZE,
    (scheduler _ _).Reachable c ∧ ∃ t,
      (scheduler_claim_ready_thread c.tables 0 anyone false).1 = some t ∧
      (c.tables.context t).wait_pending = true := by
  obtain ⟨c, hc, hclaimed⟩ : ∃ c : Claims THREAD_TABLE_SIZE PROCESS_TABLE_SIZE, (scheduler _ _).Reachable c ∧
      (scheduler_claim_ready_thread c.tables 0 anyone false).1 = some ⟨0, by decide⟩ ∧
      (c.tables.context ⟨0, by decide⟩).wait_pending :=
    Machine.exists_reachable (.start one_thread_starts)
      [.wait_begin ⟨0, by decide⟩ .timer 5 0 false, .enqueue_thread ⟨0, by decide⟩] (by decide +kernel)
  exact ⟨c, hc, _, hclaimed⟩

/-- The thread waits for the timer and is signalled; then a CPU gets it, and it is in the
queue no more. -/
theorem a_woken_thread_is_claimed : ∃ c : Claims THREAD_TABLE_SIZE PROCESS_TABLE_SIZE,
    (scheduler _ _).ReachedBy Awake c ∧ c.tables.queued.length = 1 ∧ ∃ t s',
      scheduler_claim_ready_thread c.tables 0 anyone false = (some t, s') ∧
      (c.tables.context t).wait_pending = false ∧ t ∉ s'.queued := by
  have hrun : (Machine.runIf step (fun _ l => !(l matches .enqueue_thread _)) one_thread
      [.wait_begin ⟨0, by decide⟩ .timer 5 0 false,
        .wait_signal ⟨0, by decide⟩ .timer PROCESS_WAIT_OK]).map
      (fun c => ((scheduler_claim_ready_thread c.tables 0 anyone false).1, c.tables.queued.length)) =
      some (some ⟨0, by decide⟩, 1) := by
    decide +kernel
  obtain ⟨c, hc, hobs⟩ := map_eq_some_iff.mp hrun
  simp only [Prod.mk.injEq] at hobs
  have hreach : (scheduler THREAD_TABLE_SIZE PROCESS_TABLE_SIZE).ReachedBy Awake c := by
    apply (Machine.reachedBy_runIf (.start one_thread_starts) hc).imp
    intro c l hl
    cases l with
    | enqueue_thread t => cases hl
    | _ => trivial
  obtain ⟨-, -, -, -, -, hclaims⟩ := queue_and_claims_are_sound (hreach.imp fun _ _ _ => trivial)
  obtain ⟨-, -, hpending, -, -, hq⟩ := hclaims 0 anyone false _ _ (Prod.ext hobs.1 rfl)
  exact ⟨c, hreach, hobs.2, _, _, Prod.ext hobs.1 rfl, hpending hreach, hq⟩

end mini_kernel.sched
