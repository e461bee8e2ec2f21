-- What the sections of the scheduler do to one thread. The ring of the queue is a list
-- without repetition, a section for a thread leaves every other thread and its place
-- alone, and what it does to its own thread is said once for each section.
import MiniKernel.Process.Scheduler

open mini_kernel.lib List

namespace mini_kernel.sched

section
variable {n m : Nat}

/-! ## Threads and contexts -/

/-- The laws read the tables as the one of the threads. -/
instance : CoeFun (Sched n m) fun _ => Fin n → Thread m := ⟨Sched.thread_table⟩

@[simp] theorem Sched.setThread_self (s : Sched n m) (t : Fin n) (thread : Thread m) :
    (s.setThread t thread).thread_table t = thread := by simp [Sched.setThread]

theorem Sched.setThread_of_ne (s : Sched n m) {t u : Fin n} (thread : Thread m) (h : u ≠ t) :
    (s.setThread t thread).thread_table u = s u := by
  simp [Sched.setThread, h]

@[simp] theorem Sched.setContext_self (s : Sched n m) (t : Fin n) (context : ThreadContext) :
    (s.setContext t context).thread_table t = { s t with context := context } := by
  simp [Sched.setContext]

theorem Sched.setContext_owner (s : Sched n m) (t : Fin n) (context : ThreadContext) :
    ((s.setContext t context).thread_table t).owner = (s t).owner := by simp

variable [NeZero n]

/-! ## The queue is a list -/

/-- The threads in the ready queue. -/
def Sched.queued (s : Sched n m) : List (Fin n) :=
  (entries s.sched_queue s.sched_queue_head s.sched_queue_count).reduceOption

/-- The ring holds the queue, and no thread is in it twice. -/
structure Sound (s : Sched n m) : Prop where
  ring : InRing none s.sched_queue s.sched_queue_head
    ((s.sched_queue_head + s.sched_queue_count) % n) s.sched_queue_count (s.queued.map some)
  nodup : s.queued.Nodup

variable {s s' s'' : Sched n m} {t u : Fin n} {thread : Thread m}

theorem reduceOption_map_some {α : Type*} (l : List α) : (l.map some).reduceOption = l := by
  induction l with
  | nil => rfl
  | cons x l ih => rw [map_cons, reduceOption_cons_of_some, ih]

section
variable (h : Sound s)
include h

theorem Sound.entries_eq : entries s.sched_queue s.sched_queue_head s.sched_queue_count = s.queued.map some :=
  h.ring.entries_eq

theorem Sound.count_eq : s.sched_queue_count = s.queued.length := by
  rw [h.ring.count_eq, length_map]

theorem Sound.contains_iff : scheduler_queue_contains s t ↔ t ∈ s.queued := by
  unfold scheduler_queue_contains
  rw [h.entries_eq]
  simp

/-- The queue has a slot for each thread of the table, so there is room for one that is
not in it. -/
theorem Sound.not_full (ht : t ∉ s.queued) : s.sched_queue_count < n := by
  have hlen : (t :: s.queued).length ≤ Fintype.card (Fin n) :=
    (nodup_cons.mpr ⟨ht, h.nodup⟩).length_le_card
  rw [length_cons, Fintype.card_fin] at hlen
  rw [h.count_eq]
  omega

theorem Sound.count_le : s.sched_queue_count ≤ n := by
  have hlen : s.queued.length ≤ Fintype.card (Fin n) := h.nodup.length_le_card
  rw [Fintype.card_fin] at hlen
  rw [h.count_eq]
  exact hlen

theorem Sound.setThread (t : Fin n) (thread : Thread m) : Sound (s.setThread t thread) :=
  ⟨h.ring, h.nodup⟩

end

/-- A list of threads laid out in a ring is the queue of that ring. -/
theorem sound_of_ring {l : List (Fin n)} (h : InRing none s.sched_queue s.sched_queue_head
      ((s.sched_queue_head + s.sched_queue_count) % n) s.sched_queue_count (l.map some))
    (hl : l.Nodup) : s.queued = l ∧ Sound s := by
  have hq : s.queued = l := by
    unfold Sched.queued
    rw [h.entries_eq, reduceOption_map_some]
  exact ⟨hq, ⟨by rw [hq]; exact h, by rw [hq]; exact hl⟩⟩

theorem sound_empty (hq : s.sched_queue = fun _ => none) (hh : s.sched_queue_head = 0)
    (hc : s.sched_queue_count = 0) : s.queued = [] ∧ Sound s := by
  apply sound_of_ring _ nodup_nil
  rw [hq, hh, hc, map_nil]
  simpa using inRing_empty

theorem remove_sound (h : Sound s) (t : Fin n) :
    (scheduler_remove_unlocked s t).queued = s.queued.filter (· ≠ t) ∧
      Sound (scheduler_remove_unlocked s t) := by
  unfold scheduler_remove_unlocked
  split
  · rename_i h0
    have hnil : s.queued = [] := length_eq_zero_iff.mp (by rw [← h.count_eq, h0])
    exact ⟨by rw [hnil]; rfl, h⟩
  have hfilter : (s.queued.map some).filter (fun e => e ≠ some t) =
      (s.queued.filter (· ≠ t)).map some := by
    rw [filter_map]
    congr 1
    apply filter_congr
    intro u _
    simp
  rw [h.entries_eq, hfilter]
  apply sound_of_ring
  · have hle : ((s.queued.filter (· ≠ t)).map some).length ≤ n := by
      rw [length_map]
      have := h.count_le
      rw [h.count_eq] at this
      exact (length_filter_le _ _).trans this
    have hring := inRing_of_list (none : Option (Fin n)) ((s.queued.filter (· ≠ t)).map some) hle
    simpa only [Nat.zero_add] using hring
  · exact h.nodup.filter _

/-! ## One thread at a time -/

/-- From `s` to `s'` only the thread `t` changed, its owner apart. -/
structure Only (t : Fin n) (s s' : Sched n m) : Prop where
  sound : Sound s'
  others : ∀ u ≠ t, s'.thread_table u = s u
  queue : ∀ u ≠ t, (u ∈ s'.queued ↔ u ∈ s.queued)
  owner : (s' t).owner = (s t).owner
  processes : s'.process_table = s.process_table

theorem Only.refl (h : Sound s) (t : Fin n) : Only t s s :=
  ⟨h, fun _ _ => rfl, fun _ _ => Iff.rfl, rfl, rfl⟩

theorem Only.trans (h : Only t s s') (h' : Only t s' s'') : Only t s s'' where
  sound := h'.sound
  others u hu := (h'.others u hu).trans (h.others u hu)
  queue u hu := (h'.queue u hu).trans (h.queue u hu)
  owner := h'.owner.trans h.owner
  processes := h'.processes.trans h.processes

theorem Only.owner_eq (h : Only t s s') (u : Fin n) : (s' u).owner = (s u).owner := by
  by_cases hu : u = t
  · rw [hu]
    exact h.owner
  · rw [h.others u hu]

theorem Only.owner_active (h : Only t s s') (u : Fin n) : s'.owner_active u = s.owner_active u := by
  unfold Sched.owner_active
  rw [h.owner_eq u, h.processes]

theorem only_setThread (h : Sound s) (ho : thread.owner = (s t).owner) :
    Only t s (s.setThread t thread) where
  sound := h.setThread t thread
  others u hu := s.setThread_of_ne thread hu
  queue _ _ := Iff.rfl
  owner := by rw [Sched.setThread_self]; exact ho
  processes := rfl

theorem only_setContext (h : Sound s) (context : ThreadContext) : Only t s (s.setContext t context) :=
  only_setThread h rfl

theorem remove_thread_table (s : Sched n m) (t : Fin n) :
    (scheduler_remove_unlocked s t).thread_table = s.thread_table := by
  unfold scheduler_remove_unlocked
  split <;> rfl

theorem remove_process_table (s : Sched n m) (t : Fin n) :
    (scheduler_remove_unlocked s t).process_table = s.process_table := by
  unfold scheduler_remove_unlocked
  split <;> rfl

theorem not_mem_remove (h : Sound s) (t : Fin n) : t ∉ (scheduler_remove_unlocked s t).queued := by
  rw [(remove_sound h t).1]
  simp

theorem only_remove (h : Sound s) (t : Fin n) : Only t s (scheduler_remove_unlocked s t) where
  sound := (remove_sound h t).2
  others _ _ := by rw [remove_thread_table]
  queue u hu := by
    rw [(remove_sound h t).1]
    simp [hu]
  owner := by rw [remove_thread_table]
  processes := remove_process_table s t

/-! ## What each section does to its thread -/

/-- The thread and its process are active. -/
def Sched.live (s : Sched n m) (t : Fin n) : Bool := (s t).active && s.owner_active t

/-- The thread may stand in the queue: it is live, and no CPU has it. -/
def Sched.Free (s : Sched n m) (t : Fin n) : Prop :=
  s.live t ∧ (s t).running_cpu = none

theorem Only.live (h : Only t s s') (hu : u ≠ t) : s'.live u = s.live u := by
  unfold Sched.live
  rw [h.others u hu, h.owner_active u]

/-- The thread with another scheduler state and timeslice. -/
def Thread.as (thread : Thread m) (state : SchedulerState) (ticks : Nat) : Thread m :=
  { thread with context := { thread.context with scheduler_state := state, timeslice_ticks := ticks } }

/-- The thread goes into the queue and is ready. -/
structure Enqueued (t : Fin n) (s s' : Sched n m) : Prop where
  free : s.Free t
  before : t ∉ s.queued
  after : t ∈ s'.queued
  thread : ∃ k, s'.thread_table t = (s t).as .ready k

/-- The thread stays as it is: it is in the queue already, or it may not stand in it. -/
structure NotEnqueued (t : Fin n) (s s' : Sched n m) : Prop where
  free : s.Free t → t ∈ s.queued
  queue : t ∈ s'.queued ↔ t ∈ s.queued
  thread : ∃ k, s'.thread_table t = (s t).as (s.context t).scheduler_state k

theorem NotEnqueued.refl (h : s.Free t → t ∈ s.queued) : NotEnqueued t s s := ⟨h, Iff.rfl, ⟨_, rfl⟩⟩

theorem enqueue_does (h : Sound s) (t : Fin n) : let s' := scheduler_enqueue_unlocked s t
    Only t s s' ∧ (Enqueued t s s' ∨ NotEnqueued t s s') := by
  unfold scheduler_enqueue_unlocked
  simp only
  split
  · rename_i hover
    refine ⟨.refl h t, .inr (.refl ?_)⟩
    rintro ⟨hlive, -⟩
    simp only [Sched.live, Bool.and_eq_true] at hlive
    simp [hlive.1, hlive.2] at hover
  · rename_i hover
    have hlive : s.live t := by simpa [Sched.live] using hover
    split
    · rename_i hcontains
      have hmem := h.contains_iff.mp hcontains
      split
      · refine ⟨only_setContext h _, .inr ⟨fun _ => hmem, Iff.rfl, thread_quantum (s t), ?_⟩⟩
        exact s.setContext_self t _
      · exact ⟨.refl h t, .inr (.refl fun _ => hmem)⟩
    · rename_i hcontains
      have hmem : t ∉ s.queued := fun hm => hcontains (h.contains_iff.mpr hm)
      have hroom := h.not_full hmem
      split
      · rename_i hrefused
        refine ⟨.refl h t, .inr (.refl ?_)⟩
        rintro ⟨-, hcpu⟩
        rcases hrefused with hfull | hcpu'
        · omega
        · exact absurd hcpu hcpu'
      · rename_i hfree
        rw [not_or, not_not] at hfree
        have hring := h.ring.push (by rw [length_map, ← h.count_eq]; exact hroom) (some t)
        rw [← map_singleton, ← map_append, Nat.mod_add_mod, Nat.add_assoc] at hring
        have hnodup : (s.queued ++ [t]).Nodup := by
          rw [← concat_eq_append]
          exact h.nodup.concat hmem
        have hsound := sound_of_ring (s := { s.setContext t { (s t).context with
              scheduler_state := .ready
              timeslice_ticks := thread_quantum (s t) } with
            sched_queue := Function.update s.sched_queue
              (Fin.ofNat n ((s.sched_queue_head + s.sched_queue_count) % n)) (some t)
            sched_queue_count := s.sched_queue_count + 1 }) hring hnodup
        refine ⟨⟨hsound.2, ?_, ?_, ?_, rfl⟩, .inl ⟨⟨hlive, hfree.2⟩, hmem, ?_,
          thread_quantum (s t), ?_⟩⟩
        · intro u hu
          exact s.setThread_of_ne _ hu
        · intro u hu
          rw [hsound.1]
          simp [hu]
        · exact s.setContext_owner t _
        · rw [hsound.1]
          simp
        · exact s.setContext_self t _

/-- The wait of the thread ends with this result. -/
structure Ended (t : Fin n) (result : Int) (s s' : Sched n m) : Prop where
  pending : (s.context t).wait_pending
  thread : ∃ k, s'.thread_table t =
    Thread.as { s t with context := wait_ended (s.context t) result }
      (if s.live t then .ready else (s.context t).scheduler_state) k
  queue : t ∈ s'.queued → t ∈ s.queued ∨ s.Free t
  enqueued : s.Free t → (s.context t).resumable → t ∈ s'.queued

theorem signal_does (h : Sound s) (t : Fin n) (reason : WaitReason) (result : Int) :
    let r := thread_wait_signal_unlocked s t reason result
    Only t s r.2 ∧
      (r.1 = false ∧ r.2 = s ∧ ¬ ((s.context t).wait_pending ∧ (s.context t).wait_reason = reason) ∨
        r.1 ∧ (s.context t).wait_reason = reason ∧ Ended t result s r.2) := by
  unfold thread_wait_signal_unlocked
  simp only
  split
  · rename_i hrefused
    refine ⟨.refl h t, .inl ⟨rfl, rfl, ?_⟩⟩
    rintro ⟨hp, hr⟩
    have hp' : (s t).context.wait_pending := hp
    have hr' : (s t).context.wait_reason = reason := hr
    simp [hp', hr'] at hrefused
  · rename_i hrefused
    have hwait : (s.context t).wait_pending ∧ (s.context t).wait_reason = reason := by
      simpa [Sched.context] using hrefused
    split
    · rename_i hlive
      have hlive' : s.live t := hlive
      set s1 := s.setContext t { wait_ended (s t).context result with
        scheduler_state := .ready
        timeslice_ticks := thread_quantum (s t) } with hs1
      have honly : Only t s s1 := only_setContext h _
      have hthread : s1.thread_table t = _ := s.setContext_self t _
      split
      · obtain ⟨henq, hdoes⟩ := enqueue_does honly.sound t
        have hfree : s1.Free t ↔ s.Free t := by
          unfold Sched.Free Sched.live
          rw [honly.owner_active t, hthread]
        refine ⟨honly.trans henq, .inr ⟨rfl, hwait.2, hwait.1, ?_, ?_, ?_⟩⟩
        · rw [if_pos hlive']
          rcases hdoes with he | he
          · obtain ⟨k, hk⟩ := he.thread
            exact ⟨k, by rw [hk, hthread]; rfl⟩
          · obtain ⟨k, hk⟩ := he.thread
            refine ⟨k, ?_⟩
            rw [hk, Sched.context, hthread]
            rfl
        · intro hmem
          rcases hdoes with he | he
          · exact .inr (hfree.mp he.free)
          · exact .inl (he.queue.mp hmem)
        · intro hf _
          rcases hdoes with he | he
          · exact he.after
          · exact he.queue.mpr (he.free (hfree.mpr hf))
      · rename_i hres
        refine ⟨honly, .inr ⟨rfl, hwait.2, hwait.1, ?_, fun hm => .inl hm, ?_⟩⟩
        · rw [if_pos hlive']
          exact ⟨thread_quantum (s t), hthread⟩
        · intro _ hr
          exact absurd hr hres
    · rename_i hlive
      have hlive' : ¬ s.live t := hlive
      refine ⟨only_setContext h _, .inr ⟨rfl, hwait.2, hwait.1, ?_, fun hm => .inl hm, ?_⟩⟩
      · rw [if_neg hlive']
        exact ⟨(s.context t).timeslice_ticks, s.setContext_self t _⟩
      · intro hf _
        exact absurd hf.1 hlive'

/-- A wait begins. -/
structure Begun (t : Fin n) (reason : WaitReason) (s s' : Sched n m) : Prop where
  live : s.live t
  before : (s.context t).wait_pending = false
  reason_ne : reason ≠ .none
  queue : t ∉ s'.queued
  thread : ∃ sequence timeout_ticks tick_now, s'.thread_table t = { s t with
    context := wait_begun (s.context t) reason sequence timeout_ticks tick_now }

theorem begin_does (h : Sound s) (t : Fin n) (reason : WaitReason) (timeout_ticks tick_now : BitVec 32)
    (fault : Bool) : let r := thread_wait_begin_unlocked s t reason timeout_ticks tick_now fault
      Only t s r.2 ∧ (r.1 = false ∧ r.2 = s ∨ r.1 ∧ Begun t reason s r.2) := by
  unfold thread_wait_begin_unlocked
  simp only
  split
  · exact ⟨.refl h t, .inl ⟨rfl, rfl⟩⟩
  rename_i hok
  split
  · exact ⟨.refl h t, .inl ⟨rfl, rfl⟩⟩
  have hok' : (s.live t ∧ reason ≠ .none) ∧ (s.context t).wait_pending = false := by
    simpa [Sched.live, Sched.context] using hok
  have hremove := only_remove h t
  have hcontext : (scheduler_remove_unlocked s t).context t = s.context t := by
    rw [Sched.context, remove_thread_table, Sched.context]
  set sequence := wait_next_sequence_unlocked (scheduler_remove_unlocked s t).next_wait_sequence
  have honly := hremove.trans (only_setContext (t := t) hremove.sound
    (wait_begun ((scheduler_remove_unlocked s t).context t) reason sequence.1 timeout_ticks tick_now))
  refine ⟨⟨⟨honly.sound.ring, honly.sound.nodup⟩, honly.others, honly.queue, honly.owner,
    honly.processes⟩, .inr ⟨rfl, hok'.1.1, hok'.2, hok'.1.2, not_mem_remove h t, ?_⟩⟩
  refine ⟨sequence.1, timeout_ticks, tick_now, (Sched.setContext_self _ _ _).trans ?_⟩
  rw [hcontext, remove_thread_table]

/-- A thread of the process waits for this reason. -/
def WaitsFor (s : Sched n m) (p : Fin m) (reason : WaitReason) (t : Fin n) : Prop :=
  (s t).owner = some p ∧ (s.context t).wait_pending ∧ (s.context t).wait_reason = reason

omit [NeZero n] in
/-- A turn passes over a thread that does not wait, and otherwise selects one that does. -/
theorem oldest_turn_spec {p : Fin m} {reason : WaitReason} {selected : Option (Fin n)}
    (h : ∀ t, selected = some t → WaitsFor s p reason t) (v : Fin n) :
    (¬ WaitsFor s p reason v ∧ oldest_turn s p reason selected v = selected) ∨
      ∃ t, oldest_turn s p reason selected v = some t ∧ WaitsFor s p reason t := by
  unfold oldest_turn
  simp only
  split
  · rename_i hv
    right
    split
    · exact ⟨v, rfl, hv⟩
    · rename_i u
      split
      · exact ⟨v, rfl, hv⟩
      · exact ⟨u, rfl, h u rfl⟩
  · rename_i hv
    exact .inl ⟨hv, rfl⟩

omit [NeZero n] in
theorem oldest_loop_spec {p : Fin m} {reason : WaitReason} (l : List (Fin n))
    (selected : Option (Fin n)) (h : ∀ t, selected = some t → WaitsFor s p reason t) :
    (l.foldl (oldest_turn s p reason) selected = none →
      selected = none ∧ ∀ t ∈ l, ¬ WaitsFor s p reason t) ∧
    ∀ t, l.foldl (oldest_turn s p reason) selected = some t → WaitsFor s p reason t := by
  induction l generalizing selected with
  | nil => exact ⟨fun hnone => ⟨hnone, fun t ht => absurd ht not_mem_nil⟩, h⟩
  | cons v l ih =>
    rw [foldl_cons]
    rcases oldest_turn_spec h v with ⟨hv, hturn⟩ | ⟨u, hturn, hu⟩
    · rw [hturn]
      obtain ⟨hnone, hsome⟩ := ih selected h
      refine ⟨?_, hsome⟩
      intro hfold
      obtain ⟨hselected, hrest⟩ := hnone hfold
      exact ⟨hselected, forall_mem_cons.mpr ⟨hv, hrest⟩⟩
    · rw [hturn]
      obtain ⟨hnone, hsome⟩ := ih (some u) (by rintro t ⟨⟩; exact hu)
      refine ⟨?_, hsome⟩
      intro hfold
      cases (hnone hfold).1

omit [NeZero n] in
/-- The search finds a thread that waits, if there is one. -/
theorem find_oldest_spec (s : Sched n m) (p : Fin m) (reason : WaitReason) :
    (find_oldest s p reason = none → ∀ t, ¬ WaitsFor s p reason t) ∧
      ∀ t, find_oldest s p reason = some t → WaitsFor s p reason t := by
  obtain ⟨hnone, hsome⟩ := oldest_loop_spec (s := s) (finRange n) none nofun
  exact ⟨fun h t => (hnone h).2 t (mem_finRange t), hsome⟩

/-- A signal to a process: no thread of it waits, or the wait of one of them ends. -/
theorem process_signal_does (h : Sound s) (p : Fin m) (reason : WaitReason) (result : Int) :
    let r := process_wait_signal s p reason result
    r.1 = false ∧ r.2 = s ∧ (∀ t, ¬ WaitsFor s p reason t) ∨
      r.1 ∧ ∃ t, WaitsFor s p reason t ∧ Only t s r.2 ∧ Ended t result s r.2 := by
  obtain ⟨hnone, hsome⟩ := find_oldest_spec s p reason
  unfold process_wait_signal
  dsimp only
  split
  · rename_i hfind
    exact .inl ⟨rfl, rfl, hnone hfind⟩
  · rename_i t hfind
    have hwaits := hsome t hfind
    obtain ⟨honly, ⟨-, -, hrefused⟩ | ⟨htrue, -, hended⟩⟩ := signal_does h t reason result
    · exact absurd hwaits.2 hrefused
    · exact .inr ⟨htrue, t, hwaits, honly, hended⟩

theorem cancel_turn_does (h : Sound s) (p : Fin m) (object_id : BitVec 64) (result : Int) (t : Fin n) :
    let s' := cancel_turn p object_id result s t
    Only t s s' ∧ (s' = s ∨ Ended t result s s') := by
  unfold cancel_turn
  simp only
  split
  · obtain ⟨honly, ⟨-, hs, -⟩ | ⟨-, -, hended⟩⟩ := signal_does h t (s.context t).wait_reason result
    · exact ⟨honly, .inl hs⟩
    · exact ⟨honly, .inr hended⟩
  · exact ⟨.refl h t, .inl rfl⟩

/-- A wait loses its deadline. -/
def NoDeadline (t : Fin n) (s s' : Sched n m) : Prop :=
  s' = s.setContext t { s.context t with wait_has_deadline := false, wait_deadline := 0 }

theorem tick_turn_does (h : Sound s) (tick_now : BitVec 32) (t : Fin n) :
    let s' := tick_turn tick_now s t
    Only t s s' ∧ (s' = s ∨ NoDeadline t s s' ∨ ∃ result, Ended t result s s') := by
  unfold tick_turn
  simp only
  split
  · split
    · exact ⟨only_setContext h _, .inr (.inl rfl)⟩
    · obtain ⟨honly, ⟨-, hs, -⟩ | ⟨-, -, hended⟩⟩ := signal_does h t (s.context t).wait_reason
        (if (s.context t).wait_reason = .timer then PROCESS_WAIT_OK else PROCESS_WAIT_TIMEOUT)
      · exact ⟨honly, .inl hs⟩
      · exact ⟨honly, .inr (.inr ⟨_, hended⟩)⟩
  · exact ⟨.refl h t, .inl rfl⟩

/-- The CPU may take the thread. -/
def Takes (t : Fin n) (cpu : Nat) (s : Sched n m) : Prop :=
  (s t).owner ≠ none ∧ (s t).running_cpu = none ∧
    thread_cpu_eligible (s t) cpu

/-- The wait is as it was, or it is forgotten. -/
def SameWait (context context' : ThreadContext) : Prop :=
  (context'.wait_pending = context.wait_pending ∧ context'.wait_reason = context.wait_reason) ∨
    (context'.wait_pending = false ∧ context'.wait_reason = .none)

/-- The CPU has the thread, and the thread runs. -/
structure Runs (t : Fin n) (cpu : Nat) (s s' : Sched n m) : Prop where
  before : Takes t cpu s ∨ (s t).running_cpu = some cpu
  queue : t ∈ s'.queued → t ∈ s.queued ∧ (s t).running_cpu = some cpu
  thread : ∃ context : ThreadContext, s'.thread_table t =
      { s t with running_cpu := some cpu, context := context } ∧
    context.scheduler_state = .running ∧ SameWait (s.context t) context

theorem mark_running_does (h : Sound s) (cpu : Nat) (t : Fin n) :
    let s' := scheduler_mark_thread_running s cpu t
    Only t s s' ∧ (s' = s ∧ ¬ Takes t cpu s ∨ Runs t cpu s s') := by
  unfold scheduler_mark_thread_running
  simp only
  split
  · rename_i hnone
    exact ⟨.refl h t, .inl ⟨rfl, fun ht => ht.1 hnone⟩⟩
  rename_i howner
  set s1 := (if (s t).context.wait_reason = .child then thread_wait_reset_unlocked s t
    else s) with hs1
  have hforget : ∃ context, s1 = s.setContext t context ∧ SameWait (s.context t) context := by
    rw [hs1]
    split
    · exact ⟨_, rfl, .inr ⟨rfl, rfl⟩⟩
    · refine ⟨s.context t, ?_, .inl ⟨rfl, rfl⟩⟩
      unfold Sched.setContext Sched.setThread Sched.context
      simp
  obtain ⟨context, hcontext, hwait⟩ := hforget
  have honly : Only t s s1 := hcontext ▸ only_setContext h context
  have hthread : s1.thread_table t = { s t with context := context } := by
    rw [hcontext, Sched.setContext_self]
  have hqueued : s1.queued = s.queued := by rw [hcontext]; rfl
  split
  · rename_i hcpu
    refine ⟨honly.trans (only_setContext honly.sound _), .inr ⟨.inr hcpu, ?_, ?_⟩⟩
    · intro hm
      refine ⟨?_, hcpu⟩
      rw [← hqueued]
      exact hm
    · refine ⟨{ s1.context t with
        scheduler_state := .running
        pause_reason := .none
        timeslice_ticks := thread_quantum (s t) }, ?_, rfl, ?_⟩
      · rw [Sched.setContext_self, hthread, ← hcpu]
      · have hcontext1 : s1.context t = context := by rw [Sched.context, hthread]
        rw [hcontext1]
        exact hwait
  · split
    · rename_i hrefused
      refine ⟨.refl h t, .inl ⟨rfl, ?_⟩⟩
      rintro ⟨-, hcpu, heligible⟩
      simp [hcpu, heligible] at hrefused
    · rename_i hfree
      rw [not_or, not_not] at hfree
      have heligible : thread_cpu_eligible (s t) cpu := by simpa using hfree.2
      have hremove := only_remove honly.sound t
      have hclaim : thread_claim_cpu_unlocked (scheduler_remove_unlocked s1 t) t cpu =
          some ((scheduler_remove_unlocked s1 t).setThread t
            (claimed { s t with context := context } cpu)) := by
        unfold thread_claim_cpu_unlocked
        simp only
        rw [remove_thread_table, hthread, if_neg]
        simpa [thread_cpu_eligible] using hfree
      rw [hclaim, Option.getD_some]
      refine ⟨(honly.trans hremove).trans (only_setThread hremove.sound ?_),
        .inr ⟨.inl ⟨howner, hfree.1, heligible⟩, ?_, ?_⟩⟩
      · rw [remove_thread_table, hthread]
        rfl
      · intro hm
        exact absurd hm (not_mem_remove honly.sound t)
      · exact ⟨_, Sched.setThread_self _ _ _, rfl, hwait⟩

/-- The CPU gives the thread back, if it has it. -/
def released (thread : Thread m) (cpu : Nat) : Thread m :=
  { thread with running_cpu := if thread.running_cpu = some cpu then none else thread.running_cpu }

/-- The thread is given back, and goes into the queue if it is ready. -/
structure Returned (t : Fin n) (cpu : Nat) (s s' : Sched n m) : Prop where
  thread : ∃ k, s'.thread_table t = (released (s t) cpu).as (s.context t).scheduler_state k
  queue : t ∈ s'.queued → t ∈ s.queued ∨ (s.live t ∧
    (released (s t) cpu).running_cpu = none ∧ (s.context t).scheduler_state = .ready)
  enqueued : s.live t → (released (s t) cpu).running_cpu = none →
    (s.context t).resumable → (s.context t).scheduler_state = .ready → t ∈ s'.queued

theorem complete_does (h : Sound s) (cpu : Nat) (t : Fin n) :
    Only t s (scheduler_complete_kernel_return s cpu t) ∧
      Returned t cpu s (scheduler_complete_kernel_return s cpu t) := by
  unfold scheduler_complete_kernel_return
  simp only
  set s1 := (if (s t).running_cpu = some cpu then thread_release_cpu_unlocked s t else s)
    with hs1
  have hrelease : s1 = s.setThread t (released (s t) cpu) := by
    rw [hs1]
    split
    · rename_i hcpu
      unfold thread_release_cpu_unlocked released
      rw [if_pos hcpu]
    · rename_i hcpu
      unfold Sched.setThread released
      simp [hcpu]
  have honly : Only t s s1 := by
    rw [hrelease]
    exact only_setThread h rfl
  have hthread : s1.thread_table t = released (s t) cpu := by
    rw [hrelease, Sched.setThread_self]
  have hcontext : s1.context t = s.context t := by
    rw [Sched.context, hthread]
    rfl
  have hlive : s1.live t = s.live t := by
    unfold Sched.live
    rw [honly.owner_active t, hthread]
    rfl
  have hqueued : s1.queued = s.queued := by rw [hrelease]; rfl
  split
  · rename_i hready
    have hready' : (s.live t ∧ (s.context t).resumable) ∧
        (s.context t).scheduler_state = .ready := by
      rw [← hlive, ← hcontext]
      simpa [Sched.live] using hready
    obtain ⟨henq, hdoes⟩ := enqueue_does honly.sound t
    refine ⟨honly.trans henq, ?_, ?_, ?_⟩
    · rcases hdoes with he | he
      · obtain ⟨k, hk⟩ := he.thread
        exact ⟨k, by rw [hk, hthread, hready'.2]⟩
      · obtain ⟨k, hk⟩ := he.thread
        exact ⟨k, by rw [hk, hthread, hcontext]⟩
    · intro hm
      rcases hdoes with he | he
      · refine .inr ⟨hready'.1.1, ?_, hready'.2⟩
        rw [← hthread]
        exact he.free.2
      · left
        rw [← hqueued]
        exact he.queue.mp hm
    · intro hl hcpu _ _
      rcases hdoes with he | he
      · exact he.after
      · refine he.queue.mpr (he.free ⟨?_, ?_⟩)
        · rw [hlive]
          exact hl
        · rw [hthread]
          exact hcpu
  · rename_i hready
    refine ⟨honly, ⟨(s.context t).timeslice_ticks, by rw [hthread]; rfl⟩, ?_, ?_⟩
    · intro hm
      left
      rw [← hqueued]
      exact hm
    · intro hl _ hr hst
      refine absurd ?_ hready
      rw [hcontext]
      rw [← hlive] at hl
      simp only [Sched.live, Bool.and_eq_true] at hl
      simp [hl.1, hl.2, hr, hst]

/-- The CPU gets the thread out of the queue. -/
structure Got (t : Fin n) (cpu : Nat) (w : Wanted) (s s' : Sched n m) : Prop where
  selectable : selectable s cpu w t
  queue : t ∉ s'.queued
  thread : s'.thread_table t = claimed (s t) cpu

omit [NeZero n] in
theorem selectable_free {cpu : Nat} {w : Wanted} (h : selectable s cpu w t) :
    s.Free t ∧ (s.context t).scheduler_state = .ready ∧ (s.context t).resumable ∧
      thread_cpu_eligible (s t) cpu := by
  simp only [selectable, Bool.and_eq_true, decide_eq_true_eq] at h
  obtain ⟨⟨⟨⟨⟨⟨⟨⟨-, hactive⟩, howner⟩, hresumable⟩, hready⟩, hcpu⟩, heligible⟩, -⟩, -⟩ := h
  exact ⟨⟨by simp [Sched.live, hactive, howner], hcpu⟩, hready, hresumable, heligible⟩

/-- The thread that was found is taken: it is free, so the claim is not refused. -/
theorem taken {cpu : Nat} {w : Wanted} {state : SchedulerState} {k : Nat} (honly : Only t s s')
    (hsel : selectable s cpu w t) (hthread : s'.thread_table t = (s t).as state k) :
    let r := (scheduler_remove_unlocked s' t).setThread t (claimed (s t) cpu)
    thread_claim_cpu_unlocked (scheduler_remove_unlocked s' t) t cpu = some r ∧ Only t s r ∧
      Got t cpu w s r := by
  have hremove := only_remove honly.sound t
  obtain ⟨⟨-, hcpu⟩, -, -, heligible⟩ := selectable_free hsel
  refine ⟨?_, ?_, hsel, ?_, Sched.setThread_self _ _ _⟩
  · unfold thread_claim_cpu_unlocked
    simp only
    rw [remove_thread_table, hthread, if_neg]
    · rfl
    · rw [not_or]
      refine ⟨not_not_intro hcpu, ?_⟩
      rw [show thread_cpu_eligible ((s t).as state k) cpu =
        thread_cpu_eligible (s t) cpu from rfl, heligible]
      decide
  · refine (honly.trans hremove).trans (only_setThread hremove.sound ?_)
    rw [remove_thread_table, hthread]
    rfl
  · exact not_mem_remove honly.sound t

theorem claim_does (h : Sound s) (cpu : Nat) (w : Wanted) (fault : Bool) :
    let r := scheduler_claim_ready_thread s cpu w fault
    r = (none, s) ∨ ∃ t, r.1 = some t ∧ Only t s r.2 ∧ Got t cpu w s r.2 := by
  unfold scheduler_claim_ready_thread find_next_ready_thread_unlocked
  simp only
  split
  · exact .inl rfl
  split
  · rename_i hnone
    split at hnone
    · cases hnone
    · split at hnone
      · cases hnone
      · cases hnone
        exact .inl rfl
  · rename_i t s1 hsome
    right
    have hfound : selectable s cpu w t ∧ Only t s s1 ∧
        ∃ state k, s1.thread_table t = (s t).as state k := by
      split at hsome
      · rename_i hfind
        cases hsome
        exact ⟨find?_some hfind, .refl h t, _, _, rfl⟩
      split at hsome
      · rename_i hfind
        cases hsome
        obtain ⟨honly, he | he⟩ := enqueue_does h t
        · exact ⟨find?_some hfind, honly, _, he.thread⟩
        · exact ⟨find?_some hfind, honly, _, he.thread⟩
      · cases hsome
    obtain ⟨hsel, honly, state, k, hthread⟩ := hfound
    obtain ⟨hclaim, honly', hgot⟩ := taken honly hsel hthread
    rw [hclaim]
    exact ⟨t, rfl, honly', hgot⟩

theorem exit_does (h : Sound s) (t : Fin n) : let s' := thread_mark_exited s t
    Only t s s' ∧ (s' = s ∨ t ∉ s'.queued ∧ s' t = finished (s t)) := by
  unfold thread_mark_exited
  simp only
  split
  · exact ⟨.refl h t, .inl rfl⟩
  · split
    · exact ⟨.refl h t, .inl rfl⟩
    · have hremove := only_remove h t
      refine ⟨hremove.trans (only_setThread hremove.sound rfl), .inr ⟨not_mem_remove h t, ?_⟩⟩
      rw [Sched.setThread_self, remove_thread_table]

theorem finish_turn_does (h : Sound s) (p : Fin m) (t : Fin n) : let s' := finish_turn p s t
    Only t s s' ∧ (s' = s ∧ (s t).owner ≠ some p ∨ t ∉ s'.queued ∧ s' t = finished (s t)) := by
  unfold finish_turn
  dsimp only
  split
  · have hremove := only_remove h t
    refine ⟨hremove.trans (only_setThread hremove.sound rfl), .inr ⟨not_mem_remove h t, ?_⟩⟩
    rw [Sched.setThread_self, remove_thread_table]
  · rename_i howner
    exact ⟨.refl h t, .inl ⟨rfl, howner⟩⟩

end

end mini_kernel.sched
