-- No wake-up is lost: while a thread of the process waits for a message and no call is
-- under way, there are at most as many messages in the mailbox as threads that have been
-- signalled and have not completed their call.
import MiniKernel.Ipc.Wakeups

open mini_kernel.lib Function
open mini_kernel.sched (Sched Thread WaitReason PROCESS_WAIT_OK Sound Only Ended Begun)
open mini_kernel.ipc (KernelIpcMailbox OsIpcMessageV2 OsIpcReceiveFilter ipc_mailbox_push_v2
  ipc_mailbox_pop_v2 ipc_mailbox_pop_v2_match)

namespace mini_kernel.wakeup

open SenderPc ReceiverPc State

section
variable {n m k : Nat} [NeZero n]

/-! ## The mailbox counts -/

theorem pop_count (mailbox : KernelIpcMailbox) : let r := ipc_mailbox_pop_v2 mailbox true
    r.1 = none ∧ r.2 = mailbox ∧ mailbox.count = 0 ∨ r.1 ≠ none ∧ r.2.count = mailbox.count - 1 := by
  unfold ipc_mailbox_pop_v2
  by_cases h : mailbox.count = 0
  · simp [h]
  · simp [h]

/-- A pop takes at most one message out. -/
theorem receive_count (call : Receive) (mailbox : KernelIpcMailbox) :
    (call.pop mailbox).2.count ≤ mailbox.count := by
  have hpop := pop_count mailbox
  cases call with
  | v2_receive_match filter =>
    simp only [Receive.pop, ipc_mailbox_pop_v2_match]
    split
    · exact le_rfl
    · split
      · exact le_rfl
      · split
        · exact le_rfl
        · exact Nat.sub_le _ _
  | _ =>
    simp only [Receive.pop]
    rcases hpop with ⟨-, hs, -⟩ | ⟨-, hc⟩
    · rw [hs]
    · omega

theorem push_count (mailbox : KernelIpcMailbox) (message : OsIpcMessageV2) (fault : Bool) :
    let r := ipc_mailbox_push_v2 mailbox message fault true
    r.1 = false ∧ r.2.count = mailbox.count ∨ r.1 ∧ r.2.count = mailbox.count + 1 := by
  unfold ipc_mailbox_push_v2
  dsimp only
  split
  · exact .inl ⟨rfl, rfl⟩
  split
  · exact .inl ⟨rfl, rfl⟩
  · split
    · exact .inl ⟨rfl, rfl⟩
    · split
      · exact .inl ⟨rfl, rfl⟩
      · exact .inr ⟨rfl, rfl⟩

/-! ## The invariant -/

/-- What a thread of the process has in its context at each place. -/
def Stage (p : Fin m) (x : Place m) : Prop :=
  match x.2 with
  | .user => x.1.owner = some p → x.1.context.wait_pending = false ∧ x.1.context.wait_reason = .none
  | .pop _ | .wait_begin _ _ =>
    x.1.owner = some p ∧ x.1.context.wait_pending = false ∧ x.1.context.wait_reason = .none
  | .reserve | .count | .signal | .waiting => x.1.owner = some p ∧ x.1.context.wait_reason = .ipc
  | .complete => x.1.owner = some p ∧ x.1.context.wait_reason = .ipc ∧
    x.1.context.wait_pending = false ∧ x.1.context.wait_result = PROCESS_WAIT_OK
  | .reset => x.1.owner = some p ∧ x.1.context.wait_reason = .ipc ∧ x.1.context.wait_pending = false

/-- Each thread that waits has one that will look at the mailbox again, or each message
has a thread that was signalled for it, or a sender that is going to signal one. -/
def Bound (p : Fin m) (s : State n m k) : Prop :=
  countOf (pending p) s.place ≤ countOf looking s.place ∨
    s.mailbox.count ≤ countOf (owed p) s.place + countOf signalling s.sender

structure Inv (p : Fin m) (s : State n m k) : Prop where
  sound : Sound s.tables
  stage : ∀ t, Stage p (s.place t)
  bound : Bound p s

variable {p : Fin m} {s s' : State n m k} {t : Fin n}

/-- A thread goes on. What changes in the counts is what changes for it. -/
theorem Inv.move (I : Inv p s) (hsound : Sound s'.tables) (hplace : ∀ u ≠ t, s'.place u = s.place u)
    (hstage : Stage p (s'.place t)) (hbound : ∀ P F S P' F' S',
      P' + (pending p (s.place t)).toNat = P + (pending p (s'.place t)).toNat →
      F' + (looking (s.place t)).toNat = F + (looking (s'.place t)).toNat →
      S' + (owed p (s.place t)).toNat = S + (owed p (s'.place t)).toNat →
      P ≤ F ∨ s.mailbox.count ≤ S + countOf signalling s.sender →
      P' ≤ F' ∨ s'.mailbox.count ≤ S' + countOf signalling s'.sender) : Inv p s' where
  sound := hsound
  stage u := by
    by_cases hu : u = t
    · rw [hu]
      exact hstage
    · rw [hplace u hu]
      exact I.stage u
  bound := hbound _ _ _ _ _ _ (countOf_moved (pending p) hplace) (countOf_moved looking hplace)
    (countOf_moved (owed p) hplace) I.bound

omit [NeZero n] in
theorem place_goto (s : State n m k) (pc : ReceiverPc) {u : Fin n} (hu : u ≠ t) :
    (s.goto t pc).place u = s.place u := by
  simp [place, goto, hu]

omit [NeZero n] in
@[simp] theorem place_goto_self (s : State n m k) (t : Fin n) (pc : ReceiverPc) :
    (s.goto t pc).place t = (s.tables t, pc) := by
  simp [place, goto]

variable {x y : Place m} {tables : Sched n m} {pc : ReceiverPc} {i : Fin k}

theorem pending_iff : pending p x ↔
    x.1.owner = some p ∧ x.1.context.wait_pending ∧ x.1.context.wait_reason = .ipc := by
  simp [pending, and_assoc]

theorem signalled_iff : signalled p x ↔
    x.1.owner = some p ∧ x.1.context.wait_pending = false ∧ x.1.context.wait_reason = .ipc ∧
      x.1.context.wait_result = PROCESS_WAIT_OK := by
  simp [signalled, and_assoc]

theorem owed_iff : owed p x ↔ signalled p x ∧ x.2.taken = false := by
  simp [owed]

/-- A thread that does not wait counts for nothing. -/
theorem not_pending (h : x.1.context.wait_pending = false) : pending p x = false := by
  simp [pending, h]

theorem not_owed (h : x.1.context.wait_reason = .none) : owed p x = false := by
  simp [owed, signalled, h]

section
variable (ho : x.1.owner = y.1.owner) (hp : x.1.context.wait_pending = y.1.context.wait_pending)
    (hr : x.1.context.wait_reason = y.1.context.wait_reason)
include ho hp hr

theorem pending_congr : pending p x = pending p y := by
  simp only [pending, ho, hp, hr]

theorem owed_congr (hres : x.1.context.wait_result = y.1.context.wait_result)
    (hpc : x.2.taken = y.2.taken) : owed p x = owed p y := by
  simp only [owed, signalled, ho, hp, hr, hres, hpc]

end

omit [NeZero n] in
theorem place_tables (h : ∀ u ≠ t, tables.thread_table u = s.tables u)
    {u : Fin n} (hu : u ≠ t) : place { s with tables := tables } u = s.place u := by
  simp only [place]
  rw [h u hu]

/-- The table changes for one thread, and its wait stays as it is. -/
theorem Inv.same_wait (I : Inv p s) (honly : Only t s.tables tables)
    (hpending : (tables.context t).wait_pending = (s.tables.context t).wait_pending)
    (hreason : (tables.context t).wait_reason = (s.tables.context t).wait_reason)
    (hresult : (tables.context t).wait_result = (s.tables.context t).wait_result) :
    Inv p { s with tables := tables } := by
  have hstage := I.stage t
  refine I.move honly.sound (fun u hu => place_tables honly.others hu) ?_ ?_
  · simp only [Sched.context] at hpending hreason hresult
    unfold Stage at hstage ⊢
    simp only [place] at hstage ⊢
    rw [honly.owner, hpending, hreason, hresult]
    exact hstage
  · intro P F S P' F' S' hP hF hS hbound
    have hp : pending p (place { s with tables := tables } t) = pending p (s.place t) :=
      pending_congr honly.owner hpending hreason
    have ho : owed p (place { s with tables := tables } t) = owed p (s.place t) :=
      owed_congr honly.owner hpending hreason hresult rfl
    rw [hp] at hP
    rw [ho] at hS
    have hF' : F' = F := Nat.add_right_cancel hF
    show P' ≤ F' ∨ s.mailbox.count ≤ S' + countOf signalling s.sender
    omega

theorem Inv.set_context (I : Inv p s) (context : sched.ThreadContext)
    (hpending : context.wait_pending = (s.tables.context t).wait_pending)
    (hreason : context.wait_reason = (s.tables.context t).wait_reason)
    (hresult : context.wait_result = (s.tables.context t).wait_result) :
    Inv p { s with tables := s.tables.setContext t context } := by
  refine I.same_wait (t := t) (sched.only_setContext I.sound _) ?_ ?_ ?_
  all_goals
    rw [Sched.context, Sched.setContext_self]
    assumption

/-- A thread whose wait is pending has not taken its message. -/
theorem Stage.not_taken (h : Stage p x) (hp : x.1.context.wait_pending) : x.2.taken = false := by
  obtain ⟨thread, pc⟩ := x
  cases pc with
  | reset => exact absurd (h.2.2.symm.trans hp) (by decide)
  | _ => rfl

/-- A thread whose wait ended is at a place where that is expected. -/
theorem Stage.ended (h : Stage p x) (hp : x.1.context.wait_pending)
    (ho : y.1.owner = x.1.owner) (hr : y.1.context.wait_reason = x.1.context.wait_reason)
    (hpc : y.2 = x.2) : Stage p y := by
  obtain ⟨thread, pc⟩ := x
  obtain ⟨thread', pc'⟩ := y
  cases hpc
  have hfalse : ¬ thread.context.wait_pending = false := by rw [show _ = true from hp]; decide
  cases pc with
  | user => exact fun howner => absurd (h (ho.symm.trans howner)).1 hfalse
  | pop call => exact absurd h.2.1 hfalse
  | wait_begin v2 timeout_ticks => exact absurd h.2.1 hfalse
  | complete => exact absurd h.2.2.1 hfalse
  | reset => exact absurd h.2.2 hfalse
  | reserve | count | signal | waiting => exact ⟨ho.trans h.1, hr.trans h.2⟩

/-- The end of a wait: one thread less waits for a message, if it waited for one. -/
theorem ended_counts (hstage : Stage p (s.place t)) {result : Int}
    (honly : Only t s.tables tables) (he : Ended t result s.tables tables) :
    countOf (pending p) (place { s with tables := tables }) + (pending p (s.place t)).toNat =
        countOf (pending p) s.place ∧
      countOf looking (place { s with tables := tables }) = countOf looking s.place ∧
      countOf (owed p) (place { s with tables := tables }) = countOf (owed p) s.place +
        (pending p (s.place t) && decide (result = PROCESS_WAIT_OK)).toNat ∧
      Stage p (place { s with tables := tables } t) := by
  have hplace : ∀ u ≠ t, place { s with tables := tables } u = s.place u :=
    fun u hu => place_tables honly.others hu
  have hP := countOf_moved (pending p) hplace
  have hF := countOf_moved looking hplace
  have hS := countOf_moved (owed p) hplace
  have hpend : (s.place t).1.context.wait_pending := he.pending
  have hafter : (tables t).context.wait_pending = false ∧
      (tables t).context.wait_reason = (s.place t).1.context.wait_reason ∧
      (tables t).context.wait_result = result := by
    obtain ⟨k, hk⟩ := he.thread
    rw [hk]
    exact ⟨rfl, rfl, rfl⟩
  have howner : (tables t).owner = (s.place t).1.owner := honly.owner
  have hpc : (s.receiver t).taken = false := hstage.not_taken hpend
  have howed : owed p (s.place t) = false := by simp [owed, signalled, hpend]
  have hpending' : pending p (place { s with tables := tables } t) = false := not_pending hafter.1
  have howed' : owed p (place { s with tables := tables } t) =
      (pending p (s.place t) && decide (result = PROCESS_WAIT_OK)) := by
    rw [Bool.eq_iff_iff, owed_iff, signalled_iff, Bool.and_eq_true, pending_iff, decide_eq_true_eq]
    have hself : place { s with tables := tables } t = (tables t, s.receiver t) := rfl
    rw [hself, howner, hafter.1, hafter.2.1, hafter.2.2, hpend, hpc]
    tauto
  rw [hpending', Bool.toNat_false, Nat.add_zero] at hP
  rw [howed, howed', Bool.toNat_false, Nat.add_zero] at hS
  exact ⟨hP, Nat.add_right_cancel hF, hS, hstage.ended hpend howner hafter.2.1 rfl⟩

section
variable (I : Inv p s)
include I

theorem Inv.ended {result : Int} (honly : Only t s.tables tables)
    (he : Ended t result s.tables tables) : Inv p { s with tables := tables } := by
  obtain ⟨hP, hF, hS, hstage⟩ := ended_counts (I.stage t) honly he
  have hbound := I.bound
  refine ⟨honly.sound, ?_, ?_⟩
  · intro u
    by_cases hu : u = t
    · rw [hu]
      exact hstage
    · rw [place_tables honly.others hu]
      exact I.stage u
  · unfold Bound at hbound ⊢
    simp only
    omega

/-! ## Receivers -/

variable {mailbox : KernelIpcMailbox}

/-- A receiver goes on to `pc`. -/
theorem Inv.go (hsound : Sound tables) (hothers : ∀ u ≠ t, tables.thread_table u = s.tables u)
    (hstage : Stage p (tables t, pc)) (hbound : ∀ P F S P' F' S',
      P' + (pending p (s.place t)).toNat = P + (pending p (tables t, pc)).toNat →
      F' + (s.receiver t).looks.toNat = F + pc.looks.toNat →
      S' + (owed p (s.place t)).toNat = S + (owed p (tables t, pc)).toNat →
      P ≤ F ∨ s.mailbox.count ≤ S + countOf signalling s.sender →
      P' ≤ F' ∨ mailbox.count ≤ S' + countOf signalling s.sender) :
    Inv p (goto { s with tables := tables, mailbox := mailbox } t pc) := by
  refine I.move (t := t) hsound ?_ ?_ ?_
  · intro u hu
    rw [place_goto _ _ hu]
    exact place_tables hothers hu
  · rw [place_goto_self]
    exact hstage
  · rw [place_goto_self]
    exact hbound

/-- A receiver that has not begun to wait goes on, or back to the user. -/
theorem Inv.go_idle (hcount : mailbox.count ≤ s.mailbox.count)
    (hpending : (s.tables.context t).wait_pending = false)
    (hreason : (s.tables.context t).wait_reason = .none)
    (hlooks : (s.receiver t).looks = false) (hlooks' : pc.looks = false)
    (hstage : Stage p (s.tables t, pc)) : Inv p (goto { s with mailbox := mailbox } t pc) := by
  refine I.go I.sound (fun _ _ => rfl) hstage ?_
  intro P F S P' F' S' hP hF hS hbound
  rw [not_pending (x := s.place t) hpending, not_pending hpending] at hP
  rw [not_owed (x := s.place t) hreason, not_owed hreason] at hS
  rw [hlooks, hlooks'] at hF
  omega

theorem Inv.stage_at (hpc : s.receiver t = pc) : Stage p (s.tables t, pc) := hpc ▸ I.stage t

theorem enter_inv {call : Receive} (hpc : s.receiver t = .user)
    (howner : (s.tables t).owner = some p) : Inv p (s.goto t (.pop call)) := by
  obtain ⟨hpending, hreason⟩ := I.stage_at hpc howner
  exact I.go_idle le_rfl hpending hreason (by rw [hpc]; rfl) rfl ⟨howner, hpending, hreason⟩

theorem pop_inv {call : Receive} (hpc : s.receiver t = .pop call) :
    Inv p (if (call.pop s.mailbox).1.isSome then goto { s with mailbox := (call.pop s.mailbox).2 } t .user
      else goto { s with mailbox := (call.pop s.mailbox).2 } t call.would_block) := by
  obtain ⟨howner, hpending, hreason⟩ := I.stage_at hpc
  have hcount := receive_count call s.mailbox
  have hlooks : (s.receiver t).looks = false := by rw [hpc]; rfl
  split
  · exact I.go_idle hcount hpending hreason hlooks rfl fun _ => ⟨hpending, hreason⟩
  have hblock : call.would_block = .user ∨ ∃ v2 timeout_ticks, call.would_block = .wait_begin v2 timeout_ticks := by
    unfold Receive.would_block
    split
    · exact .inr ⟨_, _, rfl⟩
    · exact .inr ⟨_, _, rfl⟩
    · exact .inl rfl
  rcases hblock with h | ⟨v2, timeout_ticks, h⟩
  · rw [h]
    exact I.go_idle hcount hpending hreason hlooks rfl fun _ => ⟨hpending, hreason⟩
  · rw [h]
    exact I.go_idle hcount hpending hreason hlooks rfl ⟨howner, hpending, hreason⟩

/-- A thread that begins to wait is one more that waits, and one more that will look. -/
theorem begin_inv {v2 : Bool} {timeout_ticks : U32}
    (hpc : s.receiver t = .wait_begin v2 timeout_ticks) (honly : Only t s.tables tables)
    (hb : Begun t .ipc s.tables tables) :
    Inv p (goto { s with tables := tables } t (if v2 then .reserve else .count)) := by
  obtain ⟨howner, hpending, hreason⟩ := I.stage_at hpc
  obtain ⟨sequence, timeout, tick, hk⟩ := hb.thread
  have hafter : (tables t).context.wait_pending ∧
      (tables t).context.wait_reason = .ipc := by
    rw [hk]
    exact ⟨rfl, rfl⟩
  have howner' : (tables t).owner = some p := honly.owner.trans howner
  have hlooks : (if v2 then reserve else .count).looks := by cases v2 <;> rfl
  refine I.go honly.sound honly.others ?_ ?_
  · cases v2 <;> exact ⟨howner', hafter.2⟩
  · intro P F S P' F' S' hP hF hS hbound
    rw [not_pending (x := s.place t) hpending, pending_iff.mpr ⟨howner', hafter.1, hafter.2⟩] at hP
    rw [not_owed (x := s.place t) hreason] at hS
    rw [hlooks, hpc] at hF
    simp only [looks, Bool.toNat_false, Bool.toNat_true] at hP hF hS
    omega

/-- A receiver goes on, and counts as it did. -/
theorem Inv.go_same (hstage : Stage p (s.tables t, pc)) (hlooks : pc.looks = (s.receiver t).looks)
    (howed : owed p (s.tables t, pc) = owed p (s.place t)) : Inv p (s.goto t pc) := by
  refine I.go I.sound (fun _ _ => rfl) hstage ?_
  intro P F S P' F' S' hP hF hS hbound
  have hpend : pending p (s.tables t, pc) = pending p (s.place t) := pending_congr rfl rfl rfl
  rw [hpend] at hP
  rw [howed] at hS
  rw [hlooks] at hF
  omega

theorem reserve_inv (hpc : s.receiver t = .reserve) : Inv p (goto { s with
      tables := s.tables.setContext t { s.tables.context t with wait_reserved := true } } t .count) := by
  have I' := I.set_context (t := t) { s.tables.context t with wait_reserved := true } rfl rfl rfl
  have hstage : Stage p (_, .reserve) := I'.stage_at hpc
  exact I'.go_same hstage (by rw [hpc]; rfl)
    (owed_congr rfl rfl rfl rfl (by simp only [place, hpc, taken]))

/-- The thread looks at the mailbox: it is empty, or the thread will signal. -/
theorem count_inv (hpc : s.receiver t = .count) :
    Inv p (s.goto t (if s.mailbox.count ≠ 0 then .signal else .waiting)) := by
  have hstage := I.stage_at hpc
  split
  · exact I.go_same hstage (by rw [hpc]; rfl) (owed_congr rfl rfl rfl rfl (by simp only [place, hpc, taken]))
  · rename_i hzero
    refine I.go I.sound (fun _ _ => rfl) hstage ?_
    intro P F S P' F' S' _ _ _ _
    right
    omega

/-- A signal to the process: nobody waits for a message, or one thread less does and one
more is owed one. -/
theorem signal_counts : let r := process_wait_signal p s
    r.1 = false ∧ r.2 = s ∧ countOf (pending p) s.place = 0 ∨
      r.1 ∧ Inv p r.2 ∧ countOf (pending p) r.2.place + 1 = countOf (pending p) s.place ∧
        countOf looking r.2.place = countOf looking s.place ∧
        countOf (owed p) r.2.place = countOf (owed p) s.place + 1 := by
  unfold process_wait_signal
  simp only
  rcases sched.process_signal_does I.sound p .ipc PROCESS_WAIT_OK with
    ⟨hfalse, hsame, hnone⟩ | ⟨htrue, w, hwaits, honly, hended⟩
  · left
    refine ⟨hfalse, by rw [hsame], countOf_eq_zero ?_⟩
    intro u
    rw [Bool.eq_false_iff]
    intro h
    exact hnone u (pending_iff.mp h)
  · right
    obtain ⟨hP, hF, hS, -⟩ := ended_counts (I.stage w) honly hended
    have hpend : pending p (s.place w) := pending_iff.mpr hwaits
    rw [hpend] at hP hS
    exact ⟨htrue, I.ended honly hended, hP, hF, hS⟩

theorem signal_inv (hpc : s.receiver t = .signal) : Inv p ((process_wait_signal p s).2.goto t .waiting) := by
  have hbound := I.bound
  unfold Bound at hbound
  -- The signal keeps what it found; then the thread stops looking.
  have hafter : let s1 := (process_wait_signal p s).2
      Inv p s1 ∧ (countOf (pending p) s1.place + 1 ≤ countOf looking s.place ∨
        countOf (pending p) s1.place = 0 ∨
        s.mailbox.count ≤ countOf (owed p) s1.place + countOf signalling s.sender) ∧
      countOf looking s1.place = countOf looking s.place := by
    dsimp only
    rcases signal_counts I with ⟨-, hsame, hzero⟩ | ⟨-, I', hP, hF, hS⟩
    · rw [hsame]
      exact ⟨I, .inr (.inl hzero), rfl⟩
    · refine ⟨I', ?_, hF⟩
      omega
  obtain ⟨I', hcounts, hF⟩ := hafter
  have hpc' : (process_wait_signal p s).2.receiver t = .signal := hpc
  set s1 := (process_wait_signal p s).2
  have hstage := I'.stage_at hpc'
  have hplace : ∀ u ≠ t, (s1.goto t .waiting).place u = s1.place u := fun u hu => place_goto s1 _ hu
  have hP' := countOf_moved (pending p) hplace
  have hF' := countOf_moved looking hplace
  have hS' := countOf_moved (owed p) hplace
  have hpend : pending p ((s1.goto t .waiting).place t) = pending p (s1.place t) := by
    rw [place_goto_self]
    exact pending_congr rfl rfl rfl
  have howed : owed p ((s1.goto t .waiting).place t) = owed p (s1.place t) := by
    rw [place_goto_self]
    exact owed_congr rfl rfl rfl rfl (by simp only [place, hpc', taken])
  rw [hpend] at hP'
  rw [howed] at hS'
  rw [place_goto_self] at hF'
  simp only [looking, place, hpc', looks, Bool.toNat_true, Bool.toNat_false] at hF'
  refine ⟨I'.sound, ?_, ?_⟩
  · intro u
    by_cases hu : u = t
    · rw [hu, place_goto_self]
      exact hstage
    · rw [hplace u hu]
      exact I'.stage u
  · show _ ≤ countOf looking (s1.goto t .waiting).place ∨ s.mailbox.count ≤ _ + countOf signalling s.sender
    omega

theorem complete_inv (hpc : s.receiver t = .complete) :
    Inv p (goto { s with mailbox := (ipc_mailbox_pop_v2 s.mailbox true).2 } t .reset) := by
  obtain ⟨howner, hreason, hpending, hresult⟩ := I.stage_at hpc
  dsimp only at hpending
  have howed : owed p (s.place t) :=
    owed_iff.mpr ⟨signalled_iff.mpr ⟨howner, hpending, hreason, hresult⟩,
      by simp only [place, hpc, taken]⟩
  have howed' : owed p (s.tables t, .reset) = false := by simp [owed, taken]
  refine I.go I.sound (fun _ _ => rfl) ⟨howner, hreason, hpending⟩ ?_
  intro P F S P' F' S' hP hF hS hbound
  rw [not_pending (x := s.place t) hpending, not_pending hpending] at hP
  rw [howed, howed'] at hS
  rw [hpc] at hF
  simp only [looks, Bool.toNat_false, Bool.toNat_true] at hP hF hS
  rcases pop_count s.mailbox with ⟨-, hsame, hzero⟩ | ⟨-, hcount⟩
  · rw [hsame]
    omega
  · rw [hcount]
    omega

theorem reset_inv (hpc : s.receiver t = .reset) :
    Inv p (goto { s with tables := sched.thread_wait_reset_unlocked s.tables t } t .user) := by
  obtain ⟨howner, hreason, hpending⟩ := I.stage_at hpc
  have honly : Only t s.tables (sched.thread_wait_reset_unlocked s.tables t) :=
    sched.only_setContext I.sound _
  have hafter : ((sched.thread_wait_reset_unlocked s.tables t).thread_table t).context.wait_pending = false ∧
      ((sched.thread_wait_reset_unlocked s.tables t).thread_table t).context.wait_reason = .none := by
    unfold sched.thread_wait_reset_unlocked
    rw [Sched.setContext_self]
    exact ⟨rfl, rfl⟩
  have howed : owed p (s.place t) = false := by
    simp only [owed, place, hpc, taken, Bool.not_true, Bool.and_false]
  refine I.go honly.sound honly.others (fun _ => hafter) ?_
  intro P F S P' F' S' hP hF hS hbound
  rw [not_pending (x := s.place t) hpending, not_pending hafter.1] at hP
  rw [howed, not_owed hafter.2] at hS
  rw [hpc] at hF
  simp only [looks, Bool.toNat_false] at hP hF hS
  omega

/-! ## Senders and the timer -/

theorem send_inv (hpc : s.sender i = .idle) (message : OsIpcMessageV2) (fault : Bool) :
    Inv p (if (ipc_mailbox_push_v2 s.mailbox message fault true).1 then
        send_goto { s with mailbox := (ipc_mailbox_push_v2 s.mailbox message fault true).2 } i .signal
      else { s with mailbox := (ipc_mailbox_push_v2 s.mailbox message fault true).2 }) := by
  have hbound := I.bound
  unfold Bound at hbound
  rcases push_count s.mailbox message fault with ⟨hfalse, hcount⟩ | ⟨htrue, hcount⟩
  · rw [hfalse]
    refine ⟨I.sound, I.stage, ?_⟩
    show _ ≤ _ ∨ (ipc_mailbox_push_v2 s.mailbox message fault true).2.count ≤ _
    rw [hcount]
    exact hbound
  · rw [htrue, if_pos rfl]
    refine ⟨I.sound, I.stage, ?_⟩
    have hA := countOf_update signalling s.sender i .signal
    rw [hpc] at hA
    show countOf (pending p) s.place ≤ countOf looking s.place ∨
      (ipc_mailbox_push_v2 s.mailbox message fault true).2.count ≤
        countOf (owed p) s.place + countOf signalling (update s.sender i .signal)
    rw [hcount, show countOf signalling (update s.sender i .signal) =
      countOf signalling s.sender + 1 from hA]
    omega

theorem send_signal_inv (hpc : s.sender i = .signal) (pc : SenderPc)
    (hidle : pc.signalling = false) : Inv p ((process_wait_signal p s).2.send_goto i pc) := by
  have hbound := I.bound
  unfold Bound at hbound
  have hA := countOf_update signalling s.sender i pc
  rw [hpc, hidle] at hA
  have hA' : countOf signalling (update s.sender i pc) + 1 =
    countOf signalling s.sender := hA
  rcases signal_counts I with ⟨-, hsame, hzero⟩ | ⟨-, I', hP, hF, hS⟩
  · rw [hsame]
    refine ⟨I.sound, I.stage, .inl ?_⟩
    show countOf (pending p) s.place ≤ countOf looking s.place
    omega
  · refine ⟨I'.sound, I'.stage, ?_⟩
    show countOf (pending p) (process_wait_signal p s).2.place ≤
        countOf looking (process_wait_signal p s).2.place ∨
      s.mailbox.count ≤ countOf (owed p) (process_wait_signal p s).2.place +
        countOf signalling (update s.sender i pc)
    omega

theorem notify_inv (hpc : s.sender i = .notify) :
    Inv p (send_goto { s with tables := sched.process_notify_queued_ipc s.tables p } i .idle) := by
  have I' : Inv p { s with tables := sched.process_notify_queued_ipc s.tables p } := by
    unfold sched.process_notify_queued_ipc
    split
    · rename_i t _
      obtain ⟨honly, he | he⟩ := sched.enqueue_does I.sound t
      all_goals
        obtain ⟨k, hk⟩ := he.thread
        refine I.same_wait honly ?_ ?_ ?_
        all_goals
          simp only [Sched.context]
          rw [hk]
          rfl
    · exact I
  have hA := countOf_update signalling s.sender i .idle
  rw [hpc] at hA
  refine ⟨I'.sound, I'.stage, ?_⟩
  have hbound := I'.bound
  unfold Bound at hbound ⊢
  simp only [send_goto]
  rw [show countOf signalling (update s.sender i .idle) =
    countOf signalling s.sender from hA]
  exact hbound

/-- Each turn of the timer's loop keeps the invariant. -/
theorem tick_inv (tick_now : U32) :
    Inv p { s with tables := sched.process_wait_tick s.tables tick_now } := by
  unfold sched.process_wait_tick
  generalize List.finRange n = l
  induction l generalizing s with
  | nil => exact I
  | cons t l ih =>
    have I' : Inv p { s with tables := sched.tick_turn tick_now s.tables t } := by
      obtain ⟨honly, hs | hd | ⟨result, he⟩⟩ := sched.tick_turn_does I.sound tick_now t
      · rw [hs]
        exact I
      · rw [hd]
        exact I.set_context _ rfl rfl rfl
      · exact I.ended honly he
    exact ih I'

end

/-! ## Every run -/

theorem start_inv (h : Start p s) : Inv p s := by
  refine ⟨(sched.sound_empty h.queue h.head h.count).2, ?_, .inr ?_⟩
  · intro t
    simp only [Stage, place, h.receiver t]
    exact h.waits t
  · rw [h.mailbox]
    exact Nat.zero_le _

theorem step_inv {l : Label n k} (I : Inv p s) (hst : step p s l = some s') : Inv p s' := by
  cases l <;> simp only [step] at hst
  case tick tick_now =>
    cases hst
    exact tick_inv I tick_now
  case enter t call =>
    split at hst <;> try cases hst
    rename_i hpc
    split at hst <;> cases hst
    rename_i howner
    exact enter_inv I hpc howner
  case pop =>
    split at hst <;> cases hst
    exact pop_inv I ‹_›
  case wait_begin t tick_now fault =>
    split at hst <;> cases hst
    rename_i v2 timeout_ticks hpc
    obtain ⟨honly, ⟨hfalse, hsame⟩ | ⟨htrue, hb⟩⟩ :=
      sched.begin_does I.sound t .ipc timeout_ticks tick_now fault
    · rw [hfalse, hsame]
      have hstage := I.stage_at hpc
      exact I.go_idle le_rfl hstage.2.1 hstage.2.2 (by rw [hpc]; rfl) rfl fun _ => hstage.2
    · rw [htrue]
      exact begin_inv I hpc honly hb
  case reserve =>
    split at hst <;> cases hst
    exact reserve_inv I ‹_›
  case count =>
    split at hst <;> cases hst
    exact count_inv I ‹_›
  case signal =>
    split at hst <;> cases hst
    exact signal_inv I ‹_›
  case resume t =>
    split at hst <;> try cases hst
    rename_i hpc
    have hstage := I.stage_at hpc
    have hwaiting : (s.place t).2 = .waiting := hpc
    split at hst
    · cases hst
    rename_i hpending
    rw [Bool.not_eq_true] at hpending
    split at hst
    · rename_i hnone
      exact absurd (hstage.2.symm.trans hnone) (by decide)
    split at hst
    · rename_i hok
      cases hst
      refine I.go_same ⟨hstage.1, hstage.2, hpending, hok.1⟩ (by rw [hpc]; rfl) ?_
      exact owed_congr rfl rfl rfl rfl (by rw [hwaiting]; rfl)
    · rename_i hfailed
      cases hst
      refine I.go_same ⟨hstage.1, hstage.2, hpending⟩ (by rw [hpc]; rfl) ?_
      -- The wait timed out: no message was owed.
      have hnot : owed p (s.place t) = false := by
        rw [Bool.eq_false_iff]
        intro howed
        exact hfailed ⟨(signalled_iff.mp (owed_iff.mp howed).1).2.2.2, hstage.2⟩
      rw [hnot]
      simp [owed, taken]
  case complete =>
    split at hst <;> cases hst
    exact complete_inv I ‹_›
  case reset =>
    split at hst <;> cases hst
    exact reset_inv I ‹_›
  case send i message fault =>
    split at hst <;> cases hst
    exact send_inv I ‹_› message fault
  case send_signal =>
    split at hst <;> cases hst
    exact send_signal_inv I ‹_› _ (by split <;> rfl)
  case send_notify =>
    split at hst <;> cases hst
    exact notify_inv I ‹_›

/-- In every state without a send or receive call under way: if a thread of the process
waits for a message, there are at most as many messages as threads whose wait was signalled
with `PROCESS_WAIT_OK` and whose call is not completed. -/
theorem no_ipc_wakeup_is_lost (h : (receivers n m k p).Reachable s)
    (hreceivers : ∀ t, (s.receiver t).in_call = false) (hsenders : ∀ i, s.sender i = .idle)
    (hwaits : ∃ t, pending p (s.place t) = true) :
    s.mailbox.count ≤ countOf (signalled p) s.place := by
  have I : Inv p s := h.inv (fun _ hs => start_inv hs) fun _ _ _ I hst => step_inv I hst
  obtain ⟨t, ht⟩ := hwaits
  have hP : 0 < countOf (pending p) s.place := countOf_pos ht
  have hF : countOf looking s.place = 0 := by
    apply countOf_eq_zero
    intro u
    have hu := hreceivers u
    simp only [looking, place]
    cases hpc : s.receiver u with
    | reserve | count | signal => rw [hpc] at hu; cases hu
    | _ => rfl
  have hA : countOf signalling s.sender = 0 := by
    apply countOf_eq_zero
    intro i
    rw [hsenders i]
    rfl
  have hS : countOf (owed p) s.place ≤ countOf (signalled p) s.place :=
    countOf_mono fun u hu => (owed_iff.mp hu).1
  have hbound := I.bound
  unfold Bound at hbound
  omega

end

/-- Two threads of one process, and a sender. -/
def two_receivers : State 2 1 1 where
  tables :=
    { thread_table := fun t =>
        { tid := BitVec.ofNat 32 (t.val + 1)
          generation := 1
          owner_pid := 1
          owner := some ⟨0, Nat.one_pos⟩
          active := true
          exited := false
          priority := .normal
          running_cpu := none
          affinity_mask := 0xFF
          context :=
            { scheduler_state := .running
              pause_reason := .none
              resumable := false
              timeslice_ticks := 6
              wait_pending := false
              wait_has_deadline := false
              wait_reserved := false
              wait_reason := .none
              wait_result := PROCESS_WAIT_OK
              wait_deadline := 0
              wait_sequence := 0
              wait_object_id := 0
              wait_aux_object_id := 0 } }
      process_table := fun _ => ⟨.running, true, false, false⟩
      sched_queue := fun _ => none
      sched_queue_head := 0
      sched_queue_count := 0
      next_wait_sequence := 1 }
  mailbox := ipc.ipc_mailbox_init
  receiver := fun _ => .user
  sender := fun _ => .idle

/-- Both threads wait; a message comes, and the first thread is signalled for it. -/
theorem the_message_has_a_receiver : ∃ s : State 2 1 1, (receivers 2 1 1 0).Reachable s ∧
    s.mailbox.count = 1 ∧ pending 0 (s.place 1) = true ∧ 1 ≤ countOf (signalled 0) s.place := by
  obtain ⟨s, hreach, hcount, hpending, hcalls, hidle⟩ : ∃ s : State 2 1 1, (receivers 2 1 1 0).Reachable s ∧
      s.mailbox.count = 1 ∧ pending 0 (s.place 1) ∧ (∀ t, (s.receiver t).in_call = false) ∧
      ∀ i, s.sender i = .idle :=
    Machine.exists_reachable (s := two_receivers)
      (.start ⟨rfl, rfl, rfl, fun _ _ => ⟨rfl, rfl⟩, rfl, fun _ => rfl, fun _ => rfl⟩)
      [.enter 0 (.v2_wait 0), .pop 0, .wait_begin 0 7 false, .reserve 0, .count 0,
        .enter 1 (.receive true 100), .pop 1, .wait_begin 1 8 false, .count 1,
        .send 0 ipc.clear_message_v2 false, .send_signal 0] (by decide +kernel)
  refine ⟨s, hreach, hcount, hpending, ?_⟩
  exact hcount.ge.trans (no_ipc_wakeup_is_lost hreach hcalls hidle ⟨1, hpending⟩)

end mini_kernel.wakeup
