-- Joins of threads. An exit code is returned once, a record is discarded once and only
-- without its stacks, a join that gives up leaves its target to others, and a thread
-- that is gone has no joiner waiting. All of this rests on stacks being released only
-- for threads that have exited, which the release does not check for the record it claims.
import MiniKernel.Lib.Word
import MiniKernel.Lib.Store
import MiniKernel.Process.Joins

open mini_kernel.lib Function List Option
open mini_kernel.sched (ThreadIdentity WaitReason PROCESS_WAIT_OK PROCESS_WAIT_TIMEOUT)

namespace mini_kernel.joins

section
variable {n a : Nat}

/-- The laws read a state as its table of threads. -/
instance : CoeFun (State n a) fun _ => Table n := ⟨State.threads⟩

/-- The record holds a thread. -/
def Thread.Used (thread : Thread) : Prop := thread.identity.tid ≠ 0

/-- The thread waits in a join. -/
def Thread.Joining (thread : Thread) : Prop :=
  thread.wait.pending ∧ thread.wait.reason = .thread_join

/-- Identities are not used up, and the record that a release claims is that of a thread that
has exited. -/
def allowed (s : State n a) : Label n a → Bool
  | .create _ _ => decide (s.next_tid + 1 ≠ 0)
  | .next c =>
    match s.pc c with
    | .release_claim t => (s t).runtime_release_claimed || (s t).exited
    | _ => true
  | _ => true

/-! ## The invariant -/

structure Inv (s : State n a) : Prop where
  numbers : s.next_thread_generation = s.next_tid ∧ s.next_tid ≠ 0
  old : ∀ t, (s t).Used → (s t).identity.generation = (s t).identity.tid ∧
    (s t).identity.tid < s.next_tid
  apart : ∀ t t', (s t).Used → (s t).identity = (s t').identity → t = t'
  blank : ∀ t, ¬ (s t).Used → s t = .zero
  calm : ∀ t, (s t).wait.reason = .none →
    (s t).wait.pending = false ∧ (s t).wait.target = ⟨0, 0⟩
  /-- A thread that waits in a join has claimed its target. -/
  claim : ∀ w, (s w).Joining → ∃ t, (s t).Used ∧
    (s t).identity = (s w).wait.target ∧
    (s t).join_owner = (s w).identity ∧ (s t).owner = (s w).owner
  /-- A claim holds until the joiner itself has taken the status. -/
  held : ∀ w t, (s w).Used → (s t).Used →
    (s w).wait.target = (s t).identity →
    (s t).join_owner = (s w).identity → (∀ c, (s.pc c).caller ≠ some w) →
    (s t).join_consumed = false
  busy : ∀ c w, (s.pc c).caller = some w → (s w).wait.pending = false
  discarding : ∀ c t w, s.pc c = .discard t w → (s t).Used ∧
    (s t).join_consumed ∧ (s t).runtime_released
  discard_one : ∀ c c' t w w', s.pc c = .discard t w → s.pc c' = .discard t w' → c = c'
  releasing : ∀ c t, s.pc c = .release_store t → (s t).runtime_release_claimed ∧
    (s t).runtime_released = false
  release_one : ∀ c c' t, s.pc c = .release_store t → s.pc c' = .release_store t → c = c'
  gone : ∀ t, (s t).runtime_release_claimed → (s t).exited
  released : ∀ t, (s t).runtime_released →
    (s t).runtime_release_claimed
  /-- The joiner of a thread that is gone is about to be signalled. -/
  signal : ∀ w t, (s w).Joining → (s w).wait.target = (s t).identity →
    (s t).exited → (s t).runtime_released →
    ∃ c, s.pc c = .release_signal t
  joined_once : s.joined.Nodup
  joined_old : ∀ x ∈ s.joined, x.tid ≠ 0 ∧ x.tid < s.next_tid ∧
    ∀ t, (s t).identity = x → (s t).join_consumed
  discarded_once : (s.discarded.map Prod.fst).Nodup
  discarded_old : ∀ e ∈ s.discarded, e.2 ∧ e.1.tid ≠ 0 ∧ e.1.tid < s.next_tid ∧
    ∀ t, (s t).identity ≠ e.1

variable {s s' : State n a} {t w : Fin n} {c : Fin a} {wait : Wait}

/-- What a record without a thread does not have is had by a thread. -/
theorem Inv.used_of {p : Thread → Prop} (h : Inv s) (hzero : ¬ p .zero) (ht : p (s t)) :
    (s t).Used := by
  by_contra hno
  rw [h.blank t hno] at ht
  exact hzero ht

theorem Inv.used_of_pending (h : Inv s) (hp : (s w).wait.pending) : (s w).Used :=
  h.used_of (p := fun thread => thread.wait.pending = true) nofun hp

theorem joining_used (h : Inv s) (hw : (s w).Joining) : (s w).Used := h.used_of_pending hw.1

theorem Inv.generation (h : Inv s) (ht : (s t).Used) : (s t).identity.generation ≠ 0 := by
  rw [(h.old t ht).1]
  exact ht

variable {thread : Thread}

theorem Thread.Used.ne_zero (h : thread.Used) : thread.identity ≠ ⟨0, 0⟩ := by
  intro heq
  rw [Thread.Used, heq] at h
  exact h rfl

variable {x : ThreadIdentity}

theorem used_of_identity (hid : thread.identity = x) (htid : x.tid ≠ 0) : thread.Used := by
  rw [Thread.Used, hid]
  exact htid

/-! ## Waits end, threads exit -/

/-- A wait of a thread changes, and no join begins with it. -/
structure Calmer (old new : Wait) : Prop where
  joining : new.pending → new.reason = .thread_join →
    old.pending ∧ old.reason = .thread_join ∧ new.target = old.target
  pending : new.pending → old.pending
  target : new.target = old.target ∨ new.target = ⟨0, 0⟩
  calm : new.reason = .none → new.pending = false ∧ new.target = ⟨0, 0⟩

theorem Calmer.refl {wait : Wait}
    (h : wait.reason = .none → wait.pending = false ∧ wait.target = ⟨0, 0⟩) : Calmer wait wait :=
  ⟨fun hp hr => ⟨hp, hr, rfl⟩, id, .inl rfl, h⟩

theorem Calmer.reset (wait : Wait) : Calmer wait .reset :=
  ⟨fun hp => absurd hp (by decide), fun hp => absurd hp (by decide), .inr rfl, fun _ => ⟨rfl, rfl⟩⟩

/-- Waits become calmer, threads may exit, and the claims of joins that are over may be given
up. Nothing else happens. -/
structure Change (threads threads' : Table n) : Prop where
  identity : ∀ t, (threads' t).identity = (threads t).identity
  owner : ∀ t, (threads' t).owner = (threads t).owner
  join_consumed : ∀ t, (threads' t).join_consumed = (threads t).join_consumed
  runtime_released : ∀ t, (threads' t).runtime_released = (threads t).runtime_released
  runtime_release_claimed : ∀ t,
    (threads' t).runtime_release_claimed = (threads t).runtime_release_claimed
  exited : ∀ t, (threads t).exited → (threads' t).exited
  late : ∀ t, (threads' t).exited → (threads t).runtime_released →
    (threads t).exited
  wait : ∀ t, Calmer (threads t).wait (threads' t).wait
  zero : ∀ t, threads t = .zero → threads' t = .zero
  join_owner : ∀ t, (threads' t).join_owner = (threads t).join_owner ∨
    ((threads' t).join_owner = ⟨0, 0⟩ ∧
      ∀ w, (threads w).identity = (threads t).join_owner → (threads' w).wait.pending = false)

theorem Inv.change {threads' : Table n} (h : Inv s) (hc : Change s.threads threads') :
    Inv { s with threads := threads' } := by
  have hused : ∀ t, (threads' t).Used ↔ (s t).Used := by
    intro t
    rw [Thread.Used, Thread.Used, hc.identity]
  have hjoining : ∀ w, (threads' w).Joining →
      (s w).Joining ∧ (threads' w).wait.target = (s w).wait.target := by
    intro w hw
    obtain ⟨hp, hr, ht⟩ := (hc.wait w).joining hw.1 hw.2
    exact ⟨⟨hp, hr⟩, ht⟩
  refine ⟨h.numbers, ?_, ?_, ?_, fun t => (hc.wait t).calm, ?_, ?_, ?_, ?_, h.discard_one, ?_,
    h.release_one, ?_, ?_, ?_, h.joined_once, ?_, h.discarded_once, ?_⟩
  · intro t ht
    rw [hc.identity]
    exact h.old t ((hused t).mp ht)
  · intro t t' ht
    rw [hc.identity, hc.identity]
    exact h.apart t t' ((hused t).mp ht)
  · intro t ht
    exact hc.zero t (h.blank t (mt (hused t).mpr ht))
  · intro w hw
    obtain ⟨hold, htarget⟩ := hjoining w hw
    obtain ⟨t, ht, hid, howner, hproc⟩ := h.claim w hold
    refine ⟨t, (hused t).mpr ht, ?_, ?_, ?_⟩
    · rw [hc.identity, htarget, hid]
    · rcases hc.join_owner t with hsame | ⟨_, hgiven⟩
      · rw [hsame, hc.identity, howner]
      · exact absurd hw.1 (by rw [hgiven w howner.symm]; decide)
    · rw [hc.owner, hc.owner, hproc]
  · intro w t hw ht htarget howner hbusy
    rw [hused] at hw ht
    rw [hc.identity] at htarget howner
    rw [hc.join_consumed]
    refine h.held w t hw ht ?_ ?_ hbusy
    · rcases (hc.wait w).target with hsame | hnone
      · rw [← hsame, htarget]
      · exact absurd (htarget.symm.trans hnone) ht.ne_zero
    · rcases hc.join_owner t with hsame | ⟨hnone, _⟩
      · rw [← hsame, howner]
      · exact absurd (howner.symm.trans hnone) hw.ne_zero
  · intro c w hcw
    by_contra hp
    rw [Bool.not_eq_false] at hp
    exact absurd ((hc.wait w).pending hp) (by rw [h.busy c w hcw]; decide)
  · intro c t w hpc
    rw [hused, hc.join_consumed, hc.runtime_released]
    exact h.discarding c t w hpc
  · intro c t hpc
    rw [hc.runtime_release_claimed, hc.runtime_released]
    exact h.releasing c t hpc
  · intro t ht
    rw [hc.runtime_release_claimed] at ht
    exact hc.exited t (h.gone t ht)
  · intro t
    rw [hc.runtime_released, hc.runtime_release_claimed]
    exact h.released t
  · intro w t hw htarget hexited hreleased
    obtain ⟨hold, hsame⟩ := hjoining w hw
    rw [hc.runtime_released] at hreleased
    rw [hc.identity, hsame] at htarget
    exact h.signal w t hold htarget (hc.late t hexited hreleased) hreleased
  · intro x hx
    simp only [hc.identity, hc.join_consumed]
    exact h.joined_old x hx
  · intro e he
    simp only [hc.identity]
    exact h.discarded_old e he

/-! ## A CPU goes on -/

/-- What the next place of a CPU asks for, and what its last one left to be done. -/
structure Fits (s : State n a) (c : Fin a) (pc : Pc n) : Prop where
  caller : ∀ w, pc.caller = some w → (s w).wait.pending = false
  called : ∀ w, (s.pc c).caller = some w → pc.caller = some w ∨ (s w).wait.target = ⟨0, 0⟩
  discard : ∀ t w, pc = .discard t w → (s t).Used ∧ (s t).join_consumed ∧
    (s t).runtime_released ∧ ∀ c' ≠ c, ∀ w', s.pc c' ≠ .discard t w'
  release_store : ∀ t, pc = .release_store t → (s t).runtime_release_claimed ∧
    (s t).runtime_released = false ∧ ∀ c' ≠ c, s.pc c' ≠ .release_store t
  release_signal : ∀ t, s.pc c = .release_signal t → ∀ w, (s w).Joining →
    (s w).wait.target = (s t).identity → (s t).exited →
    (s t).runtime_released → False

section
variable {pc : Pc n}

theorem goto_pc_self (s : State n a) (c : Fin a) (pc : Pc n) : (s.goto c pc).pc c = pc :=
  update_self ..

@[elab_as_elim]
theorem goto_cases {P : Pc n → Prop} (c' : Fin a) (hself : c' = c → P pc)
    (hother : c' ≠ c → P (s.pc c')) : P ((s.goto c pc).pc c') := by
  unfold State.goto
  dsimp only
  exact update_cases c' hself hother

/-- What one CPU at most does is done by one at most. -/
theorem goto_unique {p : Pc n → Prop} (hone : ∀ c₁ c₂, p (s.pc c₁) → p (s.pc c₂) → c₁ = c₂)
    (hnew : p pc → ∀ c' ≠ c, ¬ p (s.pc c')) (c₁ c₂ : Fin a) :
    p ((s.goto c pc).pc c₁) → p ((s.goto c pc).pc c₂) → c₁ = c₂ := by
  unfold State.goto
  exact update_unique hone hnew c₁ c₂

theorem Inv.goto (h : Inv s) (hf : Fits s c pc) : Inv (s.goto c pc) := by
  refine ⟨h.numbers, h.old, h.apart, h.blank, h.calm, h.claim, ?_, ?_, ?_, ?_, ?_, ?_, h.gone,
    h.released, ?_, h.joined_once, h.joined_old, h.discarded_once, h.discarded_old⟩
  · intro w t hw ht htarget howner hbusy
    refine h.held w t hw ht htarget howner ?_
    intro c' hc'
    refine hbusy c' (goto_cases c' ?_ fun _ => hc')
    rintro rfl
    refine (hf.called w hc').resolve_right ?_
    intro hnone
    exact ht.ne_zero (htarget.symm.trans hnone)
  · intro c' w
    exact goto_cases c' (fun _ => hf.caller w) fun _ => h.busy c' w
  · intro c' t w
    refine goto_cases c' (fun _ hc => ?_) fun _ => h.discarding c' t w
    obtain ⟨hu, hcons, hrel, _⟩ := hf.discard t w hc
    exact ⟨hu, hcons, hrel⟩
  · intro c₁ c₂ t w w' h₁ h₂
    refine goto_unique (p := fun pc => ∃ w, pc = .discard t w) ?_ ?_ c₁ c₂ ⟨w, h₁⟩ ⟨w', h₂⟩
    · rintro c₁ c₂ ⟨w, h₁⟩ ⟨w', h₂⟩
      exact h.discard_one c₁ c₂ t w w' h₁ h₂
    · rintro ⟨w, hpc⟩ c' hc' ⟨w', h'⟩
      exact (hf.discard t w hpc).2.2.2 c' hc' w' h'
  · intro c' t
    refine goto_cases c' (fun _ hc => ?_) fun _ => h.releasing c' t
    obtain ⟨hcl, hrel, _⟩ := hf.release_store t hc
    exact ⟨hcl, hrel⟩
  · intro c₁ c₂ t
    refine goto_unique (p := (· = .release_store t)) (fun c₁ c₂ => h.release_one c₁ c₂ t) ?_ c₁ c₂
    exact fun hpc => (hf.release_store t hpc).2.2
  · intro w t hw htarget hexited hreleased
    obtain ⟨c', hc'⟩ := h.signal w t hw htarget hexited hreleased
    refine ⟨c', goto_cases c' ?_ fun _ => hc'⟩
    rintro rfl
    exact (hf.release_signal t hc' w hw htarget hexited hreleased).elim

/-- A CPU goes on with the call that it is in. -/
theorem Inv.goto_on {pc₀ : Pc n} (h : Inv s) (hpc : s.pc c = pc₀) (hcaller : pc.caller = pc₀.caller)
    (hsignal : ∀ t, pc₀ ≠ .release_signal t) (hstore : ∀ t, pc ≠ .release_store t)
    (hdiscard : ∀ t w, pc = .discard t w → (s t).Used ∧ (s t).join_consumed ∧
      (s t).runtime_released ∧ ∀ c' ≠ c, ∀ w', s.pc c' ≠ .discard t w') : Inv (s.goto c pc) := by
  subst hpc
  refine h.goto ⟨?_, fun w hw => .inl (hcaller.trans hw), hdiscard, ?_, ?_⟩
  · intro w hw
    exact h.busy c w (hcaller.symm.trans hw)
  · intro t heq
    exact absurd heq (hstore t)
  · intro t heq
    exact absurd heq (hsignal t)

theorem Inv.goto_last (waiter : Option (Fin n)) (h : Inv s) (hcaller : (s.pc c).caller = waiter)
    (hsignal : ∀ t, s.pc c ≠ .release_signal t) : Inv (s.goto c (last_section waiter)) := by
  cases waiter <;> exact h.goto_on rfl hcaller.symm hsignal nofun nofun

end

/-! ## One record changes -/

theorem set_self (threads : Table n) (t : Fin n) (thread : Thread) :
    threads.set t thread t = thread := update_self ..

theorem set_of_ne (threads : Table n) {t t' : Fin n} (thread : Thread) (h : t' ≠ t) :
    threads.set t thread t' = threads t' := update_of_ne h ..

variable {threads : Table n} {α : Type} {new : Thread}

@[elab_as_elim]
theorem set_cases {P : Thread → Prop} (t' : Fin n)
    (hself : t' = t → P new) (hother : t' ≠ t → P (threads t')) : P (threads.set t new t') := by
  unfold Table.set
  exact update_cases t' hself hother

/-- A field that the new record has as the old one is the same everywhere. -/
theorem set_same (f : Thread → α)
    (hf : f new = f (threads t)) (t' : Fin n) : f (threads.set t new t') = f (threads t') :=
  update_same f hf t'

/-- A field other than the wait. -/
theorem set_wait_same (f : Thread → α) (hf : ∀ thread wait, f { thread with wait := wait } = f thread)
    (t : Fin n) : f (threads.set_wait w wait t) = f (threads t) :=
  set_same f (hf _ _) t

/-- A field other than the claim. -/
theorem set_owner_same (f : Thread → α)
    (hf : ∀ thread owner, f { thread with join_owner := owner } = f thread)
    {owner : ThreadIdentity} (t' : Fin n) :
    f (threads.set t { threads t with join_owner := owner } t') = f (threads t') :=
  set_same f (hf _ _) t'

theorem set_wait_self (threads : Table n) (w : Fin n) (wait : Wait) :
    threads.set_wait w wait w = { threads w with wait := wait } := set_self ..

@[elab_as_elim]
theorem set_wait_cases {P : Thread → Prop} (t : Fin n)
    (hself : t = w → P { threads w with wait := wait }) (hother : t ≠ w → P (threads t)) :
    P (threads.set_wait w wait t) := by
  unfold Table.set_wait
  exact set_cases t hself hother

theorem set_wait_of_ne (threads : Table n) {w t : Fin n} (wait : Wait) (h : t ≠ w) :
    threads.set_wait w wait t = threads t := set_of_ne _ _ h

/-- What is asked of a new record by itself. -/
structure Suits (s : State n a) (t : Fin n) (new : Thread) : Prop where
  old : new.Used → new.identity.generation = new.identity.tid ∧ new.identity.tid < s.next_tid
  blank : ¬ new.Used → new = .zero
  calm : new.wait.reason = .none → new.wait.pending = false ∧ new.wait.target = ⟨0, 0⟩
  busy : ∀ c, (s.pc c).caller = some t → new.wait.pending = false
  discarding : ∀ c w, s.pc c = .discard t w → new.Used ∧ new.join_consumed ∧
    new.runtime_released
  releasing : ∀ c, s.pc c = .release_store t → new.runtime_release_claimed ∧
    new.runtime_released = false
  gone : new.runtime_release_claimed → new.exited
  released : new.runtime_released → new.runtime_release_claimed
  joined : ∀ x ∈ s.joined, new.identity = x → new.join_consumed
  discarded : ∀ e ∈ s.discarded, new.identity ≠ e.1

/-- What is asked of each two records of a table. -/
structure Pairs (s : State n a) (threads : Table n) : Prop where
  apart : ∀ t t', (threads t).Used → (threads t).identity = (threads t').identity → t = t'
  claim : ∀ w, (threads w).Joining → ∃ t, (threads t).Used ∧
    (threads t).identity = (threads w).wait.target ∧
    (threads t).join_owner = (threads w).identity ∧ (threads t).owner = (threads w).owner
  held : ∀ w t, (threads w).Used → (threads t).Used → (threads w).wait.target = (threads t).identity →
    (threads t).join_owner = (threads w).identity → (∀ c, (s.pc c).caller ≠ some w) →
    (threads t).join_consumed = false
  signal : ∀ w t, (threads w).Joining → (threads w).wait.target = (threads t).identity →
    (threads t).exited → (threads t).runtime_released → ∃ c, s.pc c = .release_signal t

variable {owner : Nat}

section
variable {new : Thread}

section
variable (h : Inv s)
include h

theorem Inv.set (hnew : Suits s t new) (hp : Pairs s (s.threads.set t new)) :
    Inv { s with threads := s.threads.set t new } := by
  refine ⟨h.numbers, ?_, hp.apart, ?_, ?_, hp.claim, hp.held, ?_, ?_, h.discard_one, ?_, h.release_one,
    ?_, ?_, hp.signal, h.joined_once, ?_, h.discarded_once, ?_⟩
  all_goals dsimp only
  · intro t'
    exact set_cases t' (fun _ => hnew.old) fun _ => h.old t'
  · intro t'
    exact set_cases t' (fun _ => hnew.blank) fun _ => h.blank t'
  · intro t'
    exact set_cases t' (fun _ => hnew.calm) fun _ => h.calm t'
  · intro c w
    refine set_cases w ?_ fun _ => h.busy c w
    rintro rfl
    exact hnew.busy c
  · intro c t' w
    refine set_cases t' ?_ fun _ => h.discarding c t' w
    rintro rfl
    exact hnew.discarding c w
  · intro c t'
    refine set_cases t' ?_ fun _ => h.releasing c t'
    rintro rfl
    exact hnew.releasing c
  · intro t'
    exact set_cases t' (fun _ => hnew.gone) fun _ => h.gone t'
  · intro t'
    exact set_cases t' (fun _ => hnew.released) fun _ => h.released t'
  · intro x hx
    obtain ⟨hne, hlt, hall⟩ := h.joined_old x hx
    refine ⟨hne, hlt, ?_⟩
    intro t'
    exact set_cases t' (fun _ => hnew.joined x hx) fun _ => hall t'
  · intro e he
    obtain ⟨hok, hne, hlt, hall⟩ := h.discarded_old e he
    refine ⟨hok, hne, hlt, ?_⟩
    intro t'
    exact set_cases t' (fun _ => hnew.discarded e he) fun _ => hall t'

/-- Claims and flags of a record change. -/
theorem Inv.set_flags (ht : (s t).Used)
    (hid : new.identity = (s t).identity) (howner : new.owner = (s t).owner)
    (hexited : new.exited = (s t).exited) (hwait : new.wait = (s t).wait)
    (hclaim : ∀ w, (s w).Joining → (s t).join_owner = (s w).identity →
      new.join_owner = (s t).join_owner) (hheld : ∀ w, (s w).Used → (s w).wait.target = (s t).identity →
      new.join_owner = (s w).identity → (∀ c, (s.pc c).caller ≠ some w) → new.join_consumed = false)
    (hcons : (s t).join_consumed → new.join_consumed)
    (hrel : (s t).runtime_released → new.runtime_released)
    (hreleasing : ∀ c, s.pc c = .release_store t → new.runtime_release_claimed ∧
      new.runtime_released = false) (hgone : new.runtime_release_claimed → (s t).exited)
    (hreleased : new.runtime_released → new.runtime_release_claimed)
    (hsignal : new.runtime_released → (s t).runtime_released ∨
      ∃ c, s.pc c = .release_signal t) : Inv { s with threads := s.threads.set t new } := by
  have hused : new.Used := used_of_identity hid ht
  have hids := set_same Thread.identity hid
  have hwaits := set_same Thread.wait hwait
  refine h.set ⟨fun _ => hid ▸ h.old t ht, fun hno => absurd hused hno, hwait ▸ h.calm t,
    fun c hc => hwait ▸ h.busy c t hc, ?_, hreleasing, hexited ▸ hgone, hreleased, ?_, ?_⟩ ⟨?_, ?_, ?_, ?_⟩
  · intro c w hc
    obtain ⟨_, hc, hr⟩ := h.discarding c t w hc
    exact ⟨hused, hcons hc, hrel hr⟩
  · intro x hx hxid
    exact hcons ((h.joined_old x hx).2.2 t (hid.symm.trans hxid))
  · intro e he
    rw [hid]
    exact (h.discarded_old e he).2.2.2 t
  · simp only [Thread.Used, hids]
    exact h.apart
  · intro w hw
    rw [Thread.Joining, hwaits] at hw
    obtain ⟨t', ht', hid', howner', hproc⟩ := h.claim w hw
    refine ⟨t', used_of_identity (hids t') ht', ?_, ?_, ?_⟩
    · rw [hids, hwaits, hid']
    · rw [hids]
      refine set_cases t' ?_ fun _ => howner'
      rintro rfl
      rw [hclaim w hw howner', howner']
    · rw [set_same Thread.owner howner, set_same Thread.owner howner, hproc]
  · intro w t'
    rw [Thread.Used, Thread.Used, hids, hids, hwaits]
    refine set_cases t' ?_ fun _ => h.held w t'
    rintro rfl hw _
    exact hheld w hw
  · intro w t'
    rw [Thread.Joining, hids, hwaits, set_same Thread.exited hexited]
    refine set_cases t' ?_ fun _ => h.signal w t'
    rintro rfl hw htarget hexited hnew
    exact (hsignal hnew).elim (h.signal w t' hw htarget hexited) id

theorem Inv.used_of_exited (hexited : (s t).exited) : (s t).Used :=
  h.used_of (p := fun thread => thread.exited = true) nofun hexited

/-- A release claims the record of a thread that has exited. -/
theorem Inv.set_claimed (hexited : (s t).exited) :
    Inv { s with threads := s.threads.set t { s t with runtime_release_claimed := true } } :=
  h.set_flags (h.used_of_exited hexited) rfl rfl rfl rfl (fun _ _ _ => rfl)
    (fun w hw htarget howner hbusy => h.held w t hw (h.used_of_exited hexited) htarget howner hbusy) id id
    (fun c hpc => ⟨rfl, (h.releasing c t hpc).2⟩) (fun _ => hexited) (fun _ => rfl) .inl

/-- The stacks are gone; the CPU that freed them is about to signal. -/
theorem Inv.set_released (hclaimed : (s t).runtime_release_claimed)
    (hpc : s.pc c = .release_signal t) (hnone : ∀ c, s.pc c ≠ .release_store t) :
    Inv { s with threads := s.threads.set t { s t with runtime_released := true } } := by
  have hused := h.used_of_exited (h.gone t hclaimed)
  refine h.set_flags hused rfl rfl rfl rfl (fun _ _ _ => rfl) ?_ id (fun _ => rfl) ?_ ?_ ?_ ?_
  · intro w hw htarget howner hbusy
    exact h.held w t hw hused htarget howner hbusy
  · intro c hc
    exact absurd hc (hnone c)
  · exact fun _ => h.gone t hclaimed
  · exact fun _ => hclaimed
  · exact fun _ => .inr ⟨c, hpc⟩

/-- A thread claims a target that nobody has claimed. -/
theorem Inv.set_owner (ht : (s t).Used) (hfree : (s t).join_owner.tid = 0)
    (hw : (s w).Used) (htarget : (s w).wait.target = ⟨0, 0⟩) :
    Inv { s with threads := s.threads.set t { s t with join_owner := (s w).identity } } := by
  refine h.set_flags ht rfl rfl rfl rfl ?_ ?_ id id (fun c hc => h.releasing c t hc)
    (h.gone t) (h.released t) .inl
  · intro w' hw' howner
    rw [howner] at hfree
    exact absurd hfree (joining_used h hw')
  · intro w' hw' htarget' howner
    have hsame : w = w' := h.apart w w' hw howner
    subst hsame
    exact absurd (htarget'.symm.trans htarget) ht.ne_zero

/-- The status of a thread is taken. -/
theorem Inv.set_consumed (ht : (s t).Used)
    (hbusy : ∀ w, (s w).Used → (s w).wait.target = (s t).identity →
      (s t).join_owner = (s w).identity → ∃ c, (s.pc c).caller = some w) :
    Inv { s with threads := s.threads.set t { s t with join_consumed := true } } := by
  refine h.set_flags ht rfl rfl rfl rfl (fun _ _ _ => rfl) ?_ (fun _ => rfl) id
    (fun c hc => h.releasing c t hc) (h.gone t) (h.released t) .inl
  intro w hw htarget howner hno
  obtain ⟨c, hc⟩ := hbusy w hw htarget howner
  exact absurd hc (hno c)

theorem Inv.add_joined (ht : (s t).Used) (hx : (s t).identity = x) (hcons : (s t).join_consumed)
    (hnew : x ∉ s.joined) : Inv { s with joined := x :: s.joined } where
  __ := h
  joined_once := nodup_cons.mpr ⟨hnew, h.joined_once⟩
  joined_old := by
    intro y hy
    rcases mem_cons.mp hy with rfl | hy
    · refine ⟨hx ▸ ht, hx ▸ (h.old t ht).2, ?_⟩
      intro t' ht'
      rw [← h.apart t t' ht (hx.trans ht'.symm)]
      exact hcons
    · exact h.joined_old y hy

end

/-- A thread begins to wait for the target that it has claimed. -/
theorem Inv.begin_wait (has_deadline : Bool) (deadline : U32) (h : Inv s)
    (hw : (s w).Used) (ht : (s t).Used) (howner : (s t).join_owner = (s w).identity)
    (hproc : (s t).owner = (s w).owner) (hcons : (s t).join_consumed = false)
    (hlive : ¬ ((s t).exited ∧ (s t).runtime_released))
    (hidle : ∀ c, (s.pc c).caller ≠ some w) : Inv { s with threads := s.threads.set_wait w {
      pending := true, has_deadline := has_deadline, reason := .thread_join, result := PROCESS_WAIT_OK,
      deadline := deadline, target := (s t).identity } } := by
  generalize hwait : ({
      pending := true, has_deadline := has_deadline, reason := .thread_join, result := PROCESS_WAIT_OK,
      deadline := deadline, target := (s t).identity } : Wait) = wait
  have htarget : wait.target = (s t).identity := hwait ▸ rfl
  have hsame : ∀ {α : Type} (f : Thread → α), (∀ thread wait, f { thread with wait := wait } = f thread) →
      ∀ t', f (s.threads.set_wait w wait t') = f (s t') := fun f hf => set_wait_same f hf
  have hid := hsame Thread.identity fun _ _ => rfl
  have hown := hsame Thread.join_owner fun _ _ => rfl
  refine h.set ⟨h.old w, fun hno => absurd hw hno, hwait ▸ nofun, fun c hc => absurd hc (hidle c),
    fun c => h.discarding c w, fun c => h.releasing c w, h.gone w, h.released w,
    fun x hx => (h.joined_old x hx).2.2 w, fun e he => (h.discarded_old e he).2.2.2 w⟩ ⟨?_, ?_, ?_, ?_⟩
  all_goals rw [← Table.set_wait]
  · simp only [Thread.Used, hid]
    exact h.apart
  · intro w'
    simp only [Thread.Used, hid, hown, hsame Thread.owner fun _ _ => rfl]
    refine set_wait_cases w' ?_ fun _ => h.claim w'
    rintro rfl _
    exact ⟨t, ht, htarget.symm, howner, hproc⟩
  · intro w' t'
    rw [Thread.Used, Thread.Used, hid, hid, hown, hsame Thread.join_consumed fun _ _ => rfl]
    refine set_wait_cases w' ?_ fun _ => h.held w' t'
    rintro rfl _ _ htarget' _ _
    rw [← h.apart t t' ht (htarget.symm.trans htarget')]
    exact hcons
  · intro w' t'
    rw [hid, hsame Thread.exited fun _ _ => rfl, hsame Thread.runtime_released fun _ _ => rfl]
    refine set_wait_cases w' ?_ fun _ => h.signal w' t'
    rintro rfl _ htarget' hexited hreleased
    rw [← h.apart t t' ht (htarget.symm.trans htarget')] at hexited hreleased
    exact absurd ⟨hexited, hreleased⟩ hlive

/-- Nobody waits for a thread whose status was taken. -/
theorem Inv.not_target (h : Inv s) (ht : (s t).Used)
    (hcons : (s t).join_consumed) (hw : (s w).Joining) : (s w).wait.target ≠ (s t).identity := by
  intro htarget
  obtain ⟨t', ht', hid, howner, _⟩ := h.claim w hw
  have hsame : t' = t := h.apart t' t ht' (hid.trans htarget)
  subst hsame
  have hbusy : ∀ c, (s.pc c).caller ≠ some w := by
    intro c hc
    exact absurd hw.1 (by rw [h.busy c w hc]; decide)
  exact absurd (h.held w t' (joining_used h hw) ht' htarget howner hbusy) (by rw [hcons]; decide)

/-- Nothing is asked of two records when a thread that nobody waits for gives its record to
one that waits for nobody. -/
theorem Inv.pairs_of_calm (h : Inv s) (hwait : new.wait = .reset) (hexited : new.exited = false)
    (howner : new.join_owner = ⟨0, 0⟩) (hnot : ∀ w, (s w).Joining → (s t).Used →
      (s w).wait.target ≠ (s t).identity)
    (hapart : ∀ t' ≠ t, (s t').Used → (s t').identity ≠ new.identity) :
    Pairs s (s.threads.set t new) := by
  have hjoining : ¬ new.Joining := by
    rw [Thread.Joining, hwait]
    decide
  refine ⟨?_, ?_, ?_, ?_⟩
  · intro t₁ t₂
    refine set_cases t₁ (fun h₁ => ?_) fun h₁ => ?_
    · refine set_cases t₂ (fun h₂ _ _ => h₁.trans h₂.symm) fun h₂ hu heq => ?_
      exact absurd heq.symm (hapart t₂ h₂ (used_of_identity heq.symm hu))
    · refine set_cases t₂ (fun _ hu heq => ?_) fun _ => h.apart t₁ t₂
      exact absurd heq (hapart t₁ h₁ hu)
  · intro w
    refine set_cases w (fun _ hw => absurd hw hjoining) fun _ hw => ?_
    obtain ⟨t', ht', hid, hown, hproc⟩ := h.claim w hw
    refine ⟨t', ?_⟩
    refine set_cases t' ?_ fun _ => ⟨ht', hid, hown, hproc⟩
    rintro rfl
    exact absurd hid.symm (hnot w hw ht')
  · intro w t'
    refine set_cases w (fun _ => ?_) fun _ => ?_
    · intro _ ht' htarget
      rw [hwait] at htarget
      exact absurd htarget.symm ht'.ne_zero
    · refine set_cases t' (fun _ hw _ _ hown => ?_) fun _ => h.held w t'
      exact absurd (hown.symm.trans howner) hw.ne_zero
  · intro w t'
    refine set_cases w (fun _ hw => absurd hw hjoining) fun _ => ?_
    refine set_cases t' (fun _ _ _ hex => ?_) fun _ => h.signal w t'
    exact absurd hex (by rw [hexited]; decide)

/-- The record of a thread that was joined is cleared. -/
theorem Inv.discard (h : Inv s) (ht : (s t).Used) (hcons : (s t).join_consumed)
    (hrel : (s t).runtime_released) (hnone : ∀ c w, s.pc c ≠ .discard t w) : Inv { s with
      threads := s.threads.set t .zero
      discarded := ((s t).identity, (s t).runtime_released) :: s.discarded } := by
  have hzero : ∀ x : ThreadIdentity, Thread.zero.identity = x → x.tid = 0 := by
    rintro _ rfl
    rfl
  have hcleared : Inv { s with threads := s.threads.set t .zero } := by
    refine h.set ⟨fun hz => absurd rfl hz, fun _ => rfl, fun _ => ⟨rfl, rfl⟩, fun _ _ => rfl,
      fun c w hc => absurd hc (hnone c w), ?_, nofun, nofun, ?_, ?_⟩
      (h.pairs_of_calm rfl rfl rfl (fun _ hw _ => h.not_target ht hcons hw) fun t' _ hu heq =>
        absurd (hzero _ heq.symm) hu)
    · intro c hc
      exact absurd hrel (by rw [(h.releasing c t hc).2]; decide)
    · intro x hx heq
      exact absurd (hzero x heq) (h.joined_old x hx).1
    · intro e he heq
      exact absurd (hzero _ heq) (h.discarded_old e he).2.1
  refine { hcleared with discarded_once := ?_, discarded_old := ?_ }
  all_goals dsimp only
  · rw [map_cons, nodup_cons]
    refine ⟨?_, h.discarded_once⟩
    intro hmem
    obtain ⟨e, he, heq⟩ := mem_map.mp hmem
    exact (h.discarded_old e he).2.2.2 t heq.symm
  · intro e he
    rcases mem_cons.mp he with rfl | he
    · refine ⟨hrel, ht, (h.old t ht).2, ?_⟩
      intro t'
      refine set_cases t' (fun _ heq => ht (hzero _ heq)) fun hne heq => ?_
      exact hne (h.apart t t' ht heq.symm).symm
    · exact hcleared.discarded_old e he

theorem Inv.create {is_main : Bool} (h : Inv s) (ht : ¬ (s t).Used) (hroom : s.next_tid + 1 ≠ 0) :
    Inv { s with
      threads := s.threads.set t { Thread.zero with
        identity := ⟨s.next_tid, s.next_tid⟩, owner := some owner, is_main := is_main, active := true }
      next_tid := s.next_tid + 1, next_thread_generation := s.next_tid + 1 } := by
  have hnext : ∀ {x : U32}, x < s.next_tid → x < s.next_tid + 1 := by
    intro x hx
    bv_omega
  have hlast : s.next_tid < s.next_tid + 1 := by bv_omega
  have hblank : s.threads t = .zero := h.blank t ht
  -- the numbers go on, and the number that was passed is nobody's
  have hroomy : Inv { s with
      next_tid := s.next_tid + 1
      next_thread_generation := s.next_tid + 1 } := by
    refine { h with numbers := ⟨rfl, hroom⟩, old := ?_, joined_old := ?_, discarded_old := ?_ }
    · exact fun t' hu => ⟨(h.old t' hu).1, hnext (h.old t' hu).2⟩
    · exact fun x hx => ⟨(h.joined_old x hx).1, hnext (h.joined_old x hx).2.1, (h.joined_old x hx).2.2⟩
    · intro e he
      obtain ⟨hok, hne, hlt, hall⟩ := h.discarded_old e he
      exact ⟨hok, hne, hnext hlt, hall⟩
  have hfresh : ∀ x : ThreadIdentity, x.tid < s.next_tid → ⟨s.next_tid, s.next_tid⟩ ≠ x := by
    rintro _ hlt rfl
    exact absurd hlt (BitVec.lt_irrefl _)
  refine hroomy.set ⟨fun _ => ⟨rfl, hlast⟩, fun hno => absurd h.numbers.2 hno, fun _ => ⟨rfl, rfl⟩,
    fun _ _ => rfl, ?_, ?_, nofun, nofun, ?_, ?_⟩
    (hroomy.pairs_of_calm rfl rfl rfl (fun _ _ hu => absurd hu ht) fun t' _ hu =>
      (hfresh _ (h.old t' hu).2).symm)
  · intro c w hc
    exact absurd (h.discarding c t w hc).1 ht
  · intro c hc
    have hr := (h.releasing c t hc).1
    rw [hblank] at hr
    cases hr
  · intro x hx heq
    exact absurd heq (hfresh x (h.joined_old x hx).2.1)
  · intro e he
    exact hfresh e.1 (h.discarded_old e he).2.2.1

end

/-! ## Signals -/

variable {x : ThreadIdentity} {threads : Table n}

theorem matches_iff : thread_identity_matches thread x ↔
      (x.tid ≠ 0 ∧ x.generation ≠ 0) ∧ thread.identity = x := by
  simp only [thread_identity_matches, Bool.and_eq_true, decide_eq_true_eq]

theorem find_spec {p : Thread → Bool} (h : threads.find p = some t) :
    p (threads t) := find?_some (p := fun i => p (threads i)) h

theorem find_unique {p : Thread → Bool} (h : p (threads t))
    (hall : ∀ t', p (threads t') → t' = t) : threads.find p = some t := by
  cases hf : threads.find p with
  | none =>
    have := find?_eq_none.mp hf t (mem_finRange t)
    exact absurd h this
  | some t' => rw [hall t' (find_spec hf)]

section
variable (h : Inv s)
include h

theorem Inv.find_target (ht : (s t).Used) (hx : (s t).identity = x) :
    s.threads.find (fun thread => thread_identity_matches thread x) = some t := by
  have htid : x.tid ≠ 0 := hx ▸ ht
  have hgen : x.generation ≠ 0 := hx ▸ h.generation ht
  apply find_unique
  · exact matches_iff.mpr ⟨⟨htid, hgen⟩, hx⟩
  · intro t' ht'
    exact (h.apart t t' ht (hx.trans (matches_iff.mp ht').2.symm)).symm

theorem Inv.unchanged : Change s.threads s.threads :=
  ⟨fun _ => rfl, fun _ => rfl, fun _ => rfl, fun _ => rfl, fun _ => rfl, fun _ => id, fun _ he _ => he,
    fun t => .refl (h.calm t), fun _ => id, fun _ => .inl rfl⟩

/-- One record changes. -/
theorem Inv.change_set (hid : new.identity = (s t).identity)
    (howner : new.owner = (s t).owner) (hcons : new.join_consumed = (s t).join_consumed)
    (hrel : new.runtime_released = (s t).runtime_released)
    (hclaimed : new.runtime_release_claimed = (s t).runtime_release_claimed)
    (hown : new.join_owner = (s t).join_owner) (hexited : (s t).exited → new.exited)
    (hlate : new.exited → (s t).runtime_released → (s t).exited)
    (hcalm : Calmer (s t).wait new.wait) (hused : (s t).Used ∨ new = s t) :
    Change s.threads (s.threads.set t new) := by
  refine ⟨set_same Thread.identity hid, set_same Thread.owner howner,
    set_same Thread.join_consumed hcons, set_same Thread.runtime_released hrel,
    set_same Thread.runtime_release_claimed hclaimed, ?_, ?_, ?_, ?_,
    fun t' => .inl (set_same Thread.join_owner hown t')⟩
  · intro t'
    refine set_cases t' ?_ fun _ => id
    rintro rfl
    exact hexited
  · intro t'
    refine set_cases t' ?_ fun _ he _ => he
    rintro rfl
    exact hlate
  · intro t'
    refine set_cases t' ?_ fun _ => .refl (h.calm t')
    rintro rfl
    exact hcalm
  · intro t' ht'
    refine set_cases t' ?_ fun _ => ht'
    rintro rfl
    rcases hused with hu | hsame
    · rw [ht'] at hu
      exact absurd rfl hu
    · rw [hsame, ht']

/-- One wait changes. -/
theorem Inv.change_wait (hcalm : Calmer (s w).wait wait)
    (hused : (s w).Used) : Change s.threads (s.threads.set_wait w wait) :=
  h.change_set rfl rfl rfl rfl rfl rfl id (fun he _ => he) hcalm (.inl hused)

theorem Inv.change_reset (w : Fin n) : Change s.threads (s.threads.set_wait w .reset) := by
  refine h.change_set rfl rfl rfl rfl rfl rfl id (fun he _ => he) (.reset _) ?_
  by_cases hu : (s w).Used
  · exact .inl hu
  · right
    rw [h.blank w hu]
    rfl

/-- The wait after a signal. -/
theorem Inv.calmer_signal (t : Fin n) (result : Int) : Calmer (s t).wait { (s t).wait with
      pending := false, has_deadline := false, result := result, deadline := 0 } :=
  ⟨nofun, nofun, .inl rfl, fun hr => ⟨rfl, (h.calm t hr).2⟩⟩

/-- A thread that gives up its join gives up its claim. -/
theorem Inv.release_claim (ht : (s t).Used) (hid : (s t).identity = (s w).wait.target)
    (howner : (s t).join_owner = (s w).identity) : thread_join_release_claim_unlocked s.threads w =
      s.threads.set t { s t with join_owner := ⟨0, 0⟩ } := by
  have htid : (s w).wait.target.tid ≠ 0 := hid ▸ ht
  have hgen : (s w).wait.target.generation ≠ 0 := hid ▸ h.generation ht
  have hfind : s.threads.find (fun target =>
      thread_identity_matches target (s w).wait.target &&
        decide (target.join_owner = (s w).identity)) = some t := by
    apply find_unique
    · rw [Bool.and_eq_true, decide_eq_true_eq]
      exact ⟨matches_iff.mpr ⟨⟨htid, hgen⟩, hid⟩, howner⟩
    · intro t' ht'
      rw [Bool.and_eq_true] at ht'
      exact (h.apart t t' ht (hid.trans (matches_iff.mp ht'.1).2.symm)).symm
  unfold thread_join_release_claim_unlocked
  rw [if_neg htid, hfind]

theorem Inv.change_give_up (hw : (s w).Joining) (ht : (s t).Used)
    (howner : (s t).join_owner = (s w).identity) (result : Int) :
    Change s.threads ((s.threads.set t { s t with join_owner := ⟨0, 0⟩ }).set_wait w { (s w).wait with
        pending := false, has_deadline := false, result := result, deadline := 0 }) := by
  have hboth : ∀ {α : Type} (f : Thread → α)
      (_ : ∀ thread owner, f { thread with join_owner := owner } = f thread)
      (_ : ∀ thread wait, f { thread with wait := wait } = f thread) (t' : Fin n),
      f ((s.threads.set t { s t with join_owner := ⟨0, 0⟩ }).set_wait w
        { (s w).wait with
          pending := false, has_deadline := false, result := result, deadline := 0 } t') =
        f (s t') := by
    intro α f hown hwait t'
    rw [set_wait_same f hwait, set_owner_same f hown]
  refine ⟨hboth Thread.identity (fun _ _ => rfl) fun _ _ => rfl,
    hboth Thread.owner (fun _ _ => rfl) fun _ _ => rfl,
    hboth Thread.join_consumed (fun _ _ => rfl) fun _ _ => rfl,
    hboth Thread.runtime_released (fun _ _ => rfl) fun _ _ => rfl,
    hboth Thread.runtime_release_claimed (fun _ _ => rfl) fun _ _ => rfl, ?_, ?_, ?_, ?_, ?_⟩
  · intro t' ht'
    rw [hboth Thread.exited (fun _ _ => rfl) fun _ _ => rfl, ht']
  · intro t' ht' _
    rwa [hboth Thread.exited (fun _ _ => rfl) fun _ _ => rfl] at ht'
  · intro t'
    by_cases heq : t' = w
    · rw [heq, set_wait_self]
      exact h.calmer_signal w result
    · rw [set_wait_of_ne _ _ heq, set_owner_same Thread.wait fun _ _ => rfl]
      exact .refl (h.calm t')
  · intro t' ht'
    have hu : ¬ (s t').Used := by
      rw [ht']
      exact fun hz => hz rfl
    rw [set_wait_of_ne, set_of_ne, ht']
    · rintro rfl
      exact hu ht
    · rintro rfl
      exact hu (joining_used h hw)
  · intro t'
    rw [set_wait_same Thread.join_owner fun _ _ => rfl]
    by_cases heq : t' = t
    · right
      rw [heq, set_self]
      refine ⟨rfl, ?_⟩
      intro w' hw'
      have hsame : w = w' := h.apart w w' (joining_used h hw) (howner.symm.trans hw'.symm)
      rw [← hsame, set_wait_self]
    · left
      rw [set_of_ne _ _ heq]

theorem Inv.change_signal (w : Fin n) (reason : WaitReason) (result : Int) :
    Change s.threads (thread_wait_signal_unlocked s.threads w reason result) := by
  unfold thread_wait_signal_unlocked
  split
  · exact h.unchanged
  rename_i hcond
  simp only [Bool.or_eq_true, Bool.not_eq_true', decide_eq_true_eq, not_or, Bool.not_eq_false,
    ne_eq, not_not] at hcond
  obtain ⟨hp, hr⟩ := hcond
  simp only
  split
  · rename_i hjoin
    have hw : (s w).Joining := ⟨hp, hr.trans hjoin.1⟩
    obtain ⟨t, ht, hid, howner, _⟩ := h.claim w hw
    rw [h.release_claim ht hid howner, set_owner_same Thread.wait fun _ _ => rfl]
    exact h.change_give_up hw ht howner result
  · exact h.change_wait (h.calmer_signal w result) (h.used_of_pending hp)

theorem Inv.change_signal_owner (t : Fin n) :
    Change s.threads (thread_join_signal_owner_unlocked s.threads t) := by
  unfold thread_join_signal_owner_unlocked
  split
  · exact h.unchanged
  · split
    · exact h.unchanged
    · exact h.change_signal _ _ _

/-- After the signal nobody waits for a thread that is gone. -/
theorem Inv.signalled (hdone : thread_join_signal_owner_unlocked s.threads t = threads)
    (hw : (threads w).Joining) (htarget : (threads w).wait.target = (threads t).identity)
    (hexited : (threads t).exited) (hreleased : (threads t).runtime_released) : False := by
  have hc : Change s.threads threads := hdone ▸ h.change_signal_owner t
  obtain ⟨hp, hr, hsame⟩ := (hc.wait w).joining hw.1 hw.2
  rw [hc.runtime_released] at hreleased
  rw [hc.identity, hsame] at htarget
  have hexited' := hc.late t hexited hreleased
  obtain ⟨t', ht', hid, howner, _⟩ := h.claim w ⟨hp, hr⟩
  have htt : t' = t := h.apart t' t ht' (hid.trans htarget)
  subst htt
  have hwu : (s w).Used := h.used_of_pending hp
  have hfind : s.threads.find
      (fun candidate => decide (candidate.identity = (s t').join_owner)) = some w := by
    apply find_unique
    · rw [decide_eq_true_eq, howner]
    · intro w' hw'
      rw [decide_eq_true_eq, howner] at hw'
      exact (h.apart w w' hwu hw'.symm).symm
  have hsignal : thread_join_signal_owner_unlocked s.threads t' =
      s.threads.set_wait w { (s w).wait with
        pending := false, has_deadline := false, result := PROCESS_WAIT_OK, deadline := 0 } := by
    unfold thread_join_signal_owner_unlocked
    have howned : (s t').join_owner.tid ≠ 0 := by
      rw [howner]
      exact hwu
    rw [if_neg (by simp [hexited', hreleased]; exact howned), hfind]
    simp only [thread_wait_signal_unlocked]
    rw [if_neg (by simp [hp, hr]), if_neg (by simp)]
  rw [← hdone, hsignal, set_wait_self] at hw
  cases hw.1

end

/-! ## Joins that give up -/

/-- Another thread of the process may join thread `x`. -/
def Joinable (threads : Table n) (owner : Option Nat) (x : ThreadIdentity) : Prop :=
  ∃ t, (threads t).Used ∧ (threads t).identity = x ∧ (threads t).join_owner = ⟨0, 0⟩ ∧
    (threads t).join_consumed = false ∧ (threads t).owner = owner

/-- Every thread that waits in a join still does, or has left its target to others. -/
def Leaves (threads threads' : Table n) : Prop :=
  ∀ w, (threads w).Joining →
    ((threads' w).Joining ∧ (threads' w).wait.target = (threads w).wait.target ∧
      (threads' w).owner = (threads w).owner) ∨
    Joinable threads' (threads w).owner (threads w).wait.target

theorem Change.joinable {threads' : Table n} {owner : Option Nat}
    (hc : Change threads threads') (h : Joinable threads owner x) : Joinable threads' owner x := by
  obtain ⟨t, hu, hid, hown, hcons, hproc⟩ := h
  refine ⟨t, used_of_identity (hc.identity t) hu, (hc.identity t).trans hid, ?_,
    (hc.join_consumed t).trans hcons, (hc.owner t).trans hproc⟩
  rcases hc.join_owner t with hsame | hnone
  · rw [hsame, hown]
  · exact hnone.1

theorem Leaves.refl (threads : Table n) : Leaves threads threads :=
  fun _ hw => .inl ⟨hw, rfl, rfl⟩

theorem Leaves.trans {threads' threads'' : Table n} (h : Leaves threads threads')
    (h' : Leaves threads' threads'') (hc : Change threads' threads'') : Leaves threads threads'' := by
  intro w hw
  rcases h w hw with ⟨hw', htarget, howner⟩ | hfree
  · rcases h' w hw' with ⟨hw'', htarget', howner'⟩ | hfree
    · exact .inl ⟨hw'', htarget'.trans htarget, howner'.trans howner⟩
    · rw [htarget, howner] at hfree
      exact .inr hfree
  · exact .inr (hc.joinable hfree)

theorem Inv.leaves_signal (h : Inv s) (w : Fin n) (reason : WaitReason) {result : Int}
    (hresult : reason = .thread_join → result ≠ PROCESS_WAIT_OK) :
    Leaves s.threads (thread_wait_signal_unlocked s.threads w reason result) := by
  intro w' hw'
  unfold thread_wait_signal_unlocked
  split
  · exact .inl ⟨hw', rfl, rfl⟩
  rename_i hcond
  simp only [Bool.or_eq_true, Bool.not_eq_true', decide_eq_true_eq, not_or, Bool.not_eq_false,
    ne_eq, not_not] at hcond
  obtain ⟨hp, hr⟩ := hcond
  simp only
  by_cases hjoin : reason = .thread_join
  · rw [if_pos ⟨hjoin, hresult hjoin⟩]
    have hw : (s w).Joining := ⟨hp, hr.trans hjoin⟩
    obtain ⟨t, ht, hid, howner, hproc⟩ := h.claim w hw
    rw [h.release_claim ht hid howner, set_owner_same Thread.wait fun _ _ => rfl]
    have hc := h.change_give_up hw ht howner result
    by_cases heq : w' = w
    · subst heq
      right
      refine ⟨t, used_of_identity (hc.identity t) ht, (hc.identity t).trans hid, ?_, ?_,
        (hc.owner t).trans hproc⟩
      · rw [set_wait_same Thread.join_owner fun _ _ => rfl, set_self]
      · rw [hc.join_consumed]
        refine h.held w' t (joining_used h hw') ht hid.symm howner ?_
        intro c hc
        exact absurd hw'.1 (by rw [h.busy c w' hc]; decide)
    · left
      rw [set_wait_of_ne _ _ heq, Thread.Joining, set_owner_same Thread.wait fun _ _ => rfl,
        set_owner_same Thread.owner fun _ _ => rfl]
      exact ⟨hw', rfl, rfl⟩
  · rw [if_neg (fun hj => hjoin hj.1)]
    have heq : w' ≠ w := by
      rintro rfl
      exact hjoin (hr.symm.trans hw'.2)
    left
    rw [set_wait_of_ne _ _ heq]
    exact ⟨hw', rfl, rfl⟩

/-! ## Loops over the table -/

section
variable {f : Table n → Fin n → Table n}

theorem Inv.fold (hf : ∀ s : State n a, Inv s → ∀ t, Change s.threads (f s.threads t)) (h : Inv s)
    (l : List (Fin n)) : Inv { s with threads := l.foldl f s.threads } :=
  foldlRecOn (motive := fun threads => Inv { s with threads := threads }) l f h fun _ h t _ =>
    h.change (hf _ h t)

theorem Inv.fold_leaves (hf : ∀ s : State n a, Inv s → ∀ t, Change s.threads (f s.threads t))
    (hl : ∀ s : State n a, Inv s → ∀ t, Leaves s.threads (f s.threads t)) (h : Inv s)
    (l : List (Fin n)) : Leaves s.threads (l.foldl f s.threads) := by
  induction l using reverseRecOn with
  | nil => exact .refl _
  | append_singleton l t ih =>
    rw [foldl_append]
    exact ih.trans (hl _ (h.fold hf l) t) (hf _ (h.fold hf l) t)

end

section
variable (h : Inv s)
include h

theorem Inv.change_tick (processes : Nat → Process) (tick_now : U32) (t : Fin n) :
    Change s.threads (wait_tick_turn processes tick_now s.threads t) := by
  unfold wait_tick_turn
  simp only
  split
  · exact h.unchanged
  rename_i hcond
  have hp : (s t).wait.pending := by
    simp only [Bool.or_eq_true, Bool.not_eq_true', not_or, Bool.not_eq_false] at hcond
    exact hcond.1.2
  split
  · exact h.unchanged
  · split
    · exact h.change_wait ⟨fun hp hr => ⟨hp, hr, rfl⟩, id, .inl rfl, h.calm t⟩
        (h.used_of_pending hp)
    · exact h.change_signal t _ _

theorem Inv.leaves_tick (processes : Nat → Process) (tick_now : U32) (t : Fin n) :
    Leaves s.threads (wait_tick_turn processes tick_now s.threads t) := by
  unfold wait_tick_turn
  simp only
  split
  · exact .refl _
  split
  · exact .refl _
  split
  · rename_i hreason
    intro w hw
    have hne : w ≠ t := by
      rintro rfl
      rw [hw.2] at hreason
      exact absurd hreason (by decide)
    rw [set_wait_of_ne _ _ hne]
    exact .inl ⟨hw, rfl, rfl⟩
  · refine h.leaves_signal t _ ?_
    intro hjoin
    rw [hjoin]
    decide

theorem Inv.change_cancel (p : Nat) (reason : WaitReason) (result : Int) (t : Fin n) :
    Change s.threads (wait_cancel_turn p reason result s.threads t) := by
  unfold wait_cancel_turn
  split
  · exact h.change_signal t reason result
  · exact h.unchanged

theorem Inv.leaves_cancel (p : Nat) (reason : WaitReason) {result : Int}
    (hresult : result ≠ PROCESS_WAIT_OK) (t : Fin n) :
    Leaves s.threads (wait_cancel_turn p reason result s.threads t) := by
  unfold wait_cancel_turn
  split
  · exact h.leaves_signal t reason fun _ => hresult
  · exact .refl _

/-- A thread exits. -/
theorem Inv.change_finished {p : Nat} (ht : (s t).owner = some p)
    (code : U32) : Change s.threads (s.threads.set t ((s t).finished code)) := by
  have hused := h.used_of (p := fun thread => thread.owner = some p) nofun ht
  exact h.change_set rfl rfl rfl rfl rfl rfl (fun _ => rfl) (fun _ hrel => h.gone t (h.released t hrel))
    (.reset _) (.inl hused)

theorem Inv.change_finish (p : Nat) (code : U32) (t : Fin n) :
    Change s.threads (finish_turn p code s.threads t) := by
  unfold finish_turn
  split
  · rename_i ht
    exact h.change_finished ht code
  · exact h.unchanged

theorem Inv.processes {processes : Nat → Process} : Inv { s with processes := processes } where
  __ := h

theorem Inv.finish (p : Nat) (code : U32) : Inv (s.process_finish p code) :=
  (h.fold (fun _ h t => h.change_finish p code t) _).processes

/-! ## The steps -/

theorem Inv.mark_exited (hpc : s.pc c = .idle) (code : U32) : Inv (s.mark_exited c t code) := by
  unfold State.mark_exited
  split
  · exact h
  rename_i p hp
  split
  · exact h
  · have hdone := h.change (h.change_finished hp code)
    simp only
    split
    · exact hdone.goto_on hpc rfl nofun nofun nofun
    · exact hdone

end

/-- A status that is taken is new. -/
theorem Inv.not_joined (h : Inv s) (hcons : (s t).join_consumed = false) :
    (s t).identity ∉ s.joined := by
  intro hmem
  exact absurd ((h.joined_old _ hmem).2.2 t rfl) (by rw [hcons]; decide)

theorem Inv.not_discarding (h : Inv s) (hcons : (s t).join_consumed = false) (c : Fin a)
    (w : Option (Fin n)) : s.pc c ≠ .discard t w := by
  intro hc
  exact absurd (h.discarding c t w hc).2.1 (by rw [hcons]; decide)

/-- The status of a thread is taken by a caller that is not in a wait for it any more, and
its record goes. -/
theorem Inv.take (waiter : Option (Fin n)) (h : Inv s) (hcaller : (s.pc c).caller = waiter)
    (hsignal : ∀ t, s.pc c ≠ .release_signal t) (ht : (s t).Used) (hx : (s t).identity = x)
    (hcons : (s t).join_consumed = false) (hrel : (s t).runtime_released)
    (hbusy : ∀ w, (s w).Used → (s w).wait.target = (s t).identity →
      (s t).join_owner = (s w).identity → ∃ c, (s.pc c).caller = some w) :
    let threads := s.threads.set t { s t with join_consumed := true }
    Inv { s.goto c (after_join threads t waiter) with threads := threads, joined := x :: s.joined } := by
  intro threads
  have hself : threads t = { s t with join_consumed := true } := set_self ..
  have htaken : Inv { s with threads := threads, joined := x :: s.joined } := by
    have hconsumed : Inv { s with threads := threads } := h.set_consumed ht hbusy
    refine hconsumed.add_joined (t := t) ?_ ?_ ?_ (hx ▸ h.not_joined hcons)
    all_goals
      dsimp only
      rw [hself]
    · exact ht
    · exact hx
  unfold after_join
  split
  · refine htaken.goto_on rfl hcaller.symm hsignal nofun ?_
    rintro _ _ ⟨⟩
    dsimp only
    rw [hself]
    exact ⟨ht, rfl, hrel, fun c' _ w' => h.not_discarding hcons c' w'⟩
  · exact htaken.goto_last waiter hcaller hsignal

/-- A join that does not fail has found a target that nobody has claimed. -/
structure Claims (threads : Table n) (w t : Fin n) (x : ThreadIdentity) : Prop where
  found : threads.find (fun thread => thread_identity_matches thread x) = some t
  other : thread_identity_matches (threads w) x = false
  owner : (threads t).owner = (threads w).owner
  join_consumed : (threads t).join_consumed = false
  join_owner : (threads t).join_owner.tid = 0

/-- The claimed record. -/
def claimed (threads : Table n) (w t : Fin n) : Table n :=
  threads.set t { threads t with join_owner := (threads w).identity }

theorem join_begin_cases (threads : Table n) (w : Fin n) (x : ThreadIdentity)
    (timeout_ticks tick_now : U32) : (∃ result, (∀ status, result ≠ .joined status) ∧
        thread_join_begin threads w x timeout_ticks tick_now = (result, none, threads)) ∨
      ∃ t, Claims threads w t x ∧ (((threads t).exited ∧ (threads t).runtime_released ∧
            thread_join_begin threads w x timeout_ticks tick_now =
              (.joined (threads t).exit_code, some t,
                (claimed threads w t).set t { claimed threads w t t with join_consumed := true })) ∨
          (¬ ((threads t).exited ∧ (threads t).runtime_released) ∧
            thread_join_begin threads w x timeout_ticks tick_now =
              (.waits, some t, (claimed threads w t).set_wait w {
                pending := true, has_deadline := decide (timeout_ticks ≠ 0), reason := .thread_join
                result := PROCESS_WAIT_OK
                deadline := if timeout_ticks ≠ 0 then tick_now + timeout_ticks else 0
                target := x }))) := by
  unfold thread_join_begin
  split
  · exact .inl ⟨.invalid_argument, nofun, rfl⟩
  rename_i hargs
  simp only [not_or, Bool.not_eq_true] at hargs
  split
  · exact .inl ⟨.not_found, nofun, rfl⟩
  rename_i t hfind
  simp only
  split
  · exact .inl ⟨.not_found, nofun, rfl⟩
  rename_i howner
  split
  · exact .inl ⟨.not_found, nofun, rfl⟩
  rename_i hcons
  split
  · exact .inl ⟨.already_exists, nofun, rfl⟩
  rename_i hfree
  right
  refine ⟨t, ⟨hfind, hargs.2.2.2, not_not.mp howner, by simpa using hcons,
    not_not.mp hfree⟩, ?_⟩
  split
  · rename_i hgone
    rw [Bool.and_eq_true] at hgone
    left
    refine ⟨hgone.1, hgone.2, ?_⟩
    rw [claimed, set_self, Table.set, Table.set, Table.set, update_idem]
  · rename_i hgone
    rw [Bool.and_eq_true] at hgone
    exact .inr ⟨hgone, rfl⟩

theorem Inv.join (h : Inv s) (hpc : s.pc c = .idle) (hruns : s.runs w) (x : ThreadIdentity)
    (timeout_ticks tick_now : U32) : Inv (s.join c w x timeout_ticks tick_now) := by
  simp only [State.runs, Bool.and_eq_true, decide_eq_true_eq] at hruns
  obtain ⟨⟨hw, hreason⟩, hcaller⟩ := hruns
  have hnotarget := (h.calm w hreason).2
  unfold State.join
  rcases join_begin_cases s.threads w x timeout_ticks tick_now with
    ⟨result, hresult, heq⟩ | ⟨t, hclaims, ⟨hexited, hreleased, heq⟩ | ⟨hlive, heq⟩⟩
  · rw [heq]
    split
    · rename_i hr
      cases hr
    · rename_i hr
      cases hr
      exact h
  all_goals
    rw [heq]
    obtain ⟨⟨htid, _⟩, hid⟩ := matches_iff.mp (find_spec hclaims.found)
    have ht : (s t).Used := used_of_identity hid htid
    have hclaimed : Inv { s with threads := claimed s.threads w t } :=
      h.set_owner ht hclaims.join_owner hw hnotarget
    have hsame : claimed s.threads w t t = { s t with join_owner := (s w).identity } :=
      set_self ..
    have hidentity : ∀ t', (claimed s.threads w t t').identity = (s t').identity :=
      set_owner_same Thread.identity fun _ _ => rfl
    have hwaits : ∀ t', (claimed s.threads w t t').wait = (s t').wait :=
      set_owner_same Thread.wait fun _ _ => rfl
  · -- the status is there: nobody else has a claim, and the caller itself does not wait
    refine hclaimed.take none (by rw [hpc]; rfl) (by rw [hpc]; exact nofun)
      (used_of_identity ((hidentity t).trans hid) htid) ((hidentity t).trans hid) ?_ ?_ ?_
    all_goals dsimp only
    · rw [hsame]
      exact hclaims.join_consumed
    · rw [hsame]
      exact hreleased
    · intro w' hw' htarget howner
      simp only [hidentity, hwaits, Thread.Used] at hw' htarget
      rw [hsame, hidentity] at howner
      rw [← h.apart w w' hw howner, hnotarget] at htarget
      exact absurd htarget.symm ht.ne_zero
  · have hproc : (claimed s.threads w t t).owner = (claimed s.threads w t w).owner := by
      rw [claimed, set_owner_same Thread.owner fun _ _ => rfl, set_owner_same Thread.owner fun _ _ => rfl]
      exact hclaims.owner
    have hwait := hclaimed.begin_wait (t := t) (w := w) (decide (timeout_ticks ≠ 0))
      (if timeout_ticks ≠ 0 then tick_now + timeout_ticks else 0) (used_of_identity (hidentity w) hw)
      (used_of_identity ((hidentity t).trans hid) htid)
      (by dsimp only; rw [hsame, hidentity]) hproc
      (by dsimp only; rw [hsame]; exact hclaims.join_consumed)
      (by dsimp only; rw [hsame]; exact hlive) hcaller
    rw [show (claimed s.threads w t t).identity = x from (hidentity t).trans hid] at hwait
    exact hwait

/-- A thread that was woken. -/
theorem Inv.complete (h : Inv s) (hpc : s.pc c = .idle) (hwoken : s.woken w) :
    Inv (s.complete c w) := by
  simp only [State.woken, Bool.and_eq_true, Bool.not_eq_true', decide_eq_true_eq] at hwoken
  obtain ⟨⟨⟨hw, hreason⟩, hpending⟩, hcaller⟩ := hwoken
  have hreset : Inv (s.goto c (.reset w)) := by
    refine h.goto ⟨?_, by simp [hpc, Pc.caller], nofun, nofun, by simp [hpc]⟩
    intro w' hw'
    cases hw'
    exact hpending
  unfold State.complete
  split
  · unfold thread_join_consume
    cases hfind : s.threads.find (fun thread =>
        thread_identity_matches thread (s w).wait.target) with
    | none => exact hreset
    | some t =>
      simp only
      by_cases hcond : (!(s t).exited || !(s t).runtime_released ||
          decide ((s t).join_owner ≠ (s w).identity))
      · rw [if_pos hcond]
        exact hreset
      · rw [if_neg hcond]
        simp only [Bool.or_eq_true, Bool.not_eq_true', decide_eq_true_eq, not_or, Bool.not_eq_false,
          ne_eq, not_not] at hcond
        obtain ⟨⟨hexited, hreleased⟩, howner⟩ := hcond
        obtain ⟨⟨htid, _⟩, hid⟩ := matches_iff.mp (find_spec hfind)
        have ht : (s t).Used := used_of_identity hid htid
        have hcons : (s t).join_consumed = false :=
          h.held w t hw ht hid.symm howner hcaller
        have hself : (s.goto c (.reset w)).pc c = .reset w := update_self ..
        have hdone := hreset.take (c := c) (some w) (by rw [hself]; rfl) (by rw [hself]; exact nofun)
          ht hid hcons hreleased (by
          intro w' hw' htarget howner'
          have hww : w = w' := h.apart w w' hw (howner.symm.trans howner')
          exact ⟨c, by rw [hself, ← hww]; rfl⟩)
        simpa only [State.goto, update_idem] using hdone
  · exact hreset

theorem Inv.next (h : Inv s) (hallow : allowed s (.next c)) (hst : s.next c = some s') : Inv s' := by
  unfold State.next at hst
  cases hpc : s.pc c <;> simp only [hpc, reduceCtorEq, some.injEq] at hst
  case release_claim t =>
    split at hst <;> rename_i hfree <;> cases hst
    · exact h.goto_on hpc rfl nofun nofun nofun
    · have hexited : (s t).exited := by
        simp only [allowed, hpc, Bool.or_eq_true] at hallow
        exact hallow.resolve_left hfree
      have hself := set_self s.threads t { s t with runtime_release_claimed := true }
      refine (h.set_claimed hexited).goto ⟨nofun, by simp [hpc, Pc.caller], nofun, ?_, by simp [hpc]⟩
      intro t' ht'
      cases ht'
      dsimp only
      rw [hself]
      refine ⟨rfl, ?_, ?_⟩
      · cases hrel : (s t).runtime_released with
        | false => rfl
        | true => exact absurd (h.released t hrel) hfree
      · intro c' _ hc'
        exact hfree (h.releasing c' t hc').1
  all_goals subst hst
  case discard t waiter =>
    obtain ⟨ht, hcons, hrel⟩ := h.discarding c t waiter hpc
    have hgone := h.goto_last (c := c) waiter (by rw [hpc]; rfl) (by simp [hpc])
    refine hgone.discard ht hcons hrel ?_
    intro c' w
    refine goto_cases c' (fun _ hc' => ?_) fun hcc hc' => ?_
    · cases waiter <;> cases hc'
    · exact hcc (h.discard_one c' c t w waiter hc' hpc)
  case reset w =>
    refine (h.change (h.change_reset w)).goto ⟨nofun, ?_, nofun, nofun, by simp [hpc]⟩
    intro w' hw'
    simp only [hpc, Pc.caller, some.injEq] at hw'
    right
    simp [← hw', set_wait_self, Wait.reset]
  case release_store t =>
    obtain ⟨hclaimed, _⟩ := h.releasing c t hpc
    have hgo : Inv (s.goto c (.release_signal t)) := h.goto_on hpc rfl nofun nofun nofun
    refine hgo.set_released (c := c) hclaimed (goto_pc_self ..) ?_
    intro c'
    exact goto_cases c' nofun fun hcc hc' => hcc (h.release_one c' c t hc' hpc)
  case release_signal t =>
    refine (h.change (h.change_signal_owner t)).goto ⟨nofun, by simp [hpc, Pc.caller], nofun, nofun, ?_⟩
    intro t' ht' w hw htarget hexited hreleased
    simp only [hpc, Pc.release_signal.injEq] at ht'
    subst ht'
    exact h.signalled rfl hw htarget hexited hreleased
  case finish p code =>
    have hgo : Inv (s.goto c .idle) := h.goto_on hpc rfl nofun nofun nofun
    exact hgo.finish p code

theorem Inv.allocate {is_main : Bool} (h : Inv s) (hallow : allowed s (.create owner is_main))
    (hst : s.allocate_thread_record owner is_main = some s') : Inv s' := by
  unfold State.allocate_thread_record at hst
  split at hst
  · cases hst
  split at hst
  · cases hst
  rename_i t hfind
  have hfree : ¬ (s t).Used := not_not.mpr (by simpa using find_spec hfind)
  have hroom : s.next_tid + 1 ≠ 0 := by simpa [allowed] using hallow
  have hnext : next_number s.next_tid = (s.next_tid, s.next_tid + 1) := by
    unfold next_number
    rw [if_neg hroom, if_neg h.numbers.2]
  rw [h.numbers.1, hnext] at hst
  cases hst
  exact h.create hfree hroom

theorem Inv.step {l : Label n a} (h : Inv s) (hallow : allowed s l)
    (hst : step s l = some s') : Inv s' := by
  cases l
  case create owner is_main => exact h.allocate hallow hst
  case next c => exact h.next hallow hst
  all_goals simp only [joins.step, ite_none_right_eq_some, ite_none_left_eq_some,
    some.injEq] at hst
  case join c caller target timeout_ticks tick_now =>
    obtain ⟨hcond, rfl⟩ := hst
    exact h.join hcond.1 hcond.2 target timeout_ticks tick_now
  case complete c caller =>
    obtain ⟨hcond, rfl⟩ := hst
    exact h.complete hcond.1 hcond.2
  case exit c t exit_code =>
    obtain ⟨hpc, rfl⟩ := hst
    exact h.mark_exited hpc exit_code
  case release c t on_stack =>
    obtain ⟨hpc, hst⟩ := hst
    split at hst <;> cases hst
    · exact h
    · exact h.goto_on (not_not.mp hpc) rfl nofun nofun nofun
  case finish p status_code =>
    subst hst
    exact h.finish p status_code
  case tick tick_now =>
    subst hst
    exact h.fold (fun _ h t => h.change_tick _ tick_now t) _
  case cancel p reason result =>
    obtain ⟨_, rfl⟩ := hst
    exact h.fold (fun _ h t => h.change_cancel p reason result t) _

theorem inv_init (n a : Nat) : Inv (init n a) := by
  have hzero : ∀ t, ¬ ((init n a).threads t).Used := fun t hz => hz rfl
  refine ⟨⟨rfl, (by decide : (1 : U32) ≠ 0)⟩, fun t ht => absurd ht (hzero t), fun t _ ht => absurd ht (hzero t),
    fun _ _ => rfl, fun _ _ => ⟨rfl, rfl⟩, nofun, fun w _ hw => absurd hw (hzero w), nofun, nofun, nofun,
    nofun, nofun, nofun, nofun, nofun, .nil, nofun, .nil, nofun⟩

theorem inv_reached (h : (machine n a).ReachedBy (fun s l => allowed s l = true) s) : Inv s := by
  refine h.inv (P := Inv) ?_ ?_
  · rintro _ rfl
    exact inv_init n a
  · intro _ _ _ hs hallow hst
    exact hs.step hallow hst

/-! ## The laws of joins -/

/-- A thread that can be joined is joined, or waited for, by every other thread of its
process. -/
theorem Inv.join_joinable (h : Inv s)
    (hfree : Joinable s.threads (some owner) x) (hv : (s w).owner = some owner)
    (hne : (s w).identity ≠ x) (timeout_ticks tick_now : U32) :
    (thread_join_begin s.threads w x timeout_ticks tick_now).1 = .waits ∨
      ∃ status, (thread_join_begin s.threads w x timeout_ticks tick_now).1 = .joined status := by
  obtain ⟨t, ht, hid, hown, hcons, hproc⟩ := hfree
  have htid : x.tid ≠ 0 := hid ▸ ht
  have hgen : x.generation ≠ 0 := hid ▸ h.generation ht
  have hself : thread_identity_matches (s w) x = false := by
    rw [Bool.eq_false_iff, ne_eq, matches_iff]
    exact fun hm => hne hm.2
  unfold thread_join_begin
  rw [if_neg (by simp [hv, hself]; exact ⟨htid, hgen⟩), h.find_target ht hid]
  simp only
  rw [if_neg (by rw [hproc, hv]; simp), if_neg (by rw [hcons]; decide),
    if_neg (by rw [hown]; decide)]
  split
  · exact .inr ⟨_, rfl⟩
  · exact .inl rfl

/-- In every run that keeps to `allowed`: an exit code is returned by one join at most; a
record is discarded once at most, and only after its stacks were released; a join that
is ended by a tick or a cancellation leaves its target to every other thread of the
process; and with no call in progress, no thread waits to join one that has exited and
has no stacks. -/
theorem joins_are_exact (h : (machine n a).ReachedBy (fun s l => allowed s l = true) s) :
    s.joined.Nodup ∧
      (s.discarded.map Prod.fst).Nodup ∧ (∀ e ∈ s.discarded, e.2 = true) ∧
      (∀ l s', (∃ now, l = .tick now) ∨ (∃ p reason result, l = .cancel p reason result) →
        step s l = some s' → ∀ w owner, (s.threads w).Joining → (s.threads w).owner = some owner →
        ¬ (s'.threads w).Joining → ∀ v, (s'.threads v).owner = some owner →
        (s'.threads v).identity ≠ (s.threads w).wait.target → ∀ timeout_ticks tick_now,
          (thread_join_begin s'.threads v (s.threads w).wait.target timeout_ticks tick_now).1 = .waits ∨
          ∃ status, (thread_join_begin s'.threads v (s.threads w).wait.target timeout_ticks
            tick_now).1 = .joined status) ∧
      ((∀ c, s.pc c = .idle) → ∀ t, (s.threads t).exited = true →
        (s.threads t).runtime_released = true →
        ∀ w, ¬ ((s.threads w).Joining ∧ (s.threads w).wait.target = (s.threads t).identity)) := by
  have hinv := inv_reached h
  refine ⟨hinv.joined_once, hinv.discarded_once, fun e he => (hinv.discarded_old e he).1, ?_, ?_⟩
  · intro l s' hl hst w owner hw howner hend v hv hne timeout_ticks tick_now
    have hinv' : Inv s' := by
      refine hinv.step ?_ hst
      rcases hl with ⟨now, rfl⟩ | ⟨p, reason, result, rfl⟩ <;> rfl
    have hleaves : Leaves s.threads s'.threads := by
      rcases hl with ⟨now, rfl⟩ | ⟨p, reason, result, rfl⟩
      · cases hst
        exact hinv.fold_leaves (fun _ h t => h.change_tick _ now t) (fun _ h t => h.leaves_tick _ now t) _
      · simp only [joins.step] at hst
        split at hst <;> cases hst
        rename_i hresult
        exact hinv.fold_leaves (fun _ h t => h.change_cancel p reason result t)
          (fun _ h t => h.leaves_cancel p reason hresult t) _
    rcases hleaves w hw with ⟨hstill, _⟩ | hfree
    · exact absurd hstill hend
    · rw [howner] at hfree
      exact hinv'.join_joinable hfree hv hne timeout_ticks tick_now
  · rintro hidle t hexited hreleased w ⟨hw, htarget⟩
    obtain ⟨c, hc⟩ := hinv.signal w t hw htarget hexited hreleased
    rw [hidle c] at hc
    cases hc

end

/-! ## Runs -/

/-- Two CPUs release the stacks of a thread that has exited. The first one is past its
checks; the second one finishes, the thread is joined and its record goes to a new
thread; then the first one claims the record, and releases the stacks of the new thread,
which still runs. The main thread waits to join it, and it exits. No call is in progress,
the new thread is gone, and its joiner waits for ever. -/
theorem a_late_release_strands_a_joiner :
    ∃ s : State 2 2, (machine 2 2).Reachable s ∧ (∀ c, s.pc c = .idle) ∧
      (s.threads 1).identity = ⟨3, 3⟩ ∧ (s.threads 1).exited = true ∧
      (s.threads 1).runtime_released = true ∧ (s.threads 0).Joining ∧
      (s.threads 0).wait.target = (s.threads 1).identity := by
  unfold Thread.Joining
  exact Machine.exists_reachable (.start rfl)
    [.create 0 true, .create 0 false, .exit 0 1 7, .release 0 1 false,
      .release 1 1 false, .next 1, .next 1, .next 1, .join 1 0 ⟨2, 2⟩ 0 0, .next 1,
      .create 0 false, .next 0, .next 0, .next 0,
      .join 1 0 ⟨3, 3⟩ 0 0, .exit 1 1 9] (by decide +kernel)

/-- The main thread waits for a thread, which exits; it takes the status and the record is
discarded. -/
theorem join_and_exit_is_exact :
    ∃ s : State 2 2, s.joined = [⟨2, 2⟩] ∧ s.discarded = [(⟨2, 2⟩, true)] ∧ s.joined.Nodup ∧
      (s.discarded.map Prod.fst).Nodup := by
  obtain ⟨s, hs, hjoined, hdiscarded⟩ : ∃ s : State 2 2,
      (machine 2 2).ReachedBy (fun s l => allowed s l = true) s ∧
      s.joined = [⟨2, 2⟩] ∧ s.discarded = [(⟨2, 2⟩, true)] :=
    Machine.exists_reachedBy (.start rfl)
      [.create 0 true, .create 0 false, .join 0 0 ⟨2, 2⟩ 0 0, .exit 1 1 7, .release 1 1 false,
        .next 1, .next 1, .next 1, .complete 0 0, .next 0, .next 0] (by decide +kernel)
  have hlaws := joins_are_exact hs
  exact ⟨s, hjoined, hdiscarded, hlaws.1, hlaws.2.1⟩

end mini_kernel.joins
