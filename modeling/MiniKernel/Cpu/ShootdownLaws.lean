-- The law of the acknowledgements: what an initiator counts is a flush that its
-- target made for it. It holds while each mailbox has one user at a time, no request
-- carries the token and the generation that its target shows already, and no space is
-- used again during a call for it. The counters of the address spaces do not see to that.
import MiniKernel.Cpu.Shootdown
import MiniKernel.Lib.Store

open mini_kernel.lib Function List

namespace mini_kernel.smp

section
variable {n : Nat} {s s' : State n} {a b c : Fin n}

/-- The laws read a state as its calls. -/
instance : CoeFun (State n) fun _ => Fin n → Call n := ⟨State.call⟩

/-! ## What a call is owed -/

/-- The flush was made on `c` and covers the request, or another space was loaded. -/
def Serves (e : Event n) (c : Fin n) (request : Request) : Prop :=
  e.cpu = c ∧ e.identity = request .identity ∧ e.root = request .root ∧
    match e.outcome with
    | .other_space_loaded => True
    | .switched_root => True
    | .flushed_pages address page_count =>
      ¬ flushes_all request ∧ address = request .address ∧ page_count = request .page_count

/-- Since the call began, `c` has served it. -/
def Genuine (s : State n) (k : Call n) (c : Fin n) : Prop :=
  ∃ e ∈ s.log.drop k.start, Serves e c k.request

theorem serves_self (loaded : Loaded) (c : Fin n) (request : Request) :
    Serves ⟨c, request .identity, request .root, flush_outcome loaded request⟩ c request := by
  refine ⟨rfl, rfl, rfl, ?_⟩
  unfold flush_outcome
  split_ifs with h1 h2
  · trivial
  · trivial
  · exact ⟨h2, rfl, rfl⟩

/-! ## The condition -/

/-- The target that a call is publishing to: from the free mailbox to the
interrupt. -/
def Pc.publishing : Pc n → Option (Fin n)
  | .fill c _ _ => some c
  | .send c _ => some c
  | .cancel c => some c
  | _ => none

/-- The target that a call has posted to, without having counted it as published. -/
def Pc.sending : Pc n → Option (Fin n)
  | .send c _ => some c
  | .cancel c => some c
  | _ => none

variable {pc pc' : Pc n} {k : Call n} {rest : List Field} {todo : List (Fin n)}

theorem Pc.publishing_of_sending (h : pc.sending = some c) : pc.publishing = some c := by
  cases pc <;> first | exact h | cases h

/-- The last acknowledgement of `c` looks like one for the call. -/
def Shown (s : State n) (k : Call n) (c : Fin n) : Prop :=
  (s.mailbox c).tlb_ack_token = k.request .token ∧
    (s.mailbox c).tlb_ack_generation = k.request .generation

instance (s : State n) (k : Call n) (c : Fin n) : Decidable (Shown s k c) :=
  inferInstanceAs (Decidable (_ ∧ _))

def Handler.isIdle : Handler → Bool
  | .idle => true
  | _ => false

/-- The mailbox of `c` has no other user than `a`, and shows no acknowledgement that
`a` could take for its own. -/
def free (s : State n) (a c : Fin n) : Bool :=
  decide (∀ b, b ≠ a → (s.call b).pc.publishing ≠ some c) && (s.handler c).isIdle &&
    decide (¬ Shown s (s.call a) c)

/-- The call has passed its checks and has not returned. -/
def Pc.running : Pc n → Bool
  | .idle | .ready | .returned _ => false
  | _ => true

/-- No call for the space is running. -/
def unused (s : State n) (i : Nat) : Bool :=
  decide (∀ a, (s.call a).pc.running → (s.call a).space ≠ some i)

/-- An initiator that finds the mailbox of a target not pending finds it free, and a
space is set up anew only while no call for it is running. -/
def guarded (s : State n) : Label n → Bool
  | .initiator a _ =>
    match (s.call a).pc with
    | .publish (c :: _) =>
      !(s.call a).target_mask c || c == a || !s.online c ||
        (s.mailbox c).pending_tlb_shootdown || free s a c
    | _ => true
  | .init i => unused s i
  | .recycle i => unused s i
  | _ => true

theorem free_iff : free s a c ↔ (∀ b, b ≠ a → (s b).pc.publishing ≠ some c) ∧
    s.handler c = .idle ∧ ¬ Shown s (s a) c := by
  have hidle : (s.handler c).isIdle ↔ s.handler c = .idle := by
    cases s.handler c <;> simp [Handler.isIdle]
  unfold free
  rw [Bool.and_eq_true, Bool.and_eq_true, decide_eq_true_iff, decide_eq_true_iff, hidle, and_assoc]

/-! ## The invariant -/

/-- The request is in the mailbox of `c` and has not been served. -/
def InFlight (s : State n) (k : Call n) (c : Fin n) : Prop :=
  (s.mailbox c).pending_tlb_shootdown ∧ (s.mailbox c).tlb_request = k.request ∧
  ¬ Shown s k c ∧
  (s.handler c = .idle ∨ ∃ rest request, s.handler c = .read rest request ∧
    ∀ f ∉ rest, request f = k.request f)

def Requested (k : Call n) (c : Fin n) : Prop := k.pc.sending = some c ∨ k.published c

/-- A request that was made is on its way, or has been served. -/
def Honoured (s : State n) (k : Call n) (c : Fin n) : Prop := Genuine s k c ∨ InFlight s k c

/-- The request is being written, and the fields in the list are still missing. -/
def Filling (s : State n) (k : Call n) (c : Fin n) (rest : List Field) : Prop :=
  (s.mailbox c).pending_tlb_shootdown = false ∧ s.handler c = .idle ∧ ¬ Shown s k c ∧
    ∀ f ∉ rest, (s.mailbox c).tlb_request f = k.request f

/-- What holds of a call at a place. -/
def HoldsAt (s : State n) (k : Call n) : Pc n → Prop
  | .ready => ∀ c, k.published c = false ∧ k.acknowledged c = false
  | .flush => ∀ c, k.published c = false ∧ k.acknowledged c = false
  | .fill c rest _ => Filling s k c rest
  | .send c _ => Honoured s k c
  | .cancel c => Honoured s k c
  | .poll_generation c _ => k.published c = true ∧
      (Genuine s k c ∨ (InFlight s k c ∧ (s.mailbox c).tlb_ack_token = k.request .token))
  | .returned true => ∀ c, k.target_mask c → k.acknowledged c
  | _ => True

/-- What holds of one call, wherever it is. -/
structure Owed (s : State n) (k : Call n) : Prop where
  begun : k.start ≤ s.log.length
  published : ∀ c, k.published c → Honoured s k c
  acknowledged : ∀ c, k.acknowledged c → Genuine s k c

/-- The space of a running call is the one it was when the call began. -/
def Steady (s : State n) (k : Call n) : Prop :=
  k.pc.running → current s k = k.request ∧ (k.space.isSome → current s k .root ≠ 0)

structure Inv (s : State n) : Prop where
  owed : ∀ a, Owed s (s.call a)
  here : ∀ a, HoldsAt s (s.call a) (s.call a).pc
  steady : ∀ a, Steady s (s.call a)
  /-- A mailbox has one publisher. -/
  alone : ∀ a b c, (s.call a).pc.publishing = some c → (s.call b).pc.publishing = some c → a = b
  /-- By then, those who published to it before have been served. -/
  before : ∀ a b c, (s.call a).pc.publishing = some c → (s.call b).published c →
    Genuine s (s.call b) c

theorem inv_boot (n : Nat) : Inv (boot n) := by
  refine ⟨fun a => ⟨?_, ?_, ?_⟩, fun a => trivial, fun a => ?_, ?_, ?_⟩
  all_goals simp [boot, noCall, Pc.publishing, Steady, Pc.running]

@[elab_as_elim]
theorem State.setCall_cases {k : Call n} {P : Call n → Prop} (b : Fin n) (hself : b = a → P k)
    (hother : b ≠ a → P (s b)) : P ((s.setCall a k).call b) := by
  unfold State.setCall
  dsimp only
  exact update_cases b hself hother

theorem State.setHandler_self (h : Handler) : (s.setHandler c h).handler c = h :=
  update_self ..

theorem State.setHandler_other (h : Handler) (hb : b ≠ c) :
    (s.setHandler c h).handler b = s.handler b := update_of_ne hb ..

theorem State.setMailbox_self (m : Mailbox) : (s.setMailbox c m).mailbox c = m :=
  update_self ..

theorem State.setMailbox_other (m : Mailbox) (hb : b ≠ c) :
    (s.setMailbox c m).mailbox b = s.mailbox b := update_of_ne hb ..

/-! ## What a call does not mind -/

theorem Genuine.mono (h : Genuine s k c) (hl : s.log <+: s'.log) : Genuine s' k c := by
  obtain ⟨e, he, hs⟩ := h
  obtain ⟨more, hl⟩ := hl
  refine ⟨e, ?_, hs⟩
  rw [← hl, drop_append]
  exact mem_append_left _ he

/-- The flush of a request serves the call it came from. -/
theorem genuine_flush (hb : k.start ≤ s.log.length) :
    Genuine (flush_loaded_address_space s c k.request) k c := by
  refine ⟨_, ?_, serves_self (s.loaded c) c k.request⟩
  simp only [flush_loaded_address_space]
  rw [drop_append_of_le_length hb]
  exact mem_append_right _ (mem_singleton.mpr rfl)

theorem InFlight.congr (h : InFlight s k c) (hm : s'.mailbox c = s.mailbox c)
    (hh : s'.handler c = s.handler c) : InFlight s' k c := by
  unfold InFlight Shown
  rw [hm, hh]
  exact h

/-- From `s` to `s'`, what was in flight for the call stays so in an unchanged
mailbox, or what it requested is served. -/
def Spares (s s' : State n) (k : Call n) : Prop :=
  s.log <+: s'.log ∧ ∀ d, (s'.mailbox d = s.mailbox d ∧ (InFlight s k d → InFlight s' k d)) ∨
    (Requested k d → Genuine s' k d)

theorem Spares.honoured (h : Spares s s' k) (hr : Requested k c) (hk : Honoured s k c) : Honoured s' k c := by
  rcases h.2 c with ⟨_, hf⟩ | hg
  · exact hk.imp (·.mono h.1) hf
  · exact .inl (hg hr)

theorem Spares.owed (h : Spares s s' k) (hk : Owed s k) : Owed s' k where
  begun := hk.begun.trans h.1.length_le
  published c hc := h.honoured (.inr hc) (hk.published c hc)
  acknowledged c hc := (hk.acknowledged c hc).mono h.1

theorem Spares.here (h : Spares s s' k) (hk : HoldsAt s k k.pc)
    (hfill : ∀ c rest todo, k.pc = .fill c rest todo →
      s'.mailbox c = s.mailbox c ∧ s'.handler c = s.handler c) : HoldsAt s' k k.pc := by
  have hreq : ∀ c, k.pc.sending = some c → Requested k c := fun c h => .inl h
  cases hpc : k.pc with
  | fill c rest todo =>
    obtain ⟨hm, hh⟩ := hfill c rest todo hpc
    rw [hpc] at hk
    change Filling s' k c rest
    unfold Filling Shown
    rw [hm, hh]
    exact hk
  | send c todo =>
    rw [hpc] at hk hreq
    exact h.honoured (hreq c rfl) hk
  | cancel c =>
    rw [hpc] at hk hreq
    exact h.honoured (hreq c rfl) hk
  | poll_generation c todo =>
    rw [hpc] at hk
    obtain ⟨hp, hk⟩ := hk
    refine ⟨hp, ?_⟩
    rcases h.2 c with ⟨hm, hf⟩ | hg
    · rw [hm]
      exact hk.imp (·.mono h.1) (And.imp_left hf)
    · exact .inl (hg (.inr hp))
  | idle => trivial
  | ready =>
    rw [hpc] at hk
    exact hk
  | flush =>
    rw [hpc] at hk
    exact hk
  | publish todo => trivial
  | poll todo => trivial
  | returned result =>
    rw [hpc] at hk
    cases result <;> exact hk

/-- A step that leaves the calls where they are, and spares each of them. -/
theorem Inv.spared (I : Inv s) (hc : s'.call = s.call) (h : ∀ a, Spares s s' (s a))
    (hsteady : ∀ a, Steady s' (s a)) (hfill : ∀ a c rest todo, (s a).pc = .fill c rest todo →
      s'.mailbox c = s.mailbox c ∧ s'.handler c = s.handler c) : Inv s' := by
  refine ⟨fun a => ?_, fun a => ?_, ?_, ?_, ?_⟩
  · rw [hc]
    exact (h a).owed (I.owed a)
  · rw [hc]
    exact (h a).here (I.here a) (hfill a)
  · rwa [hc]
  · rw [hc]
    exact I.alone
  · rw [hc]
    exact fun a b c h1 h2 => (I.before a b c h1 h2).mono (h b).1

/-- The invariant does not look at what is loaded or at who is online, and only at the
identities and the roots of the spaces of running calls. -/
theorem Inv.congr (I : Inv s) (hm : s'.mailbox = s.mailbox) (hh : s'.handler = s.handler)
    (hc : s'.call = s.call) (hl : s'.log = s.log)
    (hs : ∀ a i, (s a).pc.running → (s a).space = some i →
      (s'.space i).identity = (s.space i).identity ∧
        ((s.space i).root_phys ≠ 0 → (s'.space i).root_phys = (s.space i).root_phys)) : Inv s' := by
  apply I.spared hc
  · exact fun a => ⟨hl ▸ prefix_refl _, fun d => .inl ⟨by rw [hm],
      fun h => h.congr (by rw [hm]) (by rw [hh])⟩⟩
  · intro a hr
    obtain ⟨hreq, hroot⟩ := I.steady a hr
    have hsame : current s' (s a) = current s (s a) := by
      funext f
      cases hk : (s a).space with
      | none => cases f <;> simp [current, hk]
      | some i =>
        obtain ⟨hid, hr'⟩ := hs a i hr hk
        simp only [current, hk, Option.elim, Option.isSome_some, forall_const] at hroot
        cases f <;> simp [current, hk, hid, hr' hroot]
    rw [hsame]
    exact ⟨hreq, hroot⟩
  · exact fun a c rest todo _ => ⟨by rw [hm], by rw [hh]⟩

/-! ## Steps of a handler -/

theorem mem_allFields (f : Field) : f ∈ allFields := by
  cases f <;> decide

/-- While a mailbox is filled, its handler is idle and it is not pending. -/
theorem Inv.filling (I : Inv s) (h : (s a).pc = .fill c rest todo) : Filling s (s a) c rest := by
  have := I.here a
  rw [h] at this
  exact this

theorem Inv.honoured (I : Inv s) (h : Requested (s a) c) : Honoured s (s a) c := by
  rcases h with h | h
  · have hat := I.here a
    cases hpc : (s a).pc <;> rw [hpc] at h hat <;> cases h <;> exact hat
  · exact (I.owed a).published c h

/-- A step at `c` that serves whoever waits there, while nobody fills the mailbox. -/
theorem Inv.servedAt (I : Inv s) (hc : s'.call = s.call)
    (hm : ∀ d, d ≠ c → s'.mailbox d = s.mailbox d) (hh : ∀ d, d ≠ c → s'.handler d = s.handler d)
    (hl : s.log <+: s'.log) (hsteady : ∀ a, Steady s' (s a)) (hbusy : s.handler c ≠ .idle)
    (hserve : ∀ a, InFlight s (s a) c → Genuine s' (s a) c) : Inv s' := by
  apply I.spared hc
  · intro a
    refine ⟨hl, fun d => ?_⟩
    by_cases hd : d = c
    · subst hd
      exact .inr fun h => (I.honoured h).elim (·.mono hl) (hserve a)
    · exact .inl ⟨hm d hd, fun h => h.congr (hm d hd) (hh d hd)⟩
  · exact hsteady
  · intro a d rest todo h
    have hd : d ≠ c := by
      rintro rfl
      exact hbusy (I.filling h).2.1
    exact ⟨hm d hd, hh d hd⟩

/-- The handler of `c` takes up, or goes on reading, what is in flight. -/
theorem Inv.reading (I : Inv s) {request : Request} (hfill : ∀ a rest todo, (s a).pc ≠ .fill c rest todo)
    (hread : ∀ a, InFlight s (s a) c → ∀ f ∉ rest, request f = (s a).request f) :
    Inv (s.setHandler c (.read rest request)) := by
  apply I.spared
  · rfl
  · refine fun a => ⟨prefix_refl _, fun d => .inl ⟨rfl, fun hf => ?_⟩⟩
    by_cases hd : d = c
    · subst hd
      obtain ⟨h1, h2, h3, _⟩ := id hf
      exact ⟨h1, h2, h3, .inr ⟨rest, request, State.setHandler_self _, hread a hf⟩⟩
    · exact hf.congr rfl (State.setHandler_other _ hd)
  · exact I.steady
  · intro a d rest' todo h
    have hd : d ≠ c := by
      rintro rfl
      exact hfill a rest' todo h
    exact ⟨rfl, State.setHandler_other _ hd⟩

theorem Inv.handler_step (I : Inv s) (c : Fin n) : Inv (handler_step s c) := by
  unfold smp.handler_step
  simp only
  split
  · split_ifs with hp
    · apply I.reading
      · intro a rest todo h
        rw [(I.filling h).1] at hp
        cases hp
      · intro a _ f hf
        exact absurd (mem_allFields f) hf
    · exact I
  · rename_i f rest request hh
    apply I.reading
    · intro a rest todo h
      have := (I.filling h).2.1
      rw [hh] at this
      cases this
    · rintro a ⟨_, hreq, _, h | ⟨rest', request', h, hr⟩⟩ g hg
      · rw [hh] at h
        cases h
      · rw [hh] at h
        cases h
        refine update_cases g (fun hgf => ?_) fun hgf => hr g (by simp [hgf, hg])
        rw [hgf, hreq]
  · rename_i request hh
    -- the flush serves what is in flight here, which has been read to its end
    refine I.servedAt (c := c) rfl (fun _ _ => rfl) (fun d hd => State.setHandler_other _ hd)
      (prefix_append ..) I.steady (by simp [hh]) ?_
    rintro a ⟨_, _, _, h | ⟨rest, request', h, hr⟩⟩
    · rw [hh] at h
      cases h
    · rw [hh] at h
      cases h
      obtain rfl : request = (s a).request := funext fun f => hr f (by simp)
      exact genuine_flush (I.owed a).begun
  -- once the request has been read, nothing is in flight here
  all_goals
    rename_i hh
    refine I.servedAt (c := c) rfl (fun d hd => State.setMailbox_other _ hd)
      (fun d hd => State.setHandler_other _ hd) (prefix_refl _) I.steady (by simp [hh]) ?_
    rintro a ⟨_, _, _, h | ⟨rest, request', h, _⟩⟩
    · rw [hh] at h
      cases h
    · rw [hh] at h
      cases h

/-! ## Steps of an initiator -/

/-- One call is replaced: the others must be fine where they are, the new one on its
own and beside the others. -/
theorem inv_setCall (hother : ∀ b, b ≠ a → Owed s (s b) ∧ HoldsAt s (s b) (s b).pc ∧ Steady s (s b))
    (hk : Owed s k) (hat : HoldsAt s k k.pc) (hsteady : Steady s k)
    (halone : ∀ b d c, b ≠ a → d ≠ a → (s b).pc.publishing = some c →
      (s d).pc.publishing = some c → b = d)
    (hbefore : ∀ b d c, b ≠ a → d ≠ a → (s b).pc.publishing = some c →
      (s d).published c → Genuine s (s d) c)
    (hpub : ∀ c, k.pc.publishing = some c → (∀ b, b ≠ a → (s b).pc.publishing ≠ some c) ∧
      (∀ b, b ≠ a → (s b).published c → Genuine s (s b) c) ∧
      (k.published c → Genuine s k c))
    (hreq : ∀ c b, b ≠ a → (s b).pc.publishing = some c → k.published c →
      Genuine s k c) : Inv (s.setCall a k) := by
  have hsame : ∀ l, Spares s (s.setCall a k) l :=
    fun l => ⟨prefix_refl _, fun d => .inl ⟨rfl, fun h => h⟩⟩
  refine ⟨fun b => ?_, fun b => ?_, fun b => ?_, fun b d c => ?_, fun b d c => ?_⟩
  · exact State.setCall_cases b (fun _ => (hsame k).owed hk) fun hb => (hsame _).owed (hother b hb).1
  · exact State.setCall_cases b (fun _ => (hsame k).here hat fun _ _ _ _ => ⟨rfl, rfl⟩) fun hb =>
      (hsame _).here (hother b hb).2.1 fun _ _ _ _ => ⟨rfl, rfl⟩
  · exact State.setCall_cases b (fun _ => hsteady) fun hb => (hother b hb).2.2
  · refine State.setCall_cases b (fun hb => ?_) fun hb => ?_
    · refine State.setCall_cases d (fun hd _ _ => hb.trans hd.symm) fun hd h1 h2 => ?_
      exact absurd h2 ((hpub c h1).1 d hd)
    · refine State.setCall_cases d (fun _ h1 h2 => ?_) fun hd => halone b d c hb hd
      exact absurd h1 ((hpub c h2).1 b hb)
  · refine State.setCall_cases b (fun _ => ?_) fun hb => ?_
    · exact State.setCall_cases d (fun _ h1 => (hpub c h1).2.2) fun hd h1 => (hpub c h1).2.1 d hd
    · exact State.setCall_cases d (fun _ => hreq c b hb) fun hd => hbefore b d c hb hd

theorem Inv.fine (I : Inv s) (b : Fin n) :
    Owed s (s b) ∧ HoldsAt s (s b) (s b).pc ∧ Steady s (s b) := ⟨I.owed b, I.here b, I.steady b⟩

/-- A call goes on with what it has published, without touching a mailbox. -/
theorem Inv.goOn (I : Inv s) (hk : Owed s k) (hat : HoldsAt s k k.pc) (hsteady : Steady s k)
    (hpub : ∀ c, k.pc.publishing = some c → (s a).pc.publishing = some c)
    (hsame : k.published = (s a).published)
    (hgen : ∀ c, Genuine s (s a) c → Genuine s k c) : Inv (s.setCall a k) := by
  refine inv_setCall (fun b _ => I.fine b) hk hat hsteady (fun b d c _ _ => I.alone b d c)
    (fun b d c _ _ => I.before b d c) ?_ ?_
  · intro c hc
    refine ⟨fun b hb h => hb (I.alone b a c h (hpub c hc)), fun b _ => I.before a b c (hpub c hc),
      fun hp => ?_⟩
    rw [hsame] at hp
    exact hgen c (I.before a a c (hpub c hc) hp)
  · intro c b hb h hp
    rw [hsame] at hp
    exact hgen c (I.before b a c h hp)

/-- What holds at a place does not depend on where the call is said to be. -/
theorem holdsAt_setPc (s : State n) (k : Call n) (pc pc' : Pc n) :
    HoldsAt s { k with pc := pc' } pc ↔ HoldsAt s k pc := by
  cases pc with
  | returned result => cases result <;> exact Iff.rfl
  | _ => exact Iff.rfl

theorem Owed.setPc (h : Owed s k) (pc : Pc n) : Owed s { k with pc := pc } :=
  ⟨h.begun, h.published, h.acknowledged⟩

/-- A call does not begin to run without its checks. -/
theorem Steady.setPc (h : Steady s k) (hr : pc.running → k.pc.running) :
    Steady s { k with pc := pc } := fun h' => h (hr h')

theorem of_marked {mask : Fin n → Bool} {d : Fin n} (h : update mask c true d) :
    d = c ∨ mask d := by
  by_cases hd : d = c
  · exact .inl hd
  · rw [update_of_ne hd] at h
    exact .inr h

section
variable (I : Inv s)
include I

/-- A call goes to a place where it publishes nothing, or goes on publishing. -/
theorem Inv.goTo (hpc : (s a).pc = pc') (hat : HoldsAt s (s a) pc)
    (hpub : pc.publishing = none ∨ pc.publishing = pc'.publishing)
    (hr : pc.running → pc'.running) : Inv (s.setPc a pc) := by
  subst hpc
  refine I.goOn ((I.owed a).setPc pc) ((holdsAt_setPc ..).mpr hat) ((I.steady a).setPc hr)
    (fun c hc => ?_) rfl fun _ h => h
  rcases hpub with h | h
  · rw [h] at hc
    cases hc
  · rwa [h] at hc

theorem Inv.wait (hpc : (s a).pc = pc) (hr : pc.running) (more : Bool) : Inv (wait s a more) := by
  unfold smp.wait complete
  split_ifs with h1 h2
  · apply I.goTo hpc _ (.inl rfl) fun _ => hr
    by_cases hall : ∀ c, (s a).target_mask c → (s a).acknowledged c
    · rw [decide_eq_true hall]
      exact hall
    · rw [decide_eq_false hall]
      trivial
  · exact I.goTo hpc trivial (.inl rfl) fun _ => hr
  · exact I.goTo hpc trivial (.inl rfl) fun _ => hr

/-- The others do not notice a call that has published nothing. -/
theorem Inv.newcomer (s' : State n) (hc : s'.call = s.call)
    (hm : s'.mailbox = s.mailbox) (hh : s'.handler = s.handler) (hs : s'.space = s.space)
    (hl : s.log <+: s'.log) (hsteady : Steady s' k)
    (hbegun : k.start ≤ s'.log.length) (hack : ∀ c, k.acknowledged c → Genuine s' k c)
    (hat : HoldsAt s' k k.pc) (hpub : k.pc.publishing = none) (hnone : ∀ c, k.published c = false) :
    Inv (s'.setCall a k) := by
  have hspare : ∀ b, Spares s s' (s b) := fun b => ⟨hl, fun d => .inl ⟨by rw [hm],
    fun h => h.congr (by rw [hm]) (by rw [hh])⟩⟩
  refine inv_setCall ?_ ⟨hbegun, fun c h => absurd h (by simp [hnone c]), hack⟩ hat hsteady ?_ ?_ ?_
    fun c b _ _ h => absurd h (by simp [hnone c])
  · intro b _
    rw [hc]
    refine ⟨(hspare b).owed (I.owed b), (hspare b).here (I.here b)
      fun _ _ _ _ => ⟨by rw [hm], by rw [hh]⟩, ?_⟩
    unfold Steady current
    rw [hs]
    exact I.steady b
  · rw [hc]
    exact fun b d c _ _ => I.alone b d c
  · rw [hc]
    exact fun b d c _ _ h1 h2 => (I.before b d c h1 h2).mono hl
  · intro c h
    rw [hpub] at h
    cases h

/-- A call that has not come to the mailboxes has published nothing. -/
theorem Inv.unpublished (hpc : (s a).pc = .ready ∨ (s a).pc = .flush) (c : Fin n) :
    (s a).published c = false ∧ (s a).acknowledged c = false := by
  have h := I.here a
  rcases hpc with hpc | hpc
  · rw [hpc] at h
    exact h c
  · rw [hpc] at h
    exact h c

/-- The call begins, and its space has a root. -/
theorem Inv.enter (hpc : (s a).pc = .ready)
    (hroot : ¬ ((s a).space.isSome ∧ current s (s a) .root = 0)) : Inv (enter s a) := by
  have hnone := I.unpublished (.inl hpc)
  have hsteady : current s { s a with pc := .flush, request := current s (s a), start := s.log.length } =
      current s (s a) := by
    funext f
    cases f <;> rfl
  refine I.newcomer s rfl rfl rfl rfl (prefix_refl _) (fun _ => ⟨hsteady, fun h h0 => hroot ⟨h, h0⟩⟩)
    le_rfl (fun c hc => ?_) hnone rfl fun c => (hnone c).1
  rw [(hnone c).2] at hc
  cases hc

/-- The CPU serves itself if it is a target. -/
theorem Inv.flush_self (hpc : (s a).pc = .flush) : Inv (flush_self s a) := by
  have hnone := I.unpublished (.inr hpc)
  have hr : (s a).pc.running := by
    rw [hpc]
    rfl
  unfold smp.flush_self
  simp only
  split_ifs with ht
  · rw [(I.steady a hr).1]
    refine I.newcomer (flush_loaded_address_space s a (s a).request) rfl rfl rfl rfl
      (prefix_append ..) (fun _ => I.steady a hr) ?_ (fun c hc => ?_) trivial rfl
      fun c => (hnone c).1
    · exact (I.owed a).begun.trans (prefix_append ..).length_le
    · rcases of_marked hc with rfl | hc
      · exact genuine_flush (I.owed c).begun
      · rw [(hnone c).2] at hc
        cases hc
  · exact I.goTo hpc trivial (.inl rfl) fun _ => rfl

/-- A call that has returned is forgotten. -/
theorem Inv.noCall (a : Fin n) : Inv (s.setCall a (noCall n)) := by
  refine I.newcomer s rfl rfl rfl rfl (prefix_refl _) (fun h => by cases h) (Nat.zero_le _) ?_
    trivial rfl fun _ => rfl
  intro c hc
  cases hc

/-- The publisher at `c` may do what it likes with the mailbox. -/
theorem Inv.goOnAt (hpc : (s a).pc.publishing = some c) (m : Mailbox)
    (hat : HoldsAt (s.setMailbox c m) (s a) pc)
    (hpub : pc.publishing = none ∨ pc.publishing = some c) : Inv ((s.setMailbox c m).setPc a pc) := by
  have hr : (s a).pc.running := by
    cases h : (s a).pc <;> rw [h] at hpc <;> first | rfl | cases hpc
  have hother : ∀ b, b ≠ a → (s b).pc.publishing ≠ some c :=
    fun b hb h => hb (I.alone b a c h hpc)
  -- those who published here before have been served
  have hspare : ∀ k : Call n, (Requested k c → Genuine s k c) → Spares s (s.setMailbox c m) k := by
    intro k hk
    refine ⟨prefix_refl _, fun d => ?_⟩
    by_cases hd : d = c
    · subst hd
      exact .inr hk
    · exact .inl ⟨State.setMailbox_other m hd, fun h => h.congr (State.setMailbox_other m hd) rfl⟩
  have howed : Owed (s.setMailbox c m) { s a with pc := .idle } := by
    refine (hspare _ ?_).owed ((I.owed a).setPc .idle)
    rintro (h | h)
    · cases h
    · exact I.before a a c hpc h
  refine inv_setCall (fun b hb => ?_) (howed.setPc pc) ((holdsAt_setPc ..).mpr hat)
    ((I.steady a).setPc fun _ => hr) (fun b d c _ _ => I.alone b d c)
    (fun b d c _ _ => I.before b d c) ?_ ?_
  · have hs : Spares s (s.setMailbox c m) (s b) := by
      apply hspare
      rintro (h | h)
      · exact absurd (Pc.publishing_of_sending h) (hother b hb)
      · exact I.before a b c hpc h
    refine ⟨hs.owed (I.owed b), hs.here (I.here b) fun d rest todo h => ?_, I.steady b⟩
    have hd : d ≠ c := by
      rintro rfl
      apply hother b hb
      rw [h]
      rfl
    exact ⟨State.setMailbox_other m hd, rfl⟩
  · intro d hd
    rcases hpub with h | h
    · rw [h] at hd
      cases hd
    · rw [h] at hd
      cases hd
      exact ⟨hother, fun b _ => I.before a b c hpc, I.before a a c hpc⟩
  · exact fun d b _ h hp => I.before b a d h hp

/-- The mailbox is free, and filling begins. -/
theorem Inv.startFill (hpc : (s a).pc = pc) (hr : pc.running) (hp : (s.mailbox c).pending_tlb_shootdown = false)
    (hf : free s a c) (todo : List (Fin n)) : Inv (s.setPc a (.fill c allFields todo)) := by
  obtain ⟨hothers, hidle, hshown⟩ := free_iff.mp hf
  -- with nothing pending, nothing is in flight
  have hserved : ∀ b, (s b).published c → Genuine s (s b) c := by
    intro b h
    rcases (I.owed b).published c h with hg | ⟨hn, _⟩
    · exact hg
    · rw [hp] at hn
      cases hn
  refine inv_setCall (fun b _ => I.fine b) ((I.owed a).setPc _) ?_
    ((I.steady a).setPc fun _ => hpc ▸ hr) (fun b d c _ _ => I.alone b d c)
    (fun b d c _ _ => I.before b d c) ?_ ?_
  · exact ⟨hp, hidle, hshown, fun f hf => absurd (mem_allFields f) hf⟩
  · intro d hd
    cases hd
    exact ⟨hothers, fun b _ => hserved b, hserved a⟩
  · exact fun d b _ h hp => I.before b a d h hp

/-- A field of the request is written. -/
theorem Inv.fillField {f : Field} (hpc : (s a).pc = .fill c (f :: rest) todo) :
    Inv ((s.setMailbox c ((s.mailbox c).setField f (current s (s a) f))).setPc
      a (.fill c rest todo)) := by
  rw [(I.steady a (by rw [hpc]; rfl)).1]
  obtain ⟨hp, hidle, hshown, hfields⟩ := I.filling hpc
  refine I.goOnAt (by rw [hpc]; rfl) _ ?_ (.inr rfl)
  change Filling _ _ _ _
  unfold Filling Shown
  rw [State.setMailbox_self]
  refine ⟨hp, hidle, hshown, fun g hg => ?_⟩
  by_cases hgf : g = f
  · subst hgf
    exact update_self ..
  · exact (update_of_ne hgf ..).trans (hfields g (by simp [hgf, hg]))

/-- The request is complete, and the mailbox becomes pending. -/
theorem Inv.post (hpc : (s a).pc = .fill c [] todo) :
    Inv ((s.setMailbox c ((s.mailbox c).setPending true)).setPc a (.send c todo)) := by
  obtain ⟨_, hidle, hshown, hfields⟩ := I.filling hpc
  refine I.goOnAt (by rw [hpc]; rfl) _ (.inr ?_) (.inr rfl)
  unfold InFlight Shown
  rw [State.setMailbox_self]
  exact ⟨rfl, funext fun f => hfields f (by simp), hshown, .inl hidle⟩

/-- The interrupt is sent, and the target counts as published. -/
theorem Inv.published (hpc : (s a).pc = .send c todo) : Inv (s.setCall a { s a with
      pc := .publish todo, published := update (s a).published c true }) := by
  have hat : Honoured s (s a) c := I.honoured (.inl (by rw [hpc]; rfl))
  refine inv_setCall (fun b _ => I.fine b)
    ⟨(I.owed a).begun, fun d hd => ?_, (I.owed a).acknowledged⟩ trivial
    (fun _ => I.steady a (by rw [hpc]; rfl)) (fun b d c _ _ => I.alone b d c) (fun b d c _ _ => I.before b d c) (fun d hd => by cases hd) ?_
  · rcases of_marked hd with rfl | hd
    · exact hat
    · exact (I.owed a).published d hd
  · intro d b hb h hd
    rcases of_marked hd with rfl | hd
    · exact absurd (I.alone b a d h (by rw [hpc]; rfl)) hb
    · exact I.before b a d h hd

/-- The generation matches too: then `c` has served the call, since a request in
flight is not shown as acknowledged. -/
theorem Inv.acknowledge (hpc : (s a).pc = .poll_generation c todo)
    (hg : (s.mailbox c).tlb_ack_generation = (s a).request .generation) :
    Inv (s.setCall a { s a with
      pc := .poll todo, acknowledged := update (s a).acknowledged c true }) := by
  have hserved : Genuine s (s a) c := by
    have hat := I.here a
    rw [hpc] at hat
    obtain ⟨_, h | ⟨⟨_, _, hn, _⟩, ht⟩⟩ := hat
    · exact h
    · exact absurd ⟨ht, hg⟩ hn
  refine I.goOn ⟨(I.owed a).begun, (I.owed a).published, fun d hd => ?_⟩ trivial
    (fun _ => I.steady a (by rw [hpc]; rfl)) (fun d hd => by cases hd) rfl fun _ h => h
  rcases of_marked hd with rfl | hd
  · exact hserved
  · exact (I.owed a).acknowledged d hd

theorem Inv.initiator_step {ok : Bool} (hg : guarded s (.initiator a ok))
    (h : initiator_step s a ok = some s') : Inv s' := by
  unfold smp.initiator_step at h
  simp only at h
  split at h
  · cases h
  · rename_i hpc
    split_ifs at h with hchecks <;> cases h
    · exact I.enter hpc hchecks.2.1
    · exact I.goTo hpc trivial (.inl rfl) id
  · rename_i hpc
    cases h
    exact I.flush_self hpc
  · rename_i hpc
    cases h
    exact I.wait hpc rfl true
  · rename_i c todo hpc
    split_ifs at h with htarget honline hp hok <;> cases h
    · exact I.goTo hpc trivial (.inl rfl) fun _ => rfl
    · exact I
    · exact I.goTo hpc trivial (.inl rfl) fun _ => rfl
    · rw [not_or, not_not] at htarget
      rw [Bool.not_eq_true] at hp
      simp only [guarded, hpc, htarget.1, htarget.2, honline, hp, beq_eq_false_iff_ne.mpr, ne_eq,
        not_false_eq_true, Bool.not_true, Bool.false_or] at hg
      exact I.startFill hpc rfl hp hg todo
    · exact I.goTo hpc trivial (.inl rfl) fun _ => rfl
  · rename_i hpc
    cases h
    exact I.fillField hpc
  · rename_i hpc
    cases h
    exact I.post hpc
  · rename_i c todo hpc
    split_ifs at h <;> cases h
    · exact I.published hpc
    · exact I.goTo hpc (I.honoured (.inl (by rw [hpc]; rfl))) (.inr rfl) fun _ => rfl
  · rename_i c hpc
    cases h
    exact I.goOnAt (by rw [hpc]; rfl) _ trivial (.inl rfl)
  · rename_i hpc
    cases h
    exact I.wait hpc rfl ok
  · rename_i c todo hpc
    split_ifs at h with hseen <;> cases h
    · obtain ⟨hp, _, ht⟩ := hseen
      refine I.goTo hpc ⟨hp, ?_⟩ (.inl rfl) fun _ => rfl
      exact ((I.owed a).published c hp).imp id fun hf => ⟨hf, ht⟩
    · exact I.goTo hpc trivial (.inl rfl) fun _ => rfl
  · rename_i c todo hpc
    split_ifs at h with hgen <;> cases h
    · exact I.acknowledge hpc hgen
    · exact I.goTo hpc trivial (.inl rfl) fun _ => rfl
  · cases h
    exact I.noCall a

/-- A call that is about to be made. -/
theorem Inv.newCall (space : Option Nat) (request : Request) (mask : Fin n → Bool) :
    Inv (s.setCall a (newCall space request mask)) := by
  unfold smp.newCall
  split_ifs
  · refine I.newcomer s rfl rfl rfl rfl (prefix_refl _) (fun h => by cases h) (Nat.zero_le _) ?_
      (fun _ => ⟨rfl, rfl⟩) rfl fun _ => rfl
    intro c hc
    cases hc
  · exact I.noCall a

/-- A space that no running call is for is set up anew. -/
theorem Inv.reset {i : Nat} (hi : unused s i) (root : BitVec 64) :
    Inv (address_space_reset s i root) := by
  have hother : ∀ b j, (s b).pc.running → (s b).space = some j → j ≠ i := by
    rintro b j hr hj rfl
    exact of_decide_eq_true hi b hr hj
  unfold address_space_reset allocate_identity
  simp only
  split_ifs
  all_goals
    refine I.congr rfl rfl rfl rfl fun b j hr hj => ?_
    simp only [update_of_ne (hother b j hr hj), implies_true, and_self]

/-- A change of a space that keeps its identity, and its root if it has one. -/
theorem Inv.setSpace (s' : State n) (hm : s'.mailbox = s.mailbox) (hh : s'.handler = s.handler)
    (hc : s'.call = s.call) (hl : s'.log = s.log) {i : Nat} {space : AddressSpace n}
    (hs : s'.space = update s.space i space) (hid : space.identity = (s.space i).identity)
    (hroot : (s.space i).root_phys ≠ 0 → space.root_phys = (s.space i).root_phys) : Inv s' := by
  refine I.congr hm hh hc hl fun _ j _ _ => ?_
  rw [hs]
  refine update_cases j ?_ fun _ => ⟨rfl, fun _ => rfl⟩
  rintro rfl
  exact ⟨hid, hroot⟩

theorem step_inv {l : Label n} (hg : guarded s l) (h : step s l = some s') : Inv s' := by
  cases l <;> simp only [step] at h
  case initiator => exact I.initiator_step hg h
  case begin a i address pages full_flush =>
    split at h <;> cases h
    exact (I.newCall (a := a) (some i) _ (s.space i).cached_cpu_mask).setSpace _ rfl rfl rfl rfl rfl
      rfl fun _ => rfl
  case begin_kernel a address pages =>
    split at h
    · split_ifs at h <;> cases h
      · exact I
      · exact (I.newCall (a := a) none _ s.online).congr rfl rfl rfl rfl
          fun _ _ _ _ => ⟨rfl, fun _ => rfl⟩
    · cases h
  all_goals cases h
  case activate_kernel | bring_online =>
    exact I.congr rfl rfl rfl rfl fun _ _ _ _ => ⟨rfl, fun _ => rfl⟩
  case init i => exact I.reset hg 0
  case recycle i => exact I.reset hg _
  case handler c => exact I.handler_step c
  case ensure_root i created =>
    unfold address_space_ensure_root
    split_ifs with h0
    · exact I.setSpace _ rfl rfl rfl rfl rfl rfl fun h => absurd h0 h
    · exact I
  case activate c i =>
    unfold address_space_activate
    simp only
    split_ifs
    · exact I.congr rfl rfl rfl rfl fun _ _ _ _ => ⟨rfl, fun _ => rfl⟩
    · exact I.setSpace _ rfl rfl rfl rfl rfl rfl fun _ => rfl

end

/-! ## The law -/

/-- In every run in which initiators find the mailboxes free, a call that returns 1
has been served by each of its targets since it began. -/
theorem acknowledgements_are_genuine {s : State n}
    (h : (machine n).ReachedBy (fun s l => guarded s l = true) s) (a : Fin n)
    (hret : (s.call a).pc = .returned true) (c : Fin n) (hc : (s.call a).target_mask c = true) :
    Genuine s (s.call a) c := by
  have I : Inv s := by
    apply h.inv
    · rintro _ rfl
      exact inv_boot n
    · exact fun s l s' I hg hst => step_inv I hg hst
  have hall := I.here a
  rw [hret] at hall
  exact (I.owed a).acknowledged c (hall c hc)

/-! ## Two CPUs and two spaces -/

/-- The result of a call that has returned. -/
def Pc.result : Pc n → Option Bool
  | .returned result => some result
  | _ => none

theorem Pc.returned_of_result {r : Bool} (h : pc.result = some r) : pc = .returned r := by
  cases pc <;> cases h
  rfl

end

/-- CPU 1 has had space 0 loaded, and has space 1 loaded now. -/
def twoSpaces : List (Label 2) :=
  [.bring_online 0, .bring_online 1, .init 0, .ensure_root 0 0x1000, .init 1, .ensure_root 1 0x2000,
    .activate 1 0, .activate 1 1]

/-- CPU 0 asks for one page of a space, up to where it starts to wait. -/
def asks (space : Nat) : List (Label 2) :=
  .begin 0 space 0x400000 1 false :: replicate 14 (.initiator 0 true)

/-- CPU 1 handles a request. -/
def handles : List (Label 2) := replicate 12 (.handler 1)

/-- CPU 0 sees the acknowledgement and returns. -/
def sees : List (Label 2) := replicate 4 (.initiator 0 true)

theorem a_call_that_is_handled_is_genuine :
    ∃ s : State 2, (machine 2).ReachedBy (fun s l => guarded s l = true) s ∧
      (s.call 0).pc = .returned true ∧ (s.call 0).target_mask 1 = true ∧ Genuine s (s.call 0) 1 := by
  obtain ⟨s, hreach, h1, h2⟩ : ∃ s : State 2, (machine 2).ReachedBy (fun s l => guarded s l = true) s ∧
      (s 0).pc.result = some true ∧ (s 0).target_mask 1 :=
    Machine.exists_reachedBy (.start rfl) (twoSpaces ++ asks 1 ++ handles ++ sees) (by decide +kernel)
  exact ⟨s, hreach, Pc.returned_of_result h1, h2,
    acknowledgements_are_genuine hreach 0 (Pc.returned_of_result h1) 1 h2⟩

/-- CPU 0 asks for space 0 and is served; its call for space 1 then has the same token
and generation, and takes the old acknowledgement of CPU 1 for its own. CPU 1 has space 1
loaded and has flushed nothing since the call began. -/
theorem an_old_acknowledgement_can_be_taken_for_a_new_one :
    ∃ s : State 2, (machine 2).Reachable s ∧ (s.call 0).pc = .returned true ∧
      (s.call 0).target_mask 1 = true ∧
      (s.loaded 1).identity = (s.call 0).request .identity ∧
      (s.loaded 1).root = (s.call 0).request .root ∧ ¬ Genuine s (s.call 0) 1 := by
  obtain ⟨s, hreach, h1, h2, h3, h4, h5⟩ : ∃ s : State 2, (machine 2).Reachable s ∧
      (s 0).pc.result = some true ∧ (s 0).target_mask 1 ∧
      (s.loaded 1).identity = (s 0).request .identity ∧
      (s.loaded 1).root = (s 0).request .root ∧ (s.log.drop (s 0).start).length = 0 :=
    Machine.exists_reachable (.start rfl)
      (twoSpaces ++ asks 0 ++ handles ++ sees ++ [.initiator 0 true] ++ asks 1 ++ sees) (by decide +kernel)
  refine ⟨s, hreach, Pc.returned_of_result h1, h2, h3, h4, ?_⟩
  rintro ⟨e, he, -⟩
  rw [length_eq_zero_iff.mp h5] at he
  cases he

end mini_kernel.smp
