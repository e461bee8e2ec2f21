-- The laws of damage that comes in parts (user/programs/windowd_c.c): what another client
-- sends leaves a transaction alone, unless it is a COMMIT, and is answered as if there were
-- no transaction, unless it is a BEGIN. So the parts of a transaction have the outcome they
-- have without the others in between.
import MiniKernel.Lib.Word
import MiniKernel.Window.SenderLaws

open mini_kernel.lib mini_kernel.os64 List

namespace mini_kernel.windowd

open WindowDamageTransaction

/-! ## Identities -/

variable {left right : OsProcessIdentity}

theorem identity_equal_eq (h : identity_equal left right) : left = right := by
  simp only [identity_equal, Bool.and_eq_true, decide_eq_true_eq] at h
  obtain ⟨⟨⟨-, hpid⟩, -⟩, hgeneration⟩ := h
  cases left
  cases right
  cases hpid
  cases hgeneration
  rfl

theorem identity_equal_ne (h : left ≠ right) : identity_equal left right = false :=
  Bool.eq_false_iff.mpr fun heq => h (identity_equal_eq heq)

variable {transaction : WindowDamageTransaction} {client : OsProcessIdentity}

theorem not_belongs_of_ne (h : client ≠ transaction.sender) : transaction.belongs client = false := by
  simp only [belongs, identity_equal_ne h, Bool.and_false]

/-! ## The messages that reach the transaction of another client -/

/-- What was sent to a client. -/
def State.sent_to (s : State) (client : OsProcessIdentity) : List Sent :=
  s.sent.filter fun sent => decide (sent.target = client)

/-- A COMMIT of the right length without handles. -/
def commits (message : Message) : Bool :=
  is_request message && decide (message.payload 2 = OS_WINDOW_DAMAGE_COMMIT) &&
    plain message SIZE_DAMAGE_COMMIT

/-- A BEGIN that passes its checks. -/
def begins (message : Message) (s : State) : Bool :=
  is_request message && decide (message.payload 2 = OS_WINDOW_DAMAGE_BEGIN) &&
    plain message SIZE_DAMAGE_BEGIN && (begin_target message s).1.isOk

variable {s : State}

theorem no_query_of_length {message : Message} (h : message.length ≠ SIZE_SERVICE_QUERY) (s : State) :
    handle_service_query message s = none := by
  unfold handle_service_query
  rw [if_pos (.inr (.inl h))]

/-- A query of the service's health is answered without a look at the state. -/
theorem service_query_alike (message : Message) : (∀ s, handle_service_query message s = none) ∨
    ∃ sent, ∀ s, handle_service_query message s = some (s.send sent) := by
  unfold handle_service_query
  split
  · exact .inl fun _ => rfl
  split
  · exact .inl fun _ => rfl
  · exact .inr ⟨_, fun _ => rfl⟩

variable {sender : OsProcessIdentity} {d : Daemon} {id generation : U32}

variable (failure : Failure)

section
variable {screen : Screen} {answers : Answers} {message : Message} {s : State}

theorem is_request_type (h : is_request message) : message.type = .request := by
  simp only [is_request, Bool.and_eq_true, decide_eq_true_eq] at h
  exact h.1

theorem plain_length {size : U32} (h : plain message size) : message.length = size := by
  simp only [plain, Bool.and_eq_true, decide_eq_true_eq] at h
  exact h.1

/-- What `handle_message` does with a request about damage in parts. -/
theorem handle_message_request (hr : is_request message)
    (hq : ∀ s, handle_service_query message s = none) : handle_message screen answers message d =
      if message.payload 2 = OS_WINDOW_DAMAGE_BEGIN then handle_damage_begin answers message d
      else if message.payload 2 = OS_WINDOW_DAMAGE_RECTS then handle_damage_rects message d
      else if message.payload 2 = OS_WINDOW_DAMAGE_COMMIT then
        handle_damage_commit screen answers message d
      else d.put (handle_request screen answers message d.state) := by
  unfold handle_message
  rw [hq]
  simp [is_request_type hr, hr]

theorem handle_message_commit (h : commits message) :
    plain message SIZE_DAMAGE_COMMIT ∧
      handle_message screen answers message d = handle_damage_commit screen answers message d := by
  simp only [commits, Bool.and_eq_true, decide_eq_true_eq] at h
  obtain ⟨⟨hr, hc⟩, hp⟩ := h
  refine ⟨hp, ?_⟩
  rw [handle_message_request hr (no_query_of_length (by rw [plain_length hp]; decide)), hc,
    if_neg (by decide), if_neg (by decide), if_pos rfl]

theorem commits_clears (h : commits message) :
    (handle_message screen answers message d).transaction = .clear := by
  obtain ⟨hp, hhandled⟩ := handle_message_commit h
  rw [hhandled]
  unfold handle_damage_commit
  simp only [hp, Bool.not_true, Bool.false_eq_true, if_false]
  split <;> rfl

/-- A part of a client who has no transaction is answered, and nothing else happens. -/
theorem reject_part_alike (h : transaction.belongs message.sender = false) :
    reject_part message failure ⟨s, transaction⟩ =
      ⟨reply_about s message.sender message.request_id OS_WINDOW_DAMAGE (.error failure) none,
        transaction⟩ := by
  simp [reject_part, h, Daemon.put]

/-- The failure that a chunk of a client has who has no transaction. -/
theorem rects_valid_alike (message : Message) :
    ∃ failure, ∀ transaction : WindowDamageTransaction, transaction.belongs message.sender = false →
      rects_valid message transaction = .error failure := by
  unfold rects_valid
  dsimp only
  cases window_protocol_validate_damage_rects (read_damage_rects message.payload) with
  | error failure => exact ⟨failure, fun _ _ => rfl⟩
  | ok =>
    refine ⟨OS_ERR_INVALID_ARGUMENT, fun transaction h => ?_⟩
    simp [h]

/-- The failure that a COMMIT of a client has who has no transaction. -/
theorem commit_valid_alike (message : Message) :
    ∃ failure, ∀ transaction : WindowDamageTransaction, transaction.belongs message.sender = false →
      commit_valid message transaction = .error failure := by
  unfold commit_valid
  dsimp only
  cases window_protocol_validate_damage_commit (read_damage_commit message.payload) with
  | error failure => exact ⟨failure, fun _ _ => rfl⟩
  | ok =>
    refine ⟨OS_ERR_INVALID_ARGUMENT, fun transaction h => ?_⟩
    simp [h]

variable (screen answers)

/-- A message that does not reach the transactions of others is handled in the same way,
whatever transaction another client has. -/
theorem handled_alike (hcommit : commits message = false) (hbegin : begins message s = false) :
    ∃ s', ∀ transaction : WindowDamageTransaction, transaction.belongs message.sender = false →
      handle_message screen answers message ⟨s, transaction⟩ = ⟨s', transaction⟩ := by
  unfold handle_message
  dsimp only
  split
  · exact ⟨_, fun _ _ => rfl⟩
  split
  · exact ⟨_, fun _ _ => rfl⟩
  split
  · exact ⟨_, fun _ _ => rfl⟩
  rename_i hr
  have hr : is_request message := by simpa using hr
  split
  · rename_i hc
    unfold handle_damage_begin
    dsimp only [Daemon.put]
    split
    · exact ⟨_, fun _ _ => rfl⟩
    rename_i hp
    split
    · exact ⟨_, fun _ _ => rfl⟩
    · rename_i htarget
      have hp : plain message SIZE_DAMAGE_BEGIN := by simpa using hp
      simp [begins, hr, hc, hp, htarget, Except.isOk, Except.toBool] at hbegin
  · split
    · unfold handle_damage_rects
      dsimp only
      split
      · exact ⟨_, fun transaction h => reject_part_alike _ h⟩
      · obtain ⟨failure, hf⟩ := rects_valid_alike message
        refine ⟨reply_about s message.sender message.request_id OS_WINDOW_DAMAGE (.error failure) none,
          fun transaction h => ?_⟩
        rw [hf transaction h]
        exact reject_part_alike _ h
    · split
      · rename_i hc
        unfold handle_damage_commit
        dsimp only [Daemon.put]
        split
        · exact ⟨_, fun transaction h => reject_part_alike _ h⟩
        · rename_i hp
          have hp : plain message SIZE_DAMAGE_COMMIT := by simpa using hp
          simp [commits, hr, hc, hp] at hcommit
      · exact ⟨_, fun _ _ => rfl⟩

theorem checked_ok {valid : Outcome} {id : U32} (h : checked message valid id = .ok ()) :
    valid = .ok () ∧ id ≠ 0 ∧ id = message.request_id := by
  unfold checked at h
  split at h
  · cases h
  split at h
  · rename_i hm
    simp only [request_matches, Bool.and_eq_true, decide_eq_true_eq] at hm
    exact ⟨rfl, hm.1, hm.2⟩
  · cases h

/-- Whoever may have a window is a process that can be answered. -/
theorem target_sender {table : WindowTable}
    {found : Option Slot} (h : window_state_validate_target table sender id generation = (.ok (), found)) :
    sender.pid ≠ 0 ∧ sender.generation ≠ 0 := by
  obtain ⟨slot, -, -, howner⟩ := validate_target_ok h
  simp only [identity_equal, Bool.and_eq_true, decide_eq_true_eq] at howner
  obtain ⟨⟨⟨hpid, hpid'⟩, hgeneration⟩, hgeneration'⟩ := howner
  exact ⟨hpid' ▸ hpid, hgeneration' ▸ hgeneration⟩

section
variable (h : begins message s)
include h

theorem begins_parts : is_request message ∧ message.payload 2 = OS_WINDOW_DAMAGE_BEGIN ∧
      plain message SIZE_DAMAGE_BEGIN ∧ ∃ entry, begin_target message s = (.ok (), entry) := by
  simp only [begins, Bool.and_eq_true, decide_eq_true_eq] at h
  obtain ⟨⟨⟨hr, hc⟩, hp⟩, htarget⟩ := h
  refine ⟨hr, hc, hp, (begin_target message s).2, ?_⟩
  cases hresult : begin_target message s with
  | mk result entry =>
    rw [hresult] at htarget
    cases result with
    | error failure => cases htarget
    | ok => rfl

theorem begins_handled (transaction : WindowDamageTransaction) :
    handle_message screen answers message ⟨s, transaction⟩ =
      handle_damage_begin answers message ⟨s, transaction⟩ := by
  obtain ⟨hr, hc, hp, -, -⟩ := begins_parts h
  rw [handle_message_request hr (no_query_of_length (by rw [plain_length hp]; decide)), if_pos hc]

/-- A BEGIN that passes its checks is answered if there is a transaction. -/
theorem begins_refused (hactive : transaction.active) :
    ∃ reply, (handle_message screen answers message ⟨s, transaction⟩).state =
      s.send (.reply message.sender reply) := by
  rw [begins_handled screen answers h]
  obtain ⟨-, -, hp, entry, htarget⟩ := begins_parts h
  obtain ⟨hchecked, hcontent⟩ := target_of_ok htarget
  obtain ⟨-, hid, -⟩ := checked_ok hchecked
  obtain ⟨hpid, hgeneration⟩ := target_sender (validate_content_ok hcontent)
  unfold handle_damage_begin
  simp only [hp, htarget, hactive, Bool.not_true, Bool.false_eq_true, if_false, if_true, Daemon.put]
  unfold reply_about send_window_reply
  rw [if_neg]
  · exact ⟨_, rfl⟩
  · simp only [hpid, hgeneration, hid, or_self, not_false_eq_true]

/-- Without a transaction nothing is sent. -/
theorem begins_accepted : (handle_message screen answers message ⟨s, .clear⟩).state = s := by
  rw [begins_handled screen answers h]
  obtain ⟨-, -, hp, entry, htarget⟩ := begins_parts h
  unfold handle_damage_begin
  simp [hp, htarget, clear]

end

/-- An answer that does not know of transactions: the transaction of the other client stays,
and the sender gets what they get whatever transaction others have. -/
def Undisturbed (screen : Screen) (answers : Answers) (message : Message) (d : Daemon) : Prop :=
  (handle_message screen answers message d).transaction = d.transaction ∧
    ∀ other : WindowDamageTransaction, other.belongs message.sender = false →
      (handle_message screen answers message ⟨d.state, other⟩).state.sent_to message.sender =
        (handle_message screen answers message d).state.sent_to message.sender

/-- Of all that another client can send, a COMMIT ends the transaction, and a BEGIN tells that
there is one. -/
theorem undisturbed_iff (hactive : d.transaction.active)
    (hsender : message.sender ≠ d.transaction.sender) : Undisturbed screen answers message d ↔
      commits message = false ∧ begins message d.state = false := by
  have hother := not_belongs_of_ne hsender
  constructor
  · rintro ⟨hkept, hsent⟩
    refine ⟨Bool.eq_false_iff.mpr fun hcommit => ?_, Bool.eq_false_iff.mpr fun hbegin => ?_⟩
    · rw [commits_clears hcommit] at hkept
      rw [← hkept] at hactive
      cases hactive
    · obtain ⟨reply, hreply⟩ := begins_refused screen answers hbegin hactive
      have hsame := hsent .clear rfl
      rw [begins_accepted screen answers hbegin, hreply] at hsame
      have hlength := congrArg length hsame
      simp [State.sent_to, State.send, Sent.target] at hlength
  · rintro ⟨hcommit, hbegin⟩
    obtain ⟨s', halike⟩ := handled_alike screen answers hcommit hbegin
    have hself : handle_message screen answers message d = ⟨s', d.transaction⟩ := halike _ hother
    refine ⟨by rw [hself], fun other h => ?_⟩
    rw [hself, halike other h]

end

/-! ## The transaction of one client -/

/-- The transaction that a client has. -/
def Daemon.held_by (d : Daemon) (client : OsProcessIdentity) : Option WindowDamageTransaction :=
  if d.transaction.belongs client then some d.transaction else none

variable {d d' : Daemon} {client : OsProcessIdentity} {slot : Slot}

theorem held_by_some (h : d.held_by client = some transaction) :
    d.transaction = transaction ∧ transaction.active ∧ transaction.sender = client := by
  unfold Daemon.held_by at h
  split at h
  · rename_i hb
    cases h
    simp only [belongs, Bool.and_eq_true] at hb
    exact ⟨rfl, hb.1, (identity_equal_eq hb.2).symm⟩
  · cases h

theorem held_by_none (h : d.transaction.belongs client = false) : d.held_by client = none := by
  simp [Daemon.held_by, h]

/-- What a client finds the same in `d'` as in `d`: its transaction, its window and the
replies it has got. -/
structure Alike (client : OsProcessIdentity) (slot : Slot) (d d' : Daemon) : Prop where
  held : d'.held_by client = d.held_by client
  window : (d.state.table.entries slot).SameWindow (d'.state.table.entries slot)
  replies : d'.state.replies_to client = d.state.replies_to client

theorem Alike.refl (client : OsProcessIdentity) (slot : Slot) (d : Daemon) : Alike client slot d d :=
  ⟨rfl, .refl _, rfl⟩

theorem Alike.trans {d'' : Daemon}
    (h : Alike client slot d d') (h' : Alike client slot d' d'') : Alike client slot d d'' :=
  ⟨h'.held.trans h.held, h.window.trans h'.window, h'.replies.trans h.replies⟩

/-- The client owns the window in the slot. -/
def Daemon.owns (d : Daemon) (client : OsProcessIdentity) (slot : Slot) : Prop :=
  (d.state.table.entries slot).active ∧
    identity_equal (d.state.table.entries slot).owner client

theorem Daemon.owns.alike (h : d.owns client slot) (ha : Alike client slot d d') : d'.owns client slot := by
  refine ⟨?_, ?_⟩
  · rw [ha.window.active]
    exact h.1
  · rw [ha.window.owner]
    exact h.2

theorem Daemon.owns.foreign
    (h : d.owns client slot) (hne : sender ≠ client) : (d.state.table.entries slot).foreign sender := by
  refine ⟨h.1, ?_⟩
  rw [identity_equal_eq h.2]
  exact identity_equal_ne hne.symm

/-- What is polite to the client leaves it alike, as long as the transaction stays. -/
theorem Polite.alike
    (h : Polite sender d.state d'.state) (hne : sender ≠ client) (howns : d.owns client slot)
    (hheld : d'.held_by client = d.held_by client) : Alike client slot d d' :=
  ⟨hheld, h.spares slot (howns.foreign hne), h.silent client hne.symm⟩

/-! ## Messages of others -/

section
variable {screen : Screen} {answers : Answers} {message : Message} {client : OsProcessIdentity}
  {slot : Slot} {d : Daemon}

theorem Polite.service_query {s s' : State} (h : handle_service_query message s = some s') :
    Polite message.sender s s' := by
  unfold handle_service_query at h
  split at h
  · cases h
  · split at h
    · cases h
    · cases h
      exact .send _ (.inr rfl)

section
variable (hne : message.sender ≠ client) (howns : d.owns client slot)
include hne howns

theorem alike_put (h : Polite message.sender d.state s) : Alike client slot d (d.put s) :=
  Polite.alike h hne howns rfl

/-- A part that fails ends only the transaction of its sender. -/
theorem alike_reject_part : Alike client slot d (reject_part message failure d) := by
  unfold reject_part
  split
  · rename_i hb
    simp only [belongs, Bool.and_eq_true] at hb
    have hsender := identity_equal_eq hb.2
    unfold reject_active_damage
    simp only [hb.1, Bool.not_true, Bool.false_eq_true, if_false]
    refine Polite.alike ?_ hne howns ?_
    · rw [← hsender]
      exact .replied
    · rw [held_by_none rfl, held_by_none (not_belongs_of_ne (hsender ▸ hne.symm))]
  · exact alike_put hne howns (.replied)

/-- The handles of such a part are closed first. -/
theorem alike_refuse_part :
    Alike client slot d (reject_part message failure (d.put (d.state.close_handles message))) := by
  have hclosed : Alike client slot d (d.put (d.state.close_handles message)) :=
    alike_put hne howns (.same rfl rfl)
  exact hclosed.trans (alike_reject_part _ hne (howns.alike hclosed))

theorem alike_damage_begin : Alike client slot d (handle_damage_begin answers message d) := by
  unfold handle_damage_begin
  split
  · exact alike_put hne howns (polite_refuse _)
  dsimp only
  split
  · exact alike_put hne howns (.replied)
  split
  · exact alike_put hne howns (.replied)
  · rename_i hinactive
    refine Polite.alike .refl hne howns ?_
    rw [held_by_none, held_by_none]
    · simpa [belongs] using fun h => absurd h hinactive
    · exact not_belongs_of_ne hne.symm

end

/-- The same transaction, with more rectangles. -/
structure WindowDamageTransaction.SameAim (t t' : WindowDamageTransaction) : Prop where
  active : t'.active = t.active
  sender : t'.sender = t.sender
  window_id : t'.window_id = t.window_id
  window_generation : t'.window_generation = t.window_generation
  started_ticks : t'.started_ticks = t.started_ticks

theorem receive_same_aim (transaction : WindowDamageTransaction) (request : OsWindowDamageRectsRequest) :
    transaction.SameAim (transaction.receive request) := by
  unfold receive
  dsimp only
  have hstored : ∀ t : WindowDamageTransaction, transaction.SameAim t →
      transaction.SameAim { t with next_chunk := t.next_chunk + 1 } :=
    fun _ h => ⟨h.active, h.sender, h.window_id, h.window_generation, h.started_ticks⟩
  -- each rectangle of the chunk keeps it, so all of them do
  exact hstored _ (foldlRecOn _ _ ⟨rfl, rfl, rfl, rfl, rfl⟩ fun _ h _ _ =>
    ⟨h.active, h.sender, h.window_id, h.window_generation, h.started_ticks⟩)

theorem rects_valid_belongs
    (h : rects_valid message transaction = .ok ()) : transaction.belongs message.sender := by
  by_contra hb
  obtain ⟨failure, hf⟩ := rects_valid_alike message
  rw [hf transaction (Bool.eq_false_iff.mpr hb)] at h
  cases h

theorem WindowDamageTransaction.SameAim.belongs {t t' : WindowDamageTransaction} (h : t.SameAim t')
    (client : OsProcessIdentity) : t'.belongs client = t.belongs client := by
  simp only [WindowDamageTransaction.belongs, h.active, h.sender]

/-- A transaction has one owner. -/
theorem belongs_one {a b : OsProcessIdentity}
    (ha : transaction.belongs a) (hne : a ≠ b) : transaction.belongs b = false := by
  simp only [belongs, Bool.and_eq_true] at ha
  apply not_belongs_of_ne
  rw [← identity_equal_eq ha.2]
  exact hne.symm

theorem alike_damage_rects (hne : message.sender ≠ client) (howns : d.owns client slot) :
    Alike client slot d (handle_damage_rects message d) := by
  unfold handle_damage_rects
  split
  · exact alike_refuse_part _ hne howns
  split
  · exact alike_reject_part _ hne howns
  rename_i hvalid
  have hother := belongs_one (rects_valid_belongs hvalid) hne
  refine Polite.alike .refl hne howns ?_
  rw [held_by_none hother, held_by_none]
  rw [(receive_same_aim _ _).belongs]
  exact hother

/-- No message of another client reaches the transaction, but for a COMMIT. -/
theorem alike_message (hne : message.sender ≠ client) (howns : d.owns client slot)
    (hcommit : commits message = false) : Alike client slot d (handle_message screen answers message d) := by
  unfold handle_message
  split
  · rename_i hquery
    exact alike_put hne howns (.service_query hquery)
  split
  · exact alike_put hne howns .input_event
  split
  · exact alike_put hne howns (polite_reject_message _)
  rename_i hr
  split
  · exact alike_damage_begin hne howns
  split
  · exact alike_damage_rects hne howns
  split
  · rename_i hc
    have hr : is_request message := by simpa using hr
    have hp : plain message SIZE_DAMAGE_COMMIT = false := by
      simpa [commits, hr, hc] using hcommit
    unfold handle_damage_commit
    rw [hp, Bool.not_false, if_pos rfl]
    exact alike_refuse_part _ hne howns
  · exact alike_put hne howns .request

/-- A COMMIT accepts damage of the sender's own windows only. -/
theorem Polite.committed (h : commits message) :
    Polite message.sender d.state (handle_message screen answers message d).state := by
  obtain ⟨hp, hhandled⟩ := handle_message_commit h
  rw [hhandled]
  unfold handle_damage_commit
  simp only [hp, Bool.not_true, Bool.false_eq_true, if_false]
  split
  · rename_i slot htarget
    refine .reply_about ?_
    exact polite_accept_damage
      (not_foreign_of_target (validate_content_ok (target_of_ok htarget).2)) rfl
  · exact .replied

end

/-! ## Deadlines -/

section
variable {screen : Screen} {client : OsProcessIdentity} {slot : Slot} {d : Daemon}

theorem Daemon.owns.nobody (h : d.owns client slot) : (⟨0, 0⟩ : OsProcessIdentity) ≠ client := by
  have howner := h.2
  simp only [identity_equal, Bool.and_eq_true, decide_eq_true_eq] at howner
  obtain ⟨⟨⟨hpid, hpid'⟩, -⟩, -⟩ := howner
  intro heq
  rw [hpid', ← heq] at hpid
  exact hpid rfl

/-- What is polite to everybody. -/
theorem alike_of_polite (howns : d.owns client slot)
    (h : ∀ sender, Polite sender d.state s) : Alike client slot d (d.put s) :=
  Polite.alike (h ⟨0, 0⟩) howns.nobody howns rfl

theorem destroy_entry_other (screen : Screen) (s : State) {gone : Slot} (h : slot ≠ gone) :
    (destroy_entry screen gone s).table.entries slot = s.table.entries slot ∧
      (destroy_entry screen gone s).sent = s.sent := by
  unfold destroy_entry
  dsimp only
  split
  · exact ⟨rfl, rfl⟩
  refine ⟨?_, rfl⟩
  show (window_state_destroy s.table gone).entries slot = _
  unfold window_state_destroy
  dsimp only
  split
  · rfl
  · exact Function.update_of_ne h _ _

theorem alike_cleanup_turn {answers : Answers} (halive : answers.alive client)
    (howns : d.owns client slot) (removed : Nat) (gone : Slot) :
    Alike client slot d (cleanup_turn screen answers (removed, d) gone).2 := by
  unfold cleanup_turn
  dsimp only
  split
  · rename_i hdead
    simp only [Bool.and_eq_true, Bool.not_eq_true'] at hdead
    have hclient : (d.state.table.entries gone).owner ≠ client := by
      intro heq
      rw [heq, halive] at hdead
      exact absurd hdead.2 (by simp)
    have hslot : slot ≠ gone := by
      rintro rfl
      exact hclient (identity_equal_eq howns.2)
    obtain ⟨hentry, hsent⟩ := destroy_entry_other screen d.state hslot
    refine ⟨?_, ?_, ?_⟩
    · split
      · rename_i hcleared
        simp only [Bool.and_eq_true] at hcleared
        rw [held_by_none rfl, held_by_none]
        apply not_belongs_of_ne
        rw [identity_equal_eq hcleared.2]
        exact hclient.symm
      · rfl
    · rw [hentry]
      exact .refl _
    · simp only [State.replies_to, hsent]
  · exact .refl _ _ _

theorem alike_cleanup {answers : Answers} (halive : answers.alive client)
    (howns : d.owns client slot) : Alike client slot d (cleanup_dead_owners screen answers d) := by
  have hall := foldlRecOn (motive := fun found : Nat × Daemon => Alike client slot d found.2)
    (finRange OS_WINDOW_MAX_WINDOWS) (cleanup_turn screen answers) (b := (0, d)) (.refl _ _ _)
    fun found h gone _ => h.trans (alike_cleanup_turn halive (howns.alike h) found.1 gone)
  unfold cleanup_dead_owners
  dsimp only
  split
  · exact hall
  refine hall.trans (alike_of_polite (howns.alike hall) fun sender => ?_)
  unfold after_removal
  dsimp only
  refine Polite.trans ?_ (.reconcile _ _)
  split
  · exact .same rfl rfl
  · exact .present_or_retry _

theorem service_display_keeps (answers : DeadlineAnswers) (s : State) :
    OnlyDisplay s (service_display screen answers s) := by
  have hshow : ∀ s : State, OnlyDisplay s (show_pending screen answers s) := by
    intro s
    unfold show_pending
    dsimp only
    split
    · exact onlyDisplay_put _ _
    · split <;> exact onlyDisplay_put _ _
  unfold service_display
  split
  · split
    · exact onlyDisplay_put _ _
    · refine OnlyDisplay.trans ?_ (hshow _)
      exact onlyDisplay_put _ _
  · exact hshow s

/-- The deadlines leave the transaction of a client alone who is alive and not late. -/
theorem alike_deadlines {answers : DeadlineAnswers} (halive : answers.cleanup.alive client)
    (howns : d.owns client slot) (hlate : ∀ transaction, d.held_by client = some transaction →
      transaction.late answers.ticks = false) : Alike client slot d (service_deadlines screen answers d) := by
  have hclean : Alike client slot d (cleanup_dead_owners screen answers.cleanup d) :=
    alike_cleanup halive howns
  unfold service_deadlines
  dsimp only
  generalize cleanup_dead_owners screen answers.cleanup d = cleaned at hclean
  have hserved : ∀ d' : Daemon, Alike client slot d d' →
      Alike client slot d (d'.put (service_display screen answers d'.state)) := by
    intro d' h
    exact h.trans (alike_of_polite (howns.alike h) fun _ => (service_display_keeps answers _).polite)
  apply hserved
  split
  · rename_i hover
    have hactive : cleaned.transaction.active := by
      simp only [late, Bool.and_eq_true] at hover
      exact hover.1
    -- the transaction that is late is not the client's
    have hother : cleaned.transaction.belongs client = false := by
      by_contra hb
      have hb : cleaned.transaction.belongs client := by simpa using hb
      have hheld : cleaned.held_by client = some cleaned.transaction := by
        simp [Daemon.held_by, hb]
      rw [hclean.held] at hheld
      rw [hlate _ hheld] at hover
      cases hover
    have hsender : cleaned.transaction.sender ≠ client := by
      intro heq
      have howner := identity_equal_eq howns.2
      have hself := howns.2
      rw [howner] at hself
      simp [belongs, hactive, heq, hself] at hother
    refine hclean.trans ?_
    unfold reject_active_damage
    rw [hactive, Bool.not_true, if_neg (by simp)]
    refine Polite.alike (.replied) hsender (howns.alike hclean) ?_
    rw [held_by_none rfl, held_by_none hother]
  · exact hclean

end

/-! ## The parts of the client -/

/-- The transaction of the client is about its window. -/
def Daemon.aims (d : Daemon) (client : OsProcessIdentity) (slot : Slot) : Prop :=
  ∀ transaction, d.held_by client = some transaction →
    window_state_find d.state.table transaction.window_id transaction.window_generation = some slot

theorem find_same {table table' : WindowTable} {slot : Slot}
    (h : window_state_find table id generation = some slot)
    (hs : (table.entries slot).SameWindow (table'.entries slot)) :
    window_state_find table' id generation = some slot := by
  unfold window_state_find at h ⊢
  split at h
  · rename_i hid
    rw [dif_pos hid]
    dsimp only at h ⊢
    split at h
    · rename_i hentry
      cases h
      rw [hs.active, hs.window_generation, if_pos hentry]
    · cases h
  · cases h

section
variable {message : Message} {slot : Slot} {client : OsProcessIdentity} {d : Daemon}
  {id operation : U32}

/-- The reply that a client gets about a window depends on that window only. -/
theorem replies_same {s s' : State}
    {result : Outcome} {entry : Option Slot} (hr : s'.replies_to client = s.replies_to client)
    (hw : ∀ slot, entry = some slot → (s.table.entries slot).SameWindow (s'.table.entries slot)) :
    (reply_about s' client id operation result entry).replies_to client =
      (reply_about s client id operation result entry).replies_to client := by
  have hsame : ∀ field : WindowEntry → U32,
      (∀ e e' : WindowEntry, e.SameWindow e' → field e' = field e) →
      (entry.elim 0 fun slot => field (s'.table.entries slot)) =
        entry.elim 0 fun slot => field (s.table.entries slot) := by
    intro field hfield
    cases entry with
    | none => rfl
    | some slot => exact hfield _ _ (hw slot rfl)
  unfold reply_about
  rw [hsame WindowEntry.window_id fun _ _ h => h.window_id,
    hsame WindowEntry.window_generation fun _ _ h => h.window_generation,
    hsame WindowEntry.accepted_content_generation fun _ _ h => h.content]
  unfold send_window_reply
  split
  · exact hr
  · simp only [State.replies_to, State.send, Sent.target, decide_true, filter_cons_of_pos,
      cons.injEq, true_and]
    exact hr

theorem reply_about_table {target : OsProcessIdentity} {result : Outcome} {entry : Option Slot} :
    (reply_about s target id operation result entry).table = s.table := by
  unfold reply_about send_window_reply
  split <;> rfl

theorem reject_part_table (d : Daemon) :
    (reject_part message failure d).state.table = d.state.table := by
  unfold reject_part reject_active_damage
  dsimp only [Daemon.put]
  split
  · split
    · rfl
    · exact reply_about_table
  · exact reply_about_table

theorem reject_part_held (d : Daemon) :
    (reject_part message failure d).held_by message.sender = none := by
  unfold reject_part reject_active_damage
  split
  · rename_i hb
    have hactive : d.transaction.active := by
      simp only [belongs, Bool.and_eq_true] at hb
      exact hb.1
    simp only [hactive, Bool.not_true, Bool.false_eq_true, if_false]
    exact held_by_none rfl
  · rename_i hb
    have hb : d.transaction.belongs message.sender = false := by simpa using hb
    exact held_by_none hb

theorem belongs_iff_held : d.transaction.belongs client = (d.held_by client).isSome := by
  unfold Daemon.held_by
  split <;> simp_all

theorem Alike.belongs (h : Alike client slot d d') :
    d'.transaction.belongs client = d.transaction.belongs client := by
  rw [belongs_iff_held, belongs_iff_held, h.held]

theorem held_eq (h : d.transaction.belongs client) : d.held_by client = some d.transaction := by
  simp [Daemon.held_by, h]

/-- A failed part of the client is answered alike in two states that are alike. -/
theorem Alike.reject_part {d' : Daemon} (h : Alike message.sender slot d d') (failure : Failure)
    (haims : d.aims message.sender slot) :
    Alike message.sender slot (reject_part message failure d) (reject_part message failure d') := by
  refine ⟨by rw [reject_part_held, reject_part_held], ?_, ?_⟩
  · rw [reject_part_table, reject_part_table]
    exact h.window
  · unfold windowd.reject_part
    rw [h.belongs]
    split
    · rename_i hbelongs
      have htransaction : d'.transaction = d.transaction := by
        have hheld := h.held
        rw [held_eq hbelongs, held_eq (h.belongs.trans hbelongs)] at hheld
        exact Option.some.inj hheld
      obtain ⟨-, hactive, hsender⟩ := held_by_some (held_eq hbelongs)
      have hfound := haims _ (held_eq hbelongs)
      unfold reject_active_damage
      rw [htransaction, hactive, Bool.not_true, if_neg (by simp), if_neg (by simp), hsender,
        hfound, find_same hfound h.window]
      refine replies_same h.replies fun other hother => ?_
      cases hother
      exact h.window
    · exact replies_same h.replies fun _ hnone => nomatch hnone

/-- The parts of the client do the same in two states that are alike. -/
theorem Alike.damage_rects {d' : Daemon} (h : Alike message.sender slot d d')
    (haims : d.aims message.sender slot) :
    Alike message.sender slot (handle_damage_rects message d) (handle_damage_rects message d') := by
  unfold handle_damage_rects
  split
  · have hclosed : Alike message.sender slot (d.put (d.state.close_handles message))
        (d'.put (d'.state.close_handles message)) := ⟨h.held, h.window, h.replies⟩
    exact hclosed.reject_part _ haims
  cases hb : d.transaction.belongs message.sender with
  | false =>
    obtain ⟨failure, hf⟩ := rects_valid_alike message
    rw [hf _ hb, hf _ (h.belongs.trans hb)]
    exact h.reject_part _ haims
  | true =>
    have hheld : d'.held_by message.sender = some d.transaction := h.held.trans (held_eq hb)
    have htransaction := (held_by_some hheld).1
    rw [htransaction]
    split
    · exact h.reject_part _ haims
    · refine ⟨?_, h.window, h.replies⟩
      have hnext := (receive_same_aim d.transaction (read_damage_rects message.payload)).belongs
        message.sender
      simp [Daemon.held_by, hnext, hb]

/-- A chunk keeps the aim and the start of the transaction. -/
theorem damage_rects_keeps
    (h : (handle_damage_rects message d).held_by message.sender = some transaction) :
    ∃ before, d.held_by message.sender = some before ∧ before.SameAim transaction := by
  unfold handle_damage_rects at h
  split at h
  · rw [reject_part_held] at h
    cases h
  split at h
  · rw [reject_part_held] at h
    cases h
  · rename_i hvalid
    refine ⟨d.transaction, held_eq (rects_valid_belongs hvalid), ?_⟩
    rw [← (held_by_some h).1]
    exact receive_same_aim _ _

theorem damage_rects_table (d : Daemon) : (handle_damage_rects message d).state.table = d.state.table := by
  unfold handle_damage_rects
  split
  · rw [reject_part_table]
    rfl
  · split
    · rw [reject_part_table]
    · rfl

end

/-! ## Runs -/

/-- What may happen between the parts of a client's transaction: chunks of the client, any
message of others but a COMMIT, and deadlines while the client is alive and in time. -/
def in_between (client : OsProcessIdentity) (transaction : WindowDamageTransaction) : Label → Bool
  | .message message _ _ _ =>
    if message.sender = client then
      is_request message && decide (message.payload 2 = OS_WINDOW_DAMAGE_RECTS)
    else !commits message
  | .deadlines answers => answers.cleanup.alive client && !transaction.late answers.ticks

def sent_by (client : OsProcessIdentity) : Label → Bool
  | .message message _ _ _ => decide (message.sender = client)
  | .deadlines _ => false

/-- The client has its window, and its transaction, if it still has it, is about that window
and began when it began. -/
structure Standing (client : OsProcessIdentity) (slot : Slot) (started : U32) (d : Daemon) : Prop where
  owns : d.owns client slot
  aims : d.aims client slot
  started : ∀ transaction, d.held_by client = some transaction → transaction.started_ticks = started

variable {d d' : Daemon}

theorem Standing.alike {slot : Slot} {started : U32}
    (hs : Standing client slot started d) (h : Alike client slot d d') : Standing client slot started d' := by
  refine ⟨hs.owns.alike h, fun transaction hheld => ?_, fun transaction hheld => ?_⟩
  · rw [h.held] at hheld
    exact find_same (hs.aims _ hheld) h.window
  · rw [h.held] at hheld
    exact hs.started _ hheld

section
variable {screen : Screen} {client : OsProcessIdentity} {slot : Slot} {first : WindowDamageTransaction}

/-- Another's step leaves the client alike. -/
theorem alike_other {label : Label} (hactive : first.active)
    (hs : Standing client slot first.started_ticks d) (hb : in_between client first label)
    (hother : sent_by client label = false) : Alike client slot d (serve screen d label) := by
  cases label with
  | message message objects memory answers =>
    have hne : message.sender ≠ client := by simpa [sent_by] using hother
    have hcommit : commits message = false := by simpa [in_between, hne] using hb
    have hdelivered : Alike client slot d (d.put (d.state.deliver message objects memory)) :=
      alike_put hne hs.owns (.same rfl rfl)
    exact hdelivered.trans (alike_message hne (hs.owns.alike hdelivered) hcommit)
  | deadlines answers =>
    simp only [in_between, Bool.and_eq_true, Bool.not_eq_true'] at hb
    refine alike_deadlines hb.1 hs.owns fun transaction hheld => ?_
    have hlate := hb.2
    simp only [late, hactive, (held_by_some hheld).2.1,
      hs.started _ hheld] at hlate ⊢
    exact hlate

variable (screen) in
/-- A chunk of the client does the same in both states, and the client stands as before. -/
theorem alike_own {label : Label} (h : Alike client slot d d')
    (hs : Standing client slot first.started_ticks d) (hb : in_between client first label)
    (hown : sent_by client label) :
    Alike client slot (serve screen d label) (serve screen d' label) ∧
      Standing client slot first.started_ticks (serve screen d label) := by
  cases label with
  | deadlines answers => cases hown
  | message message objects memory answers =>
    have hsender : message.sender = client := by simpa [sent_by] using hown
    subst hsender
    simp only [in_between, if_true, Bool.and_eq_true, decide_eq_true_eq] at hb
    obtain ⟨hr, hc⟩ := hb
    have hdelivered : Alike message.sender slot (d.put (d.state.deliver message objects memory))
        (d'.put (d'.state.deliver message objects memory)) := ⟨h.held, h.window, h.replies⟩
    rcases service_query_alike message with hq | ⟨sent, hq⟩
    case inr =>
      -- such a chunk is as short as a query, and is taken for one
      unfold serve handle_message
      dsimp only
      rw [hq, hq]
      refine ⟨⟨h.held, h.window, ?_⟩, hs.owns, hs.aims, hs.started⟩
      have hreplies : filter _ d'.state.sent = filter _ d.state.sent := h.replies
      simp only [Daemon.put, State.deliver, State.replies_to, State.send, filter_cons, hreplies]
    have hserve : ∀ d : Daemon, serve screen d (.message message objects memory answers) =
        handle_damage_rects message (d.put (d.state.deliver message objects memory)) := by
      intro d
      unfold serve
      dsimp only
      rw [handle_message_request hr hq, hc, if_neg (by decide), if_pos rfl]
    rw [hserve, hserve]
    refine ⟨hdelivered.damage_rects hs.aims, ?_, ?_, ?_⟩
    · unfold Daemon.owns
      rw [damage_rects_table]
      exact hs.owns
    · intro transaction hheld
      obtain ⟨before, hbefore, haim⟩ := damage_rects_keeps hheld
      rw [damage_rects_table, haim.window_id, haim.window_generation]
      exact hs.aims before hbefore
    · intro transaction hheld
      obtain ⟨before, hbefore, haim⟩ := damage_rects_keeps hheld
      rw [haim.started_ticks]
      exact hs.started before hbefore

variable (screen) in
/-- Over a whole run the client is served as if the others were not there. -/
theorem alike_run (hactive : first.active) (labels : List Label)
    (hb : ∀ label ∈ labels, in_between client first label) :
    ∀ d d' : Daemon, Alike client slot d d' → Standing client slot first.started_ticks d →
      Alike client slot ((labels.filter (sent_by client)).foldl (serve screen) d)
          (labels.foldl (serve screen) d') ∧ Standing client slot first.started_ticks
          ((labels.filter (sent_by client)).foldl (serve screen) d) := by
  induction labels with
  | nil => exact fun _ _ h hs => ⟨h, hs⟩
  | cons label labels ih =>
    intro d d' h hs
    have hlabel := hb label (mem_cons_self ..)
    have hrest := ih (forall_mem_cons.mp hb).2
    cases hown : sent_by client label with
    | true =>
      rw [filter_cons_of_pos hown, foldl_cons, foldl_cons]
      have hnext := alike_own screen h hs hlabel hown
      exact hrest _ _ hnext.1 hnext.2
    | false =>
      rw [filter_cons_of_neg (by simp [hown]), foldl_cons]
      exact hrest _ _ (h.trans (alike_other hactive (hs.alike h) hlabel hown)) hs

/-- A COMMIT of the client passes the same checks in two states that are alike. -/
theorem Alike.commit_target (h : Alike client slot d d') (haims : d.aims client slot)
    {message : Message} (hsender : message.sender = client) :
    commit_target message d' = commit_target message d := by
  subst hsender
  unfold windowd.commit_target
  cases hb : d.transaction.belongs message.sender with
  | true =>
    have hheld : d'.held_by message.sender = some d.transaction := h.held.trans (held_eq hb)
    have hfound := haims _ (held_eq hb)
    rw [(held_by_some hheld).1]
    unfold window_state_validate_content window_state_validate_target
    rw [hfound, find_same hfound h.window]
    dsimp only
    rw [h.window.owner]
    cases identity_equal (d.state.table.entries slot).owner message.sender with
    | true => simp only [if_true, h.window.content]
    | false => rfl
  | false =>
    obtain ⟨failure, hf⟩ := commit_valid_alike message
    rw [hf _ hb, hf _ (h.belongs.trans hb)]
    rfl

/-- The message is handled, with any answers. -/
def Label.carries (message : Message) : Label → Prop
  | .message carried _ _ _ => carried = message
  | .deadlines _ => False

variable (screen) in
/-- The message is a COMMIT that passes its checks, and the frame with its damage is shown. -/
def accepts (d : Daemon) : Label → Bool
  | .message message objects memory answers =>
    let s := d.state.deliver message objects memory
    commits message && match commit_target message d with
    | (.ok (), some slot) =>
      (accept_damage screen answers slot d.transaction.content_generation
        (add_rects screen (s.table.entries slot) s.display.screen_damage d.transaction.received) s).1.isOk
    | _ => false
  | .deadlines _ => false

theorem accept_damage_ok {answers : Answers} {content : U32} {s s' : State}
    {damaged : Except Failure WindowDamageAccumulator}
    (h : accept_damage screen answers slot content damaged s = (.ok (), s')) :
    s'.sent = s.sent ∧ s'.table = window_state_commit_content s.table slot content := by
  unfold accept_damage at h
  split at h
  · cases h
  dsimp only at h
  split at h
  · cases h
  · rename_i hframe
    cases h
    have hkeeps := compose_keeps hframe
    exact ⟨hkeeps.sent, congrArg (window_state_commit_content · slot content) hkeeps.table⟩

/-- What an accepted COMMIT does, but for the display. -/
theorem accepts_does {message : Message} {label : Label} (hl : label.carries message)
    (h : accepts screen d label) :
    ∃ slot s, commit_target message d = (.ok (), some slot) ∧ s.sent = d.state.sent ∧
      s.table = window_state_commit_content d.state.table slot d.transaction.content_generation ∧
      serve screen d label =
        ⟨reply_about s message.sender (commit_request_id message d.transaction) OS_WINDOW_DAMAGE
          (.ok ()) (some slot), .clear⟩ := by
  cases label with
  | deadlines answers => cases hl
  | message message objects memory answers =>
    cases hl
    simp only [accepts, Bool.and_eq_true] at h
    obtain ⟨hp, hhandled⟩ : _ ∧ handle_message screen answers message
        (d.put (d.state.deliver message objects memory)) = _ := handle_message_commit h.1
    have hshown := h.2
    split at hshown
    · rename_i slot htarget
      generalize haccept : accept_damage screen answers slot _ _ _ = accepted at hshown
      obtain ⟨_ | _, s⟩ := accepted
      · cases hshown
      obtain ⟨hsent, htable⟩ := accept_damage_ok haccept
      refine ⟨slot, s, htarget, hsent, htable, hhandled.trans ?_⟩
      have htarget' : commit_target message (d.put (d.state.deliver message objects memory)) = _ := htarget
      unfold handle_damage_commit
      simp only [hp, Bool.not_true, Bool.false_eq_true, if_false, htarget']
      simp only [Daemon.put, haccept]
    · cases hshown

/-- A COMMIT of the client that is accepted in two states that are alike has the same reply,
and the same content of the window. -/
theorem Alike.accepts {message : Message} {label label' : Label} (hl : label.carries message)
    (hl' : label'.carries message) (h : Alike message.sender slot d d')
    (haims : d.aims message.sender slot) (ha : windowd.accepts screen d label)
    (ha' : windowd.accepts screen d' label') :
    Alike message.sender slot (serve screen d label) (serve screen d' label') := by
  obtain ⟨found, s, htarget, hsent, htable, hdoes⟩ := accepts_does hl ha
  obtain ⟨found', s', htarget', hsent', htable', hdoes'⟩ := accepts_does hl' ha'
  rw [h.commit_target haims rfl, htarget] at htarget'
  cases htarget'
  -- the client has the transaction in both states, and it is about the window
  obtain ⟨hvalid, hcontent⟩ := target_of_ok htarget
  have hb : d.transaction.belongs message.sender := by
    by_contra hb
    obtain ⟨failure, hf⟩ := commit_valid_alike message
    rw [hf _ (Bool.eq_false_iff.mpr hb)] at hvalid
    cases hvalid
  obtain ⟨_, hsome, hfound, -⟩ := validate_target_ok (validate_content_ok hcontent)
  cases hsome
  cases hfound.symm.trans (haims _ (held_eq hb))
  have htransaction := (held_by_some (h.held.trans (held_eq hb))).1
  have hactive := find_active hfound
  have hwindow : (s.table.entries slot).SameWindow (s'.table.entries slot) := by
    rw [htable, htable', htransaction]
    unfold window_state_commit_content
    rw [if_pos hactive, if_pos (h.window.active.trans hactive)]
    simp only [WindowTable.set, Function.update_self]
    exact ⟨h.window.active, h.window.window_id, h.window.window_generation, rfl, h.window.owner⟩
  rw [hdoes, hdoes', htransaction]
  refine ⟨by rw [held_by_none rfl, held_by_none rfl], ?_, replies_same ?_ ?_⟩
  · rw [reply_about_table, reply_about_table]
    exact hwindow
  · unfold State.replies_to
    rw [hsent, hsent']
    exact h.replies
  · rintro _ ⟨⟩
    exact hwindow

end

/-- A message of another client leaves a transaction alone and tells nothing of it, unless it
is a COMMIT without handles or a BEGIN that passes its checks. As long as no COMMIT of others
comes in between, the chunks and the COMMIT of a client have the outcome that they have
without all the others, whatever those send: the COMMIT passes the same checks, and where it is
accepted in both runs, the reply and the content of the window are the same. -/
theorem transactions_are_left_alone (screen : Screen) :
    (∀ (answers : Answers) (message : Message) (d : Daemon), d.transaction.active = true →
      message.sender ≠ d.transaction.sender →
      (Undisturbed screen answers message d ↔
        commits message = false ∧ begins message d.state = false)) ∧
    ∀ (client : OsProcessIdentity) (slot : Slot) (d : Daemon) (labels : List Label),
      d.transaction.belongs client = true →
      window_state_find d.state.table d.transaction.window_id d.transaction.window_generation = some slot →
      identity_equal (d.state.table.entries slot).owner client = true →
      (∀ label ∈ labels, in_between client d.transaction label = true) →
      let together := labels.foldl (serve screen) d
      let alone := (labels.filter (sent_by client)).foldl (serve screen) d
      together.held_by client = alone.held_by client ∧
        together.state.replies_to client = alone.state.replies_to client ∧
        ∀ message : Message, message.sender = client →
          commit_target message together = commit_target message alone ∧
          ∀ label label', label.carries message → label'.carries message →
            accepts screen together label = true → accepts screen alone label' = true →
            let together := serve screen together label
            let alone := serve screen alone label'
            together.state.replies_to client = alone.state.replies_to client ∧
              (together.state.table.entries slot).accepted_content_generation =
                (alone.state.table.entries slot).accepted_content_generation := by
  refine ⟨fun answers message d hactive hsender => undisturbed_iff screen answers hactive hsender, ?_⟩
  intro client slot d labels hbelongs hfound howner hb
  have hheld := held_eq hbelongs
  have hactive := (held_by_some hheld).2.1
  have hstanding : Standing client slot d.transaction.started_ticks d := by
    refine ⟨⟨find_active hfound, howner⟩, fun transaction h => ?_, fun transaction h => ?_⟩
    · rw [← (held_by_some h).1]
      exact hfound
    · rw [← (held_by_some h).1]
  obtain ⟨halike, hstands⟩ := alike_run screen hactive labels hb d d (.refl _ _ _) hstanding
  refine ⟨halike.held, halike.replies, fun message hsender => ?_⟩
  subst hsender
  refine ⟨halike.commit_target hstands.aims rfl, fun label label' hl hl' ha ha' => ?_⟩
  have hdone := halike.accepts hl' hl hstands.aims ha' ha
  exact ⟨hdone.replies, hdone.window.content⟩

/-! ## Two clients -/

/-- A small screen, and two clients. -/
def desk : Screen :=
  { width := 64, height := 48, stride_pixels := 64, format := 0, wide := by decide, high := by decide
    rows := by decide, fits := by decide }

def editor : OsProcessIdentity := ⟨10, 1⟩
def viewer : OsProcessIdentity := ⟨11, 1⟩

/-- A request with the words of its payload. -/
def request_of (sender : OsProcessIdentity) (id : U32) (words : List U32) : Message :=
  { sender := sender, type := .request, flags := 0, length := BitVec.ofNat 32 (4 * words.length)
    request_id := id, reply_to := 0, handle_count := 0, handles := fun _ => 0
    payload := fun i => words.getD i 0 }

/-- The same with a surface. -/
def with_handle (message : Message) (handle : Nat) : Message :=
  { message with flags := OS_IPC_FLAG_HAS_HANDLES, handle_count := 1, handles := fun _ => handle }

/-- A display service that takes every frame, and a session with the number 1. -/
def desk_session : SessionAnswers :=
  { display := .ok ⟨2, 1⟩, current := some ⟨true, 1, ⟨2, 1⟩⟩, snapshot := 6, snapshot_object := 60
    acquired := .ok 1, map := ⟨0x2000, fun _ => 0⟩, info := some ⟨64, 48, 64, 0⟩ }

/-- Everything goes well, with the number that the display accepts. -/
def desk_answers (accepted : U32) : Answers :=
  { session_owner := none, input_service := none, alive := fun _ => true, ticks := 0
    surface_info := some ⟨8, 8, 8, 0⟩, surface_map := ⟨0x1000, fun _ => 0⟩
    session := desk_session
    frame := { session := desk_session, present := { display := .ok ⟨2, 1⟩, reply := .ok accepted } }
    released := .ok () }

def desk_start : Daemon := init desk ⟨2, 1⟩ 1 (fun _ _ => 0) fun _ => 0

/-- The message is handled with these answers. -/
def hears (message : Message) (accepted : U32) : Label :=
  .message message (fun handle => handle) (fun _ _ => 0) (desk_answers accepted)

/-- The editor creates a window and begins to report damage of it. -/
def editor_begins : List Label :=
  [hears (with_handle (request_of editor 7 [40, 1, OS_WINDOW_CREATE, 0, 7, 1, 8, 8, 8, 0]) 5) 1,
    hears (request_of editor 8 [44, 1, OS_WINDOW_DAMAGE_BEGIN, 0, 8, 1, 1, 2, 3, 1, 1]) 2]

def viewer_commits : Message := request_of viewer 9 [28, 1, OS_WINDOW_DAMAGE_COMMIT, 0, 9, 1, 0]

/-- A COMMIT of the viewer, who has no window, ends the transaction of the editor, and the
answer to the viewer has the number of the editor's request. -/
theorem a_stranger_ends_the_transaction :
    ∃ d : Daemon, (machine desk).Reachable d ∧ arrives d (hears viewer_commits 2) = true ∧
      (d.transaction.active, d.transaction.sender, d.transaction.request_id) = (true, editor, 8) ∧
      (serve desk d (hears viewer_commits 2)).transaction.active = false ∧
      (serve desk d (hears viewer_commits 2)).state.sent_to viewer =
        [.reply viewer ⟨OS_ERR_INVALID_ARGUMENT.val, 8, OS_WINDOW_DAMAGE, 0, 0, 0⟩] :=
  Machine.exists_reachable (s := desk_start) (.start ⟨_, _, _, _, rfl⟩) editor_begins (by decide +kernel)

/-- A chunk of rectangles, for the transaction that the editor has begun. -/
def rects_of (sender : OsProcessIdentity) : Message :=
  request_of sender 8 [96, 1, OS_WINDOW_DAMAGE_RECTS, 0, 8, 3, 0, 1, 0, 0, 4, 4, 0, 0, 0, 0, 0, 0, 0, 0, 0,
    0, 0, 0]

def editor_commits : Message := request_of editor 8 [28, 1, OS_WINDOW_DAMAGE_COMMIT, 0, 8, 3, 0]

/-- The viewer sends the chunk that the editor is about to send: the viewer is refused, and the
editor is served as if the viewer were not there, with the same reply to the COMMIT. -/
theorem a_chunk_of_a_stranger_changes_nothing :
    ∃ d : Daemon, (machine desk).Reachable d ∧ d.transaction.belongs editor = true ∧
      Undisturbed desk (desk_answers 2) (rects_of viewer) d ∧
      let together := [hears (rects_of viewer) 2, hears (rects_of editor) 2].foldl (serve desk) d
      let alone := [hears (rects_of editor) 2].foldl (serve desk) d
      together.held_by editor = alone.held_by editor ∧
        (serve desk together (hears editor_commits 2)).state.replies_to editor =
          (serve desk alone (hears editor_commits 2)).state.replies_to editor := by
  obtain ⟨d, hd, hbelongs, hactive, hsender, hbegins, hwindow, htogether, halone⟩ : ∃ d : Daemon,
      (machine desk).Reachable d ∧
      d.transaction.belongs editor ∧ d.transaction.active ∧ d.transaction.sender = editor ∧
      begins (rects_of viewer) d.state = false ∧
      (window_state_find d.state.table d.transaction.window_id d.transaction.window_generation).map
        (fun slot => identity_equal (d.state.table.entries slot).owner editor) = some true ∧
      accepts desk ([hears (rects_of viewer) 2, hears (rects_of editor) 2].foldl (serve desk) d)
        (hears editor_commits 2) ∧
      accepts desk ([hears (rects_of editor) 2].foldl (serve desk) d) (hears editor_commits 2) :=
    Machine.exists_reachable (s := desk_start) (.start ⟨_, _, _, _, rfl⟩) editor_begins (by decide +kernel)
  obtain ⟨slot, hfound, howner⟩ := Option.map_eq_some_iff.mp hwindow
  obtain ⟨hmessage, hrunning⟩ := transactions_are_left_alone desk
  have hviewer : (rects_of viewer).sender ≠ d.transaction.sender := by
    rw [hsender]
    decide
  refine ⟨d, hd, hbelongs,
    (hmessage _ _ d hactive hviewer).mpr ⟨by decide, hbegins⟩, ?_⟩
  obtain ⟨hheld, -, hcommit⟩ := hrunning editor slot d
    [hears (rects_of viewer) 2, hears (rects_of editor) 2] hbelongs hfound howner fun label hlabel => by
      simp only [mem_cons, not_mem_nil, or_false] at hlabel
      rcases hlabel with rfl | rfl <;> rfl
  have hcarries : (hears editor_commits 2).carries editor_commits := rfl
  exact ⟨hheld, ((hcommit editor_commits rfl).2 _ _ hcarries hcarries htogether halone).1⟩

/-! ## A client without a transaction -/

/-- Others send something, or time passes while the client is alive. -/
def from_others (client : OsProcessIdentity) : Label → Bool
  | .message message _ _ _ => decide (message.sender ≠ client)
  | .deadlines answers => answers.cleanup.alive client

/-- A client that has no transaction keeps its window and gets no reply, whatever the others
send, COMMITs too, and whatever deadlines pass. -/
theorem others_leave_a_client_alone (screen : Screen) (howns : d.owns client slot)
    (hnone : d.held_by client = none) (labels : List Label)
    (hothers : ∀ label ∈ labels, from_others client label) :
    Alike client slot d (labels.foldl (serve screen) d) := by
  refine foldlRecOn labels (serve screen) (.refl _ _ _) fun d' h label hlabel => h.trans ?_
  have hother := hothers label hlabel
  replace howns := howns.alike h
  replace hnone := h.held.trans hnone
  cases label with
  | deadlines answers =>
    apply alike_deadlines hother howns
    intro transaction hheld
    rw [hnone] at hheld
    cases hheld
  | message message objects memory answers =>
    have hne : message.sender ≠ client := of_decide_eq_true hother
    have hdelivered : Alike client slot d' (d'.put (d'.state.deliver message objects memory)) :=
      alike_put hne howns (.same rfl rfl)
    refine hdelivered.trans ?_
    replace howns := howns.alike hdelivered
    cases hcommit : commits message with
    | false => exact alike_message hne howns hcommit
    | true =>
      -- there is no transaction that it could end
      refine Polite.alike (.committed hcommit) hne howns ?_
      rw [hdelivered.held, hnone, held_by_none]
      rw [serve, commits_clears hcommit]
      rfl

theorem a_commit_leaves_the_editor_alone : ∃ d slot, (machine desk).Reachable d ∧
    d.owns editor slot ∧ Alike editor slot d ([hears viewer_commits 2].foldl (serve desk) d) := by
  let slot : Slot := ⟨0, by decide⟩
  obtain ⟨d, hd, hactive, howner, hnone⟩ : ∃ d : Daemon, (machine desk).Reachable d ∧
      (d.state.table.entries slot).active ∧ identity_equal (d.state.table.entries slot).owner editor ∧
      d.transaction.belongs editor = false :=
    Machine.exists_reachable (s := desk_start) (.start ⟨_, _, _, _, rfl⟩) (editor_begins.take 1)
      (by decide +kernel)
  exact ⟨d, slot, hd, ⟨hactive, howner⟩,
    others_leave_a_client_alone desk ⟨hactive, howner⟩ (held_by_none hnone) _ (by decide)⟩

end mini_kernel.windowd
