-- Requests that are refused (user/programs/windowd_c.c): SHOW, HIDE and MOVE change the window
-- first and take that back by hand when no frame comes out of it. The law: what is answered
-- with an error has changed no window. Only the mark of a minimized window is not given back.
import MiniKernel.Lib.Word
import MiniKernel.Window.TransactionLaws

open mini_kernel.lib mini_kernel.os64 Function

namespace mini_kernel.windowd

variable {screen : Screen} {answers : Answers} {message : Message} {s s' : State} {slot : Slot}
  {client : OsProcessIdentity} {command id : U32} {entry : Option Slot}

/-- What the client has got since `s` is one reply, with an error. -/
def Refused (client : OsProcessIdentity) (s s' : State) : Prop :=
  ∃ reply, s'.replies_to client = .reply client reply :: s.replies_to client ∧ reply.result < 0

/-- A request that succeeds, and what is sent after its reply is no reply. -/
theorem not_refused_of_ok {shown : State} (hshown : shown.sent = s.sent)
    (h : s'.replies_to client = (reply_about shown client id command (.ok ()) entry).replies_to client) :
    ¬ Refused client s s' := by
  rintro ⟨reply, heq, herror⟩
  rw [h] at heq
  unfold reply_about send_window_reply at heq
  split at heq
  · simp only [State.replies_to, hshown] at heq
    exact absurd (congrArg List.length heq) (by simp)
  · simp only [State.replies_to, State.send, Sent.target, decide_true, List.filter_cons_of_pos,
      List.cons.injEq, Sent.reply.injEq] at heq
    rw [← heq.1.2] at herror
    exact absurd herror (lt_irrefl 0)

theorem set_visible_entries (table : WindowTable) (visible : Bool) (hactive : (table.entries slot).active) :
    (window_state_set_visible table slot visible true).entries = update table.entries slot
      { table.entries slot with
        visible := visible, minimized := if visible then false else (table.entries slot).minimized } := by
  unfold window_state_set_visible
  simp only [hactive, Bool.not_true, Bool.false_eq_true, if_false]
  split
  · rw [raise_entries]
    rfl
  · rfl

/-- A window that was not minimized is shown or hidden, and that is undone. -/
theorem undo_visible_table (hactive : (s.table.entries slot).active) {visible : Bool}
    (hmark : visible → (s.table.entries slot).minimized = false)
    (h : s'.table = window_state_set_visible s.table slot visible true) :
    (undo_visible screen s slot s').table = s.table := by
  have hentry : { s.table.entries slot with
      minimized := if visible then false else (s.table.entries slot).minimized } = s.table.entries slot := by
    cases visible with
    | false => rfl
    | true => simp [← hmark rfl]
  show WindowTable.mk (update s'.table.entries slot _) _ = _
  rw [h, set_visible_entries _ _ hactive, update_idem, update_self]
  dsimp only
  rw [hentry, update_eq_self]

theorem undo_move_table (hactive : (s.table.entries slot).active) {x y : U32}
    (h : s'.table = window_state_move s.table slot x y) : (undo_move screen s slot s').table = s.table := by
  show window_state_move s'.table slot _ _ = _
  unfold window_state_move at h ⊢
  rw [if_pos hactive] at h
  rw [h]
  simp only [WindowTable.set, update_self, update_idem]
  rw [if_pos hactive]
  show WindowTable.mk (update s.table.entries slot (s.table.entries slot)) _ = _
  rw [update_eq_self]

/-- The request passes all checks and is to show a window that is minimized. -/
def ShowsMinimized (message : Message) (command : U32) (s : State) : Prop :=
  let request := read_state message.payload
  command = OS_WINDOW_SHOW ∧ plain message SIZE_STATE ∧ ∃ slot,
    target_of (checked message (window_protocol_validate_state request command) request.header.request_id)
      (window_state_validate_target s.table message.sender request.window_id request.window_generation) =
      (.ok (), some slot) ∧ (s.table.entries slot).minimized

theorem refused_visibility (hmark : ¬ ShowsMinimized message command s)
    (hrefused : Refused message.sender s (handle_visibility screen answers message command s)) :
    (handle_visibility screen answers message command s).table = s.table := by
  revert hrefused
  unfold handle_visibility
  dsimp only
  split
  · exact fun _ => reply_about_table
  rename_i hplain
  split
  · rename_i slot htarget
    obtain ⟨_, heq, hfound, -⟩ := validate_target_ok (target_of_ok htarget).2
    cases heq
    split
    · rename_i hframe
      have hsender : message.sender ≠ ⟨0, 0⟩ := by
        intro hnone
        exact (target_sender (target_of_ok htarget).2).1 (by rw [hnone])
      split
      · exact fun hrefused => absurd hrefused (not_refused_of_ok (compose_keeps hframe).sent
          ((Polite.reconcile answers answers.ticks).silent _ hsender))
      · exact fun hrefused => absurd hrefused (not_refused_of_ok (compose_keeps hframe).sent rfl)
    · rename_i hframe
      intro _
      rw [reply_about_table]
      refine undo_visible_table (find_active hfound) ?_ (compose_keeps hframe).table
      intro hshow
      rw [← Bool.not_eq_true]
      exact fun hminimized =>
        hmark ⟨of_decide_eq_true hshow, by simpa using hplain, slot, htarget, hminimized⟩
  · exact fun _ => reply_about_table

theorem refused_move (hrefused : Refused message.sender s (handle_move screen answers message s)) :
    (handle_move screen answers message s).table = s.table := by
  revert hrefused
  unfold handle_move
  dsimp only
  split
  · exact fun _ => reply_about_table
  split
  · rename_i slot htarget
    obtain ⟨_, heq, hfound, -⟩ := validate_target_ok (target_of_ok htarget).2
    cases heq
    split
    · rename_i hframe
      exact fun hrefused => absurd hrefused (not_refused_of_ok (compose_keeps hframe).sent rfl)
    · rename_i hframe
      intro _
      rw [reply_about_table]
      exact undo_move_table (find_active hfound) (compose_keeps hframe).table
  · exact fun _ => reply_about_table

/-- The display service is gone. -/
def no_display : Answers :=
  { desk_answers 2 with frame.session := { desk_session with display := .error OS_ERR_NOT_READY } }

/-- Without a display the request is refused, and the mark of the window is gone. -/
theorem shown_minimized (screen : Screen) (h : ShowsMinimized message command s) :
    Refused message.sender s (handle_visibility screen no_display message command s) ∧
      (handle_visibility screen no_display message command s).table ≠ s.table := by
  obtain ⟨rfl, hplain, slot, htarget, hminimized⟩ := h
  obtain ⟨hchecked, hfound⟩ := target_of_ok htarget
  obtain ⟨_, heq, hslot, -⟩ := validate_target_ok hfound
  cases heq
  obtain ⟨failed, hframe⟩ : ∃ failed, (set_visible screen slot true s).compose_and_present screen
      no_display.frame = (.error OS_ERR_NOT_READY, failed) := ⟨_, rfl⟩
  have hout : handle_visibility screen no_display message OS_WINDOW_SHOW s =
      reply_about (undo_visible screen s slot failed) message.sender
        (read_state message.payload).header.request_id OS_WINDOW_SHOW (.error OS_ERR_NOT_READY)
        (some slot) := by
    unfold handle_visibility
    simp only [hplain, htarget, decide_true, hframe, Bool.not_true, Bool.false_eq_true, if_false]
  rw [hout]
  constructor
  · obtain ⟨hpid, hgeneration⟩ := target_sender hfound
    have hsent : (undo_visible screen s slot failed).sent = s.sent := (compose_keeps hframe).sent
    unfold Refused reply_about send_window_reply
    rw [if_neg (not_or.mpr ⟨hpid, not_or.mpr ⟨hgeneration, (checked_ok hchecked).2.1⟩⟩)]
    simp only [State.replies_to, State.send, hsent, Sent.target, decide_true, List.filter_cons_of_pos]
    exact ⟨_, rfl, OS_ERR_NOT_READY.property⟩
  · intro hsame
    rw [reply_about_table] at hsame
    have hmark := congrArg (fun table : WindowTable => (table.entries slot).minimized) hsame
    have hset := set_visible_entries s.table true (find_active hslot)
    simp [undo_visible, State.rebuild_composite, WindowTable.set, (compose_keeps hframe).table, set_visible,
      hset, hminimized] at hmark

/-- A request to move a window that is answered with an error leaves every window and the stack
as they were. So does one to show or hide a window, whatever the services answer, exactly when
it does not pass its checks to show a window that is minimized. -/
theorem refused_requests_change_nothing (screen : Screen) (message : Message) (command : U32)
    (s : State) :
    (∀ answers, Refused message.sender s (handle_move screen answers message s) →
      (handle_move screen answers message s).table = s.table) ∧
    ((∀ answers, Refused message.sender s (handle_visibility screen answers message command s) →
      (handle_visibility screen answers message command s).table = s.table) ↔
        ¬ ShowsMinimized message command s) := by
  refine ⟨fun _ => refused_move, ?_, fun hmark _ => refused_visibility hmark⟩
  intro hsame hshows
  obtain ⟨hrefused, hchanged⟩ := shown_minimized screen hshows
  exact hchanged (hsame _ hrefused)

/-- The editor has a window that is hidden and minimized. -/
def hidden_window : State :=
  let table := (window_state_commit_create_layer window_state_init editor 1 0 0 8 8 .normal).2
  { desk_start.state with table := { table with
      entries := fun slot => { table.entries slot with
        visible := false, minimized := (table.entries slot).active } } }

def show_request : Message := request_of editor 9 [32, 1, OS_WINDOW_SHOW, 0, 9, 1, 1, 0]

/-- A window that is minimized is so no longer after a request to show it has failed. -/
theorem a_refused_show_unmarks_the_window :
    let shown := handle_visibility desk no_display show_request OS_WINDOW_SHOW hidden_window
    Refused editor hidden_window shown ∧
      shown.table.z_slots.map (fun slot => ((hidden_window.table.entries slot).minimized,
        (shown.table.entries slot).minimized)) = [(true, false)] :=
  ⟨⟨⟨-1, 9, OS_WINDOW_SHOW, 1, 1, 1⟩, by decide +kernel, by decide⟩, by decide +kernel⟩

end mini_kernel.windowd
