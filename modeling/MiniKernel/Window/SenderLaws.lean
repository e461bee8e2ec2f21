-- The laws of senders (user/programs/windowd_c.c): whatever a client sends, the windows of
-- other clients stay the windows they are, and no reply goes to anybody else. A pointer may
-- move, resize or hide any window, which keeps its owner and its content all the same.
import MiniKernel.Lib.Word
import MiniKernel.Window.Daemon

open mini_kernel.lib mini_kernel.os64 Function

namespace mini_kernel.windowd

/-! ## Windows that stay -/

/-- The same window with the same content, wherever it is shown. -/
structure WindowEntry.SameWindow (entry entry' : WindowEntry) : Prop where
  active : entry'.active = entry.active
  window_id : entry'.window_id = entry.window_id
  window_generation : entry'.window_generation = entry.window_generation
  content : entry'.accepted_content_generation = entry.accepted_content_generation
  owner : entry'.owner = entry.owner

theorem WindowEntry.SameWindow.refl (entry : WindowEntry) : entry.SameWindow entry :=
  ⟨rfl, rfl, rfl, rfl, rfl⟩

theorem WindowEntry.SameWindow.trans {e e' e'' : WindowEntry} (h : e.SameWindow e')
    (h' : e'.SameWindow e'') : e.SameWindow e'' :=
  ⟨h'.active.trans h.active, h'.window_id.trans h.window_id,
    h'.window_generation.trans h.window_generation, h'.content.trans h.content, h'.owner.trans h.owner⟩

/-- A window of another client than the sender. -/
def WindowEntry.foreign (entry : WindowEntry) (sender : OsProcessIdentity) : Prop :=
  entry.active ∧ identity_equal entry.owner sender = false

/-- The windows of other clients are the same ones. -/
def Spares (sender : OsProcessIdentity) (table table' : WindowTable) : Prop :=
  ∀ slot, (table.entries slot).foreign sender → (table.entries slot).SameWindow (table'.entries slot)

variable {sender : OsProcessIdentity} {table table' : WindowTable} {entry entry' : WindowEntry}

theorem WindowEntry.foreign.same
    (h : entry.foreign sender) (hs : entry.SameWindow entry') : entry'.foreign sender := by
  refine ⟨?_, ?_⟩
  · rw [hs.active]
    exact h.1
  · rw [hs.owner]
    exact h.2

theorem Spares.refl (sender : OsProcessIdentity) (table : WindowTable) : Spares sender table table :=
  fun _ _ => .refl _

variable {t t' t'' : WindowTable}

theorem Spares.trans (h : Spares sender t t') (h' : Spares sender t' t'') : Spares sender t t'' := by
  intro slot hf
  have first := h slot hf
  exact first.trans (h' slot (hf.same first))

variable {slot : Slot}

/-- An entry is replaced that was no window of another client. -/
theorem Spares.set (h : Spares sender table table') (entry : WindowEntry)
    (hs : ¬ (table.entries slot).foreign sender) : Spares sender table (table'.set slot entry) := by
  intro other hf
  by_cases heq : other = slot
  · subst heq
    exact absurd hf hs
  · simp only [WindowTable.set, update_of_ne heq]
    exact h other hf

/-- All windows are the same ones, wherever they are shown and in whatever order. -/
def SameWindows (table table' : WindowTable) : Prop :=
  ∀ slot, (table.entries slot).SameWindow (table'.entries slot)

theorem SameWindows.spares (h : SameWindows table table') : Spares sender table table' := fun slot _ => h slot

theorem SameWindows.trans (h : SameWindows t t') (h' : SameWindows t' t'') :
    SameWindows t t'' := fun slot => (h slot).trans (h' slot)

theorem SameWindows.refl (table : WindowTable) : SameWindows table table := fun _ => .refl _

/-- An entry is replaced by one of the same window. -/
theorem SameWindows.set {entry : WindowEntry}
    (h : (table.entries slot).SameWindow entry) : SameWindows table (table.set slot entry) := by
  intro other
  by_cases hs : other = slot
  · subst hs
    simpa only [WindowTable.set, update_self] using h
  · simp only [WindowTable.set, update_of_ne hs]
    exact .refl _

/-- Only the order of the windows changes. -/
theorem SameWindows.entries (h : table'.entries = table.entries) : SameWindows table table' := by
  intro slot
  rw [h]
  exact .refl _

section
variable (table : WindowTable) (slot : Slot)

theorem raise_entries : (window_state_raise table slot).entries = table.entries := by
  unfold window_state_raise
  split
  · rfl
  · dsimp only
    split <;> rfl

theorem same_raise : SameWindows table (window_state_raise table slot) := .entries (raise_entries _ _)

theorem same_move (x y : U32) : SameWindows table (window_state_move table slot x y) := by
  unfold window_state_move
  split
  · exact .set ⟨rfl, rfl, rfl, rfl, rfl⟩
  · exact .refl _

theorem same_resize (width height : U32) :
    SameWindows table (window_state_resize table slot width height) := by
  unfold window_state_resize
  split
  · exact .set ⟨rfl, rfl, rfl, rfl, rfl⟩
  · exact .refl _

theorem same_set_decorated (decorated : Bool) :
    SameWindows table (window_state_set_decorated table slot decorated) := by
  unfold window_state_set_decorated
  split
  · exact .set ⟨rfl, rfl, rfl, rfl, rfl⟩
  · exact .refl _

theorem same_set_visible (visible raise : Bool) :
    SameWindows table (window_state_set_visible table slot visible raise) := by
  unfold window_state_set_visible
  dsimp only
  split
  · exact .refl _
  · split
    · refine SameWindows.trans ?_ (same_raise _ _)
      exact .set ⟨rfl, rfl, rfl, rfl, rfl⟩
    · exact .set ⟨rfl, rfl, rfl, rfl, rfl⟩

end

/-! ## The operations on a window of the sender -/

section
variable {sender : OsProcessIdentity} {table table' : WindowTable} {slot : Slot}

theorem Spares.commit_content (h : Spares sender table table') (generation : U32)
    (hs : ¬ (table.entries slot).foreign sender) :
    Spares sender table (window_state_commit_content table' slot generation) := by
  unfold window_state_commit_content
  split
  · exact h.set _ hs
  · exact h

theorem Spares.destroy (h : Spares sender table table') (hs : ¬ (table.entries slot).foreign sender) :
    Spares sender table (window_state_destroy table' slot) := by
  unfold window_state_destroy
  dsimp only
  split
  · exact h
  · exact (h.set _ hs).trans (SameWindows.entries rfl).spares

end

variable {sender : OsProcessIdentity} {table : WindowTable} {generation id : U32}
  {slot : Slot} {found : Option Slot}

section
variable {owner : OsProcessIdentity} {table' : WindowTable} {x y width height : U32} {layer : Layer}

section
variable
    (h : window_state_commit_create_layer table owner generation x y width height layer = (some slot, table'))
include h

theorem commit_create_vacant : (table.entries slot).active = false := by
  unfold window_state_commit_create_layer at h
  split at h
  · cases h
  split at h
  · cases h
  · rename_i free hfree
    cases h
    simpa using List.find?_some hfree

/-- A new window takes an entry that had none. -/
theorem spares_commit_create : Spares sender table table' := by
  have hvacant := commit_create_vacant h
  unfold window_state_commit_create_layer at h
  split at h
  · cases h
  split at h
  · cases h
  · cases h
    refine Spares.trans ((Spares.refl _ _).set _ fun hf => ?_) (SameWindows.entries rfl).spares
    rw [hf.1] at hvacant
    cases hvacant

end

end

/-! ## What a window of the sender is -/

theorem find_active
    (h : window_state_find table id generation = some slot) : (table.entries slot).active := by
  unfold window_state_find at h
  split at h
  · dsimp only at h
    split at h
    · rename_i hs
      cases h
      exact hs.1
    · cases h
  · cases h

theorem validate_target_ok (h : window_state_validate_target table sender id generation = (.ok (), found)) :
    ∃ slot, found = some slot ∧ window_state_find table id generation = some slot ∧
      identity_equal (table.entries slot).owner sender := by
  unfold window_state_validate_target at h
  split at h
  · cases h
  rename_i slot hfound
  split at h
  · rename_i howner
    cases h
    exact ⟨slot, rfl, hfound, howner⟩
  · cases h

theorem validate_content_ok {content : U32}
    (h : window_state_validate_content table sender id generation content = (.ok (), found)) :
    window_state_validate_target table sender id generation = (.ok (), found) := by
  unfold window_state_validate_content at h
  split at h
  · rename_i slot htarget
    split at h
    · cases h
    · cases h
      exact htarget
  · rename_i htarget
    exact absurd h fun heq => by
      obtain ⟨slot, rfl, -, -⟩ := validate_target_ok heq
      exact htarget slot heq

theorem target_of_ok {valid : Outcome} {target : Outcome × Option Slot}
    (h : target_of valid target = (.ok (), found)) : valid = .ok () ∧ target = (.ok (), found) := by
  unfold target_of at h
  split at h
  · cases h
  · exact ⟨rfl, h⟩

/-- A window that the sender may have is not foreign to them. -/
theorem not_foreign_of_target
    (h : window_state_validate_target table sender id generation = (.ok (), some slot)) :
    ¬ (table.entries slot).foreign sender := by
  obtain ⟨found, heq, -, howner⟩ := validate_target_ok h
  cases heq
  intro hf
  rw [hf.2] at howner
  cases howner

/-! ## Replies -/

/-- The replies that a client has got. -/
def State.replies_to (s : State) (client : OsProcessIdentity) : List Sent :=
  s.sent.filter fun sent => match sent with
    | .event .. => false
    | sent => decide (sent.target = client)

/-- Other clients keep their windows and get no reply. -/
structure Polite (sender : OsProcessIdentity) (s s' : State) : Prop where
  spares : Spares sender s.table s'.table
  silent : ∀ client, client ≠ sender → s'.replies_to client = s.replies_to client

variable {result : Outcome}

section
variable {sender : OsProcessIdentity} {s s' s'' : State}

theorem Polite.trans (h : Polite sender s s') (h' : Polite sender s' s'') : Polite sender s s'' :=
  ⟨h.spares.trans h'.spares, fun client hc => (h'.silent client hc).trans (h.silent client hc)⟩

/-- Neither the windows nor what was sent changes. -/
theorem Polite.same (ht : s'.table = s.table) (hs : s'.sent = s.sent) : Polite sender s s' := by
  refine ⟨?_, fun client _ => ?_⟩
  · rw [ht]
    exact .refl _ _
  · simp only [State.replies_to, hs]

theorem Polite.refl : Polite sender s s := .same rfl rfl

/-- Before it, neither the windows nor what was sent has changed. -/
theorem Polite.after (h : Polite sender s' s'') (ht : s'.table = s.table) (hs : s'.sent = s.sent) :
    Polite sender s s'' := (Polite.same ht hs).trans h

/-- Nothing is sent. -/
theorem Polite.of_spares (ht : Spares sender s.table s'.table) (hs : s'.sent = s.sent) : Polite sender s s' :=
  ⟨ht, fun client _ => by simp only [State.replies_to, hs]⟩

theorem Polite.windows (ht : SameWindows s.table s'.table) (hs : s'.sent = s.sent) :
    Polite sender s s' := .of_spares ht.spares hs

/-- An event is no reply, and a reply goes to the sender. -/
theorem Polite.send (sent : Sent)
    (h : (∃ endpoint command time input, sent = .event endpoint command time input) ∨
      sent.target = sender) : Polite sender s (s.send sent) := by
  refine ⟨.refl _ _, fun client hc => ?_⟩
  unfold State.replies_to State.send
  rcases h with ⟨endpoint, command, time, input, rfl⟩ | ht
  · rw [List.filter_cons_of_neg (by simp)]
  · rw [List.filter_cons_of_neg]
    have hne : sent.target ≠ client := fun h => hc (h.symm.trans ht)
    cases sent <;> simp_all

theorem Polite.reply (reply : OsWindowReply) : Polite sender s (send_window_reply sender reply s) := by
  unfold send_window_reply
  split
  · exact .refl
  · exact .send _ (.inr rfl)

variable {id operation : U32}

theorem Polite.replied {entry : Option Slot} :
    Polite sender s (reply_about s sender id operation result entry) := .reply _

theorem Polite.reply_about {entry : Option Slot}
    (h : Polite sender s s') : Polite sender s (reply_about s' sender id operation result entry) :=
  h.trans .replied

theorem Polite.info_reply (screen : Screen) (id : U32) (result : Outcome) (entry : Option Slot) :
    Polite sender s (send_window_info_reply screen sender id result entry s) := by
  unfold send_window_info_reply
  split
  · exact .refl
  · exact .send _ (.inr rfl)

/-! ## The focus -/

variable (answers : Answers)

theorem Polite.event (endpoint : WindowFocusEndpoint) (command : U32) (time : U64)
    (input : InputData) : Polite sender s (send_window_event answers endpoint command time input s) := by
  unfold send_window_event
  split
  · exact .refl
  · exact .send _ (.inl ⟨_, _, _, _, rfl⟩)

theorem Polite.focus_change (change : WindowFocusChange) (time : U64) :
    Polite sender s (emit_focus_change answers change time s) :=
  (Polite.event answers _ _ _ _).trans (.event answers _ _ _ _)

theorem polite_focus_entry (entry : Option Slot) (time : U64) :
    Polite sender s (focus_entry answers entry time s) := by
  unfold focus_entry
  dsimp only
  exact .after (.focus_change answers _ _) rfl rfl

theorem Polite.reconcile (time : U64) : Polite sender s (reconcile_invalid_focus answers time s) := by
  unfold reconcile_invalid_focus
  split
  · exact .refl
  split
  · dsimp only
    split
    · exact .refl
    · exact polite_focus_entry answers _ _
  · exact polite_focus_entry answers _ _

end

/-! ## Frames -/

/-- Only the display has changed. -/
structure OnlyDisplay (s s' : State) : Prop where
  table : s'.table = s.table
  surfaces : s'.surfaces = s.surfaces
  sources : s'.sources = s.sources
  router : s'.router = s.router
  interaction : s'.interaction = s.interaction
  input_owner : s'.input_owner = s.input_owner
  sent : s'.sent = s.sent

theorem onlyDisplay_put (s : State) (display : Display) : OnlyDisplay s { s with display := display } :=
  ⟨rfl, rfl, rfl, rfl, rfl, rfl, rfl⟩

theorem OnlyDisplay.trans {s s' s'' : State} (h : OnlyDisplay s s') (h' : OnlyDisplay s' s'') :
    OnlyDisplay s s'' :=
  ⟨h'.table.trans h.table, h'.surfaces.trans h.surfaces, h'.sources.trans h.sources,
    h'.router.trans h.router, h'.interaction.trans h.interaction, h'.input_owner.trans h.input_owner,
    h'.sent.trans h.sent⟩

section
variable {sender : OsProcessIdentity} {s s' : State} {screen : Screen} {answers : FrameAnswers}

theorem compose_keeps (h : s.compose_and_present screen answers = (result, s')) : OnlyDisplay s s' := by
  unfold State.compose_and_present at h
  cases h
  exact onlyDisplay_put _ _

theorem release_keeps {released result : Outcome}
    (h : s.release_gui_session released = (result, s')) : OnlyDisplay s s' := by
  unfold State.release_gui_session at h
  cases h
  exact onlyDisplay_put _ _

theorem OnlyDisplay.polite (h : OnlyDisplay s s') : Polite sender s s' := .same h.table h.sent

theorem Polite.compose (h : s.compose_and_present screen answers = (result, s')) : Polite sender s s' :=
  (compose_keeps h).polite

theorem Polite.present_or_retry (answers : FrameAnswers) :
    Polite sender s (s.present_or_retry screen answers) := by
  unfold State.present_or_retry
  split
  · rename_i h
    exact .compose h
  · rename_i h
    exact (Polite.compose h).trans (.same rfl rfl)

theorem Polite.release_if_empty (released : Outcome) : Polite sender s (s.release_if_empty released) := by
  unfold State.release_if_empty
  split
  · exact .same rfl rfl
  · exact .refl

/-! ## Requests -/

variable {answers : Answers} {message : Message}

theorem polite_refuse (operation : U32) : Polite message.sender s (refuse message operation s) := by
  exact .reply_about (.same rfl rfl)

theorem polite_create_failed (id : U32) (failure : Failure) (candidate : WindowSurfaceCandidate) :
    Polite message.sender s (create_failed answers message id failure candidate s) := by
  unfold create_failed
  dsimp only
  refine .reply_about ?_
  refine .trans ?_ (.release_if_empty _)
  split <;> exact .same rfl rfl

theorem polite_create_window (request : OsWindowCreateRequest) (candidate : WindowSurfaceCandidate) :
    Polite message.sender s (create_window screen answers message request candidate s) := by
  unfold create_window
  dsimp only
  split
  · exact polite_create_failed _ _ _
  rename_i slot table hcreate
  have hvacant : ¬ (s.table.entries slot).foreign message.sender := by
    intro hf
    have hnone := commit_create_vacant hcreate
    rw [hf.1] at hnone
    cases hnone
  have hopen : Spares message.sender s.table (open_window screen request slot table candidate s).table :=
    (spares_commit_create hcreate).trans (same_set_decorated _ _ _).spares
  split
  · rename_i hframe
    refine .reply_about ?_
    exact Polite.trans (.of_spares hopen rfl) (.compose hframe)
  rename_i failure failed hframe
  have hkeeps := compose_keeps hframe
  refine .reply_about ?_
  refine .trans ?_ (.release_if_empty _)
  refine .of_spares (Spares.destroy ?_ hvacant) hkeeps.sent
  rw [hkeeps.table]
  exact hopen

theorem polite_handle_create : Polite message.sender s (handle_create screen answers message s) := by
  unfold handle_create
  dsimp only
  split
  · exact polite_refuse _
  split
  · exact polite_create_failed _ _ _
  split
  · exact polite_create_failed _ _ _
  split
  · exact polite_create_failed _ _ _
  split
  · exact .after (polite_create_failed _ _ _) rfl rfl
  · split
    · split
      · exact .after (polite_create_failed _ _ _) rfl rfl
      · exact .after (polite_create_window _ _) rfl rfl
    · exact .after (polite_create_window _ _) rfl rfl

theorem polite_surface_failed (id operation : U32) (failure : Failure) (entry : Option Slot)
    (candidate : WindowSurfaceCandidate) :
    Polite message.sender s (surface_failed message id operation failure entry candidate s) := by
  unfold surface_failed
  dsimp only
  refine .reply_about ?_
  split <;> exact .same rfl rfl

theorem polite_put_surface (request : OsWindowSetSurfaceRequest) (slot : Slot)
    (candidate : WindowSurfaceCandidate) (resize : Bool) :
    Polite sender s (put_surface screen request slot candidate resize s) := by
  unfold put_surface
  dsimp only
  split
  · exact .windows (same_resize _ _ _ _) rfl
  · exact .same rfl rfl

theorem polite_undo_surface (old : State) (slot : Slot) (candidate : WindowSurfaceCandidate)
    (resize : Bool) : Polite sender s (undo_surface screen old slot candidate resize s) := by
  refine .of_spares ?_ rfl
  show Spares sender s.table (if resize = true then _ else _)
  split
  · exact (same_resize _ _ _ _).spares
  · exact .refl _ _

theorem polite_show_surface (request : OsWindowSetSurfaceRequest) (operation : U32)
    (candidate : WindowSurfaceCandidate) (resize : Bool)
    (hs : ¬ (s.table.entries slot).foreign message.sender) : Polite message.sender s
      (show_surface screen answers message request operation slot candidate resize s) := by
  unfold show_surface
  split
  · rename_i hframe
    have hshown : Polite message.sender s _ :=
      (polite_put_surface request slot candidate resize).trans (.compose hframe)
    refine .reply_about ?_
    exact ⟨hshown.spares.commit_content _ hs, hshown.silent⟩
  · rename_i hframe
    refine .reply_about ?_
    refine .trans ?_ (polite_undo_surface _ _ _ _)
    exact (polite_put_surface _ _ _ _).trans (.compose hframe)

theorem polite_replace_surface (valid : Outcome) (request : OsWindowSetSurfaceRequest)
    (operation : U32) (resize : Bool) : Polite message.sender s
      (replace_surface screen answers message valid request operation resize s) := by
  unfold replace_surface
  dsimp only
  split
  · rename_i slot htarget
    have hs := not_foreign_of_target (validate_content_ok (target_of_ok htarget).2)
    split
    · exact polite_surface_failed _ _ _ _ _
    · split
      · exact .after (polite_surface_failed _ _ _ _ _) rfl rfl
      · exact .after (polite_show_surface _ _ _ _ hs) rfl rfl
  · exact .refl
  · exact polite_surface_failed _ _ _ _ _

theorem polite_accept_damage {content : U32} {damaged : Except Failure WindowDamageAccumulator}
    (hs : ¬ (s.table.entries slot).foreign sender)
    (h : accept_damage screen answers slot content damaged s = (result, s')) : Polite sender s s' := by
  unfold accept_damage at h
  split at h
  · cases h
    exact .refl
  dsimp only at h
  split at h
  · rename_i hframe
    cases h
    exact .after (.compose hframe) rfl rfl
  rename_i hframe
  cases h
  have hkeeps := compose_keeps hframe
  refine .of_spares (Spares.commit_content ?_ _ hs) hkeeps.sent
  rw [hkeeps.table]
  exact .refl _ _

theorem Polite.full_damage : Polite message.sender s (handle_full_damage screen answers message s) := by
  unfold handle_full_damage
  dsimp only
  split
  · exact polite_refuse _
  split
  · rename_i slot htarget
    refine .reply_about ?_
    exact polite_accept_damage
      (not_foreign_of_target (validate_content_ok (target_of_ok htarget).2)) rfl
  · exact .replied

theorem polite_set_visible (slot : Slot) (visible : Bool) :
    Polite sender s (set_visible screen slot visible s) :=
  .windows (same_set_visible _ _ _ _) rfl

theorem polite_undo_visible (old : State) (slot : Slot) :
    Polite sender s (undo_visible screen old slot s) := by
  refine .windows (SameWindows.trans ?_ (.entries rfl)) rfl
  exact .set ⟨rfl, rfl, rfl, rfl, rfl⟩

theorem Polite.visibility (command : U32) :
    Polite message.sender s (handle_visibility screen answers message command s) := by
  unfold handle_visibility
  dsimp only
  split
  · exact polite_refuse _
  split
  · split
    · rename_i hframe
      have hshown : Polite message.sender s _ := (polite_set_visible _ _).trans (.compose hframe)
      split
      · exact (hshown.reply_about).trans (.reconcile _ _)
      · exact hshown.reply_about
    · rename_i hframe
      refine .reply_about ?_
      refine .trans ?_ (polite_undo_visible _ _)
      exact (polite_set_visible _ _).trans (.compose hframe)
  · exact .replied

theorem Polite.focus : Polite message.sender s (handle_focus answers message s) := by
  unfold handle_focus
  dsimp only
  split
  · exact polite_refuse _
  · split
    · split
      · exact (polite_focus_entry _ _ _).reply_about
      · exact .replied
    · exact .replied

theorem Polite.info : Polite message.sender s (handle_info screen message s) := by
  unfold handle_info
  dsimp only
  split
  · exact .after (.info_reply _ _ _ _) rfl rfl
  · exact .info_reply _ _ _ _

theorem polite_move_window (slot : Slot) (x y : U32) :
    Polite sender s (move_window screen slot x y s) :=
  .windows (same_move _ _ _ _) rfl

theorem polite_undo_move (old : State) (slot : Slot) : Polite sender s (undo_move screen old slot s) :=
  .windows (same_move _ _ _ _) rfl

theorem Polite.move : Polite message.sender s (handle_move screen answers message s) := by
  unfold handle_move
  dsimp only
  split
  · exact polite_refuse _
  split
  · split
    · rename_i hframe
      exact .reply_about ((polite_move_window _ _ _).trans (.compose hframe))
    · rename_i hframe
      refine .reply_about ?_
      refine .trans ?_ (polite_undo_move _ _)
      exact (polite_move_window _ _ _).trans (.compose hframe)
  · exact .replied

theorem polite_destroy_entry (hs : ¬ (s.table.entries slot).foreign sender) :
    Polite sender s (destroy_entry screen slot s) := by
  unfold destroy_entry
  dsimp only
  split
  · exact .refl
  · exact .of_spares ((Spares.refl _ _).destroy hs) rfl

theorem polite_after_destroy
    (h : after_destroy screen answers s = (result, s')) : Polite sender s s' := by
  unfold after_destroy at h
  split at h
  · split at h
    · rename_i hreleased
      cases h
      exact (release_keeps hreleased).polite
    · rename_i hreleased
      cases h
      exact (release_keeps hreleased).polite
  · cases h
    exact .present_or_retry _

theorem Polite.destroy : Polite message.sender s (handle_destroy screen answers message s) := by
  unfold handle_destroy
  dsimp only
  split
  · exact polite_refuse _
  split
  · rename_i slot htarget
    have hdestroyed : Polite message.sender s (destroy_entry screen slot s) :=
      polite_destroy_entry (not_foreign_of_target (target_of_ok htarget).2)
    split
    · rename_i hafter
      refine .trans ?_ (.reconcile _ _)
      exact (hdestroyed.trans (polite_after_destroy hafter)).trans (.reply _)
    · rename_i hafter
      exact (hdestroyed.trans (polite_after_destroy hafter)).trans (.reply _)
  · exact .reply _

theorem polite_reject_message (failure : Failure) :
    Polite message.sender s (reject_message message failure s) := by
  exact .reply_about (.same rfl rfl)

/-- Every request that is not about damage in parts. -/
theorem Polite.request : Polite message.sender s (handle_request screen answers message s) := by
  unfold handle_request handle_set_surface handle_resize
  dsimp only
  split
  · exact polite_handle_create
  split
  · split
    · exact polite_refuse _
    · exact polite_replace_surface _ _ _ _
  split
  · exact .full_damage
  split
  · exact .destroy
  split
  · exact .visibility _
  split
  · exact .visibility _
  split
  · exact .focus
  split
  · exact .info
  split
  · exact .move
  split
  · split
    · exact polite_refuse _
    · exact polite_replace_surface _ _ _ _
  · exact polite_reject_message _

/-! ## Input -/

theorem Polite.entry_event (slot : Slot) (command : U32) (time : U64) (input : InputData) :
    Polite sender s (send_entry_event answers slot command time input s) := by
  unfold send_entry_event
  dsimp only
  split
  · exact .refl
  · exact .after (.event _ _ _ _ _) rfl rfl

theorem polite_deliver_pointer (slot : Slot) (time : U64) (pointer : OsPointerEvent) :
    Polite sender s (deliver_pointer answers slot time pointer s) := by
  unfold deliver_pointer
  dsimp only
  split
  · exact .refl
  · exact .entry_event _ _ _ _

theorem polite_focus_and_raise (slot : Slot) (time : U64) :
    Polite sender s (focus_and_raise screen answers slot time s) := by
  unfold focus_and_raise
  dsimp only
  split
  · exact .refl
  · refine .trans ?_ (polite_focus_entry _ _ _)
    exact .windows (same_raise _ _) rfl

theorem Polite.minimize (slot : Slot) (time : U64) :
    Polite sender s (minimize_entry screen answers slot time s) := by
  unfold minimize_entry
  dsimp only
  split
  · exact .refl
  · refine .trans ?_ (polite_focus_entry _ _ _)
    refine .trans ?_ (.entry_event _ _ _ _)
    exact .windows (.set ⟨rfl, rfl, rfl, rfl, rfl⟩) rfl

theorem maximized_same (entry : WindowEntry) : entry.SameWindow (maximized_entry screen entry) := by
  unfold maximized_entry
  dsimp only
  split <;> exact ⟨rfl, rfl, rfl, rfl, rfl⟩

theorem Polite.toggle_maximize (slot : Slot) (time : U64) :
    Polite sender s (toggle_maximize_entry screen answers slot time s) := by
  unfold toggle_maximize_entry
  dsimp only
  split
  · exact .refl
  · refine .trans ?_ (.entry_event _ _ _ _)
    refine .trans ?_ (.entry_event _ _ _ _)
    exact .windows (.set (maximized_same _)) rfl

theorem polite_activate_control (slot : Slot) (region : HitRegion) (time : U64) :
    Polite sender s (activate_control screen answers slot region time s) := by
  unfold activate_control
  split
  · exact .entry_event _ _ _ _
  · exact .minimize _ _
  · exact .toggle_maximize _ _
  · exact .refl

theorem polite_press_window (slot : Slot) (region : HitRegion) (time : U64) (pointer : OsPointerEvent) :
    Polite sender s (press_window screen answers slot region time pointer s) := by
  unfold press_window
  dsimp only
  have hraised : Polite sender s (focus_and_raise screen answers slot time s) :=
    polite_focus_and_raise _ _
  split
  · exact hraised.trans (.windows (.set ⟨rfl, rfl, rfl, rfl, rfl⟩) rfl)
  · exact hraised.trans (.windows (.set ⟨rfl, rfl, rfl, rfl, rfl⟩) rfl)
  · exact hraised.trans (.same rfl rfl)
  · exact hraised.trans (.same rfl rfl)
  · exact hraised.trans (.same rfl rfl)
  · refine .trans ?_ (polite_deliver_pointer _ _ _)
    exact hraised.trans (.same rfl rfl)

theorem geometry_same {width height : U32} {interaction : WindowInteraction} {changed : Bool}
    (h : window_interaction_update_geometry width height interaction entry = (changed, entry')) :
    entry.SameWindow entry' := by
  unfold window_interaction_update_geometry at h
  split at h
  · cases h
    exact .refl _
  split at h
  · dsimp only at h
    cases h
    exact ⟨rfl, rfl, rfl, rfl, rfl⟩
  · dsimp only at h
    cases h
    exact ⟨rfl, rfl, rfl, rfl, rfl⟩
  · cases h
    exact .refl _

theorem polite_drag_window (slot : Slot) (time : U64) :
    Polite sender s (drag_window screen answers slot time s) := by
  unfold drag_window
  dsimp only
  have hdragged : SameWindows s.table (s.table.set slot
      (window_interaction_update_geometry screen.width screen.height s.interaction (s.table.entries slot)).2) :=
    .set (geometry_same rfl)
  split
  · refine .trans ?_ (.entry_event _ _ _ _)
    exact .windows hdragged rfl
  · exact .windows hdragged rfl

section
variable (time : U64) (pointer : OsPointerEvent)
include time pointer

theorem polite_release_capture : Polite sender s (release_capture screen answers time pointer s) := by
  unfold release_capture
  dsimp only
  have hcancelled : ∀ s' : State, Polite sender s s' →
      Polite sender s { s' with interaction := window_interaction_cancel s'.interaction } :=
    fun _ h => h.trans (.same rfl rfl)
  apply hcancelled
  split
  · split
    · split
      · split
        · exact .after (polite_activate_control _ _ _) rfl rfl
        · exact .same rfl rfl
      · exact .same rfl rfl
    · exact .same rfl rfl
  · exact .same rfl rfl

theorem polite_route_pointer : Polite sender s (route_pointer screen answers time pointer s) := by
  unfold route_pointer
  dsimp only
  have hcaptured : ∀ interaction, Polite sender s { s with interaction := interaction } :=
    fun _ => .same rfl rfl
  split
  · split
    · exact hcaptured _
    · split
      · exact (hcaptured _).trans (polite_press_window _ _ _ _)
      · split
        · exact (hcaptured _).trans (polite_deliver_pointer _ _ _)
        · exact hcaptured _
  · split
    · split
      · exact (hcaptured _).trans (polite_drag_window _ _)
      · exact hcaptured _
    · split
      · exact (hcaptured _).trans (polite_drag_window _ _)
      · exact hcaptured _
    · exact (hcaptured _).trans (polite_deliver_pointer _ _ _)
    · exact hcaptured _

theorem polite_point : Polite sender s (point screen answers time pointer s) := by
  unfold point
  dsimp only
  split
  · exact (polite_route_pointer _ _).trans (polite_release_capture _ _)
  · exact polite_route_pointer _ _

end

theorem Polite.pointer_event (time : U64) (raw : OsPointerEvent) :
    Polite sender s (handle_pointer_event screen answers time raw s) := by
  unfold handle_pointer_event
  split
  · exact .refl
  rename_i interaction pointer _
  dsimp only
  have hmoved : Polite sender s (move_cursor screen interaction s) := .same rfl rfl
  split
  · exact (hmoved.trans (polite_point _ _)).trans (.present_or_retry _)
  · exact hmoved.trans (polite_point _ _)

theorem polite_forward_key (payload : Nat → U32) : Polite sender s (forward_key answers payload s) := by
  unfold forward_key
  dsimp only
  split
  · exact .reconcile _ _
  · split
    · exact .reconcile _ _
    · refine .trans ?_ (.event _ _ _ _ _)
      exact (Polite.reconcile _ _).trans (.same rfl rfl)

theorem polite_connect_input (registered : OsProcessIdentity) :
    Polite sender s (connect_input registered s) := by
  unfold connect_input
  split
  · exact .refl
  · exact .same rfl rfl

theorem polite_forward_input (payload : Nat → U32) :
    Polite sender s (forward_input screen answers payload s) := by
  unfold forward_input
  split
  · exact .refl
  · dsimp only
    split
    · exact .after (.pointer_event _ _) rfl rfl
    · exact .after (polite_forward_key _) rfl rfl

/-- Whoever sends it, input only moves, sizes, orders and hides windows. -/
theorem Polite.input_event : Polite sender s (handle_input_event screen answers message s) := by
  unfold handle_input_event
  split
  · exact .same rfl rfl
  split
  · exact .refl
  · split
    · exact .refl
    · split
      · exact polite_connect_input _
      · exact (polite_connect_input _).trans (polite_forward_input _)

end

end mini_kernel.windowd
