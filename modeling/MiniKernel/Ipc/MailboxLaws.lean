-- The laws of the mailbox: the ring is a queue. Each call does to the ring what the
-- model does to a list, and every message that was accepted was delivered, or is in
-- the queue, or was dropped with the whole mailbox.
import MiniKernel.Ipc.Mailbox

open mini_kernel.lib List

namespace mini_kernel.ipc

/-! ## Calls and the model -/

inductive Call
  | push (message : OsIpcMessageV2) (fault acquired : Bool)
  | pop (acquired : Bool)
  | pop_match (filter : Option OsIpcReceiveFilter) (acquired : Bool)
  | drop_all (acquired : Bool)

/-- What a call gives back. -/
inductive Output
  | pushed (result : Bool)
  | popped (message : Option OsIpcMessageV2)
  | dropped

def call (mailbox : KernelIpcMailbox) : Call → Output × KernelIpcMailbox
  | .push message fault acquired =>
    let r := ipc_mailbox_push_v2 mailbox message fault acquired
    (.pushed r.1, r.2)
  | .pop acquired =>
    let r := ipc_mailbox_pop_v2 mailbox acquired
    (.popped r.1, r.2)
  | .pop_match filter acquired =>
    let r := ipc_mailbox_pop_v2_match mailbox filter acquired
    (.popped r.1, r.2)
  | .drop_all acquired => (.dropped, ipc_mailbox_drop_all mailbox acquired)

/-- A bounded queue, with what has gone through it so far. -/
structure Fifo where
  queue : List OsIpcMessageV2
  accepted : List OsIpcMessageV2
  delivered : List OsIpcMessageV2
  discarded : List OsIpcMessageV2

def Fifo.empty : Fifo := ⟨[], [], [], []⟩

/-- The message is delivered, and `rest` is left in the queue. -/
def Fifo.deliver (f : Fifo) (message : OsIpcMessageV2) (rest : List OsIpcMessageV2) : Fifo :=
  { f with queue := rest, delivered := f.delivered ++ [message] }

def Fifo.call (f : Fifo) : Call → Output × Fifo
  | .push message fault acquired =>
    if message_shape_valid_v2 message && !fault && acquired &&
        decide (f.queue.length < IPC_MAILBOX_CAPACITY) then
      (.pushed true, { f with queue := f.queue ++ [message], accepted := f.accepted ++ [message] })
    else (.pushed false, f)
  | .pop acquired =>
    match acquired, f.queue with
    | true, message :: rest => (.popped (some message), f.deliver message rest)
    | _, _ => (.popped none, f)
  | .pop_match filter acquired =>
    match acquired, f.queue.find? (filter_matches filter) with
    | true, some message =>
      (.popped (some message), f.deliver message (f.queue.eraseP (filter_matches filter)))
    | _, _ => (.popped none, f)
  | .drop_all acquired =>
    (.dropped, if acquired then { f with queue := [], discarded := f.discarded ++ f.queue } else f)

/-- A sequence of calls, and what they give back. -/
def calls {σ : Type} (call : σ → Call → Output × σ) : σ → List Call → List Output × σ
  | s, [] => ([], s)
  | s, c :: cs =>
    let r := call s c
    let rest := calls call r.2 cs
    (r.1 :: rest.1, rest.2)

/-! ## The mailbox and the model -/

/-- The ring holds the queue, and the counter counts the deliveries in 32 bits. -/
structure Rep (mailbox : KernelIpcMailbox) (f : Fifo) : Prop where
  ring : InRing clear_message_v2 mailbox.messages mailbox.head mailbox.tail mailbox.count f.queue
  delivered : mailbox.delivered_count = u32 f.delivered.length
  kept : f.accepted.Perm (f.delivered ++ f.queue ++ f.discarded)

section
variable {mailbox : KernelIpcMailbox} {f : Fifo} {message : OsIpcMessageV2}
  {rest : List OsIpcMessageV2}

/-- A message taken out of the queue and delivered. -/
theorem Fifo.kept_deliver (h : f.accepted.Perm (f.delivered ++ f.queue ++ f.discarded))
    (hq : f.queue.Perm (message :: rest)) :
    let f' := f.deliver message rest
    f'.accepted.Perm (f'.delivered ++ f'.queue ++ f'.discarded) := by
  refine h.trans (List.Perm.append_right _ ?_)
  show (f.delivered ++ f.queue).Perm (f.delivered ++ [message] ++ rest)
  rw [append_assoc]
  exact hq.append_left _

theorem u32_succ_length (l : List OsIpcMessageV2) (m : OsIpcMessageV2) :
    u32 (u32 l.length + 1) = u32 (l ++ [m]).length := by
  unfold u32
  rw [length_append, length_singleton, Nat.mod_add_mod]

/-- The call gives back what the model gives, and leaves a mailbox that fits it. -/
def Agrees (mailbox : KernelIpcMailbox) (f : Fifo) (c : Call) : Prop :=
  (call mailbox c).1 = (f.call c).1 ∧ Rep (call mailbox c).2 (f.call c).2

section
variable (h : Rep mailbox f)
include h

theorem Rep.push (message : OsIpcMessageV2) (fault acquired : Bool) :
    Agrees mailbox f (.push message fault acquired) := by
  have hcount := h.ring.count_eq
  have hle := h.ring.le
  simp only [Agrees, call, ipc_mailbox_push_v2, Fifo.call]
  cases message_shape_valid_v2 message <;> cases fault <;> cases acquired <;>
    try exact ⟨rfl, h⟩
  rw [if_neg (by decide), if_neg (by decide), if_neg (by decide)]
  by_cases hfull : mailbox.count = IPC_MAILBOX_CAPACITY
  · rw [if_pos hfull, if_neg (by simp; omega)]
    exact ⟨rfl, ⟨h.ring, h.delivered, h.kept⟩⟩
  have hlt : f.queue.length < IPC_MAILBOX_CAPACITY := by omega
  rw [if_neg hfull, if_pos (by simpa using hlt)]
  refine ⟨rfl, ⟨h.ring.push hlt message, h.delivered, ?_⟩⟩
  refine (h.kept.append_right [message]).trans ?_
  simp only [append_assoc]
  exact (perm_append_comm.append_left _).append_left _

theorem Rep.pop (acquired : Bool) : Agrees mailbox f (.pop acquired) := by
  have hcount := h.ring.count_eq
  simp only [Agrees, call, ipc_mailbox_pop_v2, Fifo.call]
  cases acquired with
  | false => exact ⟨rfl, h⟩
  | true =>
    cases hq : f.queue with
    | nil =>
      rw [hq, length_nil] at hcount
      rw [if_neg (by decide), if_pos hcount]
      exact ⟨rfl, h⟩
    | cons message rest =>
      rw [hq, length_cons] at hcount
      rw [if_neg (by decide), if_neg (by omega)]
      obtain ⟨hv, hring⟩ := (hq ▸ h.ring).pop
      refine ⟨congrArg (Output.popped ∘ some) hv, ⟨hring, ?_, ?_⟩⟩
      · rw [h.delivered]
        exact u32_succ_length _ _
      · exact Fifo.kept_deliver h.kept (hq ▸ List.Perm.refl _)

/-- The loop finds the place of the first message that matches. -/
theorem Rep.found (filter : Option OsIpcReceiveFilter) :
    found_offset mailbox filter = f.queue.findIdx? (filter_matches filter) := by
  have hcount := h.ring.count_eq
  unfold found_offset
  cases hi : f.queue.findIdx? (filter_matches filter) with
  | none =>
    rw [findIdx?_eq_none_iff] at hi
    rw [find?_eq_none]
    intro i hmem
    rw [mem_range, hcount] at hmem
    rw [h.ring.value i hmem, hi _ (get_mem _ _)]
    decide
  | some k =>
    obtain ⟨hk, hm, hbefore⟩ := findIdx?_eq_some_iff_getElem.mp hi
    rw [find?_range_eq_some]
    refine ⟨?_, by rw [mem_range]; omega, ?_⟩
    · rw [h.ring.value k hk]
      exact hm
    · intro j hj
      rw [h.ring.value j (by omega)]
      simpa using hbefore j hj

theorem Rep.pop_match (filter : Option OsIpcReceiveFilter) (acquired : Bool) :
    Agrees mailbox f (.pop_match filter acquired) := by
  have hcount := h.ring.count_eq
  simp only [Agrees, call, ipc_mailbox_pop_v2_match, Fifo.call, h.found]
  cases acquired with
  | false => exact ⟨rfl, h⟩
  | true =>
    rw [if_neg (by decide)]
    cases hi : f.queue.findIdx? (filter_matches filter) with
    | none =>
      have hnone : f.queue.find? (filter_matches filter) = none := by
        rw [findIdx?_eq_none_iff] at hi
        rw [find?_eq_none]
        intro m hm
        rw [hi m hm]
        decide
      rw [hnone]
      split <;> exact ⟨rfl, h⟩
    | some k =>
      obtain ⟨hk, hm, hbefore⟩ := findIdx?_eq_some_iff_getElem.mp hi
      have hfind : f.queue.find? (filter_matches filter) = some (f.queue.get ⟨k, hk⟩) := by
        rw [find?_eq_some_iff_getElem]
        exact ⟨hm, k, hk, rfl, fun j hj => by simpa using hbefore j hj⟩
      have herase : f.queue.eraseP (filter_matches filter) = f.queue.eraseIdx k := by
        rw [eraseP_eq_eraseIdx, hi]
      rw [if_neg (by omega), hfind, herase]
      refine ⟨congrArg (Output.popped ∘ some) (h.ring.value k hk), ⟨h.ring.remove hk, ?_, ?_⟩⟩
      · rw [h.delivered]
        exact u32_succ_length _ _
      · exact Fifo.kept_deliver h.kept (getElem_cons_eraseIdx_perm hk).symm

theorem Rep.drop_all (acquired : Bool) : Agrees mailbox f (.drop_all acquired) := by
  unfold Agrees
  cases acquired with
  | false => exact ⟨rfl, h⟩
  | true =>
    refine ⟨rfl, ⟨inRing_empty, h.delivered, h.kept.trans ?_⟩⟩
    show (f.delivered ++ f.queue ++ f.discarded).Perm
      (f.delivered ++ [] ++ (f.discarded ++ f.queue))
    rw [append_nil, append_assoc]
    exact perm_append_comm.append_left _

theorem Rep.call (c : Call) : Agrees mailbox f c := by
  cases c with
  | push message fault acquired => exact h.push message fault acquired
  | pop acquired => exact h.pop acquired
  | pop_match filter acquired => exact h.pop_match filter acquired
  | drop_all acquired => exact h.drop_all acquired

theorem Rep.calls (cs : List Call) : (calls ipc.call mailbox cs).1 = (calls Fifo.call f cs).1 ∧
      Rep (calls ipc.call mailbox cs).2 (calls Fifo.call f cs).2 := by
  induction cs generalizing mailbox f with
  | nil => exact ⟨rfl, h⟩
  | cons c cs ih =>
    obtain ⟨hout, hrep⟩ := h.call c
    obtain ⟨houts, hreps⟩ := ih hrep
    simp only [ipc.calls]
    rw [hout, houts]
    exact ⟨rfl, hreps⟩

end

end

/-- After any calls the mailbox is the queue of the model: the messages from the head on
are the queue, every other slot is clear, the calls gave what the model gives, and the
accepted messages are those delivered, queued and discarded. -/
theorem the_mailbox_is_a_queue (cs : List Call) :
    let mailbox := (calls call ipc_mailbox_init cs).2
    let f := (calls Fifo.call .empty cs).2
    (calls call ipc_mailbox_init cs).1 = (calls Fifo.call .empty cs).1 ∧
    (range mailbox.count).map (fun i => mailbox.messages (slot _ mailbox.head i)) = f.queue ∧
    mailbox.count ≤ IPC_MAILBOX_CAPACITY ∧
    mailbox.tail = (mailbox.head + mailbox.count) % IPC_MAILBOX_CAPACITY ∧
    (∀ j, (∀ i < mailbox.count, slot _ mailbox.head i ≠ j) →
      mailbox.messages j = clear_message_v2) ∧
    f.accepted.Perm (f.delivered ++ f.queue ++ f.discarded) ∧
    (f.delivered.length < 2 ^ 32 →
      f.accepted.length = mailbox.delivered_count + mailbox.count + f.discarded.length) := by
  have hinit : Rep ipc_mailbox_init .empty := ⟨inRing_empty, rfl, List.Perm.refl _⟩
  obtain ⟨hout, hrep⟩ := hinit.calls cs
  have hcount := hrep.ring.count_eq
  refine ⟨hout, ?_, ?_, hrep.ring.tail_eq, ?_, hrep.kept, ?_⟩
  · exact hrep.ring.entries_eq
  · rw [hcount]
    exact hrep.ring.le
  · rw [hcount]
    exact hrep.ring.rest
  · intro hlt
    have hlen := hrep.kept.length_eq
    rw [length_append, length_append] at hlen
    rw [hrep.delivered, u32_of_lt hlt, hcount]
    exact hlen

end mini_kernel.ipc
