-- A message goes with all its handles or not at all. Whatever fails on the way, the
-- clones that were already made are closed again, and the tables, the counts and the
-- queue of the receiver are as before.
import MiniKernel.Ipc.Runs

open mini_kernel.lib mini_kernel.handle mini_kernel.object Function List Option

namespace mini_kernel.ipc

/-! ## Slots that are lent -/

/-- What is seen of a slot: the type, the rights and the object of a live handle. -/
def live (e : KernelHandle) : Option (Nat × U32 × Nat) :=
  if e.active then some (e.type, e.rights, e.object) else none

theorem live_eq_none {e : KernelHandle} : live e = none ↔ e.active = false := by
  unfold live
  cases e.active <;> simp

/-- A slot and the handle in it. -/
abbrev Loan := HandleSlot × KernelHandle

def Loan.token (l : Loan) : Nat := encode_handle_token l.1 l.2.generation

theorem Loan.token_ne_zero (l : Loan) : l.token ≠ 0 := encode_ne_zero l.1 _

/-- The table differs from what it was in the slots that are lent, and they were free. -/
structure Lent (table table' : KernelHandleTable) (loans : List Loan) : Prop where
  nodup : (loans.map Prod.fst).Nodup
  free : ∀ l ∈ loans, (table.entries l.1).active = false
  stored : ∀ l ∈ loans, table'.entries l.1 = l.2
  active : ∀ l ∈ loans, l.2.active
  generation : ∀ l ∈ loans, 1 ≤ l.2.generation ∧ l.2.generation ≤ OS_HANDLE_TOKEN_GENERATION_MAX
  kept : ∀ i, i ∉ loans.map Prod.fst → live (table'.entries i) = live (table.entries i)
  valid : table'.Valid

section
variable {table table' table'' : KernelHandleTable} {loans : List Loan} {l : Loan}

theorem Lent.refl (h : table.Valid) : Lent table table [] :=
  ⟨nodup_nil, by simp, by simp, by simp, by simp, fun _ _ => rfl, h⟩

section
variable (h : Lent table table' loans)
include h

/-- One more free slot is lent. -/
theorem Lent.add (hfree : (table'.entries l.1).active = false)
    (hactive : l.2.active) (hgeneration : l.2.generation = table'.next_generation)
    (hentries : table''.entries = update table'.entries l.1 l.2) (hv : table''.Valid) :
    Lent table table'' (loans ++ [l]) := by
  have hnew : ∀ l' ∈ loans, l'.1 ≠ l.1 := by
    intro l' hl' heq
    have := h.stored l' hl'
    rw [heq] at this
    rw [this, h.active l' hl'] at hfree
    cases hfree
  have hfirst : l.1 ∉ loans.map Prod.fst := by
    intro hmem
    obtain ⟨l', hl', heq⟩ := mem_map.mp hmem
    exact hnew l' hl' heq
  have hall : ∀ {P : Loan → Prop}, (∀ l' ∈ loans, P l') → P l → ∀ l' ∈ loans ++ [l], P l' :=
    fun hold hl => forall_mem_append.mpr ⟨hold, forall_mem_singleton.mpr hl⟩
  refine ⟨?_, hall h.free ?_, hall (fun l' hl' => ?_) ?_, hall h.active hactive, hall h.generation ?_,
    fun i hi => ?_, hv⟩
  · rw [map_append]
    exact h.nodup.append (nodup_singleton _) (disjoint_singleton.mpr hfirst)
  · apply live_eq_none.mp
    rw [← h.kept l.1 hfirst]
    exact live_eq_none.mpr hfree
  · rw [hentries, update_of_ne (hnew l' hl')]
    exact h.stored l' hl'
  · rw [hentries, update_self]
  · rw [hgeneration]
    exact h.valid
  · rw [map_append, mem_append, not_or] at hi
    have hne : i ≠ l.1 := by
      rintro rfl
      exact hi.2 (by simp)
    rw [hentries, update_of_ne hne]
    exact h.kept i hi.1

/-- The token of a loan resolves to it. -/
theorem Lent.resolve (hl : l ∈ loans) :
    resolve_unlocked table' l.token KERNEL_HANDLE_TYPE_NONE 0 = some l.1 := by
  have hstored := h.stored l hl
  obtain ⟨hpos, hmax⟩ := h.generation l hl
  have hactive : (table'.entries l.1).active := by
    rw [hstored]
    exact h.active l hl
  have := resolve_encode hactive (by rw [hstored]; exact hpos) (by rw [hstored]; exact hmax)
  rw [hstored] at this
  exact this

theorem Lent.resolve_copy (hl : l ∈ loans) :
    kernel_handle_resolve_copy table' l.token KERNEL_HANDLE_TYPE_NONE 0 = some l.2 := by
  unfold kernel_handle_resolve_copy
  rw [h.resolve hl, map_some, h.stored l hl]

end

/-- The first loan is given back. -/
theorem Lent.close (h : Lent table table' (l :: loans)) :
    ∃ table'', kernel_handle_close table' l.token = some (l.2, table'') ∧ Lent table table'' loans := by
  have hstored := h.stored l mem_cons_self
  have hnodup := nodup_cons.mp h.nodup
  have hother : ∀ l' ∈ loans, l'.1 ≠ l.1 := by
    intro l' hl' heq
    exact hnodup.1 (heq ▸ mem_map_of_mem hl')
  refine ⟨{ table' with entries := update table'.entries l.1 (close_entry l.2)
                        active_count := table'.active_count - 1 }, ?_, ?_⟩
  · unfold kernel_handle_close
    rw [h.resolve mem_cons_self, map_some, hstored]
  · refine ⟨hnodup.2, (forall_mem_cons.mp h.free).2, fun l' hl' => ?_,
      (forall_mem_cons.mp h.active).2, (forall_mem_cons.mp h.generation).2, fun i hi => ?_, h.valid⟩
    · simp only [update_of_ne (hother l' hl')]
      exact h.stored l' (mem_cons_of_mem _ hl')
    · by_cases hil : i = l.1
      · subst hil
        simp only [update_self]
        rw [live_eq_none.mpr (h.free l mem_cons_self)]
        rfl
      · simp only [update_of_ne hil]
        apply h.kept
        rw [map_cons, mem_cons, not_or]
        exact ⟨hil, hi⟩

end

/-- A clone fails and leaves the table, or it is a new handle with some of the rights. -/
theorem clone_cases {table : KernelHandleTable} (hv : table.Valid) (o : KernelObjects)
    (source : KernelHandle) (rights : U32) (fault : Bool) :
    (∃ o', kernel_object_clone_handle_with_rights o table source rights fault = (0, o', table)) ∨
    ∃ (l : Loan) (o' : KernelObjects) (table' : KernelHandleTable),
      kernel_object_clone_handle_with_rights o table source rights fault = (l.token, o', table') ∧
      (table.entries l.1).active = false ∧
      l.2 = ⟨true, source.type, rights, table.next_generation, source.object, source.extra⟩ ∧
      table'.entries = update table.entries l.1 l.2 ∧ table'.Valid ∧
      rights &&& ~~~source.rights = 0 := by
  unfold kernel_object_clone_handle_with_rights
  split
  · exact Or.inl ⟨_, rfl⟩
  split
  · exact Or.inl ⟨_, rfl⟩
  rename_i hrights
  split
  · exact Or.inl ⟨_, rfl⟩
  rename_i hcounted
  split
  · exact Or.inl ⟨_, rfl⟩
  rename_i o' _
  have htype : source.type % 2 ^ 8 = source.type := by
    have : source.type = KERNEL_HANDLE_TYPE_SHARED_MEMORY ∨
        source.type = KERNEL_HANDLE_TYPE_GRAPHICS_SURFACE := by
      simpa [is_refcounted_object_type, ← or_iff_not_imp_left] using hcounted
    rcases this with htype | htype
    · rw [htype]
      decide
    · rw [htype]
      decide
  unfold alloc_or_release
  rcases kernel_handle_alloc_cases hv source.type rights source.object source.extra fault with
    ⟨halloc, -⟩ | ⟨i, table', halloc, hfree, hv', hentries⟩
  · left
    rw [halloc]
    exact ⟨_, rfl⟩
  · right
    rw [halloc]
    rw [htype] at hentries
    refine ⟨(i, ⟨true, source.type, rights, table.next_generation, source.object, source.extra⟩), o',
      table', ?_, hfree, rfl, hentries, hv', ?_⟩
    · exact if_neg (encode_ne_zero i _)
    · by_contra hne
      exact hrights (Or.inr hne)

/-! ## The loop over the handles -/

section
variable {n : Nat} {s s' s'' : System n} {sender target : Fin n} {table : KernelHandleTable}
  {loans : List Loan}

/-- Nothing but the handle table of one process, and the objects, may differ. -/
structure Beside (s s' : System n) (target : Fin n) : Prop where
  other : ∀ u, u ≠ target → s'.process u = s.process u
  mailbox : (s'.process target).ipc_mailbox = (s.process target).ipc_mailbox

theorem Beside.refl (s : System n) (target : Fin n) : Beside s s target := ⟨fun _ _ => rfl, rfl⟩

theorem Beside.trans (h : Beside s s' target) (h' : Beside s' s'' target) : Beside s s'' target :=
  ⟨fun u hu => (h'.other u hu).trans (h.other u hu), h'.mailbox.trans h.mailbox⟩

theorem Beside.put (s : System n) (target : Fin n) (objects : KernelObjects)
    (table : KernelHandleTable) : Beside s (s.put target objects table) target := by
  refine ⟨fun u hu => update_of_ne hu _ _, ?_⟩
  unfold System.put System.set_process
  simp only [update_self]

theorem Beside.tables (h : Beside s s' target) {u : Fin n} (hu : u ≠ target) :
    s'.tables u = s.tables u := congrArg Process.handle_table (h.other u hu)

theorem tables_put_self (s : System n) (t : Fin n) (objects : KernelObjects)
    (table : KernelHandleTable) : (s.put t objects table).tables t = table := by
  rw [tables_put, update_self]

/-- The roll-back gives every loan back. -/
theorem rollback_returns (h : Lent table (s.tables target) loans) :
    Lent table ((rollback_transferred_handles s target (loans.map Loan.token)).tables target) [] ∧
      Beside s (rollback_transferred_handles s target (loans.map Loan.token)) target := by
  unfold rollback_transferred_handles
  induction loans generalizing s with
  | nil => exact ⟨h, Beside.refl s target⟩
  | cons l loans ih =>
    obtain ⟨table', hclose, hlent⟩ := h.close
    have hstep : s.close_handle target l.token =
        s.put target (kernel_object_release_handle_object s.objects l.2) table' := by
      unfold System.close_handle kernel_object_close_handle
      rw [show (s.process target).handle_table = s.tables target from rfl, hclose]
    rw [map_cons, foldl_cons, if_pos l.token_ne_zero, hstep]
    rw [← tables_put_self s target (kernel_object_release_handle_object s.objects l.2) table'] at hlent
    obtain ⟨hreturned, hbeside⟩ := ih hlent
    exact ⟨hreturned, (Beside.put s target _ _).trans hbeside⟩

/-- The handle of the sender went over: the receiver's names the same object, with
some of the rights. -/
def PassedOn (sender_table : KernelHandleTable) (handle : Nat) (l : Loan) : Prop :=
  ∃ source, kernel_handle_resolve_copy sender_table handle KERNEL_HANDLE_TYPE_NONE
      KERNEL_HANDLE_RIGHT_TRANSFER = some source ∧
    l.2.type = source.type ∧ l.2.object = source.object ∧ l.2.rights &&& ~~~source.rights = 0

/-- What the loop leaves behind, by its result. -/
structure LoopDone (s₀ : System n) (sender target : Fin n) (handles : List Nat)
    (r : IpcResult × List Nat × System n) : Prop where
  passed : r.1 = .ok → ∃ loans, r.2.1 = loans.map Loan.token ∧
    Lent (s₀.tables target) (r.2.2.tables target) loans ∧
    List.Forall₂ (PassedOn (s₀.tables sender)) handles loans
  failed : r.1 ≠ .ok → Lent (s₀.tables target) (r.2.2.tables target) []
  beside : Beside s₀ r.2.2 target

theorem transfer_loop_done (hne : sender ≠ target) (s₀ : System n) (faults : Nat → Bool)
    (handles : List Nat) : ∀ (s : System n) (loans : List Loan) (passed : List Nat),
    Lent (s₀.tables target) (s.tables target) loans → Beside s₀ s target →
    List.Forall₂ (PassedOn (s₀.tables sender)) passed loans →
    LoopDone s₀ sender target (passed ++ handles)
      (transfer_loop sender target faults s (loans.map Loan.token) handles) := by
  induction handles with
  | nil =>
    intro s loans passed hlent hbeside hpassed
    rw [append_nil]
    exact ⟨fun _ => ⟨loans, rfl, hlent, hpassed⟩, fun h => absurd rfl h, hbeside⟩
  | cons handle handles ih =>
    intro s loans passed hlent hbeside hpassed
    have hsender : (s.process sender).handle_table = s₀.tables sender := hbeside.tables hne
    obtain ⟨hreturned, hback⟩ := rollback_returns hlent
    unfold transfer_loop
    split
    · exact ⟨(fun h => by cases h), fun _ => hreturned, hbeside.trans hback⟩
    rename_i source hsource
    rw [hsender] at hsource
    split
    · exact ⟨(fun h => by cases h), fun _ => hreturned, hbeside.trans hback⟩
    rename_i rights hrights
    unfold System.clone_handle_with_rights
    rw [show (s.process target).handle_table = s.tables target from rfl]
    rcases clone_cases hlent.valid s.objects source rights (faults (loans.map Loan.token).length) with
      ⟨o', hclone⟩ | ⟨l, o', table', hclone, hfree, hl, hentries, hv, hsubset⟩
    · rw [hclone]
      -- no clone: the receiver's table is as it was, and the loans go back
      have hput := tables_put_self s target o' (s.tables target)
      have hlent' : Lent (s₀.tables target) ((s.put target o' (s.tables target)).tables target) loans := by
        rw [hput]
        exact hlent
      obtain ⟨hreturned, hafter⟩ := rollback_returns hlent'
      exact ⟨(fun h => by cases h), fun _ => hreturned,
        (hbeside.trans (Beside.put s target _ _)).trans hafter⟩
    · rw [hclone]
      simp only [if_neg l.token_ne_zero]
      have hput := tables_put_self s target o' table'
      have hadd : Lent (s₀.tables target) ((s.put target o' table').tables target) (loans ++ [l]) := by
        rw [hput]
        exact hlent.add hfree (by rw [hl]) (by rw [hl]) hentries hv
      have hone : PassedOn (s₀.tables sender) handle l := by
        refine ⟨source, hsource, ?_, ?_, ?_⟩
        · rw [hl]
        · rw [hl]
        · rw [hl]
          exact hsubset
      have hnext := ih (s.put target o' table') (loans ++ [l]) (passed ++ [handle]) hadd
        (hbeside.trans (Beside.put s target _ _))
        (rel_append hpassed (List.Forall₂.cons hone List.Forall₂.nil))
      rw [append_assoc, singleton_append, map_append] at hnext
      exact hnext

/-! ## The whole call -/

/-- The processes of the kernel. -/
def PROCESS_TABLE_SIZE : Nat := 16

/-- The messages in the queue, oldest first. -/
def queued (mailbox : KernelIpcMailbox) : List OsIpcMessageV2 :=
  (range mailbox.count).map fun i => mailbox.messages (slot _ mailbox.head i)

variable {message : OsIpcMessageV2}

theorem queued_push_failed {mailbox mailbox' : KernelIpcMailbox} {fault acquired : Bool}
    (h : ipc_mailbox_push_v2 mailbox message fault acquired = (false, mailbox')) :
    queued mailbox' = queued mailbox := by
  unfold ipc_mailbox_push_v2 at h
  split_ifs at h
  · exact congrArg queued (Prod.mk.inj h).2.symm
  · exact congrArg queued (Prod.mk.inj h).2.symm
  · exact congrArg queued (Prod.mk.inj h).2.symm
  · rw [← (Prod.mk.inj h).2]
    rfl
  · cases h

/-- The handles that a prepared message names. -/
theorem tokens_get (message : OsIpcMessageV2) {k : Fin OS_IPC_V2_MAX_HANDLES}
    (hk : k.val < message.handle_count.toNat) : message.tokens[k.val]? = some (message.handles k).toNat := by
  unfold OsIpcMessageV2.tokens
  rw [getElem?_map, getElem?_take_of_lt hk, List.getElem?_ofFn, dif_pos k.isLt]
  rfl

theorem length_tokens (message : OsIpcMessageV2) (h : message.handle_count.toNat ≤ OS_IPC_V2_MAX_HANDLES) :
    message.tokens.length = message.handle_count.toNat := by
  unfold OsIpcMessageV2.tokens
  rw [length_map, length_take, length_ofFn]
  omega

theorem tokens_ext {l : List Nat} (h : message.handle_count.toNat ≤ OS_IPC_V2_MAX_HANDLES)
    (hlength : l.length = message.handle_count.toNat) (hget : ∀ k : Fin OS_IPC_V2_MAX_HANDLES,
      k.val < message.handle_count.toNat → l[k.val]? = some (message.handles k).toNat) :
    message.tokens = l := by
  apply ext_getElem?
  intro i
  by_cases hi : i < message.handle_count.toNat
  · rw [tokens_get message (k := ⟨i, by omega⟩) hi, hget ⟨i, by omega⟩ hi]
  · rw [getElem?_eq_none (by rw [length_tokens message h]; omega), getElem?_eq_none (by omega)]

/-- New handles are read back from the message. -/
theorem tokens_with_handles {new_handles : List Nat} (h : message.handle_count.toNat ≤ OS_IPC_V2_MAX_HANDLES)
    (hlength : new_handles.length = message.handle_count.toNat)
    (hfits : ∀ handle ∈ new_handles, handle < 2 ^ 64) :
    (message.with_handles new_handles).tokens = new_handles := by
  refine tokens_ext h hlength fun k hk => ?_
  have hlt : k.val < new_handles.length := hk.trans_eq hlength.symm
  have hfit := hfits _ (getElem_mem hlt)
  simp only [OsIpcMessageV2.with_handles] at hk
  simp only [OsIpcMessageV2.with_handles, if_pos hk, getD_eq_getElem?_getD,
    getElem?_eq_getElem hlt, getD_some, BitVec.toNat_ofNat, Nat.mod_eq_of_lt hfit]

/-- What a preparation leaves behind, by its result. -/
structure Prepared (s : System n) (sender target : Fin n) (message : OsIpcMessageV2)
    (r : IpcResult × OsIpcMessageV2 × System n) : Prop where
  passed : r.1 = .ok → r.2.1.handle_count = message.handle_count ∧
    message.handle_count.toNat ≤ OS_IPC_V2_MAX_HANDLES ∧
    ∃ loans, r.2.1.tokens = loans.map Loan.token ∧
      Lent (s.tables target) (r.2.2.tables target) loans ∧
      List.Forall₂ (PassedOn (s.tables sender)) message.tokens loans
  failed : r.1 ≠ .ok → Lent (s.tables target) (r.2.2.tables target) []
  beside : Beside s r.2.2 target

theorem transfer_handles_prepared (hne : sender ≠ target) (hv : (s.tables target).Valid)
    (prepared : OsIpcMessageV2) (hcount : prepared.handle_count.toNat ≤ OS_IPC_V2_MAX_HANDLES)
    (faults : Nat → Bool) :
    Prepared s sender target prepared (transfer_handles s sender target prepared faults) := by
  unfold transfer_handles
  split
  · rename_i hzero
    have htokens : prepared.tokens = [] := by
      unfold OsIpcMessageV2.tokens
      rw [hzero]
      rfl
    refine ⟨fun _ => ⟨rfl, hcount, [], htokens, Lent.refl hv, ?_⟩, fun h => absurd rfl h,
      Beside.refl s target⟩
    rw [htokens]
    exact List.Forall₂.nil
  · have hloop := transfer_loop_done hne s faults prepared.tokens s [] [] (Lent.refl hv)
      (Beside.refl s target) List.Forall₂.nil
    rw [map_nil, nil_append] at hloop
    split
    · rename_i new_handles s' heq
      rw [heq] at hloop
      obtain ⟨loans, hnew, hlent, hpassed⟩ := hloop.passed rfl
      simp only at hnew
      subst hnew
      refine ⟨fun _ => ⟨rfl, hcount, loans, tokens_with_handles hcount ?_ ?_, hlent, hpassed⟩,
        fun h => absurd rfl h, hloop.beside⟩
      · rw [length_map, ← hpassed.length_eq, length_tokens prepared hcount]
      · intro handle hmem
        obtain ⟨l, hl, rfl⟩ := mem_map.mp hmem
        have := encode_le l.1 (hlent.generation l hl).2
        unfold Loan.token
        omega
    · rename_i result new_handles s' hnot heq
      rw [heq] at hloop
      exact ⟨fun h => absurd h hnot, hloop.failed, hloop.beside⟩

theorem handle_count_le (h : ipc_validate_user_message_v2 message = .ok) :
    message.handle_count.toNat ≤ OS_IPC_V2_MAX_HANDLES := by
  unfold ipc_validate_user_message_v2 at h
  by_contra hlt
  rw [if_pos (show message.handle_count.toNat > OS_IPC_V2_MAX_HANDLES by omega)] at h
  split_ifs at h

theorem prepare_prepared (hne : sender ≠ target) (hv : (s.tables target).Valid)
    (message : OsIpcMessageV2) (faults : Nat → Bool) :
    Prepared s sender target message (ipc_prepare_message_v2 s sender target message faults) := by
  unfold ipc_prepare_message_v2
  split
  · rename_i hvalid
    have hcount := handle_count_le hvalid
    let prepared : OsIpcMessageV2 := { message with
      size := sizeofMessageV2
      abi_version := OS64_IPC_ABI_VERSION_V2
      sender_pid := (s.process sender).pid
      sender_generation := (s.process sender).generation
      payload := fun i => if i.val < message.length.toNat then message.payload i else 0
      handles := fun i => if i.val < message.handle_count.toNat then message.handles i else 0 }
    -- the handles that are used are those of the message
    have htokens : prepared.tokens = message.tokens := by
      refine tokens_ext hcount (length_tokens message hcount) fun k hk => ?_
      rw [tokens_get message hk]
      exact congrArg (fun w => some (BitVec.toNat w)) (if_pos hk).symm
    have h := transfer_handles_prepared (s := s) hne hv prepared hcount faults
    refine ⟨fun hok => ?_, h.failed, h.beside⟩
    rw [← htokens]
    exact h.passed hok
  · rename_i result hnot
    exact ⟨fun h => absurd h hnot, fun _ => Lent.refl hv, Beside.refl s target⟩

/-- The tables show the same live handles. -/
def SameHandles (s s' : System n) : Prop := ∀ p, live (entry s'.tables p) = live (entry s.tables p)

/-- The live handles determine every count. -/
theorem SameHandles.ref_count (h : SameHandles s s') (hs : s.Books) (hs' : s'.Books)
    (x : ObjectName) : (s'.objects x).ref_count = (s.objects x).ref_count := by
  have hnamed : ∀ e e' : KernelHandle, live e' = live e → named e' = named e := by
    intro e e' he
    unfold live at he
    unfold named
    cases hactive : e.active with
    | false => cases hactive' : e'.active <;> simp_all
    | true =>
      cases hactive' : e'.active with
      | false => simp_all
      | true =>
        simp only [hactive, hactive', if_true, some.injEq, Prod.mk.injEq] at he ⊢
        rw [reference_congr he.1 he.2.2]
  have hcount := hs.balanced x
  have hcount' := hs'.balanced x
  have hsame : (fun p => named (entry s'.tables p)) = fun p => named (entry s.tables p) :=
    funext fun p => hnamed _ _ (h p)
  rw [hsame] at hcount'
  exact hcount'.trans hcount.symm

/-- Of the processes of the kernel: a send that fails leaves the live handles of every
table, every count and the queue of the receiver as they were. After a send that
succeeds each handle in the message that was queued names the object of the sender's
handle, with some of its rights. -/
theorem a_message_goes_with_its_handles_or_not_at_all {s : System PROCESS_TABLE_SIZE}
    (hr : (handles PROCESS_TABLE_SIZE).Reachable s) (sender target : Fin PROCESS_TABLE_SIZE)
    (message : OsIpcMessageV2) (faults : Nat → Bool) (push_fault acquired : Bool)
    {result : IpcResult} {s' : System PROCESS_TABLE_SIZE}
    (hsend : ipc_send_message_v2 s sender target message faults push_fault acquired =
      (result, s')) :
    (result ≠ .ok → SameHandles s s' ∧
      (∀ x, (s'.objects.header x).ref_count = (s.objects.header x).ref_count) ∧
      queued (s'.process target).ipc_mailbox = queued (s.process target).ipc_mailbox) ∧
    (result = .ok → ∃ delivered,
      ipc_mailbox_push_v2 (s.process target).ipc_mailbox delivered push_fault acquired =
        (true, (s'.process target).ipc_mailbox) ∧
      delivered.handle_count = message.handle_count ∧
      ∀ k : Fin OS_IPC_V2_MAX_HANDLES, k.val < message.handle_count.toNat →
        ∃ source received,
          kernel_handle_resolve_copy (s.tables sender) (message.handles k).toNat
            KERNEL_HANDLE_TYPE_NONE KERNEL_HANDLE_RIGHT_TRANSFER = some source ∧
          kernel_handle_resolve_copy (s'.tables target) (delivered.handles k).toNat
            KERNEL_HANDLE_TYPE_NONE 0 = some received ∧
          received.type = source.type ∧ received.object = source.object ∧
          received.rights &&& ~~~source.rights = 0) := by
  have hn : PROCESS_TABLE_SIZE * KERNEL_HANDLE_TABLE_SIZE < 2 ^ 32 := by decide
  have hbooks := System.Books.reachable hn hr
  have hbooks' : s'.Books := by
    have := hbooks.send hn sender target message faults push_fault acquired
    rw [hsend] at this
    exact this
  have hv : (s.tables target).Valid := hbooks.valid target
  -- a failure is settled by the table of the receiver and by its queue
  have hfailed : Lent (s.tables target) (s'.tables target) [] →
      (∀ u, u ≠ target → s'.process u = s.process u) →
      queued (s'.process target).ipc_mailbox = queued (s.process target).ipc_mailbox →
      SameHandles s s' ∧
      (∀ x, (s'.objects x).ref_count = (s.objects x).ref_count) ∧
      queued (s'.process target).ipc_mailbox = queued (s.process target).ipc_mailbox := by
    intro hlent hother hqueued
    have hsame : SameHandles s s' := by
      rintro ⟨u, i⟩
      by_cases hu : u = target
      · subst hu
        exact hlent.kept i not_mem_nil
      · unfold entry System.tables
        rw [hother u hu]
    exact ⟨hsame, hsame.ref_count hbooks hbooks', hqueued⟩
  unfold ipc_send_message_v2 at hsend
  split at hsend
  · cases hsend
    exact ⟨fun _ => hfailed (Lent.refl hv) (fun _ _ => rfl) rfl, fun h => by cases h⟩
  split at hsend
  · cases hsend
    exact ⟨fun _ => hfailed (Lent.refl hv) (fun _ _ => rfl) rfl, fun h => by cases h⟩
  split at hsend
  · cases hsend
    exact ⟨fun _ => hfailed (Lent.refl hv) (fun _ _ => rfl) rfl, fun h => by cases h⟩
  rename_i hpid
  have hne : sender ≠ target := by
    rintro rfl
    exact hpid rfl
  have hprepared := prepare_prepared hne hv message faults
  split at hsend
  · rename_i prepared s₁ heq
    rw [heq] at hprepared
    obtain ⟨hcount, hmax, loans, htokens, hlent, hpassed⟩ := hprepared.passed rfl
    have hbeside := hprepared.beside
    simp only at hcount htokens hlent hbeside
    rcases hpush : ipc_mailbox_push_v2 (s₁.process target).ipc_mailbox prepared push_fault acquired
      with ⟨pushed, mailbox⟩
    have hpush' := hpush
    rw [hbeside.mailbox] at hpush'
    rw [hpush] at hsend
    have htable : (s₁.set_process target { s₁.process target with ipc_mailbox := mailbox }).tables
        target = s₁.tables target := by
      rw [tables_set_process, update_self]
      rfl
    cases pushed with
    | false =>
      simp only [Bool.not_false, if_true, Prod.mk.injEq] at hsend
      obtain ⟨rfl, rfl⟩ := hsend
      rw [← htable] at hlent
      obtain ⟨hreturned, hback⟩ := rollback_returns hlent
      rw [← htokens] at hreturned hback
      refine ⟨fun _ => hfailed hreturned (fun u hu => ?_) ?_, fun h => by cases h⟩
      · rw [hback.other u hu, ← hbeside.other u hu]
        exact update_of_ne hu _ _
      · rw [hback.mailbox]
        simp only [System.set_process, update_self]
        exact queued_push_failed hpush'
    | true =>
      simp only [Bool.not_true, Bool.false_eq_true, if_false, Prod.mk.injEq] at hsend
      obtain ⟨rfl, rfl⟩ := hsend
      refine ⟨fun h => absurd rfl h, fun _ => ⟨prepared, ?_, hcount, fun k hk => ?_⟩⟩
      · simp only [System.set_process, update_self]
        exact hpush'
      · rw [htable]
        have hsource := tokens_get message hk
        have hreceived := tokens_get prepared (k := k) (by rw [hcount]; exact hk)
        rw [htokens, getElem?_map] at hreceived
        obtain ⟨l, hl, htoken⟩ := map_eq_some_iff.mp hreceived
        obtain ⟨hlt, hget⟩ := List.getElem?_eq_some_iff.mp hl
        obtain ⟨hlt', hget'⟩ := List.getElem?_eq_some_iff.mp hsource
        have hpair := (forall₂_iff_get.mp hpassed).2 k.val hlt' hlt
        simp only [get_eq_getElem, hget, hget'] at hpair
        obtain ⟨source, hresolve, htype, hobject, hrights⟩ := hpair
        have hmem : l ∈ loans := mem_of_getElem? hl
        rw [← htoken]
        exact ⟨source, l.2, hresolve, hlent.resolve_copy hmem, htype, hobject, hrights⟩
  · rename_i result' prepared s₁ hnot heq
    rw [heq] at hprepared
    simp only [Prod.mk.injEq] at hsend
    obtain ⟨rfl, rfl⟩ := hsend
    have hbeside := hprepared.beside
    refine ⟨fun _ => hfailed (hprepared.failed hnot) hbeside.other ?_, fun h => absurd h hnot⟩
    rw [hbeside.mailbox]

/-- The first process has a handle to shared memory that it may send. -/
def sending : List (HandleCall PROCESS_TABLE_SIZE) :=
  [.shared_memory_create ⟨0, by decide⟩ 1 4096 KERNEL_HANDLE_RIGHT_TRANSFER false 1 false]

def sent_message : OsIpcMessageV2 :=
  { clear_message_v2 with
    type := OS_IPC_MESSAGE_EVENT
    flags := OS_IPC_FLAG_HAS_HANDLES
    handle_count := 1
    handles := fun i => if i.val = 0 then BitVec.ofNat 64 (encode_handle_token 0 1) else 0 }

/-- A message with a handle is sent to the second process: once it goes, and once a
fault in the mailbox stops it. -/
theorem a_handle_is_sent_or_kept : ∃ s : System PROCESS_TABLE_SIZE,
    (handles PROCESS_TABLE_SIZE).Reachable s ∧
    (ipc_send_message_v2 s ⟨0, by decide⟩ ⟨1, by decide⟩ sent_message (fun _ => false) false
      true).1 = .ok ∧
    (ipc_send_message_v2 s ⟨0, by decide⟩ ⟨1, by decide⟩ sent_message (fun _ => false) true
      true).1 = .queue_full ∧
    SameHandles s (ipc_send_message_v2 s ⟨0, by decide⟩ ⟨1, by decide⟩ sent_message
      (fun _ => false) true true).2 := by
  obtain ⟨s, hr, hok, hfull⟩ : ∃ s : System PROCESS_TABLE_SIZE, (handles PROCESS_TABLE_SIZE).Reachable s ∧
      (ipc_send_message_v2 s ⟨0, by decide⟩ ⟨1, by decide⟩ sent_message (fun _ => false) false
        true).1 = .ok ∧
      (ipc_send_message_v2 s ⟨0, by decide⟩ ⟨1, by decide⟩ sent_message (fun _ => false) true
        true).1 = .queue_full :=
    Machine.exists_reachable (fresh_reachable PROCESS_TABLE_SIZE) sending (by decide +kernel)
  have h := a_message_goes_with_its_handles_or_not_at_all hr ⟨0, by decide⟩ ⟨1, by decide⟩
    sent_message (fun _ => false) true true (Prod.mk.eta).symm
  refine ⟨s, hr, hok, hfull, (h.1 ?_).1⟩
  rw [hfull]
  decide

end

end mini_kernel.ipc
