-- Whole runs of calls on handles. Any number of processes make shared memory and
-- surfaces, clone, send and close handles, in any order and with any failures: each
-- object counts exactly the handles to it and goes with the last one.
import MiniKernel.Handle.Counts
import MiniKernel.Ipc.Transfer
import MiniKernel.Lib.Machine

open mini_kernel.lib mini_kernel.handle mini_kernel.object Function List

namespace mini_kernel.ipc

section
variable {n : Nat} {s : System n}

/-! ## The calls -/

/-- One call with the answers of the allocators and the faults in it. -/
inductive HandleCall (n : Nat)
  | shared_memory_create (table : Fin n) (owner_pid size : Nat) (rights : U32)
      (fault : Bool) (bytes : Nat) (handle_fault : Bool)
  | graphics_surface_create (table : Fin n) (owner_pid width height pixel_format : Nat)
      (rights : U32) (pages handle_fault : Bool)
  | clone_handle_with_rights (table : Fin n) (source : KernelHandle) (rights : U32)
      (fault : Bool)
  | close_handle (table : Fin n) (handle : Nat)
  | release_table (table : Fin n)
  | send_message_v2 (sender target : Fin n) (message : OsIpcMessageV2) (faults : Nat → Bool)
      (push_fault acquired : Bool)
  /-- A handle of another type, such as one to a file. -/
  | other_handle (table : Fin n) (type : Nat) (rights : U32) (object extra : Nat)
      (fault : Bool)
  /-- Whatever happens to a process but to its handles. -/
  | other_process (process : Fin n) (pid generation : U32) (active : Bool)
      (state : ProcessState) (ipc_mailbox : KernelIpcMailbox)

/-- The system after a call. `kmalloc` returns no buffer that is in use. -/
def System.call (s : System n) : HandleCall n → Option (System n)
  | .shared_memory_create t owner_pid size rights fault bytes handle_fault =>
    if bytes = 0 ∨ bytes ∉ s.objects.allocated then
      let (_, objects, table) := kernel_shared_memory_create s.objects (s.tables t) owner_pid size
        rights fault bytes handle_fault
      some (s.put t objects table)
    else none
  | .graphics_surface_create t owner_pid width height pixel_format rights pages handle_fault =>
    let (_, objects, table) := kernel_graphics_surface_create s.objects (s.tables t) owner_pid width
      height pixel_format rights pages handle_fault
    some (s.put t objects table)
  | .clone_handle_with_rights t source rights fault =>
    some (s.clone_handle_with_rights t source rights fault).2
  | .close_handle t handle => some (s.close_handle t handle)
  | .release_table t =>
    let (_, objects, table) := kernel_object_release_table s.objects (s.tables t)
    some (s.put t objects table)
  | .send_message_v2 sender target message faults push_fault acquired =>
    some (ipc_send_message_v2 s sender target message faults push_fault acquired).2
  | .other_handle t type rights object extra fault =>
    if type < 2 ^ 8 ∧ is_refcounted_object_type type = false then
      some (s.put t s.objects (kernel_handle_alloc (s.tables t) type rights object extra fault).2)
    else none
  | .other_process t pid generation active state ipc_mailbox =>
    some (s.set_process t { s.process t with pid, generation, active, state, ipc_mailbox })

/-- No object and no handle at first. -/
def System.Start (s : System n) : Prop :=
  s.objects = kernel_objects_init ∧ ∀ t, s.tables t = kernel_handle_table_init

def handles (n : Nat) : Machine (System n) (HandleCall n) := Machine.ofFun System.Start System.call

/-! ## The books along a run -/

/-- The books of the system are in order. -/
def System.Books (s : System n) : Prop := Ordered s.objects s.tables []

theorem tables_set_process (s : System n) (t : Fin n) (process : Process) :
    (s.set_process t process).tables = update s.tables t process.handle_table := by
  funext u
  unfold System.set_process System.tables
  by_cases hu : u = t
  · subst hu
    simp
  · simp [update_of_ne hu]

theorem tables_put (s : System n) (t : Fin n) (objects : KernelObjects) (table : KernelHandleTable) :
    (s.put t objects table).tables = update s.tables t table :=
  tables_set_process { s with objects := objects } t _

theorem System.Books.put {t : Fin n} {objects : KernelObjects} {table : KernelHandleTable}
    (h : Ordered objects (update s.tables t table) []) : (s.put t objects table).Books := by
  unfold System.Books
  rw [tables_put]
  exact h

section
variable (h : s.Books)
include h

theorem System.Books.close (t : Fin n) (handle : Nat) :
    (s.close_handle t handle).Books := System.Books.put (Ordered.close h t handle)

theorem System.Books.clone (hn : n * KERNEL_HANDLE_TABLE_SIZE < 2 ^ 32) (t : Fin n)
    (source : KernelHandle) (rights : U32) (fault : Bool) :
    (s.clone_handle_with_rights t source rights fault).2.Books := by
  refine System.Books.put (Ordered.clone h ?_ t source rights fault)
  unfold KERNEL_HANDLE_TABLE_SIZE at *
  simp only [length_nil]
  omega

theorem System.Books.rollback (target : Fin n) (handles : List Nat) :
    (rollback_transferred_handles s target handles).Books := by
  unfold rollback_transferred_handles
  induction handles generalizing s with
  | nil => exact h
  | cons handle handles ih =>
    rw [foldl_cons]
    apply ih
    split
    · exact h.close target handle
    · exact h

section
variable (hn : n * KERNEL_HANDLE_TABLE_SIZE < 2 ^ 32) (sender target : Fin n)
include hn sender target

theorem System.Books.transfer_loop (faults : Nat → Bool) (new_handles handles : List Nat) :
    (transfer_loop sender target faults s new_handles handles).2.2.Books := by
  induction handles generalizing s new_handles with
  | nil => exact h
  | cons handle handles ih =>
    unfold mini_kernel.ipc.transfer_loop
    split
    · exact h.rollback target new_handles
    rename_i source _
    split
    · exact h.rollback target new_handles
    rename_i rights _
    have hclone := h.clone hn target source rights (faults new_handles.length)
    simp only
    split
    · exact hclone.rollback target new_handles
    · exact ih hclone _

theorem System.Books.transfer_handles (prepared : OsIpcMessageV2) (faults : Nat → Bool) :
    (transfer_handles s sender target prepared faults).2.2.Books := by
  have hloop := h.transfer_loop hn sender target faults [] prepared.tokens
  unfold mini_kernel.ipc.transfer_handles
  split
  · exact h
  split
  · rename_i heq
    rw [heq] at hloop
    exact hloop
  · rename_i heq
    rw [heq] at hloop
    exact hloop

theorem System.Books.prepare (message : OsIpcMessageV2) (faults : Nat → Bool) :
    (ipc_prepare_message_v2 s sender target message faults).2.2.Books := by
  unfold ipc_prepare_message_v2
  split
  · exact h.transfer_handles hn sender target _ faults
  · exact h

end

/-- What a process is but its handles is no part of the books. -/
theorem System.Books.set_process (t : Fin n) {process : Process}
    (hp : process.handle_table = (s.process t).handle_table) : (s.set_process t process).Books := by
  unfold System.Books
  rw [tables_set_process, hp, show (s.process t).handle_table = s.tables t from rfl,
    update_eq_self]
  exact h

theorem System.Books.send (hn : n * KERNEL_HANDLE_TABLE_SIZE < 2 ^ 32)
    (sender target : Fin n) (message : OsIpcMessageV2) (faults : Nat → Bool) (push_fault acquired : Bool) :
    (ipc_send_message_v2 s sender target message faults push_fault acquired).2.Books := by
  have hprepare := h.prepare hn sender target message faults
  unfold ipc_send_message_v2
  split
  · exact h
  split
  · exact h
  split
  · exact h
  split
  · rename_i prepared s' heq
    rw [heq] at hprepare
    have hpushed : ∀ mailbox : KernelIpcMailbox,
        (s'.set_process target { s'.process target with ipc_mailbox := mailbox }).Books :=
      fun mailbox => System.Books.set_process hprepare target rfl
    simp only
    split
    · exact System.Books.rollback (hpushed _) target _
    · exact hpushed _
  · rename_i result prepared s' _ heq
    rw [heq] at hprepare
    exact hprepare

/-- A handle of a type that is not counted. -/
theorem System.Books.other_handle (t : Fin n) {type : Nat} (htype : type < 2 ^ 8)
    (hcounted : is_refcounted_object_type type = false) (rights : U32) (object extra : Nat)
    (fault : Bool) :
    (s.put t s.objects (kernel_handle_alloc (s.tables t) type rights object extra fault).2).Books := by
  have hreference : reference (failed_handle type object) = none := by
    by_contra hne
    obtain ⟨⟨x, g⟩, hx⟩ := Option.ne_none_iff_exists'.mp hne
    have := counted_of_reference hx
    simp only [failed_handle] at this
    rw [hcounted] at this
    cases this
  have hhand : Ordered s.objects s.tables [failed_handle type object] := by
    refine ⟨?_, h.stored, ?_, h.alive, h.held, h.valid⟩
    · have hnamed : named (failed_handle type object) = none := by
        unfold named
        rw [hreference]
        rfl
      rw [filterMap_cons, hnamed]
      exact h.balanced
    · rw [forall_mem_singleton]
      refine ⟨rfl, fun hc => ?_⟩
      simp only [failed_handle] at hc
      rw [hcounted] at hc
      cases hc
  apply System.Books.put
  rcases kernel_handle_alloc_cases (h.valid t) type rights object extra fault with
    ⟨halloc, -⟩ | ⟨i, table', halloc, hfree, hv, hentries⟩
  · rw [halloc, update_eq_self]
    exact h
  · rw [halloc]
    exact hhand.store htype hfree hv hentries

/-- Every call keeps the books in order. -/
theorem System.Books.call {s' : System n} {c : HandleCall n}
    (hn : n * KERNEL_HANDLE_TABLE_SIZE < 2 ^ 32) (hc : s.call c = some s') : s'.Books := by
  unfold System.call at hc
  split at hc
  · split at hc
    · rename_i hbytes
      cases hc
      exact System.Books.put (Ordered.shared_memory_create h _ _ _ _ _ hbytes _)
    · cases hc
  · cases hc
    exact System.Books.put (Ordered.graphics_surface_create h _ _ _ _ _ _ _ _)
  · cases hc
    exact h.clone hn _ _ _ _
  · cases hc
    exact h.close _ _
  · cases hc
    exact System.Books.put (Ordered.release_table h _)
  · cases hc
    exact h.send hn _ _ _ _ _ _
  · split at hc
    · rename_i hother
      cases hc
      exact h.other_handle _ hother.1 hother.2 _ _ _ _
    · cases hc
  · cases hc
    exact h.set_process _ rfl

end

theorem System.Books.reachable (hn : n * KERNEL_HANDLE_TABLE_SIZE < 2 ^ 32)
    (hr : (handles n).Reachable s) : s.Books := by
  refine hr.inv ?_ fun s c s' h hc => h.call hn hc
  intro s hs
  have htables : s.tables = fun _ => kernel_handle_table_init := funext hs.2
  unfold System.Books
  rw [hs.1, htables]
  exact ordered_init

/-! ## The law -/

/-- The number of active handles, in all tables, of the type of the object and with its
current id. -/
def live_handles (s : System n) (x : ObjectName) : Nat :=
  countOf (fun e : KernelHandle => e.active && e.type == x.type && e.object == s.objects.object_id x)
    (entry s.tables)

/-- An entry that is active and has the type and the id of an object names it. -/
theorem System.Books.named_iff (h : s.Books) (p : Place n) (x : ObjectName) :
    named (entry s.tables p) = some x ↔ (entry s.tables p).active ∧
      (entry s.tables p).type = x.type ∧ (entry s.tables p).object = s.objects.object_id x := by
  constructor
  · intro hx
    have hactive : (entry s.tables p).active := by
      by_contra hne
      rw [named_inactive (by simpa using hne)] at hx
      cases hx
    have hc := (h.stored p hactive).current hx
    obtain ⟨htype, hobject, -⟩ := reference_iff.mp hc.1
    exact ⟨hactive, htype, hobject⟩
  · rintro ⟨hactive, htype, hobject⟩
    have hcounted : is_refcounted_object_type (entry s.tables p).type := by
      rw [htype]
      cases x <;> rfl
    obtain ⟨y, hy⟩ := h.stored p hactive hcounted
    obtain ⟨hytype, hyobject, hyne⟩ := reference_iff.mp hy.1
    -- the type and the id of two objects are the same for the same object only
    have hxy : y = x := by
      rw [htype] at hytype
      rw [hobject] at hyobject
      exact object_id_inj hytype.symm hyobject.symm
    subst hxy
    exact hy.named hactive

theorem System.Books.live_handles_eq (h : s.Books) (x : ObjectName) :
    live_handles s x = (s.objects x).ref_count := by
  have hcount := h.balanced x
  rw [filterMap_nil, count_nil, Nat.add_zero] at hcount
  refine Eq.trans ?_ hcount.symm
  unfold live_handles holders countOf
  congr 1
  apply Finset.filter_congr
  intro p _
  have := h.named_iff p x
  simp only [Bool.and_eq_true, beq_iff_eq, decide_eq_true_eq, this, and_assoc]

/-- In every run the count of an object that exists is the number of the handles to it
and is not 0, every handle to a counted object names one that exists by its current id,
and the memory in use is that of the objects with a handle. -/
theorem objects_count_their_handles (hn : n * KERNEL_HANDLE_TABLE_SIZE < 2 ^ 32)
    (hr : (handles n).Reachable s) :
    (∀ x, (s.objects.header x).active ≠ 0 →
      (s.objects.header x).ref_count = live_handles s x ∧ 1 ≤ (s.objects.header x).ref_count) ∧
    (∀ p, (entry s.tables p).active = true →
      is_refcounted_object_type (entry s.tables p).type = true →
      ∃ x, (entry s.tables p).type = x.type ∧
        (entry s.tables p).object = s.objects.object_id x ∧ (s.objects.header x).active ≠ 0) ∧
    (∀ bytes, bytes ∈ s.objects.allocated ↔ ∃ i, (s.objects.shared_objects i).bytes = bytes ∧
      0 < live_handles s (.shared i)) ∧
    ∀ i, s.objects.backing_slots i = true ↔ 0 < live_handles s (.surface i) := by
  have h := System.Books.reachable hn hr
  have halive : ∀ x, (s.objects x).active ≠ 0 ↔ 0 < live_handles s x := by
    intro x
    rw [h.live_handles_eq x, Nat.pos_iff_ne_zero]
    exact not_congr (h.alive x)
  refine ⟨fun x hx => ?_, fun p hactive hcounted => ?_, fun bytes => ?_, fun i => ?_⟩
  · refine ⟨(h.live_handles_eq x).symm, ?_⟩
    rw [← h.live_handles_eq x]
    exact (halive x).mp hx
  · obtain ⟨x, hx⟩ := h.stored p hactive hcounted
    obtain ⟨htype, hobject, -⟩ := reference_iff.mp hx.1
    exact ⟨x, htype, hobject, hx.2⟩
  · rw [h.held.buffers]
    constructor
    · rintro ⟨i, hi, rfl⟩
      exact ⟨i, rfl, (halive (.shared i)).mp hi⟩
    · rintro ⟨i, rfl, hi⟩
      exact ⟨i, (halive (.shared i)).mpr hi, rfl⟩
  · rw [h.held.backed]
    exact halive (.surface i)

/-! ## Where the counts would not do -/

/-- Processes without handles. -/
def fresh (n : Nat) : System n :=
  { objects := kernel_objects_init
    process := fun t => { pid := BitVec.ofNat 32 (t + 1), generation := 1, active := true,
                          state := .running, handle_table := kernel_handle_table_init,
                          ipc_mailbox := ipc_mailbox_init } }

theorem fresh_reachable (n : Nat) : (handles n).Reachable (fresh n) :=
  .start ⟨rfl, fun _ => rfl⟩

/-- The first shared memory object. -/
def first_shared : ObjectName := .shared ⟨0, by decide⟩

def make_shared {n : Nat} (t : Fin n) : HandleCall n :=
  .shared_memory_create t 1 4096 KERNEL_HANDLE_RIGHT_READ false 1 false

/-- The handle to the first shared memory object, from which others are cloned. -/
def first_handle : KernelHandle :=
  ⟨true, KERNEL_HANDLE_TYPE_SHARED_MEMORY, KERNEL_HANDLE_RIGHT_READ, 1, make_object_id 0 1, 4096⟩

/-- A second process gets a clone of the handle. -/
theorem two_handles_make_two_references : ∃ s : System 2, (handles 2).Reachable s ∧
    (s.objects.header first_shared).ref_count = 2 ∧ live_handles s first_shared = 2 := by
  obtain ⟨s, hr, hactive, hcount⟩ : ∃ s : System 2, (handles 2).Reachable s ∧
      (s.objects first_shared).active ≠ 0 ∧ (s.objects.header first_shared).ref_count = 2 :=
    Machine.exists_reachable (fresh_reachable 2)
      [make_shared 0, .clone_handle_with_rights 1 first_handle KERNEL_HANDLE_RIGHT_READ false] (by decide)
  have hlive := ((objects_count_their_handles (by decide) hr).1 _ hactive).1
  exact ⟨s, hr, hcount, hlive.symm.trans hcount⟩

/-- Every entry that is active is a handle to the first shared memory object, and
there are `k` of them. -/
structure Filled (s : System n) (k : Nat) : Prop where
  reachable : (handles n).Reachable s
  active : (s.objects.header first_shared).active = 1
  generation : (s.objects.header first_shared).generation = 1
  ref_count : (s.objects.header first_shared).ref_count = u32 k
  valid : ∀ t, (s.tables t).Valid
  entries : ∀ p, (entry s.tables p).active →
    (entry s.tables p).type = KERNEL_HANDLE_TYPE_SHARED_MEMORY ∧
      (entry s.tables p).object = make_object_id 0 1
  count : countOf (fun e : KernelHandle => e.active) (entry s.tables) = k

theorem Filled.live {k : Nat} (h : Filled s k) : live_handles s first_shared = k := by
  refine Eq.trans ?_ h.count
  unfold live_handles countOf
  congr 1
  apply Finset.filter_congr
  intro p _
  have hid : s.objects.object_id first_shared = make_object_id 0 1 := by
    unfold KernelObjects.object_id
    rw [h.generation]
    rfl
  rw [hid]
  constructor
  · intro hp
    simp only [Bool.and_eq_true] at hp
    exact hp.1.1
  · intro hp
    have := h.entries p hp
    simp only [hp, this, first_shared, ObjectName.type, Bool.and_eq_true, beq_self_eq_true, and_self]

theorem countOf_inactive : countOf (fun e : KernelHandle => e.active)
    (entry fun _ : Fin n => kernel_handle_table_init) = 0 := countOf_eq_zero fun _ => rfl

/-- The objects after the first process made a shared memory object. -/
def first_objects : KernelObjects :=
  (kernel_shared_memory_create kernel_objects_init kernel_handle_table_init 1 4096
    KERNEL_HANDLE_RIGHT_READ false 1 false).2.1

/-- The table of the first process then. -/
def first_table : KernelHandleTable :=
  (kernel_shared_memory_create kernel_objects_init kernel_handle_table_init 1 4096
    KERNEL_HANDLE_RIGHT_READ false 1 false).2.2

theorem first_table_entries : first_table.entries =
    update kernel_handle_table_init.entries ⟨0, by decide⟩ first_handle := by
  funext i
  revert i
  decide

/-- One more slot of a table gets a handle to the object. -/
theorem filled_update {tables tables' : Fin n → KernelHandleTable} {k : Nat} {p : Place n}
    {e : KernelHandle} (htype : e.type = KERNEL_HANDLE_TYPE_SHARED_MEMORY)
    (hobject : e.object = make_object_id 0 1) (he : e.active)
    (hentry : entry tables' = update (entry tables) p e) (hfree : (entry tables p).active = false)
    (hentries : ∀ q, (entry tables q).active →
      (entry tables q).type = KERNEL_HANDLE_TYPE_SHARED_MEMORY ∧
        (entry tables q).object = make_object_id 0 1)
    (hcount : countOf (fun e : KernelHandle => e.active) (entry tables) = k) :
    (∀ q, (entry tables' q).active → (entry tables' q).type = KERNEL_HANDLE_TYPE_SHARED_MEMORY ∧
        (entry tables' q).object = make_object_id 0 1) ∧
    countOf (fun e : KernelHandle => e.active) (entry tables') = k + 1 := by
  rw [hentry]
  constructor
  · exact fun q => update_cases q (fun _ _ => ⟨htype, hobject⟩) fun _ => hentries q
  · have := countOf_update (fun e : KernelHandle => e.active) (entry tables) p e
    rw [hfree, he, hcount] at this
    exact this

theorem filled_one (hn : 0 < n) : ∃ s : System n, Filled s 1 := by
  let t : Fin n := ⟨0, hn⟩
  have htables : ((fresh n).put t first_objects first_table).tables =
      update (fun _ => kernel_handle_table_init) t first_table := tables_put _ _ _ _
  have hentry : entry (update (fun _ => kernel_handle_table_init) t first_table) =
      update (entry fun _ => kernel_handle_table_init) (t, ⟨0, by decide⟩) first_handle :=
    entry_update first_table_entries
  obtain ⟨hentries, hcount⟩ := filled_update (e := first_handle) rfl rfl rfl
    (htables ▸ hentry) rfl (fun q hq => by cases hq) countOf_inactive
  refine ⟨(fresh n).put t first_objects first_table, ?_, ?_, ?_, ?_, ?_, hentries, hcount⟩
  · apply (fresh_reachable n).step (l := make_shared t)
    change System.call (fresh n) (make_shared t) = _
    have hunused : 1 = 0 ∨ 1 ∉ (fresh n).objects.allocated := Or.inr not_mem_nil
    simp only [System.call, make_shared, if_pos hunused, first_objects, first_table]
    congr
  · exact (by decide : (first_objects first_shared).active = 1)
  · exact (by decide : (first_objects first_shared).generation = 1)
  · exact (by decide : (first_objects first_shared).ref_count = u32 1)
  · intro u
    rw [htables]
    refine update_cases u (fun _ => ?_) fun _ => valid_init
    constructor <;> decide

/-- As long as there is a slot, one more handle is cloned. -/
theorem Filled.more {k : Nat} (h : Filled s k) (hk : k < n * KERNEL_HANDLE_TABLE_SIZE) :
    ∃ s' : System n, Filled s' (k + 1) := by
  obtain ⟨⟨t, j⟩, hfree⟩ : ∃ p, (entry s.tables p).active = false := by
    by_contra hall
    push Not at hall
    have : countOf (fun e : KernelHandle => e.active) (entry s.tables) =
        Fintype.card (Place n) := by
      unfold countOf
      rw [Finset.filter_true_of_mem fun p _ => by simpa using hall p, Finset.card_univ]
    rw [h.count, Fintype.card_prod, Fintype.card_fin, Fintype.card_fin] at this
    omega
  have hcurrent : Current s.objects first_handle first_shared := by
    refine ⟨reference_iff.mpr ⟨rfl, ?_, ?_⟩, ?_⟩
    · rw [h.generation]
      rfl
    · rw [h.generation]
      decide
    · rw [h.active]
      decide
  have htype : first_handle.type ≠ KERNEL_HANDLE_TYPE_NONE := by decide
  obtain ⟨i, table', halloc, hslot, hv, hentries⟩ := (kernel_handle_alloc_cases (h.valid t) _
    KERNEL_HANDLE_RIGHT_READ first_handle.object first_handle.extra false).resolve_left
      fun hno => Bool.false_ne_true (hfree.symm.trans (hno.2 htype rfl j))
  let objects := s.objects.set_header (retain_header (s.objects first_shared)) first_shared
  have hclone : s.clone_handle_with_rights t first_handle KERNEL_HANDLE_RIGHT_READ false =
      (encode_handle_token i (s.tables t).next_generation, s.put t objects table') := by
    unfold System.clone_handle_with_rights kernel_object_clone_handle_with_rights
    rw [if_neg (by decide), if_neg (by decide), if_neg (by decide), retain_current hcurrent rfl]
    unfold alloc_or_release
    rw [show (s.process t).handle_table = s.tables t from rfl, halloc]
    simp only [if_neg (encode_ne_zero i _)]
    rfl
  have htables : (s.put t objects table').tables = update s.tables t table' :=
    tables_put _ _ _ _
  have hentry := entry_update hentries
  have hheader : objects.header first_shared = retain_header (s.objects first_shared) := by
    simp only [objects, header_set_header, update_self]
  have hput : entry (s.put t objects table').tables = update (entry s.tables) (t, i) _ :=
    htables ▸ hentry
  obtain ⟨hall, hcount⟩ := filled_update rfl rfl rfl hput hslot h.entries h.count
  refine ⟨s.put t objects table', ?_, ?_, ?_, ?_, ?_, hall, hcount⟩
  · apply h.reachable.step (l := .clone_handle_with_rights t first_handle KERNEL_HANDLE_RIGHT_READ false)
    change some _ = some _
    rw [hclone]
  · change (objects first_shared).active = 1
    rw [hheader]
    exact h.active
  · change (objects first_shared).generation = 1
    rw [hheader]
    exact h.generation
  · change (objects first_shared).ref_count = u32 (k + 1)
    rw [hheader, retain_header, h.ref_count]
    exact Nat.mod_add_mod k (2 ^ 32) 1
  · intro u
    rw [htables]
    exact update_cases u (fun _ => hv) fun _ => h.valid u

theorem filled (hn : 0 < n) (k : Nat) (hk : k < n * KERNEL_HANDLE_TABLE_SIZE) :
    ∃ s : System n, Filled s (k + 1) := by
  induction k with
  | zero => exact filled_one hn
  | succ k ih =>
    obtain ⟨s, hs⟩ := ih (by omega)
    exact hs.more hk

/-- A shared memory object and a surface may have the same id, so that the handles with
the id are not those of one object. And with 2 ^ 32 slots the count wraps to 0. -/
theorem ids_are_shared_and_counts_wrap :
    (∃ s : System 1, (handles 1).Reachable s ∧ (s.objects.header first_shared).active ≠ 0 ∧
      (s.objects.header first_shared).ref_count = 1 ∧
      countOf (fun e : KernelHandle => e.active && e.object == s.objects.object_id first_shared)
        (entry s.tables) = 2) ∧
    ∃ s : System (2 ^ 27), (handles (2 ^ 27)).Reachable s ∧
      (s.objects.header first_shared).active ≠ 0 ∧ (s.objects.header first_shared).ref_count = 0 ∧
      live_handles s first_shared = 2 ^ 32 := by
  constructor
  · exact Machine.exists_reachable (fresh_reachable 1) [make_shared 0,
      .graphics_surface_create 0 1 1 1 OS64_PIXEL_FORMAT_RGB KERNEL_HANDLE_RIGHT_READ true false]
      (by decide +kernel)
  · obtain ⟨s, hs⟩ := filled (n := 2 ^ 27) (by decide) (2 ^ 32 - 1) (by decide)
    refine ⟨s, hs.reachable, ?_, hs.ref_count, hs.live⟩
    rw [hs.active]
    decide

end

end mini_kernel.ipc
