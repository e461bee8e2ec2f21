-- The handles of any number of tables against the reference counts. Every call is a
-- composition of a few moves: a reference is taken, stored in a table, removed from
-- one, or given back, and each of them keeps the books.
import MiniKernel.Handle.ObjectLaws
import MiniKernel.Lib.Store

open mini_kernel.lib mini_kernel.handle Function List Option

namespace mini_kernel.object

/-- A slot of one of the tables. -/
abbrev Place (n : Nat) := Fin n × HandleSlot

def entry {n : Nat} (tables : Fin n → KernelHandleTable) (p : Place n) : KernelHandle :=
  (tables p.1).entries p.2

/-- A handle to a counted object names one that exists. -/
def Names (o : KernelObjects) (handle : KernelHandle) : Prop :=
  is_refcounted_object_type handle.type → ∃ x, Current o handle x

/-- The books are in order, while the handles of `hand` stand for references that are
counted but in no table. -/
structure Ordered {n : Nat} (o : KernelObjects) (tables : Fin n → KernelHandleTable)
    (hand : List KernelHandle) : Prop where
  balanced : Balanced (fun p => named (entry tables p)) (fun x => (o.header x).ref_count)
    (hand.filterMap named)
  stored : ∀ p, (entry tables p).active → Names o (entry tables p)
  in_hand : ∀ handle ∈ hand, handle.active ∧ Names o handle
  alive : ∀ x, (o.header x).active = 0 ↔ (o.header x).ref_count = 0
  held : Held o
  valid : ∀ t, (tables t).Valid

section
variable {n : Nat} {o o' : KernelObjects} {tables : Fin n → KernelHandleTable}
  {hand : List KernelHandle} {handle : KernelHandle} {x : ObjectName} {t : Fin n}

theorem counted_of_reference {g : Nat} (h : reference handle = some (x, g)) :
    is_refcounted_object_type handle.type := by
  have htype := (reference_iff.mp h).1
  rw [htype]
  cases x <;> rfl

theorem Current.named (h : Current o handle x) (hactive : handle.active) : named handle = some x := by
  unfold mini_kernel.object.named
  rw [if_pos hactive, h.1]
  rfl

/-- An active handle that names existing objects only is current where it is named. -/
theorem Names.current (h : Names o handle) (hx : named handle = some x) : Current o handle x := by
  unfold named at hx
  split at hx
  · obtain ⟨⟨y, g⟩, href, hy⟩ := map_eq_some_iff.mp hx
    obtain ⟨z, hz⟩ := h (counted_of_reference href)
    have hzy : z = y := by
      have := hz.1.symm.trans href
      exact (Prod.mk.inj (some.inj this)).1
    simp only at hy
    rw [← hy, ← hzy]
    exact hz
  · cases hx

theorem named_inactive (h : handle.active = false) : named handle = none := by
  unfold named
  rw [h]
  rfl

/-- Counts of objects that keep their existence and generation keep handles current. -/
theorem Current.mono (h : Current o handle x)
    (hkeep : (o' x).generation = (o x).generation ∧ (o' x).active ≠ 0) :
    Current o' handle x :=
  ⟨by rw [hkeep.1]; exact h.1, hkeep.2⟩

variable {i : HandleSlot} {table' : KernelHandleTable}

theorem entry_update {e : KernelHandle} (h : table'.entries = update (tables t).entries i e) :
    entry (update tables t table') = update (entry tables) (t, i) e := by
  funext ⟨u, j⟩
  unfold entry
  by_cases hu : u = t
  · subst hu
    simp only [update_self, h]
    by_cases hj : j = i
    · subst hj
      simp
    · rw [update_of_ne hj, update_of_ne (by simp [hj])]
  · have hp : (u, j) ≠ (t, i) := fun heq => hu (congrArg Prod.fst heq)
    rw [update_of_ne hu, update_of_ne hp]

theorem named_update (entries : Place n → KernelHandle) (p : Place n) (e : KernelHandle) :
    (fun q => named (update entries p e q)) =
      update (fun q => named (entries q)) p (named e) := comp_update named entries p e

theorem ordered_init : Ordered kernel_objects_init (fun _ : Fin n => kernel_handle_table_init) [] where
  balanced x := by
    have hnone : holders (fun p : Place n => named (entry (fun _ => kernel_handle_table_init) p)) x = 0 := by
      apply countOf_eq_zero
      intro p
      simp [entry, kernel_handle_table_init, empty_entry, named]
    simp only [hnone]
    cases x <;> rfl
  stored p h := by simp [entry, kernel_handle_table_init, empty_entry] at h
  in_hand h hmem := by cases hmem
  alive x := by cases x <;> simp [KernelObjects.header, kernel_objects_init]
  held := held_init
  valid _ := valid_init

/-! ## The moves -/

/-- The number of references to an object is bounded by the slots of the tables. -/
theorem Ordered.ref_count_le (h : Ordered o tables hand) (x : ObjectName) :
    (o x).ref_count ≤ n * KERNEL_HANDLE_TABLE_SIZE + hand.length := by
  have hle := h.balanced.count_le x
  have hlength := length_filterMap_le named hand
  rw [Fintype.card_prod, Fintype.card_fin, Fintype.card_fin] at hle
  omega

theorem Ordered.retain (h : Ordered o tables hand)
    (hn : n * KERNEL_HANDLE_TABLE_SIZE + hand.length + 1 < 2 ^ 32)
    (hr : kernel_object_retain_handle_object o handle = some o') : Ordered o' tables (handle :: hand) := by
  obtain ⟨hactive, x, hc, ho'⟩ := retain_cases hr
  have hle := h.ref_count_le x
  have hheader : o'.header = update o.header x { o x with ref_count := (o x).ref_count + 1 } := by
    rw [ho', header_set_header, retain_header, u32_of_lt (by omega)]
  have hkeep : ∀ y, (o' y).generation = (o y).generation ∧ (o' y).active = (o y).active := by
    intro y
    rw [hheader]
    exact update_cases y (fun hy => hy ▸ ⟨rfl, rfl⟩) fun _ => ⟨rfl, rfl⟩
  have hnames : ∀ handle', Names o handle' → Names o' handle' := by
    intro handle' hn' hcounted
    obtain ⟨y, hy⟩ := hn' hcounted
    exact ⟨y, hy.mono ⟨(hkeep y).1, by rw [(hkeep y).2]; exact hy.2⟩⟩
  refine ⟨?_, fun p hp => hnames _ (h.stored p hp), ?_, fun y => ?_, ?_, h.valid⟩
  · have hcounts : (fun y => (o' y).ref_count) =
        update (fun y => (o y).ref_count) x ((o x).ref_count + 1) := by
      rw [hheader]
      exact comp_update ObjectHeader.ref_count ..
    rw [hcounts, filterMap_cons, hc.named hactive]
    exact h.balanced.retain x
  · intro handle' hmem
    rcases mem_cons.mp hmem with rfl | hmem
    · exact ⟨hactive, hnames _ fun _ => ⟨x, hc⟩⟩
    · exact ⟨(h.in_hand _ hmem).1, hnames _ (h.in_hand _ hmem).2⟩
  · rw [(hkeep y).2, h.alive y, hheader]
    refine update_cases y (fun hy => ?_) fun _ => .rfl
    have := (not_congr (h.alive x)).mp hc.2
    simp [hy, this]
  · rw [ho']
    exact h.held.set_header .rfl

/-- A reference in hand is given back. If it was the last one, no handle names the
object any more. -/
theorem Ordered.release (h : Ordered o tables (handle :: hand)) :
    Ordered (kernel_object_release_handle_object o handle) tables hand := by
  obtain ⟨hactive, hnames⟩ := h.in_hand handle mem_cons_self
  have hrest : ∀ handle' ∈ hand, handle'.active ∧ Names o handle' :=
    fun handle' hmem => h.in_hand handle' (mem_cons_of_mem _ hmem)
  cases hcounted : is_refcounted_object_type handle.type with
  | false =>
    have hnone : named handle = none := by
      by_contra hne
      obtain ⟨x, hx⟩ := ne_none_iff_exists'.mp hne
      have hx' := hx
      unfold named at hx'
      rw [if_pos hactive] at hx'
      obtain ⟨⟨y, g⟩, href, -⟩ := map_eq_some_iff.mp hx'
      rw [counted_of_reference href] at hcounted
      cases hcounted
    have hbalanced := h.balanced
    rw [filterMap_cons, hnone] at hbalanced
    rw [release_of_not_counted hcounted]
    exact ⟨hbalanced, h.stored, hrest, h.alive, h.held, h.valid⟩
  | true =>
    obtain ⟨x, hc⟩ := hnames hcounted
    have hpos : 0 < (o x).ref_count := Nat.pos_of_ne_zero ((not_congr (h.alive x)).mp hc.2)
    obtain ⟨hheader, hheld⟩ := h.held.release hc hpos
    generalize kernel_object_release_handle_object o handle = o' at hheader hheld ⊢
    have hbalanced := h.balanced
    rw [filterMap_cons, hc.named hactive] at hbalanced
    have hdropped : (drop_reference (o x)).2.ref_count = (o x).ref_count - 1 ∧
        (drop_reference (o x)).2.generation = (o x).generation ∧
        ((drop_reference (o x)).2.active = 0 ↔ (o x).ref_count - 1 = 0) := by
      have hne := hc.2
      rcases drop_reference_cases hc.2 hpos with ⟨hone, hdrop⟩ | ⟨hone, hdrop⟩
      · rw [hdrop]
        refine ⟨rfl, rfl, ?_⟩
        simp only [hne, false_iff]
        omega
      · rw [hdrop]
        simp [hone]
    have hcounts : (fun y => (o' y).ref_count) =
        update (fun y => (o y).ref_count) x ((o x).ref_count - 1) := by
      rw [hheader, ← hdropped.1]
      exact comp_update ObjectHeader.ref_count ..
    have hnew : Balanced (fun p => named (entry tables p)) (fun y => (o' y).ref_count)
        (hand.filterMap named) := by
      rw [hcounts]
      exact hbalanced.release
    have halive : ∀ y, (o' y).active = 0 ↔ (o' y).ref_count = 0 := by
      intro y
      rw [hheader]
      refine update_cases y (fun _ => ?_) fun _ => h.alive y
      rw [hdropped.1]
      exact hdropped.2.2
    have hgeneration : ∀ y, (o' y).generation = (o y).generation := by
      intro y
      rw [hheader]
      exact update_cases y (fun hy => hy ▸ hdropped.2.1) fun _ => rfl
    -- a handle that is still counted names an object that still exists
    have hkept : ∀ handle', handle'.active → Names o handle' →
        (∀ y, named handle' = some y → 0 < (o' y).ref_count) → Names o' handle' := by
      intro handle' hactive' hnames' hpos' hcounted'
      obtain ⟨y, hy⟩ := hnames' hcounted'
      refine ⟨y, hy.mono ⟨hgeneration y, ?_⟩⟩
      have := hpos' y (hy.named hactive')
      rw [Ne, halive y]
      omega
    refine ⟨hnew, fun p hp => ?_, fun handle' hmem => ?_, halive, hheld, h.valid⟩
    · exact hkept _ hp (h.stored p hp) fun y hy => hnew.pos_of_held hy
    · obtain ⟨hactive', hnames'⟩ := hrest handle' hmem
      refine ⟨hactive', hkept _ hactive' hnames' fun y hy => ?_⟩
      exact hnew.pos_of_mem (mem_filterMap.mpr ⟨handle', hmem, hy⟩)

variable {hand' : List KernelHandle}

/-- A table of which nothing but one slot changes. -/
theorem Ordered.set_entry {e : KernelHandle} (h : Ordered o tables hand)
    (hentries : table'.entries = update (tables t).entries i e) (hv : table'.Valid)
    (hbalanced : Balanced (update (fun p => named (entry tables p)) (t, i) (named e))
      (fun x => (o x).ref_count) (hand'.filterMap named)) (he : e.active → Names o e)
    (hhand : ∀ handle ∈ hand', handle.active ∧ Names o handle) :
    Ordered o (update tables t table') hand' := by
  have hentry : entry (update tables t table') = update (entry tables) (t, i) e :=
    entry_update hentries
  refine ⟨?_, fun p hp => ?_, hhand, h.alive, h.held, fun u => ?_⟩
  · rw [hentry, named_update]
    exact hbalanced
  · revert hp
    rw [hentry]
    exact update_cases p (fun _ => he) fun _ => h.stored p
  · exact update_cases u (fun _ => hv) fun _ => h.valid u

variable {handle' : KernelHandle}

/-- What a handle names depends on its type and its object only. -/
theorem reference_congr (htype : handle'.type = handle.type)
    (hobject : handle'.object = handle.object) : reference handle' = reference handle := by
  unfold reference
  rw [htype, hobject]

theorem Names.congr (h : Names o handle)
    (htype : handle'.type = handle.type) (hobject : handle'.object = handle.object) : Names o handle' := by
  intro hcounted
  rw [htype] at hcounted
  obtain ⟨x, hx⟩ := h hcounted
  exact ⟨x, by rw [reference_congr htype hobject]; exact hx.1, hx.2⟩

/-- A reference in hand is stored in a slot that was not active. -/
theorem Ordered.store {rights : U32} {generation extra : Nat} (h : Ordered o tables (handle :: hand))
    (htype : handle.type < 2 ^ 8) (hfree : ((tables t).entries i).active = false) (hv : table'.Valid)
    (hentries : table'.entries = update (tables t).entries i
      ⟨true, handle.type % 2 ^ 8, rights, generation, handle.object, extra⟩) :
    Ordered o (update tables t table') hand := by
  obtain ⟨hactive, hnames⟩ := h.in_hand handle mem_cons_self
  rw [Nat.mod_eq_of_lt htype] at hentries
  have hnamed : named ⟨true, handle.type, rights, generation, handle.object, extra⟩ =
      named handle := by
    unfold named
    rw [if_pos rfl, if_pos hactive]
    exact congrArg _ (reference_congr rfl rfl)
  refine h.set_entry hentries hv ?_ (fun _ => hnames.congr rfl rfl) fun handle' hmem =>
    h.in_hand handle' (mem_cons_of_mem _ hmem)
  have hbalanced := h.balanced
  rw [filterMap_cons] at hbalanced
  rw [hnamed]
  apply Balanced.store
  · cases hn : named handle with
    | none => simpa [hn] using hbalanced
    | some x => simpa [hn] using hbalanced
  · exact named_inactive hfree

/-- A slot is closed, and its reference is in hand. -/
theorem Ordered.remove (h : Ordered o tables hand) (hactive : ((tables t).entries i).active)
    (hnext : table'.next_generation = (tables t).next_generation) (hentries : table'.entries =
      update (tables t).entries i (close_entry ((tables t).entries i))) :
    Ordered o (update tables t table') ((tables t).entries i :: hand) := by
  have hclosed : named (close_entry ((tables t).entries i)) = none := named_inactive rfl
  have hv : table'.Valid := by
    unfold KernelHandleTable.Valid
    rw [hnext]
    exact h.valid t
  refine h.set_entry hentries hv ?_ (fun he => absurd he (by simp [close_entry])) ?_
  · rw [hclosed, filterMap_cons]
    have hremoved := h.balanced.remove (t, i)
    unfold entry at hremoved
    cases hn : named ((tables t).entries i) with
    | none => simpa [hn, entry] using hremoved
    | some x => simpa [hn, entry] using hremoved
  · exact forall_mem_cons.mpr ⟨⟨hactive, h.stored (t, i) hactive⟩, h.in_hand⟩

theorem Ordered.perm (h : Ordered o tables hand) (hp : hand.Perm hand') : Ordered o tables hand' := by
  refine ⟨fun x => ?_, h.stored, fun handle' hmem => h.in_hand handle' (hp.mem_iff.mpr hmem),
    h.alive, h.held, h.valid⟩
  rw [← (hp.filterMap named).count_eq x]
  exact h.balanced x

/-- The number of active entries that a table counts plays no part. -/
theorem Ordered.congr_table {table : KernelHandleTable}
    (h : Ordered o (update tables t table) hand) (hentries : table'.entries = table.entries)
    (hnext : table'.next_generation = table.next_generation) : Ordered o (update tables t table') hand := by
  have hentry : entry (update tables t table') = entry (update tables t table) := by
    funext ⟨u, j⟩
    unfold entry
    dsimp only
    exact update_cases u (fun hu => by rw [hu, update_self, hentries]) fun hu => by rw [update_of_ne hu]
  refine ⟨?_, ?_, h.in_hand, h.alive, h.held, fun u => ?_⟩
  · rw [hentry]
    exact h.balanced
  · rw [hentry]
    exact h.stored
  · have hv := h.valid u
    by_cases hu : u = t
    · rw [hu, update_self] at hv ⊢
      unfold KernelHandleTable.Valid
      rw [hnext]
      exact hv
    · rwa [update_of_ne hu] at hv ⊢

/-! ## The calls -/

theorem Ordered.alloc_or_release (h : Ordered o tables (handle :: hand))
    (htype : handle.type < 2 ^ 8) (t : Fin n) (rights : U32) (extra : Nat) (fault : Bool) :
    let r := alloc_or_release o (tables t) handle rights extra fault
    Ordered r.2.1 (update tables t r.2.2) hand := by
  unfold mini_kernel.object.alloc_or_release
  rcases kernel_handle_alloc_cases (h.valid t) handle.type rights handle.object extra fault with
    ⟨halloc, -⟩ | ⟨i, table', halloc, hfree, hv, hentries⟩
  · rw [halloc]
    simp only [if_pos, update_eq_self]
    exact h.release
  · rw [halloc]
    simp only [if_neg (encode_ne_zero i _)]
    exact h.store htype hfree hv hentries

theorem Ordered.clone (h : Ordered o tables hand)
    (hn : n * KERNEL_HANDLE_TABLE_SIZE + hand.length + 1 < 2 ^ 32) (t : Fin n)
    (source : KernelHandle) (rights : U32) (fault : Bool) :
    let r := kernel_object_clone_handle_with_rights o (tables t) source rights fault
    Ordered r.2.1 (update tables t r.2.2) hand := by
  have hsame : Ordered o (update tables t (tables t)) hand := by
    rw [update_eq_self]
    exact h
  unfold kernel_object_clone_handle_with_rights
  split
  · exact hsame
  split
  · exact hsame
  split
  · exact hsame
  rename_i hcounted
  split
  · exact hsame
  rename_i o' hretain
  refine (h.retain hn hretain).alloc_or_release ?_ t rights source.extra fault
  have : source.type = KERNEL_HANDLE_TYPE_SHARED_MEMORY ∨
      source.type = KERNEL_HANDLE_TYPE_GRAPHICS_SURFACE := by
    simpa [is_refcounted_object_type, ← or_iff_not_imp_left] using hcounted
  rcases this with htype | htype
  · rw [htype]
    decide
  · rw [htype]
    decide

theorem Ordered.close (h : Ordered o tables hand) (t : Fin n) (token : Nat) :
    Ordered (kernel_object_close_handle o (tables t) token).2.1
      (update tables t (kernel_object_close_handle o (tables t) token).2.2) hand := by
  unfold kernel_object_close_handle
  split
  · rw [update_eq_self]
    exact h
  · rename_i closed table' hclose
    obtain ⟨i, rfl, hactive, hnext, hentries⟩ := kernel_handle_close_cases hclose
    exact (h.remove hactive hnext hentries).release

/-- One turn of the loop that empties a table: the entry goes to the hand. -/
theorem Ordered.detach_one {s : List KernelHandle × KernelHandleTable}
    (h : Ordered o (update tables t s.2) (s.1 ++ hand)) (i : HandleSlot) :
    Ordered o (update tables t (detach_slot s i).2) ((detach_slot s i).1 ++ hand) := by
  unfold detach_slot
  split
  · rename_i hactive
    have hself : update tables t s.2 t = s.2 := update_self t s.2 tables
    let closed : KernelHandleTable :=
      { s.2 with entries := update s.2.entries i (close_entry (s.2.entries i)) }
    have hnext : closed.next_generation = (update tables t s.2 t).next_generation := by
      rw [hself]
    have hmoved := h.remove (by rw [hself]; exact hactive) hnext (by rw [hself])
    rw [hself, update_idem] at hmoved
    apply hmoved.perm
    rw [append_assoc, singleton_append]
    exact perm_middle.symm
  · exact h

theorem Ordered.detach (h : Ordered o tables []) (t : Fin n) :
    Ordered o (update tables t (kernel_handle_detach_all (tables t)).2)
      (kernel_handle_detach_all (tables t)).1 := by
  have hloop : ∀ (slots : List HandleSlot)
      (s : List KernelHandle × KernelHandleTable),
      Ordered o (update tables t s.2) (s.1 ++ []) →
      Ordered o (update tables t (slots.foldl detach_slot s).2)
        ((slots.foldl detach_slot s).1 ++ []) := by
    intro slots
    induction slots with
    | nil => exact fun s hs => hs
    | cons i slots ih => exact fun s hs => ih _ (hs.detach_one i)
  have hall := hloop (finRange KERNEL_HANDLE_TABLE_SIZE) ([], tables t)
    (by rw [update_eq_self]; exact h)
  rw [append_nil] at hall
  exact hall.congr_table rfl rfl

/-- The references of a list are given back one after the other. -/
theorem Ordered.release_all (detached : List KernelHandle) (h : Ordered o tables (detached ++ hand)) :
    Ordered (detached.foldl kernel_object_release_handle_object o) tables hand := by
  induction detached generalizing o with
  | nil => exact h
  | cons handle detached ih =>
    rw [cons_append] at h
    exact ih h.release

theorem Ordered.release_table (h : Ordered o tables []) (t : Fin n) :
    Ordered (kernel_object_release_table o (tables t)).2.1
      (update tables t (kernel_object_release_table o (tables t)).2.2) [] := by
  apply Ordered.release_all
  rw [append_nil]
  exact h.detach t

/-! ## New objects -/

theorem next_generation_ne_zero (generation : Nat) : next_generation generation ≠ 0 := by
  unfold next_generation
  split
  · decide
  · assumption

theorem free_object_inactive {max_index : Nat} {header : Fin max_index → ObjectHeader}
    {i : Fin max_index} (h : free_object header = some i) : (header i).active = 0 := by
  simpa using find?_some h

/-- An object that did not exist comes into being with one reference. -/
theorem Ordered.publish (h : Ordered o tables hand) {header : ObjectHeader}
    (hfree : (o x).active = 0) (hheader : o'.header = update o.header x header)
    (hheld : Held o') (hactive : header.active ≠ 0) (hcount : header.ref_count = 1)
    (hgeneration : header.generation ≠ 0) :
    Ordered o' tables (failed_handle x.type (make_object_id x.index header.generation) :: hand) := by
  have hx : o'.header x = header := by rw [hheader, update_self]
  have hother : ∀ y, y ≠ x → o' y = o y := by
    intro y hy
    rw [hheader, update_of_ne hy]
  have hnew : Current o' (failed_handle x.type (make_object_id x.index header.generation)) x := by
    unfold Current
    rw [hx]
    exact ⟨reference_iff.mpr ⟨rfl, rfl, hgeneration⟩, hactive⟩
  have hnames : ∀ handle', Names o handle' → Names o' handle' := by
    intro handle' hn hcounted
    obtain ⟨y, hy⟩ := hn hcounted
    have hne : y ≠ x := by
      rintro rfl
      exact hy.2 hfree
    exact ⟨y, hy.mono (by rw [hother y hne]; exact ⟨rfl, hy.2⟩)⟩
  have hcounts : (fun y => (o' y).ref_count) =
      update (fun y => (o y).ref_count) x ((o x).ref_count + 1) := by
    have hzero := (h.alive x).mp hfree
    rw [hheader, hzero, Nat.zero_add, ← hcount]
    exact comp_update ObjectHeader.ref_count ..
  refine ⟨?_, fun p hp => hnames _ (h.stored p hp), fun handle' hmem => ?_, fun y => ?_, hheld, h.valid⟩
  · rw [hcounts, filterMap_cons, hnew.named rfl]
    exact h.balanced.retain x
  · rcases mem_cons.mp hmem with rfl | hmem
    · exact ⟨rfl, fun _ => ⟨x, hnew⟩⟩
    · exact ⟨(h.in_hand _ hmem).1, hnames _ (h.in_hand _ hmem).2⟩
  · by_cases hy : y = x
    · subst hy
      rw [hx, hcount]
      simp [hactive]
    · rw [hother y hy]
      exact h.alive y

variable {i : Fin KERNEL_SHARED_MEMORY_MAX_OBJECTS}

/-- A new shared memory object owns a buffer that was not in use. -/
theorem Held.add_shared (h : Held o)
    {object : SharedMemoryObject} (hfree : (o.shared_objects i).active = 0)
    (hactive : object.active ≠ 0) (hbytes : object.bytes ≠ 0) (hfresh : object.bytes ∉ o.allocated) :
    Held { o with shared_objects := update o.shared_objects i object
                  allocated := object.bytes :: o.allocated } := by
  have hother : ∀ j, (o.shared_objects j).active ≠ 0 → j ≠ i ∧
      (o.shared_objects j).bytes ≠ object.bytes := by
    intro j hj
    refine ⟨fun hji => hj (by rw [hji]; exact hfree), fun heq => hfresh ?_⟩
    exact (h.buffers _).mpr ⟨j, hj, heq⟩
  have hcases : ∀ j, (update o.shared_objects i object j).active ≠ 0 →
      (j = i ∧ update o.shared_objects i object j = object) ∨
      ((o.shared_objects j).active ≠ 0 ∧
        update o.shared_objects i object j = o.shared_objects j) := by
    intro j hj
    by_cases hji : j = i
    · subst hji
      exact Or.inl ⟨rfl, update_self _ _ _⟩
    · rw [update_of_ne hji] at hj
      exact Or.inr ⟨hj, update_of_ne hji _ _⟩
  refine ⟨fun p => ?_, nodup_cons.mpr ⟨hfresh, h.nodup⟩, fun j k hj hk heq => ?_,
    fun j hj => ?_, h.slots, h.backed⟩
  · rw [mem_cons, h.buffers]
    constructor
    · rintro (rfl | ⟨j, hj, rfl⟩)
      · exact ⟨i, by simpa using hactive⟩
      · refine ⟨j, ?_⟩
        simp only [update_of_ne (hother j hj).1]
        exact ⟨hj, trivial⟩
    · rintro ⟨j, hj, rfl⟩
      rcases hcases j hj with ⟨-, heq⟩ | ⟨hold, heq⟩
      · left
        exact congrArg SharedMemoryObject.bytes heq
      · right
        exact ⟨j, hold, congrArg SharedMemoryObject.bytes heq.symm⟩
  · rcases hcases j hj with ⟨rfl, hje⟩ | ⟨hjold, hje⟩
    · rcases hcases k hk with ⟨rfl, -⟩ | ⟨hkold, hke⟩
      · rfl
      · simp only [hje, hke] at heq
        exact absurd heq.symm (hother k hkold).2
    · rcases hcases k hk with ⟨rfl, hke⟩ | ⟨hkold, hke⟩
      · simp only [hje, hke] at heq
        exact absurd heq (hother j hjold).2
      · simp only [hje, hke] at heq
        exact h.distinct j k hjold hkold heq
  · rcases hcases j hj with ⟨-, hje⟩ | ⟨hjold, hje⟩
    · simp only [hje]
      exact hbytes
    · simp only [hje]
      exact h.nonzero j hjold

variable {i : SurfaceIndex} {object : GraphicsSurfaceObject}

/-- A new surface object owns the backing slot of its index. -/
theorem Held.add_surface (h : Held o) (hactive : object.active ≠ 0) (hslot : object.backing_slot = i) :
    Held { o with surface_objects := update o.surface_objects i object
                  backing_slots := update o.backing_slots i true } := by
  refine ⟨h.buffers, h.nodup, h.distinct, h.nonzero, fun j hj => ?_, fun j => ?_⟩
  · revert hj
    dsimp only
    exact update_cases j (fun hji _ => hji ▸ hslot) fun _ => h.slots j
  · by_cases hji : j = i
    · subst hji
      simp [hactive]
    · simp only [update_of_ne hji]
      exact h.backed j

theorem Ordered.publish_shared (h : Ordered o tables hand) {object : SharedMemoryObject}
    (hfree : (o.shared_objects i).active = 0) (hactive : object.active ≠ 0)
    (hcount : object.ref_count = 1) (hgeneration : object.generation ≠ 0)
    (hbytes : object.bytes ≠ 0) (hfresh : object.bytes ∉ o.allocated) :
    Ordered { o with shared_objects := update o.shared_objects i object
                     allocated := object.bytes :: o.allocated } tables
      (failed_handle KERNEL_HANDLE_TYPE_SHARED_MEMORY (make_object_id i object.generation) :: hand) := by
  have hx : (o (.shared i)).active = 0 := hfree
  exact h.publish hx (header_set_shared o i object _) (h.held.add_shared hfree hactive hbytes hfresh)
    hactive hcount hgeneration

theorem Ordered.publish_surface (h : Ordered o tables hand)
    (hfree : (o.surface_objects i).active = 0) (hactive : object.active ≠ 0)
    (hcount : object.ref_count = 1) (hgeneration : object.generation ≠ 0) (hslot : object.backing_slot = i) :
    Ordered { o with surface_objects := update o.surface_objects i object
                     backing_slots := update o.backing_slots i true } tables
      (failed_handle KERNEL_HANDLE_TYPE_GRAPHICS_SURFACE (make_object_id i object.generation) ::
        hand) := by
  have hx : (o (.surface i)).active = 0 := hfree
  exact h.publish hx (header_set_surface o i object _) (h.held.add_surface hactive hslot)
    hactive hcount hgeneration

theorem Ordered.shared_memory_create (h : Ordered o tables []) (t : Fin n) (owner_pid size : Nat)
    (rights : U32) (fault : Bool) {bytes : Nat} (hbytes : bytes = 0 ∨ bytes ∉ o.allocated)
    (handle_fault : Bool) :
    let r := kernel_shared_memory_create o (tables t) owner_pid size rights fault bytes handle_fault
    Ordered r.2.1 (update tables t r.2.2) [] := by
  have hsame : Ordered o (update tables t (tables t)) [] := by
    rw [update_eq_self]
    exact h
  unfold kernel_shared_memory_create
  split
  · exact hsame
  simp only
  split
  · exact hsame
  split
  · exact hsame
  split
  · exact hsame
  rename_i hnonzero
  have hfresh : bytes ∉ o.allocated := hbytes.resolve_left hnonzero
  split
  · unfold kfree
    rw [erase_cons_head]
    exact hsame
  rename_i i hfree
  have hinactive : (o.shared_objects i).active = 0 := free_object_inactive hfree
  apply Ordered.alloc_or_release
  · exact h.publish_shared hinactive Nat.one_ne_zero rfl (next_generation_ne_zero _) hnonzero hfresh
  · exact (by decide : KERNEL_HANDLE_TYPE_SHARED_MEMORY < 2 ^ 8)

/-- A surface that was reserved and given up is as it was. -/
theorem unreserve_reserved (h : Held o) (hfree : (o.surface_objects i).active = 0)
    (backing_slots : SurfaceIndex → Bool) (hslots : backing_slots = o.backing_slots ∨
      backing_slots = update o.backing_slots i true) :
    unreserve_surface { set_surface_active o i 2 with backing_slots := backing_slots } i = o := by
  have hnot : o.backing_slots i = false := by
    have := (not_congr (h.backed i)).mpr (by simp [hfree])
    simpa using this
  have hback : kernel_graphics_surface_backing_release backing_slots i = o.backing_slots := by
    unfold kernel_graphics_surface_backing_release
    rw [dif_pos i.isLt]
    rcases hslots with rfl | rfl
    · simp [← hnot]
    · simp [← hnot]
  have hobject : ({ o.surface_objects i with active := 0 } : GraphicsSurfaceObject) =
      o.surface_objects i := by
    rw [← hfree]
  unfold unreserve_surface set_surface_active
  simp only [hback, update_self, update_idem, hobject, update_eq_self]

theorem backing_allocate_eq {slots slots' : SurfaceIndex → Bool}
    {byte_size pixels page_count : Nat} {pages : Bool}
    (h : kernel_graphics_surface_backing_allocate slots i byte_size pages =
      some (slots', pixels, page_count)) : slots' = update slots i true := by
  unfold kernel_graphics_surface_backing_allocate at h
  simp only at h
  split_ifs at h
  exact (Prod.mk.inj (some.inj h)).1.symm

theorem Ordered.graphics_surface_create (h : Ordered o tables []) (t : Fin n)
    (owner_pid width height pixel_format : Nat) (rights : U32) (pages handle_fault : Bool) :
    let r := kernel_graphics_surface_create o (tables t) owner_pid width height pixel_format rights
      pages handle_fault
    Ordered r.2.1 (update tables t r.2.2) [] := by
  have hsame : Ordered o (update tables t (tables t)) [] := by
    rw [update_eq_self]
    exact h
  unfold kernel_graphics_surface_create
  split
  · exact hsame
  simp only
  split
  · exact hsame
  split
  · exact hsame
  rename_i i hfree
  have hinactive : (o.surface_objects i).active = 0 := free_object_inactive hfree
  split
  · have hback := unreserve_reserved h.held hinactive o.backing_slots (Or.inl rfl)
    rw [show unreserve_surface (set_surface_active o i 2) i = o from hback]
    exact hsame
  rename_i backing_slots pixels page_count hallocate
  have hslots : backing_slots = update o.backing_slots i true :=
    backing_allocate_eq hallocate
  split
  · rw [unreserve_reserved h.held hinactive backing_slots (Or.inr hslots)]
    exact hsame
  rename_i surface hsurface
  subst hslots
  simp only [set_surface_active, update_self, update_idem]
  apply Ordered.alloc_or_release
  · exact h.publish_surface hinactive Nat.one_ne_zero rfl (next_generation_ne_zero _) rfl
  · exact (by decide : KERNEL_HANDLE_TYPE_GRAPHICS_SURFACE < 2 ^ 8)

end

end mini_kernel.object
