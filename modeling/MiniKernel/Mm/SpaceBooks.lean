-- The books over the frames of the address spaces. A frame that was obtained and not
-- given back is in one place: a page maps it, or it is held because it was unmapped
-- and may not be reused yet. Each loop of the source makes one move of the books in
-- every turn.
import MiniKernel.Lib.RefCount
import MiniKernel.Mm.SpaceRegions

open mini_kernel.lib mini_kernel.vm Function

namespace mini_kernel.space

/-- The laws read a system as its spaces. -/
instance {n : Nat} : CoeFun (System n) fun _ => Fin n → AddressSpace := ⟨System.spaces⟩

/-! ## Pages and addresses -/

theorem page_of_next (address k : Nat) :
    page_of (u64 (address + VM_PAGE_SIZE) + k * VM_PAGE_SIZE) = page_of (address + (k + 1) * VM_PAGE_SIZE) := by
  apply Fin.ext
  simp only [page_of, u64, VM_PAGE_SIZE, PAGES]
  omega

theorem page_of_inj {address j k : Nat} (hj : j < PAGES) (hk : k < PAGES)
    (h : page_of (address + j * VM_PAGE_SIZE) = page_of (address + k * VM_PAGE_SIZE)) : j = k := by
  have h := congrArg Fin.val h
  simp only [page_of, VM_PAGE_SIZE, PAGES] at h hj hk
  omega

/-! ## Histories -/

/-- What the allocator knows of a frame. -/
inductive Standing
  | never
  | out
  | returned
deriving DecidableEq

section
variable {n : Nat}

def Event.frame : Event n → Nat
  | .obtained frame => frame
  | .unused frame => frame
  | .passed record => record.frame

def Event.standing : Event n → Standing
  | .obtained _ => .out
  | .unused _ => .returned
  | .passed _ => .returned

/-- The last event that names the frame decides. -/
def standing : List (Event n) → Nat → Standing
  | [], _ => .never
  | e :: earlier, frame => if e.frame = frame then e.standing else standing earlier frame

/-- Every CPU that may have known the page acknowledged a shootdown that covers it. -/
def Passed.Acknowledged (record : Passed n) : Prop :=
  (∀ cpu, record.cached_cpu_mask.getLsbD cpu → record.acknowledged.getLsbD cpu) ∧
    ∃ k < record.invalidation.page_count,
      record.address = u64 (record.invalidation.address + k * VM_PAGE_SIZE)

/-- Every frame that was passed on was out at the time, and acknowledged. -/
def Told : List (Event n) → Prop
  | [] => True
  | .obtained frame :: earlier => frame ≠ 0 ∧ Told earlier
  | .unused frame :: earlier => frame ≠ 0 ∧ Told earlier
  | .passed record :: earlier =>
    record.Acknowledged ∧ standing earlier record.frame = .out ∧ Told earlier

theorem Told.split {later earlier : List (Event n)} {record : Passed n}
    (h : Told (later ++ .passed record :: earlier)) :
    record.Acknowledged ∧ standing earlier record.frame = .out := by
  induction later with
  | nil => exact ⟨h.1, h.2.1⟩
  | cons e later ih =>
    apply ih
    cases e with
    | obtained => exact h.2
    | unused => exact h.2
    | passed => exact h.2.2

variable {history : List (Event n)} {frame : Nat}

theorem Told.nonzero (h : Told history) (hs : standing history frame ≠ .never) : frame ≠ 0 := by
  induction history with
  | nil => exact absurd rfl hs
  | cons e earlier ih =>
    cases e with
    | obtained f =>
      by_cases heq : f = frame
      · exact heq ▸ h.1
      · exact ih h.2 (by simpa [standing, Event.frame, heq] using hs)
    | unused f =>
      by_cases heq : f = frame
      · exact heq ▸ h.1
      · exact ih h.2 (by simpa [standing, Event.frame, heq] using hs)
    | passed record =>
      by_cases heq : record.frame = frame
      · subst heq
        exact ih h.2.2 (by rw [h.2.1]; decide)
      · exact ih h.2.2 (by simpa [standing, Event.frame, heq] using hs)

/-- A frame that is out counts for one. -/
def outs (history : List (Event n)) (frame : Nat) : Nat := if standing history frame = .out then 1 else 0

theorem outs_cons (e : Event n) (history : List (Event n)) :
    outs (e :: history) = update (outs history) e.frame (if e.standing = .out then 1 else 0) := by
  refine eq_update_iff.mpr ⟨by simp [outs, standing], fun frame h => ?_⟩
  simp [outs, standing, Ne.symm h]

theorem outs_of_out (h : 0 < outs history frame) : standing history frame = .out := by
  unfold outs at h
  split at h
  · assumption
  · cases h

theorem outs_of_not_out (h : standing history frame ≠ .out) : outs history frame = 0 := if_neg h

end

/-! ## The places of the frames -/

section
variable {n : Nat} {kernel : Page → Nat} {s s' : System n} {i : Fin n} {loose loose' : Page → Prop}
  {held : List Nat} {p : Page} {frame : Nat} {space space' : AddressSpace}

/-- A page of the space lies in a region that is in use. -/
def InRegion (space : AddressSpace) (p : Page) : Prop := ∃ a, page_of a = p ∧ Covers space.regions a

/-- What the pages hold, but for those that come with every root. -/
def holds (kernel : Page → Nat) (s : System n) (r : Fin n × Page) : Option Nat :=
  let frame := (s r.1).table r.2
  if kernel r.2 = 0 ∧ frame ≠ 0 then some frame else none

/-- A page that is mapped lies in a region, but for the loose ones, and no page of the
kernel does. -/
structure Fits (kernel : Page → Nat) (space : AddressSpace) (loose : Page → Prop) : Prop where
  covered : ∀ p, kernel p = 0 → space.table p ≠ 0 → InRegion space p ∨ loose p
  own : ∀ p, InRegion space p → kernel p = 0
  proper : Proper space.regions
  unrooted : space.rooted = false → ∀ p, space.table p = 0

/-- The books. The space `i` is being worked on: its loose pages are mapped and not in
a region yet. The frames in `held` are unmapped and not given back yet. -/
structure Kept (kernel : Page → Nat) (s : System n) (i : Fin n) (loose : Page → Prop)
    (held : List Nat) : Prop where
  balanced : Balanced (holds kernel s) (outs s.history) held
  fresh : ∀ frame, s.pool frame → standing s.history frame ≠ .out
  fits : ∀ j, Fits kernel (s j) fun p => j = i ∧ loose p
  told : Told s.history

@[simp] theorem put_history (s : System n) (i : Fin n) (space : AddressSpace) :
    (s.put i space).history = s.history := rfl

@[simp] theorem put_spaces_self (s : System n) (i : Fin n) (space : AddressSpace) :
    (s.put i space).spaces i = space := update_self _ _ _

theorem put_spaces_of_ne {j : Fin n} (s : System n) (space : AddressSpace) (h : j ≠ i) :
    (s.put i space).spaces j = s j := update_of_ne h _ _

@[simp] theorem put_quarantine (s : System n) (i : Fin n) (space : AddressSpace) :
    (s.put i space).quarantine = s.quarantine := rfl

theorem holds_put (htable : space.table = (s i).table) : holds kernel
    (s.put i space) = holds kernel s := by
  funext ⟨j, p⟩
  unfold holds
  by_cases hj : j = i
  · subst hj
    simp [htable]
  · simp [put_spaces_of_ne s space hj]

theorem holds_put_table (htable : space.table = update (s i).table p frame) (hp : kernel p = 0) :
    holds kernel (s.put i space) =
      update (holds kernel s) (i, p) (if frame ≠ 0 then some frame else none) := by
  funext ⟨j, q⟩
  by_cases h : (j, q) = (i, p)
  · rw [h, update_self]
    simp [holds, htable, hp]
  rw [update_of_ne h]
  unfold holds
  by_cases hj : j = i
  · subst hj
    have hq : q ≠ p := fun hq => h (by rw [hq])
    simp only [put_spaces_self, htable]
    rw [update_of_ne hq]
  · simp only
    rw [put_spaces_of_ne s space hj]

/-! ## The moves -/

theorem Fits.imp (h : Fits kernel space loose)
    (himp : ∀ p, kernel p = 0 → space.table p ≠ 0 → loose p → loose' p) : Fits kernel space loose' :=
  ⟨fun p hk ht => (h.covered p hk ht).imp_right (himp p hk ht), h.own, h.proper, h.unrooted⟩

section
variable (h : Kept kernel s i loose held)
include h

/-- The space changes, its table apart. -/
theorem Kept.put (htable : space.table = (s i).table)
    (hfits : Fits kernel space loose') : Kept kernel (s.put i space) i loose' held := by
  refine ⟨?_, h.fresh, ?_, h.told⟩
  · rw [holds_put htable]
    exact h.balanced
  · intro j
    by_cases hj : j = i
    · subst hj
      rw [put_spaces_self]
      exact hfits.imp fun p _ _ hp => ⟨rfl, hp⟩
    · rw [put_spaces_of_ne s space hj]
      exact (h.fits j).imp fun p _ _ hp => absurd hp.1 hj

theorem Kept.fits_self : Fits kernel (s i) loose :=
  (h.fits i).imp fun _ _ _ hp => hp.2

/-- Neither table nor regions change. -/
theorem Kept.put_same (htable : space.table = (s i).table)
    (hregions : space.regions = (s i).regions) (hrooted : space.rooted = (s i).rooted) :
    Kept kernel (s.put i space) i loose held := by
  have hf := h.fits_self
  refine h.put htable ⟨?_, ?_, ?_, ?_⟩
  · simpa only [InRegion, htable, hregions] using hf.covered
  · simpa only [InRegion, hregions] using hf.own
  · simpa only [hregions] using hf.proper
  · simpa only [htable, hrooted] using hf.unrooted

theorem Kept.imp
    (himp : ∀ p, (s i).table p ≠ 0 → loose p → loose' p) : Kept kernel s i loose' held := by
  refine ⟨h.balanced, h.fresh, ?_, h.told⟩
  intro j
  apply (h.fits j).imp
  rintro p - ht ⟨rfl, hp⟩
  exact ⟨rfl, himp p ht hp⟩

theorem Kept.perm {held' : List Nat} (hp : held.Perm held') :
    Kept kernel s i loose held' := ⟨h.balanced.perm hp, h.fresh, h.fits, h.told⟩

/-- Blocks become tables. -/
theorem Kept.take_tables (tables : List Nat) : Kept kernel (s.take_tables tables) i loose held := by
  refine ⟨h.balanced, ?_, h.fits, h.told⟩
  intro frame hframe
  simp only [System.take_tables, Bool.and_eq_true] at hframe
  exact h.fresh frame hframe.1

/-- A new frame is mapped at a page that was free. -/
theorem Kept.map {found : Nat} (hz : found ≠ 0)
    (hpool : s.pool found) (hp : kernel p = 0) (ht : (s i).table p = 0)
    (hrooted : (s i).rooted) (tables : List Nat) : Kept kernel
      (({ s with pool := update s.pool found false, history := .obtained found :: s.history }
        : System n).take_tables tables |>.put i { s i with table := update (s i).table p found })
      i (fun q => loose q ∨ q = p) held := by
  have hout := h.fresh found hpool
  have hf := h.fits_self
  refine ⟨?_, ?_, ?_, hz, h.told⟩
  · rw [holds_put_table (s := System.take_tables _ tables) rfl hp, if_pos hz]
    refine Balanced.store (o := some found) ?_ ?_
    · have := h.balanced.retain found
      rw [outs_of_not_out hout] at this
      exact (outs_cons (.obtained found) s.history).symm ▸ this
    · simp [holds, System.take_tables, ht]
  · intro frame hframe
    simp only [System.put, System.take_tables, Bool.and_eq_true] at hframe
    have hne : frame ≠ found := by
      intro heq
      rw [heq, update_self] at hframe
      cases hframe.1
    rw [update_of_ne hne] at hframe
    simpa [System.put, System.take_tables, standing, Event.frame, Ne.symm hne] using h.fresh frame hframe.1
  · intro j
    by_cases hj : j = i
    · subst hj
      rw [put_spaces_self]
      refine ⟨?_, hf.own, hf.proper, fun hr => ?_⟩
      · intro q hk hq
        by_cases hqp : q = p
        · exact .inr ⟨rfl, .inr hqp⟩
        · simp only at hq
          rw [update_of_ne hqp] at hq
          exact (hf.covered q hk hq).imp_right fun hl => ⟨rfl, .inl hl⟩
      · simp only at hr
        rw [hrooted] at hr
        cases hr
    · rw [put_spaces_of_ne _ _ hj]
      exact (h.fits j).imp fun q _ _ hq => absurd hq.1 hj

/-- A new frame goes back at once. -/
theorem Kept.unused {found : Nat} (hz : found ≠ 0) (hpool : s.pool found) (pool : Nat → Bool)
    (hsub : ∀ f, pool f → f = found ∨ s.pool f) :
    Kept kernel { s with pool := pool, history := .unused found :: .obtained found :: s.history }
      i loose held := by
  have hout := h.fresh found hpool
  refine ⟨?_, ?_, h.fits, hz, hz, h.told⟩
  · have hsame : outs (.unused found :: .obtained found :: s.history) = outs s.history := by
      rw [outs_cons, outs_cons]
      funext frame
      by_cases heq : frame = found
      · subst heq
        simp [Event.frame, Event.standing, outs_of_not_out hout]
      · simp [Event.frame, update_of_ne heq]
    simp only [hsame]
    exact h.balanced
  · intro frame hframe
    rcases hsub frame hframe with rfl | hold
    · simp [standing, Event.frame, Event.standing]
    · by_cases heq : found = frame
      · simp [standing, Event.frame, Event.standing, heq]
      · simpa [standing, Event.frame, heq] using h.fresh frame hold

/-- A page is unmapped and its frame held. -/
theorem Kept.unmap (hp : kernel p = 0) (ht : (s i).table p = frame) (hz : frame ≠ 0) :
    Kept kernel (s.put i { s i with table := update (s i).table p 0 }) i loose (frame :: held) := by
  have hf := h.fits_self
  refine ⟨?_, h.fresh, ?_, h.told⟩
  · rw [holds_put_table rfl hp]
    have hremove := h.balanced.remove (i, p)
    have hholds : holds kernel s (i, p) = some frame := by simp [holds, hp, ht, hz]
    rw [hholds] at hremove
    simpa using hremove
  · intro j
    by_cases hj : j = i
    · subst hj
      rw [put_spaces_self]
      refine ⟨?_, hf.own, hf.proper, ?_⟩
      · intro q hk hq
        simp only at hq
        by_cases hqp : q = p
        · rw [hqp, update_self] at hq
          exact absurd rfl hq
        · rw [update_of_ne hqp] at hq
          exact (hf.covered q hk hq).imp_right fun hl => ⟨rfl, hl⟩
      · intro hr
        exact absurd (ht.symm.trans (hf.unrooted hr p)) hz
    · rw [put_spaces_of_ne _ _ hj]
      exact (h.fits j).imp fun q _ _ hq => absurd hq.1 hj

end

/-- A held frame goes back to the allocator. -/
theorem Kept.pass (record : Passed n) (h : Kept kernel s i loose (record.frame :: held))
    (hack : record.Acknowledged) : Kept kernel
      { s with pool := update s.pool record.frame true, history := .passed record :: s.history }
      i loose held := by
  have hout := outs_of_out (h.balanced.pos_of_mem List.mem_cons_self)
  refine ⟨?_, ?_, h.fits, hack, hout, h.told⟩
  · have hrelease := h.balanced.release
    rw [outs, if_pos hout] at hrelease
    exact (outs_cons (.passed record) s.history).symm ▸ hrelease
  · intro frame hframe
    by_cases heq : frame = record.frame
    · simp [standing, Event.frame, Event.standing, heq]
    · simp only at hframe
      rw [update_of_ne heq] at hframe
      simpa [standing, Event.frame, Ne.symm heq] using h.fresh frame hframe

end

end mini_kernel.space
