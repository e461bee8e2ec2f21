-- Writing over a file. The new bytes go to clusters that were free, one write to the
-- directory switches the entry over, and only then are the old clusters freed. The law:
-- whatever write is the last one before a crash, the file has its old bytes or its new
-- ones, and every other file has what it had.
import MiniKernel.Fat32.Slots
import MiniKernel.Fat32.NameEnds

open mini_kernel.lib mini_kernel.vfs Function List Option

namespace mini_kernel.fat32

namespace FAT32Driver

section
variable {drv : FAT32Driver} {d d' d₁ d₂ : Disk} {turns : Nat} {frames frames' : Frames}
  {p : Option Listed} {x : Listed} {e : FAT32DirEntry}

/-! ## A file in its directory -/

/-- The file is listed in the directory. -/
structure FileIn (drv : FAT32Driver) (d : Disk) (p : Option Listed) (x : Listed) : Prop where
  dir : drv.DirInTree d p
  cluster : 2 ≤ (drv.resolved_of p).cluster
  listed : x ∈ drv.entries d (drv.chain_of d (drv.resolved_of p).cluster)
  file : x.entry.is_dir = false

variable {c : Nat} {k : Bool} {o : Option Location} {l : List Nat}

/-- The slot tells which entry is in it. -/
theorem Holder.entry_eq {location : Location} (h : drv.Holder d (some location) c k) :
    let entry := slot_at (d (drv.sector_place location.dir_cluster location.sector_offset))
      location.entry_index
    c = dir_entry_cluster entry ∧ k = entry.is_dir := by
  cases h with
  | @entry _ _ _ slot _ _ hslot =>
    have := (mem_dir_slots.mp (mem_of_visible hslot).1).2.2.2
    rw [← this]
    exact ⟨rfl, rfl⟩

/-- A file is not where a directory is. -/
theorem Holder.ne_dir {location : Location} {c' : Nat} (h : drv.Holder d (some location) c' k)
    (hk : k = false) (ho : drv.Holder d o c true) : o ≠ some location := by
  rintro rfl
  have := ho.entry_eq.2.trans h.entry_eq.2.symm
  rw [hk] at this
  cases this

section
variable (hm : drv.Mounted) (hw : drv.WellFormed d) (h : drv.FileIn d p x)
include hm hw h

/-- Where the file and its slot are. -/
theorem FileIn.place : ∃ l, drv.ClusterChain d (drv.resolved_of p).cluster l ∧ x ∈ drv.entries d l ∧
      (x.location, x.entry) ∈ visible (drv.dir_slots d l) ∧ x.location.dir_cluster ∈ l := by
  obtain ⟨l, hl⟩ := hw.chains h.dir.holder h.cluster
  have hx := h.listed
  rw [hm.chain_of_eq hl] at hx
  have hvis := mem_visible_of_listing hx
  exact ⟨l, hl, hx, hvis, (mem_dir_slots.mp (mem_of_visible hvis).1).1⟩

theorem FileIn.holder : drv.Holder d (some x.location) (dir_entry_cluster x.entry) false := by
  obtain ⟨l, hl, -, hvis, -⟩ := h.place hm hw
  rw [← h.file]
  exact .entry h.dir.holder hl hvis

/-- The clusters of a file belong to it alone. -/
theorem FileIn.alone (ho : drv.Holder d o c k) (hl : drv.ClusterChain d c l) (hne : o ≠ some x.location) :
    ∀ y ∈ l, y ∉ drv.chain_of d (dir_entry_cluster x.entry) := by
  intro y hy hmem
  by_cases h2 : dir_entry_cluster x.entry < 2
  · rw [chain_of_small h2] at hmem
    cases hmem
  · obtain ⟨lx, hlx⟩ := hw.chains (h.holder hm hw) (by omega)
    rw [hm.chain_of_eq hlx] at hmem
    exact hw.unshared ho (h.holder hm hw) hl hlx hne hy hmem

end

/-- A file whose clusters are kept has its chain and its contents. -/
theorem WellFormed.kept_file (hm : drv.Mounted) (hw : drv.WellFormed d)
    (ho : drv.Holder d o (dir_entry_cluster e) k)
    (h : ∀ {l}, drv.ClusterChain d (dir_entry_cluster e) l → ∀ c ∈ l,
      drv.read_fat_entry d' c = drv.read_fat_entry d c ∧ ∀ off < drv.bpb.sectors_per_cluster,
        d' (drv.sector_place c off) = d (drv.sector_place c off)) :
    (2 ≤ dir_entry_cluster e → ∃ l, drv.ClusterChain d' (dir_entry_cluster e) l) ∧
      drv.contents d' e = drv.contents d e := by
  unfold contents
  by_cases h2 : dir_entry_cluster e < 2
  · refine ⟨fun h => absurd h (by omega), ?_⟩
    rw [chain_of_small h2, chain_of_small h2, chain_bytes_nil, chain_bytes_nil]
  obtain ⟨l, hl⟩ := hw.chains ho (by omega)
  have hl' := hl.congr fun c hc => (h hl c hc).1
  refine ⟨fun _ => ⟨l, hl'⟩, ?_⟩
  rw [hm.chain_of_eq hl, hm.chain_of_eq hl', chain_bytes_congr fun c hc => (h hl c hc).2]

/-! ## The entry of the file is replaced -/

/-- The file has another entry; every cluster in use but its own is as it was. -/
structure Replaced (drv : FAT32Driver) (d d' : Disk) (x : Listed) (e : FAT32DirEntry) : Prop where
  shown : slot_kind e = .shown
  file : e.is_dir = false
  name : e.name = x.entry.name
  chain : 2 ≤ dir_entry_cluster e → ∃ l, drv.ClusterChain d' (dir_entry_cluster e) l
  keeps : ∀ c, drv.IsCluster c → drv.read_fat_entry d c ≠ 0 →
    c ∉ drv.chain_of d (dir_entry_cluster x.entry) →
    drv.read_fat_entry d' c = drv.read_fat_entry d c ∧
    ∀ off < drv.bpb.sectors_per_cluster, d' (drv.sector_place c off) =
      if c = x.location.dir_cluster ∧ off = x.location.sector_offset then
        put_slots (d (drv.sector_place c off)) x.location.entry_index e.bytes
      else d (drv.sector_place c off)

section
variable (hm : drv.Mounted) (hw : drv.WellFormed d) (hx : drv.FileIn d p x)
include hm hw hx

section
variable (h : drv.Replaced d d' x e)
include h

/-- A chain of something else is kept. -/
theorem Replaced.keeps_chain (ho : drv.Holder d o c k) (hl : drv.ClusterChain d c l)
    (hne : o ≠ some x.location) : drv.ClusterChain d' c l := by
  apply hl.congr
  intro y hy
  exact (h.keeps y (hl.node_of_mem y hy) (chain_entry_ne_zero hl y hy)
    (hx.alone hm hw ho hl hne y hy)).1

omit hw in
/-- All directories list what they listed, with the one entry swapped. -/
theorem Replaced.shows (hw : drv.Steady d) : drv.Shows d d' (swap_entry x.location e) where
  name := swap_entry_name x.location e
  is_dir := by
    intro y hy
    unfold swap_entry
    split
    · rename_i hloc
      have h1 := (hx.holder hm hw).entry_eq.2
      have h2 := Holder.entry_eq hy
      rw [hloc] at h2
      rw [h2.2, ← h1]
      exact h.file
    · rfl
  dir := by
    intro y hy hdir
    rw [swap_entry, if_neg]
    intro hloc
    have hy' : drv.Holder d (some y.location) (dir_entry_cluster y.entry) y.entry.is_dir := hy
    rw [hdir] at hy'
    exact (hx.holder hm hw).ne_dir rfl hy' (congrArg some hloc)
  lists := by
    intro o c l ho hl
    have hne := (hx.holder hm hw).ne_dir rfl ho
    refine ⟨h.keeps_chain hm hw hx ho hl hne, fun stack => ?_⟩
    have hslots : drv.dir_slots d' l = (drv.dir_slots d l).map (swap_slot x.location e) := by
      apply dir_slots_put
      intro y hy
      exact (h.keeps y (hl.node_of_mem y hy) (chain_entry_ne_zero hl y hy)
        (hx.alone hm hw ho hl hne y hy)).2
    obtain ⟨lp, -, -, hvis, -⟩ := hx.place hm hw
    obtain ⟨hmem, hkind⟩ := mem_of_visible hvis
    rw [← hw.lists ho hl stack, dir_listing, dir_listing, hslots, listing_swap h.shown]
    intro slot hslot hloc
    have hentry : slot.2 = x.entry := by
      rw [(mem_dir_slots.mp hslot).2.2.2, hloc]
      exact (mem_dir_slots.mp hmem).2.2.2.symm
    rw [hentry]
    exact ⟨hkind, h.name⟩

/-- Another file keeps its clusters and its bytes. -/
theorem Replaced.other {y : Listed} (hy : drv.InTree d (some y))
    (hfile : y.entry.is_dir = false) (hne : y.location ≠ x.location) :
    (2 ≤ dir_entry_cluster y.entry → ∃ l, drv.ClusterChain d' (dir_entry_cluster y.entry) l) ∧
      drv.contents d' y.entry = drv.contents d y.entry := by
  obtain ⟨lp, hlp, -, -, hmem⟩ := hx.place hm hw
  refine hw.kept_file hm hy fun hl c hc => ?_
  have hkeep := h.keeps c (hl.node_of_mem c hc) (chain_entry_ne_zero hl c hc)
    (hx.alone hm hw hy hl (fun he => hne (some.inj he)) c hc)
  -- the slot of `x` is in a directory, so not in the clusters of the file `y`
  have hdisj : c ≠ x.location.dir_cluster := fun he =>
    hw.unshared hx.dir.holder hy hlp hl (Holder.ne_dir hy hfile hx.dir.holder) hmem (he ▸ hc)
  refine ⟨hkeep.1, fun off ho => ?_⟩
  rw [hkeep.2 off ho, if_neg fun hco => hdisj hco.1]

end

/-! ## The three parts of a write -/

/-- As long as only free clusters are written, the file has its old entry. -/
theorem FileIn.replaced_of_keeps (h : drv.Keeps (fun c => drv.read_fat_entry d c = 0) d d') :
    drv.Replaced d d' x x.entry ∧ drv.contents d' x.entry = drv.contents d x.entry := by
  obtain ⟨lp, -, -, hvis, -⟩ := hx.place hm hw
  obtain ⟨hmem, hkind⟩ := mem_of_visible hvis
  have hentry := (mem_dir_slots.mp hmem).2.2.2
  obtain ⟨hchain, hcontents⟩ := hw.kept_file hm (hx.holder hm hw) fun hl c hc =>
    h c (hl.node_of_mem c hc) (chain_entry_ne_zero hl c hc)
  refine ⟨⟨hkind, hx.file, rfl, hchain, ?_⟩, hcontents⟩
  intro c hc h0 _
  obtain ⟨hfat, hdata⟩ := h c hc h0
  refine ⟨hfat, ?_⟩
  intro off ho
  rw [hdata off ho]
  split
  · rename_i hco
    obtain ⟨rfl, rfl⟩ := hco
    simp only at hentry
    rw [hentry, put_slots_self]
  · rfl

/-- From the write to the directory on, the file has its new entry. -/
theorem FileIn.replaced_of_written {buffer : Bytes} {first : Nat}
    (hsize : buffer.length < 2 ^ 32) (h : drv.Written d buffer first l d₁) (hd₂ : d₂ = update d₁
      (drv.sector_place x.location.dir_cluster x.location.sector_offset)
      (put_slots (d₁ (drv.sector_place x.location.dir_cluster x.location.sector_offset))
        x.location.entry_index (file_entry x.entry.name (length_name _) first buffer.length).bytes))
    (hfree : drv.Keeps (· ∈ drv.chain_of d (dir_entry_cluster x.entry)) d₂ d') :
    ∃ e, drv.Replaced d d' x e ∧ e.file_size = buffer.length ∧ drv.contents d' e = .ok buffer := by
  obtain ⟨lp, hlp, -, hvis, hmem⟩ := hx.place hm hw
  obtain ⟨hslot, hkind⟩ := mem_of_visible hvis
  have hoff := (mem_dir_slots.mp hslot).2.1
  have hcl := hlp.node_of_mem _ hmem
  have hnz := chain_entry_ne_zero hlp _ hmem
  have hused : ∀ y ∈ drv.chain_of d (dir_entry_cluster x.entry), drv.read_fat_entry d y ≠ 0 := by
    intro y hy
    by_cases h2 : dir_entry_cluster x.entry < 2
    · rw [chain_of_small h2] at hy
      cases hy
    · obtain ⟨lx, hlx⟩ := hw.chains (hx.holder hm hw) (by omega)
      rw [hm.chain_of_eq hlx] at hy
      exact chain_entry_ne_zero hlx y hy
  have hfat₂ : ∀ y, drv.IsCluster y → drv.read_fat_entry d₂ y = drv.read_fat_entry d₁ y := by
    intro y hy
    rw [hd₂, hm.read_fat_update hy (sector_place_ge ..)]
  -- the new chain is neither in the directory nor in the old chain
  have hnew : ∀ y ∈ l, y ∉ drv.chain_of d (dir_entry_cluster x.entry) := fun y hy hmem' =>
    hused y hmem' (h.free y hy).2
  have hdata : ∀ y ∈ l, ∀ off < drv.bpb.sectors_per_cluster,
      d' (drv.sector_place y off) = d₁ (drv.sector_place y off) := by
    intro y hy off ho
    rw [(hfree y (h.free y hy).1 (hnew y hy)).2 off ho, hd₂]
    apply update_of_ne
    intro he
    obtain ⟨rfl, -⟩ := hm.sector_place_inj (h.free y hy).1 hcl ho hoff he
    exact hnz (h.free _ hy).2
  have hfat : ∀ y ∈ l, drv.read_fat_entry d' y = drv.read_fat_entry d₁ y := by
    intro y hy
    rw [(hfree y (h.free y hy).1 (hnew y hy)).1, hfat₂ y (h.free y hy).1]
  generalize he : file_entry x.entry.name (length_name x.entry) first buffer.length = e at *
  obtain ⟨hchain, hesize, hbytes⟩ := h.file hm hsize hfat hdata (length_name x.entry) he.symm
  refine ⟨e, ⟨?_, ?_, ?_, hchain, ?_⟩, hesize, hbytes⟩
  · rw [← he]
    exact file_entry_shown hkind
  · rw [← he]
    exact file_entry_is_dir
  · rw [← he]
    exact file_entry_name
  · intro c hc h0 hnot
    have hk₁ := h.changes.keeps c hc fun hm => h0 (h.free c hm).2
    have hk₂ := hfree c hc hnot
    refine ⟨?_, ?_⟩
    · rw [hk₂.1, hfat₂ c hc, hk₁.1]
    · intro off ho
      rw [hk₂.2 off ho, hd₂]
      by_cases hco : c = x.location.dir_cluster ∧ off = x.location.sector_offset
      · rw [if_pos hco]
        obtain ⟨rfl, rfl⟩ := hco
        rw [update_self, hk₁.2 _ ho]
      · rw [if_neg hco, update_of_ne, hk₁.2 off ho]
        intro hp
        exact hco (hm.sector_place_inj hc hcl ho hoff hp)

end

/-! ## The run -/

/-- The file still has its old bytes. -/
def HasOld (drv : FAT32Driver) (d : Disk) (x : Listed) (d' : Disk) : Prop :=
  drv.Replaced d d' x x.entry ∧ drv.contents d' x.entry = drv.contents d x.entry

/-- The file has the new bytes. -/
def HasNew (drv : FAT32Driver) (d : Disk) (x : Listed) (buffer : Bytes) (d' : Disk) : Prop :=
  ∃ e, drv.Replaced d d' x e ∧ e.file_size = buffer.length ∧ drv.contents d' e = .ok buffer

/-- The name behind the last slash is the last segment, unless it is empty. -/
theorem leaf_eq_last {path leaf : Bytes} (h : (path_segments path).getLast? = some leaf)
    (hne : fat32_leaf_name_from_path path ≠ []) : fat32_leaf_name_from_path path = leaf := by
  have hfilter : ∀ l : List Bytes, l.getLastD [] ≠ [] →
      (l.filter (· ≠ [])).getLast? = some (l.getLastD []) := by
    intro l hl
    rcases eq_nil_or_concat l with rfl | ⟨l, a, rfl⟩
    · exact absurd rfl hl
    · rw [concat_eq_append, getLastD_concat] at hl ⊢
      rw [filter_append]
      simp [hl]
  have := hfilter _ hne
  rw [path_segments] at h
  rw [h] at this
  exact (some.inj this).symm

variable {path leaf buffer : Bytes} {C : Disk → Prop}

section
variable (hm : drv.Mounted)
include hm

theorem Steady.find_located (hw : drv.Steady d) (ht : drv.Enough turns)
    (hp : drv.DirInTree d p) (hne : leaf ≠ [])
    (hfind : drv.find_at d (drv.resolved_of p).cluster leaf = .ok x) :
    drv.find_in_directory_with_location frames.last turns d (drv.resolved_of p).cluster leaf =
      some (.ok (x.location, x.entry)) := by
  obtain ⟨l, hl⟩ := hw.chains hp.holder (find_at_mem hfind).1
  rw [hm.find_with_location_eq hl ht hne, hw.lists hp.holder hl, ← lookup, hm.lookup_of_find hl hfind]

/-- The slot of a file that is there is found without a write. -/
theorem Steady.does_find_existing (hw : drv.Steady d) (ht : drv.Enough turns)
    (hparent : drv.walk_parent d none (path_segments path) = .ok (p, leaf))
    (hp : drv.DirInTree d p) (hleaf : fat32_leaf_name_from_path path = leaf) (hne : leaf ≠ [])
    (hfind : drv.find_at d (drv.resolved_of p).cluster leaf = .ok x)
    (hfile : x.entry.is_dir = false) (hC : C d) : Does (drv.find_target frames turns path) C
      (fun a d' => a = .ok ⟨x.location, x.entry.name, dir_entry_cluster x.entry, true⟩ ∧ d' = d) d := by
  have hresolve : drv.resolve_parent_path frames turns d path =
      some (.ok ((drv.resolved_of p).cluster, to_name83 leaf)) := by
    rw [hw.resolve_parent_path_eq hm ht, hparent]
    rfl
  rw [find_target]
  apply Does.ask_seq hresolve hC
  simp only [hleaf]
  apply Does.ask_seq (hw.find_located hm ht hp hne hfind) hC
  simp only
  rw [if_neg (by simp [hfile])]
  exact Does.pure hC ⟨rfl, rfl⟩

/-- The slot of a file is written over. -/
theorem Mounted.does_update_dir_entry {location : Location} {bytes : Bytes}
    (hc : drv.IsCluster location.dir_cluster) (ho : location.sector_offset < drv.bpb.sectors_per_cluster)
    (hi : location.entry_index < drv.entry_count) {Q : Bool → Disk → Prop} (hC : C d)
    (hd' : d' = update d (drv.sector_place location.dir_cluster location.sector_offset)
      (put_slots (d (drv.sector_place location.dir_cluster location.sector_offset))
        location.entry_index bytes))
    (hC' : C d') (hQ : Q true d') : Does (drv.update_dir_entry location bytes) C Q d := by
  subst hd'
  rw [update_dir_entry, if_neg (by omega), change_slots]
  apply does_look (hm.read_cluster_sector_eq hc ho) hC
  exact hm.does_write_cluster_sector hc ho hC hC' hQ

section
variable (hw : drv.Steady d)
include hw

/-- On every disk on the way the file has its old bytes or its new ones; at the end, if
all went well, the new ones. -/
theorem Steady.does_overwrite (ht : drv.Enough turns) (hsize : buffer.length < 2 ^ 32)
    (hparent : drv.walk_parent d none (path_segments path) = .ok (p, leaf))
    (hx : drv.FileIn d p x) (hleaf : fat32_leaf_name_from_path path = leaf) (hne : leaf ≠ [])
    (hfind : drv.find_at d (drv.resolved_of p).cluster leaf = .ok x) :
    Does (drv.write_file_path frames turns path buffer)
      (fun d' => drv.HasOld d x d' ∨ drv.HasNew d x buffer d') (fun r d' => r = .ok () →
        drv.HasNew d x buffer d' ∧ (drv.Mirrored d → drv.Mirrored d')) d := by
  have hold : drv.HasOld d x d := hx.replaced_of_keeps hm hw (Keeps.refl _ _ _)
  have hlimit := hm.limit_turns ht
  obtain ⟨lp, hlp, -, hvis, hmem⟩ := hx.place hm hw
  obtain ⟨hslot, -⟩ := mem_of_visible hvis
  obtain ⟨-, hoff, hindex, -⟩ := mem_dir_slots.mp hslot
  have hcl := hlp.node_of_mem _ hmem
  rw [write_file_path]
  refine (hw.does_find_existing hm ht hparent hx.dir hleaf hne hfind hx.file (.inl hold)).seq_at ?_
  simp only
  rw [write_target]
  -- the new bytes are written to free clusters
  refine Does.seq (R := fun a d₁ => (∀ first, a = some first →
      ∃ l, drv.Written d buffer first l d₁) ∧ (drv.HasOld d x d₁ ∨ drv.HasNew d x buffer d₁))
    (Does.last (hm.does_write_cluster_chain hlimit ?_ ?_ ?_)) ?_
  · intro d' hd'
    exact .inl (hx.replaced_of_keeps hm hw hd')
  · intro d' first h
    cases h
  · rintro first l d' hwr _ h
    cases h
    exact ⟨l, hwr⟩
  · rintro (_ | first) d₁ ⟨hwr, hC₁⟩
    · exact Does.pure hC₁ fun h => nomatch h
    · obtain ⟨l, hwr⟩ := hwr first rfl
      simp only
      -- the entry is switched over
      generalize hd₂ : update d₁
        (drv.sector_place x.location.dir_cluster x.location.sector_offset)
        (put_slots (d₁ (drv.sector_place x.location.dir_cluster x.location.sector_offset))
          x.location.entry_index
          (file_entry x.entry.name (length_name _) first buffer.length).bytes) = d₂
      have hnew : ∀ d', drv.Keeps (· ∈ drv.chain_of d (dir_entry_cluster x.entry)) d₂ d' →
          drv.HasNew d x buffer d' := fun d' h =>
        hx.replaced_of_written hm hw hsize hwr hd₂.symm h
      have hmirror₂ : drv.Mirrored d → drv.Mirrored d₂ := by
        intro h
        rw [← hd₂]
        exact hm.mirrored_update (sector_place_ge ..) (hwr.changes.mirrored h)
      have hfat₂ : ∀ y, drv.IsCluster y → drv.read_fat_entry d₂ y = drv.read_fat_entry d₁ y := by
        intro y hy
        rw [← hd₂, hm.read_fat_update hy (sector_place_ge ..)]
      have hslots : file_slots (fat32_leaf_name_from_path path)
          ⟨x.location, x.entry.name, dir_entry_cluster x.entry, true⟩ first buffer.length =
          (file_entry x.entry.name (length_name _) first buffer.length).bytes := by
        rw [file_slots, if_pos (.inr rfl)]
        rfl
      have hC₂ := hnew d₂ (Keeps.refl _ _ _)
      rw [write_slots, if_pos (.inr rfl), hslots]
      refine (hm.does_update_dir_entry hcl hoff hindex hC₁ hd₂.symm (.inr hC₂)
        ⟨rfl, rfl⟩).seq_at ?_
      rw [if_neg (by simp)]
      -- the old clusters are freed
      by_cases h2 : dir_entry_cluster x.entry ≥ 2
      · rw [if_pos h2]
        obtain ⟨lx, hlx⟩ := hw.chains (hx.holder hm hw) h2
        have hnode := hlx.node_of_mem
        rw [hm.chain_of_eq hlx] at hnew
        have hlx₂ : drv.ClusterChain d₂ (dir_entry_cluster x.entry) lx := by
          apply hlx.congr
          intro y hy
          rw [hfat₂ y (hnode y hy)]
          refine (hwr.changes.keeps y (hnode y hy) ?_).1
          exact fun hyl => chain_entry_ne_zero hlx y hy (hwr.free y hyl).2
        have hfreed := hm.changes_free_entries (d := d₂) (l := lx.take 4096) (S := (· ∈ lx))
          (fun y hy => hnode y (mem_of_mem_take hy)) fun y hy => mem_of_mem_take hy
        refine (hm.does_free_cluster_chain hlx₂ (fun d' h => .inr (hnew d' h)) ⟨rfl, rfl⟩).seq_at ?_
        refine Does.pure (.inr (hnew _ hfreed.keeps)) ?_
        exact fun _ => ⟨hnew _ hfreed.keeps, fun h => hfreed.mirrored (hmirror₂ h)⟩
      · rw [if_neg h2]
        exact Does.pure (.inr hC₂) fun _ => ⟨hC₂, hmirror₂⟩

/-! ## The law -/

omit hw in
/-- Other paths lead to other slots. -/
theorem WellFormed.other_location (hw : drv.WellFormed d) {q : Bytes}
    {y : Listed} (hx : drv.walk d none (path_segments path) = .ok (some x))
    (hy : drv.walk d none (path_segments q) = .ok (some y))
    (hne : path_segments q ≠ path_segments path) : y.location ≠ x.location := by
  intro hloc
  have hleads := hw.walk_leads hm .root (fun _ => dirInTree_root) hx
  have hleads' := hw.walk_leads hm .root (fun _ => dirInTree_root) hy
  exact hne (hw.leads_inj hm hleads' hleads (congrArg some hloc)).1

section
variable (ht : drv.Enough turns)
include ht

/-- What another path gave it still gives. -/
theorem Replaced.read_other
    (hx : drv.FileIn d p x) (h : drv.Replaced d d' x e) {q : Bytes} {r : Option Listed}
    (hwalk : drv.walk d none (path_segments q) = .ok r)
    (hne : ∀ y, r = some y → y.location ≠ x.location) (buffer_size : Nat) :
    drv.read_file_path frames' turns d' q buffer_size =
      drv.read_file_path frames turns d q buffer_size := by
  refine (h.shows hm hx hw).read_same hm ht hw hwalk ?_ ?_ buffer_size
  · exact fun y hy => if_neg (hne y hy)
  · exact fun y hr hy hfile => h.other hm hw hx hy hfile (hne y hr)

/-- What the path of the file gives. -/
theorem Replaced.read_self (hx : drv.FileIn d p x) (h : drv.Replaced d d' x e)
    (hwalk : drv.walk d none (path_segments path) = .ok (some x)) (buffer_size : Nat) :
    drv.read_file_path frames turns d' path buffer_size =
      some (if buffer_size < max e.file_size 1 then .error .buffer_too_small
        else drv.contents d' e) := by
  have hswap : (swap_entry x.location e x).entry = e := by rw [swap_entry, if_pos rfl]
  have hread : drv.read_file_path frames turns d' path buffer_size = _ :=
    (h.shows hm hx hw).read_file hm hw ht hwalk hx.file (by rw [hswap]; exact h.chain) buffer_size
  rwa [hswap] at hread

/-- A path that reads as a file leads to a file in its directory. -/
theorem Steady.file_of_read {capacity : Nat} {old : Bytes}
    (h : drv.read_file_path frames turns d path capacity = some (.ok old)) :
    ∃ p leaf x, drv.walk_parent d none (path_segments path) = .ok (p, leaf) ∧
      drv.find_at d (drv.resolved_of p).cluster leaf = .ok x ∧ drv.FileIn d p x ∧
      drv.walk d none (path_segments path) = .ok (some x) ∧
      drv.contents d x.entry = .ok old ∧ old.length = x.entry.file_size := by
  rw [hw.read_file_path_eq hm ht] at h
  cases hwalk : drv.walk d none (path_segments path) with
  | error e =>
    rw [hwalk] at h
    cases h
  | ok r =>
    rw [hwalk] at h
    simp only [Except.bind, some.injEq] at h
    cases r with
    | none => cases h
    | some x =>
      rw [file_result] at h
      split at h
      · cases h
      rename_i hdir
      split at h
      · cases h
      have hsegs : path_segments path ≠ [] := by
        intro he
        rw [he] at hwalk
        cases hwalk
      have hlen : old.length = x.entry.file_size := by
        have hc := h
        simp only [contents] at hc
        split at hc
        · cases hc
          rw [length_take]
          omega
        · cases hc
      have hsplit := hwalk
      rw [walk_eq_parent hsegs] at hsplit
      cases hparent : drv.walk_parent d none (path_segments path) with
      | error e =>
        rw [hparent] at hsplit
        cases hsplit
      | ok q =>
        obtain ⟨p, leaf⟩ := q
        rw [hparent] at hsplit
        simp only [Except.bind] at hsplit
        cases hfind : drv.find_at d (drv.resolved_of p).cluster leaf with
        | error e =>
          rw [hfind] at hsplit
          cases hsplit
        | ok y =>
          rw [hfind] at hsplit
          cases hsplit
          obtain ⟨hp, -, -⟩ := hw.walk_parent_leads hm .root dirInTree_root hparent
          obtain ⟨h2, -, hmem⟩ := find_at_mem hfind
          exact ⟨p, leaf, x, rfl, hfind, ⟨hp, h2, hmem, by simpa using hdir⟩, rfl, h, hlen⟩

/-- A path that is there leads somewhere. -/
theorem Steady.walk_of_info
    {info : VFSFileInfo} (h : drv.get_path_info frames turns d path = some (.ok info)) :
    ∃ r, drv.walk d none (path_segments path) = .ok r := by
  rw [get_path_info, hw.resolve_path_eq hm ht] at h
  cases hr : drv.walk d none (path_segments path) with
  | error e =>
    rw [hr] at h
    cases h
  | ok r => exact ⟨r, rfl⟩

/-- A path that ends in a slash is refused before anything is written. -/
theorem Steady.does_refuse_slash
    (hparent : drv.walk_parent d none (path_segments path) = .ok (p, leaf))
    (hslash : fat32_leaf_name_from_path path = []) {Q : VfsResult Unit → Disk → Prop} (hC : C d)
    (hQ : Q (.error .invalid_path) d) : Does (drv.write_file_path frames turns path buffer) C Q d := by
  have hresolve : drv.resolve_parent_path frames turns d path =
      some (.ok ((drv.resolved_of p).cluster, to_name83 leaf)) := by
    rw [hw.resolve_parent_path_eq hm ht, hparent]
    rfl
  have hlocate : drv.find_in_directory_with_location frames.last turns d (drv.resolved_of p).cluster [] =
      some (.error .invalid_path) := by
    rw [find_in_directory_with_location, if_pos rfl]
  have htarget : Does (drv.find_target frames turns path) C
      (fun a d' => a = .error .invalid_path ∧ d' = d) d := by
    rw [find_target]
    apply Does.ask_seq hresolve hC
    simp only [hslash]
    apply Does.ask_seq hlocate hC
    exact Does.pure hC ⟨rfl, rfl⟩
  rw [write_file_path]
  exact htarget.seq_at (Does.pure hC hQ)

end

end

end

/-- What `read_file_path` returns for a file with these bytes. -/
def read_result (bytes : Bytes) (buffer_size : Nat) : VfsResult Bytes :=
  if buffer_size < max bytes.length 1 then .error .buffer_too_small else .ok bytes

section
variable (hm : drv.Mounted) (hw : drv.Steady d) (ht : drv.Enough turns) (hx : drv.FileIn d p x)
  (hwalk : drv.walk d none (path_segments path) = .ok (some x))
include hm hw ht hx hwalk

theorem HasNew.reads {new : Bytes} (h : drv.HasNew d x new d') (reader : Frames) (size : Nat) :
    drv.read_file_path reader turns d' path size = some (read_result new size) := by
  obtain ⟨e, he, hsize, hbytes⟩ := h
  rw [he.read_self hm hw ht hx hwalk, hbytes, hsize, read_result]

/-- On a disk on which the entry is replaced, the paths read as the law says. -/
theorem Steady.reads_old_or_new {old new : Bytes}
    (hold : drv.contents d x.entry = .ok old) (hlen : old.length = x.entry.file_size)
    (h : drv.HasOld d x d' ∨ drv.HasNew d x new d') :
    ((∀ reader size, drv.read_file_path reader turns d' path size = some (read_result old size)) ∨
      ∀ reader size, drv.read_file_path reader turns d' path size = some (read_result new size)) ∧
    ∀ q info reader, path_segments q ≠ path_segments path →
      drv.get_path_info reader turns d q = some (.ok info) → ∀ reader' size,
        drv.read_file_path reader' turns d' q size = drv.read_file_path reader turns d q size := by
  have hother : ∀ {e}, drv.Replaced d d' x e → ∀ q info reader, path_segments q ≠ path_segments path →
      drv.get_path_info reader turns d q = some (.ok info) → ∀ reader' size,
        drv.read_file_path reader' turns d' q size = drv.read_file_path reader turns d q size := by
    intro e he q info reader hne hq reader' size
    obtain ⟨r, hr⟩ := hw.walk_of_info hm ht hq
    refine he.read_other hm hw ht hx hr ?_ size
    rintro y rfl
    exact hw.other_location hm hwalk hr hne
  rcases h with ⟨he, hbytes⟩ | ⟨e, he, hnew⟩
  · refine ⟨.inl ?_, hother he⟩
    intro reader size
    rw [he.read_self hm hw ht hx hwalk, hbytes, hold, read_result, hlen]
  · exact ⟨.inr (HasNew.reads hm hw ht hx hwalk ⟨e, he, hnew⟩), hother he⟩

end

end

/-! ## A small volume -/

/-- The name `A`, as a slot holds it. -/
def small_name : Bytes := padded 8 [0x41] ++ padded 3 []

/-- The boot sector of a volume of eight sectors, one to a cluster, with two copies of the table. -/
def small_boot : Sector :=
  store (fun _ => 0) 11 ([0, 2, 1, 1, 0, 2, 0, 0, 8] ++ replicate 16 0 ++ [1] ++
    replicate 7 0 ++ [2])

/-- The slots of the root directory, with one file of three bytes, in the cluster behind it. -/
def small_volume (slots : Bytes) : Disk := fun i =>
  if i = 0 then small_boot
  else if i = 1 ∨ i = 2 then
    store (fun _ => 0) 0 ([0x0FFFFFF8, 0x0FFFFFFF, 0x0FFFFFFF, 0x0FFFFFFF].flatMap (leBytes · 4))
  else if i = 3 then store (fun _ => 0) 0 slots
  else if i = 4 then store (fun _ => 0) 0 [0x61, 0x62, 0x63]
  else fun _ => 0

/-- The file has a short name. -/
def small_disk : Disk := small_volume (new_entry small_name 0x20 3 3)

/-- The driver of the volume on a ramdisk. -/
def small_driver : FAT32Driver where
  device := .ramdisk 4096
  start_lba := 0
  bpb := ⟨512, 1, 1, 2, 0, 8, 0, 0, 1, 2⟩
  initialized := true
  fat_start_lba := 1
  data_start_lba := 3
  total_sectors := 8

theorem small_init : ({ small_driver with initialized := false } : FAT32Driver).init small_disk =
    small_driver := by decide +kernel

theorem small_mounted : small_driver.Mounted := by
  have h : (FAT32Driver.init { small_driver with initialized := false } small_disk).Mounted := by
    apply mounted_init <;> rw [small_init]
    · rfl
    · decide
    · decide
    · exact ⟨by decide, by decide⟩
    · decide
    · decide
  rwa [small_init] at h

section
variable {slots : Bytes}

theorem small_chain {c : Nat} (hc : c = 2 ∨ c = 3) :
    small_driver.ClusterChain (small_volume slots) c [c] := by
  have hplace : small_driver.place (u32 (small_driver.fat_start_lba + (small_driver.fat_place c).1)) =
      some 1 := by
    rcases hc with rfl | rfl <;> decide
  have hsector : small_volume slots 1 = small_volume [] 1 := rfl
  have hfat : small_driver.read_fat_entry (small_volume slots) c = 0x0FFFFFFF := by
    rw [read_fat_entry, read_sector_relative, hplace, Option.map_some, hsector]
    rcases hc with rfl | rfl <;> decide +kernel
  exact .last ⟨by omega, by rw [show small_driver.limit = 7 by decide]; omega⟩ (by rw [hfat]; rfl)

section
variable {slot : Slot} (hvisible : visible (small_driver.dir_slots (small_volume slots) [2]) = [slot])
  (hcluster : dir_entry_cluster slot.2 = 3) (hfile : slot.2.is_dir = false)
include hvisible hcluster hfile

/-- The root directory and the file are all there is. -/
theorem small_holder {o : Option Location} {c : Nat} {k : Bool}
    (h : small_driver.Holder (small_volume slots) o c k) :
    o = none ∧ c = 2 ∧ k ∨ o = some slot.1 ∧ c = 3 ∧ k = false := by
  induction h with
  | root => exact .inl ⟨rfl, rfl, rfl⟩
  | entry _ hl hslot ih =>
    rcases ih with ⟨-, rfl, -⟩ | ⟨-, -, h⟩
    · obtain rfl := hl.unique small_mounted.mark_ne_cluster (small_chain (.inl rfl))
      rw [hvisible, mem_singleton] at hslot
      subst hslot
      exact .inr ⟨rfl, hcluster, hfile⟩
    · cases h

theorem small_volume_well_formed : small_driver.WellFormed (small_volume slots) where
  chains := by
    intro o c k h _
    rcases small_holder hvisible hcluster hfile h with ⟨-, rfl, -⟩ | ⟨-, rfl, -⟩
    · exact ⟨_, small_chain (.inl rfl)⟩
    · exact ⟨_, small_chain (.inr rfl)⟩
  unshared := by
    intro o o' c c' k k' l l' h h' hl hl' hne
    have hone : ∀ {c l}, c = 2 ∨ c = 3 → small_driver.ClusterChain (small_volume slots) c l → l = [c] :=
      fun hc hl => hl.unique small_mounted.mark_ne_cluster (small_chain hc)
    rcases small_holder hvisible hcluster hfile h with ⟨rfl, rfl, -⟩ | ⟨rfl, rfl, -⟩ <;>
      rcases small_holder hvisible hcluster hfile h' with ⟨rfl, rfl, -⟩ | ⟨rfl, rfl, -⟩
    · exact absurd rfl hne
    · obtain rfl := hone (.inl rfl) hl
      obtain rfl := hone (.inr rfl) hl'
      simp
    · obtain rfl := hone (.inr rfl) hl
      obtain rfl := hone (.inl rfl) hl'
      simp
    · exact absurd rfl hne

end

end

theorem small_visible : visible (small_driver.dir_slots small_disk [2]) =
    [(⟨2, 0, 0⟩, file_entry small_name (by decide) 3 3)] := by decide +kernel

theorem small_well_formed : small_driver.WellFormed small_disk :=
  small_volume_well_formed small_visible (by decide) (by decide)

/-- The small volume has no long names. -/
theorem small_names_end : small_driver.NamesEnd small_disk := by
  intro o c l ho hl
  rcases small_holder small_visible (by decide) (by decide) ho with ⟨-, rfl, -⟩ | ⟨-, -, h⟩
  · obtain rfl := hl.unique small_mounted.mark_ne_cluster (small_chain (.inl rfl))
    exact spelled_of_short (by decide +kernel)
  · cases h

theorem small_enough : small_driver.Enough 113 := by
  unfold Enough
  decide

/-- Each call finds the same byte everywhere on the stack. -/
def filled (byte : UInt8) : Frames := ⟨fun _ _ _ => byte, fun _ => byte⟩

/-- The file `/A` reads as `abc`. -/
theorem small_read : small_driver.read_file_path (filled 0) 113 small_disk [0x2F, 0x41] 3 =
    some (.ok [0x61, 0x62, 0x63]) := by decide +kernel

/-- The short name of `aaaaaaaaaaaaa`. -/
def full_alias : Bytes := fat32_build_short_alias_name (replicate 13 0x61) 1

/-- The file has the long name `aaaaaaaaaaaaa`, which fills its slot. -/
def full_disk : Disk :=
  small_volume ((lfn_entries (replicate 13 0x61) (fat32_short_name_checksum full_alias)).flatMap
    FAT32DirEntry.bytes ++ new_entry full_alias 0x20 3 3)

def full_path : Bytes := 0x2F :: replicate 13 0x61

theorem full_visible : visible (small_driver.dir_slots full_disk [2]) =
    [(⟨2, 0, 1⟩, file_entry full_alias (by decide) 3 3)] := by decide +kernel

theorem full_well_formed : small_driver.WellFormed full_disk :=
  small_volume_well_formed full_visible (by decide) (by decide)

section
variable {drv : FAT32Driver}

/-- The sectors of the device. -/
def sector_count (drv : FAT32Driver) : Nat :=
  match drv.device with
  | .ramdisk ramdisk_size => ramdisk_size / 512
  | .ata sectors => sectors

/-- The sectors that the driver can tell apart: numbers are taken modulo this. -/
def sector_numbers (drv : FAT32Driver) : Nat :=
  match drv.device with
  | .ramdisk _ => 2 ^ 32
  | .ata _ => 2 ^ 28

/-- The place of a sector of any cluster number. -/
theorem cluster_place (drv : FAT32Driver) (c off : Nat) :
    let place := (drv.start_lba + drv.data_start_lba + (c + 2 ^ 32 - 2) * drv.bpb.sectors_per_cluster + off) %
      drv.sector_numbers
    drv.place (u32 (drv.cluster_to_lba c + off)) = if place < drv.sector_count then some place else none := by
  have hmul : u32 (u32 (c + 2 ^ 32 - 2) * drv.bpb.sectors_per_cluster) =
      u32 ((c + 2 ^ 32 - 2) * drv.bpb.sectors_per_cluster) := (Nat.mod_modEq _ _).mul_right _
  unfold place cluster_to_lba sector_numbers sector_count
  rw [hmul]
  generalize (c + 2 ^ 32 - 2) * drv.bpb.sectors_per_cluster = offset
  cases drv.device with
  | ramdisk ramdisk_size =>
    have hwrap : u32 (drv.start_lba + u32 (u32 (drv.data_start_lba + u32 offset) + off)) =
        (drv.start_lba + drv.data_start_lba + offset + off) % 2 ^ 32 := by
      simp only [u32]
      omega
    dsimp only
    rw [hwrap]
    split
    · rw [if_neg (by omega)]
    · rw [if_pos (by omega)]
  | ata sectors =>
    have hwrap : u32 (drv.start_lba + u32 (u32 (drv.data_start_lba + u32 offset) + off)) % 2 ^ 28 =
        (drv.start_lba + drv.data_start_lba + offset + off) % 2 ^ 28 := by
      simp only [u32]
      omega
    dsimp only
    rw [hwrap]

/-- The accesses to a sector of a cluster number fail, or they reach its own place. -/
def Confined (drv : FAT32Driver) (c off : Nat) : Prop :=
  (∀ d, drv.read_cluster_sector d c off = none) ∧
      (∀ d sector, drv.write_cluster_sector c off sector d = some (false, [])) ∨
    2 ≤ c ∧ (∀ d, drv.read_cluster_sector d c off = some (d (drv.sector_place c off))) ∧
      ∀ d sector, drv.write_cluster_sector c off sector d = some (true, [(drv.sector_place c off, sector)])

theorem confined_iff {c off : Nat} : drv.Confined c off ↔ (off < drv.bpb.sectors_per_cluster →
    ∀ place, drv.place (u32 (drv.cluster_to_lba c + off)) = some place →
      2 ≤ c ∧ place = drv.sector_place c off) := by
  by_cases ho : off < drv.bpb.sectors_per_cluster
  · have hread : ∀ d, drv.read_cluster_sector d c off =
        (drv.place (u32 (drv.cluster_to_lba c + off))).map d := fun d => if_neg ho.not_ge
    have hwrite : ∀ d sector, drv.write_cluster_sector c off sector d =
        drv.write_sector_relative (u32 (drv.cluster_to_lba c + off)) sector d :=
      fun d sector => congrFun (if_neg ho.not_ge) d
    unfold write_sector_relative at hwrite
    unfold Confined
    simp only [hread, ho, true_imp_iff]
    cases hplace : drv.place (u32 (drv.cluster_to_lba c + off)) with
    | none =>
      rw [hplace] at hwrite
      exact ⟨fun _ _ => nofun, fun _ => .inl ⟨fun _ => rfl, hwrite⟩⟩
    | some place =>
      rw [hplace] at hwrite
      constructor
      · rintro (⟨hnone, -⟩ | ⟨hc, -, hown⟩) _ ⟨⟩
        · exact absurd (hnone fun _ _ => 0) (some_ne_none _)
        · have heq := some.inj ((hwrite (fun _ _ => 0) fun _ => 0).symm.trans (hown _ _))
          exact ⟨hc, congrArg Prod.fst (cons.inj (congrArg Prod.snd heq)).1⟩
      · intro h
        obtain ⟨hc, rfl⟩ := h place rfl
        exact .inr ⟨hc, fun _ => rfl, hwrite⟩
  · refine iff_of_true (.inl ⟨fun d => if_pos (not_lt.mp ho), fun d sector => ?_⟩) fun h => absurd h ho
    exact congrFun (if_pos (not_lt.mp ho)) d

/-- The sectors of the number have their own places, or their numbers wrap to places behind the
end of the device. -/
def InReach (drv : FAT32Driver) (c : Nat) : Prop :=
  let first := (drv.start_lba + drv.data_start_lba + (c + 2 ^ 32 - 2) * drv.bpb.sectors_per_cluster) %
    drv.sector_numbers
  2 ≤ c ∧ drv.sector_place c drv.bpb.sectors_per_cluster ≤ drv.sector_numbers ∨
    drv.sector_count ≤ first ∧ first + drv.bpb.sectors_per_cluster ≤ drv.sector_numbers

/-- Numbers from `t` on, modulo `n`, are behind the end of the device or are those from `own` on. -/
theorem wrapped_iff {n count size t own : Nat} {known : Prop} (hcount : 0 < count) (hsize : 0 < size)
    (hown : 0 < own) (hn : 0 < n) (hsame : known → t % n = own % n) :
    (∀ off < size, (t + off) % n < count → known ∧ (t + off) % n = own + off) ↔
      known ∧ own + size ≤ n ∨ count ≤ t % n ∧ t % n + size ≤ n := by
  have hmod : ∀ off, t % n + off < n → (t + off) % n = t % n + off := by
    intro off hoff
    rw [← Nat.mod_add_mod, Nat.mod_eq_of_lt hoff]
  have hlt := Nat.mod_lt t hn
  constructor
  · intro h
    have hfits : t % n + size ≤ n := by
      by_contra hmore
      -- one of the numbers is 0
      have hzero : (t + (n - t % n)) % n = 0 := by
        rw [← Nat.mod_add_mod, Nat.add_sub_cancel' hlt.le, Nat.mod_self]
      have := h (n - t % n) (by omega) (by omega)
      omega
    by_cases hin : t % n < count
    · have := h 0 hsize (by rwa [hmod 0 (by omega)])
      rw [hmod 0 (by omega)] at this
      exact .inl ⟨this.1, by omega⟩
    · exact .inr ⟨by omega, hfits⟩
  · rintro (⟨hknown, hle⟩ | ⟨hbehind, hle⟩) off hoff hin
    · have hsame := hsame hknown
      rw [Nat.mod_eq_of_lt (by omega : own < n)] at hsame
      rw [hmod off (by omega)]
      exact ⟨hknown, by omega⟩
    · rw [hmod off (by omega)] at hin
      omega

theorem Mounted.confined_iff_inReach (hm : drv.Mounted) (c : Nat) :
    (∀ off, drv.Confined c off) ↔ drv.InReach c := by
  have hdata : 0 < drv.data_start_lba := by
    have htable := hm.table_size
    have hlimit : 2 ≤ drv.limit := by
      rw [hm.limit_eq]
      exact Nat.le_add_left _ _
    rw [hm.data_start]
    exact Nat.add_pos_right _ (Nat.mul_pos hm.fat_count (by omega))
  have hcount : 0 < drv.sector_count := by
    have htotal := hm.data_start_le
    have hholds := hm.on_device
    unfold sector_count
    split <;> simp only [holds, *] at hholds <;> omega
  have hsame : 2 ≤ c → (drv.start_lba + drv.data_start_lba + (c + 2 ^ 32 - 2) * drv.bpb.sectors_per_cluster) %
      drv.sector_numbers = drv.sector_place c 0 % drv.sector_numbers := by
    intro hc
    rw [show c + 2 ^ 32 - 2 = c - 2 + 2 ^ 32 by omega, Nat.add_mul, sector_place]
    unfold sector_numbers
    split <;> omega
  have hwrapped := wrapped_iff hcount hm.sectors_per_cluster
    (hdata.trans_le ((Nat.le_add_left _ _).trans (sector_place_ge drv c 0)))
    (by unfold sector_numbers; split <;> decide) hsame
  simp only [confined_iff, cluster_place, Option.ite_none_right_eq_some, some.injEq, InReach]
  rw [show drv.sector_place c drv.bpb.sectors_per_cluster =
    drv.sector_place c 0 + drv.bpb.sectors_per_cluster from rfl, ← hwrapped]
  refine forall_congr' fun off => imp_congr_right fun _ => ?_
  constructor
  · exact fun h hin => h _ ⟨hin, rfl⟩
  · rintro h _ ⟨hin, rfl⟩
    exact h hin

end

end FAT32Driver

end mini_kernel.fat32
