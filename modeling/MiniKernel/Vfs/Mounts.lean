-- Which mount a path belongs to (`vfs_find_mount` of kernel/vfs/vfs_core.cpp). Prefixes are
-- compared by bytes. The law: the mount with the longest prefix of whole components is found.
import MiniKernel.Vfs.MemFs

open List
open mini_kernel.memfs (SLASH Text)

namespace mini_kernel.mounts

structure VFSMount where
  active : Bool
  mount_path : Text

abbrev VFS_MAX_MOUNTS : Nat := 4

abbrev MountIndex := Fin VFS_MAX_MOUNTS

abbrev Mounts := MountIndex → VFSMount

/-- What a turn finds behind the mount in the path; `none` where the loop continues. -/
def VFSMount.relative (mount : VFSMount) (path : Text) : Option Text :=
  if !mount.active then none
  else if mount.mount_path = [SLASH] then some (if path.head? = some SLASH then path.tail else path)
  else
    -- the comparison of the bytes
    match path.dropPrefix? mount.mount_path with
    | none => none
    | some [] => some []
    | some (c :: rest) => if c = SLASH then some rest else none

/-- `best_length`, and the best mount with its relative path. -/
abbrev Best := Nat × Option (MountIndex × Text)

def find_mount_turn (mounts : Mounts) (path : Text) (best : Best) (i : MountIndex) : Best :=
  match (mounts i).relative path with
  | none => best
  | some relative =>
    let mount_len := (mounts i).mount_path.length
    if mount_len ≥ best.1 then (mount_len, some (i, relative)) else best

def vfs_find_mount (mounts : Mounts) (path : Text) : Option (MountIndex × Text) :=
  if path = [] then none
  else ((finRange VFS_MAX_MOUNTS).foldl (find_mount_turn mounts path) (0, none)).2

/-! ## Components -/

def Components (cs : List Text) : Prop := ∀ c ∈ cs, c ≠ [] ∧ SLASH ∉ c

def relative (cs : List Text) : Text := [SLASH].intercalate cs
def absolute (cs : List Text) : Text := SLASH :: relative cs

variable {cs ps qs : List Text} {rest : Text}

theorem Components.split (h : Components cs) (hne : cs ≠ []) : (relative cs).splitOn SLASH = cs :=
  splitOn_intercalate SLASH (fun c hc => (h c hc).2) hne

theorem relative_append (h : Components (cs ++ qs)) (hcs : cs ≠ []) (hqs : qs ≠ []) :
    relative (cs ++ qs) = relative cs ++ SLASH :: relative qs := by
  obtain ⟨h1, h2⟩ := forall_mem_append.mp h
  have hjoin : [SLASH].intercalate ((relative cs ++ SLASH :: relative qs).splitOn SLASH) = _ :=
    intercalate_splitOn SLASH
  rwa [splitOn_append_cons_self, Components.split h1 hcs, Components.split h2 hqs] at hjoin

theorem Components.relative_ne_nil (h : Components cs) (hne : cs ≠ []) : relative cs ≠ [] := by
  intro hnil
  have hsplit := h.split hne
  rw [hnil, splitOn_nil] at hsplit
  exact (h [] (by simp [← hsplit])).1 rfl

variable {mount : VFSMount}

/-- A mount takes the paths that go on from its own in whole components. -/
theorem relative_eq_some (hmount : mount.mount_path = absolute cs) (hcs : Components cs)
    (hps : Components ps) : mount.relative (absolute ps) = some rest ↔
      mount.active = true ∧ ∃ qs, cs ++ qs = ps ∧ relative qs = rest := by
  unfold VFSMount.relative
  by_cases hactive : mount.active = true
  swap
  · simp [hactive]
  simp only [hactive, hmount, true_and, Bool.not_true, Bool.false_eq_true, if_false]
  by_cases hroot : cs = []
  · simp [hroot, absolute, relative]
  have hne := hcs.relative_ne_nil hroot
  have hdrop : ∀ tail, (absolute ps).dropPrefix? (absolute cs) = some tail ↔
      relative ps = relative cs ++ tail := by
    simp [dropPrefix?_eq_some_iff, absolute]
  rw [if_neg (by simpa [absolute] using hne)]
  constructor
  · intro h
    have hsplit : ∀ tail, relative ps = relative cs ++ tail → (relative cs ++ tail).splitOn SLASH = ps := by
      intro tail htail
      rw [← htail, hps.split]
      rintro rfl
      exact hne (append_eq_nil_iff.mp htail.symm).1
    split at h <;> rename_i htail
    · cases h
    · have := hsplit _ ((hdrop _).mp htail)
      rw [append_nil, hcs.split hroot] at this
      exact ⟨[], by rw [append_nil, this], Option.some.inj h⟩
    · split at h <;> cases h
      rename_i hc
      subst hc
      have := hsplit _ ((hdrop _).mp htail)
      rw [splitOn_append_cons_self, hcs.split hroot] at this
      exact ⟨_, this, intercalate_splitOn SLASH⟩
  · rintro ⟨qs, rfl, rfl⟩
    by_cases hqs : qs = []
    · subst hqs
      rw [(hdrop []).mpr (by simp)]
      rfl
    · rw [(hdrop _).mpr (relative_append hps hroot hqs)]
      exact if_pos rfl

/-- A longer prefix has more bytes. -/
theorem absolute_lt (h : Components (cs ++ qs)) (hqs : qs ≠ []) :
    (absolute cs).length < (absolute (cs ++ qs)).length := by
  have := length_pos_iff.mpr (Components.relative_ne_nil (forall_mem_append.mp h).2 hqs)
  by_cases hcs : cs = []
  · simpa [hcs, absolute, relative] using this
  · simp [absolute, relative_append h hcs hqs]

/-! ## The loop -/

section
variable {mounts : Mounts} {path : Text} {seen : List MountIndex} {best : Best} {i : MountIndex}

/-- The best mount is one of the longest that were seen. -/
structure Leads (mounts : Mounts) (path : Text) (seen : List MountIndex) (best : Best) : Prop where
  start : best.2 = none → best.1 = 0
  mount : ∀ i rest, best.2 = some (i, rest) →
    best.1 = (mounts i).mount_path.length ∧ (mounts i).relative path = some rest
  most : ∀ j ∈ seen, ∀ rest, (mounts j).relative path = some rest →
    best.2 ≠ none ∧ (mounts j).mount_path.length ≤ best.1

theorem Leads.turn (h : Leads mounts path seen best) :
    Leads mounts path (seen ++ [i]) (find_mount_turn mounts path best i) := by
  unfold find_mount_turn
  split
  · rename_i hi
    exact ⟨h.start, h.mount, forall_mem_append.mpr ⟨h.most, by simp [hi]⟩⟩
  · rename_i hi
    dsimp only
    split <;> rename_i hlen
    · refine ⟨by simp, ?_, forall_mem_append.mpr ⟨?_, by simp⟩⟩
      · rintro _ _ ⟨⟩
        exact ⟨rfl, hi⟩
      · intro j hj rest hrest
        exact ⟨by simp, (h.most j hj rest hrest).2.trans hlen⟩
    · refine ⟨h.start, h.mount, forall_mem_append.mpr ⟨h.most, forall_mem_singleton.mpr ?_⟩⟩
      intro _ _
      refine ⟨fun hnone => hlen ?_, by omega⟩
      simp [h.start hnone]

theorem leads_all (mounts : Mounts) (path : Text) (l : List MountIndex) :
    Leads mounts path l (l.foldl (find_mount_turn mounts path) (0, none)) := by
  induction l using reverseRecOn with
  | nil => exact ⟨by simp, by simp, by simp⟩
  | append_singleton l i ih =>
    rw [foldl_append]
    exact ih.turn

end

/-- The mount that is found is the one with the longest prefix in whole components, and the
components behind it are the relative path. Without such a mount none is found. -/
theorem the_longest_mount_is_found (mounts : Mounts) (parts : MountIndex → List Text) (ps : List Text)
    (hparts : ∀ i, (mounts i).active = true →
      (mounts i).mount_path = absolute (parts i) ∧ Components (parts i))
    (hapart : ∀ i j, (mounts i).active = true → (mounts j).active = true →
      (mounts i).mount_path = (mounts j).mount_path → i = j) (hps : Components ps) :
    match vfs_find_mount mounts (absolute ps) with
    | none => ∀ i, (mounts i).active = true → ¬ parts i <+: ps
    | some (i, rest) => (mounts i).active = true ∧ parts i <+: ps ∧
      rest = relative (ps.drop (parts i).length) ∧
      ∀ j ≠ i, (mounts j).active = true → parts j <+: ps → (parts j).length < (parts i).length := by
  have hrel : ∀ {i}, (mounts i).active = true → ∀ {rest}, (mounts i).relative (absolute ps) = some rest ↔
      ∃ qs, parts i ++ qs = ps ∧ relative qs = rest := by
    intro i hi rest
    rw [relative_eq_some (hparts i hi).1 (hparts i hi).2 hps, and_iff_right hi]
  have hlead := leads_all mounts (absolute ps) (finRange VFS_MAX_MOUNTS)
  rw [vfs_find_mount, if_neg (by simp [absolute])]
  generalize foldl _ _ _ = best at hlead
  have hmost : ∀ {i}, (mounts i).active = true → parts i <+: ps →
      best.2 ≠ none ∧ (mounts i).mount_path.length ≤ best.1 := by
    rintro i hi ⟨qs, hqs⟩
    exact hlead.most i (mem_finRange i) _ ((hrel hi).mpr ⟨qs, hqs, rfl⟩)
  obtain ⟨best_length, _ | ⟨i, rest⟩⟩ := best
  · exact fun i hi hprefix => (hmost hi hprefix).1 rfl
  · obtain ⟨rfl, hrest⟩ := hlead.mount i rest rfl
    have hi : (mounts i).active = true := by
      by_contra hno
      simp [VFSMount.relative, hno] at hrest
    obtain ⟨qs, rfl, rfl⟩ := (hrel hi).mp hrest
    refine ⟨hi, prefix_append _ _, by rw [drop_left], ?_⟩
    intro j hne hj hprefix
    by_contra hlong
    -- the other prefix goes on from this one, so its path has more bytes
    obtain ⟨more, hmore⟩ := prefix_of_prefix_length_le (prefix_append _ _) hprefix (not_lt.mp hlong)
    by_cases hnil : more = []
    · refine hne (hapart j i hj hi ?_)
      rw [(hparts j hj).1, (hparts i hi).1, ← hmore, hnil, append_nil]
    · have hle := (hmost hj hprefix).2
      rw [(hparts j hj).1, (hparts i hi).1, ← hmore] at hle
      exact absurd (absolute_lt (hmore ▸ (hparts j hj).2) hnil) (not_lt.mpr hle)

/-- Of "/" and "/a", the second one takes "/a/b". -/
theorem the_inner_mount_takes_its_path : ∃ mounts : Mounts, (mounts 0).mount_path = absolute [] ∧
    (mounts 1).mount_path = absolute [[97]] ∧
    vfs_find_mount mounts (absolute [[97], [98]]) = some (1, relative [[98]]) := by
  have hnames : ∀ cs, cs <+: [[97], [98]] → Components cs := by
    intro cs hcs c hc
    rcases mem_pair.mp (hcs.subset hc) with rfl | rfl <;> decide
  have h := the_longest_mount_is_found
    (fun i => ⟨decide (i.val < 2), absolute (if i.val = 0 then [] else [[97]])⟩)
    (fun i => if i.val = 0 then [] else [[97]]) [[97], [98]]
    (fun i _ => ⟨rfl, hnames _ (by decide +revert)⟩) (by decide) (hnames _ (prefix_refl _))
  split at h
  · exact absurd (h 1 rfl) (by decide)
  · rename_i i rest hfind
    obtain ⟨-, -, rfl, hlong⟩ := h
    obtain rfl : i = 1 := by
      by_contra hne
      have := hlong 1 (Ne.symm hne) rfl (by decide)
      revert this
      decide +revert
    exact ⟨_, rfl, rfl, hfind⟩

end mini_kernel.mounts
