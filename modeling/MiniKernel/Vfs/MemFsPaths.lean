-- Paths of the memory file system. A path string stands for the list of its segments,
-- or for nothing when one of them is not a name. The lookups return for every string,
-- and find the node that the tree has under the segments.
import MiniKernel.Vfs.MemFsTree

open mini_kernel.lib mini_kernel.vfs List Option

namespace mini_kernel.memfs

variable {s : Nodes} {i : Node} {path cursor segment : Text}

instance : DecidablePred IsName := fun _ => inferInstanceAs (Decidable (_ ∧ _))

/-- The segments of a path: none of them empty, reserved or too long. -/
def segments (path : Text) : Option (List Text) :=
  if path = [] then some []
  else if ∀ x ∈ path.splitOn SLASH, IsName x then some (path.splitOn SLASH)
  else none

/-! ## One segment -/

theorem segments_nil : segments [] = some [] := by simp [segments]

theorem segments_word (h : IsName segment) : segments segment = some [segment] := by
  simp [segments, splitOn_eq_singleton h.2.2.2, h, h.1]

theorem segments_slash (h : IsName segment) (hc : cursor ≠ []) :
    segments (segment ++ SLASH :: cursor) = (segments cursor).map (segment :: ·) := by
  simp only [segments, splitOn_append_cons_self_of_not_mem h.2.2.2, mem_cons, forall_eq_or_imp, h, true_and, hc,
    if_false, append_eq_nil_iff, reduceCtorEq, and_false]
  split <;> rfl

/-- The first segment of a path has to be a name. -/
theorem segments_none (hs : SLASH ∉ segment) (h : ¬ IsName segment)
    (hp : path = segment ∨ ∃ rest, path = segment ++ SLASH :: rest) (hne : path ≠ []) :
    segments path = none := by
  have hin : segment ∈ path.splitOn SLASH := by
    rcases hp with rfl | ⟨rest, rfl⟩
    · simp [splitOn_eq_singleton hs]
    · simp [splitOn_append_cons_self_of_not_mem hs]
  simp only [segments, hne, if_false, ite_eq_right_iff, reduceCtorEq, imp_false]
  exact fun hall => h (hall segment hin)

/-- A path that ends in a slash has an empty last segment. -/
theorem segments_trailing (hs : SLASH ∉ segment) : segments (segment ++ [SLASH]) = none := by
  have hempty : ¬ IsName [] := fun h => h.1 rfl
  have hin : [] ∈ (segment ++ [SLASH]).splitOn SLASH := by
    rw [splitOn_append_cons_self_of_not_mem hs]
    simp [splitOn]
  simp only [segments, append_eq_nil_iff, cons_ne_nil, and_false, if_false,
    ite_eq_right_iff, reduceCtorEq, imp_false]
  exact fun hall => hempty (hall [] hin)

/-- The loop over the bytes of a segment stops at a slash or at the end. -/
theorem segment_loop_eq : ∀ {cursor segment : Text}, segment.length < MEMFS_MAX_NAME →
    ∃ word rest, cursor = word ++ rest ∧ SLASH ∉ word ∧ (rest = [] ∨ ∃ r, rest = SLASH :: r) ∧
      memfs_segment_loop segment cursor =
        if (segment ++ word).length < MEMFS_MAX_NAME then some (segment ++ word, rest) else none := by
  intro cursor
  induction cursor with
  | nil =>
    intro segment hlen
    exact ⟨[], [], by simp, by simp, .inl rfl, by simp [memfs_segment_loop, hlen]⟩
  | cons c cursor ih =>
    intro segment hlen
    by_cases hc : c = SLASH
    · subst hc
      exact ⟨[], SLASH :: cursor, by simp, by simp, .inr ⟨cursor, rfl⟩,
        by simp [memfs_segment_loop, hlen]⟩
    by_cases hfull : segment.length + 1 ≥ MEMFS_MAX_NAME
    · obtain ⟨word, rest, rfl, hw, hr, _⟩ := @ih [] (by decide)
      refine ⟨c :: word, rest, rfl, by simp [hw, Ne.symm hc], hr, ?_⟩
      rw [memfs_segment_loop, if_neg hc, if_pos hfull, if_neg]
      simp only [length_append, length_cons]
      omega
    · obtain ⟨word, rest, rfl, hw, hr, heq⟩ := @ih (segment ++ [c]) (by simp; omega)
      refine ⟨c :: word, rest, rfl, by simp [hw, Ne.symm hc], hr, ?_⟩
      rw [memfs_segment_loop, if_neg hc, if_neg hfull, heq]
      simp

/-- What `memfs_next_segment` says about the rest of a path. -/
def Says (cursor : Text) : Segment → Prop
  | .invalid => segments cursor = none
  | .done => cursor = []
  | .next segment rest =>
    IsName segment ∧ rest.length < cursor.length ∧
      segments cursor = (segments rest).map (segment :: ·)

theorem next_segment_spec (cursor : Text) : Says cursor (memfs_next_segment cursor) := by
  unfold memfs_next_segment
  split
  · rename_i hslash
    -- a leading slash is an empty first segment
    cases cursor with
    | nil => simp at hslash
    | cons c rest =>
      obtain rfl : c = SLASH := by simpa using hslash
      have hempty : SLASH ∉ ([] : Text) := by simp
      exact segments_none hempty (fun h => h.1 rfl) (.inr ⟨rest, rfl⟩) (by simp)
  · split
    · rename_i hnil
      exact hnil
    rename_i hslash hnil
    obtain ⟨word, rest, rfl, hw, hr, heq⟩ := @segment_loop_eq cursor [] (by decide)
    have hshape : word ++ rest = word ∨ ∃ r, word ++ rest = word ++ SLASH :: r := by
      rcases hr with rfl | ⟨r, rfl⟩
      · simp
      · exact .inr ⟨r, rfl⟩
    rw [heq, nil_append]
    by_cases hlen : word.length < MEMFS_MAX_NAME
    · rw [if_pos hlen]
      dsimp only
      by_cases hbad : word.length = 0 ∨ memfs_is_reserved_segment word
      · rw [if_pos hbad]
        apply segments_none hw _ hshape hnil
        rintro ⟨h1, _, h2, _⟩
        rcases hbad with h | h
        · exact h1 (length_eq_zero_iff.mp h)
        · simp [h2] at h
      · rw [if_neg hbad]
        have hname : IsName word := by
          refine ⟨fun h => hbad (.inl (by simp [h])), hlen, ?_, hw⟩
          exact Bool.eq_false_iff.mpr fun h => hbad (.inr h)
        rcases hr with rfl | ⟨r, rfl⟩
        · refine ⟨hname, ?_, ?_⟩
          · simpa [length_pos_iff] using hname.1
          · simp [segments_word hname, segments_nil]
        · simp only [if_true]
          by_cases hrest : r = []
          · subst hrest
            exact segments_trailing hw
          · rw [if_neg hrest]
            refine ⟨hname, by simp; omega, segments_slash hname hrest⟩
    · rw [if_neg hlen]
      exact segments_none hw (fun h => hlen h.2.1) hshape hnil

/-! ## Lookups -/

variable {current : Node}

/-- The loop of `memfs_lookup_path` walks down from a node it has reached. -/
theorem lookup_path_loop_spec (ht : Tree s) {fuel : Nat}
    {q : List Text} (hq : Path root (up s) q current) (hfuel : cursor.length < fuel) :
    ∃ found, memfs_lookup_path_loop s fuel cursor current = some found ∧
      ∀ i, found = .ok i ↔ ∃ r, segments cursor = some r ∧ Path root (up s) (q ++ r) i := by
  induction fuel generalizing cursor current q with
  | zero => omega
  | succ fuel ih =>
    have hsays := next_segment_spec cursor
    rw [memfs_lookup_path_loop]
    rcases hnext : memfs_next_segment cursor with _ | _ | ⟨segment, rest⟩ <;> rw [hnext] at hsays
    · exact ⟨_, rfl, by simp [show segments cursor = none from hsays]⟩
    · obtain rfl : cursor = [] := hsays
      refine ⟨_, rfl, ?_⟩
      intro i
      simp only [segments_nil, some.injEq, exists_eq_left', append_nil, Except.ok.injEq]
      constructor
      · rintro rfl
        exact hq
      · exact fun h => hq.node_unique ht.names h
    · obtain ⟨_, hlen, hseg⟩ := hsays
      dsimp only
      rw [hseg]
      rcases find_child_cases ht (ht.active_of_path hq) segment with ⟨hfind, hnone⟩ | ⟨c, hfind, hc⟩
      · rw [hfind]
        refine ⟨_, rfl, ?_⟩
        intro i
        simp only [reduceCtorEq, false_iff, map_eq_some_iff]
        rintro ⟨_, ⟨r, _, rfl⟩, hpath⟩
        -- a path through the segment goes through a child with its name
        obtain ⟨a, c, ha, hc⟩ := hpath.child
        obtain rfl := ha.node_unique ht.names hq
        exact hnone c hc
      · rw [hfind]
        obtain ⟨found, hloop, hfound⟩ := ih (hq.step hc) (show rest.length < fuel by omega)
        refine ⟨found, hloop, ?_⟩
        intro i
        rw [hfound i]
        simp

theorem lookup_path_spec (ht : Tree s) (path : Text) : ∃ found, memfs_lookup_path s path = some found ∧
      ∀ i, found = .ok i ↔ ∃ q, segments path = some q ∧ Path root (up s) q i := by
  unfold memfs_lookup_path
  split
  · rename_i hnil
    subst hnil
    refine ⟨_, rfl, ?_⟩
    intro i
    simp [segments_nil, path_nil, eq_comm]
  · exact lookup_path_loop_spec ht .root (by omega)

theorem copy_name (h : IsName segment) : vfs_copy_string MEMFS_MAX_NAME segment = segment := by
  apply take_of_length_le
  have hlen := h.2.1
  omega

/-- The loop of `memfs_lookup_parent` ends at the directory of the last segment. -/
theorem lookup_parent_loop_spec (ht : Tree s) {fuel : Nat}
    {q : List Text} (hq : Path root (up s) q current) (hdir : (s current).type = .dir)
    (hfuel : cursor.length < fuel) :
    ∃ found, memfs_lookup_parent_loop s fuel cursor current = some found ∧
      ∀ i leaf, found = .ok (i, leaf) → IsName leaf ∧ (s i).type = .dir ∧
        ∃ r, segments cursor = some (r ++ [leaf]) ∧ Path root (up s) (q ++ r) i := by
  induction fuel generalizing cursor current q with
  | zero => omega
  | succ fuel ih =>
    have hsays := next_segment_spec cursor
    rw [memfs_lookup_parent_loop]
    rcases hnext : memfs_next_segment cursor with _ | _ | ⟨segment, rest⟩ <;> rw [hnext] at hsays
    · exact ⟨_, rfl, by simp⟩
    · exact ⟨_, rfl, by simp⟩
    · obtain ⟨hname, hlen, hseg⟩ := hsays
      dsimp only
      split
      · rename_i hlast
        refine ⟨_, rfl, ?_⟩
        intro i leaf h
        simp only [Except.ok.injEq, Prod.mk.injEq, copy_name hname] at h
        obtain ⟨rfl, rfl⟩ := h
        refine ⟨hname, hdir, [], ?_, by simpa using hq⟩
        simp [hseg, hlast, segments_nil]
      · rcases find_child_cases ht (ht.active_of_path hq) segment with ⟨hfind, -⟩ | ⟨c, hfind, hc⟩
        · rw [hfind]
          exact ⟨_, rfl, by simp⟩
        · rw [hfind]
          simp only [bind_eq_bind, bind_some, get_node_active (up_eq_some.mp hc).1]
          split
          · exact ⟨_, rfl, by simp⟩
          rename_i hcdir
          obtain ⟨found, hloop, hfound⟩ :=
            ih (hq.step hc) (by simpa using hcdir) (show rest.length < fuel by omega)
          refine ⟨found, hloop, ?_⟩
          intro i leaf h
          obtain ⟨hleaf, hidir, r, hr, hpath⟩ := hfound i leaf h
          refine ⟨hleaf, hidir, segment :: r, ?_, by simpa using hpath⟩
          simp [hseg, hr]

theorem lookup_parent_cases (ht : Tree s) (path : Text) :
    (∃ e, memfs_lookup_parent s path = some (.error e)) ∨
      ∃ p leaf q, memfs_lookup_parent s path = some (.ok (p, leaf)) ∧ IsName leaf ∧
        (s p).type = .dir ∧ segments path = some (q ++ [leaf]) ∧ Path root (up s) q p ∧ (s p).active := by
  unfold memfs_lookup_parent
  split
  · exact .inl ⟨_, rfl⟩
  obtain ⟨found, hloop, hfound⟩ :=
    lookup_parent_loop_spec ht .root ht.root_dir.2.1 (show path.length < path.length + 1 by omega)
  rcases found with e | ⟨p, leaf⟩
  · exact .inl ⟨e, hloop⟩
  · obtain ⟨hleaf, hdir, q, hseg, hp⟩ := hfound p leaf rfl
    exact .inr ⟨p, leaf, q, hloop, hleaf, hdir, hseg, hp, ht.active_of_path hp⟩

end mini_kernel.memfs
