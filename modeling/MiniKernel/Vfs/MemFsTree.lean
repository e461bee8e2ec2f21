-- The pool of the memory file system as a tree. The functions that walk the links
-- return, and find what the parent links say; linking and unlinking a child change the
-- list of one directory and nothing else.
import MiniKernel.Lib.PathTree
import MiniKernel.Lib.Thread
import MiniKernel.Vfs.MemFs

open mini_kernel.lib mini_kernel.vfs Function List Option

namespace mini_kernel.memfs

/-- A segment that `memfs_next_segment` lets through. -/
def IsName (name : Text) : Prop :=
  name ≠ [] ∧ name.length < MEMFS_MAX_NAME ∧ memfs_is_reserved_segment name = false ∧ SLASH ∉ name

/-- The link of an active node to its parent, with its name there. -/
def up (s : Nodes) (j : Node) : Option (Node × Text) :=
  if (s j).active then (s j).parent.map (·, (s j).name) else none

abbrev nexts (s : Nodes) (j : Node) : Index := (s j).next_sibling

/-- The child lists hold exactly the nodes of `kids`. -/
def Threads (s : Nodes) (kids : Node → Node → Prop) : Prop :=
  ∀ i, (s i).active → ∃ l, Threaded (nexts s) (s i).first_child l ∧ ∀ j, j ∈ l ↔ kids i j

/-- The active nodes whose parent link leads to `i`. -/
def Kid (s : Nodes) (i j : Node) : Prop := (s j).active ∧ (s j).parent = some i

/-- The active nodes form a tree with the root at node 0. -/
structure Tree (s : Nodes) : Prop where
  root_dir : (s root).active ∧ (s root).type = .dir ∧ (s root).parent = none
  typed : ∀ i, (s i).active → (s i).type = .file ∨ (s i).type = .dir
  parent : ∀ j, (s j).active → j ≠ root →
    ∃ i, (s j).parent = some i ∧ (s i).active ∧ (s i).type = .dir
  threads : Threads s (Kid s)
  distinct : ∀ i j, (s i).active → (s j).active → (s i).parent = (s j).parent →
    (s i).name = (s j).name → i = j
  named : ∀ j, (s j).active → j ≠ root → IsName (s j).name
  path : ∀ j, (s j).active → ∃ p, Path root (up s) p j

variable {s s' : Nodes} {i j k p d : Node} {name : Text}
  {kids : Node → Node → Prop}

@[simp]
theorem get_node_none : memfs_get_node s none = none := rfl

theorem get_node_active (h : (s i).active) : memfs_get_node s (some i) = some i := by
  simp [memfs_get_node, h]

variable {c : Node × Text}

theorem up_eq_some : up s j = some c ↔ (s j).active ∧ (s j).parent = some c.1 ∧ (s j).name = c.2 := by
  obtain ⟨i, x⟩ := c
  unfold up
  split
  · rename_i h
    simp [h, map_eq_some_iff]
  · rename_i h
    simp [h]

theorem Kid.up (h : Kid s i j) : up s j = some (i, (s j).name) := up_eq_some.mpr ⟨h.1, h.2, rfl⟩

theorem Tree.names (ht : Tree s) : Named root (up s) where
  root := by simp [memfs.up, ht.root_dir]
  distinct := by
    intro i j c hi hj
    rw [up_eq_some] at hi hj
    exact ht.distinct i j hi.1 hj.1 (hi.2.1.trans hj.2.1.symm) (hi.2.2.trans hj.2.2.symm)

variable {q r : List Text} {fuel : Nat} {l₁ l₂ : List Node}

/-- Whatever a path leads to is active. -/
theorem Tree.active_of_path (ht : Tree s) (h : Path root (up s) q j) : (s j).active := by
  cases h with
  | root => exact ht.root_dir.1
  | step _ h => exact (up_eq_some.mp h).1

/-- The path of a node other than the root is not empty. -/
theorem Tree.path_ne_nil (h : Path root (up s) q j) (hj : j ≠ root) : q ≠ [] := by
  rintro rfl
  exact hj (path_nil.mp h)

theorem Tree.parent_dir (ht : Tree s) (h : up s j = some c) : (s c.1).active ∧ (s c.1).type = .dir := by
  obtain ⟨hact, hpar, _⟩ := up_eq_some.mp h
  have hj : j ≠ root := by
    rintro rfl
    simp [ht.root_dir] at hpar
  obtain ⟨i, hi, h1, h2⟩ := ht.parent j hact hj
  rw [hpar, some.injEq] at hi
  rw [hi]
  exact ⟨h1, h2⟩

/-! ## Finding a child -/

variable {l : List Node}

theorem find_child_loop_eq {head : Index}
    (hl : Threaded (nexts s) head l) (hact : ∀ j ∈ l, (s j).active) (hfuel : l.length < fuel) :
    memfs_find_child_loop s name fuel head = some (l.find? fun j => (s j).name = name) := by
  induction hl generalizing fuel with
  | nil =>
    obtain ⟨fuel, rfl⟩ := Nat.exists_eq_add_of_lt hfuel
    simp [memfs_find_child_loop]
  | @cons a l _ ih =>
    obtain _ | fuel := fuel
    · simp at hfuel
    · have hact' : ∀ j ∈ l, (s j).active := fun j hj => hact j (by simp [hj])
      simp only [memfs_find_child_loop, get_node_active (hact a (by simp))]
      by_cases hname : (s a).name = name
      · simp [hname]
      · rw [if_neg hname, ih hact' (by simpa using hfuel), find?_cons_of_neg (by simpa using hname)]

theorem Threads.short (h : Threaded (nexts s) (s i).first_child l) : l.length < MEMFS_MAX_NODES + 1 := by
  have hcard := h.nodup.length_le_card
  simp only [Fintype.card_fin] at hcard
  omega

/-- `memfs_find_child` finds the child with the given name. -/
theorem find_child_cases (ht : Tree s) (hd : (s d).active) (name : Text) :
    (memfs_find_child s (some d) name = some none ∧ ∀ j, up s j ≠ some (d, name)) ∨
      ∃ j, memfs_find_child s (some d) name = some (some j) ∧ up s j = some (d, name) := by
  by_cases hdir : (s d).type = .dir
  · obtain ⟨l, hl, hmem⟩ := ht.threads d hd
    have hact : ∀ j ∈ l, (s j).active := fun j hj => ((hmem j).mp hj).1
    simp only [memfs_find_child, get_node_active hd, hdir, ne_eq, not_true_eq_false, if_false,
      find_child_loop_eq hl hact (Threads.short hl)]
    cases hfind : l.find? fun j => (s j).name = name with
    | none =>
      refine .inl ⟨rfl, fun j hj => ?_⟩
      obtain ⟨h1, h2, h3⟩ := up_eq_some.mp hj
      have hnot := find?_eq_none.mp hfind j ((hmem j).mpr ⟨h1, h2⟩)
      simp [h3] at hnot
    | some j =>
      have hj := mem_of_find?_eq_some hfind
      have hname := find?_some hfind
      exact .inr ⟨j, rfl, up_eq_some.mpr ⟨hact j hj, ((hmem j).mp hj).2, by simpa using hname⟩⟩
  · refine .inl ⟨by simp [memfs_find_child, get_node_active hd, hdir], fun j hj => ?_⟩
    exact hdir (ht.parent_dir hj).2

/-- Walking up from a node passes the nodes of its path. -/
theorem is_descendant_loop_eq (ht : Tree s)
    (hp : Path root (up s) q p) (hi : Path root (up s) r i) (hfuel : r.length + 1 < fuel) :
    memfs_is_descendant_loop s p fuel (some i) = some (decide (q <+: r)) := by
  induction hi generalizing fuel with
  | root =>
    obtain _ | _ | fuel := fuel
    · omega
    · simp at hfuel
    · simp only [memfs_is_descendant_loop, get_node_active ht.root_dir.1, ht.root_dir.2.2]
      by_cases hroot : root = p
      · subst hroot
        obtain rfl : q = [] := hp.unique ht.names .root
        simp
      · have hq : q ≠ [] := Tree.path_ne_nil hp (Ne.symm hroot)
        simp [hroot, hq]
  | @step r i j x hr hj ih =>
    obtain _ | fuel := fuel
    · omega
    · have hpath := hr.step hj
      simp only [memfs_is_descendant_loop, get_node_active (up_eq_some.mp hj).1]
      by_cases hjp : j = p
      · subst hjp
        obtain rfl := hp.unique ht.names hpath
        simp
      · rw [if_neg hjp, (up_eq_some.mp hj).2.1, ih (by simp at hfuel; omega)]
        have hne : q ≠ r ++ [x] := by
          rintro rfl
          exact hjp (hpath.node_unique ht.names hp)
        simp [prefix_concat_iff, hne]

theorem is_descendant_spec (ht : Tree s) (hp : Path root (up s) q p)
    (hi : Path root (up s) r i) : memfs_is_descendant s i p = some (decide (q <+: r)) := by
  apply is_descendant_loop_eq ht hp hi
  have hlen := hi.length_lt ht.names
  simp only [Fintype.card_fin] at hlen
  omega

/-! ## Linking and unlinking -/

/-- Two nodes that differ in the links of the child lists at most. -/
structure Alike (a b : MemFSNode) : Prop where
  active : a.active = b.active
  type : a.type = b.type
  parent : a.parent = b.parent
  name : a.name = b.name
  size : a.size = b.size
  data : a.data = b.data

theorem Alike.refl (a : MemFSNode) : Alike a a := ⟨rfl, rfl, rfl, rfl, rfl, rfl⟩

theorem Alike.trans {a b c : MemFSNode} (h : Alike a b) (h' : Alike b c) : Alike a c :=
  ⟨h.active.trans h'.active, h.type.trans h'.type, h.parent.trans h'.parent,
    h.name.trans h'.name, h.size.trans h'.size, h.data.trans h'.data⟩

theorem up_of_alike (h : Alike (s' j) (s j)) : up s' j = up s j := by
  simp only [up, h.active, h.parent, h.name]

/-- Only the links of the child lists differ. -/
def Relinked (s s' : Nodes) : Prop := ∀ j, Alike (s' j) (s j)

theorem relinked_update {node : MemFSNode} (h : Alike node (s k)) : Relinked s (update s k node) := by
  intro j
  by_cases hj : j = k
  · subst hj
    rwa [update_self]
  · rw [update_of_ne hj]
    exact .refl _

/-- Joining `previous`, or the directory, to what follows the child. -/
def unlinked (s : Nodes) (parent child : Node) : Index → Nodes
  | none => update s parent { s parent with first_child := (s child).next_sibling }
  | some b => update s b { s b with next_sibling := (s child).next_sibling }

theorem nexts_unlinked_none : nexts (unlinked s p k none) = nexts s := by
  funext j
  by_cases hj : j = p <;> simp [unlinked, nexts, hj]

theorem nexts_unlinked_some : nexts (unlinked s p k (some i)) = update (nexts s) i (nexts s k) := by
  funext j
  by_cases hj : j = i <;> simp [unlinked, nexts, hj]

theorem first_child_unlinked_none : (unlinked s p k none i).first_child =
    if i = p then (s k).next_sibling else (s i).first_child := by
  by_cases hi : i = p <;> simp [unlinked, hi]

theorem first_child_unlinked_some : (unlinked s p k (some j) i).first_child = (s i).first_child := by
  by_cases hi : i = j <;> simp [unlinked, hi]

theorem relinked_unlinked (previous : Index) : Relinked s (unlinked s p k previous) := by
  cases previous with
  | none => exact relinked_update ⟨rfl, rfl, rfl, rfl, rfl, rfl⟩
  | some b => exact relinked_update ⟨rfl, rfl, rfl, rfl, rfl, rfl⟩

theorem unlink_child_loop_eq {head previous : Index} (hl : Threaded (nexts s) head (l₁ ++ k :: l₂))
    (hact : ∀ j ∈ l₁ ++ k :: l₂, (s j).active) (hprev : ∀ b, previous = some b → (s b).active)
    (hk : k ∉ l₁) (hfuel : l₁.length < fuel) : memfs_unlink_child_loop s p k fuel previous head =
      some (unlinked s p k (l₁.getLast?.or previous)) := by
  induction l₁ generalizing head previous fuel with
  | nil =>
    obtain ⟨rfl, _⟩ := threaded_cons.mp hl
    obtain _ | fuel := fuel
    · simp at hfuel
    · simp only [memfs_unlink_child_loop, if_true, get_node_active (hact k (by simp)),
        bind_some]
      cases previous with
      | none => rfl
      | some b =>
        rw [get_node_active (hprev b rfl)]
        rfl
  | cons a l₁ ih =>
    obtain ⟨rfl, hl'⟩ := threaded_cons.mp hl
    obtain _ | fuel := fuel
    · simp at hfuel
    · have hne : a ≠ k := by
        rintro rfl
        simp at hk
      have ha : (s a).active := hact a (by simp)
      simp only [memfs_unlink_child_loop, if_neg hne, get_node_active ha, bind_some]
      rw [ih hl' (fun j hj => hact j (by simp at hj ⊢; tauto)) (by simpa using ha)
        (by simp at hk; tauto) (by simpa using hfuel)]
      simp [getLast?_cons]

/-- Each child stands in one list. -/
def OneParent (kids : Node → Node → Prop) : Prop :=
  ∀ i i' j, kids i j → kids i' j → i = i'

theorem kid_oneParent : OneParent (Kid s) := by
  intro i i' j h h'
  simpa using h.2.symm.trans h'.2

/-- Joining the neighbours of a child leaves the list of its directory without it. -/
theorem threaded_unlinked (hl : Threaded (nexts s) (s p).first_child (l₁ ++ k :: l₂)) :
    Threaded (nexts (unlinked s p k l₁.getLast?)) (unlinked s p k l₁.getLast? p).first_child
      (l₁ ++ l₂) := by
  rcases eq_nil_or_concat' l₁ with rfl | ⟨l₁, b, rfl⟩
  · obtain ⟨_, htail⟩ := threaded_cons.mp hl
    rw [getLast?_nil, nexts_unlinked_none, first_child_unlinked_none, if_pos rfl]
    exact htail
  · rw [getLast?_concat, nexts_unlinked_some, first_child_unlinked_some]
    simp only [append_assoc, cons_append, nil_append] at hl ⊢
    exact hl.unlink

/-- A list of another directory is not touched. -/
theorem threaded_unlinked_other (hip : i ≠ p)
    (hl : Threaded (nexts s) (s i).first_child l) (hdis : ∀ j ∈ l, j ∉ l₁ ++ k :: l₂) :
    Threaded (nexts (unlinked s p k l₁.getLast?)) (unlinked s p k l₁.getLast? i).first_child l := by
  rcases eq_nil_or_concat' l₁ with rfl | ⟨l₁, b, rfl⟩
  · rw [getLast?_nil, nexts_unlinked_none, first_child_unlinked_none, if_neg hip]
    exact hl
  · rw [getLast?_concat, nexts_unlinked_some, first_child_unlinked_some]
    apply hl.congr
    intro j hj
    apply update_of_ne
    rintro rfl
    exact hdis j hj (by simp)

/-- `memfs_unlink_child` takes a child out of the list of its directory. -/
theorem unlink_child_spec (h : Threads s kids) (hone : OneParent kids)
    (hact : ∀ i j, kids i j → (s j).active) (hp : (s p).active) (hk : kids p k) :
    ∃ s', memfs_unlink_child s (some p) k = some s' ∧ Relinked s s' ∧
      Threads s' (fun i j => kids i j ∧ j ≠ k) := by
  obtain ⟨l, hl, hmem⟩ := h p hp
  obtain ⟨l₁, l₂, rfl⟩ := append_of_mem ((hmem k).mpr hk)
  have hd := hl.nodup
  have hk₁ : k ∉ l₁ := by
    intro hin
    exact (nodup_append.mp hd).2.2 k hin k (by simp) rfl
  have hk₂ : k ∉ l₂ := (nodup_cons.mp (nodup_append.mp hd).2.1).1
  refine ⟨unlinked s p k l₁.getLast?, ?_, relinked_unlinked _, ?_⟩
  · have hshort := Threads.short hl
    simp only [length_append, length_cons] at hshort
    simp only [memfs_unlink_child, get_node_active hp]
    rw [unlink_child_loop_eq hl (fun j hj => hact p j ((hmem j).mp hj)) (by simp) hk₁ (by omega),
      or_none]
  · intro i hi
    rw [(relinked_unlinked _ i).active] at hi
    by_cases hip : i = p
    · subst hip
      refine ⟨l₁ ++ l₂, threaded_unlinked hl, ?_⟩
      intro j
      simp only [← hmem j]
      constructor
      · intro hj
        refine ⟨by simp at hj ⊢; tauto, ?_⟩
        rintro rfl
        simp [hk₁, hk₂] at hj
      · rintro ⟨hj, hne⟩
        simp only [mem_append, mem_cons] at hj ⊢
        tauto
    · obtain ⟨l, hl', hmem'⟩ := h i hi
      have hdis : ∀ j ∈ l, j ∉ l₁ ++ k :: l₂ := by
        intro j hj hin
        exact hip (hone _ _ _ ((hmem' j).mp hj) ((hmem j).mp hin))
      refine ⟨l, threaded_unlinked_other hip hl' hdis, ?_⟩
      intro j
      simp only [← hmem' j]
      constructor
      · intro hj
        refine ⟨hj, ?_⟩
        rintro rfl
        exact hdis j hj (by simp)
      · exact And.left

theorem relinked_link_first : Relinked s (link_first s p k) := by
  have hnode : Relinked s (update s k { s k with next_sibling := (s p).first_child }) :=
    relinked_update ⟨rfl, rfl, rfl, rfl, rfl, rfl⟩
  have hparent : Relinked (update s k { s k with next_sibling := (s p).first_child })
      (link_first s p k) := relinked_update ⟨rfl, rfl, rfl, rfl, rfl, rfl⟩
  exact fun j => (hparent j).trans (hnode j)

/-- A node that stands in no list comes to the front of one. -/
theorem Threads.link_first (h : Threads s kids) (hfree : ∀ i, ¬ kids i k) (hkp : k ≠ p)
    (hp : (s p).active) : Threads (link_first s p k) (fun i j => kids i j ∨ (i = p ∧ j = k)) := by
  have hnext : nexts (memfs.link_first s p k) = update (nexts s) k (s p).first_child := by
    funext j
    by_cases hj : j = k <;> by_cases hjp : j = p <;>
      simp_all [memfs.link_first, nexts, update_apply]
  intro i hi
  rw [(relinked_link_first i).active] at hi
  obtain ⟨l, hl, hmem⟩ := h i hi
  have hkl : k ∉ l := fun hin => hfree i ((hmem k).mp hin)
  by_cases hip : i = p
  · subst hip
    refine ⟨k :: l, ?_, ?_⟩
    · have hfirst : (memfs.link_first s i k i).first_child = some k := by simp [memfs.link_first]
      rw [hnext, hfirst]
      exact hl.push hkl
    · intro j
      simp [hmem j, or_comm]
  · refine ⟨l, ?_, ?_⟩
    · have hfirst : (memfs.link_first s p k i).first_child = (s i).first_child := by
        rw [memfs.link_first, update_of_ne hip]
        by_cases hik : i = k
        · subst hik
          simp
        · rw [update_of_ne hik]
      rw [hnext, hfirst]
      apply hl.congr
      intro j hj
      apply update_of_ne
      rintro rfl
      exact hkl hj
    · intro j
      simp [hmem j, hip]

/-! ## Hanging, cutting and moving a node -/

theorem Threads.congr {kids' : Node → Node → Prop}
    (h : Threads s kids) (hk : ∀ i j, kids i j ↔ kids' i j) : Threads s kids' := by
  intro i hi
  obtain ⟨l, hl, hmem⟩ := h i hi
  exact ⟨l, hl, fun j => (hmem j).trans (hk i j)⟩

theorem kid_congr (h : Alike (s' j) (s j)) : Kid s' i j ↔ Kid s i j := by
  simp only [Kid, h.active, h.parent]

/-- The one node whose link changed. -/
theorem up_update {c : Option (Node × Text)}
    (hother : ∀ j, j ≠ k → Alike (s' j) (s j)) (hk : up s' k = c) : up s' = update (up s) k c :=
  eq_update_iff.mpr ⟨hk, fun j hj => up_of_alike (hother j hj)⟩

theorem not_root_of_inactive (ht : Tree s) (hk : (s k).active = false) : k ≠ root := by
  rintro rfl
  simp [ht.root_dir.1] at hk

theorem no_kid_of_inactive (ht : Tree s) (hk : (s k).active = false) {x : Text} : up s j ≠ some (k, x) := by
  intro h
  have hact := (ht.parent_dir h).1
  simp [hk] at hact

/-- The bytes of the files are no part of the tree. -/
theorem Tree.congr (ht : Tree s) (hactive : ∀ j, (s' j).active = (s j).active)
    (htype : ∀ j, (s' j).type = (s j).type) (hparent : ∀ j, (s' j).parent = (s j).parent)
    (hname : ∀ j, (s' j).name = (s j).name) (hthreads : Threads s' (Kid s)) : Tree s' := by
  have hup : up s' = up s := by
    funext j
    simp only [up, hactive, hparent, hname]
  have hkid : ∀ i j, Kid s i j ↔ Kid s' i j := by
    intro i j
    simp only [Kid, hactive, hparent]
  constructor
  · simpa only [hactive, htype, hparent] using ht.root_dir
  · simpa only [hactive, htype] using ht.typed
  · simpa only [hactive, htype, hparent] using ht.parent
  · exact hthreads.congr hkid
  · simpa only [hactive, hparent, hname] using ht.distinct
  · simpa only [hactive, hname] using ht.named
  · simpa only [hactive, hup] using ht.path

/-- The tree survives when one node changes, or loses, its place: its new place is a
free name of a directory, and it stays a directory if it has children. -/
theorem Tree.change (ht : Tree s) (hk : k ≠ root) (hother : ∀ j, j ≠ k → Alike (s' j) (s j))
    (hplaced : (s' k).active → ∃ p x, up s' k = some (p, x) ∧ p ≠ k ∧ (s p).active ∧
      (s p).type = .dir ∧ IsName x ∧ ∀ j, up s j ≠ some (p, x))
    (htype : (s' k).active → (s' k).type = .file ∨ (s' k).type = .dir)
    (hkids : ∀ j, j ≠ k → Kid s k j → (s' k).active ∧ (s' k).type = .dir)
    (hthreads : Threads s' (Kid s')) (hpath : ∀ j, (s' j).active → ∃ q, Path root (up s') q j) : Tree s' := by
  have hold : ∀ j, (s' j).active → j ≠ k → (s j).active := by
    intro j hj hjk
    rwa [← (hother j hjk).active]
  have hnew : ∀ i j, (s' i).active → (s' j).active → i = k → j ≠ k →
      (s' i).parent = (s' j).parent → (s' i).name ≠ (s' j).name := by
    rintro i j hi hj rfl hjk hpar hnm
    obtain ⟨p, x, hup, _, _, _, _, hfree⟩ := hplaced hi
    obtain ⟨_, hpark, hnamek⟩ := up_eq_some.mp hup
    apply hfree j
    rw [← up_of_alike (hother j hjk)]
    exact up_eq_some.mpr ⟨hj, hpar ▸ hpark, hnm ▸ hnamek⟩
  refine ⟨?_, ?_, ?_, hthreads, ?_, ?_, hpath⟩
  · rw [(hother root hk.symm).active, (hother root hk.symm).type, (hother root hk.symm).parent]
    exact ht.root_dir
  · intro i hi
    by_cases hik : i = k
    · subst hik
      exact htype hi
    · rw [(hother i hik).type]
      exact ht.typed i (hold i hi hik)
  · intro j hj hroot
    by_cases hjk : j = k
    · subst hjk
      obtain ⟨p, x, hup, hpk, hact, hdir, _⟩ := hplaced hj
      rw [← (hother p hpk).active] at hact
      rw [← (hother p hpk).type] at hdir
      exact ⟨p, (up_eq_some.mp hup).2.1, hact, hdir⟩
    · obtain ⟨i, hi, hact, hdir⟩ := ht.parent j (hold j hj hjk) hroot
      refine ⟨i, (hother j hjk).parent.trans hi, ?_⟩
      by_cases hik : i = k
      · subst hik
        exact hkids j hjk ⟨hold j hj hjk, hi⟩
      · rw [(hother i hik).active, (hother i hik).type]
        exact ⟨hact, hdir⟩
  · intro i j hi hj hpar hnm
    by_cases hik : i = k <;> by_cases hjk : j = k
    · rw [hik, hjk]
    · exact absurd hnm (hnew i j hi hj hik hjk hpar)
    · exact absurd hnm.symm (hnew j i hj hi hjk hik hpar.symm)
    · rw [(hother i hik).parent, (hother j hjk).parent] at hpar
      rw [(hother i hik).name, (hother j hjk).name] at hnm
      exact ht.distinct i j (hold i hi hik) (hold j hj hjk) hpar hnm
  · intro j hj hroot
    by_cases hjk : j = k
    · subst hjk
      obtain ⟨p, x, hup, _, _, _, hname, _⟩ := hplaced hj
      rwa [(up_eq_some.mp hup).2.2]
    · rw [(hother j hjk).name]
      exact ht.named j (hold j hj hjk) hroot

/-- A node stands in place `(p, name)`, and the others stand where they stood. -/
structure Placed (k p : Node) (name : Text) (s s' : Nodes) : Prop where
  other : ∀ j, j ≠ k → Alike (s' j) (s j)
  active : (s' k).active
  parent : (s' k).parent = some p
  name : (s' k).name = name
  threads : Threads s' (fun i j => (Kid s i j ∧ j ≠ k) ∨ (i = p ∧ j = k))

section
variable (h : Placed k p name s s')
include h

theorem Placed.up : up s' = update (up s) k (some (p, name)) :=
  up_update h.other (up_eq_some.mpr ⟨h.active, h.parent, h.name⟩)

theorem Placed.kid_lists : Threads s' (Kid s') := by
  apply h.threads.congr
  intro i j
  by_cases hjk : j = k
  · subst hjk
    have hiff : i = p ↔ p = i := eq_comm
    simp [Kid, h.active, h.parent, hiff]
  · simp [kid_congr (h.other j hjk), hjk]

/-- An inactive node is hung up under a free name. -/
theorem Placed.hang (ht : Tree s) (hk : (s k).active = false)
    (htype : (s' k).type = .file ∨ (s' k).type = .dir) (hp : (s p).active)
    (hdir : (s p).type = .dir) (hname : IsName name) (hfree : ∀ j, memfs.up s j ≠ some (p, name)) :
    Tree s' := by
  have hkroot := not_root_of_inactive ht hk
  have hpk : p ≠ k := by
    rintro rfl
    simp [hk] at hp
  have hnone : memfs.up s k = none := by simp [memfs.up, hk]
  apply ht.change hkroot h.other
  · intro _
    exact ⟨p, name, by rw [h.up, update_self], hpk, hp, hdir, hname, hfree⟩
  · exact fun _ => htype
  · intro j _ hj
    exact absurd hj.up (no_kid_of_inactive ht hk)
  · exact h.kid_lists
  · intro j hj
    obtain ⟨q, hq⟩ := ht.path p hp
    have hiff (r : List Text) :=
      path_hang (r := r) (j := j) (x := name) ht.names hkroot hnone
        (fun j x => no_kid_of_inactive ht hk) hq
    rw [h.up]
    by_cases hjk : j = k
    · exact ⟨q ++ [name], (hiff _).mpr (.inr ⟨hjk, rfl⟩)⟩
    · rw [(h.other j hjk).active] at hj
      obtain ⟨r, hr⟩ := ht.path j hj
      exact ⟨r, (hiff r).mpr (.inl hr)⟩

/-- A node is moved, with what is below it, to a free name outside of itself. -/
theorem Placed.move (ht : Tree s)
    (htype : (s' k).type = (s k).type) (hk : Path root (memfs.up s) q k) (hkroot : k ≠ root)
    (hp : Path root (memfs.up s) r p) (hdir : (s p).type = .dir) (hout : ¬ q <+: r)
    (hname : IsName name) (hfree : ∀ j, memfs.up s j ≠ some (p, name)) : Tree s' := by
  have hpk : p ≠ k := by
    rintro rfl
    exact hout (hk.unique ht.names hp ▸ prefix_rfl)
  have hact := ht.active_of_path hk
  apply ht.change hkroot h.other
  · intro _
    exact ⟨p, name, by rw [h.up, update_self], hpk, ht.active_of_path hp, hdir, hname, hfree⟩
  · intro _
    rw [htype]
    exact ht.typed k hact
  · intro j _ hj
    rw [htype]
    exact ⟨h.active, (ht.parent_dir hj.up).2⟩
  · exact h.kid_lists
  · intro j hj
    have hiff (t : List Text) := path_move (r := t) (j := j) ht.names hk
      (Tree.path_ne_nil hk hkroot) hp hout (fun j _ => hfree j)
    have hjact : (s j).active := by
      by_cases hjk : j = k
      · exact hjk ▸ hact
      · rwa [← (h.other j hjk).active]
    obtain ⟨t, htj⟩ := ht.path j hjact
    rw [h.up]
    by_cases hq : q <+: t
    · obtain ⟨rest, rfl⟩ := hq
      refine ⟨(r ++ [name]) ++ rest, (hiff _).mpr ?_⟩
      rw [Moved, if_pos (prefix_append ..), drop_left]
      exact htj
    · refine ⟨t, (hiff _).mpr ?_⟩
      have hnew : ¬ r ++ [name] <+: t := by
        rintro ⟨rest, rfl⟩
        obtain ⟨i, hi⟩ := htj.initial
        obtain ⟨a, ha, hup⟩ := path_snoc.mp hi
        obtain rfl := ha.node_unique ht.names hp
        exact hfree i hup
      rwa [Moved, if_neg hnew, if_neg hq]

end

/-- A node without children is cut off. -/
structure Cut (k : Node) (s s' : Nodes) : Prop where
  other : ∀ j, j ≠ k → Alike (s' j) (s j)
  inactive : (s' k).active = false
  threads : Threads s' (fun i j => Kid s i j ∧ j ≠ k)

theorem Cut.up (h : Cut k s s') : up s' = update (up s) k none :=
  up_update h.other (by simp [memfs.up, h.inactive])

theorem Cut.tree (h : Cut k s s') (ht : Tree s) (hk : k ≠ root) (hleaf : ∀ j, ¬ Kid s k j) : Tree s' := by
  have hnone : ¬ (s' k).active := by simp [h.inactive]
  apply ht.change hk h.other
  · exact fun hact => absurd hact hnone
  · exact fun hact => absurd hact hnone
  · exact fun j _ hj => absurd hj (hleaf j)
  · apply h.threads.congr
    intro i j
    by_cases hjk : j = k
    · simp [hjk, Kid, h.inactive]
    · simp [kid_congr (h.other j hjk), hjk]
  · intro j hj
    have hjk : j ≠ k := by
      rintro rfl
      exact hnone hj
    rw [(h.other j hjk).active] at hj
    obtain ⟨q, hq⟩ := ht.path j hj
    refine ⟨q, ?_⟩
    rw [h.up, path_cut hk]
    · exact ⟨hq, hjk⟩
    · intro i x hup
      exact hleaf i ⟨(up_eq_some.mp hup).1, (up_eq_some.mp hup).2.1⟩

end mini_kernel.memfs
