-- The law of closing all files of a process: a file is given back exactly if the
-- backend takes what is to be written. A file that it does not take keeps its slot.
import MiniKernel.Vfs.Open

open mini_kernel.lib Function

namespace mini_kernel.vfs

/-- The file will be closed: there is nothing to write, or the backend takes it. -/
def Closes (file : VFSOpenFile) (written : VfsResult Unit) : Prop :=
  file.kind = .dir ∨ file.dirty = false ∨ written = .ok ()

instance (file : VFSOpenFile) (written : VfsResult Unit) : Decidable (Closes file written) :=
  inferInstanceAs (Decidable (_ ∨ _ ∨ _))

/-- What closing all files of an owner makes of one of the files. -/
def closedOf (owner_pid : U32) (written : VfsResult Unit) (file : VFSOpenFile) :
    VFSOpenFile :=
  if ofOwner owner_pid file ∧ Closes file written then vfs_reset_open_file else file

variable {fd : Fd} {t : Table}

theorem vfs_get_open_file_of_active
    (h : (t fd).active) : vfs_get_open_file t fd.val = some fd := by
  unfold vfs_get_open_file
  rw [dif_pos ⟨by omega, by have := fd.isLt; omega⟩]
  exact if_pos h

/-- A close empties the slot, or leaves the table as it is. -/
theorem vfs_close_active (h : (t fd).active) (written : VfsResult Unit) :
    (vfs_close t fd.val written).2.2 =
      if Closes (t fd) written then update t fd vfs_reset_open_file else t := by
  unfold vfs_close Closes
  rw [vfs_get_open_file_of_active h]
  by_cases hk : (t fd).kind = .dir
  · simp [hk]
  · by_cases hd : (t fd).dirty
    · cases written <;> simp [hk, hd]
    · simp [hk, hd]

theorem close_if_owned_eq (owner_pid : U32) (written : Fd → VfsResult Unit) (r : Nat × Table)
    (fd : Fd) : (close_if_owned owner_pid written r fd).2 =
      update r.2 fd (closedOf owner_pid (written fd) (r.2 fd)) := by
  unfold close_if_owned closedOf
  by_cases ho : ofOwner owner_pid (r.2 fd)
  · have ha : (r.2 fd).active := by
      unfold ofOwner at ho
      exact (Bool.and_eq_true_iff.mp ho).1
    simp only [ho, if_true, true_and]
    rw [vfs_close_active ha]
    split
    · rfl
    · rw [update_eq_self]
  · rw [if_neg ho, if_neg (fun h => ho h.1), update_eq_self]

theorem vfs_close_all_for_owner_eq (t : Table) (owner_pid : U32)
    (written : Fd → VfsResult Unit) (fd : Fd) :
    (vfs_close_all_for_owner t owner_pid written).2 fd = closedOf owner_pid (written fd) (t fd) := by
  have hfold : ∀ (l : List Fd) (r : Nat × Table),
      (l.foldl (close_if_owned owner_pid written) r).2 =
        l.foldl (fun t i => update t i (closedOf owner_pid (written i) (t i))) r.2 := by
    intro l
    induction l with
    | nil => intro r; rfl
    | cons i l ih =>
      intro r
      rw [List.foldl_cons, List.foldl_cons, ih, close_if_owned_eq]
  unfold vfs_close_all_for_owner
  rw [hfold, foldl_update _ _ (List.nodup_finRange _), if_pos (List.mem_finRange _)]

theorem vfs_count_open_for_owner_eq_zero {owner_pid : U32} :
    vfs_count_open_for_owner t owner_pid = 0 ↔ ∀ fd, ofOwner owner_pid (t fd) = false := by
  unfold vfs_count_open_for_owner
  rw [List.countP_eq_zero]
  simp

/-- No file of the owner is open afterwards if and only if the backend took every dirty
file of the owner. -/
theorem closing_all_files_releases_them_iff (t : Table) (owner_pid : BitVec 32)
    (written : Fin VFS_MAX_OPEN_FILES → Except VfsError Unit) :
    vfs_count_open_for_owner (vfs_close_all_for_owner t owner_pid written).2 owner_pid = 0 ↔
      ∀ fd, (t fd).active = true → (t fd).owner_pid = owner_pid → (t fd).kind ≠ .dir →
        (t fd).dirty = true → written fd = .ok () := by
  rw [vfs_count_open_for_owner_eq_zero]
  apply forall_congr'
  intro fd
  rw [vfs_close_all_for_owner_eq]
  by_cases ho : ofOwner owner_pid (t fd)
  · obtain ⟨ha, hp⟩ : (t fd).active ∧ (t fd).owner_pid = owner_pid := by
      simpa [ofOwner] using ho
    unfold closedOf
    by_cases hc : Closes (t fd) (written fd)
    · rw [if_pos ⟨ho, hc⟩]
      simp only [ofOwner, vfs_reset_open_file, Bool.false_and, true_iff]
      intro _ _ hk hd
      rcases hc with h | h | h
      · exact absurd h hk
      · rw [hd] at h
        cases h
      · exact h
    · rw [if_neg (fun h => hc h.2), ho]
      simp only [Closes, not_or, Bool.not_eq_false] at hc
      simp only [Bool.true_eq_false, false_iff]
      intro h
      exact hc.2.2 (h ha hp hc.1 hc.2.1)
  · have hno : closedOf owner_pid (written fd) (t fd) = t fd := if_neg fun h => ho h.1
    rw [hno]
    simp only [Bool.not_eq_true] at ho
    simp only [ho, true_iff]
    intro ha hp
    simp [ofOwner, ha, hp] at ho

/-- A new file that process 7 has open. -/
def newFile : VFSOpenFile :=
  { vfs_reset_open_file with
    active := true, dirty := true, kind := .file, mode := 6, owner_pid := 7, capacity := 64,
    path := [47, 97], buffer := some fun _ => 0 }

/-- The volume is full: the file stays open for a process that is gone. -/
theorem a_dirty_file_can_outlive_its_process :
    vfs_count_open_for_owner
      (vfs_close_all_for_owner (update vfs_init ⟨0, by decide⟩ newFile) 7 fun _ => .error .io).2 7 = 1 := by
  decide

end mini_kernel.vfs
