-- The law of the open files: while every write starts inside the file or right at
-- its end, an open file is an array of bytes. A write past the end leaves a gap, and
-- what is in the gap is what was in the memory before.
import MiniKernel.Vfs.Open

open mini_kernel.lib List Option

namespace mini_kernel.vfs

/-! ## Sequences of calls -/

/-- A call, with the answers of the allocator and of the backend. -/
inductive Call (M : Type)
  | open_for_owner (path : Bytes) (mode owner_pid : U32)
      (info : VfsResult VFSFileInfo) (memory : Option M) (read : ReadFile)
  | seek (fd : Int) (offset : U32) (whence : Whence)
  | write (fd : Int) (bytes : Bytes) (memory : Option M)
  | read (fd : Int) (buffer_size : Nat)
  | close (fd : Int) (written : VfsResult Unit)

/-- What a call gives back, and what it passes to `vfs_write_file`. -/
inductive Output
  | opened (result : VfsResult Fd)
  | sought (result : VfsResult Nat)
  | written (result : VfsResult Nat)
  | read (result : VfsResult Bytes)
  | closed (passed : Option (Bytes × Bytes)) (result : VfsResult Unit)
  deriving DecidableEq

/-- One call; none if it does not return. -/
def step (t : Table) : Call Memory → Option (Output × Table)
  | .open_for_owner path mode owner_pid info memory read =>
    (vfs_open_for_owner t path mode owner_pid info memory read).map fun r => (.opened r.1, r.2)
  | .seek fd offset whence =>
    let r := vfs_seek t fd offset whence
    some (.sought r.1, r.2)
  | .write fd bytes memory => (vfs_write t fd bytes memory).map fun r => (.written r.1, r.2)
  | .read fd buffer_size =>
    let r := vfs_read t fd buffer_size
    some (.read r.1, r.2)
  | .close fd written =>
    let r := vfs_close t fd written
    some (.closed r.1 r.2.1, r.2.2)

/-- What a sequence of calls gives; none if one of them does not return. -/
def outputs : Table → List (Call Memory) → Option (List Output)
  | _, [] => some []
  | t, c :: cs => (step t c).bind fun r => (outputs r.2 cs).map (r.1 :: ·)

/-! ## The model file -/

structure File where
  mode : BitVec 16
  position : Nat
  content : Bytes
  /-- How much memory there is for the content: a write needs the allocator only for
  more. -/
  room : Nat
  dirty : Bool
  path : Bytes

abbrev Files := Fd → Option File

/-- The call without what the new memory contains. -/
def Call.forget : Call Memory → Call Unit
  | .open_for_owner path mode owner_pid info memory answers =>
    .open_for_owner path mode owner_pid info (memory.map fun _ => ()) answers
  | .seek fd offset whence => .seek fd offset whence
  | .write fd bytes memory => .write fd bytes (memory.map fun _ => ())
  | .read fd buffer_size => .read fd buffer_size
  | .close fd written => .close fd written

/-- The memory that a file is given for so many bytes. -/
def roomFor (required : Nat) : Nat := (vfs_growth_capacity required).getD 0

/-- The content after a write: up to the position with zeros, then the bytes. -/
def overwrite (content : Bytes) (position : Nat) (bytes : Bytes) : Bytes :=
  let extended := content ++ replicate (position - content.length) 0
  extended.take position ++ bytes ++ extended.drop (position + bytes.length)

theorem fd_lt {fd : Int} (h : 0 ≤ fd ∧ fd < VFS_MAX_OPEN_FILES) : fd.toNat < VFS_MAX_OPEN_FILES := by omega

def Files.get (m : Files) (fd : Int) : Option (Fd × File) :=
  if h : 0 ≤ fd ∧ fd < VFS_MAX_OPEN_FILES then
    let i : Fd := ⟨fd.toNat, fd_lt h⟩
    (m i).map fun f => (i, f)
  else none

/-- A new file; its content is what the backend reads, or nothing. -/
def newFileOf (path : Bytes) (mode : U32) (exists_ : Option VFSFileInfo)
    (content : Bytes) (room : Nat) : File :=
  { mode := mode.setWidth 16
    position := if has mode VFS_OPEN_APPEND then content.length else 0
    content := content
    room := room
    dirty := (exists_.isNone && has mode VFS_OPEN_CREATE) ||
      (has mode VFS_OPEN_WRITE && has mode VFS_OPEN_TRUNCATE)
    path := vfs_copy_string VFS_PATH_MAX path }

def openFile (m : Files) (path : Bytes) (mode : U32)
    (info : VfsResult VFSFileInfo) (memory : Option Unit) (read : ReadFile) :
    VfsResult Fd × Files :=
  match open_checks path mode info with
  | .error e => (.error e, m)
  | .ok exists_ =>
    match (finRange VFS_MAX_OPEN_FILES).find? fun fd => (m fd).isNone with
    | none => (.error .no_slot, m)
    | some fd =>
      let size := initial_size mode exists_
      let room := roomFor (if size > 0 then size else 1)
      let answer := if size > 0 then read.answer room else .ok []
      match memory, answer with
      | some _, .ok content =>
        (.ok fd, Function.update m fd (some (newFileOf path mode exists_ content room)))
      | _, _ => (.error .io, m)

/-- A call on the model files. -/
def spec (m : Files) : Call Unit → Output × Files
  | .open_for_owner path mode _ info memory read =>
    let r := openFile m path mode info memory read
    (.opened r.1, r.2)
  | .seek fd offset whence =>
    match m.get fd with
    | none => (.sought (.error .invalid_path), m)
    | some (i, f) =>
      match seek_base f.position f.content.length whence with
      | none => (.sought (.error .invalid_path), m)
      | some base =>
        let next := base + offset.toInt
        if next < 0 ∨ next > 0x7FFFFFFF then (.sought (.error .invalid_path), m)
        else (.sought (.ok next.toNat), Function.update m i (some { f with position := next.toNat }))
  | .write fd bytes memory =>
    match m.get fd with
    | none => (.written (.error .invalid_path), m)
    | some (i, f) =>
      if has f.mode (VFS_OPEN_WRITE.setWidth 16) = false then (.written (.error .unsupported), m)
      else
        let required := max 1 (f.position + bytes.length)
        let room : Option Nat :=
          if required ≤ f.room then some f.room else memory.map fun _ => roomFor required
        match room with
        | none => (.written (.error .io), m)
        | some room =>
          (.written (.ok bytes.length), Function.update m i (some { f with
            content := overwrite f.content f.position bytes
            position := f.position + bytes.length
            room := room
            dirty := true }))
  | .read fd buffer_size =>
    match m.get fd with
    | none => (.read (.error .invalid_path), m)
    | some (i, f) =>
      if has f.mode (VFS_OPEN_READ.setWidth 16) = false then (.read (.error .unsupported), m)
      else
        let bytes := (f.content.drop f.position).take buffer_size
        (.read (.ok bytes), Function.update m i (some { f with position := f.position + bytes.length }))
  | .close fd written =>
    match m.get fd with
    | none => (.closed none (.error .invalid_path), m)
    | some (i, f) =>
      match f.dirty, written with
      | true, .error e => (.closed (some (f.path, f.content)) (.error e), m)
      | true, .ok _ => (.closed (some (f.path, f.content)) (.ok ()), Function.update m i none)
      | false, _ => (.closed none (.ok ()), Function.update m i none)

def specOutputs : Files → List (Call Unit) → List Output
  | _, [] => []
  | m, c :: cs => (spec m c).1 :: specOutputs (spec m c).2 cs

/-! ## The condition -/

/-- The write starts inside the file or at its end, and does not go beyond 2 GiB; a file
that is opened is not larger than that. -/
def fits (t : Table) : Call Memory → Bool
  | .open_for_owner _ _ _ info _ _ =>
    match info with
    | .ok i => i.size ≤ 2 ^ 31
    | .error _ => true
  | .write fd bytes _ =>
    match vfs_get_open_file t fd with
    | some i => (t i).position ≤ (t i).size && (t i).position + bytes.length ≤ 2 ^ 31
    | none => true
  | _ => true

/-- Every call of the sequence meets the condition when it is made. -/
def fitsAll : Table → List (Call Memory) → Bool
  | _, [] => true
  | t, c :: cs =>
    fits t c &&
      match step t c with
      | some r => fitsAll r.2 cs
      | none => true

/-! ## Capacities -/

theorem growth_step_le {k : Nat} (hk : k ≤ 25) : 64 * 2 ^ k ≤ 2 ^ 31 := by
  calc 64 * 2 ^ k ≤ 64 * 2 ^ 25 := Nat.mul_le_mul_left _ (Nat.pow_le_pow_right (by omega) hk)
    _ = 2 ^ 31 := by norm_num

theorem growth_step {k : Nat} (hk : k < 25) : u32 (64 * 2 ^ k * 2) = 64 * 2 ^ (k + 1) := by
  have hle := growth_step_le (Nat.succ_le_of_lt hk)
  rw [Nat.mul_assoc, ← pow_succ]
  apply u32_of_lt
  omega

variable {required : Nat}

theorem growth_loop_spec (hr : required ≤ 2 ^ 31) : ∀ k fuel : Nat, k ≤ 25 → 26 - k ≤ fuel →
      ∃ c, growth_loop required fuel (64 * 2 ^ k) = some c ∧ required ≤ c ∧ c < 2 ^ 32 := by
  intro k fuel hk hf
  induction fuel generalizing k with
  | zero => omega
  | succ fuel ih =>
    have hle := growth_step_le hk
    unfold growth_loop
    split
    · have hk' : k ≠ 25 := by
        rintro rfl
        omega
      rw [growth_step (by omega)]
      exact ih (k + 1) (by omega) (by omega)
    · exact ⟨_, rfl, by omega, by omega⟩

/-- The loop ends for everything up to 2 GiB. -/
theorem vfs_growth_capacity_spec (hr : required ≤ 2 ^ 31) :
    vfs_growth_capacity required = some (roomFor required) ∧ required ≤ roomFor required ∧
      roomFor required < 2 ^ 32 := by
  obtain ⟨c, hc, h1, h2⟩ := growth_loop_spec hr 0 33 (by omega) (by omega)
  have hg : vfs_growth_capacity required = some c := hc
  unfold roomFor
  rw [hg]
  exact ⟨rfl, h1, h2⟩

/-- Past 2 GiB the capacity doubles until it wraps to 0, and stays 0. -/
theorem growth_loop_goes_on (hr : 2 ^ 31 < required) (fuel capacity : Nat)
    (hc : capacity = 0 ∨ ∃ k ≤ 25, capacity = 64 * 2 ^ k) : growth_loop required fuel capacity = none := by
  induction fuel generalizing capacity with
  | zero => rfl
  | succ fuel ih =>
    rcases hc with rfl | ⟨k, hk, rfl⟩
    · unfold growth_loop
      rw [if_pos (by omega)]
      exact ih _ (.inl rfl)
    · have hle := growth_step_le hk
      unfold growth_loop
      rw [if_pos (by omega)]
      apply ih
      by_cases hlast : k = 25
      · left
        rw [hlast]
        rfl
      · exact .inr ⟨k + 1, by omega, growth_step (by omega)⟩

/-- The loop ends for what is at most 2 GiB, with room for it, and for nothing more. -/
theorem growth_ends_iff (required : Nat) :
    (∃ fuel capacity, growth_loop required fuel 64 = some capacity ∧ required ≤ capacity) ↔
      required ≤ 2 ^ 31 := by
  constructor
  · rintro ⟨fuel, capacity, hends, -⟩
    by_contra hr
    rw [growth_loop_goes_on (by omega) fuel 64 (.inr ⟨0, by omega, rfl⟩)] at hends
    cases hends
  · intro hr
    obtain ⟨capacity, hends, hroom, -⟩ := growth_loop_spec hr 0 33 (by omega) (by omega)
    exact ⟨33, capacity, hends, hroom⟩

/-- Two bytes written at the last position that a seek admits. -/
theorem two_bytes_past_two_gib_hang : 2 ≤ 4096 ∧ ∀ fuel, growth_loop (0x7FFFFFFF + 2) fuel 64 = none :=
  ⟨by decide, fun fuel => growth_loop_goes_on (by decide) fuel 64 (.inr ⟨0, by decide, rfl⟩)⟩

/-! ## The table and the model files -/

/-- An open file and the model of it. -/
structure Rep (file : VFSOpenFile) (f : File) : Prop where
  active : file.active
  kind : file.kind = .file
  mode : file.mode = f.mode
  dirty : file.dirty = f.dirty
  path : file.path = f.path
  position : file.position = f.position
  position_lt : file.position < 2 ^ 32
  size : file.size = f.content.length
  room : file.capacity = f.room
  size_le : file.size ≤ file.capacity
  capacity_lt : file.capacity < 2 ^ 32
  buffer : ∃ b, file.buffer = some b ∧ load b 0 file.size = f.content

def RepSlot (file : VFSOpenFile) : Option File → Prop
  | none => file.active = false
  | some f => Rep file f

def RepTable (t : Table) (m : Files) : Prop := ∀ fd, RepSlot (t fd) (m fd)

section
variable {t : Table} {m : Files} {file : VFSOpenFile} {f : File} {fd : Int}

/-- The model of an open file is the file, but for the bytes. -/
theorem Rep.eq (h : Rep file f) :
    f = ⟨file.mode, file.position, file.bytes 0 file.size, file.capacity, file.dirty, file.path⟩ := by
  obtain ⟨b, hb, hcontent⟩ := h.buffer
  have hbytes : file.bytes 0 file.size = f.content := by
    unfold VFSOpenFile.bytes
    rw [hb]
    exact hcontent
  rw [h.mode, h.position, hbytes, h.room, h.dirty, h.path]

section
variable (h : RepTable t m)
include h

theorem RepTable.update (i : Fd) {o : Option File}
    (hi : RepSlot file o) : RepTable (Function.update t i file) (Function.update m i o) := by
  intro j
  by_cases hj : j = i
  · subst hj
    rw [Function.update_self, Function.update_self]
    exact hi
  · rw [Function.update_of_ne hj, Function.update_of_ne hj]
    exact h j

variable {i : Fd}

/-- A slot that is free stays so. -/
theorem RepTable.update_free (hm : m i = none)
    (hfile : file.active = false) : RepTable (Function.update t i file) m := by
  have hu := h.update i (o := none) hfile
  rwa [← hm, Function.update_eq_self] at hu

theorem RepTable.inactive (hm : m i = none) : (t i).active = false := by
  have hi := h i
  rw [hm] at hi
  exact hi

theorem RepTable.active (i : Fd) : (t i).active = (m i).isSome := by
  have hi := h i
  cases hm : m i with
  | none =>
    rw [hm] at hi
    exact hi
  | some f =>
    rw [hm] at hi
    exact hi.active

/-- Both find the same file, or none. -/
theorem RepTable.get_cases (fd : Int) : (vfs_get_open_file t fd = none ∧ m.get fd = none) ∨
      ∃ i f, vfs_get_open_file t fd = some i ∧ m.get fd = some (i, f) ∧ Rep (t i) f := by
  unfold vfs_get_open_file Files.get
  split
  · rename_i hfd
    have hi := h ⟨fd.toNat, by omega⟩
    cases hm : m ⟨fd.toNat, by omega⟩ with
    | none =>
      rw [hm] at hi
      exact .inl ⟨if_neg (by simp [show (t _).active = false from hi]), by simp [hm]⟩
    | some f =>
      rw [hm] at hi
      exact .inr ⟨_, f, if_pos hi.active, by simp [hm], hi⟩
  · exact .inl ⟨rfl, rfl⟩

theorem RepTable.slot :
    vfs_alloc_open_slot t = (finRange VFS_MAX_OPEN_FILES).find? fun fd => (m fd).isNone := by
  unfold vfs_alloc_open_slot
  congr 1
  funext i
  rw [h.active]
  cases m i <;> rfl

end

/-! ## One call -/

theorem overwrite_of_le {content bytes : Bytes} {p : Nat} (h : p ≤ content.length) :
    overwrite content p bytes = content.take p ++ bytes ++ content.drop (p + bytes.length) := by
  unfold overwrite
  simp [Nat.sub_eq_zero_of_le h]

/-- What a store at or before the end makes of the content. -/
theorem load_overwrite {b : Memory} {size p : Nat} (bytes : Bytes) (hp : p ≤ size) :
    load (store b p bytes) 0 (max size (p + bytes.length)) = overwrite (load b 0 size) p bytes := by
  rw [overwrite_of_le (by rw [length_load]; exact hp), take_load hp]
  obtain ⟨rest, hrest⟩ : ∃ rest, max size (p + bytes.length) = p + bytes.length + rest :=
    Nat.exists_eq_add_of_le (le_max_right _ _)
  rw [hrest, load_add, load_add, load_store_before (by omega), Nat.zero_add, load_store,
    load_store_after (by omega), Nat.zero_add]
  congr 1
  rcases Nat.le_total (p + bytes.length) size with hle | hle
  · rw [drop_load hle, Nat.zero_add]
    congr 1
    omega
  · rw [drop_eq_nil_of_le (by rw [length_load]; exact hle)]
    have : rest = 0 := by omega
    rw [this, load_zero]

theorem Rep.move (h : Rep file f) {p : Nat} (hp : p < 2 ^ 32) :
    Rep { file with position := p } { f with position := p } :=
  { h with position := rfl, position_lt := hp }

/-- What is left of the content from a position on. -/
theorem load_rest (b : Memory) (p size n : Nat) :
    load b p (min n (size - p)) = ((load b 0 size).drop p).take n := by
  rcases Nat.le_total p size with hle | hle
  · rw [drop_load hle, Nat.zero_add]
    rcases Nat.le_total n (size - p) with hn | hn
    · rw [take_load hn, min_eq_left hn]
    · rw [take_of_length_le (by rw [length_load]; exact hn), min_eq_right hn]
  · rw [drop_eq_nil_of_le (by rw [length_load]; exact hle), Nat.sub_eq_zero_of_le hle,
      Nat.min_zero, load_zero, take_nil]

theorem Rep.bytes_rest (h : Rep file f) (n : Nat) :
    file.bytes file.position (min n (file.size - file.position)) =
      ((file.bytes 0 file.size).drop file.position).take n := by
  obtain ⟨b, hb, -⟩ := h.buffer
  unfold VFSOpenFile.bytes
  rw [hb]
  exact load_rest ..

theorem Rep.length_bytes (h : Rep file f) (p n : Nat) : (file.bytes p n).length = n := by
  obtain ⟨b, hb, -⟩ := h.buffer
  unfold VFSOpenFile.bytes
  rw [hb]
  exact length_load

/-- The call returns, with the output of the model and a table that fits it. -/
def Agrees (t : Table) (m : Files) (c : Call Memory) : Prop :=
  ∃ t', step t c = some ((spec m c.forget).1, t') ∧ RepTable t' (spec m c.forget).2

theorem RepTable.seek (h : RepTable t m) (fd : Int) (offset : U32) (whence : Whence) :
    Agrees t m (.seek fd offset whence) := by
  unfold Agrees
  rcases h.get_cases fd with ⟨h1, h2⟩ | ⟨i, f, h1, h2, hr⟩
  · simp only [step, spec, Call.forget, vfs_seek, h1, h2]
    exact ⟨t, rfl, h⟩
  · obtain rfl := hr.eq
    simp only [step, spec, Call.forget, vfs_seek, h1, h2, hr.length_bytes]
    rw [if_neg (not_not.mpr hr.kind)]
    cases seek_base (t i).position (t i).size whence with
    | none => exact ⟨t, rfl, h⟩
    | some base =>
      simp only
      generalize base + offset.toInt = next
      split
      · exact ⟨t, rfl, h⟩
      · exact ⟨_, rfl, h.update i (hr.move (by omega))⟩

theorem RepTable.read (h : RepTable t m) (fd : Int) (buffer_size : Nat) :
    Agrees t m (.read fd buffer_size) := by
  unfold Agrees
  rcases h.get_cases fd with ⟨h1, h2⟩ | ⟨i, f, h1, h2, hr⟩ <;>
    simp only [step, spec, Call.forget, vfs_read, h1, h2]
  · exact ⟨t, rfl, h⟩
  · obtain rfl := hr.eq
    rw [if_neg (not_not.mpr hr.kind)]
    cases hmode : has (t i).mode (VFS_OPEN_READ.setWidth 16) with
    | false => exact ⟨t, rfl, h⟩
    | true =>
      have hleft : (if (t i).position < (t i).size then (t i).size - (t i).position else 0) =
          (t i).size - (t i).position := by
        split <;> omega
      have hlt : (t i).position + min buffer_size ((t i).size - (t i).position) < 2 ^ 32 := by
        have h1 := hr.position_lt
        have h2 := hr.size_le
        have h3 := hr.capacity_lt
        omega
      simp only [Bool.not_true, Bool.false_eq_true, Bool.true_eq_false, if_false, hleft,
        u32_of_lt hlt, ← hr.bytes_rest, hr.length_bytes]
      exact ⟨_, rfl, h.update i (hr.move hlt)⟩

theorem RepTable.close (h : RepTable t m) (fd : Int) (written : VfsResult Unit) :
    Agrees t m (.close fd written) := by
  unfold Agrees
  rcases h.get_cases fd with ⟨h1, h2⟩ | ⟨i, f, h1, h2, hr⟩ <;>
    simp only [step, spec, Call.forget, vfs_close, h1, h2]
  · exact ⟨t, rfl, h⟩
  · obtain rfl := hr.eq
    rw [if_neg (by rw [hr.kind]; decide)]
    have hnone : RepTable (Function.update t i vfs_reset_open_file) (Function.update m i none) :=
      h.update i rfl
    cases (t i).dirty with
    | false => exact ⟨_, rfl, hnone⟩
    | true =>
      cases written with
      | error e => exact ⟨_, rfl, h⟩
      | ok u => exact ⟨_, rfl, hnone⟩

/-- What was copied into new memory, if there was anything. -/
theorem load_copy (new b : Memory) (n : Nat) :
    load (if n > 0 then store new 0 (load b 0 n) else new) 0 n = load b 0 n := by
  split
  · have h : load (store new 0 (load b 0 n)) 0 (load b 0 n).length = load b 0 n := load_store
    rwa [length_load] at h
  · rename_i hn
    rw [Nat.eq_zero_of_not_pos hn, load_zero, load_zero]

theorem Rep.grow (h : Rep file f) (hlt : file.capacity < required)
    (hr : required ≤ 2 ^ 31) (memory : Option Memory) :
    (memory = none ∧ vfs_ensure_open_file_capacity file required memory = some (.error .io)) ∨
      ∃ file', memory.isSome ∧
        vfs_ensure_open_file_capacity file required memory = some (.ok file') ∧
        Rep file' { f with room := roomFor required } := by
  obtain ⟨hg, hle, hroom⟩ := vfs_growth_capacity_spec hr
  obtain ⟨b, hb, hcontent⟩ := h.buffer
  unfold vfs_ensure_open_file_capacity
  rw [if_neg (by omega), hg]
  cases memory with
  | none => exact .inl ⟨rfl, rfl⟩
  | some new =>
    refine .inr ⟨_, rfl, rfl, ?_⟩
    rw [hb]
    have hsize := h.size_le
    refine { h with room := rfl, size_le := by simp only; omega, capacity_lt := hroom,
                    buffer := ⟨_, rfl, ?_⟩ }
    exact (load_copy new b file.size).trans hcontent

theorem Rep.put (h : Rep file f) {bytes : Bytes} (hp : file.position ≤ file.size)
    (hroom : file.position + bytes.length ≤ file.capacity) : Rep (file.put bytes) { f with
      content := overwrite f.content f.position bytes, position := f.position + bytes.length
      dirty := true } := by
  obtain ⟨b, hb, hcontent⟩ := h.buffer
  have hlt := h.capacity_lt
  have hu : u32 (file.position + bytes.length) = file.position + bytes.length :=
    u32_of_lt (by omega)
  unfold VFSOpenFile.put
  split
  · -- the size becomes the larger of the two ends
    have hsize : (if file.position + bytes.length > file.size then file.position + bytes.length
        else file.size) = max file.size (file.position + bytes.length) := by
      split <;> omega
    have hover := load_overwrite bytes hp (b := b)
    rw [hcontent, h.position] at hover
    have hbuffer : (file.buffer.map fun buffer => store buffer file.position bytes) =
        some (store b file.position bytes) := by
      rw [hb]
      rfl
    have hle := h.size_le
    simp only [hu, hsize, hbuffer]
    exact
      { h with
        dirty := rfl
        position := by rw [h.position]
        position_lt := by simp only; omega
        size := by rw [← hover, length_load, h.position]
        size_le := by simp only; omega
        buffer := ⟨_, rfl, by rw [← hover, h.position]⟩ }
  · rename_i hnone
    have hbytes : bytes = [] := by simpa using hnone
    have hover : overwrite f.content f.position [] = f.content := by
      rw [overwrite_of_le (by rw [← h.size, ← h.position]; exact hp)]
      simp
    rw [hbytes, hover]
    exact { h with dirty := rfl }

variable {memory : Option Memory}

theorem RepTable.write (h : RepTable t m) {fd : Int} {bytes : Bytes}
    (hfits : fits t (.write fd bytes memory)) : Agrees t m (.write fd bytes memory) := by
  unfold Agrees
  rcases h.get_cases fd with ⟨h1, h2⟩ | ⟨i, f, h1, h2, hr⟩
  · simp only [step, spec, Call.forget, vfs_write, h1, h2]
    exact ⟨t, rfl, h⟩
  · obtain ⟨hp, hend⟩ : (t i).position ≤ (t i).size ∧ (t i).position + bytes.length ≤ 2 ^ 31 := by
      simpa only [fits, h1, Bool.and_eq_true, decide_eq_true_eq] using hfits
    obtain rfl := hr.eq
    have hrequired : (if u32 ((t i).position + bytes.length) > 0 then
        u32 ((t i).position + bytes.length) else 1) = max 1 ((t i).position + bytes.length) := by
      rw [u32_of_lt (by omega)]
      split <;> omega
    simp only [step, spec, Call.forget, vfs_write, h1, h2, hrequired]
    rw [if_neg (not_not.mpr hr.kind)]
    cases hmode : has (t i).mode (VFS_OPEN_WRITE.setWidth 16) with
    | false => exact ⟨t, rfl, h⟩
    | true =>
      simp only [Bool.not_true, Bool.false_eq_true, Bool.true_eq_false, if_false]
      by_cases hroom : max 1 ((t i).position + bytes.length) ≤ (t i).capacity
      · have hensure : vfs_ensure_open_file_capacity (t i) (max 1 ((t i).position + bytes.length))
            memory = some (.ok (t i)) := if_pos hroom
        rw [hensure]
        simp only [hroom, if_true, map_some]
        exact ⟨_, rfl, h.update i (hr.put hp (by omega))⟩
      · simp only [hroom, if_false]
        rcases hr.grow (Nat.lt_of_not_le hroom) (by omega) memory with ⟨rfl, he⟩ | ⟨file', hsome, he, hr'⟩
        · rw [he]
          exact ⟨t, rfl, h⟩
        · obtain ⟨b, rfl⟩ := isSome_iff_exists.mp hsome
          rw [he]
          have hp' : file'.position ≤ file'.size := by
            rw [hr'.position, hr'.size]
            simpa only [hr.length_bytes] using hp
          have hend' : file'.position + bytes.length ≤ file'.capacity := by
            have := (vfs_growth_capacity_spec
              (show max 1 ((t i).position + bytes.length) ≤ 2 ^ 31 by omega)).2.1
            rw [hr'.position, hr'.room]
            simp only
            omega
          exact ⟨_, rfl, h.update i (hr'.put hp' hend')⟩

variable {path : Bytes} {info : VfsResult VFSFileInfo}

theorem open_checks_some {mode : U32} {i : VFSFileInfo}
    (h : open_checks path mode info = .ok (some i)) : info = .ok i := by
  unfold open_checks at h
  cases info with
  | error e =>
    simp only at h
    split_ifs at h
    cases h
  | ok j =>
    simp only at h
    split_ifs at h
    cases h
    rfl

variable {exists_ : Option VFSFileInfo}

theorem initial_size_le {mode : U32} {n : Nat}
    (h : ∀ i ∈ exists_, i.size ≤ n) : initial_size mode exists_ ≤ n := by
  unfold initial_size
  cases exists_ with
  | none => exact Nat.zero_le n
  | some i =>
    have := h i rfl
    simp only
    split <;> omega

variable {mode owner_pid : U32}

/-- A file that has just been opened. -/
theorem rep_new {b : Memory} (content : Bytes) {room : Nat} (hb : load b 0 content.length = content)
    (hle : content.length ≤ room) (hlt : room < 2 ^ 32) :
    Rep (opened_file path mode owner_pid exists_ content.length room b)
      (newFileOf path mode exists_ content room) := by
  unfold opened_file newFileOf
  constructor <;> try rfl
  · simp only
    split <;> omega
  · exact hle
  · exact hlt
  · exact ⟨b, rfl, hb⟩

theorem RepTable.open (h : RepTable t m) {read : ReadFile}
    (hfits : fits t (.open_for_owner path mode owner_pid info memory read)) :
    Agrees t m (.open_for_owner path mode owner_pid info memory read) := by
  unfold Agrees
  simp only [step, spec, Call.forget, vfs_open_for_owner, openFile, h.slot]
  cases hc : open_checks path mode info with
  | error e => exact ⟨t, rfl, h⟩
  | ok exists_ =>
    cases hfind : (finRange VFS_MAX_OPEN_FILES).find? fun fd => (m fd).isNone with
    | none => exact ⟨t, rfl, h⟩
    | some fd =>
      have hfree : m fd = none := by
        have := find?_some hfind
        simpa using this
      have hsize : initial_size mode exists_ ≤ 2 ^ 31 := by
        apply initial_size_le
        intro i hi
        obtain rfl := open_checks_some (mem_def.mp hi ▸ hc)
        simpa [fits] using hfits
      obtain ⟨hg, hle, hlt⟩ := vfs_growth_capacity_spec
        (show (if initial_size mode exists_ > 0 then initial_size mode exists_ else 1) ≤ 2 ^ 31 by
          split <;> omega)
      simp only [hg, map_some]
      cases memory with
      | none => exact ⟨_, rfl, h.update_free hfree (h.inactive hfree)⟩
      | some b =>
        by_cases hpos : initial_size mode exists_ > 0
        · simp only [hpos, if_true, map_some] at hle hlt ⊢
          cases ha : read.answer (roomFor (initial_size mode exists_)) with
          | error e => exact ⟨_, rfl, h.update_free hfree rfl⟩
          | ok content =>
            exact ⟨_, rfl, h.update fd (rep_new content load_store (read.bounded _ _ ha) hlt)⟩
        · simp only [hpos, if_false, map_some] at hle hlt ⊢
          exact ⟨_, rfl, h.update fd (rep_new [] rfl (Nat.zero_le _) hlt)⟩

theorem RepTable.step (h : RepTable t m) {c : Call Memory} (hfits : fits t c) : Agrees t m c := by
  cases c with
  | open_for_owner path mode owner_pid info memory read => exact h.open hfits
  | seek fd offset whence => exact h.seek fd offset whence
  | write fd bytes memory => exact h.write hfits
  | read fd buffer_size => exact h.read fd buffer_size
  | close fd written => exact h.close fd written

theorem RepTable.outputs (h : RepTable t m) {cs : List (Call Memory)}
    (hfits : fitsAll t cs) : outputs t cs = some (specOutputs m (cs.map Call.forget)) := by
  induction cs generalizing t m with
  | nil => rfl
  | cons c cs ih =>
    simp only [fitsAll, Bool.and_eq_true] at hfits
    obtain ⟨t', hstep, hrep⟩ := h.step hfits.1
    rw [hstep] at hfits
    simp only [vfs.outputs, hstep, bind_some, ih hrep hfits.2, map_some, map_cons,
      specOutputs]

end

/-- Every call returns and gives what the model file gives. So what is read, and what is
written at the end, does not depend on what the memory contained before. -/
theorem an_open_file_is_an_array_of_bytes {cs : List (Call Memory)}
    (h : fitsAll vfs_init cs = true) :
    outputs vfs_init cs = some (specOutputs (fun _ => none) (cs.map Call.forget)) ∧
      ∀ cs', cs'.map Call.forget = cs.map Call.forget → fitsAll vfs_init cs' = true →
        outputs vfs_init cs' = outputs vfs_init cs := by
  have hinit : RepTable vfs_init fun _ => none := fun _ => rfl
  refine ⟨hinit.outputs h, ?_⟩
  intro cs' heq h'
  rw [hinit.outputs h, hinit.outputs h', heq]

/-- The backend has nothing to read. -/
def noReader : ReadFile := ⟨fun _ => .error .not_found, by simp⟩

/-- A new file is opened in memory full of one byte. -/
def create (fill : UInt8) : Call Memory :=
  .open_for_owner [47, 97] (VFS_OPEN_READ ||| VFS_OPEN_WRITE ||| VFS_OPEN_CREATE) 7
    (.error .not_found) (some fun _ => fill) noReader

/-- Three bytes are written, the last of them changed, all read back and saved. -/
def editing : List (Call Memory) :=
  [create 170, .write 0 [1, 2, 3] none, .seek 0 2 .set, .write 0 [4] none, .seek 0 0 .set,
    .read 0 8, .close 0 (.ok ())]

theorem editing_gives_what_was_written :
    fitsAll vfs_init editing = true ∧
      outputs vfs_init editing = some [.opened (.ok ⟨0, by decide⟩), .written (.ok 3), .sought (.ok 2),
        .written (.ok 1), .sought (.ok 0), .read (.ok [1, 2, 4]),
        .closed (some ([47, 97], [1, 2, 4])) (.ok ())] := by
  have hfits : fitsAll vfs_init editing := by decide +kernel
  refine ⟨hfits, ?_⟩
  rw [(an_open_file_is_an_array_of_bytes hfits).1]
  decide +kernel

/-- One byte is written at position 4 of an empty file, and five bytes are read. -/
def gap (fill : UInt8) : List (Call Memory) :=
  [create fill, .seek 0 4 .set, .write 0 [1] none, .seek 0 0 .set, .read 0 5]

/-- What is read from the gap is what was in the memory. -/
theorem a_gap_shows_the_old_memory :
    outputs vfs_init (gap 170) = some [.opened (.ok ⟨0, by decide⟩), .sought (.ok 4), .written (.ok 1),
      .sought (.ok 0), .read (.ok [170, 170, 170, 170, 1])] ∧
    specOutputs (fun _ => none) ((gap 170).map Call.forget) =
      [.opened (.ok ⟨0, by decide⟩), .sought (.ok 4), .written (.ok 1), .sought (.ok 0),
        .read (.ok [0, 0, 0, 0, 1])] ∧
    (gap 170).map Call.forget = (gap 0).map Call.forget ∧
    outputs vfs_init (gap 170) ≠ outputs vfs_init (gap 0) := by
  refine ⟨by decide +kernel, by decide +kernel, rfl, by decide +kernel⟩

end mini_kernel.vfs
