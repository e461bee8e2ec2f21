-- The file allocation table: what a write of an entry changes, one copy of the table after
-- the other. The laws: allocating takes a free cluster, freeing clears the entries of a
-- chain, and neither touches any other entry or any byte of a cluster.
import MiniKernel.Fat32.Tree

open mini_kernel.lib mini_kernel.vfs Function List

namespace mini_kernel.fat32

namespace FAT32Driver

/-! ## One sector of the table -/

section
variable {sector sector' : Sector} {i j value : Nat}

theorem u32_at_with_entry : u32_at (with_entry sector i value) i % 2 ^ 28 = value % 2 ^ 28 := by
  have hload : ∀ v, load (store sector i (leBytes v 4)) i 4 = leBytes v 4 := by
    intro v
    have : load (store sector i (leBytes v 4)) i (leBytes v 4).length = leBytes v 4 := load_store
    rwa [length_leBytes] at this
  rw [u32_at, with_entry, hload, leAt_leBytes]
  omega

theorem u32_at_with_entry_other (h : j + 4 ≤ i ∨ i + 4 ≤ j) :
    u32_at (with_entry sector i value) j = u32_at sector j := by
  unfold u32_at with_entry
  rcases h with h | h
  · rw [load_store_before h]
  · rw [load_store_after (by rw [length_leBytes]; exact h)]

/-- What is written depends on the bytes of the sector only. -/
theorem with_entry_congr (h : ∀ k < 512, sector k = sector' k) (hi : i + 4 ≤ 512) :
    ∀ k < 512, with_entry sector i value k = with_entry sector' i value k := by
  have hu : u32_at sector i = u32_at sector' i := by
    unfold u32_at
    rw [load_congr fun k _ hk => h k (by omega)]
  intro k hk
  unfold with_entry store
  rw [hu, h k hk]

end

section
variable {drv : FAT32Driver} {d d' d'' : Disk} {c n value : Nat} {l : List Nat}

/-- The disk when the entry of a cluster has been written to the first copies. -/
def put_entry (drv : FAT32Driver) (d : Disk) (n c value : Nat) : Disk := fun i =>
  if ∃ k < n, i = drv.fat_sector k c then with_entry (d i) (c * 4 % 512) value else d i

theorem put_entry_zero : drv.put_entry d 0 c value = d := by
  funext i
  rw [put_entry, if_neg (by simp)]

section
variable (hm : drv.Mounted) (hc : drv.IsCluster c)
include hm hc

theorem Mounted.put_entry_succ (hn : n < drv.bpb.fat_count) :
    update (drv.put_entry d n c value) (drv.fat_sector n c)
      (with_entry (drv.put_entry d n c value (drv.fat_sector n c)) (c * 4 % 512) value) =
      drv.put_entry d (n + 1) c value := by
  funext i
  by_cases hi : i = drv.fat_sector n c
  · subst hi
    have hnot : ¬ ∃ k < n, drv.fat_sector n c = drv.fat_sector k c := by
      rintro ⟨k, hk, he⟩
      have := (hm.fat_sector_inj hc hc hn (by omega) he).1
      omega
    rw [update_self, put_entry, put_entry, if_neg hnot, if_pos ⟨n, by omega, rfl⟩]
  · rw [update_of_ne hi, put_entry, put_entry]
    by_cases h : ∃ k < n, i = drv.fat_sector k c
    · obtain ⟨k, hk, he⟩ := h
      rw [if_pos ⟨k, hk, he⟩, if_pos ⟨k, by omega, he⟩]
    · rw [if_neg h, if_neg]
      rintro ⟨k, hk, he⟩
      rcases Nat.lt_succ_iff_lt_or_eq.mp hk with hk | rfl
      · exact h ⟨k, hk, he⟩
      · exact hi he

section
variable (hn : n ≤ drv.bpb.fat_count)
include hn

/-- The clusters are not touched. -/
theorem Mounted.put_entry_data {i : Nat} (hi : drv.start_lba + drv.data_start_lba ≤ i) :
    drv.put_entry d n c value i = d i := by
  rw [put_entry, if_neg]
  rintro ⟨k, hk, rfl⟩
  have := hm.fat_sector_lt hc (show k < drv.bpb.fat_count by omega)
  omega

theorem Mounted.fat_at_put_entry {copy x : Nat} (hk : copy < drv.bpb.fat_count) (hx : drv.IsCluster x) :
    drv.fat_at copy (drv.put_entry d n c value) x =
      if x = c ∧ copy < n then value % 2 ^ 28 else drv.fat_at copy d x := by
  unfold fat_at put_entry
  by_cases hsec : ∃ k < n, drv.fat_sector copy x = drv.fat_sector k c
  · obtain ⟨k, hkn, he⟩ := hsec
    obtain ⟨rfl, hdiv⟩ := hm.fat_sector_inj hx hc hk (by omega) he
    rw [if_pos ⟨copy, hkn, he⟩]
    by_cases hxc : x = c
    · subst hxc
      rw [if_pos ⟨rfl, hkn⟩, u32_at_with_entry]
    · rw [if_neg (fun h => hxc h.1), u32_at_with_entry_other (by omega)]
  · rw [if_neg hsec, if_neg]
    rintro ⟨rfl, hlt⟩
    exact hsec ⟨copy, hlt, rfl⟩

/-- In the copy that is read, the entry changes with the first write. -/
theorem Mounted.read_put_entry {x : Nat} (hx : drv.IsCluster x) :
    drv.read_fat_entry (drv.put_entry d n c value) x =
      if x = c ∧ 0 < n then value % 2 ^ 28 else drv.read_fat_entry d x := by
  rw [hm.read_fat_entry_eq hx, hm.read_fat_entry_eq hx, hm.fat_at_put_entry hc hn hm.fat_count hx]

end

end

/-! ## What stays as it is -/

/-- The clusters outside of a set keep their entries and their bytes. -/
def Keeps (drv : FAT32Driver) (S : Nat → Prop) (d d' : Disk) : Prop :=
  ∀ c, drv.IsCluster c → ¬ S c → drv.read_fat_entry d' c = drv.read_fat_entry d c ∧
    ∀ off < drv.bpb.sectors_per_cluster, d' (drv.sector_place c off) = d (drv.sector_place c off)

variable {S T : Nat → Prop}

theorem Keeps.refl (drv : FAT32Driver) (S : Nat → Prop) (d : Disk) : drv.Keeps S d d :=
  fun _ _ _ => ⟨rfl, fun _ _ => rfl⟩

theorem Keeps.trans (h : drv.Keeps S d d') (h' : drv.Keeps S d' d'') : drv.Keeps S d d'' := by
  intro c hc hS
  obtain ⟨h1, h2⟩ := h c hc hS
  obtain ⟨h1', h2'⟩ := h' c hc hS
  exact ⟨h1'.trans h1, fun off ho => (h2' off ho).trans (h2 off ho)⟩

theorem Keeps.mono (h : drv.Keeps S d d') (hST : ∀ c, S c → T c) : drv.Keeps T d d' :=
  fun c hc hT => h c hc fun hS => hT (hST c hS)

theorem Mounted.keeps_put_entry (hm : drv.Mounted) (hc : drv.IsCluster c)
    (hn : n ≤ drv.bpb.fat_count) (hS : S c) : drv.Keeps S d (drv.put_entry d n c value) := by
  intro x hx hxS
  refine ⟨?_, fun off _ => hm.put_entry_data hc hn (sector_place_ge ..)⟩
  rw [hm.read_put_entry hc hn hx, if_neg]
  rintro ⟨rfl, -⟩
  exact hxS hS

/-- A chain outside of the set stays the same chain. -/
theorem Keeps.chain (h : drv.Keeps S d d') (hl : drv.ClusterChain d c l) (hS : ∀ x ∈ l, ¬ S x) :
    drv.ClusterChain d' c l :=
  hl.congr fun x hx => (h x (hl.node_of_mem x hx) (hS x hx)).1

section
variable
    (h : ∀ x ∈ l, ∀ off < drv.bpb.sectors_per_cluster, d' (drv.sector_place x off) = d (drv.sector_place x off))
include h

theorem chain_bytes_congr : drv.chain_bytes d' l = drv.chain_bytes d l := by
  unfold chain_bytes
  apply flatMap_congr
  intro x hx
  unfold cluster_bytes
  apply flatMap_congr
  intro off ho
  rw [h x hx off (mem_range.mp ho)]

end

/-- The entries of a chain are not free. -/
theorem chain_entry_ne_zero (h : drv.ClusterChain d c l) : ∀ x ∈ l, drv.read_fat_entry d x ≠ 0 := by
  intro x hx h0
  rcases h.next_of_mem x hx with hs | hn
  · rw [h0] at hs
    cases hs
  · rw [h0] at hn
    exact absurd hn.1 (by decide)

/-! ## The copies -/

/-- All copies of the table are equal. -/
def Mirrored (drv : FAT32Driver) (d : Disk) : Prop :=
  ∀ k < drv.bpb.fat_count, ∀ i < drv.bpb.sectors_per_fat_32, ∀ j < 512,
    d (drv.start_lba + drv.fat_start_lba + k * drv.bpb.sectors_per_fat_32 + i) j =
      d (drv.start_lba + drv.fat_start_lba + i) j

theorem Mounted.mirrored_put_entry (hm : drv.Mounted) (hc : drv.IsCluster c)
    (h : drv.Mirrored d) : drv.Mirrored (drv.put_entry d drv.bpb.fat_count c value) := by
  have hhit : ∀ k < drv.bpb.fat_count, ∀ i < drv.bpb.sectors_per_fat_32,
      (∃ k' < drv.bpb.fat_count, drv.start_lba + drv.fat_start_lba +
        k * drv.bpb.sectors_per_fat_32 + i = drv.fat_sector k' c) ↔ i = c * 4 / 512 := by
    intro k hk i hi
    have hfit := (hm.entry_fits hc hm.fat_count).1
    constructor
    · rintro ⟨k', -, he⟩
      unfold fat_sector at he
      have he' : drv.bpb.sectors_per_fat_32 * k + i =
          drv.bpb.sectors_per_fat_32 * k' + c * 4 / 512 := by
        rw [Nat.mul_comm _ k, Nat.mul_comm _ k']
        omega
      have hmod := congrArg (· % drv.bpb.sectors_per_fat_32) he'
      simp only [Nat.mul_add_mod] at hmod
      rwa [Nat.mod_eq_of_lt hi, Nat.mod_eq_of_lt hfit] at hmod
    · rintro rfl
      exact ⟨k, hk, rfl⟩
  intro k hk i hi j hj
  have h0 := hhit 0 hm.fat_count i hi
  rw [Nat.zero_mul, Nat.add_zero] at h0
  unfold put_entry
  by_cases he : i = c * 4 / 512
  · rw [if_pos ((hhit k hk i hi).mpr he), if_pos (h0.mpr he)]
    exact with_entry_congr (h k hk i hi) (by omega) j hj
  · rw [if_neg (fun hx => he ((hhit k hk i hi).mp hx)), if_neg (fun hx => he (h0.mp hx))]
    exact h k hk i hi j hj

/-- The sectors in front of the clusters hold the table, so nothing else changes it. -/
theorem Mounted.mirrored_congr (hm : drv.Mounted)
    (hd : ∀ i < drv.start_lba + drv.data_start_lba, d' i = d i) (h : drv.Mirrored d) : drv.Mirrored d' := by
  have hlt : ∀ k < drv.bpb.fat_count, ∀ j < drv.bpb.sectors_per_fat_32,
      drv.start_lba + drv.fat_start_lba + k * drv.bpb.sectors_per_fat_32 + j <
        drv.start_lba + drv.data_start_lba := by
    intro k hk j hj
    have hmul : (k + 1) * drv.bpb.sectors_per_fat_32 ≤
        drv.bpb.fat_count * drv.bpb.sectors_per_fat_32 := Nat.mul_le_mul_right _ hk
    rw [Nat.add_mul, Nat.one_mul] at hmul
    have := hm.data_start
    omega
  intro k hk j hj b hb
  have h0 := hlt 0 hm.fat_count j hj
  rw [Nat.zero_mul, Nat.add_zero] at h0
  rw [hd _ (hlt k hk j hj), hd _ h0]
  exact h k hk j hj b hb

theorem Mounted.read_fat_congr (hm : drv.Mounted) (hc : drv.IsCluster c)
    (hd : ∀ i < drv.start_lba + drv.data_start_lba, d' i = d i) :
    drv.read_fat_entry d' c = drv.read_fat_entry d c := by
  rw [hm.read_fat_entry_eq hc, hm.read_fat_entry_eq hc, fat_at, fat_at,
    hd _ (hm.fat_sector_lt hc hm.fat_count)]

/-- A write to a cluster does not touch the table. -/
theorem update_table {i j : Nat} {sector : Sector} (hi : drv.start_lba + drv.data_start_lba ≤ i)
    (hj : j < drv.start_lba + drv.data_start_lba) : update d i sector j = d j :=
  update_of_ne (by omega) _ _

/-! ## Writing an entry -/

variable {C : Disk → Prop} {Q : Bool → Disk → Prop}

theorem does_look {α γ : Type} {f : Disk → α} {a : α} {g : α → Prog Sector γ}
    {Q : γ → Disk → Prop} (h : f d = a) (hC : C d) (hg : Does (g a) C Q d) :
    Does (look f >>= g) C Q d := Does.ask_seq (congrArg some h) hC hg

theorem does_write_sector {lba i : Nat} {sector : Sector} (hp : drv.place lba = some i) (hC : C d)
    (hC' : C (update d i sector)) (hQ : Q true (update d i sector)) :
    Does (drv.write_sector_relative lba sector) C Q d := by
  rw [write_sector_relative, hp]
  exact (Does.write hC hC' ⟨rfl, rfl⟩).seq_at (Does.pure hC' hQ)

/-- The copies are written one after the other. -/
theorem Mounted.does_write_fat_copies (hm : drv.Mounted) (hc : drv.IsCluster c) {m : Nat}
    (hn : n + m = drv.bpb.fat_count) (hC : ∀ k ≤ drv.bpb.fat_count, C (drv.put_entry d k c value))
    (hQ : Q true (drv.put_entry d drv.bpb.fat_count c value)) :
    Does (drv.write_fat_copies c value (range' n m)) C Q (drv.put_entry d n c value) := by
  induction m generalizing n with
  | zero =>
    obtain rfl : n = drv.bpb.fat_count := hn
    exact Does.pure (hC _ (Nat.le_refl _)) hQ
  | succ m ih =>
    have hlt : n < drv.bpb.fat_count := by omega
    have hplace := hm.fat_lba_place_eq hc hlt
    rw [range'_succ, write_fat_copies, hm.fat_place_eq hc]
    have hread : drv.read_sector_relative (drv.put_entry d n c value)
        (u32 (drv.fat_start_lba + u32 (n * drv.bpb.sectors_per_fat_32) + c * 4 / 512)) =
        some (drv.put_entry d n c value (drv.fat_sector n c)) := by
      rw [read_sector_relative, hplace]
      rfl
    apply does_look hread (hC n hlt.le)
    refine (does_write_sector hplace (hC n hlt.le) ?_ ⟨rfl, hm.put_entry_succ hc hlt⟩).seq_at ?_
    · rw [hm.put_entry_succ hc hlt]
      exact hC (n + 1) hlt
    · rw [if_pos rfl]
      exact ih (by omega)

theorem Mounted.does_write_fat_entry (hm : drv.Mounted) (hc : drv.IsCluster c)
    (hC : ∀ k ≤ drv.bpb.fat_count, C (drv.put_entry d k c value))
    (hQ : Q true (drv.put_entry d drv.bpb.fat_count c value)) : Does (drv.write_fat_entry c value) C Q d := by
  have := hm.does_write_fat_copies (n := 0) (m := drv.bpb.fat_count) hc (Nat.zero_add _) hC hQ
  rwa [put_entry_zero, ← range_eq_range'] at this

end

end FAT32Driver

end mini_kernel.fat32
