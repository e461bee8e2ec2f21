-- Where a mounted volume keeps its sectors: the copies of the table in front, the clusters
-- behind them, no two at the same place, and all of them on the device.
import MiniKernel.Lib.Chain
import MiniKernel.Fat32.Update

open mini_kernel.lib mini_kernel.vfs

namespace mini_kernel.fat32

namespace FAT32Driver

/-- The device has so many sectors, and no more than its numbers can tell. -/
def holds (device : Device) (n : Nat) : Prop :=
  match device with
  | .ramdisk ramdisk_size => n * 512 ≤ ramdisk_size ∧ ramdisk_size < 2 ^ 32
  | .ata sectors => n ≤ sectors ∧ sectors ≤ 2 ^ 28

/-- The boot sector was accepted, the device holds the volume that it describes, and the
numbers of the clusters are below the marks of the table. -/
structure Mounted (drv : FAT32Driver) : Prop where
  initialized : drv.initialized
  bytes_per_sector : drv.bpb.bytes_per_sector = 512
  sectors_per_cluster : 0 < drv.bpb.sectors_per_cluster
  fat_count : 0 < drv.bpb.fat_count
  data_start : drv.data_start_lba =
    drv.fat_start_lba + drv.bpb.fat_count * drv.bpb.sectors_per_fat_32
  data_start_le : drv.data_start_lba ≤ drv.total_sectors
  on_device : holds drv.device (drv.start_lba + drv.total_sectors)
  limit_le : drv.limit ≤ 0x0FFFFFF7
  table_size : drv.limit * 4 ≤ drv.bpb.sectors_per_fat_32 * 512

/-- `init` mounts a volume whose boot sector it accepts, if the numbers there are sound. -/
theorem mounted_init {drv : FAT32Driver} {d : Disk} (h : (drv.init d).initialized)
    (hwrap : (drv.init d).bpb.reserved_sectors +
      (drv.init d).bpb.fat_count * (drv.init d).bpb.sectors_per_fat_32 < 2 ^ 32)
    (hstart : (drv.init d).data_start_lba ≤ (drv.init d).total_sectors)
    (hdevice : holds drv.device (drv.start_lba + (drv.init d).total_sectors))
    (hlimit : (drv.init d).limit ≤ 0x0FFFFFF7)
    (htable : (drv.init d).limit * 4 ≤ (drv.init d).bpb.sectors_per_fat_32 * 512) : (drv.init d).Mounted := by
  have hsame : (drv.init d).device = drv.device ∧ (drv.init d).start_lba = drv.start_lba := by
    unfold init
    simp only
    split
    · exact ⟨rfl, rfl⟩
    · split <;> exact ⟨rfl, rfl⟩
  have hbpb : (drv.init d).bpb.accepted ∧
      (drv.init d).fat_start_lba = (drv.init d).bpb.reserved_sectors ∧
      (drv.init d).data_start_lba = u32 ((drv.init d).bpb.reserved_sectors +
        u32 ((drv.init d).bpb.fat_count * (drv.init d).bpb.sectors_per_fat_32)) := by
    clear hwrap hstart hdevice hlimit htable hsame
    unfold init at h ⊢
    simp only at h ⊢
    split at h
    · cases h
    split at h
    · rename_i hacc
      rw [if_pos hacc]
      exact ⟨hacc, rfl, rfl⟩
    · cases h
  obtain ⟨hacc, hfat, hdata⟩ := hbpb
  simp only [FAT32BPB.accepted, decide_eq_true_eq] at hacc
  obtain ⟨hbytes, hspc, -, -, -, hcount, -⟩ := hacc
  refine ⟨h, hbytes, by omega, by omega, ?_, hstart, ?_, hlimit, htable⟩
  · rw [hdata, hfat, u32_of_lt (n := (drv.init d).bpb.fat_count * _) (by omega),
      u32_of_lt (by omega)]
  · rw [hsame.1, hsame.2]
    exact hdevice

section
variable {drv : FAT32Driver} {d : Disk} {c off copy : Nat}

/-- A number of a cluster of the volume. -/
def IsCluster (drv : FAT32Driver) (c : Nat) : Prop := 2 ≤ c ∧ c < drv.limit

/-- Where a sector of a cluster is on the device. -/
def sector_place (drv : FAT32Driver) (c off : Nat) : Nat :=
  drv.start_lba + drv.data_start_lba + (c - 2) * drv.bpb.sectors_per_cluster + off

/-- Where the entry of a cluster is in a copy of the table. -/
def fat_sector (drv : FAT32Driver) (copy c : Nat) : Nat :=
  drv.start_lba + drv.fat_start_lba + copy * drv.bpb.sectors_per_fat_32 + c * 4 / 512

section
variable (hm : drv.Mounted)
include hm

theorem Mounted.total_le : drv.start_lba + drv.total_sectors ≤ 2 ^ 28 := by
  have h := hm.on_device
  unfold holds at h
  split at h <;> omega

theorem Mounted.limit_eq :
    drv.limit = (drv.total_sectors - drv.data_start_lba) / drv.bpb.sectors_per_cluster + 2 := by
  have h1 := hm.total_le
  have h2 := hm.data_start_le
  have hw : u32 (drv.total_sectors + 2 ^ 32 - drv.data_start_lba) =
      drv.total_sectors - drv.data_start_lba := by
    unfold u32
    rw [show drv.total_sectors + 2 ^ 32 - drv.data_start_lba =
      drv.total_sectors - drv.data_start_lba + 2 ^ 32 by omega, Nat.add_mod_right]
    exact Nat.mod_eq_of_lt (by omega)
  have hle := Nat.div_le_self (drv.total_sectors - drv.data_start_lba) drv.bpb.sectors_per_cluster
  unfold limit
  rw [hw]
  exact u32_of_lt (by omega)

section
variable (hc : drv.IsCluster c)
include hc

/-- The sectors of a cluster are inside the volume. -/
theorem Mounted.cluster_fits (ho : off < drv.bpb.sectors_per_cluster) :
    drv.data_start_lba + (c - 2) * drv.bpb.sectors_per_cluster + off < drv.total_sectors := by
  obtain ⟨h2, hl⟩ := hc
  rw [hm.limit_eq] at hl
  have hdiv := Nat.div_mul_le_self (drv.total_sectors - drv.data_start_lba)
    drv.bpb.sectors_per_cluster
  have hmul : (c - 2 + 1) * drv.bpb.sectors_per_cluster ≤
      (drv.total_sectors - drv.data_start_lba) / drv.bpb.sectors_per_cluster *
        drv.bpb.sectors_per_cluster := Nat.mul_le_mul_right _ (by omega)
  rw [Nat.add_mul, Nat.one_mul] at hmul
  omega

/-- The entry of a cluster is inside each copy of the table. -/
theorem Mounted.entry_fits (hk : copy < drv.bpb.fat_count) : c * 4 / 512 < drv.bpb.sectors_per_fat_32 ∧
    drv.fat_start_lba + copy * drv.bpb.sectors_per_fat_32 + c * 4 / 512 < drv.data_start_lba := by
  have hc2 := hc.2
  have hsize := hm.table_size
  have hin : c * 4 / 512 < drv.bpb.sectors_per_fat_32 := by omega
  refine ⟨hin, ?_⟩
  have hmul : (copy + 1) * drv.bpb.sectors_per_fat_32 ≤
      drv.bpb.fat_count * drv.bpb.sectors_per_fat_32 := Nat.mul_le_mul_right _ hk
  rw [Nat.add_mul, Nat.one_mul] at hmul
  rw [hm.data_start]
  omega

/-! ## Different places -/

theorem Mounted.sector_place_inj {c' off' : Nat}
    (hc' : drv.IsCluster c') (ho : off < drv.bpb.sectors_per_cluster)
    (ho' : off' < drv.bpb.sectors_per_cluster)
    (h : drv.sector_place c off = drv.sector_place c' off') : c = c' ∧ off = off' := by
  unfold sector_place at h
  have h' : drv.bpb.sectors_per_cluster * (c - 2) + off =
      drv.bpb.sectors_per_cluster * (c' - 2) + off' := by
    rw [Nat.mul_comm _ (c - 2), Nat.mul_comm _ (c' - 2)]
    omega
  have hdiv := congrArg (· / drv.bpb.sectors_per_cluster) h'
  simp only [Nat.mul_add_div hm.sectors_per_cluster, Nat.div_eq_of_lt ho, Nat.div_eq_of_lt ho',
    Nat.add_zero] at hdiv
  have h1 := hc.1
  have h2 := hc'.1
  have : c = c' := by omega
  subst this
  exact ⟨rfl, by omega⟩

theorem Mounted.fat_sector_inj {c' copy' : Nat}
    (hc' : drv.IsCluster c') (hk : copy < drv.bpb.fat_count) (hk' : copy' < drv.bpb.fat_count)
    (h : drv.fat_sector copy c = drv.fat_sector copy' c') : copy = copy' ∧ c * 4 / 512 = c' * 4 / 512 := by
  have h1 := (hm.entry_fits hc hk).1
  have h2 := (hm.entry_fits hc' hk').1
  unfold fat_sector at h
  have h' : drv.bpb.sectors_per_fat_32 * copy + c * 4 / 512 =
      drv.bpb.sectors_per_fat_32 * copy' + c' * 4 / 512 := by
    rw [Nat.mul_comm _ copy, Nat.mul_comm _ copy']
    omega
  have hdiv := congrArg (· / drv.bpb.sectors_per_fat_32) h'
  simp only [Nat.mul_add_div (Nat.zero_lt_of_lt h1), Nat.div_eq_of_lt h1, Nat.div_eq_of_lt h2,
    Nat.add_zero] at hdiv
  subst hdiv
  exact ⟨rfl, by omega⟩

/-- The table lies in front of the clusters. -/
theorem Mounted.fat_sector_lt (hk : copy < drv.bpb.fat_count) :
    drv.fat_sector copy c < drv.start_lba + drv.data_start_lba := by
  have := (hm.entry_fits hc hk).2
  unfold fat_sector
  omega

end

end

theorem sector_place_ge (drv : FAT32Driver) (c off : Nat) :
    drv.start_lba + drv.data_start_lba ≤ drv.sector_place c off := by
  unfold sector_place
  omega

/-! ## The accesses -/

section
variable (hm : drv.Mounted)
include hm

theorem Mounted.place_eq {lba : Nat} (h : lba < drv.total_sectors) :
    drv.place lba = some (drv.start_lba + lba) := by
  have h1 := hm.total_le
  have h2 := hm.on_device
  unfold place
  simp only
  rw [u32_of_lt (by omega)]
  cases hd : drv.device with
  | ramdisk ramdisk_size =>
    rw [hd, holds] at h2
    exact if_neg (by omega)
  | ata sectors =>
    rw [hd, holds] at h2
    simp only
    rw [Nat.mod_eq_of_lt (by omega), if_pos (by omega)]

section
variable (hc : drv.IsCluster c) (ho : off < drv.bpb.sectors_per_cluster)
include hc ho

theorem Mounted.cluster_lba_eq : u32 (drv.cluster_to_lba c + off) =
      drv.data_start_lba + (c - 2) * drv.bpb.sectors_per_cluster + off := by
  have h1 := hm.total_le
  have h2 := hm.limit_le
  have hfit := hm.cluster_fits hc ho
  have hc1 := hc.1
  have hc2 := hc.2
  have hsub : u32 (c + 2 ^ 32 - 2) = c - 2 := by
    unfold u32
    rw [show c + 2 ^ 32 - 2 = c - 2 + 2 ^ 32 by omega, Nat.add_mod_right]
    exact Nat.mod_eq_of_lt (by omega)
  have hlba : drv.cluster_to_lba c =
      drv.data_start_lba + (c - 2) * drv.bpb.sectors_per_cluster := by
    unfold cluster_to_lba
    rw [hsub, u32_of_lt (n := (c - 2) * drv.bpb.sectors_per_cluster) (by omega),
      u32_of_lt (by omega)]
  rw [hlba]
  exact u32_of_lt (by omega)

theorem Mounted.cluster_place_eq :
    drv.place (u32 (drv.cluster_to_lba c + off)) = some (drv.sector_place c off) := by
  rw [hm.cluster_lba_eq hc ho, hm.place_eq (hm.cluster_fits hc ho), sector_place]
  congr 1
  omega

theorem Mounted.read_cluster_sector_eq :
    drv.read_cluster_sector d c off = some (d (drv.sector_place c off)) := by
  rw [read_cluster_sector, if_neg (by omega), read_sector_relative, hm.cluster_place_eq hc ho]
  rfl

end

theorem Mounted.fat_place_eq (hc : drv.IsCluster c) : drv.fat_place c = (c * 4 / 512, c * 4 % 512) := by
  have h := hm.limit_le
  have hc2 := hc.2
  rw [fat_place, hm.bytes_per_sector, u32_of_lt (by omega)]

theorem Mounted.fat_lba_place_eq (hc : drv.IsCluster c) (hk : copy < drv.bpb.fat_count) :
    drv.place (u32 (drv.fat_start_lba + u32 (copy * drv.bpb.sectors_per_fat_32) +
      c * 4 / 512)) = some (drv.fat_sector copy c) := by
  have h1 := hm.total_le
  have h2 := (hm.entry_fits hc hk).2
  have h3 := hm.data_start_le
  rw [u32_of_lt (n := copy * drv.bpb.sectors_per_fat_32) (by omega), u32_of_lt (by omega),
    hm.place_eq (by omega), fat_sector]
  congr 1
  omega

end

/-- The entry of a cluster in a copy of the table. -/
def fat_at (drv : FAT32Driver) (copy : Nat) (d : Disk) (c : Nat) : Nat :=
  u32_at (d (drv.fat_sector copy c)) (c * 4 % 512) % 2 ^ 28

/-- The driver reads the first copy. -/
theorem Mounted.read_fat_entry_eq (hm : drv.Mounted) (hc : drv.IsCluster c) :
    drv.read_fat_entry d c = drv.fat_at 0 d c := by
  have h := hm.fat_lba_place_eq hc hm.fat_count
  rw [Nat.zero_mul, show u32 0 = 0 from rfl, Nat.add_zero] at h
  rw [read_fat_entry, hm.fat_place_eq hc, read_sector_relative, h]
  rfl

end

end FAT32Driver

end mini_kernel.fat32
