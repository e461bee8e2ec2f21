-- Allocating, freeing and filling clusters. The laws: a chain that is freed has zero
-- entries (the first 4096 of them), and a buffer that was written is a chain of
-- clusters that were free, with the bytes of the buffer in them.
import MiniKernel.Fat32.Table

open mini_kernel.lib mini_kernel.vfs Function List

namespace mini_kernel.fat32

namespace FAT32Driver

section
variable {drv : FAT32Driver} {d d' d'' d₀ : Disk} {c n value : Nat} {l : List Nat}

/-- No cluster outside of the set changes, and copies of the table that were equal stay equal. -/
structure Changes (drv : FAT32Driver) (S : Nat → Prop) (d d' : Disk) : Prop where
  keeps : drv.Keeps S d d'
  mirrored : drv.Mirrored d → drv.Mirrored d'

variable {S T : Nat → Prop}

theorem Changes.refl (drv : FAT32Driver) (S : Nat → Prop) (d : Disk) : drv.Changes S d d :=
  ⟨Keeps.refl _ _ _, id⟩

theorem Changes.trans (h : drv.Changes S d d') (h' : drv.Changes S d' d'') : drv.Changes S d d'' :=
  ⟨h.keeps.trans h'.keeps, fun hd => h'.mirrored (h.mirrored hd)⟩

theorem Changes.mono (h : drv.Changes S d d') (hST : ∀ c, S c → T c) : drv.Changes T d d' :=
  ⟨h.keeps.mono hST, h.mirrored⟩

variable {sector : Sector}

section
variable (hm : drv.Mounted)
include hm

theorem Mounted.changes_put_entry (hc : drv.IsCluster c) (hS : S c) :
    drv.Changes S d (drv.put_entry d drv.bpb.fat_count c value) :=
  ⟨hm.keeps_put_entry hc (Nat.le_refl _) hS, hm.mirrored_put_entry hc⟩

theorem Mounted.read_fat_update (hc : drv.IsCluster c) {i : Nat}
    (hi : drv.start_lba + drv.data_start_lba ≤ i) :
    drv.read_fat_entry (update d i sector) c = drv.read_fat_entry d c :=
  hm.read_fat_congr hc fun _ hj => update_table hi hj

theorem Mounted.mirrored_update {i : Nat}
    (hi : drv.start_lba + drv.data_start_lba ≤ i) (h : drv.Mirrored d) : drv.Mirrored (update d i sector) :=
  hm.mirrored_congr (fun _ hj => update_table hi hj) h

theorem Mounted.changes_update (hc : drv.IsCluster c) {off : Nat}
    (ho : off < drv.bpb.sectors_per_cluster) (hS : S c) :
    drv.Changes S d (update d (drv.sector_place c off) sector) := by
  refine ⟨?_, hm.mirrored_update (sector_place_ge ..)⟩
  intro x hx hxS
  constructor
  · exact hm.read_fat_update hx (sector_place_ge ..)
  · intro off' ho'
    apply update_of_ne
    intro he
    obtain ⟨rfl, -⟩ := hm.sector_place_inj hx hc ho' ho he
    exact hxS hS

end

/-! ## Allocating -/

variable {C : Disk → Prop}

/-- The first free cluster is taken, if there is one. -/
theorem Mounted.does_alloc (hm : drv.Mounted) {Q : Option Nat → Disk → Prop} (hC0 : C d)
    (hnone : (∀ c, drv.IsCluster c → drv.read_fat_entry d c ≠ 0) → Q none d)
    (hC : ∀ c, drv.IsCluster c → drv.read_fat_entry d c = 0 → ∀ k ≤ drv.bpb.fat_count,
      C (drv.put_entry d k c 0x0FFFFFFF)) (hsome : ∀ c, drv.IsCluster c → drv.read_fat_entry d c = 0 →
      Q (some c) (drv.put_entry d drv.bpb.fat_count c 0x0FFFFFFF)) : Does drv.alloc_free_cluster C Q d := by
  rw [alloc_free_cluster, if_neg (by simp [hm.initialized])]
  apply does_look rfl hC0
  cases hf : (range' 2 (drv.limit - 2)).find? (fun c => drv.read_fat_entry d c = 0) with
  | none =>
    refine Does.pure hC0 (hnone ?_)
    intro c hc h0
    have := find?_eq_none.mp hf c (mem_range'_1.mpr ⟨hc.1, by have := hc.2; omega⟩)
    simp [h0] at this
  | some c =>
    have hmem := mem_range'_1.mp (mem_of_find?_eq_some hf)
    have hc : drv.IsCluster c := ⟨hmem.1, by omega⟩
    have h0 : drv.read_fat_entry d c = 0 := by simpa using find?_some hf
    refine (hm.does_write_fat_entry hc (hC c hc h0) ⟨rfl, rfl⟩).seq_at ?_
    rw [if_pos rfl]
    exact Does.pure (hC c hc h0 _ (Nat.le_refl _)) (hsome c hc h0)

/-! ## Freeing -/

/-- The disk when the entries of some clusters have been cleared. -/
def free_entries (drv : FAT32Driver) (d : Disk) (l : List Nat) : Disk :=
  l.foldl (fun d c => drv.put_entry d drv.bpb.fat_count c 0) d

theorem Mounted.changes_free_entries (hm : drv.Mounted) (hl : ∀ c ∈ l, drv.IsCluster c)
    (hS : ∀ c ∈ l, S c) : drv.Changes S d (drv.free_entries d l) := by
  induction l generalizing d with
  | nil => exact Changes.refl _ _ _
  | cons c l ih =>
    have hfirst : drv.Changes S d (drv.put_entry d drv.bpb.fat_count c 0) :=
      hm.changes_put_entry (hl c mem_cons_self) (hS c mem_cons_self)
    apply hfirst.trans
    apply ih
    · exact (forall_mem_cons.mp hl).2
    · exact (forall_mem_cons.mp hS).2

variable {Q : Bool → Disk → Prop}

/-- The loop frees a chain from its start, as far as its turns go. -/
theorem Mounted.does_free_chain_loop (hm : drv.Mounted) {left : Nat} (h : drv.ClusterChain d c l)
    (hC : ∀ d', drv.Keeps (· ∈ l) d d' → C d')
    (hQ : Q true (drv.free_entries d (l.take left))) : Does (drv.free_chain_loop left c) C Q d := by
  induction left generalizing d c l with
  | zero => exact Does.pure (hC d (Keeps.refl _ _ _)) hQ
  | succ left ih =>
    have hc := h.node_of_mem c h.head_mem
    have hput : ∀ k ≤ drv.bpb.fat_count, C (drv.put_entry d k c 0) := fun k hk =>
      hC _ (hm.keeps_put_entry hc hk h.head_mem)
    rw [free_chain_loop, if_pos hc.1]
    apply does_look rfl (hC d (Keeps.refl _ _ _))
    refine (hm.does_write_fat_entry hc hput ⟨rfl, rfl⟩).seq_at ?_
    rw [if_neg (by simp)]
    cases h with
    | last _ hend =>
      rw [if_pos (.inr (.inr hend))]
      rw [take_succ_cons, take_nil] at hQ
      exact Does.pure (hput _ (Nat.le_refl _)) hQ
    | @cons _ l _ hl =>
      have hnext := hl.node_of_mem _ hl.head_mem
      have hne := (Chain.cons hc hl).next_ne hm.mark_ne_cluster
      have hnot : c ∉ l := (nodup_cons.mp ((Chain.cons hc hl).nodup hm.mark_ne_cluster)).1
      rw [if_neg]
      · -- the rest of the chain is not touched by clearing its first entry
        have hkeep : drv.Keeps (· = c) d (drv.put_entry d drv.bpb.fat_count c 0) :=
          hm.keeps_put_entry hc (Nat.le_refl _) rfl
        have hl' := hkeep.chain hl fun x hx he => hnot (he ▸ hx)
        refine ih hl' ?_ hQ
        intro d' hd'
        refine hC d' ?_
        refine (hkeep.mono ?_).trans (hd'.mono fun x hx => mem_cons_of_mem _ hx)
        rintro x rfl
        exact mem_cons_self
      · rintro (h | h | h)
        · exact hne h
        · exact absurd hnext.1 (by omega)
        · exact hm.mark_ne_cluster _ h hnext

theorem Mounted.does_free_cluster_chain (hm : drv.Mounted) (h : drv.ClusterChain d c l)
    (hC : ∀ d', drv.Keeps (· ∈ l) d d' → C d')
    (hQ : Q true (drv.free_entries d (l.take 4096))) : Does (drv.free_cluster_chain c) C Q d := by
  have hc := (h.node_of_mem c h.head_mem).1
  rw [free_cluster_chain, if_neg (by simp [hm.initialized]), if_neg (by omega)]
  exact hm.does_free_chain_loop h hC hQ

/-! ## Filling a cluster -/

theorem Mounted.does_write_cluster_sector (hm : drv.Mounted) (hc : drv.IsCluster c) {off : Nat}
    (ho : off < drv.bpb.sectors_per_cluster) (hC : C d)
    (hC' : C (update d (drv.sector_place c off) sector))
    (hQ : Q true (update d (drv.sector_place c off) sector)) :
    Does (drv.write_cluster_sector c off sector) C Q d := by
  rw [write_cluster_sector, if_neg (by omega)]
  exact does_write_sector (hm.cluster_place_eq hc ho) hC hC' hQ

/-- The bytes of some sectors of a cluster. -/
def sectors_bytes (drv : FAT32Driver) (d : Disk) (c : Nat) (offs : List Nat) : Bytes :=
  offs.flatMap fun off => load (d (drv.sector_place c off)) 0 512

theorem load_chunk (chunk : Bytes) (h : chunk.length ≤ 512) :
    (load (store (fun _ => 0) 0 chunk) 0 512).take chunk.length = chunk := by
  rw [take_load h]
  exact load_store

/-- The loop over the sectors puts the buffer into them, as much as fits. -/
theorem Mounted.does_write_sectors (hm : drv.Mounted) (hc : drv.IsCluster c) {offs : List Nat}
    (ho : ∀ off ∈ offs, off < drv.bpb.sectors_per_cluster) (hd : offs.Nodup) {buffer : Bytes}
    {Q : Option Bytes → Disk → Prop} (hC : ∀ d', drv.Changes (· = c) d d' → C d')
    (hQ : ∀ d', drv.Changes (· = c) d d' → drv.read_fat_entry d' c = drv.read_fat_entry d c →
      (∀ off < drv.bpb.sectors_per_cluster, off ∉ offs →
        d' (drv.sector_place c off) = d (drv.sector_place c off)) →
      (drv.sectors_bytes d' c offs).take buffer.length = buffer.take (512 * offs.length) →
      Q (some (buffer.drop (512 * offs.length))) d') : Does (drv.write_sectors c offs buffer) C Q d := by
  induction offs generalizing d buffer with
  | nil =>
    refine Does.pure (hC d (Changes.refl _ _ _)) ?_
    exact hQ d (Changes.refl _ _ _) rfl (fun _ _ _ => rfl) (by simp [sectors_bytes])
  | cons off offs ih =>
    rw [nodup_cons] at hd
    have hoff := ho off mem_cons_self
    have hin : drv.start_lba + drv.data_start_lba ≤ drv.sector_place c off := sector_place_ge ..
    generalize hd1 : update d (drv.sector_place c off)
      (store (fun _ => 0) 0 (buffer.take 512)) = d₁
    have hch : drv.Changes (· = c) d d₁ := hd1 ▸ hm.changes_update hc hoff rfl
    have hfat : drv.read_fat_entry d₁ c = drv.read_fat_entry d c := by
      rw [← hd1, hm.read_fat_update hc hin]
    have hother : ∀ off' < drv.bpb.sectors_per_cluster, off' ≠ off →
        d₁ (drv.sector_place c off') = d (drv.sector_place c off') := by
      intro off' ho' hne
      rw [← hd1]
      apply update_of_ne
      intro he
      exact hne (hm.sector_place_inj hc hc ho' hoff he).2
    have hsame : d₁ (drv.sector_place c off) = store (fun _ => 0) 0 (buffer.take 512) := by
      rw [← hd1, update_self]
    have hchunk := load_chunk (buffer.take 512) (length_take_le _ _)
    have hC0 : C d := hC d (Changes.refl _ _ _)
    have hC1 : C d₁ := hC d₁ hch
    rw [write_sectors]
    simp only [hm.bytes_per_sector]
    refine (hm.does_write_cluster_sector hc hoff hC0 (hd1 ▸ hC1) ⟨rfl, hd1⟩).seq_at ?_
    rw [if_pos rfl]
    by_cases hlast : buffer.drop 512 = []
    · -- the rest of the buffer fits into this sector
      have hlen : buffer.length ≤ 512 := drop_eq_nil_iff.mp hlast
      rw [if_pos hlast]
      refine Does.pure hC1 ?_
      have hdrop : buffer.drop (512 * (off :: offs).length) = [] := by
        rw [drop_eq_nil_iff, length_cons]
        omega
      rw [← hdrop]
      refine hQ d₁ hch hfat ?_ ?_
      · intro off' ho' hnot
        exact hother off' ho' (fun he => hnot (he ▸ mem_cons_self))
      · rw [take_of_length_le hlen] at hchunk hsame
        simp only [sectors_bytes, flatMap_cons, hsame, take_append, length_load, hchunk]
        rw [Nat.sub_eq_zero_of_le hlen, take_zero, append_nil, length_cons,
          take_of_length_le (by omega)]
    · have hlen : 512 < buffer.length := by
        rw [drop_eq_nil_iff] at hlast
        omega
      rw [if_neg hlast]
      have hdrop : (buffer.drop 512).drop (512 * offs.length) =
          buffer.drop (512 * (off :: offs).length) := by
        rw [drop_drop, length_cons, Nat.mul_add, Nat.mul_one, Nat.add_comm]
      refine ih (forall_mem_cons.mp ho).2 hd.2
        (fun d' h' => hC d' (hch.trans h')) ?_
      intro d' hch' hfat' hother' hbytes
      rw [hdrop]
      refine hQ d' (hch.trans hch') (hfat'.trans hfat) ?_ ?_
      · intro off' ho' hnot
        rw [mem_cons, not_or] at hnot
        rw [hother' off' ho' hnot.2, hother off' ho' hnot.1]
      · have hfull : (buffer.take 512).length = 512 := by
          rw [length_take]
          omega
        rw [hfull, take_of_length_le (by simp)] at hchunk
        have hsplit : drv.sectors_bytes d' c (off :: offs) =
            buffer.take 512 ++ drv.sectors_bytes d' c offs := by
          rw [sectors_bytes, flatMap_cons, hother' off hoff hd.1, hsame, hchunk]
          rfl
        rw [length_drop] at hbytes
        rw [hsplit, take_append, take_of_length_le (by omega), hfull, hbytes,
          length_cons, Nat.mul_add, Nat.mul_one, Nat.add_comm, take_add]

/-! ## Writing a chain -/

/-- The clusters hold the bytes; they were free before, and nothing else has changed. -/
structure Written (drv : FAT32Driver) (d₀ : Disk) (bytes : Bytes) (first : Nat) (l : List Nat)
    (d : Disk) : Prop where
  changes : drv.Changes (· ∈ l) d₀ d
  free : ∀ x ∈ l, drv.IsCluster x ∧ drv.read_fat_entry d₀ x = 0
  chain : l = [] ∧ first = 0 ∨ drv.ClusterChain d first l
  room : bytes.length ≤ (drv.chain_bytes d l).length
  bytes : (drv.chain_bytes d l).take bytes.length = bytes

variable {buffer done : Bytes} {first previous : Nat}

theorem Written.first_zero_iff (h : drv.Written d₀ done first l d) : first = 0 ↔ l = [] := by
  rcases h.chain with ⟨rfl, rfl⟩ | hc
  · exact ⟨fun _ => rfl, fun _ => rfl⟩
  · have h2 := (hc.node_of_mem first hc.head_mem).1
    have hmem := hc.head_mem
    constructor
    · intro h0
      omega
    · rintro rfl
      cases hmem

/-- A cluster that is free now is a new one. -/
theorem Written.fresh (h : drv.Written d₀ done first l d) (hc : drv.IsCluster c)
    (h0 : drv.read_fat_entry d c = 0) : c ∉ l ∧ drv.read_fat_entry d₀ c = 0 := by
  have hnot : c ∉ l := by
    intro hmem
    rcases h.chain with ⟨rfl, -⟩ | hch
    · cases hmem
    · exact chain_entry_ne_zero hch c hmem h0
  exact ⟨hnot, (h.changes.keeps c hc hnot).1 ▸ h0⟩

theorem Written.keeps (h : drv.Written d₀ done first l d) :
    drv.Keeps (fun x => drv.read_fat_entry d₀ x = 0) d₀ d :=
  h.changes.keeps.mono fun x hx => (h.free x hx).2

theorem mem_snoc {x : Nat} (h : x = c ∨ l.getLast? = some x) : x ∈ l ++ [c] := by
  rcases h with rfl | h
  · exact mem_append_right _ mem_cons_self
  · exact mem_append_left _ (mem_of_getLast? h)

/-- A new cluster, linked and filled, makes the chain longer. -/
theorem Written.snoc (hm : drv.Mounted) (h : drv.Written d₀ done first l d)
    (hexact : drv.chain_bytes d l = done) (hlast : ∀ z, l.getLast? = some z → z = previous)
    (hc : drv.IsCluster c) (h0 : drv.read_fat_entry d c = 0)
    (hch : drv.Changes (fun x => x = c ∨ l.getLast? = some x) d d')
    (hdata : ∀ x ∈ l, ∀ off < drv.bpb.sectors_per_cluster,
      d' (drv.sector_place x off) = d (drv.sector_place x off))
    (hend : drv.read_fat_entry d' c = 0x0FFFFFFF) (hlink : l ≠ [] → drv.read_fat_entry d' previous = c)
    (hbytes : (drv.cluster_bytes d' c).take buffer.length =
      buffer.take (512 * drv.bpb.sectors_per_cluster)) :
    drv.Written d₀ (done ++ buffer.take (512 * drv.bpb.sectors_per_cluster))
      (if first = 0 then c else first) (l ++ [c]) d' := by
  obtain ⟨hnot, hfree⟩ := h.fresh hc h0
  have hlen := length_cluster_bytes drv d' c
  have hall : drv.chain_bytes d' (l ++ [c]) = done ++ drv.cluster_bytes d' c := by
    rw [chain_bytes, flatMap_append, ← chain_bytes, chain_bytes_congr hdata, hexact]
    simp
  have hmark : is_end_of_chain (drv.read_fat_entry d' c) := by
    rw [hend]
    rfl
  refine ⟨?_, ?_, .inr ?_, ?_, ?_⟩
  · exact (h.changes.mono fun x => mem_append_left _).trans (hch.mono fun x => mem_snoc)
  · exact forall_mem_append.mpr ⟨h.free, forall_mem_singleton.mpr ⟨hc, hfree⟩⟩
  · rcases h.chain with ⟨rfl, rfl⟩ | hchain
    · exact .last hc hmark
    · have hne : l ≠ [] := fun he => by have := hchain.head_mem; rw [he] at this; cases this
      have hfirst : first ≠ 0 := fun he => hne (h.first_zero_iff.mp he)
      rw [if_neg hfirst]
      refine hchain.snoc hm.mark_ne_cluster hc hnot ?_ hmark ?_
      · intro z hz
        rw [hlast z hz]
        exact hlink hne
      · intro x hx hxlast
        refine (hch.keeps x (hchain.node_of_mem x hx) ?_).1
        rintro (rfl | he)
        · exact hnot hx
        · exact hxlast he
  · rw [hall, length_append, length_append, length_take, hlen]
    omega
  · rw [hall, length_append, take_length_add_append]
    congr 1
    have hmin : min (buffer.take (512 * drv.bpb.sectors_per_cluster)).length buffer.length =
        (buffer.take (512 * drv.bpb.sectors_per_cluster)).length := by
      rw [length_take]
      omega
    have := congrArg (take (buffer.take (512 * drv.bpb.sectors_per_cluster)).length) hbytes
    rwa [take_take, take_length, hmin] at this

variable {Q : Option Nat → Disk → Prop}

section
variable (hm : drv.Mounted) (h : drv.Written d₀ done first l d)
include hm h

/-- A chain that is given up is freed. -/
theorem Written.does_give_up (hC : ∀ d', drv.Keeps (fun x => drv.read_fat_entry d₀ x = 0) d₀ d' → C d')
    (hQ : ∀ d', Q none d') : Does (drv.give_up first) C Q d := by
  rw [give_up]
  rcases h.chain with ⟨-, rfl⟩ | hch
  · rw [if_neg (by decide)]
    exact Does.pure (hC d h.keeps) (hQ d)
  · have h2 := (hch.node_of_mem first hch.head_mem).1
    have hC' : ∀ d', drv.Keeps (· ∈ l) d d' → C d' := fun d' h' =>
      hC d' (h.keeps.trans (h'.mono fun x hx => (h.free x hx).2))
    rw [if_pos h2]
    refine (hm.does_free_cluster_chain hch hC' ⟨rfl, rfl⟩).seq_at ?_
    refine Does.pure (hC' _ ?_) (hQ _)
    exact (hm.changes_free_entries (fun x hx => hch.node_of_mem x (mem_of_mem_take hx))
      fun x hx => mem_of_mem_take hx).keeps

/-- The new cluster is linked behind the last one. -/
theorem Written.does_link (hlast : ∀ z, l.getLast? = some z → z = previous) (hprev : previous ≥ 2 ↔ l ≠ [])
    (hc : drv.IsCluster c) (hnot : c ∉ l) (hC : ∀ d', drv.Keeps (· ∈ l ++ [c]) d d' → C d') :
    Does (drv.link_cluster previous c) C
      (fun a d' => a = true ∧ drv.Changes (fun x => x = c ∨ l.getLast? = some x) d d' ∧
        (∀ i, drv.start_lba + drv.data_start_lba ≤ i → d' i = d i) ∧
        drv.read_fat_entry d' c = 0x0FFFFFFF ∧ (l ≠ [] → drv.read_fat_entry d' previous = c))
      (drv.put_entry d drv.bpb.fat_count c 0x0FFFFFFF) := by
  have hmark : 0x0FFFFFFF % 2 ^ 28 = 0x0FFFFFFF := by decide
  have hfirst : drv.Changes (· = c) d (drv.put_entry d drv.bpb.fat_count c 0x0FFFFFFF) :=
    hm.changes_put_entry hc rfl
  have hentry : drv.read_fat_entry (drv.put_entry d drv.bpb.fat_count c 0x0FFFFFFF) c =
      0x0FFFFFFF := by
    rw [hm.read_put_entry hc (Nat.le_refl _) hc, if_pos ⟨rfl, hm.fat_count⟩, hmark]
  have hmem : ∀ x, x = c → x ∈ l ++ [c] := fun x hx => mem_snoc (.inl hx)
  rw [link_cluster]
  by_cases hl : l = []
  · rw [if_neg (fun h2 => hprev.mp h2 hl)]
    refine Does.pure (hC _ (hfirst.keeps.mono hmem)) ⟨rfl, hfirst.mono fun x => .inl, ?_, hentry, ?_⟩
    · exact fun i hi => hm.put_entry_data hc (Nat.le_refl _) hi
    · exact fun hne => absurd hl hne
  · obtain ⟨z, hz⟩ : ∃ z, l.getLast? = some z :=
      Option.isSome_iff_exists.mp (by simpa [getLast?_isSome] using hl)
    obtain rfl := hlast z hz
    have hzl := mem_of_getLast? hz
    have hzc : drv.IsCluster z := (h.free z hzl).1
    have hne : c ≠ z := fun he => hnot (he ▸ hzl)
    rw [if_pos (hprev.mpr hl)]
    refine hm.does_write_fat_entry hzc ?_ ⟨rfl, ?_, ?_, ?_, ?_⟩
    · intro k hk
      apply hC
      refine (hfirst.keeps.mono hmem).trans (hm.keeps_put_entry hzc hk ?_)
      exact mem_append_left _ hzl
    · exact (hfirst.mono fun x => .inl).trans (hm.changes_put_entry hzc (.inr hz))
    · intro i hi
      rw [hm.put_entry_data hzc (Nat.le_refl _) hi, hm.put_entry_data hc (Nat.le_refl _) hi]
    · rw [hm.read_put_entry hzc (Nat.le_refl _) hc, if_neg (fun h => hne h.1), hentry]
    · intro _
      have hsmall := hm.limit_le
      have hc2 := hc.2
      rw [hm.read_put_entry hzc (Nat.le_refl _) hzc, if_pos ⟨rfl, hm.fat_count⟩]
      exact Nat.mod_eq_of_lt (by omega)

/-- The loop writes the whole buffer, or gives up; each turn takes one more cluster. -/
theorem Mounted.does_write_chain_loop {turns : Nat} (hexact : buffer ≠ [] → drv.chain_bytes d l = done)
    (hlast : ∀ z, l.getLast? = some z → z = previous) (hprev : previous ≥ 2 ↔ l ≠ [])
    (ht : drv.limit < turns + l.length)
    (hC : ∀ d', drv.Keeps (fun x => drv.read_fat_entry d₀ x = 0) d₀ d' → C d') (hnone : ∀ d', Q none d')
    (hsome : ∀ first l d', drv.Written d₀ (done ++ buffer) first l d' → Q (some first) d') :
    Does (drv.write_chain_loop turns buffer first previous) C Q d := by
  induction turns generalizing d l first previous buffer done with
  | zero =>
    -- the chain cannot have more clusters than the volume
    rcases h.chain with ⟨rfl, -⟩ | hch
    · simp at ht
    · have := hm.chain_length hch
      omega
  | succ turns ih =>
    have hCd : C d := hC d h.keeps
    rw [write_chain_loop]
    by_cases hbuf : buffer = []
    · subst hbuf
      rw [if_pos rfl]
      rw [append_nil] at hsome
      exact Does.pure hCd (hsome _ _ _ h)
    · rw [if_neg hbuf]
      have hCnew : ∀ {c}, drv.IsCluster c → drv.read_fat_entry d c = 0 →
          ∀ d', drv.Keeps (· ∈ l ++ [c]) d d' → C d' := by
        intro c hc h0 d' hd'
        refine hC d' (h.keeps.trans (hd'.mono (forall_mem_append.mpr ⟨?_, ?_⟩)))
        · exact fun x hx => (h.free x hx).2
        · exact forall_mem_singleton.mpr (h.fresh hc h0).2
      refine Does.seq (R := fun a d₁ => a = none ∧ d = d₁ ∨ ∃ c, a = some c ∧ drv.IsCluster c ∧
        drv.read_fat_entry d c = 0 ∧ d₁ = drv.put_entry d drv.bpb.fat_count c 0x0FFFFFFF)
        (hm.does_alloc hCd (fun _ => .inl ⟨rfl, rfl⟩) ?_
          fun c hc h0 => .inr ⟨c, rfl, hc, h0, rfl⟩) ?_
      · intro c hc h0 k hk
        apply hCnew hc h0
        exact hm.keeps_put_entry hc hk (mem_append_right _ mem_cons_self)
      · rintro a d₁ (⟨rfl, rfl⟩ | ⟨c, rfl, hc, h0, rfl⟩)
        · exact h.does_give_up hm hC hnone
        · obtain ⟨hnot, hfree⟩ := h.fresh hc h0
          refine Does.seq (h.does_link hm hlast hprev hc hnot (hCnew hc h0)) ?_
          rintro _ d₂ ⟨rfl, hch₂, hdata₂, hend₂, hlink₂⟩
          rw [if_neg (by simp)]
          have hC₂ : ∀ d', drv.Changes (· = c) d₂ d' → C d' := by
            intro d' hd'
            refine hCnew hc h0 d' ((hch₂.keeps.mono fun x => mem_snoc).trans (hd'.keeps.mono ?_))
            exact fun x hx => mem_snoc (.inl hx)
          refine Does.seq (R := fun a d₃ =>
            a = some (buffer.drop (512 * drv.bpb.sectors_per_cluster)) ∧
            drv.Changes (· = c) d₂ d₃ ∧ drv.read_fat_entry d₃ c = drv.read_fat_entry d₂ c ∧
            (drv.cluster_bytes d₃ c).take buffer.length =
              buffer.take (512 * drv.bpb.sectors_per_cluster))
            (hm.does_write_sectors hc (fun off ho => mem_range.mp ho) nodup_range hC₂ ?_) ?_
          · intro d₃ hch₃ hfat₃ _ hbytes₃
            rw [length_range] at hbytes₃ ⊢
            exact ⟨rfl, hch₃, hfat₃, hbytes₃⟩
          · rintro _ d₃ ⟨rfl, hch₃, hfat₃, hbytes₃⟩
            -- the new chain on the last of the disks
            have hdata : ∀ x ∈ l, ∀ off < drv.bpb.sectors_per_cluster,
                d₃ (drv.sector_place x off) = d (drv.sector_place x off) := by
              intro x hx off ho
              rw [(hch₃.keeps x (h.free x hx).1 (fun he => hnot (he ▸ hx))).2 off ho]
              exact hdata₂ _ (sector_place_ge ..)
            have hlink₃ : l ≠ [] → drv.read_fat_entry d₃ previous = c := by
              intro hne
              obtain ⟨z, hz⟩ : ∃ z, l.getLast? = some z :=
                Option.isSome_iff_exists.mp (by simpa [getLast?_isSome] using hne)
              obtain rfl := hlast z hz
              have hzl := mem_of_getLast? hz
              rw [(hch₃.keeps z (h.free z hzl).1 (fun he => hnot (he ▸ hzl))).1]
              exact hlink₂ hne
            have hw := h.snoc hm (hexact hbuf) hlast hc h0
              (hch₂.trans (hch₃.mono fun x => .inl)) hdata (hfat₃.trans hend₂) hlink₃ hbytes₃
            have hfull : buffer.drop (512 * drv.bpb.sectors_per_cluster) ≠ [] →
                drv.chain_bytes d₃ (l ++ [c]) =
                  done ++ buffer.take (512 * drv.bpb.sectors_per_cluster) := by
              intro hne
              have hlen := congrArg length (hexact hbuf)
              rw [length_chain_bytes] at hlen
              have hmore : 512 * drv.bpb.sectors_per_cluster ≤ buffer.length := by
                rw [ne_eq, drop_eq_nil_iff] at hne
                omega
              rw [← hw.bytes]
              symm
              apply take_of_length_le
              rw [length_chain_bytes, length_append, length_append, length_take,
                ← hlen, Nat.min_eq_left hmore, length_singleton, Nat.add_mul, Nat.one_mul,
                Nat.mul_comm 512]
            refine ih hw hfull ?_ ?_ ?_ ?_
            · intro z hz
              simpa using hz.symm
            · simpa using hc.1
            · rw [length_append, length_singleton]
              omega
            · rw [append_assoc, take_append_drop]
              exact hsome

end

/-- The buffer is written to clusters that were free, or the chain is given up. -/
theorem Mounted.does_write_cluster_chain (hm : drv.Mounted) {turns : Nat} (ht : drv.limit < turns)
    (hC : ∀ d', drv.Keeps (fun x => drv.read_fat_entry d x = 0) d d' → C d') (hnone : ∀ d', Q none d')
    (hsome : ∀ first l d', drv.Written d buffer first l d' → Q (some first) d') :
    Does (drv.write_cluster_chain turns buffer) C Q d := by
  have hw : drv.Written d [] 0 [] d := by
    refine ⟨Changes.refl _ _ _, ?_, .inl ⟨rfl, rfl⟩, Nat.zero_le _, rfl⟩
    intro x hx
    cases hx
  rw [write_cluster_chain, if_neg (by simp [hm.initialized])]
  refine hm.does_write_chain_loop hw (fun _ => rfl) ?_ (by simp) (by simpa using ht) hC hnone hsome
  intro z hz
  cases hz

end

end FAT32Driver

end mini_kernel.fat32
