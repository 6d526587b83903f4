import Mathlib.Data.List.GetD
import XBlast.Fatx.Directory

/-!
# The table of a directory

A `DirTable` is a volume with the chain of clusters of one of its directories. The entries of the
directory are numbered from zero on along the chain, and `AtSlot` says that a directory object is at
an entry. `dirNext_spec` shows that `dir_next` goes from one entry to the next. A directory without
another entry gets a cluster of zeros if it may be stretched, and all other entries stay where they
were (`DirTable.Grows`).

This rests on what `DirGeometry` says about a volume: that different clusters do not overlap each
other or the FAT. A FATX volume of which the FAT has room for all clusters is such a volume
(`FatxVolume.dirGeometry`).
-/

set_option autoImplicit false
set_option relaxedAutoImplicit false

namespace XBlast.Fatx

open Foundation Disk List

variable {δ : Type}

/-- The clusters of a volume lie apart from each other and from the FAT. -/
structure DirGeometry (fs : FatFs) : Prop where
  fatx : IsFatxFs fs
  nFats : fs.nFats ≠ 2
  csize : ∃ exponent ≤ 7, fs.csize.toNat = 2 ^ exponent
  valid : ∀ clst, Accepted fs clst → clst2sect fs clst ≠ 0
  bound : ∀ clst, Accepted fs clst → (clst2sect fs clst).toNat + fs.csize.toNat ≤ 2 ^ 32
  apart : ∀ clst other, Accepted fs clst → Accepted fs other → clst ≠ other →
    (clst2sect fs clst).toNat + fs.csize.toNat ≤ (clst2sect fs other).toNat ∨
      (clst2sect fs other).toNat + fs.csize.toNat ≤ (clst2sect fs clst).toNat
  fatApart : ∀ clst other, Accepted fs clst → Accepted fs other →
    entryAddress fs other + entryWidth fs ≤ 512 * (clst2sect fs clst).toNat ∨
      512 * ((clst2sect fs clst).toNat + fs.csize.toNat) ≤ entryAddress fs other

/-- The clusters lie one behind the other, and the FAT lies before them. -/
theorem dirGeometry_of_layout {fs : FatFs} (hfatx : IsFatxFs fs) (hfats : fs.nFats ≠ 2)
    (hcsize : ∃ exponent ≤ 7, fs.csize.toNat = 2 ^ exponent)
    (hsector : ∀ clst, Accepted fs clst →
      (clst2sect fs clst).toNat = fs.database.toNat + fs.csize.toNat * (clst.toNat - 1))
    (hbound : fs.database.toNat + fs.csize.toNat * (fs.nFatent.toNat - 1) ≤ 2 ^ 32)
    (hfat : ∀ clst, Accepted fs clst →
      entryAddress fs clst + entryWidth fs ≤ 512 * fs.database.toNat) : DirGeometry fs := by
  have hbefore {first second : ℕ} (hfirst : 1 ≤ first) (hlt : first < second) :
      fs.csize.toNat * (first - 1) + fs.csize.toNat ≤ fs.csize.toNat * (second - 1) := by
    rw [← Nat.mul_succ]
    exact Nat.mul_le_mul_left _ (by omega)
  refine ⟨hfatx, hfats, hcsize, fun clst hclst hzero ↦ ?_, fun clst hclst ↦ ?_,
    fun clst other hclst hother hne ↦ ?_, fun clst other hclst hother ↦ ?_⟩
  · have hplace := hsector clst hclst
    have hentry := hfat clst hclst
    rw [hzero, UInt32.toNat_zero] at hplace
    rcases entryWidth_eq fs with hwidth | hwidth
    · omega
    · omega
  · obtain ⟨hlow, hhigh⟩ := (hfatx.accepted_iff clst).mp hclst
    have hnext := hbefore hlow hhigh
    rw [hsector clst hclst]
    omega
  · obtain ⟨hlow, -⟩ := (hfatx.accepted_iff clst).mp hclst
    obtain ⟨hlow', -⟩ := (hfatx.accepted_iff other).mp hother
    rw [hsector clst hclst, hsector other hother]
    rcases Nat.lt_or_gt_of_ne fun heq ↦ hne (UInt32.toNat_inj.mp heq) with hlt | hlt
    · have hnext := hbefore hlow hlt
      omega
    · have hnext := hbefore hlow' hlt
      omega
  · have hplace := hsector clst hclst
    have hentry := hfat other hother
    omega

/-- A FATX volume of which the FAT has room for all clusters. -/
theorem FatxVolume.dirGeometry {fs : FatFs} (hvolume : FatxVolume fs) (hcsize : ClusterSize fs)
    (hend : partitionEnd fs + fs.csize.toNat ≤ 2 ^ 32) (hfats : fs.nFats ≠ 2)
    (hroom : entryWidth fs * fs.nFatent.toNat ≤ 512 * fs.fsize.toNat) : DirGeometry fs := by
  have hpos := hcsize.pos
  have hnumbers := hvolume.numbers hcsize (by omega)
  have hfatx : IsFatxFs fs := by
    rw [IsFatxFs, hvolume.fsTypex]
    exact fatxType_isFatx _
  have hcount : fs.csize.toNat * (fs.nFatent.toNat - 2) ≤
      fs.fatxPartitionEntry.lbaSize.toNat - (8 + fs.fsize.toNat) := by
    rw [hnumbers.nFatent, Nat.add_sub_cancel]
    exact Nat.mul_div_le _ _
  have hfatbase := hnumbers.fatbase
  have hdatabase := hnumbers.database
  have hlower := hnumbers.room
  refine dirGeometry_of_layout hfatx hfats ?_
    (fun clst hclst ↦ clst2sect_toNat hnumbers hclst) ?_ fun clst hclst ↦ ?_
  · rcases hcsize.toNat with hcsize | hcsize | hcsize
    · exact ⟨5, by decide, hcsize⟩
    · exact ⟨6, by decide, hcsize⟩
    · exact ⟨7, by decide, hcsize⟩
  · have hlast : fs.csize.toNat * (fs.nFatent.toNat - 1) =
        fs.csize.toNat * (fs.nFatent.toNat - 2) + fs.csize.toNat := by
      rw [← Nat.mul_succ, hnumbers.nFatent]
      rfl
    rw [partitionEnd] at hend
    omega
  · obtain ⟨-, hhigh⟩ := (hfatx.accepted_iff clst).mp hclst
    have hwidth : entryWidth fs * clst.toNat + entryWidth fs ≤ 512 * fs.fsize.toNat := by
      exact (Nat.mul_le_mul_left _ hhigh).trans hroom
    rw [entryAddress_eq_entryStart, entryStart]
    · omega
    · have hstop := hnumbers.stop
      omega

/-- The chain of clusters of a directory. -/
structure DirChain (fs : FatFs) (content : Bytes) (clusters : List UInt32) : Prop where
  length_pos : 0 < clusters.length
  accepted : ∀ clst ∈ clusters, Accepted fs clst
  nodup : clusters.Nodup
  next : ∀ index, index + 1 < clusters.length →
    fatValue fs content (clusters.getD index 0) = clusters.getD (index + 1) 0 ∧
      2 ≤ (clusters.getD (index + 1) 0).toNat
  last : fs.nFatent.toNat ≤ (fatValue fs content (clusters.getD (clusters.length - 1) 0)).toNat

/-- A volume with the clusters of a directory. -/
structure DirTable where
  fs : FatFs
  content : Bytes
  clusters : List UInt32
  geometry : DirGeometry fs
  chain : DirChain fs content clusters

namespace DirTable

variable (table : DirTable)

/-- The number of entries in a cluster. -/
def slotsPerCluster : ℕ := 8 * table.fs.csize.toNat

/-- The number of entries that can be reached. -/
def count : ℕ := min (table.slotsPerCluster * table.clusters.length) 4096

variable (slot : ℕ)

/-- The cluster of an entry. -/
def cluster : UInt32 := table.clusters.getD (slot / table.slotsPerCluster) 0

/-- The sector of an entry. -/
def sector : UInt32 :=
  clst2sect table.fs (table.cluster slot) + UInt32.ofNat (slot % table.slotsPerCluster / 8)

/-- Where an entry starts, in bytes. -/
def address : ℕ :=
  512 * (clst2sect table.fs (table.cluster slot)).toNat + 64 * (slot % table.slotsPerCluster)

/-- The bytes of an entry. -/
def entry : Bytes := fun index ↦ table.content (table.address slot + index)

/-- The last cluster. -/
def lastCluster : UInt32 := table.clusters.getD (table.clusters.length - 1) 0

end DirTable

/-- A directory object has come to an entry, though maybe without its sector. -/
structure OnSlot (table : DirTable) (slot : ℕ) (dp : Dir) : Prop where
  dptr : dp.dptr = UInt32.ofNat (64 * slot)
  clust : dp.clust = table.cluster slot

/-- A directory object points to an entry. -/
structure AtSlot (table : DirTable) (slot : ℕ) (dp : Dir) : Prop extends OnSlot table slot dp where
  sect : dp.sect = table.sector slot

/-! ### Places -/

variable {clst : UInt32}

namespace DirTable

section

variable {table : DirTable} {slot : ℕ}

theorem csize_pos (table : DirTable) : 0 < table.fs.csize.toNat := by
  obtain ⟨exponent, -, hcsize⟩ := table.geometry.csize
  rw [hcsize]
  exact Nat.two_pow_pos exponent

theorem slots_pos (table : DirTable) : 0 < table.slotsPerCluster :=
  mul_pos (by decide) table.csize_pos

theorem eight_dvd_slots (table : DirTable) : 8 ∣ table.slotsPerCluster :=
  Dvd.intro _ rfl

/-- Whole clusters fill a directory up to the limit. -/
theorem slots_dvd (table : DirTable) : table.slotsPerCluster ∣ 4096 := by
  obtain ⟨exponent, hexponent, hcsize⟩ := table.geometry.csize
  rw [slotsPerCluster, hcsize, show 8 * 2 ^ exponent = 2 ^ (exponent + 3) by ring,
    show 4096 = 2 ^ 12 by decide]
  exact pow_dvd_pow 2 (by omega)

theorem slot_lt (hslot : slot < table.count) :
    slot < table.slotsPerCluster * table.clusters.length ∧ slot < 4096 :=
  lt_min_iff.mp hslot

theorem cluster_lt (hslot : slot < table.count) :
    slot / table.slotsPerCluster < table.clusters.length :=
  Nat.div_lt_of_lt_mul (slot_lt hslot).1

theorem count_pos (table : DirTable) : 0 < table.count :=
  lt_min_iff.mpr ⟨mul_pos table.slots_pos table.chain.length_pos, by decide⟩

theorem cluster_mem (hslot : slot < table.count) : table.cluster slot ∈ table.clusters := by
  rw [cluster, getD_eq_getElem _ _ (cluster_lt hslot)]
  exact getElem_mem _

theorem accepted (hslot : slot < table.count) : Accepted table.fs (table.cluster slot) :=
  table.chain.accepted _ (cluster_mem hslot)

theorem lastCluster_mem (table : DirTable) : table.lastCluster ∈ table.clusters := by
  have hpos := table.chain.length_pos
  rw [lastCluster, getD_eq_getElem _ _ (by omega)]
  exact getElem_mem _

/-- An entry lies in its cluster. -/
theorem address_inside (table : DirTable) (slot : ℕ) :
    512 * (clst2sect table.fs (table.cluster slot)).toNat ≤ table.address slot ∧
      table.address slot + 64 ≤
        512 * ((clst2sect table.fs (table.cluster slot)).toNat + table.fs.csize.toNat) := by
  have hlt := Nat.mod_lt slot table.slots_pos
  rw [address]
  rw [slotsPerCluster] at hlt ⊢
  omega

section

variable (hslot : slot < table.count)

include hslot

theorem sector_toNat :
    (table.sector slot).toNat =
      (clst2sect table.fs (table.cluster slot)).toNat + slot % table.slotsPerCluster / 8 := by
  have hbound := table.geometry.bound _ (accepted hslot)
  have hlt := Nat.mod_lt slot table.slots_pos
  have hfour := (slot_lt hslot).2
  have hle := Nat.mod_le slot table.slotsPerCluster
  rw [slotsPerCluster] at hlt
  rw [sector, UInt32.toNat_add,
    UInt32.toNat_ofNat_of_lt' (show slot % table.slotsPerCluster / 8 < 2 ^ 32 by omega)]
  rw [slotsPerCluster] at hle ⊢
  omega

theorem sector_ne_zero : table.sector slot ≠ 0 := by
  intro hzero
  have hsector := sector_toNat hslot
  have hvalid := table.geometry.valid _ (accepted hslot)
  rw [hzero, UInt32.toNat_zero] at hsector
  exact hvalid (UInt32.toNat_inj.mp (Nat.eq_zero_of_add_eq_zero_right hsector.symm))

/-- An entry in the window. -/
theorem address_eq : table.address slot = 512 * (table.sector slot).toNat + 64 * (slot % 8) := by
  have hmod := Nat.mod_mod_of_dvd slot table.eight_dvd_slots
  rw [sector_toNat hslot, address]
  omega

/-- Different entries do not overlap. -/
theorem address_apart {other : ℕ} (hother : other < table.count) (hne : slot ≠ other) :
    table.address slot + 64 ≤ table.address other ∨
      table.address other + 64 ≤ table.address slot := by
  by_cases hcluster : slot / table.slotsPerCluster = other / table.slotsPerCluster
  · have hsame : table.cluster slot = table.cluster other := by
      rw [cluster, cluster, hcluster]
    have hmod : slot % table.slotsPerCluster ≠ other % table.slotsPerCluster := by
      intro heq
      have hdiv := Nat.div_add_mod slot table.slotsPerCluster
      rw [hcluster, heq, Nat.div_add_mod] at hdiv
      exact hne hdiv.symm
    rw [address, address, hsame]
    omega
  · have hdifferent : table.cluster slot ≠ table.cluster other := by
      rw [cluster, cluster, getD_eq_getElem _ _ (cluster_lt hslot),
        getD_eq_getElem _ _ (cluster_lt hother)]
      exact fun heq ↦ hcluster ((List.Nodup.getElem_inj_iff table.chain.nodup).mp heq)
    have hapart := table.geometry.apart _ _ (accepted hslot) (accepted hother) hdifferent
    have hinside := table.address_inside slot
    have hinside' := table.address_inside other
    omega

/-- An entry does not overlap the FAT. -/
theorem address_fatApart (hclst : Accepted table.fs clst) :
    entryAddress table.fs clst + entryWidth table.fs ≤ table.address slot ∨
      table.address slot + 64 ≤ entryAddress table.fs clst := by
  have hapart := table.geometry.fatApart _ clst (accepted hslot) hclst
  have hinside := table.address_inside slot
  omega

end

end

/-! ### The place of the next entry -/

section

variable {table : DirTable} {slot : ℕ}

theorem succ_div_mod {count : ℕ} (hdvd : (slot + 1) % count ≠ 0) :
    (slot + 1) / count = slot / count ∧ (slot + 1) % count = slot % count + 1 := by
  have hdiv : (slot + 1) / count = slot / count := by
    rw [Nat.succ_div, if_neg fun hdvd' ↦ hdvd (Nat.mod_eq_zero_of_dvd hdvd'), add_zero]
  have hsplit := Nat.div_add_mod slot count
  have hsplit' := Nat.div_add_mod (slot + 1) count
  rw [hdiv] at hsplit'
  exact ⟨hdiv, by omega⟩

/-- A cluster ends with a sector. -/
theorem mod_slots_ne_zero (table : DirTable) (hdvd : (slot + 1) % 8 ≠ 0) :
    (slot + 1) % table.slotsPerCluster ≠ 0 := fun hzero ↦
  hdvd (Nat.mod_eq_zero_of_dvd
    (Nat.dvd_trans table.eight_dvd_slots (Nat.dvd_of_mod_eq_zero hzero)))

/-- The next entry in the same sector. -/
theorem succ_sector (hdvd : (slot + 1) % 8 ≠ 0) :
    table.cluster (slot + 1) = table.cluster slot ∧
      table.sector (slot + 1) = table.sector slot := by
  obtain ⟨hdiv, hmod⟩ := succ_div_mod (table.mod_slots_ne_zero hdvd)
  have hsame : table.cluster (slot + 1) = table.cluster slot := by rw [cluster, cluster, hdiv]
  have hrest := Nat.mod_mod_of_dvd slot table.eight_dvd_slots
  refine ⟨hsame, ?_⟩
  rw [sector, sector, hsame, hmod]
  congr 2
  omega

/-- The next entry in the next sector of the cluster. -/
theorem succ_cluster (hsector : (slot + 1) % 8 = 0)
    (hcluster : (slot + 1) % table.slotsPerCluster ≠ 0) :
    table.cluster (slot + 1) = table.cluster slot ∧
      table.sector (slot + 1) = table.sector slot + 1 := by
  obtain ⟨hdiv, hmod⟩ := succ_div_mod hcluster
  have hsame : table.cluster (slot + 1) = table.cluster slot := by rw [cluster, cluster, hdiv]
  have hrest := Nat.mod_mod_of_dvd slot table.eight_dvd_slots
  have hquotient : (slot % table.slotsPerCluster + 1) / 8 =
      slot % table.slotsPerCluster / 8 + 1 := by
    omega
  refine ⟨hsame, ?_⟩
  rw [sector, sector, hsame, hmod, hquotient, UInt32.ofNat_add, UInt32.add_assoc]
  rfl

/-- The first entry of the next cluster. -/
theorem succ_new (hcluster : (slot + 1) % table.slotsPerCluster = 0) :
    table.cluster (slot + 1) = table.clusters.getD (slot / table.slotsPerCluster + 1) 0 ∧
      table.sector (slot + 1) = clst2sect table.fs (table.cluster (slot + 1)) := by
  constructor
  · rw [cluster, Nat.succ_div, if_pos (Nat.dvd_of_mod_eq_zero hcluster)]
  · rw [sector, hcluster]
    exact UInt32.add_zero _

/-- A directory ends with a cluster. -/
theorem succ_lt (hslot : slot < table.count) (hcluster : (slot + 1) % table.slotsPerCluster ≠ 0) :
    slot + 1 < table.count := by
  obtain ⟨htable, hlimit⟩ := slot_lt hslot
  refine lt_min_iff.mpr ⟨lt_of_le_of_ne htable fun heq ↦ hcluster ?_,
    lt_of_le_of_ne hlimit fun heq ↦ hcluster ?_⟩
  · rw [heq, Nat.mul_mod_right]
  · rw [heq, Nat.mod_eq_zero_of_dvd table.slots_dvd]

/-- The first entry behind a cluster, below the limit. -/
theorem succ_lt_iff (hcluster : (slot + 1) % table.slotsPerCluster = 0) (hlimit : slot + 1 < 4096) :
    slot + 1 < table.count ↔ slot / table.slotsPerCluster + 1 < table.clusters.length := by
  have hmul := Nat.div_add_mod (slot + 1) table.slotsPerCluster
  rw [hcluster, Nat.succ_div, if_pos (Nat.dvd_of_mod_eq_zero hcluster), add_zero] at hmul
  rw [count, lt_min_iff, and_iff_left hlimit, ← hmul]
  exact Nat.mul_lt_mul_left table.slots_pos

/-- An entry without a cluster behind its own is in the last one. -/
theorem cluster_eq_lastCluster (hslot : slot < table.count)
    (hend : ¬ slot / table.slotsPerCluster + 1 < table.clusters.length) :
    table.cluster slot = table.lastCluster := by
  have hlast : table.clusters.length - 1 = slot / table.slotsPerCluster :=
    le_antisymm (Nat.sub_le_of_le_add (not_lt.mp hend))
      (Nat.le_sub_one_of_lt (cluster_lt hslot))
  rw [cluster, lastCluster, hlast]

/-- The clusters end with such an entry. -/
theorem slots_le_of_last (hcluster : (slot + 1) % table.slotsPerCluster = 0)
    (hend : ¬ slot / table.slotsPerCluster + 1 < table.clusters.length) :
    table.slotsPerCluster * table.clusters.length ≤ slot + 1 := by
  have hmul := Nat.div_add_mod (slot + 1) table.slotsPerCluster
  rw [hcluster, Nat.succ_div, if_pos (Nat.dvd_of_mod_eq_zero hcluster), add_zero] at hmul
  rw [← hmul]
  exact Nat.mul_le_mul_left _ (not_lt.mp hend)

end

end DirTable

/-! ### The offset of an entry -/

section

theorem offset_succ (slot : ℕ) :
    UInt32.ofNat (64 * slot) + 64 = UInt32.ofNat (64 * (slot + 1)) := by
  rw [mul_add, UInt32.ofNat_add]
  rfl

variable {slot : ℕ} (hslot : slot < 4096)

include hslot

theorem toNat_offset_succ : (UInt32.ofNat (64 * (slot + 1))).toNat = 64 * (slot + 1) :=
  UInt32.toNat_ofNat_of_lt' (show 64 * (slot + 1) < 2 ^ 32 by omega)

theorem offset_mod_eq_zero_iff :
    UInt32.ofNat (64 * (slot + 1)) % 512 = 0 ↔ (slot + 1) % 8 = 0 := by
  rw [← UInt32.toNat_inj, UInt32.toNat_mod, toNat_offset_succ hslot,
    show (512 : UInt32).toNat = 512 from rfl, UInt32.toNat_zero]
  omega

theorem limit_le_offset_iff : 4096 * 64 ≤ UInt32.ofNat (64 * (slot + 1)) ↔ slot + 1 = 4096 := by
  rw [UInt32.le_iff_toNat_le, toNat_offset_succ hslot,
    show (4096 * 64 : UInt32).toNat = 262144 from rfl]
  omega

theorem offset_cluster_iff (table : DirTable) (hsector : (slot + 1) % 8 = 0) :
    UInt32.ofNat (64 * (slot + 1)) / 512 &&& (table.fs.csize - 1).toUInt32 = 0 ↔
      (slot + 1) % table.slotsPerCluster = 0 := by
  obtain ⟨exponent, -, hcsize⟩ := table.geometry.csize
  have hone : 1 ≤ table.fs.csize := UInt16.le_iff_toNat_le.mpr table.csize_pos
  have hdiv : 64 * (slot + 1) / 512 = (slot + 1) / 8 := by omega
  rw [← UInt32.toNat_inj, UInt32.toNat_and, UInt32.toNat_div, toNat_offset_succ hslot,
    UInt16.toNat_toUInt32, UInt16.toNat_sub_of_le _ _ hone, hcsize,
    show (512 : UInt32).toNat = 512 from rfl, show (1 : UInt16).toNat = 1 from rfl,
    Nat.and_two_pow_sub_one_eq_mod, hdiv, UInt32.toNat_zero, DirTable.slotsPerCluster, hcsize,
    Nat.mod_mul, hsector, zero_add]
  omega

end

/-! ### Changes of a volume -/

/-- What the functions for directories leave alone: all but the window and the notes about free
clusters. -/
def FatFs.layout (fs : FatFs) : FatFs :=
  { fs with
    wflag := false
    fsiFlag := 0
    lastClst := 0
    freeClst := 0
    winsect := 0
    win := fun _ ↦ 0 }

theorem part_of_layout {β : Type} {fs fs' : FatFs} (hlayout : fs'.layout = fs.layout)
    (part : FatFs → β) (hpart : ∀ fs : FatFs, part fs.layout = part fs) : part fs' = part fs := by
  rw [← hpart fs', hlayout, hpart]

/-- Another state of a volume in which only some clusters and their entries in the FAT may have
changed. -/
structure Leaves (owned : List UInt32) (fs : FatFs) (content : Bytes) (fs' : FatFs)
    (content' : Bytes) : Prop where
  layout : fs'.layout = fs.layout
  bytes : ∀ clst, Accepted fs clst → clst ∉ owned → ∀ index < 512 * fs.csize.toNat,
    content' (512 * (clst2sect fs clst).toNat + index) =
      content (512 * (clst2sect fs clst).toNat + index)
  entries : ∀ clst, Accepted fs clst → clst ∉ owned →
    fatValue fs content' clst = fatValue fs content clst

section

variable {owned : List UInt32} {fs fs' : FatFs} {content content' : Bytes}

theorem Leaves.refl (owned : List UInt32) (fs : FatFs) (content : Bytes) :
    Leaves owned fs content fs content :=
  ⟨rfl, fun _ _ _ _ _ ↦ rfl, fun _ _ _ ↦ rfl⟩

section

variable (hleaves : Leaves owned fs content fs' content')

include hleaves

theorem Leaves.csize : fs'.csize = fs.csize :=
  part_of_layout hleaves.layout FatFs.csize fun _ ↦ rfl

theorem Leaves.nFatent :
    fs'.nFatent = fs.nFatent :=
  part_of_layout hleaves.layout FatFs.nFatent fun _ ↦ rfl

theorem Leaves.dirbase :
    fs'.dirbase = fs.dirbase :=
  part_of_layout hleaves.layout FatFs.dirbase fun _ ↦ rfl

theorem Leaves.sectors :
    clst2sect fs' = clst2sect fs :=
  part_of_layout hleaves.layout clst2sect fun _ ↦ rfl

theorem Leaves.accepted :
    Accepted fs' = Accepted fs :=
  part_of_layout hleaves.layout Accepted fun _ ↦ rfl

theorem Leaves.fatValue :
    fatValue fs' = fatValue fs :=
  part_of_layout hleaves.layout Fatx.fatValue fun _ ↦ rfl

end

theorem Leaves.trans {last : FatFs} {final : Bytes}
    (hfirst : Leaves owned fs content fs' content')
    (hsecond : Leaves owned fs' content' last final) : Leaves owned fs content last final := by
  refine ⟨hsecond.layout.trans hfirst.layout, fun clst hclst hfree index hindex ↦ ?_,
    fun clst hclst hfree ↦ ?_⟩
  · have hmiddle := hsecond.bytes clst (hfirst.accepted ▸ hclst) hfree index
      (hfirst.csize ▸ hindex)
    rw [hfirst.sectors] at hmiddle
    exact hmiddle.trans (hfirst.bytes clst hclst hfree index hindex)
  · have hmiddle := hsecond.entries clst (hfirst.accepted ▸ hclst) hfree
    rw [hfirst.fatValue] at hmiddle
    exact hmiddle.trans (hfirst.entries clst hclst hfree)

theorem Leaves.mono {more : List UInt32} (hleaves : Leaves owned fs content fs' content')
    (hmore : ∀ clst ∈ owned, clst ∈ more) : Leaves more fs content fs' content' :=
  ⟨hleaves.layout, fun clst hclst hfree ↦ hleaves.bytes clst hclst fun hmem ↦ hfree (hmore _ hmem),
    fun clst hclst hfree ↦ hleaves.entries clst hclst fun hmem ↦ hfree (hmore _ hmem)⟩

/-- A cluster that is free, and that is not one of those that may have changed. -/
theorem Leaves.free_iff (hleaves : Leaves owned fs content fs' content') (hfatx : IsFatxFs fs)
    (hclst : clst ∉ owned) :
    FreeCluster fs' content' clst ↔ FreeCluster fs content clst := by
  have hsame (hlow : 2 ≤ clst.toNat) (hhigh : clst.toNat < fs.nFatent.toNat) :
      Fatx.fatValue fs content' clst = Fatx.fatValue fs content clst :=
    hleaves.entries clst ((hfatx.accepted_iff clst).mpr ⟨Nat.le_of_succ_le hlow, hhigh⟩) hclst
  constructor
  · rintro ⟨hlow, hhigh, hfree⟩
    rw [hleaves.nFatent] at hhigh
    rw [hleaves.fatValue, hsame hlow hhigh] at hfree
    exact ⟨hlow, hhigh, hfree⟩
  · rintro ⟨hlow, hhigh, hfree⟩
    refine ⟨hlow, hleaves.nFatent ▸ hhigh, ?_⟩
    rw [hleaves.fatValue, hsame hlow hhigh]
    exact hfree

theorem DirGeometry.of_layout (hgeometry : DirGeometry fs) (hlayout : fs'.layout = fs.layout) :
    DirGeometry fs' := by
  have hshared : DirGeometry fs.layout := { hgeometry with }
  rw [← hlayout] at hshared
  exact { hshared with }

end

/-! ### Storing to an entry -/

/-- A chain depends on the entries of the FAT only. -/
theorem DirChain.congr {fs : FatFs} {content other : Bytes} {clusters : List UInt32}
    (hchain : DirChain fs content clusters)
    (hsame : ∀ clst ∈ clusters, fatValue fs other clst = fatValue fs content clst) :
    DirChain fs other clusters := by
  have hvalue (index : ℕ) (hindex : index < clusters.length) :
      fatValue fs other (clusters.getD index 0) = fatValue fs content (clusters.getD index 0) := by
    rw [getD_eq_getElem _ _ hindex]
    exact hsame _ (getElem_mem hindex)
  have hpos := hchain.length_pos
  refine ⟨hpos, hchain.accepted, hchain.nodup, fun index hindex ↦ ?_, ?_⟩
  · rw [hvalue index (by omega)]
    exact hchain.next index hindex
  · rw [hvalue _ (by omega)]
    exact hchain.last

/-- Bytes of an entry are no bytes of the FAT. -/
theorem DirTable.fatValue_overlay {table : DirTable} {slot : ℕ} (hslot : slot < table.count)
    {offset length : ℕ} (hlength : offset + length ≤ 64) (patch : Bytes)
    (hclst : Accepted table.fs clst) :
    fatValue table.fs (overlay table.content (table.address slot + offset) length patch) clst =
      fatValue table.fs table.content clst := by
  refine fatValue_congr fun index hindex ↦ overlay_outside ?_
  have hapart := address_fatApart hslot hclst
  omega

/-- The table with some bytes of an entry replaced. -/
def DirTable.store (table : DirTable) {slot : ℕ} (hslot : slot < table.count) {offset length : ℕ}
    (hlength : offset + length ≤ 64) (patch : Bytes) : DirTable where
  fs := table.fs
  content := overlay table.content (table.address slot + offset) length patch
  clusters := table.clusters
  geometry := table.geometry
  chain := table.chain.congr fun _ hclst ↦
    fatValue_overlay hslot hlength patch (table.chain.accepted _ hclst)

variable {index : ℕ}

section

variable {table : DirTable} {slot : ℕ} (hslot : slot < table.count) {offset length : ℕ}
  (hlength : offset + length ≤ 64) (patch : Bytes)

theorem DirTable.store_lt : slot < (table.store hslot hlength patch).count :=
  hslot

/-- The entry that is stored to. -/
theorem DirTable.store_entry :
    (table.store hslot hlength patch).entry slot index =
      overlay (table.entry slot) offset length patch index :=
  (overlay_shift rfl).symm

theorem DirTable.store_entry_of_ne {other : ℕ} (hother : other < table.count) (hne : other ≠ slot)
    (hindex : index < 64) :
    (table.store hslot hlength patch).entry other index = table.entry other index := by
  refine overlay_outside ?_
  have hapart := address_apart hother hslot hne
  change table.address other + index < table.address slot + offset ∨
    table.address slot + offset + length ≤ table.address other + index
  omega

end

/-! ### Another cluster -/

/-- Another state of a directory: it may have more clusters, which were free, and nothing else on
the volume has changed. -/
structure DirTable.Changes (table next : DirTable) : Prop where
  more : ∃ added, next.clusters = table.clusters ++ added
  taken : ∀ clst ∈ next.clusters, clst ∈ table.clusters ∨ FreeCluster table.fs table.content clst
  leaves : Leaves next.clusters table.fs table.content next.fs next.content

/-- A table with more entries, all of them zero, and otherwise the same. -/
structure DirTable.Grows (table next : DirTable) : Prop extends DirTable.Changes table next where
  count : table.count ≤ next.count
  kept : ∀ slot < table.count, ∀ index < 64, next.entry slot index = table.entry slot index
  zero : ∀ slot < next.count, table.count ≤ slot → ∀ index < 64, next.entry slot index = 0

section

variable {table next last : DirTable}

/-- A free cluster belongs to no directory. -/
theorem FreeCluster.not_mem {ncl : UInt32} (hfree : FreeCluster table.fs table.content ncl) :
    ncl ∉ table.clusters := by
  intro hmem
  obtain ⟨index, hindex, rfl⟩ := getElem_of_mem hmem
  have hvalue := hfree.free
  by_cases hnext : index + 1 < table.clusters.length
  · obtain ⟨hchain, htwo⟩ := table.chain.next index hnext
    rw [getD_eq_getElem _ _ hindex, hvalue] at hchain
    rw [← hchain] at htwo
    exact absurd htwo (by decide)
  · have hlast := table.chain.last
    have hsame : index = table.clusters.length - 1 := by omega
    rw [← hsame, getD_eq_getElem _ _ hindex, hvalue] at hlast
    exact absurd hlast (not_le.mpr (lt_of_le_of_lt (Nat.zero_le _) hfree.lt))

theorem DirTable.Changes.refl (table : DirTable) : table.Changes table :=
  ⟨⟨[], (append_nil _).symm⟩, fun _ hclst ↦ .inl hclst, .refl _ _ _⟩

theorem DirTable.Changes.mem (hchanges : table.Changes next) (hclst : clst ∈ table.clusters) :
    clst ∈ next.clusters := by
  obtain ⟨added, hadded⟩ := hchanges.more
  rw [hadded]
  exact mem_append_left added hclst

theorem DirTable.Changes.start (hchanges : table.Changes next) :
    next.clusters.getD 0 0 = table.clusters.getD 0 0 := by
  obtain ⟨added, hadded⟩ := hchanges.more
  rw [hadded]
  exact getD_append _ _ _ _ table.chain.length_pos

theorem DirTable.Changes.slots (hchanges : table.Changes next) :
    next.slotsPerCluster = table.slotsPerCluster := by
  rw [slotsPerCluster, slotsPerCluster, hchanges.leaves.csize]

theorem DirTable.Changes.trans (hfirst : table.Changes next) (hsecond : next.Changes last) :
    table.Changes last := by
  obtain ⟨added, hadded⟩ := hfirst.more
  obtain ⟨added', hadded'⟩ := hsecond.more
  refine ⟨⟨added ++ added', by rw [hadded', hadded, append_assoc]⟩, fun clst hclst ↦ ?_,
    (hfirst.leaves.mono fun _ hmem ↦ hsecond.mem hmem).trans hsecond.leaves⟩
  rcases hsecond.taken clst hclst with hmem | hfree
  · exact hfirst.taken clst hmem
  · exact .inr ((hfirst.leaves.free_iff table.geometry.fatx hfree.not_mem).mp hfree)

theorem DirTable.Grows.refl (table : DirTable) : table.Grows table :=
  ⟨.refl table, le_refl _, fun _ _ _ _ ↦ rfl,
    fun _ hslot hcount ↦ absurd hslot (not_lt.mpr hcount)⟩

theorem DirTable.Grows.trans (hfirst : table.Grows next) (hsecond : next.Grows last) :
    table.Grows last := by
  refine ⟨hfirst.toChanges.trans hsecond.toChanges, le_trans hfirst.count hsecond.count,
    fun slot hslot index hindex ↦ ?_, fun slot hslot hcount index hindex ↦ ?_⟩
  · rw [hsecond.kept slot (lt_of_lt_of_le hslot hfirst.count) index hindex,
      hfirst.kept slot hslot index hindex]
  · by_cases hnext : slot < next.count
    · rw [hsecond.kept slot hnext index hindex, hfirst.zero slot hnext hcount index hindex]
    · exact hsecond.zero slot hslot (not_lt.mp hnext) index hindex

/-- A store changes its own cluster only. -/
theorem DirTable.store_changes {slot : ℕ} (hslot : slot < table.count) {offset length : ℕ}
    (hlength : offset + length ≤ 64) (patch : Bytes) :
    table.Changes (table.store hslot hlength patch) := by
  refine ⟨⟨[], (append_nil _).symm⟩, fun _ hclst ↦ .inl hclst, rfl,
    fun clst hclst hother index hindex ↦ overlay_outside ?_,
    fun clst hclst _ ↦ fatValue_overlay hslot hlength patch hclst⟩
  have hne : clst ≠ table.cluster slot := fun heq ↦ hother (heq ▸ cluster_mem hslot)
  have hapart := table.geometry.apart _ _ hclst (accepted hslot) hne
  have hinside := table.address_inside slot
  omega

end

section

variable {table : DirTable} {ncl : UInt32}

theorem DirTable.lastCluster_accepted (table : DirTable) : Accepted table.fs table.lastCluster :=
  table.chain.accepted _ table.lastCluster_mem

theorem DirTable.lastCluster_ne_zero (table : DirTable) : table.lastCluster ≠ 0 := by
  intro hzero
  have hlow := ((table.geometry.fatx.accepted_iff _).mp table.lastCluster_accepted).1
  rw [hzero] at hlow
  exact absurd hlow (by decide)

theorem FreeCluster.accepted (hfree : FreeCluster table.fs table.content ncl) :
    Accepted table.fs ncl :=
  (table.geometry.fatx.accepted_iff ncl).mpr ⟨Nat.le_of_succ_le hfree.two_le, hfree.lt⟩

/-- The content of the volume after a cluster of zeros was linked behind the last one. -/
def DirTable.stretchedContent (table : DirTable) (ncl : UInt32) : Bytes :=
  fill (linkedContent table.fs table.content table.lastCluster ncl)
    (512 * (clst2sect table.fs ncl).toNat) (512 * table.fs.csize.toNat) 0

/-- The new cluster does not overlap the FAT. -/
theorem DirTable.fatValue_stretchedContent (hfree : FreeCluster table.fs table.content ncl)
    (hclst : Accepted table.fs clst) :
    fatValue table.fs (table.stretchedContent ncl) clst =
      fatValue table.fs (linkedContent table.fs table.content table.lastCluster ncl) clst := by
  refine fatValue_congr fun index hindex ↦ fill_outside ?_
  have hapart := table.geometry.fatApart ncl clst hfree.accepted hclst
  omega

theorem DirTable.chain_stretched (hfree : FreeCluster table.fs table.content ncl) :
    DirChain table.fs (table.stretchedContent ncl) (table.clusters ++ [ncl]) := by
  have hend := hfree.not_mem
  have hlink := fatValue_linked_last table.lastCluster_ne_zero hfree table.chain.last
  have hnew := fatValue_linked_new table.lastCluster_ne_zero hfree table.chain.last
  refine ⟨by simp, ?_, ?_, fun index hindex ↦ ?_, ?_⟩
  · intro clst hclst
    rcases mem_append.mp hclst with hold | hlast
    · exact table.chain.accepted clst hold
    · rw [mem_singleton.mp hlast]
      exact hfree.accepted
  · rw [nodup_append]
    refine ⟨table.chain.nodup, nodup_singleton ncl, fun clst hclst other hother heq ↦ ?_⟩
    rw [heq, mem_singleton.mp hother] at hclst
    exact hend hclst
  · rw [length_append, length_singleton] at hindex
    have hinside : index < table.clusters.length := by omega
    have hmem : table.clusters.getD index 0 ∈ table.clusters := by
      rw [getD_eq_getElem _ _ hinside]
      exact getElem_mem hinside
    rw [getD_append _ _ _ _ hinside, fatValue_stretchedContent hfree (table.chain.accepted _ hmem)]
    by_cases hnext : index + 1 < table.clusters.length
    · have hne : table.clusters.getD index 0 ≠ table.lastCluster := by
        rw [lastCluster, getD_eq_getElem _ _ hinside, getD_eq_getElem _ _ (by omega)]
        intro heq
        have hsame := (List.Nodup.getElem_inj_iff table.chain.nodup).mp heq
        omega
      have hother : table.clusters.getD index 0 ≠ ncl := by
        intro heq
        rw [heq] at hmem
        exact hend hmem
      rw [getD_append _ _ _ _ hnext, fatValue_linked_of_ne table.lastCluster_ne_zero hne hother]
      exact table.chain.next index hnext
    · have hsame : index = table.clusters.length - 1 := by omega
      rw [getD_append_right _ _ _ _ (not_lt.mp hnext),
        show index + 1 - table.clusters.length = 0 by omega, hsame]
      exact ⟨hlink, hfree.two_le⟩
  · rw [length_append, length_singleton, Nat.add_sub_cancel,
      getD_append_right _ _ _ _ le_rfl, Nat.sub_self]
    change table.fs.nFatent.toNat ≤ (fatValue table.fs (table.stretchedContent ncl) ncl).toNat
    rw [fatValue_stretchedContent hfree hfree.accepted, hnew]
    exact nFatent_le_fatMask table.chain.last

/-- Taking a cluster does not move the clusters. -/
theorem DirTable.geometry_takeCluster (table : DirTable) (ncl : UInt32) :
    DirGeometry (table.fs.takeCluster ncl) :=
  table.geometry.of_layout rfl

/-- The table with a cluster of zeros behind the last one. -/
def DirTable.stretched (table : DirTable) (hfree : FreeCluster table.fs table.content ncl) :
    DirTable where
  fs := table.fs.takeCluster ncl
  content := table.stretchedContent ncl
  clusters := table.clusters ++ [ncl]
  geometry := table.geometry_takeCluster ncl
  chain := { chain_stretched hfree with }

section

variable (hfree : FreeCluster table.fs table.content ncl)

include hfree

theorem DirTable.stretched_count :
    (table.stretched hfree).count =
      min (table.slotsPerCluster * (table.clusters.length + 1)) 4096 := by
  rw [count, stretched, length_append, length_singleton]
  rfl

theorem DirTable.stretched_entry {slot : ℕ} (hslot : slot < table.count) (hindex : index < 64) :
    (table.stretched hfree).entry slot index = table.entry slot index := by
  have hcluster : (table.stretched hfree).cluster slot = table.cluster slot :=
    getD_append _ _ _ _ (cluster_lt hslot)
  have haddress : (table.stretched hfree).address slot = table.address slot := by
    rw [address, hcluster]
    rfl
  have hne : ncl ≠ table.cluster slot := fun heq ↦ hfree.not_mem (heq ▸ cluster_mem hslot)
  have hapart := table.geometry.apart _ _ hfree.accepted (accepted hslot) hne
  have hinside := table.address_inside slot
  have hlast := address_fatApart hslot table.lastCluster_accepted
  have hncl := address_fatApart hslot hfree.accepted
  rw [entry, entry, haddress]
  change table.stretchedContent ncl (table.address slot + index) = _
  rw [stretchedContent, fill_outside (by omega),
    linkedContent_outside table.lastCluster_ne_zero (by omega) (by omega)]

theorem DirTable.stretched_zero {slot : ℕ} (hslot : slot < (table.stretched hfree).count)
    (hcount : table.count ≤ slot) (hindex : index < 64) :
    (table.stretched hfree).entry slot index = 0 := by
  have hbounds := hslot
  rw [stretched_count, lt_min_iff, Nat.mul_succ] at hbounds
  have hbehind : table.slotsPerCluster * table.clusters.length ≤ slot := by
    rw [count] at hcount
    omega
  have hdiv : slot / table.slotsPerCluster = table.clusters.length :=
    Nat.div_eq_of_lt_le (by rw [mul_comm]; exact hbehind)
      (by rw [Nat.succ_mul, mul_comm]; exact hbounds.1)
  have hcluster : (table.stretched hfree).cluster slot = ncl := by
    change (table.clusters ++ [ncl]).getD (slot / table.slotsPerCluster) 0 = ncl
    rw [hdiv, getD_append_right _ _ _ _ le_rfl, Nat.sub_self]
    rfl
  have hinside := (table.stretched hfree).address_inside slot
  rw [hcluster] at hinside
  change 512 * (clst2sect table.fs ncl).toNat ≤ _ ∧ _ ≤
    512 * ((clst2sect table.fs ncl).toNat + table.fs.csize.toNat) at hinside
  exact fill_inside (by omega) (by omega)

/-- Only the clusters of the directory change, and of the FAT only their entries. -/
theorem DirTable.stretched_changes :
    table.Changes (table.stretched hfree) := by
  refine ⟨⟨[ncl], rfl⟩, fun clst hclst ↦ ?_, rfl, fun clst hclst hother index hindex ↦ ?_,
    fun clst hclst hother ↦ ?_⟩
  · rcases mem_append.mp hclst with hold | hnew
    · exact .inl hold
    · exact .inr (mem_singleton.mp hnew ▸ hfree)
  · have hne : clst ≠ ncl := fun heq ↦
      hother (mem_append_right _ (mem_singleton.mpr heq))
    have hapart := table.geometry.apart _ _ hclst hfree.accepted hne
    have hlast := table.geometry.fatApart _ _ hclst table.lastCluster_accepted
    have hncl := table.geometry.fatApart _ _ hclst hfree.accepted
    change table.stretchedContent ncl _ = _
    rw [stretchedContent, fill_outside (by omega),
      linkedContent_outside table.lastCluster_ne_zero (by omega) (by omega)]
  · refine (fatValue_stretchedContent hfree hclst).trans
      (fatValue_linked_of_ne table.lastCluster_ne_zero (fun heq ↦ hother ?_) fun heq ↦ hother ?_)
    · exact mem_append_left _ (heq ▸ table.lastCluster_mem)
    · exact mem_append_right _ (mem_singleton.mpr heq)

theorem DirTable.stretched_grows :
    table.Grows (table.stretched hfree) := by
  refine ⟨stretched_changes hfree, ?_,
    fun slot hslot index hindex ↦ stretched_entry hfree hslot hindex,
    fun slot hslot hcount index hindex ↦ stretched_zero hfree hslot hcount hindex⟩
  rw [stretched_count, count, Nat.mul_succ]
  omega

end

end

end XBlast.Fatx
