import Mathlib.Order.Interval.Set.Disjoint
import XBlast.Fatx.MountSpec

/-!
# The clusters of a mounted volume

`FatxVolume` is the geometry that the mount computes for a FATX volume, and every FATX volume that
`find_volume` mounts has it. Clusters are numbered from one, so that the number of FAT entries,
which is two more than the number of clusters, lets one cluster through that lies behind the end
of the partition, and the FAT has no room for the last cluster when its size is a multiple of
4096 bytes.
-/

set_option autoImplicit false
set_option relaxedAutoImplicit false

namespace XBlast.Fatx

open Foundation Disk Program Option

variable {δ : Type}

variable (fs : FatFs)

/-- The number of the first cluster. -/
def firstCluster : UInt32 :=
  if fs.fsTypex.any FsType.isFatx then 1 else 2

variable (clst : UInt32)

/-- The first sector of a cluster, zero for a number that is not valid. -/
def clst2sect : UInt32 :=
  if fs.nFatent - firstCluster fs ≤ clst - firstCluster fs then 0
  else fs.database + fs.csize.toUInt32 * (clst - firstCluster fs)

/-- Reads the entry of a cluster from the FAT: 1 for a number that is not valid and 0xFFFFFFFF when
the disk fails. -/
def getFat (io : DiskIo δ) (pdrv : Drive) (clst : UInt32) :
    VolumeM δ UInt32 := do
  let fs ← Program.gets fun state ↦ state.fs
  if clst < firstCluster fs ∨ fs.nFatent ≤ clst then pure 1
  else Program.recover (fun _ ↦ 0xFFFFFFFF) do
    match fs.fsTypex with
    | some .fat12 =>
      let bc := clst + clst / 2
      moveWindow io pdrv (fs.fatbase + bc / 512)
      let low ← Program.gets fun state ↦ state.fs.win (bc % 512).toNat
      moveWindow io pdrv (fs.fatbase + (bc + 1) / 512)
      let high ← Program.gets fun state ↦ state.fs.win ((bc + 1) % 512).toNat
      let wc := low.toUInt32 ||| (high.toUInt32 <<< 8)
      pure (if clst &&& 1 = 0 then wc &&& 0xFFF else wc >>> 4)
    | some .fat16 | some .fatx16 =>
      moveWindow io pdrv (fs.fatbase + clst / 256)
      let win ← Program.gets fun state ↦ state.fs.win
      pure (littleEndian16 win (clst * 2 % 512).toNat).toUInt32
    | some .fat32 | some .fatx32 =>
      moveWindow io pdrv (fs.fatbase + clst / 128)
      let win ← Program.gets fun state ↦ state.fs.win
      pure (littleEndian32 win (clst * 4 % 512).toNat &&& 0x0FFFFFFF)
    | none => pure 1

/-- Every FATX volume that is mounted has the geometry, whatever the disk does. -/
theorem mountVolume_fatxVolume (io : DiskIo δ) (vol : Fin 14) (stray : ℕ → UInt32)
    (state : VolumeState δ) :
    (mountVolume io vol stray).wp
      (fun _ after ↦ IsFatxFs after.fs → FatxVolume after.fs)
      (fun _ _ ↦ True) state := by
  rw [mountVolume]
  refine wp_bind_of_forall (fun _ _ ↦ ?_) fun _ _ ↦ trivial
  refine wp_bind_of_forall (fun bsect _ ↦ ?_) fun _ _ ↦ trivial
  rw [wp_bind, volumeGeometry, wp_bind, wp_gets, wp_ite]
  constructor
  · intro _
    rw [onFs, wp_onPart]
    refine wp_mono (fatxGeometry_spec _) ?_ fun _ _ _ ↦ trivial
    intro fmt fs hgeometry _
    exact hgeometry.1
  · intro _
    refine wp_mono (fatGeometry_spec io (volumeDrive vol) bsect _) ?_ fun _ _ _ ↦ trivial
    intro fmt after hfmt hfatx
    exact absurd hfatx (by simp [IsFatxFs, hfmt])

/-! ### The geometry in numbers -/

/-- The size of an entry of the FAT of a FATX volume, in bytes. -/
def entryWidth : ℕ := if fs.fsTypex = some .fatx16 then 2 else 4

/-- The number of clusters that the size of the FAT is computed from. -/
def fatClusters : ℕ := fs.fatxPartitionEntry.lbaSize.toNat / fs.csize.toNat

/-- The sector behind the partition. -/
def partitionEnd : ℕ :=
  fs.fatxPartitionEntry.lbaStart.toNat + fs.fatxPartitionEntry.lbaSize.toNat

/-- A cluster size of 32, 64 or 128 sectors. -/
def ClusterSize : Prop := fs.csize = 32 ∨ fs.csize = 64 ∨ fs.csize = 128

theorem ClusterSize.toNat {fs : FatFs} (hcsize : ClusterSize fs) :
    fs.csize.toNat = 32 ∨ fs.csize.toNat = 64 ∨ fs.csize.toNat = 128 := by
  rcases hcsize with hcsize | hcsize | hcsize
  · exact .inl (congrArg UInt16.toNat hcsize)
  · exact .inr (.inl (congrArg UInt16.toNat hcsize))
  · exact .inr (.inr (congrArg UInt16.toNat hcsize))

theorem fatSectors_toNat (fmt : FsType) (nclst : UInt32) (hnclst : nclst.toNat ≤ 2 ^ 28) :
    (fatSectors fmt nclst).toNat =
      8 * ((nclst.toNat * (if fmt = .fatx16 then 2 else 4) + 4095) / 4096) := by
  have hwidth : (if fmt = .fatx16 then (2 : UInt32) else 4).toNat =
      if fmt = .fatx16 then 2 else 4 := by
    split_ifs
    · rfl
    · rfl
  have hbytes : (nclst * (if fmt = .fatx16 then (2 : UInt32) else 4) + 4095).toNat =
      nclst.toNat * (if fmt = .fatx16 then 2 else 4) + 4095 := by
    rw [UInt32.toNat_add, UInt32.toNat_mul, hwidth]
    split_ifs
    · exact (by simp only [UInt32.reduceToNat]; omega)
    · exact (by simp only [UInt32.reduceToNat]; omega)
  rw [fatSectors, UInt32.toNat_shiftRight,
    alignDown_toNat _ 4095 (show (4095 : UInt32).toNat = 2 ^ 12 - 1 from rfl) (by decide), hbytes,
    show (9 : UInt32).toNat % 32 = 9 from rfl, Nat.shiftRight_eq_div_pow]
  omega

/-- The geometry of a FATX volume without the wraparound of machine words. -/
structure FatxNumbers (fs : FatFs) : Prop where
  volume : FatxVolume fs
  csize : ClusterSize fs
  stop : fs.fatxPartitionEntry.lbaStart.toNat + fs.fatxPartitionEntry.lbaSize.toNat < 2 ^ 32
  fsize : fs.fsize.toNat = 8 * ((fatClusters fs * entryWidth fs + 4095) / 4096)
  room : 8 + fs.fsize.toNat ≤ fs.fatxPartitionEntry.lbaSize.toNat
  nFatent : fs.nFatent.toNat =
    (fs.fatxPartitionEntry.lbaSize.toNat - (8 + fs.fsize.toNat)) / fs.csize.toNat + 2
  fatbase : fs.fatbase.toNat = fs.fatxPartitionEntry.lbaStart.toNat + 8
  database : fs.database.toNat = fs.fatxPartitionEntry.lbaStart.toNat + 8 + fs.fsize.toNat

theorem entryWidth_eq : entryWidth fs = 2 ∨ entryWidth fs = 4 := by
  rw [entryWidth]
  split_ifs
  · exact .inl rfl
  · exact .inr rfl

theorem FatxVolume.numbers {fs : FatFs} (hvolume : FatxVolume fs) (hcsize : ClusterSize fs)
    (hend : partitionEnd fs < 2 ^ 32) : FatxNumbers fs := by
  have hk : fs.csize.toUInt32.toNat = fs.csize.toNat := UInt16.toNat_toUInt32 _
  have hnclst : (fs.fatxPartitionEntry.lbaSize / fs.csize.toUInt32).toNat = fatClusters fs := by
    rw [UInt32.toNat_div, hk, fatClusters]
  have hsmall : fatClusters fs ≤ 2 ^ 27 := by
    have hlt := fs.fatxPartitionEntry.lbaSize.toNat_lt
    rw [fatClusters]
    rcases hcsize.toNat with hcsize | hcsize | hcsize
    · rw [hcsize]
      omega
    · rw [hcsize]
      omega
    · rw [hcsize]
      omega
  have hfsize : fs.fsize.toNat = 8 * ((fatClusters fs * entryWidth fs + 4095) / 4096) := by
    rw [hvolume.fsize, fatSectors_toNat _ _ (by omega), hnclst, entryWidth, hvolume.fsTypex]
    simp only [some.injEq]
  have hsysect : (8 + fs.fsize).toNat = 8 + fs.fsize.toNat := by
    rw [UInt32.toNat_add, show (8 : UInt32).toNat = 8 from rfl]
    rcases entryWidth_eq fs with hwidth | hwidth
    · rw [hwidth] at hfsize
      omega
    · rw [hwidth] at hfsize
      omega
  have hroom : 8 + fs.fsize.toNat ≤ fs.fatxPartitionEntry.lbaSize.toNat := by
    have hle := UInt32.not_lt.mp hvolume.room
    rwa [UInt32.le_iff_toNat_le, hsysect] at hle
  rw [partitionEnd] at hend
  refine ⟨hvolume, hcsize, hend, hfsize, hroom, ?_, ?_, ?_⟩
  · have hquotient := Nat.div_le_self
      (fs.fatxPartitionEntry.lbaSize.toNat - (8 + fs.fsize.toNat)) fs.csize.toNat
    rw [hvolume.nFatent, UInt32.toNat_add, UInt32.toNat_div, hk,
      UInt32.toNat_sub_of_le _ _ (UInt32.le_iff_toNat_le.mpr (by rwa [hsysect])), hsysect,
      show (2 : UInt32).toNat = 2 from rfl, Nat.mod_eq_of_lt]
    exact lt_of_le_of_lt (Nat.add_le_add_right hquotient 2) (by omega)
  · rw [hvolume.fatbase, UInt32.toNat_add, show (8 : UInt32).toNat = 8 from rfl]
    omega
  · have hsub : fs.fatxPartitionEntry.lbaStart + 8 + (8 + fs.fsize) - 8 =
        fs.fatxPartitionEntry.lbaStart + (8 + fs.fsize) := by
      rw [UInt32.add_assoc, UInt32.add_comm 8 (8 + fs.fsize), ← UInt32.add_assoc,
        UInt32.add_sub_cancel]
    rw [hvolume.database, hsub, UInt32.toNat_add, hsysect]
    omega

/-! ### The place of a cluster and of its entry -/

/-- The cluster numbers that `get_fat` accepts. -/
def Accepted : Prop :=
  ¬ (clst < firstCluster fs ∨ fs.nFatent ≤ clst)

/-- The sectors of a cluster. -/
def clusterRange : Set ℕ :=
  Set.Ico (clst2sect fs clst).toNat ((clst2sect fs clst).toNat + fs.csize.toNat)

/-- Where the entry of a cluster starts on the disk, in bytes. -/
def entryStart : ℕ :=
  512 * fs.fatbase.toNat + entryWidth fs * clst.toNat

/-- A cluster that lies inside the partition and whose entry lies inside the FAT. -/
structure ClusterInside (fs : FatFs) (clst : UInt32) : Prop where
  valid : clst2sect fs clst ≠ 0
  inside : (clst2sect fs clst).toNat + fs.csize.toNat ≤ partitionEnd fs
  entry : entryStart fs clst + entryWidth fs ≤ 512 * (fs.fatbase.toNat + fs.fsize.toNat)
  before : fs.fatbase.toNat + fs.fsize.toNat ≤ fs.database.toNat

theorem FatxVolume.firstCluster_eq {fs : FatFs} (hvolume : FatxVolume fs) :
    firstCluster fs = 1 := by
  rw [firstCluster, hvolume.fsTypex, any_some, fatxType]
  split_ifs
  · rfl
  · contradiction
  · rfl
  · contradiction

theorem FatxVolume.accepted_iff {fs : FatFs} (hvolume : FatxVolume fs) (clst : UInt32) :
    Accepted fs clst ↔ 1 ≤ clst.toNat ∧ clst.toNat < fs.nFatent.toNat := by
  rw [Accepted, hvolume.firstCluster_eq, not_or, UInt32.not_lt, UInt32.not_le,
    UInt32.le_iff_toNat_le, UInt32.lt_iff_toNat_lt]
  exact Iff.rfl

section

variable {fs : FatFs} {clst : UInt32}

theorem ClusterSize.pos (hcsize : ClusterSize fs) : 0 < fs.csize.toNat := by
  rcases hcsize.toNat with hcsize | hcsize | hcsize
  · omega
  · omega
  · omega

variable (hnumbers : FatxNumbers fs)

include hnumbers

/-- The clusters before an accepted one lie inside the partition. -/
theorem clusters_before (haccepted : Accepted fs clst) :
    fs.csize.toNat * (clst.toNat - 1) ≤
      fs.fatxPartitionEntry.lbaSize.toNat - (8 + fs.fsize.toNat) := by
  have hbounds := (hnumbers.volume.accepted_iff clst).mp haccepted
  have hquotient : clst.toNat - 1 ≤
      (fs.fatxPartitionEntry.lbaSize.toNat - (8 + fs.fsize.toNat)) / fs.csize.toNat := by
    have hcount := hnumbers.nFatent
    omega
  rw [mul_comm]
  exact (Nat.le_div_iff_mul_le hnumbers.csize.pos).mp hquotient

theorem clst2sect_toNat (haccepted : Accepted fs clst) :
    (clst2sect fs clst).toNat =
      fs.database.toNat + fs.csize.toNat * (clst.toNat - 1) := by
  have hbounds := (hnumbers.volume.accepted_iff clst).mp haccepted
  have hbefore := clusters_before hnumbers haccepted
  have hclst : (clst - 1).toNat = clst.toNat - 1 :=
    UInt32.toNat_sub_of_le _ _ (UInt32.le_iff_toNat_le.mpr hbounds.1)
  have hcount : (fs.nFatent - 1).toNat = fs.nFatent.toNat - 1 :=
    UInt32.toNat_sub_of_le _ _ (UInt32.le_iff_toNat_le.mpr (show 1 ≤ fs.nFatent.toNat by omega))
  have hguard : ¬ fs.nFatent - 1 ≤ clst - 1 := by
    rw [UInt32.le_iff_toNat_le, hclst, hcount]
    omega
  have hroom := hnumbers.room
  have hdatabase := hnumbers.database
  have hstop := hnumbers.stop
  rw [clst2sect, hnumbers.volume.firstCluster_eq, if_neg hguard, UInt32.toNat_add, UInt32.toNat_mul,
    UInt16.toNat_toUInt32, hclst, Nat.mod_eq_of_lt (lt_of_le_of_lt hbefore (by omega)),
    Nat.mod_eq_of_lt (by omega)]

theorem cluster_inside_iff (haccepted : Accepted fs clst) :
    (clst2sect fs clst).toNat + fs.csize.toNat ≤ partitionEnd fs ↔
      clst.toNat + 1 < fs.nFatent.toNat := by
  have hbounds := (hnumbers.volume.accepted_iff clst).mp haccepted
  have hroom := hnumbers.room
  have hdatabase := hnumbers.database
  have hsectors : fs.csize.toNat * (clst.toNat - 1) + fs.csize.toNat =
      clst.toNat * fs.csize.toNat := by
    rw [← Nat.mul_succ, Nat.succ_eq_add_one, Nat.sub_add_cancel hbounds.1, mul_comm]
  have hquotient := Nat.le_div_iff_mul_le (x := clst.toNat)
    (y := fs.fatxPartitionEntry.lbaSize.toNat - (8 + fs.fsize.toNat)) hnumbers.csize.pos
  rw [clst2sect_toNat hnumbers haccepted, hnumbers.nFatent, partitionEnd,
    add_assoc, hsectors]
  constructor
  · intro hinside
    omega
  · intro hcount
    omega

/-- The FAT is sized for the clusters of the whole partition, counted from zero, and rounded up. -/
theorem entry_inside_iff (hcount : clst.toNat + 1 < fs.nFatent.toNat) :
    entryStart fs clst + entryWidth fs ≤ 512 * (fs.fatbase.toNat + fs.fsize.toNat) ↔
      clst.toNat < fatClusters fs ∨ fatClusters fs * entryWidth fs % 4096 ≠ 0 := by
  have hfewer : clst.toNat ≤ fatClusters fs := by
    have hle := Nat.div_le_div_right (c := fs.csize.toNat)
      (Nat.sub_le fs.fatxPartitionEntry.lbaSize.toNat (8 + fs.fsize.toNat))
    have hnFatent := hnumbers.nFatent
    rw [fatClusters]
    omega
  have hfsize := hnumbers.fsize
  rw [entryStart]
  rcases entryWidth_eq fs with hwidth | hwidth
  · rw [hwidth] at hfsize ⊢
    omega
  · rw [hwidth] at hfsize ⊢
    omega

theorem clusterInside_iff (haccepted : Accepted fs clst) :
    ClusterInside fs clst ↔ clst.toNat + 1 < fs.nFatent.toNat ∧
      (clst.toNat < fatClusters fs ∨ fatClusters fs * entryWidth fs % 4096 ≠ 0) := by
  constructor
  · intro hinside
    have hcount := (cluster_inside_iff hnumbers haccepted).mp hinside.inside
    exact ⟨hcount, (entry_inside_iff hnumbers hcount).mp hinside.entry⟩
  · rintro ⟨hcount, hentry⟩
    refine ⟨?_, (cluster_inside_iff hnumbers haccepted).mpr hcount,
      (entry_inside_iff hnumbers hcount).mpr hentry, ?_⟩
    · intro hzero
      have hsector := clst2sect_toNat hnumbers haccepted
      have hdatabase := hnumbers.database
      rw [hzero, UInt32.toNat_zero] at hsector
      omega
    · have hfatbase := hnumbers.fatbase
      have hdatabase := hnumbers.database
      omega

theorem clusterRange_end_le {other : UInt32} (haccepted : Accepted fs clst)
    (hother : Accepted fs other) (hlt : clst.toNat < other.toNat) :
    (clst2sect fs clst).toNat + fs.csize.toNat ≤ (clst2sect fs other).toNat := by
  have hbounds := (hnumbers.volume.accepted_iff clst).mp haccepted
  have hnext := Nat.mul_le_mul_left fs.csize.toNat
    (show clst.toNat - 1 + 1 ≤ other.toNat - 1 by omega)
  rw [Nat.mul_succ] at hnext
  rw [clst2sect_toNat hnumbers haccepted, clst2sect_toNat hnumbers hother]
  omega

theorem clusterRange_disjoint {other : UInt32} (haccepted : Accepted fs clst)
    (hother : Accepted fs other) (hne : clst ≠ other) :
    Disjoint (clusterRange fs clst) (clusterRange fs other) := by
  rw [Set.disjoint_left]
  intro sector hin hout
  rcases Nat.lt_or_gt_of_ne fun heq ↦ hne (UInt32.toNat_inj.mp heq) with hlt | hlt
  · have hle := clusterRange_end_le hnumbers haccepted hother hlt
    exact absurd hin.2 (not_lt.mpr (le_trans hle hout.1))
  · have hle := clusterRange_end_le hnumbers hother haccepted hlt
    exact absurd hout.2 (not_lt.mpr (le_trans hle hin.1))

end

/-- The entry of a cluster of a FATX volume on a disk with this content. -/
def fatEntry (content : Bytes) (clst : UInt32) : UInt32 :=
  if fs.fsTypex = some .fatx16 then (littleEndian16 content (entryStart fs clst)).toUInt32
  else littleEndian32 content (entryStart fs clst) &&& 0x0FFFFFFF

/-! ### Volumes mounted by find_volume -/

/-- A FATX volume that `find_volume` mounted: it was not mounted before, or its disk was gone. -/
structure MountedBy (io : DiskIo δ) (vol : Fin 14) (write : Bool) (stray : ℕ → UInt32)
    (state final : FatFsState δ) (fs : FatFs) : Prop where
  unmounted : ∃ old : FatFs, state.fatFs vol = some old ∧
    ¬ (old.fsTypex.isSome = true ∧ io.driveExists (state.drive (volumeDrive vol)) = true)
  run : findVolume io vol write stray state = (.ok (), final)
  object : final.fatFs vol = some fs
  fatx : IsFatxFs fs

theorem findVolume_unmounted (io : DiskIo δ) (vol : Fin 14) (write : Bool) (stray : ℕ → UInt32)
    {state : FatFsState δ} {old : FatFs} (hold : state.fatFs vol = some old)
    (hunmounted :
      ¬ (old.fsTypex.isSome = true ∧ io.driveExists (state.drive (volumeDrive vol)) = true)) :
    findVolume io vol write stray state =
      ((mountVolume io vol stray ⟨old, state⟩).1,
        (mountVolume io vol stray ⟨old, state⟩).2.system.setFs vol
          (mountVolume io vol stray ⟨old, state⟩).2.fs) := by
  rw [findVolume, hold]
  exact if_neg hunmounted

variable {io : DiskIo δ} {vol : Fin 14} {write : Bool} {stray : ℕ → UInt32}

/-- A filesystem object is the one that the mount left. -/
theorem MountedBy.mountVolume_ok {state final : FatFsState δ} {fs : FatFs}
    (hmounted : MountedBy io vol write stray state final fs) :
    ∃ (old : FatFs) (after : VolumeState δ), state.fatFs vol = some old ∧
      mountVolume io vol stray ⟨old, state⟩ = (.ok (), after) ∧ after.fs = fs ∧
      final = after.system.setFs vol fs := by
  obtain ⟨old, hold, hunmounted⟩ := hmounted.unmounted
  have hrun := hmounted.run
  have hobject := hmounted.object
  rw [findVolume_unmounted io vol write stray hold hunmounted, Prod.mk.injEq] at hrun
  have hfs : (mountVolume io vol stray ⟨old, state⟩).2.fs = fs := by
    rw [← hrun.2] at hobject
    simpa [FatFsState.setFs] using hobject
  refine ⟨old, (mountVolume io vol stray ⟨old, state⟩).2, hold, Prod.ext hrun.1 rfl, hfs, ?_⟩
  rw [← hfs, hrun.2]

theorem MountedBy.fatxVolume {state final : FatFsState δ} {fs : FatFs}
    (hmounted : MountedBy io vol write stray state final fs) : FatxVolume fs := by
  obtain ⟨old, after, _, hrun, rfl, _⟩ := hmounted.mountVolume_ok
  exact wp_ok (mountVolume_fatxVolume io vol stray ⟨old, state⟩) hrun hmounted.fatx

/-- What the mount of a volume found, on a disk that does not fail. -/
theorem MountedBy.mounted {device : BlockDevice io} (hsound : ¬ device.faulty)
    {state final : FatFsState δ} {fs old : FatFs}
    (hmounted : MountedBy io vol write stray state final fs) (hold : state.fatFs vol = some old) :
    ∃ after : VolumeState δ, Mounted device vol ⟨old, state⟩ after ∧ after.fs = fs ∧
      final = after.system.setFs vol fs := by
  obtain ⟨other, after, hother, hrun, hfs, hfinal⟩ := hmounted.mountVolume_ok
  obtain rfl := some.inj (hold.symm.trans hother)
  refine ⟨after, ?_, hfs, hfinal⟩
  have hfatx := hmounted.fatx
  rw [← hfs] at hfatx
  exact (wp_ok (mountVolume_spec hsound vol stray ⟨old, state⟩) hrun).1 hfatx

/-- On a disk that does not fail a volume that can be mounted is. -/
theorem exists_mountedBy (device : BlockDevice io) (hsound : ¬ device.faulty) (vol : Fin 14)
    (write : Bool) (stray : ℕ → UInt32) {state : FatFsState δ} {old : FatFs}
    (hold : state.fatFs vol = some old) (hunmounted : old.fsTypex = none)
    (hmountable : Mountable device vol ⟨old, state⟩) :
    ∃ final fs, MountedBy io vol write stray state final fs ∧
      fs.fatxPartitionEntry = mountEntry device vol ⟨old, state⟩ ∧
      fs.csize = (diskContent device (volumeDrive vol) ⟨old, state⟩
        (512 * (mountEntry device vol ⟨old, state⟩).lbaStart.toNat + 8)).toUInt16 := by
  have hsafe := wp_mono (mountVolume_spec hsound vol stray ⟨old, state⟩)
    (fun _ _ hok ↦ hok) fun _ _ hfailed ↦ hfailed.1 hmountable
  obtain ⟨_, after, hrun, hmounts, hfatx, -⟩ := exists_ok hsafe
  have hnot : ¬ (old.fsTypex.isSome = true ∧
      io.driveExists (state.drive (volumeDrive vol)) = true) := by simp [hunmounted]
  have hmounted := hmounts (hfatx hmountable)
  refine ⟨after.system.setFs vol after.fs, after.fs, ⟨⟨old, hold, hnot⟩, ?_, if_pos rfl,
    hfatx hmountable⟩, hmounted.entry, hmounted.csize hmountable.start hmountable.boot.2.1⟩
  rw [findVolume_unmounted io vol write stray hold hnot, hrun]

/-- A filesystem object that has not been used. -/
def blankFs : FatFs where
  fsTypex := none
  nFats := 0
  wflag := false
  fsiFlag := 0
  nRootdir := 0
  csize := 0
  lastClst := 0
  freeClst := 0
  nFatent := 0
  fsize := 0
  volbase := 0
  fatbase := 0
  dirbase := 0
  database := 0
  winsect := 0
  win _ := 0
  isFATX := false
  fatxPartTableRead := false
  fatxPartitionEntry := backupPartTable.tableEntries 13

/-- A disk with the partition table in memory and a boot sector in its first volume, which has
clusters of 32 sectors. -/
def bootableState : FatFsState RamDisk where
  drive _ :=
    { sectorCount := xboxExtendStartLba.toUInt64
      bytes := writeFields [(512 * 3, driveMagic),
        (512 * xboxStoreStartLba.toNat, [0x46, 0x41, 0x54, 0x58, 0x45, 0, 0, 0, 32])] fun _ ↦ 0 }
  fatxPartTable _ := backupPartTable
  fatxPartTableRead _ := true
  fatFs _ := some blankFs

theorem bootableState_mountable : Mountable ramDevice 0 ⟨blankFs, bootableState⟩ where
  xbox := .inr (by decide +kernel)
  boot := ⟨by decide +kernel, by decide +kernel, by unfold FatxMagic; decide +kernel⟩
  start := by decide +kernel
  fits := ⟨by decide +kernel, by decide +kernel, by decide +kernel, by decide +kernel⟩

/-- The first volume of the disk: a mounted volume with 312426 entries of four bytes. -/
structure BootableVolume (final : FatFsState RamDisk) (fs : FatFs) : Prop where
  mounted : MountedBy ramDisk 0 false (fun _ ↦ 0) bootableState final fs
  entry : fs.fatxPartitionEntry = backupPartTable.tableEntries 0
  csize : fs.csize = 32

theorem exists_bootableVolume : ∃ final fs, BootableVolume final fs := by
  obtain ⟨final, fs, hmounted, hentry, hcsize⟩ := exists_mountedBy ramDevice id 0 false
    (fun _ ↦ 0) rfl rfl bootableState_mountable
  exact ⟨final, fs, hmounted, hentry, hcsize.trans (by decide +kernel)⟩

section

variable {final : FatFsState RamDisk} {fs : FatFs} (hvolume : BootableVolume final fs)

include hvolume

theorem BootableVolume.clusterSize : ClusterSize fs :=
  .inl hvolume.csize

theorem BootableVolume.partitionEnd_eq : partitionEnd fs = 15633072 := by
  rw [partitionEnd, hvolume.entry]
  decide +kernel

theorem BootableVolume.numbers : FatxNumbers fs :=
  hvolume.mounted.fatxVolume.numbers hvolume.clusterSize
    (by rw [hvolume.partitionEnd_eq]; decide)

theorem BootableVolume.nFatent_eq : fs.nFatent.toNat = 312426 := by
  have hnumbers := hvolume.numbers
  have hwidth : entryWidth fs = 4 := by
    rw [entryWidth, hnumbers.volume.fsTypex, hvolume.entry, hvolume.csize]
    decide +kernel
  have hsize : fs.fatxPartitionEntry.lbaSize.toNat = 10000048 := by
    rw [hvolume.entry]
    decide +kernel
  have hsectors : fs.csize.toNat = 32 := congrArg UInt16.toNat hvolume.csize
  have hfsize := hnumbers.fsize
  rw [fatClusters, hwidth, hsize, hsectors] at hfsize
  rw [hnumbers.nFatent, hfsize, hsize, hsectors]

end

/-- A cluster number that `get_fat` accepts belongs to a cluster of the partition with an entry in
the FAT except for the last number, and for the number of clusters the FAT is sized for when its
entries fill whole blocks. Different numbers always belong to different sectors.

Assumes: the volume was mounted as FATX with clusters of 32, 64 or 128 sectors, and its partition
ends below sector 2 ^ 32. -/
theorem clusters_inside_volume_iff {io : DiskIo δ} {vol : Fin 14} {write : Bool}
    {stray : ℕ → UInt32} {state final : FatFsState δ} {fs : FatFs}
    (hmounted : MountedBy io vol write stray state final fs) (hcsize : ClusterSize fs)
    (hend : partitionEnd fs ≤ 2 ^ 32 - 1) (clst : UInt32) (haccepted : Accepted fs clst) :
    (ClusterInside fs clst ↔ clst.toNat + 1 < fs.nFatent.toNat ∧
      (clst.toNat < fatClusters fs ∨ fatClusters fs * entryWidth fs % 4096 ≠ 0)) ∧
    ∀ other, Accepted fs other → clst ≠ other →
      Disjoint (clusterRange fs clst) (clusterRange fs other) := by
  have hnumbers := hmounted.fatxVolume.numbers hcsize (by omega)
  refine ⟨clusterInside_iff hnumbers haccepted, ?_⟩
  intro other hother hne
  exact clusterRange_disjoint hnumbers haccepted hother hne

theorem clusters_inside_volume_iff_bootable :
    ∃ final fs, BootableVolume final fs ∧ Accepted fs 1 ∧
      ((ClusterInside fs 1 ↔ (1 : UInt32).toNat + 1 < fs.nFatent.toNat ∧
        ((1 : UInt32).toNat < fatClusters fs ∨ fatClusters fs * entryWidth fs % 4096 ≠ 0)) ∧
      ∀ other, Accepted fs other → 1 ≠ other →
        Disjoint (clusterRange fs 1) (clusterRange fs other)) := by
  obtain ⟨final, fs, hvolume⟩ := exists_bootableVolume
  have hend : partitionEnd fs ≤ 2 ^ 32 - 1 := by
    rw [hvolume.partitionEnd_eq]
    decide
  have haccepted : Accepted fs 1 := by
    rw [hvolume.mounted.fatxVolume.accepted_iff, hvolume.nFatent_eq]
    decide
  exact ⟨final, fs, hvolume, haccepted, clusters_inside_volume_iff hvolume.mounted
    hvolume.clusterSize hend 1 haccepted⟩

/-- The last number that is accepted belongs to sectors that reach behind the partition. -/
theorem last_cluster_outside :
    ∃ final fs, MountedBy ramDisk 0 false (fun _ ↦ 0) bootableState final fs ∧
      ClusterSize fs ∧ 1024000 ≤ fs.fatxPartitionEntry.lbaSize.toNat ∧
      partitionEnd fs ≤ 2 ^ 32 - 1 ∧ Accepted fs 312425 ∧
      partitionEnd fs < (clst2sect fs 312425).toNat + fs.csize.toNat := by
  obtain ⟨final, fs, hvolume⟩ := exists_bootableVolume
  have hnumbers := hvolume.numbers
  have haccepted : Accepted fs 312425 := by
    rw [hnumbers.volume.accepted_iff, hvolume.nFatent_eq]
    decide
  refine ⟨final, fs, hvolume.mounted, hnumbers.csize, ?_, ?_, haccepted, ?_⟩
  · rw [hvolume.entry]
    decide +kernel
  · rw [hvolume.partitionEnd_eq]
    decide
  · rw [← not_le, cluster_inside_iff hnumbers haccepted, hvolume.nFatent_eq]
    decide

end XBlast.Fatx
