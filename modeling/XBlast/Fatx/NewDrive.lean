import XBlast.Fatx.Fdisk

/-!
# Preparing a new drive

`formatNewDrives` of 'BootLPCMod.c' hands a drive without the magic of sector 3 to `fdisk` with the
base layout. The drive is prepared if its sector 0 begins with the magic of a partition table
already. On every other drive `fatx_getmbr` takes the backup table and answers `FR_NO_FILE`, which
`fdisk` takes for a failure: it returns −1 before anything is written.
-/

set_option autoImplicit false
set_option relaxedAutoImplicit false

namespace XBlast.Fatx

open Foundation Disk Program

variable {δ : Type} {io : DiskIo δ}

variable (device : BlockDevice io) (pdrv : Drive)

/-- A drive after the base layout was written to it. -/
structure NewDrive (device : BlockDevice io) (pdrv : Drive) (before after : FatFsState δ) :
    Prop where
  table : SectorZero device pdrv after backupPartTable.image
  magic : HasDriveMagic device pdrv after
  mbr : ∃ read, fatxGetmbr io pdrv after = (.ok (true, backupPartTable), read)
  kept : PartitionsKept device pdrv before after

section

variable {device : BlockDevice io} {pdrv : Drive} {state : FatFsState δ}

/-- The backup table is read back from a sector that holds it. -/
theorem fatxGetmbr_backupPartTable (hsound : ¬ device.faulty)
    (htable : SectorZero device pdrv state backupPartTable.image) :
    ∃ read, fatxGetmbr io pdrv state = (.ok (true, backupPartTable), read) := by
  have hmbr : mbrOf (device.content (state.drive pdrv)) = (true, backupPartTable) := by
    rw [mbrOf, XboxPartitionTable.ofImage_eq fun index hindex ↦ htable index (by omega), if_pos rfl]
  obtain ⟨answer, read, hrun, hanswer, _⟩ := exists_ok
    (wp_mono (fatxGetmbr_spec device pdrv state) (fun _ _ hok ↦ hok)
      fun _ _ herror ↦ hsound herror.2.1)
  exact ⟨read, by rw [hrun, hanswer, hmbr]⟩

/-! ### The base layout -/

/-- A large enough drive with the magic of a partition table in sector 0 is prepared. -/
theorem fdisk_base_spec
    (hmagic : (XboxPartitionTable.ofImage (device.content (state.drive pdrv))).magic =
      backupPartTable.magic)
    (hsize : xboxExtendStartLba.toNat ≤ (io.getSectorCount (state.drive pdrv)).toNat) :
    (fdisk io pdrv.number .base).wp (fun _ ↦ TableWritten device pdrv backupPartTable state)
      (fun _ _ ↦ device.faulty) state := by
  have hroom : tooSmall .base (io.getSectorCount (state.drive pdrv)) = false :=
    tooSmall_eq_false.mpr ⟨(Nat.sub_le _ 1).trans hsize, fun hbase ↦ absurd rfl hbase⟩
  have hplanned : requestedTable device pdrv .base state = some backupPartTable := by
    rw [requestedTable, plannedTable, hroom, if_neg (by decide), layoutTable]
  refine wp_fdisk device ?_ ?_
  · rintro after _ (hrefused | hfaulty | hforeign)
    · exact absurd (hplanned.symm.trans hrefused) (by simp)
    · exact hfaulty
    · exact absurd hmagic hforeign
  · intro table after htable _ hafter
    rw [hplanned] at htable
    cases htable
    refine wp_mono (fatxFdisk_spec device backupPartTable) ?_ fun _ _ hfailed ↦ hfailed.2.1
    intro _ done hdone
    refine ⟨hdone.table, hdone.magic, fun address haddress ↦ ?_⟩
    rw [hdone.kept address haddress, hafter]

/-- Any other drive is refused in every layout, with the code of a disk that is too small, and
keeps its content. -/
theorem fdisk_foreign (device : BlockDevice io) {state : FatFsState δ} (layout : XboxDiskLayout)
    (hmagic : (XboxPartitionTable.ofImage (device.content (state.drive pdrv))).magic ≠
      backupPartTable.magic) :
    (fdisk io pdrv.number layout).wp (fun _ _ ↦ False)
      (fun code after ↦ code = -1 ∧
        device.content (after.drive pdrv) = device.content (state.drive pdrv)) state := by
  refine wp_fdisk device ?_ ?_
  · exact fun _ hafter _ ↦ ⟨rfl, hafter⟩
  · exact fun _ _ _ hfound ↦ absurd hfound hmagic

end

/-- On a disk that does not fail and is large enough for the base partitions, the base layout
prepares the drive exactly if sector 0 has the magic of a partition table before. -/
theorem fdisk_base_prepares_iff (state : FatFsState δ) (hsound : ¬ device.faulty)
    (hsize : xboxExtendStartLba.toNat ≤ (io.getSectorCount (state.drive pdrv)).toNat) :
    (∃ after, fdisk io pdrv.number .base state = (.ok (), after) ∧
      NewDrive device pdrv state after) ↔
    (XboxPartitionTable.ofImage (device.content (state.drive pdrv))).magic =
      backupPartTable.magic := by
  constructor
  · rintro ⟨after, hrun, _⟩
    by_contra hmagic
    exact wp_ok (fdisk_foreign device .base hmagic) hrun
  · intro hmagic
    obtain ⟨_, after, hrun, htable, hdrive, hkept⟩ := exists_ok
      (wp_mono (fdisk_base_spec hmagic hsize) (fun _ _ hok ↦ hok)
        fun _ _ hfaulty ↦ hsound hfaulty)
    exact ⟨after, hrun, htable, hdrive, fatxGetmbr_backupPartTable hsound htable, hkept⟩

/-- A disk of 10GB with the stock table, whose sector 3 is blank. -/
theorem stockState_prepared :
    ∃ after, fdisk ramDisk (Drive.number .slave) .base (stockState 20000000) = (.ok (), after) ∧
      NewDrive ramDevice .slave (stockState 20000000) after := by
  have hsize : xboxExtendStartLba.toNat ≤
      (ramDisk.getSectorCount ((stockState 20000000).drive .slave)).toNat := by
    decide
  refine (fdisk_base_prepares_iff ramDevice .slave (stockState 20000000) id hsize).mpr ?_
  rw [stockState_table]
  rfl

/-- The state before the first access to a disk that holds zeros only. -/
def blankState (sectorCount : UInt64) : FatFsState RamDisk :=
  { stockState sectorCount with drive := fun _ ↦ ⟨sectorCount, fun _ ↦ 0⟩ }

/-- A blank disk of 10GB is refused. -/
theorem blankState_not_prepared :
    (∃ after, fdisk ramDisk (Drive.number .slave) .base (blankState 20000000) =
      (.error (-1), after)) ∧
    ¬ ∃ after, fdisk ramDisk (Drive.number .slave) .base (blankState 20000000) = (.ok (), after) ∧
      NewDrive ramDevice .slave (blankState 20000000) after := by
  have hmagic : (XboxPartitionTable.ofImage
      (ramDevice.content ((blankState 20000000).drive .slave))).magic ≠ backupPartTable.magic := by
    intro hmagic
    exact absurd (congrFun hmagic 0) (by decide)
  have hforeign := fdisk_foreign ramDevice .base hmagic
  rcases hrun : fdisk ramDisk (Drive.number .slave) .base (blankState 20000000) with
    ⟨code | value, after⟩
  · obtain ⟨rfl, _⟩ := wp_error hforeign hrun
    refine ⟨⟨after, rfl⟩, ?_⟩
    rintro ⟨_, hok, _⟩
    cases hok
  · exact (wp_ok hforeign hrun).elim

end XBlast.Fatx
