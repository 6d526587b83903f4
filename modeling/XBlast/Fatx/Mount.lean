import XBlast.Fatx.FatFs

/-!
# Mounting a volume

`find_volume` of 'ff.c' looks for the boot sector of a volume and computes from it, and for FATX
volumes from the entry of the partition table, where the FAT and the clusters lie. A program here
runs on the filesystem object of the volume together with the rest of the module, since the object
holds a window on one sector of the disk.
-/

set_option autoImplicit false
set_option relaxedAutoImplicit false

namespace XBlast.Fatx

open Foundation Disk

variable {δ : Type}

/-- The filesystem object of the volume that is worked on, and the module. -/
structure VolumeState (δ : Type) where
  fs : FatFs
  system : FatFsState δ

/-- Programs over a volume. -/
abbrev VolumeM (δ : Type) := Program (VolumeState δ) FResult

def onDisk {α : Type} (pdrv : Drive) (program : Program δ FResult α) :
    VolumeM δ α :=
  (onDrive pdrv program).onPart (fun state ↦ state.system)
    (fun system state ↦ { state with system := system })

def modifyFs (change : FatFs → FatFs) : VolumeM δ Unit :=
  Program.modify fun state ↦ { state with fs := change state.fs }

/-- Runs a program on the filesystem object. -/
def onFs {α : Type} (program : Program FatFs FResult α) : VolumeM δ α :=
  program.onPart (fun state ↦ state.fs) (fun fs state ↦ { state with fs := fs })

/-! ### The window -/

variable (io : DiskIo δ) (pdrv : Drive)

/-- Writes a window back that was changed. The second copy of a FAT is written without looking at
the result. -/
def syncWindow : VolumeM δ Unit := do
  let fs ← Program.gets fun state ↦ state.fs
  if fs.wflag then do
    onDisk pdrv (diskWrite io fs.win fs.winsect 1)
    modifyFs fun fs ↦ { fs with wflag := false }
    if fs.winsect - fs.fatbase < fs.fsize ∧ fs.nFats = 2 then do
      let _ ← (onDisk pdrv (diskWrite io fs.win (fs.winsect + fs.fsize) 1)).succeeds
      pure ()
    else pure ()
  else pure ()

def moveWindow (sector : UInt32) : VolumeM δ Unit := do
  let winsect ← Program.gets fun state ↦ state.fs.winsect
  if sector = winsect then pure ()
  else do
    syncWindow io pdrv
    let data ← (onDisk pdrv (diskRead io sector)).modifyOnError fun state ↦
      { state with fs := { state.fs with winsect := 0xFFFFFFFF } }
    modifyFs fun fs ↦ { fs with win := data, winsect := sector }

/-! ### The boot sector -/

/-- `FATX_PARTITION_MAGIC`, which is "FATX". -/
def fatxPartitionMagic : UInt32 := 0x58544146

/-- Notes whether the disk has the magic of the Xbox, once it has been found. -/
def checkBrfr : VolumeM δ Unit := do
  let isFATX ← Program.gets fun state ↦ state.fs.isFATX
  if isFATX then pure ()
  else do
    moveWindow io pdrv 3
    modifyFs fun fs ↦ { fs with isFATX := decide (bytesAt fs.win 0 4 = driveMagic) }

/-- Reads the partition table into the copy for the master disk, whatever the disk is. -/
def loadMasterTable : VolumeM δ Unit := do
  let read ← Program.gets fun state ↦ state.system.fatxPartTableRead .master
  if read then pure ()
  else do
    moveWindow io pdrv 0
    Program.modify fun state ↦
      let part := XboxPartitionTable.ofImage state.fs.win
      let table := if part.magic = backupPartTable.magic then part else backupPartTable
      { state with system := state.system.setTable .master table true }

variable (sect : UInt32)

def checkFatx : VolumeM δ FResult := do
  loadMasterTable io pdrv
  if sect = 0 then pure .fatxOk
  else do
    moveWindow io pdrv sect
    let win ← Program.gets fun state ↦ state.fs.win
    pure (if littleEndian32 win 0 = fatxPartitionMagic then .fatxOk else .notReady)

def checkFat : VolumeM δ FResult := do
  moveWindow io pdrv sect
  let win ← Program.gets fun state ↦ state.fs.win
  if littleEndian16 win 510 ≠ 0xAA55 then pure .notReady
  -- The jump instruction and the texts "FAT" and "FAT32".
  else if (win 0 = 0xE9 ∨ win 0 = 0xEB ∨ win 0 = 0xE8) ∧
      (bytesAt win 54 3 = [0x46, 0x41, 0x54] ∨
        bytesAt win 82 5 = [0x46, 0x41, 0x54, 0x33, 0x32]) then pure .ok
  else pure .intErr

/-- Loads a sector and says what kind of boot sector it is: `fatxOk`, or `ok` for the other kinds.
A failure of the disk is `noFile`. -/
def checkFs : VolumeM δ FResult :=
  Program.recover (fun _ ↦ .noFile) do
    modifyFs fun fs ↦ { fs with wflag := false, winsect := 0xFFFFFFFF }
    checkBrfr io pdrv
    let isFATX ← Program.gets fun state ↦ state.fs.isFATX
    if isFATX then checkFatx io pdrv sect else checkFat io pdrv sect

/-- The first sector of a partition is checked; zero stands for no partition. -/
def checkPartition : VolumeM δ FResult :=
  if sect = 0 then pure .intErr else checkFs io pdrv sect

/-- The loop over the four partitions of a disk that is not formatted for the Xbox, with the
number of tries that are left. -/
def tryPartitions (io : DiskIo δ) (pdrv : Drive) (br : ℕ → UInt32) :
    ℕ → ℕ → VolumeM δ (FResult × UInt32)
  | 0, index => do
      let fmt ← checkPartition io pdrv (br index)
      pure (fmt, br index)
  | tries + 1, index => do
      let fmt ← checkPartition io pdrv (br index)
      if FResult.intErr.number ≤ fmt.number then tryPartitions io pdrv br tries (index + 1)
      else pure (fmt, br index)

/-- The first sector of a partition of a disk that is not formatted for the Xbox. The table in the
window has four entries; a higher number reads behind them, at `stray`. -/
def partitionStart (win : Bytes) (stray : ℕ → UInt32) (index : ℕ) : UInt32 :=
  if index < 4 then
    if win (450 + 16 * index) ≠ 0 then littleEndian32 win (454 + 16 * index) else 0
  else stray index

variable (vol : Fin 14) (stray : ℕ → UInt32)

/-- The partition of a disk that is not formatted for the Xbox. -/
def findFatPartition (fmt : FResult) : VolumeM δ (FResult × UInt32) :=
  let part := (volumePart vol).val
  if fmt = .intErr ∨ fmt.number < FResult.intErr.number ∧ part ≠ 0 then do
    let win ← Program.gets fun state ↦ state.fs.win
    let br := partitionStart win stray
    if part = 0 then tryPartitions io (volumeDrive vol) br 3 0
    else tryPartitions io (volumeDrive vol) br 0 (part - 1)
  else pure (fmt, 0)

/-- Loads the boot sector of a volume into the window and returns where it is. The entry of the
volume is taken from the table of the master disk, also for the volumes of the slave disk. -/
def locateVolume : VolumeM δ UInt32 := do
  let fmt ← checkFs io (volumeDrive vol) 0
  let read ← Program.gets fun state ↦ state.system.fatxPartTableRead .master
  if fmt = .fatxOk ∧ read = true then do
    let entry ← Program.gets fun state ↦ (state.system.fatxPartTable .master).tableEntries vol
    modifyFs fun fs ↦ { fs with fatxPartitionEntry := entry, fatxPartTableRead := true }
    Program.stopIf (entry.flags &&& partflagsInUse = 0) .notEnabled
    let fmt ← checkFs io (volumeDrive vol) entry.lbaStart
    Program.stopIf (fmt ≠ .fatxOk) .noFilesystem
    pure entry.lbaStart
  else do
    let (fmt, bsect) ← findFatPartition io vol stray fmt
    Program.stopIf (fmt = .noFile) .diskErr
    Program.stopIf (FResult.intErr.number ≤ fmt.number) .noFilesystem
    pure bsect

/-! ### The geometry -/

/-- `MAX_FATX16`. -/
def maxFatx16 : UInt32 := 0xFFF0

/-- The size of a FAT in sectors, in whole blocks of 4096 bytes. -/
def fatSectors (fmt : FsType) (nclst : UInt32) : UInt32 :=
  ((nclst * (if fmt = .fatx16 then 2 else 4) + 4095) &&& ~~~4095) >>> 9

/-- The geometry of a FATX volume, from its entry and from the cluster size in the window. -/
def fatxGeometry : Program FatFs FResult FsType := do
  Program.modify fun fs ↦ { fs with csize := (fs.win 8).toUInt16 }
  let fs ← Program.gets id
  Program.stopIf (fs.csize = 0 ∨ fs.csize &&& (fs.csize - 1) ≠ 0) .noFilesystem
  let tsect := fs.fatxPartitionEntry.lbaSize
  let nclst := tsect / fs.csize.toUInt32
  Program.stopIf (nclst = 0) .noFilesystem
  let fmt : FsType := if nclst + 1 < maxFatx16 then .fatx16 else .fatx32
  let fasize := fatSectors fmt nclst
  Program.modify fun fs ↦ { fs with fsize := fasize, nFats := 1, nRootdir := 0 }
  let nrsv : UInt32 := 8
  let sysect := nrsv + fasize
  Program.stopIf (tsect < sysect) .noFilesystem
  let bsect := fs.fatxPartitionEntry.lbaStart
  Program.modify fun fs ↦
    { fs with
      nFatent := (tsect - sysect) / fs.csize.toUInt32 + 2
      volbase := bsect
      fatbase := bsect + nrsv
      database := bsect + nrsv + sysect - nrsv
      dirbase := 1
      lastClst := 0xFFFFFFFF
      freeClst := 0xFFFFFFFF
      fsiFlag := 0x80 }
  pure fmt

/-- Reads the number of the last cluster from the FSINFO sector of a FAT32 volume. -/
def loadFsInfo (bsect : UInt32) : VolumeM δ Unit := do
  let loaded ← (moveWindow io pdrv (bsect + 1)).succeeds
  if loaded then
    modifyFs fun fs ↦
      { fs with
        fsiFlag := 0
        lastClst :=
          if littleEndian16 fs.win 510 = 0xAA55 ∧ littleEndian32 fs.win 0 = 0x41615252 ∧
              littleEndian32 fs.win 484 = 0x61417272 then littleEndian32 fs.win 492
          else fs.lastClst }
  else pure ()

/-- The kind of a FAT volume with this number of clusters. -/
def fatType (nclst : UInt32) : Option FsType :=
  if nclst ≤ 0xFF5 then some .fat12
  else if nclst ≤ 0xFFF5 then some .fat16
  else if nclst ≤ 0x0FFFFFF5 then some .fat32
  else none

/-- The size that the FAT of a volume needs, in bytes. -/
def neededFatSize (fmt : FsType) (nFatent : UInt32) : UInt32 :=
  match fmt with
  | .fat12 => nFatent * 3 / 2 + (nFatent &&& 1)
  | .fat16 => nFatent * 2
  | _ => nFatent * 4

/-- The geometry of a volume with one of the other file systems. -/
def fatGeometry (bsect : UInt32) : VolumeM δ FsType := do
  let win ← Program.gets fun state ↦ state.fs.win
  Program.stopIf (littleEndian16 win 11 ≠ 512) .noFilesystem
  let fasize : UInt32 :=
    if littleEndian16 win 22 = 0 then littleEndian32 win 36 else (littleEndian16 win 22).toUInt32
  let nFats := win 16
  modifyFs fun fs ↦ { fs with fsize := fasize, nFats := nFats }
  Program.stopIf (nFats ≠ 1 ∧ nFats ≠ 2) .noFilesystem
  let fatArea := fasize * nFats.toUInt32
  let csize := (win 13).toUInt16
  modifyFs fun fs ↦ { fs with csize := csize }
  Program.stopIf (csize = 0 ∨ csize &&& (csize - 1) ≠ 0) .noFilesystem
  let nRootdir := littleEndian16 win 17
  modifyFs fun fs ↦ { fs with nRootdir := nRootdir }
  Program.stopIf (nRootdir % 16 ≠ 0) .noFilesystem
  let tsect : UInt32 :=
    if littleEndian16 win 19 = 0 then littleEndian32 win 32 else (littleEndian16 win 19).toUInt32
  let nrsv := (littleEndian16 win 14).toUInt32
  Program.stopIf (nrsv = 0) .noFilesystem
  let sysect := nrsv + fatArea + (nRootdir / 16).toUInt32
  Program.stopIf (tsect < sysect) .noFilesystem
  let nclst := (tsect - sysect) / csize.toUInt32
  Program.stopIf (nclst = 0) .noFilesystem
  match fatType nclst with
  | none => Program.stop .noFilesystem
  | some fmt => do
      let nFatent := nclst + 2
      modifyFs fun fs ↦
        { fs with
          nFatent := nFatent
          volbase := bsect
          fatbase := bsect + nrsv
          database := bsect + sysect }
      -- The root directory of a FAT32 volume is a chain of clusters.
      Program.stopIf (fmt = .fat32 ∧ (littleEndian16 win 42 ≠ 0 ∨ nRootdir ≠ 0)) .noFilesystem
      Program.stopIf (fmt ≠ .fat32 ∧ nRootdir = 0) .noFilesystem
      modifyFs fun fs ↦
        { fs with
          dirbase := if fmt = .fat32 then littleEndian32 win 44 else fs.fatbase + fatArea }
      Program.stopIf (fasize < (neededFatSize fmt nFatent + 511) / 512) .noFilesystem
      modifyFs fun fs ↦
        { fs with lastClst := 0xFFFFFFFF, freeClst := 0xFFFFFFFF, fsiFlag := 0x80 }
      if fmt = .fat32 ∧ littleEndian16 win 48 = 1 then loadFsInfo io pdrv bsect else pure ()
      pure fmt

/-- The geometry of the volume whose boot sector is in the window, of either kind. -/
def volumeGeometry (bsect : UInt32) : VolumeM δ FsType := do
  let win ← Program.gets fun state ↦ state.fs.win
  if littleEndian32 win 0 = fatxPartitionMagic then onFs fatxGeometry
  else fatGeometry io pdrv bsect

/-! ### The volume -/

/-- Mounts a volume that is not mounted. -/
def mountVolume : VolumeM δ Unit := do
  modifyFs fun fs ↦ { fs with fsTypex := none }
  let bsect ← locateVolume io vol stray
  let fmt ← volumeGeometry io (volumeDrive vol) bsect
  modifyFs fun fs ↦ { fs with fsTypex := some fmt }

/-- Finds the filesystem object of a volume, which is mounted if it is not, or if its disk is
gone. -/
def findVolume (write : Bool) (stray : ℕ → UInt32) :
    FatFsM δ Unit := fun state ↦
  match state.fatFs vol with
  | none => (.error .notEnabled, state)
  | some fs =>
    let disk := state.drive (volumeDrive vol)
    if fs.fsTypex.isSome ∧ io.driveExists disk then
      if write ∧ io.isATAPI disk then (.error .writeProtected, state) else (.ok (), state)
    else
      let mounted := mountVolume io vol stray ⟨fs, state⟩
      (mounted.1, mounted.2.system.setFs vol mounted.2.fs)

end XBlast.Fatx
