import XBlast.Disk.BlockDevice
import XBlast.Fatx.PartitionTable

/-!
# The state of the file system module

`FatFsState` gathers the static variables of 'ff.c' and the two disks. Volumes are numbered 0 to
13, the seven partitions of the master disk first. The functions here read and write the
partition table and the magic of a disk; the copy of the table in memory is kept for each disk.
-/

set_option autoImplicit false
set_option relaxedAutoImplicit false

namespace XBlast.Fatx

open Foundation Disk Program

inductive Drive where
  | master | slave
  deriving DecidableEq, Repr

/-- The kinds of file systems that a volume can be mounted as. -/
inductive FsType where
  | fat12 | fat16 | fat32 | fatx16 | fatx32
  deriving DecidableEq, Repr

/-- The filesystem object of a volume. `fsTypex` is `none` as long as the volume is not mounted. -/
structure FatFs where
  fsTypex : Option FsType
  nFats : UInt8
  wflag : Bool
  fsiFlag : UInt8
  nRootdir : UInt16
  csize : UInt16
  lastClst : UInt32
  freeClst : UInt32
  nFatent : UInt32
  fsize : UInt32
  volbase : UInt32
  fatbase : UInt32
  dirbase : UInt32
  database : UInt32
  winsect : UInt32
  win : Bytes
  isFATX : Bool
  fatxPartTableRead : Bool
  fatxPartitionEntry : XboxPartitionTableEntry

structure FatFsState (δ : Type) where
  drive : Drive → δ
  fatxPartTable : Drive → XboxPartitionTable
  fatxPartTableRead : Drive → Bool
  fatFs : Fin 14 → Option FatFs

/-- Programs over the filesystem module. -/
abbrev FatFsM (δ : Type) := Program (FatFsState δ) FResult

variable {δ : Type}

/-- `LD2PD`: the disk of a volume. -/
def volumeDrive (vol : Fin 14) : Drive := if vol.val < 7 then .master else .slave

/-- `LD2PT`: the entry of a volume in the table of its disk. -/
def volumePart (vol : Fin 14) : Fin 14 := ⟨vol.val % 7, by omega⟩

namespace FatFsState

def setDrive (pdrv : Drive) (disk : δ) (state : FatFsState δ) : FatFsState δ :=
  { state with drive := fun other ↦ if other = pdrv then disk else state.drive other }

/-- Stores the table of a disk in memory. -/
def setTable (pdrv : Drive) (table : XboxPartitionTable) (read : Bool) (state : FatFsState δ) :
    FatFsState δ :=
  { state with
    fatxPartTable := fun other ↦ if other = pdrv then table else state.fatxPartTable other
    fatxPartTableRead := fun other ↦ if other = pdrv then read else state.fatxPartTableRead other }

def setFs (vol : Fin 14) (fs : FatFs) (state : FatFsState δ) : FatFsState δ :=
  { state with fatFs := fun other ↦ if other = vol then some fs else state.fatFs other }

end FatFsState

/-- Runs a program of the lower layer on one of the disks. -/
def onDrive {α : Type} (pdrv : Drive) (program : Program δ FResult α) :
    FatFsM δ α :=
  program.onPart (fun state ↦ state.drive pdrv) (fun disk state ↦ state.setDrive pdrv disk)

/-! ### The partition table and the magic of a disk -/

variable (io : DiskIo δ) (pdrv : Drive)

/-- Reads the table of a disk, or takes the backup table. The answer says whether the disk had
one, the code `FR_NO_FILE` being its negation. -/
def fatxGetmbr : FatFsM δ (Bool × XboxPartitionTable) := do
  let buf ← onDrive pdrv (diskRead io 0)
  let found := decide ((XboxPartitionTable.ofImage buf).magic = backupPartTable.magic)
  let workingMbr := if found then .ofImage buf else backupPartTable
  Program.modify (FatFsState.setTable pdrv workingMbr true)
  pure (found, workingMbr)

/-- Writes a table to sector 0 of a disk. -/
def writeMbr (table : XboxPartitionTable) : FatFsM δ Unit := do
  onDrive pdrv (diskWrite io table.image 0 1)
  onDrive pdrv (diskSync io)

def fatxSetmbr (table : XboxPartitionTable) : FatFsM δ Unit := do
  writeMbr io pdrv table
  Program.modify (FatFsState.setTable pdrv table (decide (table.magic = backupPartTable.magic)))

/-- `FATX_DRIVE_MAGIC`, which is "BRFR". -/
def driveMagic : List UInt8 := [0x42, 0x52, 0x46, 0x52]

def fatxGetbrfr : FatFsM δ Unit := do
  let buf ← onDrive pdrv (diskRead io 3)
  if bytesAt buf 0 4 = driveMagic then pure () else Program.stop .noFilesystem

/-! ### What they do -/

section

variable {io : DiskIo δ} (device : BlockDevice io) (pdrv : Drive) (state : FatFsState δ)

@[simp]
theorem setDrive_drive (disk : δ) : (state.setDrive pdrv disk).drive pdrv = disk :=
  if_pos rfl

@[simp]
theorem setDrive_setDrive (disk other : δ) :
    (state.setDrive pdrv disk).setDrive pdrv other = state.setDrive pdrv other := by
  simp only [FatFsState.setDrive]
  congr 1
  funext drive
  split_ifs <;> rfl

@[simp]
theorem setTable_drive (table : XboxPartitionTable) (read : Bool) :
    (state.setTable pdrv table read).drive = state.drive :=
  rfl

/-- A change of the content of one disk and nothing else. -/
def DiskChange (before : FatFsState δ) (content : Bytes) (after : FatFsState δ) : Prop :=
  ∃ disk, device.content disk = content ∧ after = before.setDrive pdrv disk

variable {device pdrv state}

theorem DiskChange.content {content : Bytes} {after : FatFsState δ}
    (hchange : DiskChange device pdrv state content after) :
    device.content (after.drive pdrv) = content := by
  obtain ⟨disk, hcontent, rfl⟩ := hchange
  rw [setDrive_drive, hcontent]

theorem DiskChange.trans {content content' : Bytes} {middle after : FatFsState δ}
    (hfirst : DiskChange device pdrv state content middle)
    (hsecond : DiskChange device pdrv middle content' after) :
    DiskChange device pdrv state content' after := by
  obtain ⟨disk, _, rfl⟩ := hfirst
  obtain ⟨other, hcontent, rfl⟩ := hsecond
  exact ⟨other, hcontent, setDrive_setDrive pdrv state disk other⟩

variable (device pdrv state)

theorem onDrive_diskRead_spec (sector : UInt32) :
    (onDrive pdrv (diskRead io sector)).wp
      (fun data after ↦ DiskChange device pdrv state (device.content (state.drive pdrv)) after ∧
        ∀ index < 512, data index =
          device.content (state.drive pdrv) (512 * sector.toNat + index))
      (fun code after ↦ code = .diskErr ∧ device.faulty ∧
        DiskChange device pdrv state (device.content (state.drive pdrv)) after) state := by
  rw [onDrive, wp_onPart]
  refine wp_mono (diskRead_spec device sector (state.drive pdrv)) ?_ ?_
  · rintro data disk ⟨hcontent, hdata⟩
    exact ⟨⟨disk, hcontent, rfl⟩, hdata⟩
  · rintro code disk ⟨hcode, hfaulty, hcontent⟩
    exact ⟨hcode, hfaulty, disk, hcontent, rfl⟩

theorem onDrive_diskWrite_spec (buff : Bytes) {sector : UInt32} {count : ℕ}
    (hrange : sector.toNat + count ≤ 2 ^ 32) :
    (onDrive pdrv (diskWrite io buff sector count)).wp
      (fun _ after ↦ DiskChange device pdrv state
        (overlay (device.content (state.drive pdrv)) (512 * sector.toNat) (512 * count) buff) after)
      (fun code after ↦ code = .diskErr ∧ device.faulty ∧ ∃ written ≤ count,
        DiskChange device pdrv state (overlay (device.content (state.drive pdrv))
          (512 * sector.toNat) (512 * written) buff) after) state := by
  rw [onDrive, wp_onPart]
  refine wp_mono (diskWrite_spec device buff hrange (state.drive pdrv)) ?_ ?_
  · intro _ disk hcontent
    exact ⟨disk, hcontent, rfl⟩
  · rintro code disk ⟨hcode, hfaulty, written, hwritten, hcontent⟩
    exact ⟨hcode, hfaulty, written, hwritten, disk, hcontent, rfl⟩

theorem onDrive_diskSync_spec :
    (onDrive pdrv (diskSync io)).wp
      (fun _ after ↦ DiskChange device pdrv state (device.content (state.drive pdrv)) after)
      (fun code after ↦ code = .diskErr ∧ device.faulty ∧
        DiskChange device pdrv state (device.content (state.drive pdrv)) after) state := by
  rw [onDrive, wp_onPart]
  refine wp_mono (diskSync_spec device (state.drive pdrv)) ?_ ?_
  · intro _ disk hcontent
    exact ⟨disk, hcontent, rfl⟩
  · rintro code disk ⟨hcode, hfaulty, hcontent⟩
    exact ⟨hcode, hfaulty, disk, hcontent, rfl⟩

/-- The table of a disk with this content, and whether the disk has one. -/
def mbrOf (content : Bytes) : Bool × XboxPartitionTable :=
  if (XboxPartitionTable.ofImage content).magic = backupPartTable.magic then
    (true, .ofImage content)
  else (false, backupPartTable)

theorem fatxGetmbr_spec :
    (fatxGetmbr io pdrv).wp
      (fun answer after ↦ answer = mbrOf (device.content (state.drive pdrv)) ∧
        ∃ read, DiskChange device pdrv state (device.content (state.drive pdrv)) read ∧
          after = read.setTable pdrv answer.2 true)
      (fun code after ↦ code = .diskErr ∧ device.faulty ∧
        DiskChange device pdrv state (device.content (state.drive pdrv)) after) state := by
  rw [fatxGetmbr, wp_bind]
  refine wp_mono (onDrive_diskRead_spec device pdrv state 0) ?_ fun _ _ herror ↦ herror
  rintro buf read ⟨hread, hbuf⟩
  have htable : XboxPartitionTable.ofImage buf =
      .ofImage (device.content (state.drive pdrv)) := by
    refine XboxPartitionTable.ofImage_congr fun index hindex ↦ ?_
    have hbyte := hbuf index (by omega)
    rwa [show 512 * (0 : UInt32).toNat + index = index from zero_add index] at hbyte
  simp only [htable]
  refine ⟨?_, read, hread, rfl⟩
  by_cases hmagic : (XboxPartitionTable.ofImage (device.content (state.drive pdrv))).magic =
      backupPartTable.magic
  · simp [mbrOf, hmagic]
  · simp [mbrOf, hmagic]

theorem fatxGetbrfr_spec :
    (fatxGetbrfr io pdrv).wp
      (fun _ after ↦ bytesAt (device.content (state.drive pdrv)) (512 * 3) 4 = driveMagic ∧
        DiskChange device pdrv state (device.content (state.drive pdrv)) after)
      (fun _ after ↦
        (device.faulty ∨ bytesAt (device.content (state.drive pdrv)) (512 * 3) 4 ≠ driveMagic) ∧
        DiskChange device pdrv state (device.content (state.drive pdrv)) after) state := by
  rw [fatxGetbrfr, wp_bind]
  refine wp_mono (onDrive_diskRead_spec device pdrv state 3) ?_ ?_
  · rintro buf read ⟨hread, hbuf⟩
    have hbytes : bytesAt buf 0 4 = bytesAt (device.content (state.drive pdrv)) (512 * 3) 4 := by
      refine List.map_congr_left fun index hindex ↦ ?_
      have hlow := List.mem_range.mp hindex
      rw [zero_add]
      exact hbuf index (by omega)
    rw [wp_ite, hbytes]
    exact ⟨fun hmagic ↦ ⟨hmagic, hread⟩, fun hmagic ↦ ⟨.inr hmagic, hread⟩⟩
  · rintro code read ⟨_, hfaulty, hread⟩
    exact ⟨.inl hfaulty, hread⟩

/-- A table that was not written as a whole was not written at all. -/
theorem writeMbr_spec (table : XboxPartitionTable) :
    (writeMbr io pdrv table).wp
      (fun _ after ↦ DiskChange device pdrv state
        (overlay (device.content (state.drive pdrv)) 0 512 table.image) after)
      (fun code after ↦ code = .diskErr ∧ device.faulty ∧
        (DiskChange device pdrv state (device.content (state.drive pdrv)) after ∨
          DiskChange device pdrv state
            (overlay (device.content (state.drive pdrv)) 0 512 table.image) after)) state := by
  rw [writeMbr, wp_bind]
  refine wp_mono (onDrive_diskWrite_spec device pdrv state table.image (by decide)) ?_ ?_
  · intro _ written hwritten
    refine wp_mono (onDrive_diskSync_spec device pdrv written) ?_ ?_
    · intro _ synced hsynced
      rw [hwritten.content] at hsynced
      exact hwritten.trans hsynced
    · rintro code synced ⟨hcode, hfaulty, hsynced⟩
      rw [hwritten.content] at hsynced
      exact ⟨hcode, hfaulty, .inr (hwritten.trans hsynced)⟩
  · rintro code failed ⟨hcode, hfaulty, written, hwritten, hchange⟩
    refine ⟨hcode, hfaulty, ?_⟩
    obtain rfl | rfl : written = 0 ∨ written = 1 := by omega
    · left
      have hnothing : overlay (device.content (state.drive pdrv)) (512 * UInt32.toNat 0) (512 * 0)
          table.image = device.content (state.drive pdrv) :=
        funext fun address ↦ overlay_outside (by omega)
      rwa [hnothing] at hchange
    · exact .inr hchange

theorem fatxSetmbr_spec (table : XboxPartitionTable) :
    (fatxSetmbr io pdrv table).wp
      (fun _ after ↦ ∃ written, DiskChange device pdrv state
          (overlay (device.content (state.drive pdrv)) 0 512 table.image) written ∧
        after = written.setTable pdrv table (decide (table.magic = backupPartTable.magic)))
      (fun code after ↦ code = .diskErr ∧ device.faulty ∧
        (DiskChange device pdrv state (device.content (state.drive pdrv)) after ∨
          DiskChange device pdrv state
            (overlay (device.content (state.drive pdrv)) 0 512 table.image) after)) state := by
  rw [fatxSetmbr, wp_bind]
  refine wp_mono (writeMbr_spec device pdrv state table) ?_ fun _ _ herror ↦ herror
  intro _ written hwritten
  exact ⟨written, hwritten, rfl⟩

end

end XBlast.Fatx
