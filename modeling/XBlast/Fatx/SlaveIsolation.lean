import XBlast.Fatx.Clusters
import XBlast.Foundation.TwoRuns

/-!
# The volumes of the slave disk and the table of the master disk

`find_volume` keeps one copy of the partition table for the volumes of both disks, the one of the
master disk, and looks volume 7 and up in it under their own numbers. Two runs of a mount are
compared whose states agree on everything of the slave disk. On a disk without the magic of the
Xbox neither table is used, and the runs cannot be told apart. On a disk of the Xbox the table of
the master disk alone decides whether the volume is in use.
-/

set_option autoImplicit false
set_option relaxedAutoImplicit false

namespace XBlast.Fatx

open Foundation Disk Program

variable {δ : Type}

/-! ### Two runs on one disk -/

/-- States of a mount that agree on the filesystem object and on one disk. -/
structure SameDisk (pdrv : Drive) (first second : VolumeState δ) : Prop where
  fs : first.fs = second.fs
  drive : first.system.drive pdrv = second.system.drive pdrv

section

variable {io : DiskIo δ} {pdrv : Drive}

theorem onDisk_respects {α : Type} (program : Program δ FResult α) :
    (onDisk pdrv program).Respects (SameDisk pdrv) := by
  intro first second hsame
  rw [onDisk, onDrive]
  have hrun : ∀ state : VolumeState δ,
      Program.onPart (fun state : VolumeState δ ↦ state.system)
        (fun system state ↦ { state with system := system })
        (Program.onPart (fun state : FatFsState δ ↦ state.drive pdrv)
          (fun disk state ↦ state.setDrive pdrv disk) program) state =
      Program.onPart (fun state : VolumeState δ ↦ state.system.drive pdrv)
        (fun disk state ↦ { state with system := state.system.setDrive pdrv disk })
        program state := fun _ ↦ rfl
  rw [Program.coupledWp, hrun, hrun]
  exact coupledWp_onPart hsame.drive
    (fun _ disk ↦ ⟨hsame.fs, by rw [setDrive_drive, setDrive_drive]⟩)
    fun _ disk ↦ ⟨hsame.fs, by rw [setDrive_drive, setDrive_drive]⟩

theorem onFs_respects {α : Type} (program : Program FatFs FResult α) :
    (onFs program : VolumeM δ α).Respects (SameDisk pdrv) :=
  fun _ _ hsame ↦ coupledWp_onPart hsame.fs (fun _ _ ↦ ⟨rfl, hsame.drive⟩)
    fun _ _ ↦ ⟨rfl, hsame.drive⟩

theorem modifyFs_respects (change : FatFs → FatFs) :
    (modifyFs change : VolumeM δ Unit).Respects (SameDisk pdrv) :=
  respects_modify fun _ _ hsame ↦ ⟨congrArg change hsame.fs, hsame.drive⟩

theorem getsFs_respects {α : Type} (part : FatFs → α) :
    (Program.gets fun state : VolumeState δ ↦ part state.fs :
      VolumeM δ α).Respects (SameDisk pdrv) :=
  respects_gets fun _ _ hsame ↦ congrArg part hsame.fs

theorem syncWindow_respects : (syncWindow io pdrv).Respects (SameDisk pdrv) := by
  refine (getsFs_respects id).bind fun fs ↦ ?_
  refine Program.Respects.ite ?_ (respects_pure ())
  refine (onDisk_respects _).bind fun _ ↦ (modifyFs_respects _).bind fun _ ↦ ?_
  exact Program.Respects.ite
    ((onDisk_respects _).succeeds.bind fun _ ↦ respects_pure ()) (respects_pure ())

theorem moveWindow_respects (sector : UInt32) :
    (moveWindow io pdrv sector).Respects (SameDisk pdrv) := by
  refine (getsFs_respects FatFs.winsect).bind fun winsect ↦ ?_
  refine Program.Respects.ite (respects_pure ()) ?_
  refine syncWindow_respects.bind fun _ ↦ Program.Respects.bind ?_ fun _ ↦ modifyFs_respects _
  intro first second hsame
  refine coupledWp_modifyOnError (coupledWp_mono
    (onDisk_respects _ first second hsame) (fun _ _ _ hafter ↦ hafter) ?_)
  intro _ first second hafter
  exact ⟨by rw [hafter.fs], hafter.drive⟩

theorem checkBrfr_respects : (checkBrfr io pdrv).Respects (SameDisk pdrv) := by
  refine (getsFs_respects FatFs.isFATX).bind fun isFATX ↦ ?_
  exact Program.Respects.ite (respects_pure ())
    ((moveWindow_respects 3).bind fun _ ↦ modifyFs_respects _)

theorem checkFat_respects (sect : UInt32) : (checkFat io pdrv sect).Respects (SameDisk pdrv) := by
  refine (moveWindow_respects sect).bind fun _ ↦ (getsFs_respects FatFs.win).bind fun win ↦ ?_
  exact Program.Respects.ite (respects_pure _)
    (Program.Respects.ite (respects_pure _) (respects_pure _))

variable (bsect : UInt32)

theorem loadFsInfo_respects : (loadFsInfo io pdrv bsect).Respects (SameDisk pdrv) := by
  refine (moveWindow_respects (bsect + 1)).succeeds.bind fun loaded ↦ ?_
  exact Program.Respects.ite (modifyFs_respects _) (respects_pure ())

theorem fatGeometry_respects : (fatGeometry io pdrv bsect).Respects (SameDisk pdrv) := by
  refine (getsFs_respects FatFs.win).bind fun win ↦ ?_
  repeat first
    | refine (respects_stopIf _ _).bind fun _ ↦ ?_
    | refine (modifyFs_respects _).bind fun _ ↦ ?_
  split
  · exact respects_stop _
  · repeat first
      | refine (respects_stopIf _ _).bind fun _ ↦ ?_
      | refine (modifyFs_respects _).bind fun _ ↦ ?_
    exact Program.Respects.ite
      ((loadFsInfo_respects bsect).bind fun _ ↦ respects_pure _) (respects_pure _)

theorem volumeGeometry_respects : (volumeGeometry io pdrv bsect).Respects (SameDisk pdrv) := by
  refine (getsFs_respects FatFs.win).bind fun win ↦ ?_
  exact Program.Respects.ite (onFs_respects _) (fatGeometry_respects bsect)

/-! ### A disk without the magic -/

variable {device : BlockDevice io} {first second : VolumeState δ}

/-- States that agree on a disk without the magic of the Xbox. -/
structure SamePlainDisk (device : BlockDevice io) (pdrv : Drive) (first second : VolumeState δ) :
    Prop extends SameDisk pdrv first second where
  notXbox : ¬ XboxDisk device pdrv first

theorem checkFs_respects (sect : UInt32) :
    (checkFs io pdrv sect).Respects (SamePlainDisk device pdrv) := by
  intro first second hplain
  have hruns : (checkFs io pdrv sect).coupledWp (fun _ ↦ SameDisk pdrv) (fun _ _ _ ↦ False)
      first second := by
    refine coupledWp_recover (coupledWp_bind (coupledWp_modify ?_))
    have hclean : WindowHolds device pdrv
        { first with fs := { first.fs with wflag := false, winsect := 0xFFFFFFFF } } :=
      ⟨rfl, fun hne ↦ absurd rfl hne⟩
    refine coupledWp_bind (coupledWp_mono (coupledWp_and
      (checkBrfr_respects _ _ ⟨by rw [hplain.fs], hplain.drive⟩) (checkBrfr_spec hclean)) ?_
      fun _ _ _ hfailed ↦ hfailed.1)
    rintro _ first second ⟨hsame, _, hknown, _⟩
    have hisFATX : first.fs.isFATX = false :=
      Bool.eq_false_iff.mpr fun hset ↦ hplain.notXbox (hknown.mp hset)
    refine coupledWp_bind (coupledWp_gets (by rw [hsame.fs]) ?_)
    rw [hisFATX, if_neg Bool.false_ne_true]
    exact checkFat_respects sect first second hsame
  exact coupledWp_mono (coupledWp_and hruns (checkFs_fat_spec sect hplain.notXbox))
    (fun _ _ _ hboth ↦ ⟨hboth.1, hboth.2.1.notXbox⟩) fun _ _ _ hboth ↦ hboth.1.elim

theorem checkPartition_respects (sect : UInt32) :
    (checkPartition io pdrv sect).Respects (SamePlainDisk device pdrv) :=
  Program.Respects.ite (respects_pure _) (checkFs_respects sect)

theorem tryPartitions_respects (br : ℕ → UInt32) (tries index : ℕ) :
    (tryPartitions io pdrv br tries index).Respects (SamePlainDisk device pdrv) := by
  induction tries generalizing index with
  | zero => exact (checkPartition_respects _).bind fun _ ↦ respects_pure _
  | succ tries ih =>
    exact (checkPartition_respects _).bind fun _ ↦
      Program.Respects.ite (ih (index + 1)) (respects_pure _)

variable (vol : Fin 14) (stray : ℕ → UInt32)

theorem findFatPartition_respects (fmt : FResult) :
    (findFatPartition io vol stray fmt).Respects (SamePlainDisk device (volumeDrive vol)) := by
  refine Program.Respects.ite ?_ (respects_pure _)
  refine (respects_gets fun _ _ hplain ↦ by rw [hplain.fs]).bind fun win ↦ ?_
  exact Program.Respects.ite (tryPartitions_respects _ 3 0) (tryPartitions_respects _ 0 _)

variable (hplain : SamePlainDisk device (volumeDrive vol) first second)

include hplain

/-- A disk without the magic of the Xbox is mounted without looking at the table. -/
theorem locateVolume_coupled :
    (locateVolume io vol stray).coupledWp (fun _ ↦ SamePlainDisk device (volumeDrive vol))
      (fun _ ↦ SamePlainDisk device (volumeDrive vol)) first second := by
  refine coupledWp_bind (coupledWp_mono (coupledWp_and (checkFs_respects 0 _ _ hplain)
    (checkFs_fat_spec 0 hplain.notXbox)) ?_ fun _ _ _ hboth ↦ hboth.1)
  rintro fmt first second ⟨hplain, hchecked, -⟩
  simp only [hchecked.notFatx, false_and, if_false]
  change Program.coupledWp (findFatPartition io vol stray fmt >>= fun answer ↦
    Program.stopIf (answer.1 = .noFile) FResult.diskErr >>= fun _ ↦
      Program.stopIf (FResult.intErr.number ≤ answer.1.number) FResult.noFilesystem >>= fun _ ↦
        pure answer.2) _ _ _ _
  exact ((findFatPartition_respects vol stray fmt).bind fun _ ↦ (respects_stopIf _ _).bind fun _ ↦
    (respects_stopIf _ _).bind fun _ ↦ respects_pure _) first second hplain

theorem mountVolume_coupled :
    (mountVolume io vol stray).coupledWp (fun _ ↦ SameDisk (volumeDrive vol))
      (fun _ ↦ SameDisk (volumeDrive vol)) first second := by
  refine coupledWp_bind (coupledWp_modify (coupledWp_bind (coupledWp_mono
    (locateVolume_coupled vol stray ⟨⟨by rw [hplain.fs], hplain.drive⟩, hplain.notXbox⟩) ?_
      fun _ _ _ hplain ↦ hplain.toSameDisk)))
  intro bsect first second hplain
  exact ((volumeGeometry_respects bsect).bind fun _ ↦ modifyFs_respects _) first second
    hplain.toSameDisk

end

/-! ### The volumes of the slave disk -/

variable {vol : Fin 14}

/-- The disks are told apart by the numbers of their volumes. -/
theorem volumeDrive_slave (hslave : 7 ≤ vol.val) : volumeDrive vol = .slave :=
  if_neg (by omega)

/-- States that agree on the slave disk and on all that is kept of it. The master disk, its table
and the objects of its volumes may differ in any way. -/
structure SlaveAgrees (first second : FatFsState δ) : Prop where
  drive : first.drive .slave = second.drive .slave
  table : first.fatxPartTable .slave = second.fatxPartTable .slave
  read : first.fatxPartTableRead .slave = second.fatxPartTableRead .slave
  objects : ∀ vol : Fin 14, 7 ≤ vol.val → first.fatFs vol = second.fatFs vol

/-- Where the parts of a volume lie. -/
structure Geometry where
  volbase : UInt32
  fatbase : UInt32
  database : UInt32
  nFatent : UInt32
  csize : UInt16
  deriving DecidableEq

def FatFs.geometry (fs : FatFs) : Geometry :=
  ⟨fs.volbase, fs.fatbase, fs.database, fs.nFatent, fs.csize⟩

/-- What a caller of `find_volume` learns of a volume. -/
def mountResult (io : DiskIo δ) (vol : Fin 14) (write : Bool) (stray : ℕ → UInt32)
    (state : FatFsState δ) : Except FResult Unit × Option Geometry :=
  ((findVolume io vol write stray state).1,
    ((findVolume io vol write stray state).2.fatFs vol).map FatFs.geometry)

variable {io : DiskIo δ}

variable (device : BlockDevice io)

/-- Nothing of the master disk can be learned from a volume of the slave disk, and a volume that is
found starts where the table on its own disk says. -/
structure SlaveIsolated (device : BlockDevice io) (vol : Fin 14) (write : Bool)
    (stray : ℕ → UInt32) (state : FatFsState δ) : Prop where
  sameResult : ∀ other, SlaveAgrees state other →
    mountResult io vol write stray state = mountResult io vol write stray other
  ownStart : ∀ geometry, mountResult io vol write stray state = (.ok (), some geometry) →
    geometry.volbase = (ownEntry device vol state).lbaStart

/-- The volume is not mounted from a disk of the Xbox. -/
def MasterUnused (vol : Fin 14) (state : FatFsState δ) : Prop :=
  ∀ fs, state.fatFs vol = some fs →
    (fs.fsTypex.isSome = true ∧ io.driveExists (state.drive (volumeDrive vol)) = true) ∨
      ¬ XboxDisk device (volumeDrive vol) ⟨fs, state⟩

/-- A volume that is mounted starts where the table on its own disk says, and for one that is not,
the disk has no boot sector of another file system but there. -/
def FatAtOwnEntry (vol : Fin 14) (stray : ℕ → UInt32) (state : FatFsState δ) : Prop :=
  ∀ fs, state.fatFs vol = some fs →
    if fs.fsTypex.isSome = true ∧ io.driveExists (state.drive (volumeDrive vol)) = true then
      fs.volbase = (ownEntry device vol state).lbaStart
    else
      ∀ start, FatStart (device.content (state.drive (volumeDrive vol))) stray vol start →
        FatBoot (device.content (state.drive (volumeDrive vol))) start →
        start = (ownEntry device vol state).lbaStart

variable {state : FatFsState δ}

theorem mountResult_unmounted (vol : Fin 14) (write : Bool) (stray : ℕ → UInt32) {old : FatFs}
    (hold : state.fatFs vol = some old)
    (hunmounted :
      ¬ (old.fsTypex.isSome = true ∧ io.driveExists (state.drive (volumeDrive vol)) = true)) :
    mountResult io vol write stray state =
      ((mountVolume io vol stray ⟨old, state⟩).1,
        some (mountVolume io vol stray ⟨old, state⟩).2.fs.geometry) := by
  rw [mountResult, findVolume_unmounted io vol write stray hold hunmounted]
  simp [FatFsState.setFs]

/-- Without a disk of the Xbox the mount does not depend on the master disk. -/
theorem MasterUnused.sameResult {device : BlockDevice io} (hslave : 7 ≤ vol.val) (write : Bool)
    (stray : ℕ → UInt32) {state other : FatFsState δ} (hunused : MasterUnused device vol state)
    (hagrees : SlaveAgrees state other) :
    mountResult io vol write stray state = mountResult io vol write stray other := by
  have hdrive : state.drive (volumeDrive vol) = other.drive (volumeDrive vol) := by
    rw [volumeDrive_slave hslave, hagrees.drive]
  have hobject := hagrees.objects vol hslave
  rcases hfs : state.fatFs vol with _ | fs
  · have hother : other.fatFs vol = none := hobject.symm.trans hfs
    simp [mountResult, findVolume, hfs, hother]
  · have hother : other.fatFs vol = some fs := hobject.symm.trans hfs
    by_cases hmounted : fs.fsTypex.isSome = true ∧
        io.driveExists (state.drive (volumeDrive vol)) = true
    · rw [mountResult, mountResult, findVolume, findVolume]
      simp only [hfs, hother, ← hdrive, if_pos hmounted]
      split_ifs
      · simp [hfs, hother]
      · simp [hfs, hother]
    · have hxbox := (hunused fs hfs).resolve_left hmounted
      have hsame : SameDisk (volumeDrive vol) (⟨fs, state⟩ : VolumeState δ) ⟨fs, other⟩ :=
        ⟨rfl, hdrive⟩
      obtain ⟨hcode, hafter⟩ :=
        coupledWp_result (mountVolume_coupled vol stray ⟨hsame, hxbox⟩)
      rw [mountResult_unmounted vol write stray hfs hmounted,
        mountResult_unmounted vol write stray hother (by rwa [← hdrive]), hcode, hafter.fs]

/-- On a disk without the magic of the Xbox a volume is mounted from a boot sector of another file
system. -/
theorem mountVolume_fat_spec (vol : Fin 14) (stray : ℕ → UInt32) {before : VolumeState δ}
    (hxbox : ¬ XboxDisk device (volumeDrive vol) before) :
    (mountVolume io vol stray).wp
      (fun _ after ↦
        FatStart (diskContent device (volumeDrive vol) before) stray vol after.fs.volbase ∧
        FatBoot (diskContent device (volumeDrive vol) before) after.fs.volbase)
      (fun _ _ ↦ True) before := by
  rw [mountVolume, wp_bind, modifyFs, wp_modify, wp_bind]
  refine wp_mono (locateVolume_fat_spec vol stray hxbox) ?_ fun _ _ _ ↦ trivial
  intro bsect located hfound
  rw [wp_bind, volumeGeometry, wp_bind, wp_gets, if_neg hfound.window.ne_magic]
  refine wp_mono (fatGeometry_spec io (volumeDrive vol) bsect located) ?_ fun _ _ _ ↦ trivial
  rintro fmt after ⟨-, rfl⟩
  exact ⟨hfound.start, hfound.boot⟩

theorem FatAtOwnEntry.ownStart {device : BlockDevice io} (hunused : MasterUnused device vol state)
    {stray : ℕ → UInt32} (hown : FatAtOwnEntry device vol stray state) {write : Bool}
    {geometry : Geometry}
    (hresult : mountResult io vol write stray state = (.ok (), some geometry)) :
    geometry.volbase = (ownEntry device vol state).lbaStart := by
  rcases hfs : state.fatFs vol with _ | fs
  · rw [mountResult, findVolume, hfs] at hresult
    cases congrArg Prod.fst hresult
  have hstart := hown fs hfs
  by_cases hmounted : fs.fsTypex.isSome = true ∧
      io.driveExists (state.drive (volumeDrive vol)) = true
  · rw [if_pos hmounted] at hstart
    rw [mountResult, findVolume] at hresult
    simp only [hfs, if_pos hmounted] at hresult
    split_ifs at hresult
    · cases congrArg Prod.fst hresult
    · rw [hfs] at hresult
      obtain rfl := Option.some.inj (congrArg Prod.snd hresult)
      exact hstart
  · rw [if_neg hmounted] at hstart
    have hmount := mountVolume_fat_spec device vol stray ((hunused fs hfs).resolve_left hmounted)
    rw [mountResult_unmounted vol write stray hfs hmounted] at hresult
    have hok : (mountVolume io vol stray ⟨fs, state⟩).1 = .ok () := congrArg Prod.fst hresult
    obtain ⟨hfatStart, hboot⟩ := wp_ok hmount (run_eq_of_isOk (by rw [hok]; rfl))
    obtain rfl := Option.some.inj (congrArg Prod.snd hresult)
    exact hstart _ hfatStart hboot

/-- With a table of the master disk in memory, a volume on a disk of the Xbox is not enabled
exactly when it is not in use in that table. -/
theorem mountResult_notEnabled {device : BlockDevice io} (hsound : ¬ device.faulty) (vol : Fin 14)
    (write : Bool) (stray : ℕ → UInt32) {fs : FatFs}
    (hfs : state.fatFs vol = some fs)
    (hunmounted :
      ¬ (fs.fsTypex.isSome = true ∧ io.driveExists (state.drive (volumeDrive vol)) = true))
    (hxbox : XboxDisk device (volumeDrive vol) ⟨fs, state⟩)
    (hread : state.fatxPartTableRead .master = true) :
    (mountResult io vol write stray state).1 = .error .notEnabled ↔
      ((state.fatxPartTable .master).tableEntries vol).flags &&& partflagsInUse = 0 := by
  have hcode := mountVolume_spec hsound vol stray ⟨fs, state⟩
  rw [mountEntry, mountTable, if_pos hread] at hcode
  rw [mountResult_unmounted vol write stray hfs hunmounted]
  rcases hrun : mountVolume io vol stray ⟨fs, state⟩ with ⟨code | _, after⟩
  · rw [← (wp_error hcode hrun).2 hxbox]
    exact ⟨fun heq ↦ Except.error.inj heq, fun heq ↦ congrArg Except.error heq⟩
  · exact iff_of_false (fun heq ↦ by cases heq) ((wp_ok hcode hrun).2.2 hxbox)

/-- A table in which all volumes have the same flags. -/
def uniformTable (flags : UInt32) : XboxPartitionTable :=
  { backupPartTable with tableEntries := fun _ ↦ ⟨packedText "", flags, 0, 0, 0⟩ }

theorem slaveAgrees_setTable (state : FatFsState δ) (table : XboxPartitionTable) (read : Bool) :
    SlaveAgrees state (state.setTable .master table read) :=
  ⟨rfl, rfl, rfl, fun _ _ ↦ rfl⟩

/-- A volume on a disk of the Xbox shows what the table of the master disk says. -/
theorem MasterUnused.of_sameResult {device : BlockDevice io} (hsound : ¬ device.faulty)
    (write : Bool) (stray : ℕ → UInt32)
    (hsame : ∀ other, SlaveAgrees state other →
      mountResult io vol write stray state = mountResult io vol write stray other) :
    MasterUnused device vol state := by
  intro fs hfs
  by_contra hneither
  obtain ⟨hunmounted, hxbox⟩ := not_or.mp hneither
  rw [not_not] at hxbox
  have hcode : ∀ flags, (mountResult io vol write stray state).1 = .error .notEnabled ↔
      flags &&& partflagsInUse = 0 := by
    intro flags
    rw [hsame _ (slaveAgrees_setTable state (uniformTable flags) true)]
    exact mountResult_notEnabled hsound vol write stray hfs hunmounted hxbox rfl
  exact absurd ((hcode partflagsInUse).mp ((hcode 0).mpr (by decide))) (by decide)

/-- A slave disk with one partition, a small volume of another file system that starts where the
stock table has the first volume. -/
def fatState : FatFsState RamDisk where
  drive _ :=
    { sectorCount := xboxExtendStartLba.toUInt64
      bytes := writeFields [(446, [0, 0, 0, 0, 1, 0, 0, 0, 0x00, 0xF4, 0x55, 0x00, 20, 0, 0, 0]),
        (510, [0x55, 0xAA]),
        (512 * xboxStoreStartLba.toNat, [0xEB, 0, 0, 0, 0, 0, 0, 0, 0, 0, 0, 0, 2, 1, 1, 0, 1, 16,
          0, 20, 0, 0, 1, 0]),
        (512 * xboxStoreStartLba.toNat + 54, [0x46, 0x41, 0x54]),
        (512 * xboxStoreStartLba.toNat + 510, [0x55, 0xAA])] fun _ ↦ 0 }
  fatxPartTable _ := backupPartTable
  fatxPartTableRead _ := false
  fatFs _ := some blankFs

/-- A slave disk of the Xbox with the stock table and a boot sector in its second partition, next
to a master disk with some table. -/
def slaveState (master : XboxPartitionTable) : FatFsState RamDisk where
  drive _ :=
    { sectorCount := xboxExtendStartLba.toUInt64
      bytes := writeFields [(512 * 3, driveMagic),
        (512 * xboxSystemStartLba.toNat, [0x46, 0x41, 0x54, 0x58, 0x45, 0, 0, 0, 32])]
          (overlay (fun _ ↦ 0) 0 512 backupPartTable.image) }
  fatxPartTable pdrv := if pdrv = .master then master else backupPartTable
  fatxPartTableRead _ := true
  fatFs _ := some blankFs

/-- A table of the master disk with a volume under the number of the first slave volume. -/
def extendedTable : XboxPartitionTable :=
  { backupPartTable with
    tableEntries := fun number ↦
      if number = 7 then backupPartTable.tableEntries 1 else backupPartTable.tableEntries number }

end XBlast.Fatx
