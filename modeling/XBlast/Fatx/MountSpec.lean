import XBlast.Fatx.Mount

/-!
# What mounting finds

On a disk that does not fail, the window holds the sector that it names, and `check_fs` answers
from the content of the disk alone. The mount of a FATX volume takes the entry of the volume from
`mountTable`: the table in memory for the master disk, and only when there is none the table on
the disk of the volume.
-/

set_option autoImplicit false
set_option relaxedAutoImplicit false

namespace XBlast.Fatx

open Foundation Disk Program Option

section

variable {δ : Type} {io : DiskIo δ} (device : BlockDevice io) (pdrv : Drive)

/-- The content of the disk of a volume. -/
def diskContent (state : VolumeState δ) : Bytes :=
  device.content (state.system.drive pdrv)

/-- An unchanged window that holds the sector it names, 0xFFFFFFFF standing for no sector. -/
structure WindowHolds (state : VolumeState δ) : Prop where
  clean : state.fs.wflag = false
  bytes : state.fs.winsect ≠ 0xFFFFFFFF → ∀ index < 512,
    state.fs.win index = diskContent device pdrv state (512 * state.fs.winsect.toNat + index)

/-- What loading sectors into the window leaves as it was. -/
structure Loaded (before after : VolumeState δ) : Prop where
  holds : WindowHolds device pdrv after
  content : diskContent device pdrv after = diskContent device pdrv before
  table : after.system.fatxPartTable = before.system.fatxPartTable
  read : after.system.fatxPartTableRead = before.system.fatxPartTableRead
  entry : after.fs.fatxPartitionEntry = before.fs.fatxPartitionEntry

/-- The window shows a sector of the disk as it was before. -/
def ShowsSector (before : VolumeState δ) (sector : UInt32) (after : VolumeState δ) : Prop :=
  ∀ index < 512, after.fs.win index =
    diskContent device pdrv before (512 * sector.toNat + index)

variable {device pdrv} {state before after : VolumeState δ}

theorem syncWindow_clean (hclean : state.fs.wflag = false) :
    (syncWindow io pdrv).wp (fun _ after ↦ after = state) (fun _ _ ↦ False) state := by
  rw [syncWindow, wp_bind, wp_gets, wp_ite]
  constructor
  · intro hdirty
    exact absurd hdirty (by simp [hclean])
  · intro _
    rfl

/-- Loading a sector fails only on a faulty disk, and then the window holds none. -/
theorem moveWindow_spec (sector : UInt32) (hstate : WindowHolds device pdrv state) :
    (moveWindow io pdrv sector).wp
      (fun _ after ↦ Loaded device pdrv state after ∧ after.fs.isFATX = state.fs.isFATX ∧
        after.fs.winsect = sector ∧
        (sector ≠ 0xFFFFFFFF ∨ state.fs.winsect ≠ 0xFFFFFFFF →
          ShowsSector device pdrv state sector after))
      (fun _ after ↦ device.faulty ∧ Loaded device pdrv state after ∧
        after.fs.isFATX = state.fs.isFATX) state := by
  rw [moveWindow, wp_bind, wp_gets, wp_ite]
  constructor
  · rintro rfl
    exact ⟨⟨hstate, rfl, rfl, rfl, rfl⟩, rfl, rfl, fun hsector ↦ hstate.bytes (hsector.elim id id)⟩
  · intro _
    rw [wp_bind]
    refine wp_safe (syncWindow_clean hstate.clean) ?_
    rintro _ _ rfl
    rw [wp_bind, wp_modifyOnError, onDisk, wp_onPart]
    refine wp_mono (onDrive_diskRead_spec device pdrv _ sector) ?_ ?_
    · rintro data system ⟨hchange, hdata⟩
      have hcontent := hchange.content
      obtain ⟨disk, _, rfl⟩ := hchange
      refine ⟨⟨⟨hstate.clean, fun _ index hindex ↦ ?_⟩, hcontent, rfl, rfl, rfl⟩, rfl, rfl,
        fun _ ↦ hdata⟩
      exact (hdata index hindex).trans (congrFun hcontent _).symm
    · rintro code system ⟨_, hfaulty, hchange⟩
      have hcontent := hchange.content
      obtain ⟨disk, _, rfl⟩ := hchange
      exact ⟨hfaulty, ⟨⟨hstate.clean, fun hne ↦ absurd rfl hne⟩, hcontent, rfl, rfl, rfl⟩, rfl⟩

variable (device pdrv)

/-- A disk that is known to have the magic of the Xbox, or has it. -/
def XboxDisk (state : VolumeState δ) : Prop :=
  state.fs.isFATX = true ∨ bytesAt (diskContent device pdrv state) (512 * 3) 4 = driveMagic

/-- The table that the mount takes the entry of a volume from. -/
def mountTable (state : VolumeState δ) : XboxPartitionTable :=
  if state.system.fatxPartTableRead .master then state.system.fatxPartTable .master
  else (mbrOf (diskContent device pdrv state)).2

/-- What `check_fs` leaves on a disk of the Xbox. -/
structure Booted (before after : VolumeState δ) : Prop where
  holds : WindowHolds device pdrv after
  content : diskContent device pdrv after = diskContent device pdrv before
  table : after.system.fatxPartTable .master = mountTable device pdrv before
  read : after.system.fatxPartTableRead .master = true
  isFATX : after.fs.isFATX = true
  entry : after.fs.fatxPartitionEntry = before.fs.fatxPartitionEntry

variable {device pdrv}

theorem Loaded.mountTable_eq (hloaded : Loaded device pdrv before after) :
    mountTable device pdrv after = mountTable device pdrv before := by
  rw [mountTable, mountTable, hloaded.read, hloaded.table, hloaded.content]

theorem Booted.loaded {before middle after : VolumeState δ}
    (hbooted : Booted device pdrv before middle) (hloaded : Loaded device pdrv middle after)
    (hisFATX : after.fs.isFATX = middle.fs.isFATX) : Booted device pdrv before after :=
  ⟨hloaded.holds, hloaded.content.trans hbooted.content,
    (congrFun hloaded.table .master).trans hbooted.table,
    (congrFun hloaded.read .master).trans hbooted.read, hisFATX.trans hbooted.isFATX,
    hloaded.entry.trans hbooted.entry⟩

theorem Loaded.booted {before middle after : VolumeState δ}
    (hloaded : Loaded device pdrv before middle) (hbooted : Booted device pdrv middle after) :
    Booted device pdrv before after :=
  ⟨hbooted.holds, hbooted.content.trans hloaded.content,
    hbooted.table.trans hloaded.mountTable_eq, hbooted.read, hbooted.isFATX,
    hbooted.entry.trans hloaded.entry⟩

theorem checkBrfr_spec (hstate : WindowHolds device pdrv state) :
    (checkBrfr io pdrv).wp
      (fun _ after ↦ Loaded device pdrv state after ∧
        (after.fs.isFATX = true ↔ XboxDisk device pdrv state) ∧
        (¬after.fs.isFATX = true → after.fs.winsect = 3))
      (fun _ after ↦ device.faulty ∧ Loaded device pdrv state after ∧
        after.fs.isFATX = state.fs.isFATX) state := by
  rw [checkBrfr, wp_bind, wp_gets, wp_ite]
  constructor
  · intro hisFATX
    exact ⟨⟨hstate, rfl, rfl, rfl, rfl⟩, iff_of_true hisFATX (.inl hisFATX), absurd hisFATX⟩
  · intro hisFATX
    rw [wp_bind]
    refine wp_mono (moveWindow_spec 3 hstate) ?_ fun _ _ hfailed ↦ hfailed
    rintro _ loaded ⟨hloaded, -, hwinsect, hshows⟩
    have hbytes : bytesAt loaded.fs.win 0 4 =
        bytesAt (diskContent device pdrv state) (512 * 3) 4 := by
      refine List.map_congr_left fun index hindex ↦ ?_
      have hlow := List.mem_range.mp hindex
      rw [zero_add]
      exact hshows (.inl (by decide)) index (by omega)
    refine ⟨⟨⟨hloaded.holds.clean, hloaded.holds.bytes⟩, hloaded.content, hloaded.table,
      hloaded.read, hloaded.entry⟩, ?_, fun _ ↦ hwinsect⟩
    rw [decide_eq_true_iff, hbytes, XboxDisk, or_iff_right hisFATX]

variable (hsound : ¬ device.faulty)

include hsound in
theorem loadMasterTable_spec (hstate : WindowHolds device pdrv state)
    (hisFATX : state.fs.isFATX = true) :
    (loadMasterTable io pdrv).wp (fun _ after ↦ Booted device pdrv state after)
      (fun _ _ ↦ False) state := by
  rw [loadMasterTable, wp_bind, wp_gets, wp_ite]
  constructor
  · intro hread
    exact ⟨hstate, rfl, by rw [mountTable, if_pos hread], hread, hisFATX, rfl⟩
  · intro hread
    rw [wp_bind]
    refine wp_mono (moveWindow_spec 0 hstate) ?_ fun _ _ hfailed ↦ hsound hfailed.1
    rintro _ loaded ⟨hloaded, hsame, -, hshows⟩
    have htable : XboxPartitionTable.ofImage loaded.fs.win =
        .ofImage (diskContent device pdrv state) := by
      refine XboxPartitionTable.ofImage_congr fun index hindex ↦ ?_
      have hbyte := hshows (.inl (by decide)) index (by omega)
      rwa [show 512 * (0 : UInt32).toNat + index = index from zero_add index] at hbyte
    refine ⟨⟨hloaded.holds.clean, hloaded.holds.bytes⟩, hloaded.content, ?_, rfl,
      hsame.trans hisFATX, hloaded.entry⟩
    change (if (XboxPartitionTable.ofImage loaded.fs.win).magic = backupPartTable.magic then
      XboxPartitionTable.ofImage loaded.fs.win else backupPartTable) = _
    rw [htable, mountTable, if_neg hread, mbrOf]
    split_ifs
    · rfl
    · rfl

variable (content : Bytes)

/-- A boot sector of the FATX file system at a sector. -/
def FatxMagic (sector : UInt32) : Prop :=
  littleEndian32 content (512 * sector.toNat) = fatxPartitionMagic

variable (sect : UInt32)

include hsound in
theorem checkFatx_spec (hstate : WindowHolds device pdrv state) (hisFATX : state.fs.isFATX = true) :
    (checkFatx io pdrv sect).wp
      (fun code after ↦ Booted device pdrv state after ∧
        (sect ≠ 0xFFFFFFFF →
          (code = .fatxOk ↔ sect = 0 ∨ FatxMagic (diskContent device pdrv state) sect)) ∧
        (sect ≠ 0 → after.fs.winsect = sect))
      (fun _ _ ↦ False) state := by
  rw [checkFatx, wp_bind]
  refine wp_safe (loadMasterTable_spec hsound hstate hisFATX) ?_
  intro _ booted hbooted
  rw [wp_ite]
  constructor
  · intro hzero
    exact ⟨hbooted, fun _ ↦ iff_of_true rfl (.inl hzero), fun hne ↦ absurd hzero hne⟩
  · intro hne
    rw [wp_bind]
    refine wp_mono (moveWindow_spec sect hbooted.holds) ?_
      fun _ _ hfailed ↦ hsound hfailed.1
    rintro _ loaded ⟨hloaded, hsame, hwinsect, hshows⟩
    refine ⟨hbooted.loaded hloaded hsame, fun hsect ↦ ?_, fun _ ↦ hwinsect⟩
    have hmagic : littleEndian32 loaded.fs.win 0 =
        littleEndian32 (diskContent device pdrv booted) (512 * sect.toNat) :=
      littleEndian32_shift fun index hindex ↦ by
        rw [zero_add]
        exact hshows (.inl hsect) index (by omega)
    rw [hmagic, hbooted.content, or_iff_right hne, FatxMagic]
    split_ifs with hmagic
    · exact iff_of_true rfl hmagic
    · exact iff_of_false (by decide) hmagic

/-- A boot sector of another file system, with its signature, its jump and the text "FAT". -/
structure FatBootSector (win : Bytes) : Prop where
  signature : littleEndian16 win 510 = 0xAA55
  jump : win 0 = 0xE9 ∨ win 0 = 0xEB ∨ win 0 = 0xE8
  text : bytesAt win 54 3 = [0x46, 0x41, 0x54] ∨ bytesAt win 82 5 = [0x46, 0x41, 0x54, 0x33, 0x32]

/-- A boot sector of another file system at a sector. -/
def FatBoot (sector : UInt32) : Prop :=
  FatBootSector fun index ↦ content (512 * sector.toNat + index)

theorem FatBootSector.congr {win other : Bytes} (hboot : FatBootSector win)
    (hsame : ∀ index < 512, win index = other index) : FatBootSector other := by
  obtain ⟨hsignature, hjump, htext⟩ := hboot
  rw [littleEndian16, hsame 510 (by decide), hsame 511 (by decide)] at hsignature
  rw [hsame 0 (by decide)] at hjump
  rw [bytesAt_congr fun index _ ↦ hsame (54 + index) (by omega),
    bytesAt_congr fun index _ ↦ hsame (82 + index) (by omega)] at htext
  exact ⟨hsignature, hjump, htext⟩

/-- The jump is not the first byte of the FATX magic. -/
theorem FatBootSector.ne_magic {win : Bytes} (hboot : FatBootSector win) :
    littleEndian32 win 0 ≠ fatxPartitionMagic := by
  intro hmagic
  have hfirst := byteOf32_littleEndian32 win 0 (show 0 < 4 by decide)
  rw [hmagic] at hfirst
  have hjump := hboot.jump
  rw [← hfirst] at hjump
  exact absurd hjump (by decide)

theorem checkFat_spec (hstate : WindowHolds device pdrv state)
    (hwinsect : state.fs.winsect ≠ 0xFFFFFFFF) :
    (checkFat io pdrv sect).wp
      (fun code after ↦ Loaded device pdrv state after ∧ after.fs.isFATX = state.fs.isFATX ∧
        ShowsSector device pdrv state sect after ∧ code ≠ .fatxOk ∧
        (code.number < FResult.intErr.number → FatBootSector after.fs.win))
      (fun _ after ↦ device.faulty ∧ Loaded device pdrv state after ∧
        after.fs.isFATX = state.fs.isFATX) state := by
  rw [checkFat, wp_bind]
  refine wp_mono (moveWindow_spec sect hstate) ?_ fun _ _ hfailed ↦ hfailed
  rintro _ loaded ⟨hloaded, hsame, -, hshows⟩
  replace hshows := hshows (.inr hwinsect)
  rw [wp_bind, wp_gets, wp_ite]
  constructor
  · intro _
    exact ⟨hloaded, hsame, hshows, by decide, fun hless ↦ absurd hless (by decide)⟩
  · intro hsignature
    rw [wp_ite]
    constructor
    · intro hboot
      exact ⟨hloaded, hsame, hshows, by decide, fun _ ↦ ⟨not_not.mp hsignature, hboot.1, hboot.2⟩⟩
    · intro _
      exact ⟨hloaded, hsame, hshows, by decide, fun hless ↦ absurd hless (by decide)⟩

theorem xboxDisk_congr (hcontent : diskContent device pdrv after = diskContent device pdrv before)
    (hisFATX : after.fs.isFATX = before.fs.isFATX) :
    XboxDisk device pdrv after ↔ XboxDisk device pdrv before := by
  rw [XboxDisk, XboxDisk, hcontent, hisFATX]

include hsound in
theorem checkFs_xbox_spec (hxbox : XboxDisk device pdrv state) :
    (checkFs io pdrv sect).wp
      (fun code after ↦ Booted device pdrv state after ∧
        (sect ≠ 0xFFFFFFFF →
          (code = .fatxOk ↔ sect = 0 ∨ FatxMagic (diskContent device pdrv state) sect)) ∧
        (sect ≠ 0 → after.fs.winsect = sect))
      (fun _ _ ↦ False) state := by
  rw [checkFs, wp_recover, wp_bind, modifyFs, wp_modify, wp_bind]
  refine wp_mono (checkBrfr_spec ⟨rfl, fun hne ↦ absurd rfl hne⟩) ?_
    fun _ _ hfailed ↦ absurd hfailed.1 hsound
  rintro _ loaded ⟨hloaded, hknown, -⟩
  have hisFATX := hknown.mpr hxbox
  rw [wp_bind, wp_gets, if_pos hisFATX]
  refine wp_safe (checkFatx_spec hsound sect hloaded.holds hisFATX) ?_
  rintro code after ⟨hbooted, hcode, hwinsect⟩
  have hall := hloaded.booted hbooted
  rw [hloaded.content] at hcode
  exact ⟨⟨hall.holds, hall.content, hall.table, hall.read, hall.isFATX, hall.entry⟩, hcode,
    hwinsect⟩

/-- What `check_fs` leaves on another disk. -/
structure FatChecked (device : BlockDevice io) (pdrv : Drive) (sect : UInt32)
    (before : VolumeState δ) (code : FResult) (after : VolumeState δ) : Prop where
  notXbox : ¬ XboxDisk device pdrv after
  content : diskContent device pdrv after = diskContent device pdrv before
  notFatx : code ≠ .fatxOk
  boot : code.number < FResult.intErr.number →
    FatBootSector after.fs.win ∧ FatBoot (diskContent device pdrv before) sect

theorem checkFs_fat_spec (hxbox : ¬ XboxDisk device pdrv state) :
    (checkFs io pdrv sect).wp
      (fun code after ↦ FatChecked device pdrv sect state code after ∧
        (code ≠ .noFile → ShowsSector device pdrv state sect after))
      (fun _ _ ↦ False) state := by
  rw [checkFs, wp_recover, wp_bind, modifyFs, wp_modify, wp_bind]
  -- The code for a failure of the disk is none of those that stand for a boot sector.
  have hfailure : ∀ after : VolumeState δ, diskContent device pdrv after =
      diskContent device pdrv state → after.fs.isFATX = state.fs.isFATX →
      FatChecked device pdrv sect state .noFile after ∧
        (FResult.noFile ≠ .noFile → ShowsSector device pdrv state sect after) :=
    fun after hcontent hisFATX ↦
      ⟨⟨fun hafter ↦ hxbox ((xboxDisk_congr hcontent hisFATX).mp hafter), hcontent, by decide,
        fun hless ↦ absurd hless (by decide)⟩, absurd rfl⟩
  refine wp_mono (checkBrfr_spec ⟨rfl, fun hne ↦ absurd rfl hne⟩) ?_
    fun _ after hfailed ↦ hfailure after hfailed.2.1.content hfailed.2.2
  rintro _ loaded ⟨hloaded, hknown, hwinsect⟩
  have hisFATX : ¬ loaded.fs.isFATX = true := fun hisFATX ↦ hxbox (hknown.mp hisFATX)
  have hsame : loaded.fs.isFATX = state.fs.isFATX :=
    (Bool.eq_false_iff.mpr hisFATX).trans (Bool.eq_false_iff.mpr fun hset ↦ hxbox (.inl hset)).symm
  rw [wp_bind, wp_gets, if_neg hisFATX]
  refine wp_mono (checkFat_spec sect hloaded.holds (by rw [hwinsect hisFATX]; decide)) ?_
    fun _ after hfailed ↦
      hfailure after (hfailed.2.1.content.trans hloaded.content) (hfailed.2.2.trans hsame)
  rintro code after ⟨hchecked, hkept, hshows, hcode, hboot⟩
  have hcontent := hchecked.content.trans hloaded.content
  have hsector : ShowsSector device pdrv state sect after := fun index hindex ↦
    (hshows index hindex).trans (congrFun hloaded.content _)
  exact ⟨⟨fun hafter ↦ hxbox ((xboxDisk_congr hcontent (hkept.trans hsame)).mp hafter), hcontent,
    hcode, fun hless ↦ ⟨hboot hless, (hboot hless).congr hsector⟩⟩, fun _ ↦ hsector⟩

theorem checkPartition_spec (hxbox : ¬ XboxDisk device pdrv state) :
    (checkPartition io pdrv sect).wp (FatChecked device pdrv sect state) (fun _ _ ↦ False)
      state := by
  rw [checkPartition, wp_ite]
  constructor
  · intro _
    exact ⟨hxbox, rfl, by decide, fun hless ↦ absurd hless (by decide)⟩
  · intro _
    exact wp_safe (checkFs_fat_spec sect hxbox) fun _ _ hchecked ↦ hchecked.1

theorem tryPartitions_spec (br : ℕ → UInt32) (tries index : ℕ)
    (hxbox : ¬ XboxDisk device pdrv state) :
    (tryPartitions io pdrv br tries index).wp
      (fun answer after ↦ (∃ number, index ≤ number ∧ number ≤ index + tries ∧
        answer.2 = br number) ∧ FatChecked device pdrv answer.2 state answer.1 after)
      (fun _ _ ↦ False) state := by
  induction tries generalizing index state with
  | zero =>
    rw [tryPartitions, wp_bind]
    exact wp_safe (checkPartition_spec (br index) hxbox)
      (fun _ _ hchecked ↦ ⟨⟨index, le_rfl, le_rfl, rfl⟩, hchecked⟩)
  | succ tries ih =>
    rw [tryPartitions, wp_bind]
    refine wp_safe (checkPartition_spec (br index) hxbox) ?_
    intro code after hchecked
    rw [wp_ite]
    refine ⟨fun _ ↦ ?_, fun _ ↦ ⟨⟨index, le_rfl, by omega, rfl⟩, hchecked⟩⟩
    refine wp_safe (ih (index + 1) hchecked.notXbox) ?_
    rintro answer final ⟨⟨number, hlow, hhigh, hanswer⟩, hfinal⟩
    obtain ⟨hnotXbox, hcontent, hnotFatx, hboot⟩ := hfinal
    rw [hchecked.content] at hcontent hboot
    exact ⟨⟨number, by omega, by omega, hanswer⟩, hnotXbox, hcontent, hnotFatx, hboot⟩

/-- The sectors that are tried for the start of a volume on a disk that is not formatted for the
Xbox: the first one for the first volume, and those in the partition table of the disk, of which
each of the other volumes has one. -/
def FatStart (stray : ℕ → UInt32) (vol : Fin 14) (start : UInt32) : Prop :=
  (volumePart vol).val = 0 ∧ start = 0 ∨ ∃ index, start = partitionStart content stray index ∧
    if (volumePart vol).val = 0 then index < 4 else index + 1 = (volumePart vol).val

/-- A volume with another file system is found at a sector, which is in the window. -/
structure FatFound (content : Bytes) (stray : ℕ → UInt32) (vol : Fin 14) (bsect : UInt32)
    (win : Bytes) : Prop where
  start : FatStart content stray vol bsect
  boot : FatBoot content bsect
  window : FatBootSector win

theorem partitionStart_congr {win other : Bytes}
    (hsame : ∀ index < 512, win index = other index) (stray : ℕ → UInt32) :
    partitionStart win stray = partitionStart other stray := by
  funext index
  rw [partitionStart, partitionStart]
  by_cases hindex : index < 4
  · rw [hsame _ (by omega), littleEndian32_congr fun byte _ ↦ hsame (454 + 16 * index + byte)
      (by omega)]
  · rw [if_neg hindex, if_neg hindex]

/-- On a disk without the magic of the Xbox a volume is found at a boot sector of another file
system. -/
theorem locateVolume_fat_spec (vol : Fin 14) (stray : ℕ → UInt32)
    (hxbox : ¬ XboxDisk device (volumeDrive vol) state) :
    (locateVolume io vol stray).wp
      (fun bsect after ↦
        FatFound (diskContent device (volumeDrive vol) state) stray vol bsect after.fs.win)
      (fun _ _ ↦ True) state := by
  rw [locateVolume, wp_bind]
  refine wp_mono (checkFs_fat_spec 0 hxbox) ?_ fun _ _ _ ↦ trivial
  rintro fmt checked ⟨hchecked, hshows⟩
  rw [wp_bind, wp_gets, if_neg fun hboth ↦ hchecked.notFatx hboth.1, wp_bind]
  have hfound : (findFatPartition io vol stray fmt).wp
      (fun answer after ↦ answer.1.number < FResult.intErr.number →
        FatFound (diskContent device (volumeDrive vol) state) stray vol answer.2 after.fs.win)
      (fun _ _ ↦ False) checked := by
    rw [findFatPartition, wp_ite]
    constructor
    · intro hsearch
      have hloaded : fmt ≠ .noFile := by
        rintro rfl
        exact hsearch.elim nofun fun hless ↦ absurd hless.1 (by decide)
      have htable : partitionStart checked.fs.win stray =
          partitionStart (diskContent device (volumeDrive vol) state) stray :=
        partitionStart_congr (fun index hindex ↦ by
          rw [hshows hloaded index hindex]
          exact congrArg _ (zero_add index)) stray
      have htried (tries index : ℕ) (hindex : ∀ number, index ≤ number → number ≤ index + tries →
          if (volumePart vol).val = 0 then number < 4 else number + 1 = (volumePart vol).val) :
          (tryPartitions io (volumeDrive vol) (partitionStart checked.fs.win stray) tries index).wp
            (fun answer after ↦ answer.1.number < FResult.intErr.number →
              FatFound (diskContent device (volumeDrive vol) state) stray vol answer.2 after.fs.win)
            (fun _ _ ↦ False) checked := by
        refine wp_safe (tryPartitions_spec _ tries index hchecked.notXbox) ?_
        rintro answer after ⟨⟨number, hlow, hhigh, hanswer⟩, hafter⟩ hless
        obtain ⟨hwindow, hboot⟩ := hafter.boot hless
        exact ⟨.inr ⟨number, by rw [hanswer, htable], hindex number hlow hhigh⟩,
          hchecked.content ▸ hboot, hwindow⟩
      rw [wp_bind, wp_gets, wp_ite]
      refine ⟨fun hzero ↦ htried 3 0 fun number _ hhigh ↦ ?_,
        fun hpart ↦ htried 0 _ fun number hlow hhigh ↦ ?_⟩
      · rw [if_pos hzero]
        omega
      · rw [if_neg hpart]
        omega
    · intro hstay hless
      obtain ⟨hwindow, hboot⟩ := hchecked.boot hless
      exact ⟨.inl ⟨by_contra fun hpart ↦ hstay (.inr ⟨hless, hpart⟩), rfl⟩, hboot, hwindow⟩
  refine wp_mono hfound ?_ fun _ _ _ ↦ trivial
  rintro ⟨code, bsect⟩ after hafter
  rw [wp_bind, wp_stopIf]
  refine ⟨fun _ ↦ trivial, fun _ ↦ ?_⟩
  rw [wp_bind, wp_stopIf]
  exact ⟨fun _ ↦ trivial, fun hless ↦ hafter (Int.not_le.mp hless)⟩

/-- The entry of a volume in the table that the mount uses. -/
def mountEntry (device : BlockDevice io) (vol : Fin 14) (state : VolumeState δ) :
    XboxPartitionTableEntry :=
  (mountTable device (volumeDrive vol) state).tableEntries vol

/-- The entry of a volume in the table on its own disk. -/
def ownEntry (device : BlockDevice io) (vol : Fin 14) (state : FatFsState δ) :
    XboxPartitionTableEntry :=
  (mbrOf (device.content (state.drive (volumeDrive vol)))).2.tableEntries (volumePart vol)

/-- What locating a volume on a disk of the Xbox leaves. -/
structure Located (device : BlockDevice io) (vol : Fin 14) (before after : VolumeState δ) :
    Prop where
  content : diskContent device (volumeDrive vol) after = diskContent device (volumeDrive vol) before
  entry : after.fs.fatxPartitionEntry = mountEntry device vol before
  inUse : (mountEntry device vol before).flags &&& partflagsInUse ≠ 0
  window : (mountEntry device vol before).lbaStart ≠ 0 →
    (mountEntry device vol before).lbaStart ≠ 0xFFFFFFFF → ∀ index < 512,
      after.fs.win index = diskContent device (volumeDrive vol) before
        (512 * (mountEntry device vol before).lbaStart.toNat + index)

/-- A volume that is in use and has a boot sector of the FATX file system. -/
def HasBootSector (device : BlockDevice io) (vol : Fin 14) (state : VolumeState δ) : Prop :=
  (mountEntry device vol state).flags &&& partflagsInUse ≠ 0 ∧
    (mountEntry device vol state).lbaStart ≠ 0xFFFFFFFF ∧
    FatxMagic (diskContent device (volumeDrive vol) state) (mountEntry device vol state).lbaStart

include hsound in
theorem locateVolume_xbox_spec (vol : Fin 14) (stray : ℕ → UInt32)
    (hxbox : XboxDisk device (volumeDrive vol) state) :
    (locateVolume io vol stray).wp (fun _ after ↦ Located device vol state after)
      (fun code _ ↦ ¬ HasBootSector device vol state ∧
        (code = .notEnabled ↔ (mountEntry device vol state).flags &&& partflagsInUse = 0))
      state := by
  rw [locateVolume, wp_bind]
  refine wp_safe (checkFs_xbox_spec hsound 0 hxbox) ?_
  rintro fmt booted ⟨hbooted, hfmt, _⟩
  rw [wp_bind, wp_gets, if_pos ⟨(hfmt (by decide)).mpr (.inl rfl), hbooted.read⟩, wp_bind, wp_gets,
    hbooted.table, wp_bind, modifyFs, wp_modify, wp_bind, wp_stopIf]
  refine ⟨fun hunused ↦ ⟨fun hboot ↦ hboot.1 hunused, iff_of_true rfl hunused⟩, fun hinUse ↦ ?_⟩
  rw [wp_bind]
  have hstill : XboxDisk device (volumeDrive vol)
      ⟨{ booted.fs with
          fatxPartitionEntry := (mountTable device (volumeDrive vol) state).tableEntries vol
          fatxPartTableRead := true }, booted.system⟩ := .inl hbooted.isFATX
  refine wp_safe (checkFs_xbox_spec hsound _ hstill) ?_
  rintro code after ⟨hafter, hcode, hwinsect⟩
  have hcontent : diskContent device (volumeDrive vol) after =
      diskContent device (volumeDrive vol) state := hafter.content.trans hbooted.content
  rw [wp_bind, wp_stopIf]
  constructor
  · intro hfailed
    refine ⟨fun hboot ↦ hfailed ((hcode hboot.2.1).mpr (.inr ?_)),
      iff_of_false (by decide) hinUse⟩
    have hmagic := hboot.2.2
    rw [← hbooted.content] at hmagic
    exact hmagic
  · intro _
    refine ⟨hcontent, hafter.entry, hinUse, fun hzero hlast index hindex ↦ ?_⟩
    have hbytes := hafter.holds.bytes
    rw [hwinsect hzero, hcontent] at hbytes
    exact hbytes hlast index hindex

/-! ### The geometry of a FATX volume -/

def FsType.isFatx : FsType → Bool
  | .fatx16 | .fatx32 => true
  | _ => false

/-- The kind of a FATX volume with this number of clusters. -/
def fatxType (nclst : UInt32) : FsType := if nclst + 1 < maxFatx16 then .fatx16 else .fatx32

/-- The geometry that the mount computes. -/
structure FatxVolume (fs : FatFs) : Prop where
  fsTypex : fs.fsTypex = some (fatxType (fs.fatxPartitionEntry.lbaSize / fs.csize.toUInt32))
  fsize : fs.fsize = fatSectors (fatxType (fs.fatxPartitionEntry.lbaSize / fs.csize.toUInt32))
    (fs.fatxPartitionEntry.lbaSize / fs.csize.toUInt32)
  clusters : fs.fatxPartitionEntry.lbaSize / fs.csize.toUInt32 ≠ 0
  room : ¬ fs.fatxPartitionEntry.lbaSize < 8 + fs.fsize
  nFatent : fs.nFatent =
    (fs.fatxPartitionEntry.lbaSize - (8 + fs.fsize)) / fs.csize.toUInt32 + 2
  fatbase : fs.fatbase = fs.fatxPartitionEntry.lbaStart + 8
  database : fs.database = fs.fatxPartitionEntry.lbaStart + 8 + (8 + fs.fsize) - 8

/-- A partition and a cluster size that the mount accepts. -/
structure GeometryFits (lbaSize : UInt32) (csize : UInt16) : Prop where
  csize_ne : csize ≠ 0
  powerOfTwo : csize &&& (csize - 1) = 0
  clusters : lbaSize / csize.toUInt32 ≠ 0
  room : ¬ lbaSize < 8 + fatSectors (fatxType (lbaSize / csize.toUInt32))
    (lbaSize / csize.toUInt32)

theorem fatxType_isFatx (nclst : UInt32) : (fatxType nclst).isFatx = true := by
  rw [fatxType]
  split_ifs
  · rfl
  · rfl

theorem fatxGeometry_spec (fs : FatFs) :
    fatxGeometry.wp
      (fun fmt after ↦ FatxVolume { after with fsTypex := some fmt } ∧ fmt.isFatx = true ∧
        after.fatxPartitionEntry = fs.fatxPartitionEntry ∧ after.csize = (fs.win 8).toUInt16)
      (fun code _ ↦ code = .noFilesystem ∧
        ¬ GeometryFits fs.fatxPartitionEntry.lbaSize (fs.win 8).toUInt16) fs := by
  rw [fatxGeometry]
  simp only [wp_bind, wp_modify, wp_gets, wp_stopIf, wp_pure, id_eq, true_and]
  refine ⟨fun hcsize hfits ↦ ?_, fun _ ↦ ⟨fun hclusters hfits ↦ hfits.clusters hclusters,
    fun hclusters ↦ ⟨fun hroom hfits ↦ hfits.room hroom, fun hroom ↦ ?_⟩⟩⟩
  · rcases hcsize with hzero | hpower
    · exact hfits.csize_ne hzero
    · exact hpower hfits.powerOfTwo
  · exact ⟨⟨rfl, rfl, hclusters, hroom, rfl, rfl, rfl⟩, fatxType_isFatx _, trivial⟩

theorem fatType_isFatx {nclst : UInt32} {fmt : FsType} (hfmt : fatType nclst = some fmt) :
    fmt.isFatx = false := by
  rw [fatType] at hfmt
  split_ifs at hfmt
  · obtain rfl := some.inj hfmt
    rfl
  · obtain rfl := some.inj hfmt
    rfl
  · obtain rfl := some.inj hfmt
    rfl

theorem onDisk_volbase {α : Type} (pdrv : Drive) (program : Program δ FResult α)
    (state : VolumeState δ) :
    (onDisk pdrv program).wp (fun _ after ↦ after.fs.volbase = state.fs.volbase)
      (fun _ after ↦ after.fs.volbase = state.fs.volbase) state := by
  rw [onDisk, wp_onPart]
  exact wp_of_forall (fun _ _ ↦ rfl) fun _ _ ↦ rfl

/-- Loading a sector does not move the volume. -/
theorem moveWindow_volbase (io : DiskIo δ) (pdrv : Drive) (sector : UInt32)
    (state : VolumeState δ) :
    (moveWindow io pdrv sector).wp (fun _ after ↦ after.fs.volbase = state.fs.volbase)
      (fun _ after ↦ after.fs.volbase = state.fs.volbase) state := by
  have hsync : (syncWindow io pdrv).wp (fun _ after ↦ after.fs.volbase = state.fs.volbase)
      (fun _ after ↦ after.fs.volbase = state.fs.volbase) state := by
    rw [syncWindow, wp_bind, wp_gets, wp_ite, wp_bind]
    refine ⟨fun _ ↦ ?_, fun _ ↦ rfl⟩
    refine wp_mono (onDisk_volbase pdrv _ state) (fun _ written hwritten ↦ ?_) fun _ _ h ↦ h
    rw [wp_bind, modifyFs, wp_modify, wp_ite, wp_bind, wp_succeeds]
    refine ⟨fun _ ↦ ?_, fun _ ↦ hwritten⟩
    exact wp_mono (onDisk_volbase pdrv _ _) (fun _ _ hcopied ↦ hcopied.trans hwritten)
      fun _ _ hcopied ↦ hcopied.trans hwritten
  rw [moveWindow, wp_bind, wp_gets, wp_ite, wp_bind]
  refine ⟨fun _ ↦ rfl, fun _ ↦ wp_mono hsync (fun _ synced hsynced ↦ ?_) fun _ _ h ↦ h⟩
  rw [wp_bind, wp_modifyOnError]
  exact wp_mono (onDisk_volbase pdrv _ synced) (fun _ _ hread ↦ hread.trans hsynced)
    fun _ _ hread ↦ hread.trans hsynced

theorem fatGeometry_spec (io : DiskIo δ) (pdrv : Drive) (bsect : UInt32) (state : VolumeState δ) :
    (fatGeometry io pdrv bsect).wp (fun fmt after ↦ fmt.isFatx = false ∧ after.fs.volbase = bsect)
      (fun code _ ↦ code = .noFilesystem) state := by
  rw [fatGeometry]
  repeat refine wp_bind_of_stops (by simp [modifyFs]) fun _ _ ↦ ?_
  split
  · rfl
  · rename_i hfmt
    simp only [wp_bind, wp_stopIf, modifyFs, wp_modify]
    refine ⟨fun _ ↦ trivial, fun _ ↦ ⟨fun _ ↦ trivial, fun _ ↦ ⟨fun _ ↦ trivial, fun _ ↦ ?_⟩⟩⟩
    rw [wp_ite]
    constructor
    · intro _
      rw [wp_bind, loadFsInfo, wp_bind, wp_succeeds]
      refine wp_mono (moveWindow_volbase io pdrv (bsect + 1) _) (fun _ loaded hloaded ↦ ?_)
        fun _ _ hloaded ↦ ⟨fatType_isFatx hfmt, hloaded⟩
      rw [if_pos rfl, modifyFs, wp_modify]
      exact ⟨fatType_isFatx hfmt, hloaded⟩
    · intro _
      exact ⟨fatType_isFatx hfmt, rfl⟩

/-! ### The mount -/

/-- A filesystem object of a mounted FATX volume. -/
def IsFatxFs (fs : FatFs) : Prop := fs.fsTypex.any FsType.isFatx = true

/-- What the mount of a FATX volume leaves. -/
structure Mounted (device : BlockDevice io) (vol : Fin 14) (before after : VolumeState δ) :
    Prop where
  xbox : XboxDisk device (volumeDrive vol) before
  content : diskContent device (volumeDrive vol) after = diskContent device (volumeDrive vol) before
  entry : after.fs.fatxPartitionEntry = mountEntry device vol before
  inUse : (mountEntry device vol before).flags &&& partflagsInUse ≠ 0
  volume : FatxVolume after.fs
  csize : (mountEntry device vol before).lbaStart ≠ 0 →
    (mountEntry device vol before).lbaStart ≠ 0xFFFFFFFF →
      after.fs.csize = (diskContent device (volumeDrive vol) before
        (512 * (mountEntry device vol before).lbaStart.toNat + 8)).toUInt16

/-- What the mount of a FATX volume needs. -/
structure Mountable (device : BlockDevice io) (vol : Fin 14) (state : VolumeState δ) : Prop where
  xbox : XboxDisk device (volumeDrive vol) state
  boot : HasBootSector device vol state
  start : (mountEntry device vol state).lbaStart ≠ 0
  fits : GeometryFits (mountEntry device vol state).lbaSize
    (diskContent device (volumeDrive vol) state
      (512 * (mountEntry device vol state).lbaStart.toNat + 8)).toUInt16

/-- The window holds the magic when the entry leads to a boot sector. -/
theorem Located.magic {vol : Fin 14} (hlocated : Located device vol before after)
    (hmountable : Mountable device vol before) :
    littleEndian32 after.fs.win 0 = fatxPartitionMagic := by
  have hwindow := hlocated.window hmountable.start hmountable.boot.2.1
  have hmagic := hmountable.boot.2.2
  rw [FatxMagic, littleEndian32] at hmagic
  rw [littleEndian32, hwindow 0 (by decide), hwindow 1 (by decide), hwindow 2 (by decide),
    hwindow 3 (by decide)]
  exact hmagic

include hsound in
/-- A volume is mounted as FATX only from the entry in `mountTable`, and it is mounted when that
entry leads to a boot sector with a geometry that fits. On a disk of the Xbox this entry alone
decides whether the volume is in use. -/
theorem mountVolume_spec (vol : Fin 14) (stray : ℕ → UInt32) (state : VolumeState δ) :
    (mountVolume io vol stray).wp
      (fun _ after ↦ (IsFatxFs after.fs → Mounted device vol state after) ∧
        (Mountable device vol state → IsFatxFs after.fs) ∧
        (XboxDisk device (volumeDrive vol) state →
          (mountEntry device vol state).flags &&& partflagsInUse ≠ 0))
      (fun code _ ↦ ¬ Mountable device vol state ∧
        (XboxDisk device (volumeDrive vol) state →
          (code = .notEnabled ↔ (mountEntry device vol state).flags &&& partflagsInUse = 0)))
      state := by
  rw [mountVolume, wp_bind, modifyFs, wp_modify, wp_bind]
  by_cases hxbox : XboxDisk device (volumeDrive vol) state
  · refine wp_mono (locateVolume_xbox_spec hsound vol stray hxbox) ?_
      fun _ _ hnone ↦ ⟨fun hmountable ↦ hnone.1 hmountable.boot, fun _ ↦ hnone.2⟩
    intro bsect after hfound
    have hlocated : Located device vol state after :=
      ⟨hfound.content, hfound.entry, hfound.inUse, hfound.window⟩
    rw [wp_bind, volumeGeometry, wp_bind, wp_gets, wp_ite]
    constructor
    · intro _
      rw [onFs, wp_onPart]
      refine wp_mono (fatxGeometry_spec after.fs) ?_ ?_
      · rintro fmt fs ⟨hvolume, hfatx, hentry, hcsize⟩
        refine ⟨fun _ ↦ ⟨hxbox, hlocated.content, hentry.trans hlocated.entry, hlocated.inUse,
          hvolume, fun hzero hlast ↦ ?_⟩, fun _ ↦ hfatx, fun _ ↦ hlocated.inUse⟩
        rw [← hlocated.window hzero hlast 8 (by decide)]
        exact hcsize
      · rintro _ fs ⟨rfl, hunfit⟩
        refine ⟨fun hmountable ↦ hunfit ?_, fun _ ↦ iff_of_false (by decide) hlocated.inUse⟩
        rw [hlocated.entry, hlocated.window hmountable.start hmountable.boot.2.1 8 (by decide)]
        exact hmountable.fits
    · intro hother
      refine wp_mono (fatGeometry_spec io (volumeDrive vol) bsect after) ?_ ?_
      · intro fmt final hfmt
        refine ⟨fun hfatx ↦ absurd hfatx (by simp [IsFatxFs, hfmt]), fun hmountable ↦ ?_,
          fun _ ↦ hlocated.inUse⟩
        exact absurd (hlocated.magic hmountable) hother
      · rintro _ _ rfl
        exact ⟨fun hmountable ↦ hother (hlocated.magic hmountable),
          fun _ ↦ iff_of_false (by decide) hlocated.inUse⟩
  · have hfails : ¬ Mountable device vol state := fun hmountable ↦ hxbox hmountable.xbox
    refine wp_mono (locateVolume_fat_spec vol stray hxbox) ?_
      fun _ _ _ ↦ ⟨hfails, fun h ↦ absurd h hxbox⟩
    intro bsect after hfound
    rw [wp_bind, volumeGeometry, wp_bind, wp_gets, if_neg hfound.window.ne_magic]
    refine wp_mono (fatGeometry_spec io (volumeDrive vol) bsect after) ?_
      fun _ _ _ ↦ ⟨hfails, fun h ↦ absurd h hxbox⟩
    intro fmt final hfmt
    exact ⟨fun hfatx ↦ absurd hfatx (by simp [IsFatxFs, hfmt]), fun h ↦ absurd h hfails,
      fun h ↦ absurd h hxbox⟩

end

end XBlast.Fatx
