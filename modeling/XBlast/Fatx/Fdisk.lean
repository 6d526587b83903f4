import XBlast.Fatx.FatFs

/-!
# Partitioning a disk

`fdisk` of 'FatFSAccessor.c' computes the two partitions behind the base partitions from the size
of the disk and writes the new table. `LayoutSafe` is the condition on the size and on the table of
the disk under which each layout gives partitions side by side: the base layout never does, since
three entries of the backup table have the same start, the layouts with a partition of fixed size do
not look whether the disk has room for it, and no layout looks at the entries behind the seven
partitions, which are kept as they are.
-/

set_option autoImplicit false
set_option relaxedAutoImplicit false

namespace XBlast.Fatx

open Foundation Disk Program

variable {δ : Type}

inductive XboxDiskLayout where
  | base | fOnly | f120GRest | fgSplit | fMaxGRest
  deriving DecidableEq, Repr

/-! ### The new table -/

def lba28Boundary : UInt32 := 0x0FFFFFFF
def lbaSize512GB : UInt32 := 1073741824
def lbaSize1024GB : UInt32 := 2147483645
def lbaSize256GB : UInt32 := 536870912
def lbaSize137GB : UInt32 := lba28Boundary - xboxExtendStartLba
def fatxMinPartSizeLba : UInt32 := 1024000

/-- Gives an entry a new range and clears its flags. -/
def XboxPartitionTable.setRange (number : Fin 14) (lbaStart lbaSize : UInt32)
    (table : XboxPartitionTable) : XboxPartitionTable :=
  { table with
    tableEntries := fun other ↦
      if other = number then
        { table.tableEntries other with lbaStart := lbaStart, lbaSize := lbaSize, flags := 0 }
      else table.tableEntries other }

/-- Rounds a size down to clusters of the given number of sectors. The mask has 64 bits. -/
def roundToCluster (sectors : UInt64) (size : UInt32) : UInt32 :=
  (size.toUInt64 &&& ~~~(sectors - 1)).toUInt32

/-- The size of the first of two partitions that share the given number of sectors. -/
def fDriveLbaSize (rest : UInt64) : UInt32 :=
  let half := (rest / 2).toUInt32
  if lbaSize1024GB ≤ half then lbaSize1024GB
  else
    let large := if half ≤ lbaSize1024GB then roundToCluster 128 half else half
    let middle := if large ≤ lbaSize512GB then roundToCluster 64 large else large
    if middle ≤ lbaSize256GB then roundToCluster 32 middle else middle

/-- A first partition of fixed size, and a second one behind it if the rest of the disk has the
500MB that a partition needs. -/
def fixedFGRest (fSize gStart : UInt32) (diskSizeLba : UInt64) (workingMbr : XboxPartitionTable) :
    XboxPartitionTable :=
  let workingMbr := workingMbr.setRange 5 xboxExtendStartLba fSize
  if (gStart + systemLbaSize).toUInt64 ≤ diskSizeLba then
    workingMbr.setRange 6 gStart (diskSizeLba - gStart.toUInt64).toUInt32
  else workingMbr.setRange 6 0 0

variable (layout : XboxDiskLayout)

/-- The table of a layout, made from the table of the disk. The last partition of `fgSplit` is
computed from a size that the base partitions have been taken from already. -/
def layoutTable (diskSizeLba : UInt64) (workingMbr : XboxPartitionTable) :
    Option XboxPartitionTable :=
  match layout with
  | .base => some backupPartTable
  | .fOnly =>
    if diskSizeLba - xboxExtendStartLba.toUInt64 < fatxMinPartSizeLba.toUInt64 then none
    else
      some ((workingMbr.setRange 5 xboxExtendStartLba
        (diskSizeLba - xboxExtendStartLba.toUInt64).toUInt32).setRange 6 0 0)
  | .f120GRest => some (fixedFGRest lbaSize137GB lba28Boundary diskSizeLba workingMbr)
  | .fgSplit =>
    let rest := (diskSizeLba - xboxExtendStartLba.toUInt64) &&& ~~~511
    let size := fDriveLbaSize rest
    some ((workingMbr.setRange 5 xboxExtendStartLba size).setRange 6 (xboxExtendStartLba + size)
      (rest - (xboxExtendStartLba + size).toUInt64).toUInt32)
  | .fMaxGRest =>
    some (fixedFGRest lbaSize1024GB (xboxExtendStartLba + lbaSize1024GB) diskSizeLba workingMbr)

/-! ### Writing it -/

/-- Wipes the configuration area of a disk that is not formatted for the Xbox and gives it the
magic. -/
def prepareDrive (io : DiskIo δ) (pdrv : Drive) (formatted : Bool) :
    FatFsM δ Unit :=
  if formatted then pure ()
  else do
    Program.forRange (fun sector ↦
      onDrive pdrv (diskWrite io (fun _ ↦ 0) (UInt32.ofNat sector) 1)) 1 1023
    onDrive pdrv (diskWrite io (listImage driveMagic) 3 1)

def fatxFdisk (io : DiskIo δ) (pdrv : Drive) (szt : XboxPartitionTable) :
    FatFsM δ Unit := do
  let formatted ← (fatxGetbrfr io pdrv).succeeds
  prepareDrive io pdrv formatted
  writeMbr io pdrv szt

/-- The disk is too small for the base partitions, or not larger than them where a layout needs
more. -/
def tooSmall (diskSizeLba : UInt64) : Bool :=
  diskSizeLba < (xboxExtendStartLba - 1).toUInt64 ||
    (diskSizeLba ≤ xboxExtendStartLba.toUInt64 && layout ≠ .base)

def Drive.number : Drive → UInt8
  | .master => 0
  | .slave => 1

def Drive.ofNumber (driveNumber : UInt8) : Option Drive :=
  if driveNumber = 0 then some .master else if driveNumber = 1 then some .slave else none

/-- Partitions a disk. An error is the number that is returned, which is not zero. -/
def fdisk (io : DiskIo δ) (driveNumber : UInt8) (layout : XboxDiskLayout) :
    Program (FatFsState δ) Int Unit :=
  match Drive.ofNumber driveNumber with
  | none => Program.stop (-1)
  | some pdrv => do
      let diskSizeLba ← Program.gets fun state ↦ io.getSectorCount (state.drive pdrv)
      if tooSmall layout diskSizeLba then Program.stop (-1)
      else do
        let (found, workingMbr) ← (fatxGetmbr io pdrv).mapError fun _ ↦ -1
        if found = false then Program.stop (-1)
        else
          match layoutTable layout diskSizeLba workingMbr with
          | none => Program.stop (-1)
          | some table => (fatxFdisk io pdrv table).mapError FResult.number

/-! ### Which sizes a layout fits -/

variable (diskSize : ℕ)

/-- The sizes of disks, in sectors, for which a layout is refused. -/
def LayoutRefused : Prop :=
  match layout with
  | .base => diskSize < 0xEE8AB0 - 1
  | .fOnly => diskSize < 0xEE8AB0 + 1024000
  | .f120GRest | .fgSplit | .fMaxGRest => diskSize ≤ 0xEE8AB0

/-- The sizes of disks for which the partitions of a layout lie side by side and end on the disk. -/
def LayoutFits : Prop :=
  match layout with
  | .base => False
  | .fOnly => True
  | .f120GRest => 0x0FFFFFFF ≤ diskSize
  | .fgSplit => 46899376 ≤ diskSize
  | .fMaxGRest => 2163116717 ≤ diskSize

/-- The first sector behind the partitions of a layout, for the sizes that it fits. -/
def layoutEnd : ℕ :=
  match layout with
  | .base => 0xEE8AB0
  | .fOnly => diskSize
  | .f120GRest => if 0x0FFFFFFF + 1024000 ≤ diskSize then diskSize else 0x0FFFFFFF
  | .fgSplit => 512 * ((diskSize - 0xEE8AB0) / 512)
  | .fMaxGRest => if 2163116717 + 1024000 ≤ diskSize then diskSize else 2163116717

/-- A layout is refused, or its partitions fit on the disk and the entries that the table of the
disk has behind them lie between their end and that of the disk. -/
def LayoutSafe (workingMbr : XboxPartitionTable) : Prop :=
  LayoutRefused layout diskSize ∨
    LayoutFits layout diskSize ∧ SpareFits workingMbr (layoutEnd layout diskSize) diskSize

theorem setRange_self (number : Fin 14) (lbaStart lbaSize : UInt32) (table : XboxPartitionTable) :
    ((table.setRange number lbaStart lbaSize).tableEntries number).range =
      Set.Ico lbaStart.toNat (lbaStart.toNat + lbaSize.toNat) := by
  simp [XboxPartitionTable.setRange, XboxPartitionTableEntry.range]

theorem setRange_of_ne {number other : Fin 14} (hother : other ≠ number) (lbaStart lbaSize : UInt32)
    (table : XboxPartitionTable) :
    (table.setRange number lbaStart lbaSize).tableEntries other = table.tableEntries other :=
  if_neg hother

/-- The table with the two partitions behind the base partitions. -/
def extendTable (workingMbr : XboxPartitionTable) (fSize gStart gSize : UInt32) :
    XboxPartitionTable :=
  (workingMbr.setRange 5 xboxExtendStartLba fSize).setRange 6 gStart gSize

section

variable {workingMbr : XboxPartitionTable} {fSize gStart gSize : UInt32} {diskSize : ℕ}

theorem extendTable_f : ((extendTable workingMbr fSize gStart gSize).tableEntries 5).range =
    Set.Ico 0xEE8AB0 (0xEE8AB0 + fSize.toNat) := by
  rw [extendTable, XboxPartitionTableEntry.range, setRange_of_ne (by decide)]
  exact setRange_self 5 xboxExtendStartLba fSize workingMbr

theorem extendTable_g : ((extendTable workingMbr fSize gStart gSize).tableEntries 6).range =
    Set.Ico gStart.toNat (gStart.toNat + gSize.toNat) :=
  setRange_self 6 gStart gSize _

theorem extendTable_of_ne {number : Fin 14} (hnumber : number.val < 5 ∨ 7 ≤ number.val) :
    (extendTable workingMbr fSize gStart gSize).tableEntries number =
      workingMbr.tableEntries number := by
  rw [extendTable, setRange_of_ne (by omega), setRange_of_ne (by omega)]

/-- The second partition, if it is there, follows the first. Then both have to end on the disk, and
the other entries have to lie behind them. -/
theorem partitioned_extendTable_iff (hstock : StockTable workingMbr)
    (hg : gSize.toNat = 0 ∨ gStart.toNat = 0xEE8AB0 + fSize.toNat) :
    Partitioned (extendTable workingMbr fSize gStart gSize) diskSize ↔
      0xEE8AB0 + fSize.toNat + gSize.toNat ≤ diskSize ∧
        SpareFits workingMbr (0xEE8AB0 + fSize.toNat + gSize.toNat) diskSize := by
  have hextended : StockTable (extendTable workingMbr fSize gStart gSize) := by
    refine ⟨hstock.magic, fun number hbase ↦ ?_, fun number hbase ↦ ?_⟩
    · rw [extendTable_of_ne (.inl hbase), hstock.baseStart number hbase]
    · rw [extendTable_of_ne (.inl hbase), hstock.baseSize number hbase]
  have hrange : ((extendTable workingMbr fSize gStart gSize).tableEntries 6).range =
      Set.Ico (0xEE8AB0 + fSize.toNat) (0xEE8AB0 + fSize.toNat + gSize.toNat) := by
    rw [extendTable_g]
    rcases hg with hempty | hstart
    · rw [hempty, add_zero, add_zero, Set.Ico_self, Set.Ico_self]
    · rw [hstart]
  rw [hextended.partitioned_iff extendTable_f hrange (Nat.le_add_right _ _) (Nat.le_add_right _ _)]
  refine and_congr_right fun _ ↦ ⟨fun hspare ↦ ?_, fun hspare ↦ ?_⟩
  · exact hspare.congr fun number hnumber ↦ (extendTable_of_ne (.inr hnumber)).symm
  · exact hspare.congr fun number hnumber ↦ extendTable_of_ne (.inr hnumber)

end

/-! ### The sizes that the code computes -/

theorem restSize_toNat {diskSizeLba : UInt64} {start : UInt32}
    (hstart : start.toNat ≤ diskSizeLba.toNat) (hsize : diskSizeLba.toNat < 2 ^ 32) :
    ((diskSizeLba - start.toUInt64).toUInt32).toNat = diskSizeLba.toNat - start.toNat := by
  rw [UInt64.toNat_toUInt32, UInt64.toNat_sub_of_le _ _ (by
    rw [UInt64.le_iff_toNat_le, UInt32.toNat_toUInt64]
    exact hstart), UInt32.toNat_toUInt64]
  omega

/-- Rounding keeps a size that is a whole number of clusters. -/
theorem roundToCluster_of_dvd {sectors : UInt64} {size : UInt32} {exponent : ℕ}
    (hsectors : (sectors - 1).toNat = 2 ^ exponent - 1) (hexponent : exponent ≤ 32)
    (hsize : 2 ^ exponent ∣ size.toNat) : roundToCluster sectors size = size := by
  apply UInt32.toNat_inj.mp
  rw [roundToCluster, UInt64.toNat_toUInt32, alignDown64_toNat _ _ hsectors (by omega),
    UInt32.toNat_toUInt64, Nat.mul_div_cancel' hsize]
  exact Nat.mod_eq_of_lt size.toNat_lt

/-- Half of a size that is a multiple of 512 is a whole number of clusters already, and below the
largest partition. -/
theorem fDriveLbaSize_toNat {rest : UInt64} {blocks : ℕ} (hrest : rest.toNat = 512 * blocks)
    (hsize : 512 * blocks < 2 ^ 32 - 0xEE8AB0) : (fDriveLbaSize rest).toNat = 256 * blocks := by
  have hhalf : (rest / 2).toUInt32.toNat = 256 * blocks := by
    rw [UInt64.toNat_toUInt32, UInt64.toNat_div, hrest]
    change 512 * blocks / 2 % 2 ^ 32 = _
    omega
  have hdvd (exponent : ℕ) (hexponent : exponent ≤ 8) :
      2 ^ exponent ∣ (rest / 2).toUInt32.toNat := by
    rw [hhalf]
    exact Nat.dvd_trans (Nat.pow_dvd_pow 2 hexponent) (Nat.dvd_mul_right 256 blocks)
  have hlarge : ¬ lbaSize1024GB ≤ (rest / 2).toUInt32 := by
    rw [UInt32.le_iff_toNat_le, hhalf]
    change ¬ 2147483645 ≤ _
    omega
  simp only [fDriveLbaSize, if_neg hlarge]
  rw [roundToCluster_of_dvd (show _ = 2 ^ 7 - 1 by decide) (by decide) (hdvd 7 (by decide)),
    ite_self,
    roundToCluster_of_dvd (show _ = 2 ^ 6 - 1 by decide) (by decide) (hdvd 6 (by decide)),
    ite_self,
    roundToCluster_of_dvd (show _ = 2 ^ 5 - 1 by decide) (by decide) (hdvd 5 (by decide)),
    ite_self, hhalf]

/-! ### The layouts on every size -/

variable {layout : XboxDiskLayout}

section

variable {workingMbr table : XboxPartitionTable} {diskSizeLba : UInt64}

theorem tooSmall_eq_false :
    tooSmall layout diskSizeLba = false ↔ 0xEE8AB0 - 1 ≤ diskSizeLba.toNat ∧
      (layout ≠ .base → 0xEE8AB0 < diskSizeLba.toNat) := by
  have hstart : ((xboxExtendStartLba - 1).toUInt64).toNat = 0xEE8AB0 - 1 := by decide
  have hend : (xboxExtendStartLba.toUInt64).toNat = 0xEE8AB0 := by decide
  simp only [tooSmall, Bool.or_eq_false_iff, Bool.and_eq_false_iff, decide_eq_false_iff_not,
    UInt64.lt_iff_toNat_lt, UInt64.le_iff_toNat_le, hstart, hend]
  constructor
  · rintro ⟨hlow, hhigh⟩
    exact ⟨by omega, fun hlayout ↦ by
      rcases hhigh with hhigh | hhigh
      · omega
      · exact absurd hlayout hhigh⟩
  · rintro ⟨hlow, hhigh⟩
    refine ⟨by omega, ?_⟩
    by_cases hlayout : layout = .base
    · exact .inr (not_not_intro hlayout)
    · exact .inl (by have := hhigh hlayout; omega)

/-- Three entries of the backup table have the same start. -/
theorem backupPartTable_overlaps : ¬ Partitioned backupPartTable diskSize := by
  intro hpartitioned
  have hdisjoint := hpartitioned.disjoint (show (2 : Fin 14) ≠ 3 by decide)
  have hfirst : 0x400 ∈ (backupPartTable.tableEntries 2).range := ⟨by decide, by decide⟩
  have hsecond : 0x400 ∈ (backupPartTable.tableEntries 3).range := ⟨by decide, by decide⟩
  exact Set.disjoint_left.mp hdisjoint hfirst hsecond

section

variable (hstock : StockTable workingMbr) (hsize : diskSizeLba.toNat < 2 ^ 32)

include hstock hsize

theorem partitioned_fOnly_iff (hroom : 0xEE8AB0 < diskSizeLba.toNat)
    (htable : layoutTable .fOnly diskSizeLba workingMbr = some table) :
    Partitioned table diskSizeLba.toNat ↔
      SpareFits workingMbr diskSizeLba.toNat diskSizeLba.toNat := by
  have hrest := restSize_toNat (show xboxExtendStartLba.toNat ≤ _ from hroom.le) hsize
  have hstart : xboxExtendStartLba.toNat = 0xEE8AB0 := rfl
  rw [layoutTable] at htable
  split_ifs at htable with hsmall
  cases htable
  refine (partitioned_extendTable_iff hstock (.inl rfl)).trans ?_
  have hend : 0xEE8AB0 + (diskSizeLba.toNat - xboxExtendStartLba.toNat) + (0 : UInt32).toNat =
      diskSizeLba.toNat := by
    rw [hstart, UInt32.toNat_zero]
    omega
  rw [hrest, hend]
  exact and_iff_right le_rfl

/-- A partition of fixed size has to fit on the disk. -/
theorem partitioned_fixedFGRest_iff {fSize gStart : UInt32}
    (hg : 0xEE8AB0 + fSize.toNat = gStart.toNat) (hsum : gStart.toNat + 1024000 < 2 ^ 32) :
    Partitioned (fixedFGRest fSize gStart diskSizeLba workingMbr) diskSizeLba.toNat ↔
      gStart.toNat ≤ diskSizeLba.toNat ∧ SpareFits workingMbr
        (if gStart.toNat + 1024000 ≤ diskSizeLba.toNat then diskSizeLba.toNat else gStart.toNat)
        diskSizeLba.toNat := by
  have hthreshold : (gStart + systemLbaSize).toUInt64.toNat = gStart.toNat + 1024000 := by
    rw [UInt32.toNat_toUInt64, UInt32.toNat_add]
    exact Nat.mod_eq_of_lt hsum
  by_cases hlarge : (gStart + systemLbaSize).toUInt64 ≤ diskSizeLba
  · have hlargeNat : gStart.toNat + 1024000 ≤ diskSizeLba.toNat := by
      rwa [UInt64.le_iff_toNat_le, hthreshold] at hlarge
    have hroom : gStart.toNat ≤ diskSizeLba.toNat := by omega
    simp only [fixedFGRest, if_pos hlarge, if_pos hlargeNat]
    refine (partitioned_extendTable_iff hstock (.inr hg.symm)).trans ?_
    rw [restSize_toNat hroom hsize, hg, Nat.add_sub_cancel' hroom]
    exact and_congr_left fun _ ↦ iff_of_true le_rfl hroom
  · have hsmallNat : ¬gStart.toNat + 1024000 ≤ diskSizeLba.toNat := by
      rwa [UInt64.le_iff_toNat_le, hthreshold] at hlarge
    simp only [fixedFGRest, if_neg hlarge, if_neg hsmallNat]
    refine (partitioned_extendTable_iff hstock (.inl rfl)).trans ?_
    rw [UInt32.toNat_zero, add_zero, hg]

/-- The second half is computed with the base partitions taken off twice. -/
theorem partitioned_fgSplit_iff (hroom : 0xEE8AB0 < diskSizeLba.toNat)
    (htable : layoutTable .fgSplit diskSizeLba workingMbr = some table) :
    Partitioned table diskSizeLba.toNat ↔ 46899376 ≤ diskSizeLba.toNat ∧
      SpareFits workingMbr (512 * ((diskSizeLba.toNat - 0xEE8AB0) / 512)) diskSizeLba.toNat := by
  obtain ⟨rest, hrest⟩ : ∃ rest, (diskSizeLba - xboxExtendStartLba.toUInt64) &&& ~~~511 = rest :=
    ⟨_, rfl⟩
  obtain ⟨blocks, hblocks⟩ : ∃ blocks, (diskSizeLba.toNat - 0xEE8AB0) / 512 = blocks := ⟨_, rfl⟩
  have hstartLe : xboxExtendStartLba.toUInt64 ≤ diskSizeLba :=
    UInt64.le_iff_toNat_le.mpr hroom.le
  have hrestNat : rest.toNat = 512 * blocks := by
    rw [← hrest, alignDown64_toNat _ _ (show _ = 2 ^ 9 - 1 by decide) (by decide),
      UInt64.toNat_sub_of_le _ _ hstartLe, ← hblocks]
    rfl
  obtain ⟨half, hhalf⟩ : ∃ half, fDriveLbaSize rest = half := ⟨_, rfl⟩
  have hhalfNat : half.toNat = 256 * blocks := by
    rw [← hhalf]
    exact fDriveLbaSize_toNat hrestNat (by omega)
  have hstart : (xboxExtendStartLba + half).toNat = 0xEE8AB0 + 256 * blocks := by
    rw [UInt32.toNat_add, hhalfNat]
    change (0xEE8AB0 + 256 * blocks) % 2 ^ 32 = _
    omega
  have hgSize : ((rest - (xboxExtendStartLba + half).toUInt64).toUInt32).toNat =
      if 0xEE8AB0 ≤ 256 * blocks then 256 * blocks - 0xEE8AB0
      else 2 ^ 32 + 256 * blocks - 0xEE8AB0 := by
    rw [UInt64.toNat_toUInt32, UInt64.toNat_sub, UInt32.toNat_toUInt64, hstart, hrestNat]
    split_ifs <;> omega
  simp only [layoutTable, hrest, hhalf] at htable
  cases htable
  refine (partitioned_extendTable_iff hstock (.inr (by rw [hstart, hhalfNat]))).trans ?_
  rw [hblocks]
  by_cases hlarge : 46899376 ≤ diskSizeLba.toNat
  · rw [if_pos (by omega)] at hgSize
    have hend : 0xEE8AB0 + 256 * blocks + (256 * blocks - 0xEE8AB0) = 512 * blocks := by omega
    rw [hgSize, hhalfNat, hend]
    exact and_congr_left fun _ ↦ iff_of_true (by omega) hlarge
  · -- the size of the second partition wraps
    rw [if_neg (by omega)] at hgSize
    exact iff_of_false (fun h ↦ by have := h.1; omega) fun h ↦ hlarge h.1

theorem partitioned_layoutTable_iff (hroom : tooSmall layout diskSizeLba = false)
    (htable : layoutTable layout diskSizeLba workingMbr = some table) :
    Partitioned table diskSizeLba.toNat ↔ LayoutFits layout diskSizeLba.toNat ∧
      SpareFits workingMbr (layoutEnd layout diskSizeLba.toNat) diskSizeLba.toNat := by
  obtain ⟨-, hextend⟩ := tooSmall_eq_false.mp hroom
  cases layout with
  | base =>
    cases htable
    exact iff_of_false (backupPartTable_overlaps _) fun hfits ↦ hfits.1
  | fOnly =>
    rw [partitioned_fOnly_iff hstock hsize (hextend nofun) htable]
    exact (and_iff_right trivial).symm
  | f120GRest | fMaxGRest =>
    cases htable
    exact partitioned_fixedFGRest_iff hstock hsize (by decide) (by decide)
  | fgSplit => exact partitioned_fgSplit_iff hstock hsize (hextend nofun) htable

end

end

/-! ### Partitioning -/

/-- `MBRTABLE_LBASIZE`, the first sector behind the configuration area of a disk. -/
def mbrTableLbaSize : ℕ := 1024

section

variable {io : DiskIo δ} (device : BlockDevice io) (pdrv : Drive)

/-- Sector 0 of a disk holds the bytes of an image. -/
def SectorZero (state : FatFsState δ) (image : Bytes) : Prop :=
  ∀ index < 512, device.content (state.drive pdrv) index = image index

/-- Sector 3 of a disk begins with the magic. -/
def HasDriveMagic (state : FatFsState δ) : Prop :=
  bytesAt (device.content (state.drive pdrv)) (512 * 3) 4 = driveMagic

/-- The disk keeps every sector from the first partition on. -/
def PartitionsKept (before after : FatFsState δ) : Prop :=
  ∀ address, 512 * mbrTableLbaSize ≤ address →
    device.content (after.drive pdrv) address = device.content (before.drive pdrv) address

/-- The disk keeps everything but the configuration area. -/
structure OutsideKept (before after : FatFsState δ) : Prop where
  table : SectorZero device pdrv after (device.content (before.drive pdrv))
  partitions : PartitionsKept device pdrv before after

/-- A new table is in sector 0, sector 3 begins with the magic, and no partition is touched. -/
structure TableWritten (szt : XboxPartitionTable) (before after : FatFsState δ) : Prop where
  table : SectorZero device pdrv after szt.image
  magic : HasDriveMagic device pdrv after
  kept : PartitionsKept device pdrv before after

/-- The disk failed, and sector 0 is as before or has the new table. -/
def FdiskFailed (szt : XboxPartitionTable) (before : FatFsState δ) (code : FResult)
    (after : FatFsState δ) : Prop :=
  code = .diskErr ∧ device.faulty ∧
    (SectorZero device pdrv after (device.content (before.drive pdrv)) ∨
      SectorZero device pdrv after szt.image)

variable {device pdrv} {state before after : FatFsState δ}

theorem OutsideKept.of_change {content : Bytes} (hkept : OutsideKept device pdrv state before)
    (hchange : DiskChange device pdrv before content after)
    (hcontent : ∀ address, address < 512 ∨ 512 * mbrTableLbaSize ≤ address →
      content address = device.content (before.drive pdrv) address) :
    OutsideKept device pdrv state after := by
  refine ⟨fun index hindex ↦ ?_, fun address haddress ↦ ?_⟩
  · rw [hchange.content, hcontent index (.inl hindex), hkept.table index hindex]
  · rw [hchange.content, hcontent address (.inr haddress), hkept.partitions address haddress]

/-- A sector of the configuration area is written, and nothing else also when this fails. -/
theorem diskWrite_outsideKept {buff : Bytes} {sector : UInt32} (hlow : 0 < sector.toNat)
    (hhigh : sector.toNat < mbrTableLbaSize) (hkept : OutsideKept device pdrv state before) :
    (onDrive pdrv (diskWrite io buff sector 1)).wp
      (fun _ after ↦ DiskChange device pdrv before (overlay (device.content (before.drive pdrv))
          (512 * sector.toNat) (512 * 1) buff) after ∧ OutsideKept device pdrv state after)
      (fun code after ↦ code = .diskErr ∧ device.faulty ∧ OutsideKept device pdrv state after)
      before := by
  have hrange := sector.toNat_lt
  refine wp_mono (onDrive_diskWrite_spec device pdrv before buff (by omega)) ?_ ?_
  · intro _ after hchange
    exact ⟨hchange, hkept.of_change hchange fun address _ ↦ overlay_outside (by omega)⟩
  · rintro code after ⟨hcode, hfaulty, written, _, hchange⟩
    exact ⟨hcode, hfaulty, hkept.of_change hchange fun address _ ↦ overlay_outside (by omega)⟩

/-- A drive that has the magic is left alone; on any other one the configuration area is wiped
before the magic is written. -/
theorem prepareDrive_spec (formatted : Bool)
    (hformatted : formatted = true → HasDriveMagic device pdrv before)
    (hkept : OutsideKept device pdrv state before) :
    (prepareDrive io pdrv formatted).wp
      (fun _ after ↦ HasDriveMagic device pdrv after ∧ OutsideKept device pdrv state after)
      (fun code after ↦ code = .diskErr ∧ device.faulty ∧ OutsideKept device pdrv state after)
      before := by
  cases formatted with
  | true => exact ⟨hformatted rfl, hkept⟩
  | false =>
    rw [prepareDrive, if_neg (by decide), wp_bind]
    refine wp_mono (wp_forRange
      (fun _ ↦ OutsideKept device pdrv state) hkept ?_) ?_ fun _ _ herror ↦ herror
    · intro sector wiping hlow hhigh hwiping
      have hsector : (UInt32.ofNat sector).toNat = sector :=
        UInt32.toNat_ofNat_of_lt' (show sector < 2 ^ 32 by omega)
      exact wp_mono (diskWrite_outsideKept (by omega) (hsector.trans_lt hhigh) hwiping)
        (fun _ _ hwiped ↦ hwiped.2) fun _ _ herror ↦ herror
    · intro _ wiped hwiped
      refine wp_mono (diskWrite_outsideKept (by decide) (by decide) hwiped) ?_
        fun _ _ herror ↦ herror
      rintro _ after ⟨hchange, hafter⟩
      have hbytes : bytesAt (overlay (device.content (wiped.drive pdrv)) (512 * 3) (512 * 1)
          (listImage driveMagic)) (512 * 3) driveMagic.length = driveMagic :=
        bytesAt_eq fun index hindex ↦ overlay_add (hindex.trans (by decide))
      refine ⟨?_, hafter⟩
      rw [HasDriveMagic, hchange.content]
      exact hbytes

theorem writeMbr_tableWritten (szt : XboxPartitionTable)
    (hmagic : HasDriveMagic device pdrv before) (hkept : OutsideKept device pdrv state before) :
    (writeMbr io pdrv szt).wp (fun _ ↦ TableWritten device pdrv szt state)
      (FdiskFailed device pdrv szt state) before := by
  have hnew (after : FatFsState δ) (hchange : DiskChange device pdrv before
      (overlay (device.content (before.drive pdrv)) 0 512 szt.image) after) :
      TableWritten device pdrv szt state after := by
    refine ⟨fun index hindex ↦ ?_, ?_, fun address haddress ↦ ?_⟩
    · rw [hchange.content]
      exact overlay_inside (Nat.zero_le index) (by omega)
    · rw [HasDriveMagic, hchange.content]
      exact (bytesAt_congr fun index hindex ↦ overlay_outside (by omega)).trans hmagic
    · rw [hchange.content, overlay_outside, hkept.partitions address haddress]
      rw [mbrTableLbaSize] at haddress
      omega
  refine wp_mono (writeMbr_spec device pdrv before szt) (fun _ ↦ hnew) ?_
  rintro code after ⟨hcode, hfaulty, hsame | hwritten⟩
  · exact ⟨hcode, hfaulty, .inl (hkept.of_change hsame fun _ _ ↦ rfl).table⟩
  · exact ⟨hcode, hfaulty, .inr (hnew after hwritten).table⟩

/-- The new table is written to sector 0, unless the disk fails. Whatever sector 3 held, it begins
with the magic afterwards. -/
theorem fatxFdisk_spec (device : BlockDevice io) (szt : XboxPartitionTable) :
    (fatxFdisk io pdrv szt).wp (fun _ ↦ TableWritten device pdrv szt state)
      (FdiskFailed device pdrv szt state) state := by
  have hwrites (formatted : Bool) (checked : FatFsState δ)
      (hformatted : formatted = true → HasDriveMagic device pdrv checked)
      (hchecked : DiskChange device pdrv state (device.content (state.drive pdrv)) checked) :
      (prepareDrive io pdrv formatted >>= fun _ ↦ writeMbr io pdrv szt).wp
        (fun _ ↦ TableWritten device pdrv szt state) (FdiskFailed device pdrv szt state)
        checked := by
    have hsame : OutsideKept device pdrv state state := ⟨fun _ _ ↦ rfl, fun _ _ ↦ rfl⟩
    rw [wp_bind]
    refine wp_mono (prepareDrive_spec formatted hformatted
      (hsame.of_change hchecked fun _ _ ↦ rfl)) ?_ ?_
    · rintro _ prepared ⟨hmagic, hprepared⟩
      exact writeMbr_tableWritten szt hmagic hprepared
    · rintro code failed ⟨hcode, hfaulty, hkept⟩
      exact ⟨hcode, hfaulty, .inl hkept.table⟩
  rw [fatxFdisk, wp_bind, wp_succeeds]
  refine wp_mono (fatxGetbrfr_spec device pdrv state) ?_ ?_
  · rintro _ checked ⟨hmagic, hchecked⟩
    refine hwrites true checked (fun _ ↦ ?_) hchecked
    rw [HasDriveMagic, hchecked.content, hmagic]
  · rintro _ checked ⟨_, hchecked⟩
    exact hwrites false checked (fun hformatted ↦ absurd hformatted (by decide)) hchecked

/-- The table that a request leads to, if it is not refused. -/
def plannedTable (layout : XboxDiskLayout) (diskSizeLba : UInt64)
    (workingMbr : XboxPartitionTable) : Option XboxPartitionTable :=
  if tooSmall layout diskSizeLba then none else layoutTable layout diskSizeLba workingMbr

/-- The table for the size and the table of a disk. -/
def requestedTable (device : BlockDevice io) (pdrv : Drive) (layout : XboxDiskLayout)
    (state : FatFsState δ) : Option XboxPartitionTable :=
  plannedTable layout (io.getSectorCount (state.drive pdrv))
    (.ofImage (device.content (state.drive pdrv)))

theorem plannedTable_eq_none_iff {diskSizeLba : UInt64} {workingMbr : XboxPartitionTable} :
    plannedTable layout diskSizeLba workingMbr = none ↔
      LayoutRefused layout diskSizeLba.toNat := by
  have hstart : xboxExtendStartLba.toUInt64.toNat = 0xEE8AB0 := rfl
  have hmin : fatxMinPartSizeLba.toUInt64.toNat = 1024000 := rfl
  have hroom : tooSmall layout diskSizeLba = false ↔ _ := tooSmall_eq_false
  rw [plannedTable]
  by_cases hsmall : tooSmall layout diskSizeLba = true
  · rw [if_pos hsmall]
    rw [hsmall, Bool.true_eq_false, false_iff, not_and] at hroom
    refine iff_of_true rfl ?_
    cases layout with
    | base => exact not_le.mp fun hbase ↦ hroom hbase fun hne ↦ absurd rfl hne
    | fOnly | f120GRest | fgSplit | fMaxGRest =>
      have hless : diskSizeLba.toNat ≤ 0xEE8AB0 :=
        not_lt.mp fun hextend ↦ hroom (by omega) fun _ ↦ hextend
      unfold LayoutRefused
      omega
  · rw [if_neg hsmall]
    obtain ⟨hbase, hextend⟩ := hroom.mp (Bool.eq_false_of_not_eq_true hsmall)
    cases layout with
    | base => exact iff_of_false nofun (not_lt.mpr hbase)
    | fOnly =>
      have hlarge := hextend nofun
      have hless : diskSizeLba - xboxExtendStartLba.toUInt64 < fatxMinPartSizeLba.toUInt64 ↔
          diskSizeLba.toNat < 0xEE8AB0 + 1024000 := by
        have hle : xboxExtendStartLba.toUInt64 ≤ diskSizeLba := UInt64.le_iff_toNat_le.mpr hlarge.le
        rw [UInt64.lt_iff_toNat_lt, hmin, UInt64.toNat_sub_of_le _ _ hle, hstart]
        omega
      rw [layoutTable, LayoutRefused, ← hless]
      split_ifs with hfew
      · exact iff_of_true rfl hfew
      · exact iff_of_false nofun hfew
    | f120GRest | fgSplit | fMaxGRest =>
      exact iff_of_false nofun (not_le.mpr (hextend nofun))

theorem partitioned_iff_layoutSafe {diskSizeLba : UInt64} {workingMbr table : XboxPartitionTable}
    (hstock : StockTable workingMbr) (hsize : diskSizeLba.toNat < 2 ^ 32)
    (hplanned : plannedTable layout diskSizeLba workingMbr = some table) :
    Partitioned table diskSizeLba.toNat ↔ LayoutSafe layout diskSizeLba.toNat workingMbr := by
  have haccepted : ¬LayoutRefused layout diskSizeLba.toNat := fun hrefused ↦
    nomatch hplanned.symm.trans (plannedTable_eq_none_iff.mpr hrefused)
  rw [LayoutSafe, or_iff_right haccepted]
  rw [plannedTable] at hplanned
  split_ifs at hplanned with hroom
  exact partitioned_layoutTable_iff hstock hsize (by simpa using hroom) hplanned

/-- The ways through `fdisk`: the request is refused, the table of the disk cannot be read or there
is none, or the table of the layout is written. The content of the disk is the same up to there. -/
theorem wp_fdisk (device : BlockDevice io)
    {ok : Unit → FatFsState δ → Prop} {error : Int → FatFsState δ → Prop}
    (hstops : ∀ after, device.content (after.drive pdrv) = device.content (state.drive pdrv) →
      (requestedTable device pdrv layout state = none ∨ device.faulty ∨
        (XboxPartitionTable.ofImage (device.content (state.drive pdrv))).magic ≠
          backupPartTable.magic) → error (-1) after)
    (hwrites : ∀ table after, requestedTable device pdrv layout state = some table →
      (XboxPartitionTable.ofImage (device.content (state.drive pdrv))).magic =
        backupPartTable.magic →
      device.content (after.drive pdrv) = device.content (state.drive pdrv) →
      (fatxFdisk io pdrv table).wp ok (fun code ↦ error code.number) after) :
    (fdisk io pdrv.number layout).wp ok error state := by
  have hnumber : Drive.ofNumber pdrv.number = some pdrv := by
    cases pdrv <;> rfl
  rw [fdisk, hnumber]
  rw [wp_bind, wp_gets, wp_ite]
  refine ⟨fun hsmall ↦ hstops state rfl (.inl (if_pos hsmall)), fun hroom ↦ ?_⟩
  rw [wp_bind, wp_mapError]
  refine wp_mono (fatxGetmbr_spec device pdrv state) ?_ ?_
  · rintro ⟨found, workingMbr⟩ checked ⟨hanswer, read, hread, rfl⟩
    rw [mbrOf] at hanswer
    rw [wp_ite]
    split_ifs at hanswer with hmagic
    · cases hanswer
      refine ⟨fun hmissing ↦ absurd hmissing (by decide), fun _ ↦ ?_⟩
      have hplanned : requestedTable device pdrv layout state = layoutTable layout _ _ :=
        if_neg hroom
      cases hlayout : layoutTable layout (io.getSectorCount (state.drive pdrv))
          (.ofImage (device.content (state.drive pdrv))) with
      | none => exact hstops _ hread.content (.inl (hplanned.trans hlayout))
      | some table =>
        exact (wp_mapError _).mpr
          (hwrites table _ (hplanned.trans hlayout) hmagic hread.content)
    · cases hanswer
      exact ⟨fun _ ↦ hstops _ hread.content (.inr (.inr hmagic)),
        fun hmissing ↦ absurd rfl hmissing⟩
  · rintro code failed ⟨_, hdisk, hchanged⟩
    exact hstops failed hchanged.content (.inr (.inl hdisk))

theorem fdisk_spec (device : BlockDevice io) (pdrv : Drive) (layout : XboxDiskLayout)
    (state : FatFsState δ)
    (hmagic : (XboxPartitionTable.ofImage (device.content (state.drive pdrv))).magic =
      backupPartTable.magic) :
    (fdisk io pdrv.number layout).wp
      (fun _ after ↦ ∃ table, requestedTable device pdrv layout state = some table ∧
        SectorZero device pdrv after table.image)
      (fun code after ↦ code ≠ 0 ∧
        (device.faulty ∨ requestedTable device pdrv layout state = none) ∧
        (SectorZero device pdrv after (device.content (state.drive pdrv)) ∨ ∃ table,
          requestedTable device pdrv layout state = some table ∧
          SectorZero device pdrv after table.image)) state := by
  refine wp_fdisk device ?_ ?_
  · intro after hafter hreason
    refine ⟨by decide, ?_, .inl fun index _ ↦ congrFun hafter index⟩
    rcases hreason with hrefused | hfaulty | hforeign
    · exact .inr hrefused
    · exact .inl hfaulty
    · exact absurd hmagic hforeign
  · intro table after hplanned _ hafter
    refine wp_mono (fatxFdisk_spec device table) ?_ ?_
    · intro _ done hdone
      exact ⟨table, hplanned, hdone.table⟩
    · rintro code done ⟨rfl, hfaulty, hold | hnew⟩
      · exact ⟨by decide, .inl hfaulty, .inl (hafter ▸ hold)⟩
      · exact ⟨by decide, .inl hfaulty, .inr ⟨table, hplanned, hnew⟩⟩

/-! ### A disk with the stock table -/

/-- The base partitions where a stock disk has them. -/
def stockTable : XboxPartitionTable :=
  { backupPartTable with
    tableEntries := fun number ↦
      { backupPartTable.tableEntries number with
        lbaStart := (baseRange number).1
        lbaSize := (baseRange number).2 } }

/-- The state before the first access to a disk with the stock table and nothing else. -/
def stockState (sectorCount : UInt64) : FatFsState RamDisk where
  drive _ := ⟨sectorCount, stockTable.image⟩
  fatxPartTable _ := backupPartTable
  fatxPartTableRead _ := false
  fatFs _ := none

theorem stockState_table (sectorCount : UInt64) (pdrv : Drive) :
    XboxPartitionTable.ofImage (ramDevice.content ((stockState sectorCount).drive pdrv)) =
      stockTable :=
  XboxPartitionTable.ofImage_eq fun _ _ ↦ rfl

theorem stockTable_stock : StockTable stockTable where
  magic := rfl
  baseStart _ _ := rfl
  baseSize _ _ := rfl

/-- A request that is not refused is carried out on a disk that does not fail. -/
theorem fdisk_stockState {sectorCount : UInt64} {table : XboxPartitionTable}
    (hplanned : plannedTable layout sectorCount stockTable = some table) :
    ∃ after, fdisk ramDisk 0 layout (stockState sectorCount) = (.ok (), after) ∧
      SectorZero ramDevice .master after table.image := by
  have hspec := fdisk_spec ramDevice .master layout (stockState sectorCount)
    (by rw [stockState_table]; rfl)
  have hplan : requestedTable ramDevice .master layout (stockState sectorCount) = some table := by
    rw [requestedTable, stockState_table]
    exact hplanned
  rw [hplan] at hspec
  obtain ⟨_, after, hrun, other, hother, hzero⟩ := exists_ok
    (wp_mono hspec (fun _ _ hok ↦ hok) fun code after herror ↦ by
      rcases herror.2.1 with hfaulty | hrefused
      · exact hfaulty
      · cases hrefused)
  cases hother
  exact ⟨after, hrun, hzero⟩

/-! ### When partitioning is safe -/

/-- Sector 0 holds a table whose partitions lie side by side on the disk. -/
def PartitionedDisk (device : BlockDevice io) (pdrv : Drive) (diskSize : ℕ)
    (state : FatFsState δ) : Prop :=
  ∃ table, Partitioned table diskSize ∧ SectorZero device pdrv state table.image

/-- A request to partition a disk fails and leaves sector 0 as it was, or it writes a table whose
partitions lie side by side on the disk. -/
structure FdiskSafe (device : BlockDevice io) (pdrv : Drive) (layout : XboxDiskLayout)
    (state : FatFsState δ) : Prop where
  run : (fdisk io pdrv.number layout).wp
    (fun _ ↦ PartitionedDisk device pdrv (io.getSectorCount (state.drive pdrv)).toNat)
    (fun code after ↦
      (code ≠ 0 ∧ SectorZero device pdrv after (device.content (state.drive pdrv))) ∨
        PartitionedDisk device pdrv (io.getSectorCount (state.drive pdrv)).toNat after) state

/-- The table of a sector is the only one with its bytes. -/
theorem SectorZero.table_eq {table other : XboxPartitionTable}
    (htable : SectorZero device pdrv state table.image)
    (hother : SectorZero device pdrv state other.image) : table = other := by
  rw [← XboxPartitionTable.ofImage_eq fun index hindex ↦ htable index (by omega),
    XboxPartitionTable.ofImage_eq fun index hindex ↦ hother index (by omega)]

/-- Partitioning a disk is safe on the sizes and for the tables that the layout fits, and on a disk
that does not fail on no other.

Assumes: sector 0 of the disk holds a table with the stock base partitions and the disk has less
than 2^32 sectors. -/
theorem fdisk_safe_iff (device : BlockDevice io) (pdrv : Drive) (layout : XboxDiskLayout)
    (state : FatFsState δ)
    (hstock : StockTable (.ofImage (device.content (state.drive pdrv))))
    (hsize : (io.getSectorCount (state.drive pdrv)).toNat < 2 ^ 32) :
    (LayoutSafe layout (io.getSectorCount (state.drive pdrv)).toNat
        (.ofImage (device.content (state.drive pdrv))) →
      FdiskSafe device pdrv layout state) ∧
    (¬ device.faulty → FdiskSafe device pdrv layout state →
      LayoutSafe layout (io.getSectorCount (state.drive pdrv)).toNat
        (.ofImage (device.content (state.drive pdrv)))) := by
  have hspec := fdisk_spec device pdrv layout state hstock.magic
  constructor
  · intro hfits
    have hpartitioned {table : XboxPartitionTable} {after : FatFsState δ}
        (hplanned : requestedTable device pdrv layout state = some table)
        (hzero : SectorZero device pdrv after table.image) :
        PartitionedDisk device pdrv (io.getSectorCount (state.drive pdrv)).toNat after :=
      ⟨table, (partitioned_iff_layoutSafe hstock hsize hplanned).mpr hfits, hzero⟩
    refine ⟨wp_mono hspec ?_ ?_⟩
    · rintro _ after ⟨table, hplanned, hzero⟩
      exact hpartitioned hplanned hzero
    · rintro code after ⟨hcode, _, hkept | ⟨table, hplanned, hzero⟩⟩
      · exact .inl ⟨hcode, hkept⟩
      · exact .inr (hpartitioned hplanned hzero)
  · intro hsound hsafe
    have hboth := wp_and hspec hsafe.run
    rcases hrun : fdisk io pdrv.number layout state with ⟨code | value, after⟩
    · obtain ⟨⟨_, hrefused, _⟩, _⟩ := wp_error hboth hrun
      exact .inl (plannedTable_eq_none_iff.mp (hrefused.resolve_left hsound))
    · obtain ⟨⟨table, hplanned, hzero⟩, other, hpartitioned, hother⟩ := wp_ok hboth hrun
      rw [← hzero.table_eq hother] at hpartitioned
      exact (partitioned_iff_layoutSafe hstock hsize hplanned).mp hpartitioned

/-- Two partitions of half the remaining disk each, on a disk of 32GB. -/
theorem fdisk_safe_iff_stockState :
    LayoutSafe .fgSplit 0x4000000 stockTable ∧
      FdiskSafe ramDevice .master .fgSplit (stockState 0x4000000) := by
  have hsafe : LayoutSafe .fgSplit 0x4000000 stockTable := by
    refine .inr ⟨show 46899376 ≤ 0x4000000 by decide, .of_unused _ _ fun number hnumber ↦ ?_⟩
    match number, hnumber with
    | ⟨number + 7, _⟩, _ => rfl
  have hstock :
      StockTable (.ofImage (ramDevice.content ((stockState 0x4000000).drive .master))) := by
    rw [stockState_table]
    exact stockTable_stock
  refine ⟨hsafe,
    (fdisk_safe_iff ramDevice .master .fgSplit (stockState 0x4000000) hstock (by decide)).1 ?_⟩
  rw [stockState_table]
  exact hsafe

/-- On a disk of 10GB the base layout writes a table in which two partitions share their first
sector, and the layout with a first partition up to 137GB one that ends far behind the disk. -/
theorem fdisk_unsafe_stockState :
    (∃ after, fdisk ramDisk 0 .base (stockState 20000000) = (.ok (), after) ∧
      SectorZero ramDevice .master after backupPartTable.image ∧
      0x400 ∈ (backupPartTable.tableEntries 2).range ∧
      0x400 ∈ (backupPartTable.tableEntries 3).range) ∧
    ∃ after, ∃ table : XboxPartitionTable,
      fdisk ramDisk 0 .f120GRest (stockState 20000000) = (.ok (), after) ∧
      SectorZero ramDevice .master after table.image ∧
      (table.tableEntries 5).lbaStart.toNat + (table.tableEntries 5).lbaSize.toNat =
        0x0FFFFFFF := by
  obtain ⟨base, hbase, hbaseZero⟩ := fdisk_stockState
    (show plannedTable .base 20000000 stockTable = some backupPartTable from rfl)
  obtain ⟨after, hafter, hzero⟩ := fdisk_stockState
    (show plannedTable .f120GRest 20000000 stockTable = some _ from rfl)
  exact ⟨⟨base, hbase, hbaseZero, ⟨by decide, by decide⟩, ⟨by decide, by decide⟩⟩,
    after, _, hafter, hzero, by decide⟩

end

end XBlast.Fatx
