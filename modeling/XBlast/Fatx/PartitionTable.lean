import Mathlib.Data.Fintype.Basic
import Mathlib.Data.Nat.SuccPred
import Mathlib.Order.CompletePartialOrder
import Mathlib.Order.SuccPred.IntervalSucc
import XBlast.Foundation.ByteImage

/-!
# The partition table of an Xbox disk

The table is the first 496 bytes of sector 0: a magic text and 14 entries of 32 bytes. `image` and
`ofImage` are the two directions of the copies between the table and a sector, and `Partitioned`
says when the ranges of its entries lie on a disk side by side, behind the sectors that are
reserved for the configuration of the disk.
-/

set_option autoImplicit false
set_option relaxedAutoImplicit false

namespace XBlast.Fatx

open Foundation

structure XboxPartitionTableEntry where
  name : Packed 16
  flags : UInt32
  lbaStart : UInt32
  lbaSize : UInt32
  reserved : UInt32
  deriving DecidableEq

/-- The numbers of the entries of a table. -/
instance neZeroEntries : NeZero 14 := ⟨by decide⟩

structure XboxPartitionTable where
  magic : Packed 16
  res0 : Packed 32
  tableEntries : Fin 14 → XboxPartitionTableEntry
  deriving DecidableEq

/-! ### The bytes of a table -/

def XboxPartitionTableEntry.image (entry : XboxPartitionTableEntry) : Bytes := fun index ↦
  if index < 16 then entry.name.image index
  else if index < 20 then byteOf32 entry.flags (index - 16)
  else if index < 24 then byteOf32 entry.lbaStart (index - 20)
  else if index < 28 then byteOf32 entry.lbaSize (index - 24)
  else byteOf32 entry.reserved (index - 28)

def XboxPartitionTableEntry.ofImage (source : Bytes) (start : ℕ) : XboxPartitionTableEntry where
  name := readPacked 16 source start
  flags := littleEndian32 source (start + 16)
  lbaStart := littleEndian32 source (start + 20)
  lbaSize := littleEndian32 source (start + 24)
  reserved := littleEndian32 source (start + 28)

/-- The table at the start of a sector that is zero behind it. -/
def XboxPartitionTable.image (table : XboxPartitionTable) : Bytes := fun index ↦
  if index < 16 then table.magic.image index
  else if index < 48 then table.res0.image (index - 16)
  else if h : (index - 48) / 32 < 14 then
    (table.tableEntries ⟨(index - 48) / 32, h⟩).image ((index - 48) % 32)
  else 0

def XboxPartitionTable.ofImage (source : Bytes) : XboxPartitionTable where
  magic := readPacked 16 source 0
  res0 := readPacked 32 source 16
  tableEntries number := .ofImage source (48 + 32 * number)

theorem XboxPartitionTableEntry.ofImage_eq {entry : XboxPartitionTableEntry} {source : Bytes}
    {start : ℕ} (hbytes : ∀ index < 32, source (start + index) = entry.image index) :
    ofImage source start = entry := by
  have hword (offset : ℕ) (value : UInt32) (hoffset : offset + 4 ≤ 32)
      (hvalue : ∀ index < 4, entry.image (offset + index) = byteOf32 value index) :
      littleEndian32 source (start + offset) = value := by
    refine littleEndian32_eq fun index hindex ↦ ?_
    rw [add_assoc, hbytes (offset + index) (by omega), hvalue index hindex]
  have hname : readPacked 16 source start = entry.name := by
    refine readPacked_eq fun index hindex ↦ ?_
    rw [hbytes index (by omega), image, if_pos hindex]
  have hflags := hword 16 entry.flags (by omega) fun index hindex ↦ by
    rw [image, if_neg (by omega), if_pos (by omega), Nat.add_sub_cancel_left]
  have hstart := hword 20 entry.lbaStart (by omega) fun index hindex ↦ by
    rw [image, if_neg (by omega), if_neg (by omega), if_pos (by omega), Nat.add_sub_cancel_left]
  have hsize := hword 24 entry.lbaSize (by omega) fun index hindex ↦ by
    rw [image, if_neg (by omega), if_neg (by omega), if_neg (by omega), if_pos (by omega),
      Nat.add_sub_cancel_left]
  have hreserved := hword 28 entry.reserved (by omega) fun index hindex ↦ by
    rw [image, if_neg (by omega), if_neg (by omega), if_neg (by omega), if_neg (by omega),
      Nat.add_sub_cancel_left]
  rw [ofImage, hname, hflags, hstart, hsize, hreserved]

variable {table : XboxPartitionTable}

/-- A table is read back from every sector that holds its bytes. -/
theorem XboxPartitionTable.ofImage_eq {source : Bytes}
    (hbytes : ∀ index < 496, source index = table.image index) : ofImage source = table := by
  have hmagic : readPacked 16 source 0 = table.magic := by
    refine readPacked_eq fun index hindex ↦ ?_
    rw [zero_add, hbytes index (by omega), image, if_pos hindex]
  have hres : readPacked 32 source 16 = table.res0 := by
    refine readPacked_eq fun index hindex ↦ ?_
    rw [hbytes (16 + index) (by omega), image, if_neg (by omega), if_pos (by omega),
      Nat.add_sub_cancel_left]
  have hentries (number : Fin 14) :
      XboxPartitionTableEntry.ofImage source (48 + 32 * number) = table.tableEntries number := by
    refine XboxPartitionTableEntry.ofImage_eq fun index hindex ↦ ?_
    have hnumber := number.isLt
    have hquotient : (48 + 32 * number.val + index - 48) / 32 = number.val := by omega
    rw [hbytes _ (by omega), image, if_neg (by omega), if_neg (by omega), dif_pos (by omega)]
    simp only [hquotient]
    exact congrArg _ (by omega)
  rw [ofImage, hmagic, hres]
  exact congrArg _ (funext hentries)

/-- Reading a table looks at its bytes only. -/
theorem XboxPartitionTable.ofImage_congr {source other : Bytes}
    (hbytes : ∀ index < 496, source index = other index) : ofImage source = ofImage other := by
  have hentries (number : Fin 14) : XboxPartitionTableEntry.ofImage source (48 + 32 * number) =
      .ofImage other (48 + 32 * number) := by
    have hnumber := number.isLt
    have hword (offset : ℕ) (hoffset : offset + 4 ≤ 32) :
        littleEndian32 source (48 + 32 * number + offset) =
          littleEndian32 other (48 + 32 * number + offset) :=
      littleEndian32_congr fun index hindex ↦ hbytes _ (by omega)
    rw [XboxPartitionTableEntry.ofImage, XboxPartitionTableEntry.ofImage,
      hword 16 (by omega), hword 20 (by omega), hword 24 (by omega), hword 28 (by omega),
      readPacked_congr fun index hindex ↦ hbytes _ (by omega)]
  rw [ofImage, ofImage, readPacked_congr fun index hindex ↦ hbytes _ (by omega),
    readPacked_congr fun index hindex ↦ hbytes _ (by omega)]
  exact congrArg _ (funext hentries)

/-! ### The stock layout -/

def xboxExtendStartLba : UInt32 := 0x00EE8AB0
def xboxStoreStartLba : UInt32 := 0x0055F400
def xboxSystemStartLba : UInt32 := 0x00465400
def xboxCache1StartLba : UInt32 := 0x00000400
def xboxCache2StartLba : UInt32 := 0x00177400
def xboxCache3StartLba : UInt32 := 0x002EE400

def storeLbaSize : UInt32 := xboxExtendStartLba - xboxStoreStartLba
def systemLbaSize : UInt32 := xboxStoreStartLba - xboxSystemStartLba
def cache1LbaSize : UInt32 := xboxCache2StartLba - xboxCache1StartLba
def cache2LbaSize : UInt32 := xboxCache3StartLba - xboxCache2StartLba
def cache3LbaSize : UInt32 := xboxSystemStartLba - xboxCache3StartLba

/-- `FATX_PE_PARTFLAGS_IN_USE`. -/
def partflagsInUse : UInt32 := 0x80000000

/-- A text of 16 characters, padded with blanks. -/
def packedText (text : String) : Packed 16 := fun index ↦
  (text.toList.getD index ' ').toNat.toUInt8

def backupPartTable : XboxPartitionTable where
  magic := packedText "****PARTINFO****"
  res0 := fun _ ↦ 0
  tableEntries number :=
    match number.val with
    | 0 => ⟨packedText "XBOX SHELL", partflagsInUse, xboxStoreStartLba, storeLbaSize, 0⟩
    | 1 => ⟨packedText "XBOX DATA", partflagsInUse, xboxSystemStartLba, systemLbaSize, 0⟩
    | 2 => ⟨packedText "XBOX GAME SWAP 1", partflagsInUse, xboxCache1StartLba, cache1LbaSize, 0⟩
    | 3 => ⟨packedText "XBOX GAME SWAP 2", partflagsInUse, xboxCache1StartLba, cache2LbaSize, 0⟩
    | 4 => ⟨packedText "XBOX GAME SWAP 3", partflagsInUse, xboxCache1StartLba, cache3LbaSize, 0⟩
    | 5 => ⟨packedText "XBOX F", 0, 0, 0, 0⟩
    | 6 => ⟨packedText "XBOX G", 0, 0, 0, 0⟩
    | _ => ⟨packedText "", 0, 0, 0, 0⟩

/-- The start and the size of a base partition, by its number in the table. -/
def baseRange : ℕ → UInt32 × UInt32
  | 0 => (xboxStoreStartLba, storeLbaSize)
  | 1 => (xboxSystemStartLba, systemLbaSize)
  | 2 => (xboxCache1StartLba, cache1LbaSize)
  | 3 => (xboxCache2StartLba, cache2LbaSize)
  | 4 => (xboxCache3StartLba, cache3LbaSize)
  | _ => (0, 0)

/-- A table with the base partitions of a stock disk. -/
structure StockTable (table : XboxPartitionTable) : Prop where
  magic : table.magic = backupPartTable.magic
  baseStart : ∀ number : Fin 14, number.val < 5 →
    (table.tableEntries number).lbaStart = (baseRange number).1
  baseSize : ∀ number : Fin 14, number.val < 5 →
    (table.tableEntries number).lbaSize = (baseRange number).2

/-! ### Ranges side by side -/

/-- The sectors of an entry. -/
def XboxPartitionTableEntry.range (entry : XboxPartitionTableEntry) : Set ℕ :=
  Set.Ico entry.lbaStart.toNat (entry.lbaStart.toNat + entry.lbaSize.toNat)

/-- The entries of a table share no sector, keep clear of the first 1024 sectors, and end on a disk
of the given size. -/
structure Partitioned (table : XboxPartitionTable) (diskSize : ℕ) : Prop where
  disjoint : Pairwise fun first second ↦
    Disjoint (table.tableEntries first).range (table.tableEntries second).range
  configuration : ∀ number, Disjoint (table.tableEntries number).range (Set.Iio 0x400)
  bounded : ∀ number, (table.tableEntries number).range ⊆ Set.Iio diskSize

/-- The entries behind the seven partitions of an Xbox disk share no sector and lie on a disk of the
given size, from a sector on. -/
structure SpareFits (table : XboxPartitionTable) (start diskSize : ℕ) : Prop where
  disjoint : ∀ first second : Fin 14, 7 ≤ first.val → 7 ≤ second.val → first ≠ second →
    Disjoint (table.tableEntries first).range (table.tableEntries second).range
  inside : ∀ number : Fin 14, 7 ≤ number.val →
    (table.tableEntries number).range ⊆ Set.Ico start diskSize

theorem SpareFits.of_unused (start diskSize : ℕ)
    (hunused : ∀ number : Fin 14, 7 ≤ number.val → (table.tableEntries number).lbaSize = 0) :
    SpareFits table start diskSize := by
  have hempty (number : Fin 14) (hnumber : 7 ≤ number.val) :
      (table.tableEntries number).range = ∅ := by
    rw [XboxPartitionTableEntry.range, hunused number hnumber]
    exact Set.Ico_self _
  refine ⟨fun first second hfirst _ _ ↦ ?_, fun number hnumber ↦ ?_⟩
  · rw [hempty first hfirst]
    exact Set.empty_disjoint _
  · rw [hempty number hnumber]
    exact Set.empty_subset _

theorem SpareFits.congr {other : XboxPartitionTable} {start diskSize : ℕ}
    (hspare : SpareFits table start diskSize)
    (hsame : ∀ number : Fin 14, 7 ≤ number.val →
      other.tableEntries number = table.tableEntries number) : SpareFits other start diskSize where
  disjoint first second hfirst hsecond := by
    rw [hsame first hfirst, hsame second hsecond]
    exact hspare.disjoint first second hfirst hsecond
  inside number hnumber := by
    rw [hsame number hnumber]
    exact hspare.inside number hnumber

/-- The boundaries between the stock partitions, then between the two others and their end. -/
def stockBound (fEnd gEnd : ℕ) : ℕ → ℕ
  | 0 => 0x400
  | 1 => 0x177400
  | 2 => 0x2EE400
  | 3 => 0x465400
  | 4 => 0x55F400
  | 5 => 0xEE8AB0
  | 6 => fEnd
  | _ => gEnd

theorem stockBound_monotone {fEnd gEnd : ℕ} (hfEnd : 0xEE8AB0 ≤ fEnd) (hgEnd : fEnd ≤ gEnd) :
    Monotone (stockBound fEnd gEnd) := by
  refine monotone_nat_of_le_succ fun cell ↦ ?_
  match cell with
  | 0 | 1 | 2 | 3 | 4 => simp [stockBound]
  | 5 => exact hfEnd
  | 6 => exact hgEnd
  | cell + 7 => exact le_rfl

/-- The cell of an entry. The first two entries come behind the next three on the disk. -/
def stockRank (number : Fin 14) : ℕ :=
  match number.val with
  | 0 => 4
  | 1 => 3
  | 2 => 0
  | 3 => 1
  | 4 => 2
  | other => other

/-- Every base partition fills its cell. -/
theorem baseRange_cell (fEnd gEnd : ℕ) (number : Fin 14) (hnumber : number.val < 5) :
    (baseRange number).1.toNat = stockBound fEnd gEnd (stockRank number) ∧
      (baseRange number).1.toNat + (baseRange number).2.toNat =
        stockBound fEnd gEnd (stockRank number + 1) := by
  match number, hnumber with
  | ⟨0, _⟩, _ =>
    exact ⟨rfl, show xboxStoreStartLba.toNat + storeLbaSize.toNat = 0xEE8AB0 by decide⟩
  | ⟨1, _⟩, _ =>
    exact ⟨rfl, show xboxSystemStartLba.toNat + systemLbaSize.toNat = 0x55F400 by decide⟩
  | ⟨2, _⟩, _ =>
    exact ⟨rfl, show xboxCache1StartLba.toNat + cache1LbaSize.toNat = 0x177400 by decide⟩
  | ⟨3, _⟩, _ =>
    exact ⟨rfl, show xboxCache2StartLba.toNat + cache2LbaSize.toNat = 0x2EE400 by decide⟩
  | ⟨4, _⟩, _ =>
    exact ⟨rfl, show xboxCache3StartLba.toNat + cache3LbaSize.toNat = 0x465400 by decide⟩

/-- A place between the first and the last boundary lies in a cell. -/
theorem exists_cell {bound : ℕ → ℕ} {sector last : ℕ} (hlow : bound 0 ≤ sector)
    (hhigh : sector < bound last) :
    ∃ cell < last, sector ∈ Set.Ico (bound cell) (bound (cell + 1)) := by
  induction last with
  | zero => omega
  | succ last ih =>
    by_cases hinside : sector < bound last
    · obtain ⟨cell, hcell, hmem⟩ := ih hinside
      exact ⟨cell, by omega, hmem⟩
    · exact ⟨last, by omega, by omega, hhigh⟩

section

variable {diskSize fEnd gEnd : ℕ} (hstock : StockTable table)
  (hf : (table.tableEntries 5).range = Set.Ico 0xEE8AB0 fEnd)
  (hg : (table.tableEntries 6).range = Set.Ico fEnd gEnd)

include hstock hf hg

/-- The first seven partitions fill the cells up to the end of the last one. -/
theorem StockTable.range_eq {number : Fin 14} (hnumber : number.val < 7) :
    (table.tableEntries number).range = Set.Ico (stockBound fEnd gEnd (stockRank number))
      (stockBound fEnd gEnd (stockRank number + 1)) := by
  by_cases hbase : number.val < 5
  · obtain ⟨hfirst, hlast⟩ := baseRange_cell fEnd gEnd number hbase
    rw [XboxPartitionTableEntry.range, hstock.baseStart number hbase, hstock.baseSize number hbase,
      hlast, hfirst]
  · obtain rfl | rfl : number = 5 ∨ number = 6 := by omega
    · exact hf
    · exact hg

variable (hfEnd : 0xEE8AB0 ≤ fEnd) (hgEnd : fEnd ≤ gEnd)

include hfEnd hgEnd

theorem StockTable.range_subset {number : Fin 14} (hnumber : number.val < 7) :
    (table.tableEntries number).range ⊆ Set.Ico 0x400 gEnd := by
  have hmonotone := stockBound_monotone hfEnd hgEnd
  rw [hstock.range_eq hf hg hnumber]
  exact Set.Ico_subset_Ico (hmonotone (Nat.zero_le (stockRank number)))
    (hmonotone (Nat.le_add_right (stockRank number + 1) 7))

/-- Partitions without a gap, the last of which ends at `gEnd`, are side by side just in case that
they end on the disk and the entries behind them fit between their end and that of the disk. -/
theorem StockTable.partitioned_iff :
    Partitioned table diskSize ↔ gEnd ≤ diskSize ∧ SpareFits table gEnd diskSize := by
  constructor
  · intro hpartitioned
    have hcover (sector : ℕ) (hlow : 0x400 ≤ sector) (hhigh : sector < gEnd) :
        ∃ number : Fin 14, number.val < 7 ∧ sector ∈ (table.tableEntries number).range := by
      obtain ⟨cell, hcell, hmem⟩ := exists_cell (show stockBound fEnd gEnd 0 ≤ sector from hlow)
        (show sector < stockBound fEnd gEnd 7 from hhigh)
      obtain ⟨number, hnumber, rfl⟩ := (by decide :
        ∀ cell < 7, ∃ number : Fin 14, number.val < 7 ∧ stockRank number = cell) cell hcell
      exact ⟨number, hnumber, by rwa [hstock.range_eq hf hg hnumber]⟩
    refine ⟨?_, fun first second _ _ hne ↦ hpartitioned.disjoint hne, fun number hnumber ↦ ?_⟩
    · obtain ⟨number, -, hmem⟩ := hcover (gEnd - 1) (by omega) (by omega)
      have hlast : gEnd - 1 < diskSize := hpartitioned.bounded number hmem
      omega
    · intro sector hsector
      refine ⟨le_of_not_gt fun hhigh ↦ ?_, hpartitioned.bounded number hsector⟩
      have hlow : 0x400 ≤ sector := le_of_not_gt fun hlow ↦
        Set.disjoint_left.mp (hpartitioned.configuration number) hsector hlow
      obtain ⟨other, hother, hmem⟩ := hcover sector hlow hhigh
      exact Set.disjoint_left.mp (hpartitioned.disjoint (by omega)) hsector hmem
  · rintro ⟨hsize, hspare⟩
    have hmonotone := stockBound_monotone hfEnd hgEnd
    have hlow {number : Fin 14} (hnumber : ¬7 ≤ number.val) :=
      hstock.range_subset hf hg hfEnd hgEnd (not_le.mp hnumber)
    have hapart : Disjoint (Set.Ico 0x400 gEnd) (Set.Ico gEnd diskSize) :=
      Set.disjoint_left.mpr fun _ hbelow habove ↦ absurd hbelow.2 (not_lt.mpr habove.1)
    have hall (number : Fin 14) : (table.tableEntries number).range ⊆ Set.Ico 0x400 diskSize := by
      by_cases hnumber : 7 ≤ number.val
      · exact (hspare.inside number hnumber).trans (Set.Ico_subset_Ico_left (by omega))
      · exact (hlow hnumber).trans (Set.Ico_subset_Ico_right hsize)
    refine ⟨fun first second hne ↦ ?_, fun number ↦ ?_, fun number sector hsector ↦
      (hall number hsector).2⟩
    · by_cases hfirst : 7 ≤ first.val
      · by_cases hsecond : 7 ≤ second.val
        · exact hspare.disjoint first second hfirst hsecond hne
        · exact (hapart.mono (hlow hsecond) (hspare.inside first hfirst)).symm
      · by_cases hsecond : 7 ≤ second.val
        · exact hapart.mono (hlow hfirst) (hspare.inside second hsecond)
        · have hrank : Function.Injective stockRank := by decide
          exact (hmonotone.pairwise_disjoint_on_Ico_succ (hrank.ne hne)).mono
            (hstock.range_eq hf hg (not_le.mp hfirst)).subset
            (hstock.range_eq hf hg (not_le.mp hsecond)).subset
    · refine Set.disjoint_left.mpr fun sector hsector hreserved ↦ ?_
      have hbound := (hall number hsector).1
      have hbelow : sector < 0x400 := hreserved
      omega

end

end XBlast.Fatx
