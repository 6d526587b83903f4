import XBlast.Fatx.MountSpec

/-!
# Formatting a volume

`f_mkfs` of 'ff.c' with the options for FATX. It takes the entry of the volume from sector 0 of the
disk, moves the volume to whole blocks of 4096 bytes, writes the header, the FAT and the root
directory, and stores the new place of the volume in the partition table. The work buffer has 4096
bytes, as its only caller passes it, so that eight sectors are written at a time.
-/

set_option autoImplicit false
set_option relaxedAutoImplicit false

namespace XBlast.Fatx

open Foundation Disk Program

variable {δ : Type}

/-- `FM_FATX32`. -/
def fmFatx32 : UInt8 := 0x20

/-- `FM_FATXANY`. -/
def fmFatxAny : UInt8 := 0x30

/-- `MAX_FAT32`. -/
def maxFat32 : UInt32 := 0x0FFFFFF5

/-- What is known about a volume before anything is written. -/
structure VolumePlan where
  bVol : UInt32
  szVol : UInt32
  fmt : FsType
  pau : UInt32
  szFat : UInt32

/-- The loop that doubles the cluster size, with the number of times it may. -/
def clusterSize (szVol : UInt32) : ℕ → UInt32 → UInt32
  | 0, pau => pau
  | tries + 1, pau => if szVol / pau ≤ maxFat32 then pau else clusterSize szVol tries (pau <<< 1)

/-- The place, the kind and the layout of a volume, in whole blocks of 4096 bytes. The kind stays
FATX16 for a large volume when the option for FATX32 is missing, and the size of the FAT has one
byte for each cluster. -/
def planVolume (opt : UInt8) (au : UInt32) (entry : XboxPartitionTableEntry) :
    Except FResult VolumePlan :=
  let bVol := (entry.lbaStart + 7) &&& ~~~7
  let szVol := (entry.lbaSize - (bVol - entry.lbaStart)) &&& ~~~7
  if bVol < entry.lbaStart then .error .mkfsAborted
  else if szVol < 128 then .error .mkfsAborted
  else if 128 < au / 512 then .error .invalidParameter
  else
    let large := decide (maxFatx16 ≤ szVol / 32 + 1)
    let fmt : FsType := if opt &&& fmFatx32 ≠ 0 ∧ large = true then .fatx32 else .fatx16
    let pau := if large then clusterSize szVol 2 32 else 32
    let szFat := (szVol / pau + 511) / 512
    let bData := bVol + 8 + szFat + pau
    if 128 < pau then .error .mkfsAborted
    else if szVol < bData + pau * 16 - bVol then .error .mkfsAborted
    else .ok { bVol := bVol, szVol := szVol, fmt := fmt, pau := pau, szFat := szFat }

def dwordBytes (value : UInt32) : List UInt8 := (List.range 4).map (byteOf32 value)

/-- `fatxLabel`, which has seven letters. A volume of the slave disk reads a byte behind them. -/
def fatxLabel (vol : Fin 14) (stray : UInt8) : UInt8 :=
  [0x45, 0x43, 0x58, 0x59, 0x5A, 0x46, 0x47].getD vol.val stray

/-- The `PARTITIONHEADER` of a volume. -/
def headerImage (label : UInt8) (pau : UInt32) : Bytes :=
  writeFields [(0, dwordBytes fatxPartitionMagic), (4, dwordBytes label.toUInt32),
    (8, dwordBytes pau), (12, [1, 0]), (14, dwordBytes 0)] fun _ ↦ 0xFF

/-- The work buffer with the first entries of a FAT. -/
def fatStart (fmt : FsType) : Bytes :=
  writeFields (if fmt = .fatx32 then [(0, dwordBytes 0xFFFFFFF8), (4, dwordBytes 0xFFFFFFFF)]
    else [(0, dwordBytes 0xFFFFFFF8)]) fun _ ↦ 0

/-- The loops that write the work buffer to `nsect` sectors, eight at a time. The buffer is changed
by `next` after each write. The first argument bounds the number of writes. -/
def writeChunks (io : DiskIo δ) (pdrv : Drive) (next : Bytes → Bytes) :
    ℕ → Bytes → UInt32 → UInt32 →
      FatFsM δ (Bytes × UInt32)
  | 0, buf, sect, _ => pure (buf, sect)
  | fuel + 1, buf, sect, nsect => do
      let n := if 8 < nsect then 8 else nsect
      onDrive pdrv (diskWrite io buf sect n.toNat)
      if nsect - n = 0 then pure (next buf, sect + n)
      else writeChunks io pdrv next fuel (next buf) (sect + n) (nsect - n)

def clearSector (buf : Bytes) : Bytes := fill buf 0 512 0

variable (io : DiskIo δ)

/-- Fills the FAT. The first sector of the buffer is cleared after each write. -/
def writeFat (pdrv : Drive) (plan : VolumePlan) :
    FatFsM δ (Bytes × UInt32) :=
  writeChunks io pdrv clearSector (plan.szFat.toNat + 1) (fatStart plan.fmt) (plan.bVol + 8)
    plan.szFat

/-- Fills the root directory with what is left in the buffer. -/
def writeRootDirectory (pdrv : Drive) (plan : VolumePlan) (buf : Bytes) (sect : UInt32) :
    FatFsM δ (Bytes × UInt32) :=
  writeChunks io pdrv id (plan.pau.toNat + 1) buf sect plan.pau

/-- A table with the new place of a volume. -/
def formattedTable (plan : VolumePlan) (part : Fin 14) (table : XboxPartitionTable) :
    XboxPartitionTable :=
  { table with
    tableEntries := fun number ↦
      if number = part then
        { table.tableEntries part with
          name := (backupPartTable.tableEntries part).name
          flags := partflagsInUse
          lbaStart := plan.bVol
          lbaSize := plan.szVol }
      else table.tableEntries number }

/-- Reads the table again and stores the new place of the volume. -/
def updateTable (pdrv : Drive) (part : Fin 14) (plan : VolumePlan) :
    FatFsM δ Unit := do
  let mbr ← fatxGetmbr io pdrv
  Program.stopIf (mbr.1 = false) .diskErr
  fatxSetmbr io pdrv (formattedTable plan part mbr.2)

variable (vol : Fin 14)

/-- Forgets that a volume was mounted. -/
def FatFsState.unmount (state : FatFsState δ) : FatFsState δ :=
  { state with
    fatFs := fun other ↦
      if other = vol then (state.fatFs vol).map fun fs ↦ { fs with fsTypex := none }
      else state.fatFs other }

/-- Writes the header, the FAT and the root directory. -/
def writeVolume (stray : UInt8) (plan : VolumePlan) : FatFsM δ Unit := do
  onDrive (volumeDrive vol)
    (diskWrite io (headerImage (fatxLabel vol stray) plan.pau) plan.bVol 8)
  let fat ← writeFat io (volumeDrive vol) plan
  let _ ← writeRootDirectory io (volumeDrive vol) plan fat.1 fat.2
  pure ()

/-- Stores the new place of the volume. A disk that had no table does not get one. -/
def storePlace (found : Bool) (plan : VolumePlan) : FatFsM δ Unit :=
  if found then updateTable io (volumeDrive vol) (volumePart vol) plan else pure ()

/-- Formats a volume with one of the options for FATX. -/
def fMkfs (opt : UInt8) (au : UInt32) (stray : UInt8) : FatFsM δ Unit := do
  Program.modify (FatFsState.unmount vol)
  let mbr ← fatxGetmbr io (volumeDrive vol)
  let plan ← Program.ofExcept (planVolume opt au (mbr.2.tableEntries (volumePart vol)))
  writeVolume io vol stray plan
  storePlace io vol mbr.1 plan
  onDrive (volumeDrive vol) (diskSync io)

/-! ### The plan in numbers -/

/-- An entry of the sizes that the format is meant for. -/
structure FormatEntry (entry : XboxPartitionTableEntry) : Prop where
  minimum : 1024000 ≤ entry.lbaSize.toNat
  bounded : entry.lbaStart.toNat + entry.lbaSize.toNat < 2 ^ 32

/-- The plan of a volume for `FM_FATXANY`, without the wraparound of machine words. -/
structure PlanNumbers (entry : XboxPartitionTableEntry) (plan : VolumePlan) : Prop
    extends FormatEntry entry where
  bVol : plan.bVol.toNat = 8 * ((entry.lbaStart.toNat + 7) / 8)
  szVol : plan.szVol.toNat =
    8 * ((entry.lbaSize.toNat - (plan.bVol.toNat - entry.lbaStart.toNat)) / 8)
  fmt : plan.fmt = fatxType (plan.szVol / 32)
  pau : plan.pau = 32
  szFat : plan.szFat.toNat = (plan.szVol.toNat / 32 + 511) / 512

theorem clusterSize_eq (szVol : UInt32) : clusterSize szVol 2 32 = 32 := by
  have hlt := szVol.toNat_lt
  have hfew : szVol / 32 ≤ maxFat32 := by
    rw [UInt32.le_iff_toNat_le, UInt32.toNat_div]
    change szVol.toNat / 32 ≤ 0x0FFFFFF5
    omega
  rw [clusterSize, if_pos hfew]

theorem wholeBlocks_toNat (sectors : UInt32) :
    (sectors &&& ~~~7).toNat = 8 * (sectors.toNat / 8) :=
  alignDown_toNat sectors 7 (show (7 : UInt32).toNat = 2 ^ 3 - 1 from rfl) (by decide)

section

variable {entry : XboxPartitionTableEntry} (hentry : FormatEntry entry)

include hentry in
theorem bVol_toNat :
    ((entry.lbaStart + 7) &&& ~~~7).toNat = 8 * ((entry.lbaStart.toNat + 7) / 8) := by
  have hminimum := hentry.minimum
  have hbounded := hentry.bounded
  have hsum : (entry.lbaStart + 7).toNat = entry.lbaStart.toNat + 7 := by
    rw [UInt32.toNat_add, show (7 : UInt32).toNat = 7 from rfl]
    omega
  rw [wholeBlocks_toNat, hsum]

include hentry in
theorem bVol_ge : entry.lbaStart ≤ (entry.lbaStart + 7) &&& ~~~7 := by
  rw [UInt32.le_iff_toNat_le, bVol_toNat hentry]
  omega

include hentry in
theorem szVol_toNat {bVol : UInt32} (hbVol : (entry.lbaStart + 7) &&& ~~~7 = bVol) :
    ((entry.lbaSize - (bVol - entry.lbaStart)) &&& ~~~7).toNat =
      8 * ((entry.lbaSize.toNat - (bVol.toNat - entry.lbaStart.toNat)) / 8) := by
  have hminimum := hentry.minimum
  have htoNat := bVol_toNat hentry
  have hle := bVol_ge hentry
  rw [hbVol] at htoNat hle
  have hshift := UInt32.toNat_sub_of_le _ _ hle
  have hfits : bVol - entry.lbaStart ≤ entry.lbaSize := by
    rw [UInt32.le_iff_toNat_le, hshift, htoNat]
    omega
  rw [wholeBlocks_toNat, UInt32.toNat_sub_of_le _ _ hfits, hshift]

include hentry in
/-- A volume of these sizes is planned, unless the caller asks for clusters that are too large. -/
theorem planVolume_eq (au : UInt32) :
    (128 < au / 512 ∧ planVolume fmFatxAny au entry = .error .invalidParameter) ∨
      ∃ plan, planVolume fmFatxAny au entry = .ok plan ∧ PlanNumbers entry plan := by
  have hminimum := hentry.minimum
  have hbounded := hentry.bounded
  have hbVol := bVol_toNat hentry
  have hwrapped := UInt32.not_lt.mpr (bVol_ge hentry)
  simp only [planVolume]
  generalize hplace : (entry.lbaStart + 7) &&& ~~~7 = bVol at hbVol hwrapped ⊢
  have hszVol := szVol_toNat hentry hplace
  generalize (entry.lbaSize - (bVol - entry.lbaStart)) &&& ~~~7 = szVol at hszVol ⊢
  have henough : ¬ szVol < 128 := by
    rw [UInt32.lt_iff_toNat_lt]
    change ¬ szVol.toNat < 128
    omega
  have hpau : (if decide (maxFatx16 ≤ szVol / 32 + 1) = true then clusterSize szVol 2 32 else 32) =
      32 := by
    rw [clusterSize_eq, ite_self]
  have hszFat : ((szVol / 32 + 511) / 512).toNat = (szVol.toNat / 32 + 511) / 512 := by
    rw [UInt32.toNat_div, UInt32.toNat_add, UInt32.toNat_div]
    change (szVol.toNat / 32 + 511) % 2 ^ 32 / 512 = _
    omega
  have hneeded : (bVol + 8 + (szVol / 32 + 511) / 512 + 32 + 32 * 16 - bVol).toNat =
      8 + (szVol.toNat / 32 + 511) / 512 + 544 := by
    rw [UInt32.toNat_sub, UInt32.toNat_add, UInt32.toNat_add, UInt32.toNat_add, UInt32.toNat_add,
      hszFat]
    change (2 ^ 32 - bVol.toNat +
      (((((bVol.toNat + 8) % 2 ^ 32 + _) % 2 ^ 32 + 32) % 2 ^ 32 + 512) % 2 ^ 32)) % 2 ^ 32 = _
    omega
  have hroom : ¬ szVol < bVol + 8 + (szVol / 32 + 511) / 512 + 32 + 32 * 16 - bVol := by
    rw [UInt32.lt_iff_toNat_lt, hneeded]
    omega
  rw [if_neg hwrapped, if_neg henough, hpau, if_neg (show ¬ (128 : UInt32) < 32 by decide),
    if_neg hroom]
  by_cases hau : 128 < au / 512
  · exact .inl ⟨hau, if_pos hau⟩
  · refine .inr ⟨_, if_neg hau, hentry, hbVol, hszVol, ?_, rfl, hszFat⟩
    rw [fatxType]
    by_cases hlarge : maxFatx16 ≤ szVol / 32 + 1
    · rw [if_pos ⟨by decide, decide_eq_true hlarge⟩, if_neg (UInt32.not_lt.mpr hlarge)]
    · rw [if_neg fun hboth ↦ hlarge (of_decide_eq_true hboth.2), if_pos (UInt32.not_le.mp hlarge)]

include hentry in
theorem planVolume_numbers {au : UInt32} {plan : VolumePlan}
    (hplan : planVolume fmFatxAny au entry = .ok plan) : PlanNumbers entry plan := by
  rcases planVolume_eq hentry au with ⟨_, hfailed⟩ | ⟨other, hother, hnumbers⟩
  · exact absurd (hplan.symm.trans hfailed) (by simp)
  · obtain rfl := Except.ok.inj (hplan.symm.trans hother)
    exact hnumbers

/-- What is written lies inside the partition of the entry. -/
structure PlanInside (entry : XboxPartitionTableEntry) (plan : VolumePlan) : Prop where
  start : entry.lbaStart.toNat ≤ plan.bVol.toNat
  stop : plan.bVol.toNat + plan.szVol.toNat ≤ entry.lbaStart.toNat + entry.lbaSize.toNat
  room : 8 + plan.szFat.toNat + 32 ≤ plan.szVol.toNat

theorem PlanNumbers.inside {plan : VolumePlan} (hplan : PlanNumbers entry plan) :
    PlanInside entry plan := by
  have hminimum := hplan.minimum
  have hbVol := hplan.bVol
  have hszVol := hplan.szVol
  have hszFat := hplan.szFat
  exact ⟨by omega, by omega, by omega⟩

end

/-! ### What is written -/

variable {before after : FatFsState δ}

section

variable {io : DiskIo δ} (device : BlockDevice io) (pdrv : Drive)

/-- A change of the disks that keeps to the sectors from `low` to `high` of one disk, and to its
sector 0. -/
structure KeepsTo (low high : ℕ) (before after : FatFsState δ) : Prop where
  outside : ∀ address, 512 ≤ address → address < 512 * low ∨ 512 * high ≤ address →
    device.content (after.drive pdrv) address = device.content (before.drive pdrv) address
  other : ∀ drive, drive ≠ pdrv → after.drive drive = before.drive drive

variable {device pdrv} {low high : ℕ}

theorem KeepsTo.of_drive_eq (hdrive : after.drive = before.drive) :
    KeepsTo device pdrv low high before after :=
  ⟨fun _ _ _ ↦ by rw [hdrive], fun _ _ ↦ by rw [hdrive]⟩

theorem KeepsTo.trans {before middle after : FatFsState δ}
    (hfirst : KeepsTo device pdrv low high before middle)
    (hsecond : KeepsTo device pdrv low high middle after) :
    KeepsTo device pdrv low high before after :=
  ⟨fun address hsector houtside ↦ (hsecond.outside address hsector houtside).trans
      (hfirst.outside address hsector houtside),
    fun drive hdrive ↦ (hsecond.other drive hdrive).trans (hfirst.other drive hdrive)⟩

theorem DiskChange.keepsTo {content : Bytes}
    (hchange : DiskChange device pdrv before content after)
    (hcontent : ∀ address, 512 ≤ address → address < 512 * low ∨ 512 * high ≤ address →
      content address = device.content (before.drive pdrv) address) :
    KeepsTo device pdrv low high before after := by
  refine ⟨fun address hsector houtside ↦ ?_, fun drive hdrive ↦ ?_⟩
  · rw [hchange.content, hcontent address hsector houtside]
  · obtain ⟨disk, _, rfl⟩ := hchange
    exact if_neg hdrive

/-- A write that keeps to the range, or to sector 0. -/
theorem DiskChange.keepsTo_overlay {start length : ℕ}
    {patch : Bytes}
    (hchange : DiskChange device pdrv before
      (overlay (device.content (before.drive pdrv)) start length patch) after)
    (hrange : 512 * low ≤ start ∧ start + length ≤ 512 * high ∨ start + length ≤ 512) :
    KeepsTo device pdrv low high before after :=
  hchange.keepsTo fun _ _ _ ↦ overlay_outside (by omega)

variable (device pdrv)

theorem onDrive_diskWrite_keepsTo (state : FatFsState δ) (buff : Bytes) {sector : UInt32}
    {count : ℕ} (hrange : sector.toNat + count ≤ 2 ^ 32) (hlow : low ≤ sector.toNat)
    (hhigh : sector.toNat + count ≤ high) :
    (onDrive pdrv (diskWrite io buff sector count)).wp
      (fun _ after ↦ DiskChange device pdrv state (overlay (device.content (state.drive pdrv))
          (512 * sector.toNat) (512 * count) buff) after ∧
        KeepsTo device pdrv low high state after)
      (fun _ after ↦ device.faulty ∧ KeepsTo device pdrv low high state after) state := by
  refine wp_mono (onDrive_diskWrite_spec device pdrv state buff hrange) ?_ ?_
  · intro _ after hchange
    exact ⟨hchange, hchange.keepsTo_overlay (by omega)⟩
  · rintro code after ⟨_, hfaulty, written, hwritten, hchange⟩
    exact ⟨hfaulty, hchange.keepsTo_overlay (by omega)⟩

/-- The chunks of a buffer that is zero behind its first 4096 bytes, and zero altogether once it was
written, are the whole buffer. -/
theorem writeChunks_spec (next : Bytes → Bytes) (hzero : next (fun _ ↦ 0) = fun _ ↦ 0) {fuel : ℕ}
    {buf : Bytes} {sect nsect : UInt32} (hnext : next buf = fun _ ↦ 0)
    (htail : ∀ index, 4096 ≤ index → buf index = 0) (hfuel : nsect.toNat < fuel)
    (hrange : sect.toNat + nsect.toNat < 2 ^ 32) (hlow : low ≤ sect.toNat)
    (hhigh : sect.toNat + nsect.toNat ≤ high) (state : FatFsState δ) :
    (writeChunks io pdrv next fuel buf sect nsect).wp
      (fun answer after ↦ (answer = (fun _ ↦ 0, sect + nsect) ∧
          DiskChange device pdrv state (overlay (device.content (state.drive pdrv))
            (512 * sect.toNat) (512 * nsect.toNat) buf) after) ∧
        KeepsTo device pdrv low high state after)
      (fun _ after ↦ device.faulty ∧ KeepsTo device pdrv low high state after) state := by
  induction fuel generalizing buf sect nsect state with
  | zero => exact nomatch hfuel
  | succ fuel ih =>
    have hn : (if 8 < nsect then 8 else nsect).toNat = min 8 nsect.toNat := by
      split_ifs with hlarge
      · rw [UInt32.lt_iff_toNat_lt] at hlarge
        exact (min_eq_left (le_of_lt hlarge)).symm
      · rw [UInt32.lt_iff_toNat_lt] at hlarge
        exact (min_eq_right (not_lt.mp hlarge)).symm
    have hle : (if 8 < nsect then 8 else nsect) ≤ nsect := by
      rw [UInt32.le_iff_toNat_le, hn]
      omega
    have hrest := UInt32.toNat_sub_of_le _ _ hle
    rw [writeChunks]
    generalize (if 8 < nsect then 8 else nsect) = n at *
    rw [hn] at hrest
    refine wp_bind_keeps KeepsTo.trans (onDrive_diskWrite_keepsTo device pdrv state buf (by omega)
      (by omega) (by omega)) id ?_
    intro _ written hwritten
    rw [wp_ite]
    constructor
    · intro hdone
      have hall : n.toNat = nsect.toNat := by
        rw [hdone, UInt32.toNat_zero] at hrest
        omega
      obtain rfl := UInt32.toNat_inj.mp hall
      rw [hnext]
      exact ⟨⟨rfl, hwritten⟩, KeepsTo.of_drive_eq rfl⟩
    · intro hmore
      have hfull : n.toNat = 8 := by
        have hne : (nsect - n).toNat ≠ 0 := fun hzero ↦ hmore (UInt32.toNat_inj.mp hzero)
        omega
      have hsum : (sect + n).toNat = sect.toNat + 8 := by
        rw [UInt32.toNat_add, hfull]
        omega
      rw [hnext]
      refine wp_mono (ih hzero (fun _ _ ↦ rfl) (by omega) (by omega) (by omega)
        (by omega) written) ?_ fun _ _ herror ↦ herror
      rintro answer after ⟨⟨rfl, hafter⟩, hkeeps⟩
      refine ⟨⟨?_, ?_⟩, hkeeps⟩
      · rw [UInt32.add_assoc, UInt32.add_comm n, UInt32.sub_add_cancel]
      · rw [hwritten.content, hfull, hsum, mul_add,
          overlay_append fun offset _ ↦ (htail _ (by omega)).symm] at hafter
        have hlength : 512 * 8 + 512 * (nsect - n).toNat = 512 * nsect.toNat := by omega
        rw [hlength] at hafter
        exact hwritten.trans hafter

theorem fatStart_eq_zero (fmt : FsType) {index : ℕ} (hindex : 8 ≤ index) :
    fatStart fmt index = 0 := by
  rw [fatStart]
  split_ifs
  · rw [writeFields_outside]
    simp [dwordBytes]
    omega
  · rw [writeFields_outside]
    simp [dwordBytes]
    omega

theorem clearSector_eq_zero {buf : Bytes} (htail : ∀ index, 512 ≤ index → buf index = 0) :
    clearSector buf = fun _ ↦ 0 := by
  funext index
  by_cases hindex : index < 512
  · exact fill_inside (Nat.zero_le _) (by omega)
  · rw [clearSector, fill_outside (by omega), htail index (by omega)]

theorem writeFat_spec {plan : VolumePlan} {sect : ℕ} (hsect : (plan.bVol + 8).toNat = sect)
    (hrange : sect + plan.szFat.toNat < 2 ^ 32) (hlow : low ≤ sect)
    (hhigh : sect + plan.szFat.toNat ≤ high) (state : FatFsState δ) :
    (writeFat io pdrv plan).wp
      (fun answer after ↦ (answer = (fun _ ↦ 0, plan.bVol + 8 + plan.szFat) ∧
          DiskChange device pdrv state (overlay (device.content (state.drive pdrv)) (512 * sect)
            (512 * plan.szFat.toNat) (fatStart plan.fmt)) after) ∧
        KeepsTo device pdrv low high state after)
      (fun _ after ↦ device.faulty ∧ KeepsTo device pdrv low high state after) state := by
  obtain rfl := hsect
  rw [writeFat]
  refine writeChunks_spec device pdrv clearSector (clearSector_eq_zero fun _ _ ↦ rfl) ?_ ?_
    ?_ hrange hlow hhigh state
  · exact clearSector_eq_zero fun index hindex ↦ fatStart_eq_zero plan.fmt (by omega)
  · intro index hindex
    exact fatStart_eq_zero plan.fmt (by omega)
  · exact Nat.lt_succ_self _

theorem writeRootDirectory_spec {plan : VolumePlan} {sect : ℕ} {start : UInt32}
    (hpau : plan.pau = 32) (hsect : start.toNat = sect) (hrange : sect + 32 < 2 ^ 32)
    (hlow : low ≤ sect) (hhigh : sect + 32 ≤ high) (state : FatFsState δ) :
    (writeRootDirectory io pdrv plan (fun _ ↦ 0) start).wp
      (fun _ after ↦ DiskChange device pdrv state
          (overlay (device.content (state.drive pdrv)) (512 * sect) (512 * 32) fun _ ↦ 0) after ∧
        KeepsTo device pdrv low high state after)
      (fun _ after ↦ device.faulty ∧ KeepsTo device pdrv low high state after) state := by
  obtain rfl := hsect
  rw [writeRootDirectory, hpau]
  have hsectors : start.toNat + (32 : UInt32).toNat < 2 ^ 32 := hrange
  refine wp_mono (writeChunks_spec device pdrv id rfl rfl (fun _ _ ↦ rfl)
    (Nat.lt_succ_self _) hsectors hlow hhigh state) ?_ fun _ _ herror ↦ herror
  rintro answer after ⟨⟨_, hafter⟩, hkeeps⟩
  exact ⟨hafter, hkeeps⟩

/-- The content of a disk with the header, the FAT and the root directory of a volume. -/
def bodyContent (plan : VolumePlan) (label : UInt8) (content : Bytes) : Bytes :=
  overlay
    (overlay (overlay content (512 * plan.bVol.toNat) (512 * 8) (headerImage label plan.pau))
      (512 * (plan.bVol.toNat + 8)) (512 * plan.szFat.toNat) (fatStart plan.fmt))
    (512 * (plan.bVol.toNat + 8 + plan.szFat.toNat)) (512 * 32) fun _ ↦ 0

/-- A change of the disks that keeps to a partition and to sector 0 of its disk. -/
def KeepsToPartition (entry : XboxPartitionTableEntry) (before after : FatFsState δ) : Prop :=
  KeepsTo device pdrv entry.lbaStart.toNat (entry.lbaStart.toNat + entry.lbaSize.toNat) before after

variable {entry : XboxPartitionTableEntry} {plan : VolumePlan} (hplan : PlanNumbers entry plan)

include hplan in
theorem writeVolume_spec (vol : Fin 14) (stray : UInt8) (state : FatFsState δ) :
    (writeVolume io vol stray plan).wp
      (fun _ after ↦ DiskChange device (volumeDrive vol) state (bodyContent plan
          (fatxLabel vol stray) (device.content (state.drive (volumeDrive vol)))) after ∧
        KeepsToPartition device (volumeDrive vol) entry state after)
      (fun _ after ↦ device.faulty ∧ KeepsToPartition device (volumeDrive vol) entry state after)
      state := by
  obtain ⟨hstart, hstop, hroom⟩ := hplan.inside
  have hbounded := hplan.bounded
  have hfat : (plan.bVol + 8).toNat = plan.bVol.toNat + 8 := by
    rw [UInt32.toNat_add, show (8 : UInt32).toNat = 8 from rfl]
    omega
  have hroot : (plan.bVol + 8 + plan.szFat).toNat = plan.bVol.toNat + 8 + plan.szFat.toNat := by
    rw [UInt32.toNat_add, hfat]
    omega
  rw [writeVolume]
  refine wp_bind_keeps KeepsTo.trans (onDrive_diskWrite_keepsTo device _ state _ (by omega)
    (by omega) (by omega)) id ?_
  intro _ header hheader
  refine wp_bind_keeps KeepsTo.trans (writeFat_spec device _ hfat (by omega) (by omega) (by omega)
    header) id ?_
  rintro _ fat ⟨rfl, hfatChange⟩
  rw [wp_bind]
  refine wp_mono (writeRootDirectory_spec device _ hplan.pau hroot (by omega) (by omega)
    (by omega) fat) ?_ fun _ _ herror ↦ herror
  rintro _ root ⟨hrootChange, hkeeps⟩
  rw [hfatChange.content, hheader.content] at hrootChange
  exact ⟨(hheader.trans hfatChange).trans hrootChange, hkeeps⟩

/-- The tables of the other disk and the filesystem objects stay as they are. -/
structure SameElsewhere (before after : FatFsState δ) : Prop where
  table : ∀ drive, drive ≠ pdrv → after.fatxPartTable drive = before.fatxPartTable drive
  read : ∀ drive, drive ≠ pdrv → after.fatxPartTableRead drive = before.fatxPartTableRead drive
  fatFs : after.fatFs = before.fatFs

/-- What storing the place of a volume leaves: a table that was found is changed on the disk and in
memory. -/
structure PlaceStored (found : Bool) (part : Fin 14) (plan : VolumePlan)
    (before after : FatFsState δ) : Prop where
  content : device.content (after.drive pdrv) = if found then
      overlay (device.content (before.drive pdrv)) 0 512
        (formattedTable plan part (mbrOf (device.content (before.drive pdrv))).2).image
    else device.content (before.drive pdrv)
  again : found = true → (mbrOf (device.content (before.drive pdrv))).1 = true
  table : after.fatxPartTable pdrv = if found then
      formattedTable plan part (mbrOf (device.content (before.drive pdrv))).2
    else before.fatxPartTable pdrv
  read : after.fatxPartTableRead pdrv = if found then true else before.fatxPartTableRead pdrv
  elsewhere : SameElsewhere pdrv before after

variable {device pdrv}

theorem mbrOf_magic (content : Bytes) : (mbrOf content).2.magic = backupPartTable.magic := by
  rw [mbrOf]
  split_ifs with hmagic
  · exact hmagic
  · rfl

theorem SameElsewhere.trans {before middle after : FatFsState δ}
    (hfirst : SameElsewhere pdrv before middle) (hsecond : SameElsewhere pdrv middle after) :
    SameElsewhere pdrv before after :=
  ⟨fun drive hdrive ↦ (hsecond.table drive hdrive).trans (hfirst.table drive hdrive),
    fun drive hdrive ↦ (hsecond.read drive hdrive).trans (hfirst.read drive hdrive),
    hsecond.fatFs.trans hfirst.fatFs⟩

theorem DiskChange.sameElsewhere {content : Bytes}
    (hchange : DiskChange device pdrv before content after) : SameElsewhere pdrv before after := by
  obtain ⟨disk, _, rfl⟩ := hchange
  exact ⟨fun _ _ ↦ rfl, fun _ _ ↦ rfl, rfl⟩

theorem setTable_sameElsewhere (state : FatFsState δ) (table : XboxPartitionTable) (read : Bool) :
    SameElsewhere pdrv state (state.setTable pdrv table read) :=
  ⟨fun _ hdrive ↦ if_neg hdrive, fun _ hdrive ↦ if_neg hdrive, rfl⟩

variable (device pdrv)

theorem updateTable_spec (low high : ℕ) (part : Fin 14) (plan : VolumePlan) (state : FatFsState δ) :
    (updateTable io pdrv part plan).wp
      (fun _ after ↦ PlaceStored device pdrv true part plan state after ∧
        KeepsTo device pdrv low high state after)
      (fun _ after ↦
        (device.faulty ∨ (mbrOf (device.content (state.drive pdrv))).1 = false) ∧
          KeepsTo device pdrv low high state after) state := by
  rw [updateTable, wp_bind]
  refine wp_mono (fatxGetmbr_spec device pdrv state) ?_ ?_
  · rintro _ _ ⟨rfl, read, hread, rfl⟩
    have hcontent := hread.content
    have hkeeps : KeepsTo device pdrv low high state
        (read.setTable pdrv (mbrOf (device.content (state.drive pdrv))).2 true) :=
      (hread.keepsTo fun _ _ _ ↦ rfl).trans (KeepsTo.of_drive_eq rfl)
    have helsewhere : SameElsewhere pdrv state
        (read.setTable pdrv (mbrOf (device.content (state.drive pdrv))).2 true) :=
      hread.sameElsewhere.trans (setTable_sameElsewhere read _ true)
    rw [wp_bind, wp_stopIf]
    refine ⟨fun hmissing ↦ ⟨.inr hmissing, hkeeps⟩, fun hfound ↦ ?_⟩
    refine wp_mono (fatxSetmbr_spec device pdrv _ _) ?_ ?_
    · rintro _ _ ⟨written, hwritten, rfl⟩
      have hmagic : (formattedTable plan part
          (mbrOf (device.content (state.drive pdrv))).2).magic = backupPartTable.magic :=
        mbrOf_magic _
      have hwrite := hwritten.content
      refine ⟨⟨?_, fun _ ↦ Bool.eq_true_of_not_eq_false hfound, if_pos rfl, ?_,
        (helsewhere.trans hwritten.sameElsewhere).trans (setTable_sameElsewhere written _ _)⟩,
        (hkeeps.trans (hwritten.keepsTo_overlay (by omega))).trans (KeepsTo.of_drive_eq rfl)⟩
      · rw [setTable_drive, hwrite, setTable_drive, hcontent]
        rfl
      · exact (if_pos rfl).trans (decide_eq_true hmagic)
    · rintro code after ⟨_, hfaulty, hafter | hafter⟩
      · exact ⟨.inl hfaulty, hkeeps.trans (hafter.keepsTo fun _ _ _ ↦ rfl)⟩
      · exact ⟨.inl hfaulty, hkeeps.trans (hafter.keepsTo_overlay (by omega))⟩
  · rintro code after ⟨_, hfaulty, hafter⟩
    exact ⟨.inl hfaulty, hafter.keepsTo fun _ _ _ ↦ rfl⟩

theorem storePlace_spec (low high : ℕ) (vol : Fin 14) (found : Bool) (plan : VolumePlan)
    (state : FatFsState δ) :
    (storePlace io vol found plan).wp
      (fun _ after ↦ PlaceStored device (volumeDrive vol) found (volumePart vol) plan state after ∧
        KeepsTo device (volumeDrive vol) low high state after)
      (fun _ after ↦ (device.faulty ∨ found = true ∧
          (mbrOf (device.content (state.drive (volumeDrive vol)))).1 = false) ∧
        KeepsTo device (volumeDrive vol) low high state after) state := by
  rw [storePlace, wp_ite]
  constructor
  · rintro rfl
    refine wp_mono (updateTable_spec device (volumeDrive vol) low high (volumePart vol) plan
      state) (fun _ _ hok ↦ hok) ?_
    rintro code after ⟨hreason, hkeeps⟩
    exact ⟨hreason.imp_right fun hmissing ↦ ⟨rfl, hmissing⟩, hkeeps⟩
  · intro hmissing
    obtain rfl := Bool.eq_false_of_not_eq_true hmissing
    exact ⟨⟨rfl, fun hfound ↦ absurd hfound hmissing, rfl, rfl,
      ⟨fun _ _ ↦ rfl, fun _ _ ↦ rfl, rfl⟩⟩, KeepsTo.of_drive_eq rfl⟩

/-- What `f_mkfs` leaves of a volume: the body is on the disk, and then the place is stored. -/
structure Formatted (vol : Fin 14) (stray : UInt8) (plan : VolumePlan)
    (before after : FatFsState δ) : Prop where
  content : device.content (after.drive (volumeDrive vol)) =
    if (mbrOf (device.content (before.drive (volumeDrive vol)))).1 then
      overlay (bodyContent plan (fatxLabel vol stray)
          (device.content (before.drive (volumeDrive vol)))) 0 512
        (formattedTable plan (volumePart vol) (mbrOf (bodyContent plan (fatxLabel vol stray)
          (device.content (before.drive (volumeDrive vol))))).2).image
    else bodyContent plan (fatxLabel vol stray)
      (device.content (before.drive (volumeDrive vol)))
  again : (mbrOf (device.content (before.drive (volumeDrive vol)))).1 = true →
    (mbrOf (bodyContent plan (fatxLabel vol stray)
      (device.content (before.drive (volumeDrive vol))))).1 = true
  table : after.fatxPartTable (volumeDrive vol) =
    if (mbrOf (device.content (before.drive (volumeDrive vol)))).1 then
      formattedTable plan (volumePart vol) (mbrOf (bodyContent plan (fatxLabel vol stray)
        (device.content (before.drive (volumeDrive vol))))).2
    else (mbrOf (device.content (before.drive (volumeDrive vol)))).2
  read : after.fatxPartTableRead (volumeDrive vol) = true
  elsewhere : SameElsewhere (volumeDrive vol) (before.unmount vol) after

/-- The volume covers the table of its disk with something else. -/
def CoversTable (vol : Fin 14) (stray : UInt8) (plan : VolumePlan) (state : FatFsState δ) : Prop :=
  (mbrOf (device.content (state.drive (volumeDrive vol)))).1 = true ∧
    (mbrOf (bodyContent plan (fatxLabel vol stray)
      (device.content (state.drive (volumeDrive vol))))).1 = false

/-- The volume is forgotten and the table of its disk is read. -/
structure TableLoaded (vol : Fin 14) (before after : FatFsState δ) : Prop where
  content : device.content (after.drive (volumeDrive vol)) =
    device.content (before.drive (volumeDrive vol))
  table : after.fatxPartTable (volumeDrive vol) =
    (mbrOf (device.content (before.drive (volumeDrive vol)))).2
  read : after.fatxPartTableRead (volumeDrive vol) = true
  elsewhere : SameElsewhere (volumeDrive vol) (before.unmount vol) after

include hplan in
/-- What `f_mkfs` does once the volume is planned. -/
theorem writePlanned_spec (vol : Fin 14) (stray : UInt8) {state loaded : FatFsState δ}
    (hloaded : TableLoaded device vol state loaded) :
    (do
      writeVolume io vol stray plan
      storePlace io vol (mbrOf (device.content (state.drive (volumeDrive vol)))).1 plan
      onDrive (volumeDrive vol) (diskSync io)).wp
      (fun _ after ↦ Formatted device vol stray plan state after ∧
        KeepsToPartition device (volumeDrive vol) entry loaded after)
      (fun _ after ↦ (device.faulty ∨ CoversTable device vol stray plan state) ∧
        KeepsToPartition device (volumeDrive vol) entry loaded after) loaded := by
  refine wp_bind_keeps KeepsTo.trans (writeVolume_spec device hplan vol stray loaded) .inl ?_
  intro _ body hbody
  rw [hloaded.content] at hbody
  have hcontent := hbody.content
  have helsewhere := hloaded.elsewhere.trans hbody.sameElsewhere
  refine wp_bind_keeps KeepsTo.trans (storePlace_spec device _ _ vol _ plan body) ?_ ?_
  · rintro (hfaulty | ⟨hfound, hmissing⟩)
    · exact .inl hfaulty
    · rw [hcontent] at hmissing
      exact .inr ⟨hfound, hmissing⟩
  intro _ stored hstored
  refine wp_mono (onDrive_diskSync_spec device (volumeDrive vol) stored) ?_ ?_
  · intro _ synced hsynced
    refine ⟨?_, hsynced.keepsTo fun _ _ _ ↦ rfl⟩
    have hsyncedContent := hsynced.content
    have hsyncedElsewhere := hsynced.sameElsewhere
    obtain ⟨disk, _, rfl⟩ := hsynced
    obtain ⟨bodyDisk, _, rfl⟩ := hbody
    refine ⟨?_, ?_, ?_, ?_, (helsewhere.trans hstored.elsewhere).trans hsyncedElsewhere⟩
    · rw [hsyncedContent, hstored.content, hcontent]
    · intro hfound
      have hagain := hstored.again hfound
      rwa [hcontent] at hagain
    · have htable := hstored.table
      rw [hcontent] at htable
      exact htable.trans (congrArg (ite _ _) hloaded.table)
    · exact hstored.read.trans (ite_eq_left_iff.mpr fun _ ↦ hloaded.read)
  · rintro code after ⟨_, hfaulty, hafter⟩
    exact ⟨.inl hfaulty, hafter.keepsTo fun _ _ _ ↦ rfl⟩

/-- Formatting keeps to the partition and to sector 0 whatever happens. It fails only on a disk that
fails, for clusters that are too large, or when the volume covers the table. -/
theorem fMkfs_spec (vol : Fin 14) (au : UInt32) (stray : UInt8) (state : FatFsState δ)
    (hentry : FormatEntry (ownEntry device vol state)) :
    (fMkfs io vol fmFatxAny au stray).wp
      (fun _ after ↦ (∃ plan, planVolume fmFatxAny au (ownEntry device vol state) = .ok plan ∧
          Formatted device vol stray plan state after) ∧
        KeepsToPartition device (volumeDrive vol) (ownEntry device vol state) state after)
      (fun _ after ↦ (device.faulty ∨ 128 < au / 512 ∨
          ∃ plan, planVolume fmFatxAny au (ownEntry device vol state) = .ok plan ∧
            CoversTable device vol stray plan state) ∧
        KeepsToPartition device (volumeDrive vol) (ownEntry device vol state) state after)
      state := by
  have hunmount : KeepsToPartition device (volumeDrive vol) (ownEntry device vol state) state
      (state.unmount vol) := KeepsTo.of_drive_eq rfl
  rw [fMkfs, wp_bind, wp_modify, wp_bind]
  refine wp_mono (fatxGetmbr_spec device (volumeDrive vol) (state.unmount vol)) ?_ ?_
  · rintro _ _ ⟨rfl, read, hread, rfl⟩
    have hloaded : TableLoaded device vol state (read.setTable (volumeDrive vol) _ true) :=
      ⟨hread.content, if_pos rfl, if_pos rfl,
        hread.sameElsewhere.trans (setTable_sameElsewhere read _ true)⟩
    have hkeeps (table : XboxPartitionTable) : KeepsToPartition device (volumeDrive vol)
        (ownEntry device vol state) state (read.setTable (volumeDrive vol) table true) :=
      hunmount.trans ((hread.keepsTo fun _ _ _ ↦ rfl).trans (KeepsTo.of_drive_eq rfl))
    rw [wp_bind]
    refine wp_ofExcept ?_ ?_
    · intro plan hplan
      have hwrites := writePlanned_spec device (planVolume_numbers hentry hplan) vol stray hloaded
      refine wp_mono hwrites ?_ ?_
      · rintro _ after ⟨hformatted, hafter⟩
        exact ⟨⟨plan, hplan, hformatted⟩, (hkeeps _).trans hafter⟩
      · rintro code after ⟨hreason, hafter⟩
        exact ⟨hreason.imp_right fun hcovers ↦ .inr ⟨plan, hplan, hcovers⟩,
          (hkeeps _).trans hafter⟩
    · intro code hfailed
      refine ⟨.inr (.inl ?_), hkeeps _⟩
      rcases planVolume_eq hentry au with ⟨hau, _⟩ | ⟨plan, hplan, _⟩
      · exact hau
      · exact absurd (hfailed.symm.trans hplan) (by simp)
  · rintro code after ⟨_, hfaulty, hafter⟩
    exact ⟨.inl hfaulty, hunmount.trans (hafter.keepsTo fun _ _ _ ↦ rfl)⟩

end

end XBlast.Fatx
