import XBlast.Fatx.Clusters
import XBlast.Fatx.Mkfs

/-!
# Formatting and mounting agree

`f_mkfs` gives the FAT one byte for each cluster and puts the root directory behind it, while
`find_volume` expects two or four bytes for each cluster and the root directory behind that. What
the mount takes for the end of the FAT and for the root directory is therefore what was on the disk
before, and `format_mount_agrees_iff` says exactly when the two agree all the same.
-/

set_option autoImplicit false
set_option relaxedAutoImplicit false

namespace XBlast.Fatx

open Foundation Disk Program

variable {δ : Type}

/-! ### The body of a formatted volume -/

variable {address : ℕ}

variable (plan : VolumePlan)

section

variable {entry : XboxPartitionTableEntry} {plan : VolumePlan} (label : UInt8) (content : Bytes)

/-- The FAT that is written has sectors for its first entries. -/
theorem PlanNumbers.szFat_pos (hplan : PlanNumbers entry plan) : 1 ≤ plan.szFat.toNat := by
  have hminimum := hplan.minimum
  have hbVol := hplan.bVol
  have hszVol := hplan.szVol
  have hszFat := hplan.szFat
  omega

theorem bodyContent_header {index : ℕ} (hindex : index < 4096) :
    bodyContent plan label content (512 * plan.bVol.toNat + index) =
      headerImage label plan.pau index := by
  rw [bodyContent, overlay_outside (by omega), overlay_outside (by omega), overlay_add hindex]

/-- The FAT and the root directory behind it, which is zero. -/
theorem bodyContent_fat (hplan : PlanNumbers entry plan) {offset : ℕ}
    (hoffset : offset < 512 * (plan.szFat.toNat + 32)) :
    bodyContent plan label content (512 * (plan.bVol.toNat + 8) + offset) =
      fatStart plan.fmt offset := by
  have hpos := hplan.szFat_pos
  by_cases hfat : offset < 512 * plan.szFat.toNat
  · rw [bodyContent, overlay_outside (by omega), overlay_add hfat]
  · rw [bodyContent, overlay_inside (by omega) (by omega), fatStart_eq_zero plan.fmt (by omega)]

theorem bodyContent_outside (houtside : address < 512 * plan.bVol.toNat ∨
      512 * (plan.bVol.toNat + 8 + plan.szFat.toNat + 32) ≤ address) :
    bodyContent plan label content address = content address := by
  rw [bodyContent, overlay_outside (by omega), overlay_outside (by omega),
    overlay_outside (by omega)]

theorem headerImage_magic (pau : UInt32) (index : ℕ) (hindex : index < 4) :
    headerImage label pau index = byteOf32 fatxPartitionMagic index := by
  obtain rfl | rfl | rfl | rfl : index = 0 ∨ index = 1 ∨ index = 2 ∨ index = 3 := by omega
  · rfl
  · rfl
  · rfl
  · rfl

theorem headerImage_clusterSize (pau : UInt32) : headerImage label pau 8 = byteOf32 pau 0 := rfl

theorem bodyContent_magic (plan : VolumePlan) :
    littleEndian32 (bodyContent plan label content) (512 * plan.bVol.toNat) =
      fatxPartitionMagic := by
  refine littleEndian32_eq fun index hindex ↦ ?_
  rw [bodyContent_header label content (by omega), headerImage_magic label plan.pau index hindex]

/-- A volume behind sector 0 leaves the table as it was. -/
theorem mbrOf_bodyContent_eq (hstart : 8 ≤ plan.bVol.toNat) :
    mbrOf (bodyContent plan label content) = mbrOf content := by
  rw [mbrOf, mbrOf, XboxPartitionTable.ofImage_congr fun index hindex ↦
    bodyContent_outside label content (.inl (by omega))]

/-- A volume at sector 0 destroys the magic of the table. -/
theorem mbrOf_bodyContent (hzero : plan.bVol.toNat = 0) :
    (mbrOf (bodyContent plan label content)).1 = false := by
  have hfirst : bodyContent plan label content (512 * plan.bVol.toNat + 0) =
      headerImage label plan.pau 0 := bodyContent_header label content (by decide)
  rw [hzero] at hfirst
  have hmagic : (XboxPartitionTable.ofImage (bodyContent plan label content)).magic ≠
      backupPartTable.magic := by
    intro hmagic
    have hbyte : bodyContent plan label content 0 = 0x2A := congrFun hmagic 0
    exact absurd (hbyte.symm.trans hfirst) (by rw [headerImage_magic _ _ _ (by decide)]; decide)
  rw [mbrOf, if_neg hmagic]

end

/-! ### The entry that the mount uses -/

/-- An entry that is in use and has the place of a formatted volume. -/
structure SameVolume (plan : VolumePlan) (entry : XboxPartitionTableEntry) : Prop where
  inUse : entry.flags &&& partflagsInUse ≠ 0
  lbaStart : entry.lbaStart = plan.bVol
  lbaSize : entry.lbaSize = plan.szVol

/-- The large partitions of the backup table are in use and made of whole blocks. -/
theorem backupPartTable_aligned : ∀ part : Fin 14,
    1024000 ≤ (backupPartTable.tableEntries part).lbaSize.toNat →
      (backupPartTable.tableEntries part).flags &&& partflagsInUse ≠ 0 ∧
      (backupPartTable.tableEntries part).lbaStart.toNat % 8 = 0 ∧
      (backupPartTable.tableEntries part).lbaSize.toNat % 8 = 0 ∧
      (backupPartTable.tableEntries part).lbaStart.toNat ≠ 0 := by
  decide +kernel

theorem PlanNumbers.sameVolume {entry : XboxPartitionTableEntry} {plan : VolumePlan}
    (hplan : PlanNumbers entry plan) (hinUse : entry.flags &&& partflagsInUse ≠ 0)
    (hstart : entry.lbaStart.toNat % 8 = 0) (hsize : entry.lbaSize.toNat % 8 = 0) :
    SameVolume plan entry := by
  have hbVol := hplan.bVol
  have hszVol := hplan.szVol
  exact ⟨hinUse, UInt32.toNat_inj.mp (by omega), UInt32.toNat_inj.mp (by omega)⟩

theorem mbrOf_eq_backup {content : Bytes} (hmissing : ¬ (mbrOf content).1 = true) :
    (mbrOf content).2 = backupPartTable := by
  rw [mbrOf] at hmissing ⊢
  split_ifs at hmissing ⊢
  · exact absurd rfl hmissing
  · rfl

theorem volumePart_of_master {vol : Fin 14} (hmaster : volumeDrive vol = .master) :
    volumePart vol = vol := by
  have hlow : vol.val < 7 := by
    by_contra hlarge
    rw [volumeDrive, if_neg hlarge] at hmaster
    exact absurd hmaster (by decide)
  exact Fin.ext (Nat.mod_eq_of_lt hlow)

theorem volumePart_of_slave {vol : Fin 14} (hslave : volumeDrive vol = .slave) :
    vol ≠ volumePart vol := by
  have hlarge : ¬ vol.val < 7 := by
    intro hlow
    rw [volumeDrive, if_pos hlow] at hslave
    exact absurd hslave (by decide)
  intro heq
  have hval : vol.val = vol.val % 7 := congrArg Fin.val heq
  omega

/-! ### The FAT and the root directory of the mount -/

/-- The size of an entry of the FAT of a formatted volume. -/
def planWidth : ℕ := if plan.fmt = .fatx16 then 2 else 4

/-- The size of the FAT of a formatted volume as the mount computes it, in sectors. -/
def mountFatSectors : ℕ :=
  8 * ((plan.szVol.toNat / 32 * planWidth plan + 4095) / 4096)

/-- An entry of the FAT of a formatted volume. -/
def planEntry (content : Bytes) (clst : UInt32) : UInt32 :=
  if plan.fmt = .fatx16 then
    (littleEndian16 content (512 * (plan.bVol.toNat + 8) + 2 * clst.toNat)).toUInt32
  else littleEndian32 content (512 * (plan.bVol.toNat + 8) + 4 * clst.toNat) &&& 0x0FFFFFFF

theorem planWidth_eq : planWidth plan = 2 ∨ planWidth plan = 4 := by
  rw [planWidth]
  split_ifs
  · exact .inl rfl
  · exact .inr rfl

theorem planEntry_zero (clst : UInt32) : planEntry plan (fun _ ↦ 0) clst = 0 := by
  rw [planEntry]
  split_ifs
  · rfl
  · rw [littleEndian32]
    decide

variable {clst : UInt32}

theorem planEntry_congr {plan : VolumePlan} {content other : Bytes}
    (hbytes : ∀ index < planWidth plan,
      content (512 * (plan.bVol.toNat + 8) + planWidth plan * clst.toNat + index) =
        other (512 * (plan.bVol.toNat + 8) + planWidth plan * clst.toNat + index)) :
    planEntry plan content clst = planEntry plan other clst := by
  rw [planWidth] at hbytes
  rw [planEntry, planEntry]
  split_ifs at hbytes ⊢
  · have hfirst := hbytes 0 (by decide)
    rw [add_zero] at hfirst
    rw [littleEndian16, littleEndian16, hfirst, hbytes 1 (by decide)]
  · rw [littleEndian32_congr hbytes]

/-- The mount reads the entries of a formatted volume where they are. -/
structure PlanGeometry (plan : VolumePlan) (fs : FatFs) : Prop where
  fsTypex : fs.fsTypex = some plan.fmt
  width : entryWidth fs = planWidth plan
  fatbase : fs.fatbase.toNat = plan.bVol.toNat + 8
  fsize : fs.fsize.toNat = mountFatSectors plan
  database : fs.database.toNat = plan.bVol.toNat + 8 + mountFatSectors plan

variable {fs : FatFs}

theorem FatxVolume.planGeometry {plan : VolumePlan} (hvolume : FatxVolume fs)
    (hstart : fs.fatxPartitionEntry.lbaStart = plan.bVol)
    (hsize : fs.fatxPartitionEntry.lbaSize = plan.szVol) (hcsize : fs.csize = 32)
    (hfmt : plan.fmt = fatxType (plan.szVol / 32))
    (hbounded : plan.bVol.toNat + plan.szVol.toNat < 2 ^ 32) : PlanGeometry plan fs := by
  have hend : partitionEnd fs < 2 ^ 32 := by
    rw [partitionEnd, hstart, hsize]
    exact hbounded
  have hnumbers := hvolume.numbers (.inl hcsize) hend
  have htype : fs.fsTypex = some plan.fmt := by
    rw [hvolume.fsTypex, hsize, hcsize, hfmt]
    rfl
  have hwidth : entryWidth fs = planWidth plan := by
    rw [entryWidth, planWidth, htype]
    simp only [Option.some.injEq]
  have hfsize : fs.fsize.toNat = mountFatSectors plan := by
    rw [hnumbers.fsize, fatClusters, hsize, hcsize, hwidth, mountFatSectors]
    rfl
  refine ⟨htype, hwidth, ?_, hfsize, ?_⟩
  · rw [hnumbers.fatbase, hstart]
  · rw [hnumbers.database, hstart, hfsize]

theorem PlanGeometry.fatEntry_eq {plan : VolumePlan} (hgeometry : PlanGeometry plan fs)
    (content : Bytes) (clst : UInt32) :
    fatEntry fs content clst = planEntry plan content clst := by
  rw [fatEntry, planEntry, hgeometry.fsTypex, entryStart, hgeometry.fatbase, hgeometry.width,
    planWidth]
  simp only [Option.some.injEq]
  split_ifs
  · rfl
  · rfl

/-- The first two entries are all that is not zero in a new FAT. -/
theorem fatStart_free {index : ℕ} (hindex : 2 * planWidth plan ≤ index) :
    fatStart plan.fmt index = 0 := by
  rw [planWidth] at hindex
  split_ifs at hindex with hsixteen
  · rw [fatStart, hsixteen, if_neg (by decide), writeFields_outside]
    simp [dwordBytes]
    omega
  · exact fatStart_eq_zero plan.fmt (by omega)

section

variable {entry : XboxPartitionTableEntry} {plan : VolumePlan} (hplan : PlanNumbers entry plan)

include hplan in
/-- What `f_mkfs` writes ends before what the mount takes for the FAT does. -/
theorem PlanNumbers.fat_short : plan.szFat.toNat + 32 ≤ mountFatSectors plan := by
  have hminimum := hplan.minimum
  have hbVol := hplan.bVol
  have hszVol := hplan.szVol
  have hszFat := hplan.szFat
  rw [mountFatSectors]
  rcases planWidth_eq plan with hwidth | hwidth
  · rw [hwidth]
    omega
  · rw [hwidth]
    omega

include hplan in
/-- The FAT of the mount leaves room for clusters. -/
theorem PlanNumbers.fat_room : 8 + mountFatSectors plan < plan.szVol.toNat := by
  have hminimum := hplan.minimum
  have hbVol := hplan.bVol
  have hszVol := hplan.szVol
  rw [mountFatSectors]
  rcases planWidth_eq plan with hwidth | hwidth
  · rw [hwidth]
    omega
  · rw [hwidth]
    omega

include hplan in
/-- The entries that `f_mkfs` wrote are free, except for the first two. -/
theorem planEntry_covered (label : UInt8) (content : Bytes) (hclst : 2 ≤ clst.toNat)
    (hcovered : planWidth plan * clst.toNat < 512 * (plan.szFat.toNat + 32)) :
    planEntry plan (bodyContent plan label content) clst = 0 := by
  have hwhole : planWidth plan * clst.toNat + planWidth plan ≤ 512 * (plan.szFat.toNat + 32) := by
    rcases planWidth_eq plan with hwidth | hwidth
    · rw [hwidth] at hcovered ⊢
      omega
    · rw [hwidth] at hcovered ⊢
      omega
  have hfree : 2 * planWidth plan ≤ planWidth plan * clst.toNat := by
    rw [mul_comm]
    exact Nat.mul_le_mul_left _ hclst
  have hzero : planEntry plan (bodyContent plan label content) clst =
      planEntry plan (fun _ ↦ 0) clst := by
    refine planEntry_congr fun index hindex ↦ ?_
    rw [add_assoc, bodyContent_fat label content hplan (by omega),
      fatStart_free plan (by omega)]
  rw [hzero, planEntry_zero]

/-- The entries behind them are as they were. -/
theorem planEntry_uncovered (label : UInt8) (content : Bytes)
    (hbehind : 512 * (plan.szFat.toNat + 32) ≤ planWidth plan * clst.toNat) :
    planEntry plan (bodyContent plan label content) clst = planEntry plan content clst :=
  planEntry_congr fun _ _ ↦ bodyContent_outside label content (.inr (by omega))

end

/-! ### The agreement -/

/-- A mounted volume agrees with the format: it is the volume that was formatted, with the same kind
and cluster size, its entries are free except for the first two, and its root directory is zero. -/
structure VolumeAgrees {io : DiskIo δ} (device : BlockDevice io) (vol : Fin 14) (plan : VolumePlan)
    (mounted : FatFsState δ) (fs : FatFs) : Prop where
  start : fs.fatxPartitionEntry.lbaStart = plan.bVol
  size : fs.fatxPartitionEntry.lbaSize = plan.szVol
  fsTypex : fs.fsTypex = some plan.fmt
  csize : fs.csize.toUInt32 = plan.pau
  free : ∀ clst : UInt32, 2 ≤ clst.toNat →
    entryStart fs clst + entryWidth fs ≤ 512 * (fs.fatbase.toNat + fs.fsize.toNat) →
      fatEntry fs (device.content (mounted.drive (volumeDrive vol))) clst = 0
  root : ∀ address, 512 * fs.database.toNat ≤ address →
    address < 512 * (fs.database.toNat + fs.csize.toNat) →
      device.content (mounted.drive (volumeDrive vol)) address = 0

/-- The volume is mounted after the format, and agrees with it. -/
def FormatAgrees {io : DiskIo δ} (device : BlockDevice io) (vol : Fin 14) (write : Bool)
    (stray : ℕ → UInt32) (plan : VolumePlan) (final : FatFsState δ) : Prop :=
  ∃ mounted fs, MountedBy io vol write stray final mounted fs ∧
    VolumeAgrees device vol plan mounted fs

/-- What has to be true before the format: the mount finds the entry of the volume and knows the
disk, and what `f_mkfs` does not write of the FAT and of the root directory is clear already. -/
structure PreviouslyClear {io : DiskIo δ} (device : BlockDevice io) (vol : Fin 14)
    (plan : VolumePlan) (old : FatFs) (before : FatFsState δ) : Prop where
  table : volumeDrive vol = .slave → SameVolume plan (mountEntry device vol ⟨old, before⟩)
  xbox : XboxDisk device (volumeDrive vol) ⟨old, before⟩
  fat : ∀ clst : UInt32, 512 * (plan.szFat.toNat + 32) ≤ planWidth plan * clst.toNat →
    planWidth plan * clst.toNat + planWidth plan ≤ 512 * mountFatSectors plan →
      planEntry plan (device.content (before.drive (volumeDrive vol))) clst = 0
  root : ∀ address, 512 * (plan.bVol.toNat + 8 + mountFatSectors plan) ≤ address →
    address < 512 * (plan.bVol.toNat + 8 + mountFatSectors plan + 32) →
      device.content (before.drive (volumeDrive vol)) address = 0

section

variable {io : DiskIo δ} {device : BlockDevice io} {vol : Fin 14} {stray : UInt8}
  {plan : VolumePlan} {before after : FatFsState δ}
  (hplan : PlanNumbers (ownEntry device vol before) plan)
  (hformatted : Formatted device vol stray plan before after)

include hformatted in
theorem Formatted.content_eq (hsector : 512 ≤ address) :
    device.content (after.drive (volumeDrive vol)) address =
      bodyContent plan (fatxLabel vol stray)
        (device.content (before.drive (volumeDrive vol))) address := by
  rw [hformatted.content]
  split_ifs
  · exact overlay_outside (by omega)
  · rfl

include hplan hformatted

/-- A volume that was formatted does not cover the table of its disk. -/
theorem Formatted.start : 8 ≤ plan.bVol.toNat := by
  have hbVol := hplan.bVol
  by_contra hlow
  have hzero : plan.bVol.toNat = 0 := by omega
  by_cases hfound : (mbrOf (device.content (before.drive (volumeDrive vol)))).1 = true
  · have hagain := hformatted.again hfound
    rw [mbrOf_bodyContent _ _ hzero] at hagain
    exact absurd hagain (by decide)
  · have hbackup := mbrOf_eq_backup hfound
    have hminimum := hplan.minimum
    rw [ownEntry, hbackup] at hminimum hbVol
    have haligned := backupPartTable_aligned (volumePart vol) hminimum
    omega

theorem Formatted.mountEntry_master (hmaster : volumeDrive vol = .master) (fs : FatFs) :
    SameVolume plan (mountEntry device vol ⟨fs, after⟩) := by
  have hread : after.fatxPartTableRead .master = true := by
    rw [← hmaster]
    exact hformatted.read
  have htable : after.fatxPartTable .master = after.fatxPartTable (volumeDrive vol) := by
    rw [hmaster]
  rw [mountEntry, mountTable, if_pos hread, htable, hformatted.table]
  split_ifs with hfound
  · rw [formattedTable, volumePart_of_master hmaster]
    simp only [if_true]
    exact ⟨show partflagsInUse &&& partflagsInUse ≠ 0 by decide, rfl, rfl⟩
  · have hbackup := mbrOf_eq_backup hfound
    rw [ownEntry, volumePart_of_master hmaster] at hplan
    rw [hbackup] at hplan ⊢
    obtain ⟨hinUse, hstart, hsize, _⟩ := backupPartTable_aligned vol hplan.minimum
    exact hplan.sameVolume hinUse hstart hsize

/-- The entry of a volume of the slave disk is not the one that the format stored. -/
theorem Formatted.mountEntry_slave (hslave : volumeDrive vol = .slave) (fs old : FatFs) :
    mountEntry device vol ⟨fs, after⟩ = mountEntry device vol ⟨old, before⟩ := by
  have hother : Drive.master ≠ volumeDrive vol := by
    rw [hslave]
    decide
  have hread : after.fatxPartTableRead .master = before.fatxPartTableRead .master :=
    hformatted.elsewhere.read .master hother
  have htable : after.fatxPartTable .master = before.fatxPartTable .master :=
    hformatted.elsewhere.table .master hother
  simp only [mountEntry, mountTable, hread, htable]
  split_ifs with hmemory
  · rfl
  · change (mbrOf (device.content (after.drive (volumeDrive vol)))).2.tableEntries vol =
      (mbrOf (device.content (before.drive (volumeDrive vol)))).2.tableEntries vol
    -- sector 0 is read before the table is stored as it was before the format
    have hbody (content : Bytes) :=
      mbrOf_bodyContent_eq (fatxLabel vol stray) content (hformatted.start hplan)
    rw [hformatted.content]
    split_ifs with hfound
    · rw [hbody]
      have hstored : XboxPartitionTable.ofImage (overlay (bodyContent plan (fatxLabel vol stray)
            (device.content (before.drive (volumeDrive vol)))) 0 512
          (formattedTable plan (volumePart vol)
            (mbrOf (device.content (before.drive (volumeDrive vol)))).2).image) =
          formattedTable plan (volumePart vol)
            (mbrOf (device.content (before.drive (volumeDrive vol)))).2 := by
        refine XboxPartitionTable.ofImage_eq fun index hindex ↦ ?_
        rw [overlay_inside (by omega) (by omega), Nat.sub_zero]
      have hmagic : (formattedTable plan (volumePart vol)
          (mbrOf (device.content (before.drive (volumeDrive vol)))).2).magic =
            backupPartTable.magic := mbrOf_magic _
      rw [mbrOf, hstored, if_pos hmagic]
      exact if_neg (volumePart_of_slave hslave)
    · rw [hbody]

theorem Formatted.sameVolume_iff (fs old : FatFs) :
    SameVolume plan (mountEntry device vol ⟨fs, after⟩) ↔
      (volumeDrive vol = .slave → SameVolume plan (mountEntry device vol ⟨old, before⟩)) := by
  rcases hdrive : volumeDrive vol with _ | _
  · exact iff_of_true (hformatted.mountEntry_master hplan hdrive fs)
      fun hslave ↦ absurd hslave (by decide)
  · rw [hformatted.mountEntry_slave hplan hdrive fs old]
    exact ⟨fun hsame _ ↦ hsame, fun hsame ↦ hsame rfl⟩

theorem Formatted.xboxDisk_iff {fs old : FatFs} (hisFATX : fs.isFATX = old.isFATX) :
    XboxDisk device (volumeDrive vol) ⟨fs, after⟩ ↔
      XboxDisk device (volumeDrive vol) ⟨old, before⟩ := by
  have hstart := hformatted.start hplan
  have hbytes : bytesAt (device.content (after.drive (volumeDrive vol))) (512 * 3) 4 =
      bytesAt (device.content (before.drive (volumeDrive vol))) (512 * 3) 4 := by
    refine bytesAt_congr fun index hindex ↦ ?_
    rw [hformatted.content_eq (by omega), bodyContent_outside _ _ (.inl (by omega))]
  change fs.isFATX = true ∨ bytesAt (device.content (after.drive (volumeDrive vol))) (512 * 3) 4 =
    driveMagic ↔ _
  rw [hbytes, hisFATX]
  exact Iff.rfl

/-- A mounted volume reads what the format wrote, and behind it what was there before. -/
theorem Formatted.fatEntry_free_iff (hgeometry : PlanGeometry plan fs) {content : Bytes}
    (hcontent : content = device.content (after.drive (volumeDrive vol))) :
    (∀ clst : UInt32, 2 ≤ clst.toNat →
      entryStart fs clst + entryWidth fs ≤ 512 * (fs.fatbase.toNat + fs.fsize.toNat) →
        fatEntry fs content clst = 0) ↔
    ∀ clst : UInt32, 512 * (plan.szFat.toNat + 32) ≤ planWidth plan * clst.toNat →
      planWidth plan * clst.toNat + planWidth plan ≤ 512 * mountFatSectors plan →
        planEntry plan (device.content (before.drive (volumeDrive vol))) clst = 0 := by
  have hbody (clst : UInt32) : fatEntry fs content clst = planEntry plan (bodyContent plan
      (fatxLabel vol stray) (device.content (before.drive (volumeDrive vol)))) clst := by
    rw [hgeometry.fatEntry_eq, hcontent]
    exact planEntry_congr fun index _ ↦ hformatted.content_eq (by omega)
  have hinside (clst : UInt32) :
      entryStart fs clst + entryWidth fs ≤ 512 * (fs.fatbase.toNat + fs.fsize.toNat) ↔
        planWidth plan * clst.toNat + planWidth plan ≤ 512 * mountFatSectors plan := by
    rw [entryStart, hgeometry.width, hgeometry.fatbase, hgeometry.fsize]
    omega
  constructor
  · intro hfree clst hbehind hin
    have htwo : 2 ≤ clst.toNat := by
      by_contra hsmall
      rcases planWidth_eq plan with hwidth | hwidth
      · rw [hwidth] at hbehind
        omega
      · rw [hwidth] at hbehind
        omega
    rw [← planEntry_uncovered (fatxLabel vol stray) _ hbehind, ← hbody]
    exact hfree clst htwo ((hinside clst).mpr hin)
  · intro hclear clst htwo hin
    rw [hbody]
    by_cases hcovered : planWidth plan * clst.toNat < 512 * (plan.szFat.toNat + 32)
    · exact planEntry_covered hplan _ _ htwo hcovered
    · rw [planEntry_uncovered _ _ (not_lt.mp hcovered)]
      exact hclear clst (not_lt.mp hcovered) ((hinside clst).mp hin)

/-- What the mount takes for the root directory lies behind what the format wrote. -/
theorem Formatted.root_eq (hbehind : 512 * (plan.bVol.toNat + 8 + mountFatSectors plan) ≤ address) :
    device.content (after.drive (volumeDrive vol)) address =
      device.content (before.drive (volumeDrive vol)) address := by
  have hshort := hplan.fat_short
  rw [hformatted.content_eq (by omega), bodyContent_outside _ _ (.inr (by omega))]

theorem Formatted.clusterSize_byte :
    device.content (after.drive (volumeDrive vol)) (512 * plan.bVol.toNat + 8) = 32 := by
  have hstart := hformatted.start hplan
  rw [hformatted.content_eq (by omega), bodyContent_header _ _ (by decide),
    headerImage_clusterSize, hplan.pau]
  decide

/-- The mount accepts the header of a formatted volume when it finds its entry. -/
theorem Formatted.mountable (hsame : SameVolume plan (mountEntry device vol ⟨fs, after⟩))
    (hxbox : XboxDisk device (volumeDrive vol) ⟨fs, after⟩) :
    Mountable device vol ⟨fs, after⟩ := by
  have hstart := hformatted.start hplan
  obtain ⟨_, hstop, hsectors⟩ := hplan.inside
  have hbounded := hplan.bounded
  have hroom := hplan.fat_room
  have hmagic : FatxMagic (diskContent device (volumeDrive vol) ⟨fs, after⟩) plan.bVol := by
    rw [FatxMagic, ← bodyContent_magic (fatxLabel vol stray)
      (device.content (before.drive (volumeDrive vol))) plan]
    exact littleEndian32_congr fun index _ ↦ hformatted.content_eq (by omega)
  have hbyte : diskContent device (volumeDrive vol) ⟨fs, after⟩ (512 * plan.bVol.toNat + 8) = 32 :=
    hformatted.clusterSize_byte hplan
  have hlast : plan.bVol ≠ 0xFFFFFFFF := by
    intro hlast
    have htoNat : plan.bVol.toNat = 0xFFFFFFFF := congrArg UInt32.toNat hlast
    omega
  have hzero : plan.bVol ≠ 0 := by
    intro hzero
    have htoNat : plan.bVol.toNat = 0 := congrArg UInt32.toNat hzero
    omega
  have hfits : GeometryFits plan.szVol 32 := by
    have hclusters : (plan.szVol / 32).toNat = plan.szVol.toNat / 32 := UInt32.toNat_div _ _
    have hwidth : (if fatxType (plan.szVol / 32) = .fatx16 then 2 else 4) = planWidth plan := by
      rw [planWidth, hplan.fmt]
    have hsectors : (fatSectors (fatxType (plan.szVol / 32)) (plan.szVol / 32)).toNat =
        mountFatSectors plan := by
      rw [fatSectors_toNat _ _ (by omega), hclusters, hwidth, mountFatSectors]
    refine ⟨by decide, by decide, ?_, ?_⟩
    · intro hnone
      have htoNat : (plan.szVol / 32).toNat = 0 := congrArg UInt32.toNat hnone
      omega
    · change ¬ plan.szVol < 8 + fatSectors (fatxType (plan.szVol / 32)) (plan.szVol / 32)
      rw [UInt32.lt_iff_toNat_lt, UInt32.toNat_add, hsectors]
      change ¬ plan.szVol.toNat < (8 + mountFatSectors plan) % 2 ^ 32
      omega
  refine ⟨hxbox, ⟨hsame.inUse, ?_, ?_⟩, ?_, ?_⟩
  · rw [hsame.lbaStart]
    exact hlast
  · rw [hsame.lbaStart]
    exact hmagic
  · rw [hsame.lbaStart]
    exact hzero
  · rw [hsame.lbaStart, hsame.lbaSize, hbyte]
    exact hfits

variable (hsound : ¬ device.faulty)

include hsound in
theorem Formatted.formatAgrees_iff {old fs : FatFs} (hold : after.fatFs vol = some fs)
    (hunmounted : fs.fsTypex = none) (hisFATX : fs.isFATX = old.isFATX) (write : Bool)
    (words : ℕ → UInt32) :
    FormatAgrees device vol write words plan after ↔
      PreviouslyClear device vol plan old before := by
  have hstop := hplan.inside.stop
  have hbounded := hplan.bounded
  have hsame := hformatted.sameVolume_iff hplan fs old
  have hxbox := hformatted.xboxDisk_iff hplan hisFATX
  constructor
  · rintro ⟨mounted, mountedFs, hmounted, hagrees⟩
    obtain ⟨final, hresult, rfl, rfl⟩ := hmounted.mounted hsound hold
    have hcsize : final.fs.csize = 32 := by
      have hcsize := hagrees.csize
      rw [hplan.pau] at hcsize
      exact UInt16.toNat_inj.mp (by rw [← UInt16.toNat_toUInt32, hcsize]; rfl)
    have hgeometry := hmounted.fatxVolume.planGeometry hagrees.start hagrees.size hcsize hplan.fmt
      (by omega)
    have hcontent : device.content (final.system.drive (volumeDrive vol)) =
        device.content (after.drive (volumeDrive vol)) := hresult.content
    have hvolume : SameVolume plan (mountEntry device vol ⟨fs, after⟩) := by
      rw [← hresult.entry]
      refine ⟨?_, hagrees.start, hagrees.size⟩
      rw [hresult.entry]
      exact hresult.inUse
    refine ⟨hsame.mp hvolume, hxbox.mp hresult.xbox, ?_, ?_⟩
    · exact (hformatted.fatEntry_free_iff hplan hgeometry hcontent).mp hagrees.free
    · intro address hlow hhigh
      rw [← hformatted.root_eq hplan hlow, ← hcontent]
      refine hagrees.root address ?_ ?_
      · rw [hgeometry.database]
        exact hlow
      · rw [hgeometry.database, hcsize]
        exact hhigh
  · intro hclear
    have hvolume := hsame.mpr hclear.table
    have hmountable := hformatted.mountable hplan hvolume (hxbox.mpr hclear.xbox)
    obtain ⟨mounted, mountedFs, hmounted, hmountedEntry, hmountedCsize⟩ :=
      exists_mountedBy device hsound vol write words hold hunmounted hmountable
    have hcsize : mountedFs.csize = 32 := by
      rw [hmountedCsize, hvolume.lbaStart, diskContent, hformatted.clusterSize_byte hplan]
      rfl
    have hstart : mountedFs.fatxPartitionEntry.lbaStart = plan.bVol := by
      rw [hmountedEntry, hvolume.lbaStart]
    have hsize : mountedFs.fatxPartitionEntry.lbaSize = plan.szVol := by
      rw [hmountedEntry, hvolume.lbaSize]
    have hgeometry := hmounted.fatxVolume.planGeometry hstart hsize hcsize hplan.fmt (by omega)
    obtain ⟨final, hresult, rfl, rfl⟩ := hmounted.mounted hsound hold
    have hcontent : device.content (final.system.drive (volumeDrive vol)) =
        device.content (after.drive (volumeDrive vol)) := hresult.content
    refine ⟨_, _, hmounted, hstart, hsize, hgeometry.fsTypex, ?_, ?_, ?_⟩
    · rw [hcsize, hplan.pau]
      rfl
    · exact (hformatted.fatEntry_free_iff hplan hgeometry hcontent).mpr hclear.fat
    · intro address hlow hhigh
      rw [hgeometry.database] at hlow hhigh
      rw [hcsize] at hhigh
      change device.content (final.system.drive (volumeDrive vol)) address = 0
      rw [hcontent, hformatted.root_eq hplan hlow]
      exact hclear.root address hlow hhigh

end

/-- On a disk that does not fail a volume that does not start at sector 0 is formatted. -/
theorem exists_formatted {io : DiskIo δ} (device : BlockDevice io) (hsound : ¬ device.faulty)
    (vol : Fin 14) {au : UInt32} (hau : ¬ 128 < au / 512) (stray : UInt8) {state : FatFsState δ}
    (hentry : FormatEntry (ownEntry device vol state))
    (hstart : (ownEntry device vol state).lbaStart.toNat ≠ 0) :
    ∃ final plan, fMkfs io vol fmFatxAny au stray state = (.ok (), final) ∧
      planVolume fmFatxAny au (ownEntry device vol state) = .ok plan ∧
      Formatted device vol stray plan state final := by
  have hsafe : (fMkfs io vol fmFatxAny au stray).wp
      (fun _ after ↦ ∃ plan, planVolume fmFatxAny au (ownEntry device vol state) = .ok plan ∧
        Formatted device vol stray plan state after) (fun _ _ ↦ False) state := by
    refine wp_mono (fMkfs_spec device vol au stray state hentry) (fun _ _ hok ↦ hok.1) ?_
    rintro code after ⟨hfaulty | hlarge | ⟨plan, hplan, hfound, hmissing⟩, _⟩
    · exact hsound hfaulty
    · exact hau hlarge
    · have hbVol := (planVolume_numbers hentry hplan).bVol
      rw [mbrOf_bodyContent_eq _ _ (by omega), hfound] at hmissing
      exact absurd hmissing (by decide)
  obtain ⟨_, final, hrun, plan, hplan, hformatted⟩ := exists_ok hsafe
  exact ⟨final, plan, hrun, hplan, hformatted⟩

variable (filler : UInt8)

/-- A disk of the Xbox with the backup table in sector 0 and the same byte everywhere else. -/
def filledState : FatFsState RamDisk where
  drive _ :=
    { sectorCount := xboxExtendStartLba.toUInt64
      bytes := overlay (writeFields [(512 * 3, driveMagic)] fun _ ↦ filler) 0 512
        backupPartTable.image }
  fatxPartTable _ := backupPartTable
  fatxPartTableRead _ := false
  fatFs _ := some blankFs

theorem filledState_entry :
    ownEntry ramDevice 0 (filledState filler) = backupPartTable.tableEntries 0 := by
  have htable : XboxPartitionTable.ofImage
      (ramDevice.content ((filledState filler).drive (volumeDrive 0))) = backupPartTable :=
    XboxPartitionTable.ofImage_eq fun index hindex ↦ overlay_inside (by omega) (by omega)
  rw [ownEntry, mbrOf, htable, if_pos rfl]
  rfl

theorem filledState_ownEntry : FormatEntry (ownEntry ramDevice 0 (filledState filler)) := by
  rw [filledState_entry]
  exact ⟨by decide +kernel, by decide +kernel⟩

theorem filledState_content (hbehind : 2048 ≤ address) :
    ramDevice.content ((filledState filler).drive (volumeDrive 0)) address = filler := by
  change overlay (writeFields [(512 * 3, driveMagic)] fun _ ↦ filler) 0 512
    backupPartTable.image address = filler
  rw [overlay_outside (by omega), writeFields_outside]
  simp [driveMagic]
  omega

theorem exists_filledState_formatted :
    ∃ final plan, fMkfs ramDisk 0 fmFatxAny 32 0 (filledState filler) = (.ok (), final) ∧
      planVolume fmFatxAny 32 (ownEntry ramDevice 0 (filledState filler)) = .ok plan ∧
      Formatted ramDevice 0 0 plan (filledState filler) final :=
  exists_formatted ramDevice id 0 (by decide) 0 (filledState_ownEntry filler)
    (by rw [filledState_entry]; decide +kernel)

/-- A disk that was zero is clear. -/
theorem filledState_clear : PreviouslyClear ramDevice 0 plan blankFs (filledState 0) where
  table hslave := absurd hslave (by decide)
  xbox := .inr (by decide +kernel)
  fat clst hbehind _ := by
    have hzero : planEntry plan (ramDevice.content ((filledState 0).drive (volumeDrive 0))) clst =
        planEntry plan (fun _ ↦ 0) clst :=
      planEntry_congr fun index _ ↦ filledState_content 0 (by omega)
    rw [hzero]
    exact planEntry_zero plan clst
  root address hbehind _ := filledState_content 0 (by omega)

/-- Formatting writes to the partition and to sector 0 only, whatever the disk does. A format that
returns without an error agrees with the mount exactly when the end of the FAT and the root
directory of the mount were clear before, and the mount finds the entry of the volume.

Assumes: the entry of the volume is large enough and ends below sector 2 ^ 32, and the volume has a
filesystem object. The agreement is about disks that do not fail. -/
theorem format_mount_agrees_iff {io : DiskIo δ} (device : BlockDevice io) (vol : Fin 14)
    (au : UInt32) (stray : UInt8) (write : Bool) (words : ℕ → UInt32) {state final : FatFsState δ}
    {result : Except FResult Unit} {old : FatFs}
    (hentry : FormatEntry (ownEntry device vol state)) (hold : state.fatFs vol = some old)
    (hrun : fMkfs io vol fmFatxAny au stray state = (result, final)) :
    KeepsToPartition device (volumeDrive vol) (ownEntry device vol state) state final ∧
      (¬ device.faulty → result = .ok () →
        ∃ plan, planVolume fmFatxAny au (ownEntry device vol state) = .ok plan ∧
          (FormatAgrees device vol write words plan final ↔
            PreviouslyClear device vol plan old state)) := by
  have hspec := fMkfs_spec device vol au stray state hentry
  rcases result with code | _
  · have hfailed := wp_error hspec hrun
    exact ⟨hfailed.2, fun _ hok ↦ absurd hok (by simp)⟩
  · obtain ⟨⟨plan, hplan, hformatted⟩, hkeeps⟩ := wp_ok hspec hrun
    refine ⟨hkeeps, fun hsound _ ↦ ⟨plan, hplan, ?_⟩⟩
    have hnumbers := planVolume_numbers hentry hplan
    have hfs : final.fatFs vol = some { old with fsTypex := none } := by
      rw [hformatted.elsewhere.fatFs, FatFsState.unmount, hold]
      exact if_pos rfl
    have hisFATX : ({ old with fsTypex := none } : FatFs).isFATX = old.isFATX := rfl
    exact hformatted.formatAgrees_iff hnumbers hsound hfs rfl hisFATX write words

theorem format_mount_agrees_iff_filled :
    ∃ final plan, fMkfs ramDisk 0 fmFatxAny 32 0 (filledState 0) = (.ok (), final) ∧
      KeepsToPartition ramDevice (volumeDrive 0) (ownEntry ramDevice 0 (filledState 0))
        (filledState 0) final ∧
      planVolume fmFatxAny 32 (ownEntry ramDevice 0 (filledState 0)) = .ok plan ∧
      FormatAgrees ramDevice 0 false (fun _ ↦ 0) plan final := by
  obtain ⟨final, _, hrun, _, _⟩ := exists_filledState_formatted 0
  obtain ⟨hkeeps, hagrees⟩ := format_mount_agrees_iff ramDevice 0 32 0 false (fun _ ↦ 0)
    (filledState_ownEntry 0) rfl hrun
  obtain ⟨plan, hplan, hiff⟩ := hagrees id rfl
  exact ⟨final, plan, hrun, hkeeps, hplan, hiff.mpr (filledState_clear plan)⟩

/-- On a disk that was used before, the root directory of a volume that was just formatted is what
the disk held there. -/
theorem stale_disk_disagrees :
    ∃ final plan, fMkfs ramDisk 0 fmFatxAny 32 0 (filledState 0xFF) = (.ok (), final) ∧
      FormatEntry (ownEntry ramDevice 0 (filledState 0xFF)) ∧
      planVolume fmFatxAny 32 (ownEntry ramDevice 0 (filledState 0xFF)) = .ok plan ∧
      ¬ FormatAgrees ramDevice 0 false (fun _ ↦ 0) plan final := by
  obtain ⟨final, plan, hrun, hplan, hformatted⟩ := exists_filledState_formatted 0xFF
  refine ⟨final, plan, hrun, filledState_ownEntry 0xFF, hplan, ?_⟩
  have hnumbers := planVolume_numbers (filledState_ownEntry 0xFF) hplan
  have hfs : final.fatFs 0 = some blankFs := by
    rw [hformatted.elsewhere.fatFs]
    rfl
  have hisFATX : blankFs.isFATX = blankFs.isFATX := rfl
  rw [hformatted.formatAgrees_iff hnumbers id hfs rfl hisFATX]
  intro hclear
  have hzero := hclear.root (512 * (plan.bVol.toNat + 8 + mountFatSectors plan)) (by omega)
    (by omega)
  rw [filledState_content 0xFF (by omega)] at hzero
  exact absurd hzero (by decide)

end XBlast.Fatx
