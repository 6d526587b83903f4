import XBlast.Fatx.Clusters
import XBlast.Fatx.VolumeContent

/-!
# The entries of the FAT

`put_fat` is modelled here; `get_fat` is in 'Clusters'. On a FATX volume both work on the entry at
`entryAddress`, as the code computes it, for every partition: entries of different clusters never
overlap, even where the numbers of sectors wrap around. `fatStatus` is what `get_fat` answers for
the content of a volume, and `setFatValue` the content that `put_fat` leaves. The two do not agree
on the first cluster of a FATX volume, which can be read but not written.
-/

set_option autoImplicit false
set_option relaxedAutoImplicit false

namespace XBlast.Fatx

open Foundation Disk Program

variable {δ : Type}

/-- Stores the first byte of an entry of a FAT12 volume: half of it belongs to its neighbour. -/
def fat12Low (clst val : UInt32) (old : UInt8) : UInt8 :=
  if clst &&& 1 = 0 then val.toUInt8 else (old &&& (0x0F : UInt8)) ||| (val.toUInt8 <<< 4)

def fat12High (clst val : UInt32) (old : UInt8) : UInt8 :=
  if clst &&& 1 = 0 then (old &&& (0xF0 : UInt8)) ||| ((val >>> 8).toUInt8 &&& 0x0F)
  else (val >>> 4).toUInt8

/-- Changes the entry of a cluster in the FAT. The number is checked against 2 on all volumes. -/
def putFat (io : DiskIo δ) (pdrv : Drive) (clst val : UInt32) :
    VolumeM δ Unit := do
  let fs ← Program.gets fun state ↦ state.fs
  if clst < 2 ∨ fs.nFatent ≤ clst then Program.stop .intErr
  else
    match fs.fsTypex with
    | some .fat12 => do
        let bc := clst + clst / 2
        moveWindow io pdrv (fs.fatbase + bc / 512)
        let low ← Program.gets fun state ↦ state.fs.win (bc % 512).toNat
        storeWindow (bc % 512).toNat 1 fun _ ↦ fat12Low clst val low
        moveWindow io pdrv (fs.fatbase + (bc + 1) / 512)
        let high ← Program.gets fun state ↦ state.fs.win ((bc + 1) % 512).toNat
        storeWindow ((bc + 1) % 512).toNat 1 fun _ ↦ fat12High clst val high
    | some .fat16 | some .fatx16 => do
        moveWindow io pdrv (fs.fatbase + clst / 256)
        storeWindow (clst * 2 % 512).toNat 2 (byteOf32 val)
    | some .fat32 | some .fatx32 => do
        moveWindow io pdrv (fs.fatbase + clst / 128)
        let win ← Program.gets fun state ↦ state.fs.win
        let old := littleEndian32 win (clst * 4 % 512).toNat
        storeWindow (clst * 4 % 512).toNat 4
          (byteOf32 ((val &&& 0x0FFFFFFF) ||| (old &&& 0xF0000000)))
    | none => Program.stop .intErr

/-! ### The place of an entry -/

variable (fs : FatFs)

/-- The sector of the FAT of a FATX volume with the entry of a cluster. -/
def entrySector (clst : UInt32) : UInt32 :=
  fs.fatbase + clst / (if fs.fsTypex = some .fatx16 then 256 else 128)

/-- The offset of the entry in its sector. -/
def entryOffset (clst : UInt32) : ℕ :=
  (clst * (if fs.fsTypex = some .fatx16 then 2 else 4) % 512).toNat

def entryAddress (clst : UInt32) : ℕ :=
  512 * (entrySector fs clst).toNat + entryOffset fs clst

/-- The bits of an entry that hold its value. -/
def fatMask : UInt32 := if fs.fsTypex = some .fatx16 then 0xFFFF else 0x0FFFFFFF

variable (content : Bytes)

/-- The value of an entry of a FATX volume with this content. -/
def fatValue (clst : UInt32) : UInt32 :=
  if fs.fsTypex = some .fatx16 then (littleEndian16 content (entryAddress fs clst)).toUInt32
  else littleEndian32 content (entryAddress fs clst) &&& 0x0FFFFFFF

/-- What `get_fat` answers. -/
def fatStatus (clst : UInt32) : UInt32 :=
  if clst < firstCluster fs ∨ fs.nFatent ≤ clst then 1 else fatValue fs content clst

/-- The content after an entry was given a value. The entries of four bytes keep their upper
bits. -/
def setFatValue (clst val : UInt32) : Bytes :=
  overlay content (entryAddress fs clst) (entryWidth fs)
    (byteOf32 (if fs.fsTypex = some .fatx16 then val
      else (val &&& 0x0FFFFFFF) ||| (littleEndian32 content (entryAddress fs clst) &&& 0xF0000000)))

section

variable (fs : FatFs) (clst : UInt32)

theorem entryOffset_eq : entryOffset fs clst = entryWidth fs * clst.toNat % 512 := by
  rw [entryOffset, entryWidth, UInt32.toNat_mod, UInt32.toNat_mul,
    show (512 : UInt32).toNat = 512 from rfl]
  split_ifs
  · rw [show (2 : UInt32).toNat = 2 from rfl]
    omega
  · rw [show (4 : UInt32).toNat = 4 from rfl]
    omega

theorem entryOffset_add_le : entryOffset fs clst + entryWidth fs ≤ 512 := by
  rw [entryOffset_eq]
  rcases entryWidth_eq fs with hwidth | hwidth
  · rw [hwidth]
    omega
  · rw [hwidth]
    omega

theorem entrySector_eq : entrySector fs clst =
    fs.fatbase + UInt32.ofNat (entryWidth fs * clst.toNat / 512) := by
  have hclst := clst.toNat_lt
  rw [entrySector, entryWidth]
  congr 1
  apply UInt32.toNat_inj.mp
  rw [UInt32.toNat_div]
  split_ifs
  · rw [UInt32.toNat_ofNat_of_lt' (show 2 * clst.toNat / 512 < 2 ^ 32 by omega),
      show (256 : UInt32).toNat = 256 from rfl]
    omega
  · rw [UInt32.toNat_ofNat_of_lt' (show 4 * clst.toNat / 512 < 2 ^ 32 by omega),
      show (128 : UInt32).toNat = 128 from rfl]
    omega

variable {fs clst}

/-- The entry is where `entryStart` puts it if the number of its sector does not wrap around. -/
theorem entryAddress_eq_entryStart
    (hsector : fs.fatbase.toNat + entryWidth fs * clst.toNat / 512 < 2 ^ 32) :
    entryAddress fs clst = entryStart fs clst := by
  rw [entryAddress, entryOffset_eq, entrySector_eq, UInt32.toNat_add,
    UInt32.toNat_ofNat_of_lt' (lt_of_le_of_lt (Nat.le_add_left _ _) hsector),
    Nat.mod_eq_of_lt hsector, entryStart]
  omega

/-- Entries of different clusters do not overlap. -/
theorem entryAddress_apart {other : UInt32} (hne : clst ≠ other) :
    entryAddress fs clst + entryWidth fs ≤ entryAddress fs other ∨
      entryAddress fs other + entryWidth fs ≤ entryAddress fs clst := by
  have hclst := clst.toNat_lt
  have hother := other.toNat_lt
  have hne' : clst.toNat ≠ other.toNat := fun heq ↦ hne (UInt32.toNat_inj.mp heq)
  have hle := entryOffset_add_le fs clst
  have hle' := entryOffset_add_le fs other
  rw [entryAddress, entryAddress]
  by_cases hsector : entrySector fs clst = entrySector fs other
  · have hquotient : entryWidth fs * clst.toNat / 512 = entryWidth fs * other.toNat / 512 := by
      rw [entrySector_eq, entrySector_eq, UInt32.add_right_inj] at hsector
      have hnat := congrArg UInt32.toNat hsector
      rcases entryWidth_eq fs with hwidth | hwidth
      · rwa [hwidth, UInt32.toNat_ofNat_of_lt' (show 2 * clst.toNat / 512 < 2 ^ 32 by omega),
          UInt32.toNat_ofNat_of_lt' (show 2 * other.toNat / 512 < 2 ^ 32 by omega),
          ← hwidth] at hnat
      · rwa [hwidth, UInt32.toNat_ofNat_of_lt' (show 4 * clst.toNat / 512 < 2 ^ 32 by omega),
          UInt32.toNat_ofNat_of_lt' (show 4 * other.toNat / 512 < 2 ^ 32 by omega),
          ← hwidth] at hnat
    rw [hsector, entryOffset_eq, entryOffset_eq]
    rcases entryWidth_eq fs with hwidth | hwidth
    · rw [hwidth] at hquotient ⊢
      omega
    · rw [hwidth] at hquotient ⊢
      omega
  · have hnat : (entrySector fs clst).toNat ≠ (entrySector fs other).toNat :=
      fun heq ↦ hsector (UInt32.toNat_inj.mp heq)
    omega

end

/-! ### The value of an entry -/

section

variable {fs : FatFs} {content other : Bytes} {clst : UInt32}

theorem fatValue_le (fs : FatFs) (content : Bytes) (clst : UInt32) :
    (fatValue fs content clst).toNat ≤ (fatMask fs).toNat := by
  rw [fatValue, fatMask]
  split_ifs
  · rw [UInt16.toNat_toUInt32]
    exact Nat.le_of_lt_succ (UInt16.toNat_lt _)
  · rw [UInt32.toNat_and]
    exact Nat.and_le_right

theorem fatValue_congr
    (hbytes : ∀ index < entryWidth fs,
      content (entryAddress fs clst + index) = other (entryAddress fs clst + index)) :
    fatValue fs content clst = fatValue fs other clst := by
  rw [fatValue, fatValue]
  rw [entryWidth] at hbytes
  split_ifs at hbytes ⊢
  · rw [littleEndian16_shift hbytes]
  · rw [littleEndian32_congr hbytes]

theorem setFatValue_outside {address : ℕ} {val : UInt32}
    (houtside : address < entryAddress fs clst ∨ entryAddress fs clst + entryWidth fs ≤ address) :
    setFatValue fs content clst val address = content address :=
  overlay_outside houtside

theorem setFatValue_entry {next val : UInt32} (hne : clst ≠ next) (index : ℕ)
    (hindex : index < entryWidth fs) :
    setFatValue fs content next val (entryAddress fs clst + index) =
      content (entryAddress fs clst + index) := by
  have hapart := @entryAddress_apart fs clst next hne
  exact setFatValue_outside (by omega)

theorem fatValue_setFatValue_of_ne {next val : UInt32} (hne : clst ≠ next) :
    fatValue fs (setFatValue fs content next val) clst = fatValue fs content clst :=
  fatValue_congr (setFatValue_entry hne)

theorem fatValue_setFatValue_self (val : UInt32) :
    fatValue fs (setFatValue fs content clst val) clst = val &&& fatMask fs := by
  rw [fatValue, setFatValue, entryWidth, fatMask]
  split_ifs with hsixteen
  · rw [littleEndian16_eq fun index hindex ↦ overlay_add hindex]
    apply UInt32.toNat_inj.mp
    rw [UInt16.toNat_toUInt32, UInt32.toNat_toUInt16, UInt32.toNat_and]
    exact (Nat.and_two_pow_sub_one_eq_mod val.toNat 16).symm
  · rw [littleEndian32_eq fun index hindex ↦ overlay_add hindex]
    apply UInt32.toNat_inj.mp
    rw [UInt32.toNat_and, UInt32.toNat_or, UInt32.toNat_and, UInt32.toNat_and,
      Nat.and_or_distrib_right, Nat.and_assoc, Nat.and_assoc, Nat.and_self,
      show (0xF0000000 : UInt32).toNat &&& (0x0FFFFFFF : UInt32).toNat = 0 from rfl, Nat.and_zero,
      Nat.or_zero]

end

/-! ### Reading and writing entries -/

/-- The two kinds of FATX volumes and where their entries are. -/
theorem IsFatxFs.entryPlace {fs : FatFs} (hfatx : IsFatxFs fs) (clst : UInt32) :
    (fs.fsTypex = some .fatx16 ∧ entrySector fs clst = fs.fatbase + clst / 256 ∧
      entryOffset fs clst = (clst * 2 % 512).toNat ∧ entryWidth fs = 2) ∨
    (fs.fsTypex = some .fatx32 ∧ entrySector fs clst = fs.fatbase + clst / 128 ∧
      entryOffset fs clst = (clst * 4 % 512).toNat ∧ entryWidth fs = 4) := by
  rw [IsFatxFs] at hfatx
  rw [entrySector, entryOffset, entryWidth]
  rcases htype : fs.fsTypex with _ | (_ | _ | _ | _ | _)
  case some.fatx16 => exact .inl ⟨rfl, rfl, rfl, rfl⟩
  case some.fatx32 => exact .inr ⟨rfl, rfl, rfl, rfl⟩
  all_goals
    rw [htype] at hfatx
    cases hfatx

section

variable {io : DiskIo δ} {device : BlockDevice io} {pdrv : Drive} {fs : FatFs}
  {content : Bytes} {state : VolumeState δ} (hsound : ¬ device.faulty) (hfatx : IsFatxFs fs)
  (hfats : fs.nFats ≠ 2) (hshows : Shows device pdrv fs content state)

include hsound hfatx hfats hshows

/-- `get_fat` answers from the content of the volume and keeps it. -/
theorem getFat_shows (clst : UInt32) :
    (getFat io pdrv clst).wp
      (fun value after ↦ value = fatStatus fs content clst ∧ Shows device pdrv fs content after)
      (fun _ _ ↦ False) state := by
  have hfirst : firstCluster state.fs = firstCluster fs :=
    hshows.part firstCluster fun _ _ ↦ rfl
  rw [getFat, wp_bind, wp_gets, hfirst, hshows.nFatent, hshows.fsTypex, hshows.fatbase, fatStatus,
    wp_ite]
  refine ⟨fun hinvalid ↦ ⟨(if_pos hinvalid).symm, hshows⟩, fun hvalid ↦ ?_⟩
  rw [if_neg hvalid, fatValue, wp_recover]
  have hle := entryOffset_add_le fs clst
  obtain ⟨hsixteen, hsector, hoffset, hwidth⟩ | ⟨hthirtytwo, hsector, hoffset, hwidth⟩ :=
    hfatx.entryPlace clst
  · rw [hwidth] at hle
    rw [if_pos hsixteen, hsixteen]
    rw [wp_bind, ← hsector, ← hoffset]
    refine wp_safe (moveWindow_shows hsound hshows hfats _) ?_
    rintro _ loaded ⟨hloaded, hwinsect⟩
    refine ⟨?_, hloaded⟩
    rw [littleEndian16_shift (hloaded.window_eq hwinsect hle)]
    rfl
  · rw [hwidth] at hle
    rw [if_neg (by rw [hthirtytwo]; decide), hthirtytwo]
    rw [wp_bind, ← hsector, ← hoffset]
    refine wp_safe (moveWindow_shows hsound hshows hfats _) ?_
    rintro _ loaded ⟨hloaded, hwinsect⟩
    refine ⟨?_, hloaded⟩
    rw [littleEndian32_shift (hloaded.window_eq hwinsect hle)]
    rfl

/-- `put_fat` refuses the first cluster, and changes no other entry of a cluster than its own. -/
theorem putFat_shows (clst val : UInt32) :
    (putFat io pdrv clst val).wp
      (fun _ after ↦ ¬ (clst < 2 ∨ fs.nFatent ≤ clst) ∧
        Shows device pdrv fs (setFatValue fs content clst val) after)
      (fun code after ↦ code = .intErr ∧ (clst < 2 ∨ fs.nFatent ≤ clst) ∧
        Shows device pdrv fs content after) state := by
  rw [putFat, wp_bind, wp_gets, hshows.nFatent, hshows.fsTypex, hshows.fatbase, wp_ite]
  refine ⟨fun hinvalid ↦ ⟨rfl, hinvalid, hshows⟩, fun hvalid ↦ ?_⟩
  have hle := entryOffset_add_le fs clst
  obtain ⟨hsixteen, hsector, hoffset, hwidth⟩ | ⟨hthirtytwo, hsector, hoffset, hwidth⟩ :=
    hfatx.entryPlace clst
  · rw [hwidth] at hle
    rw [setFatValue, if_pos hsixteen, hwidth, hsixteen]
    rw [wp_bind, ← hsector, ← hoffset]
    refine wp_safe (moveWindow_shows hsound hshows hfats _) ?_
    rintro _ loaded ⟨hloaded, hwinsect⟩
    refine wp_safe (storeWindow_shows hloaded hle (byteOf32 val)) ?_
    rintro _ stored ⟨hstored, _⟩
    rw [hwinsect] at hstored
    exact ⟨hvalid, hstored⟩
  · rw [hwidth] at hle
    rw [setFatValue, if_neg (by rw [hthirtytwo]; decide), hwidth, hthirtytwo]
    rw [wp_bind, ← hsector, ← hoffset]
    refine wp_safe (moveWindow_shows hsound hshows hfats _) ?_
    rintro _ loaded ⟨hloaded, hwinsect⟩
    rw [wp_bind, wp_gets, littleEndian32_shift (hloaded.window_eq hwinsect hle)]
    refine wp_safe (storeWindow_shows hloaded hle _) ?_
    rintro _ stored ⟨hstored, _⟩
    rw [hwinsect] at hstored
    exact ⟨hvalid, hstored⟩

end

end XBlast.Fatx
