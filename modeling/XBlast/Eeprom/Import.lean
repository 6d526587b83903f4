import XBlast.Eeprom.Seal

/-!
# Importing an EEPROM image

`updateEEPROMEditBufferFromInputBuffer` takes an image from a file, the network or the backup in
flash into the edit buffer. It accepts an image that passes `EepromSanityCheck`, seals its data
again for the version of the console it runs on, and recomputes the two checksums. When the image
was made for another version the user is asked first.

`eepromCRC` is the checksum: for each of its four bytes a column of overlapping 16-bit words of the
data, rotated by one byte, is subtracted from `0xFFFF` and the high byte is kept.
`import_retargets` states what an import keeps and changes for an accepted image, and that every
other call leaves the edit buffer alone and reports an error.
-/

set_option autoImplicit false
set_option relaxedAutoImplicit false

namespace XBlast.Eeprom

open Foundation Option

/-! ### Fields and their values -/

namespace Field

/-! The offsets of the fields of `EEPROMDATA` that the modelled functions use. -/

def xbeRegion : ℕ := 0x2C
def checksum2 : ℕ := 0x30
def serialNumber : ℕ := 0x34
def macAddress : ℕ := 0x40
def videoStandard : ℕ := 0x58
def checksum3 : ℕ := 0x60
def timeZoneBias : ℕ := 0x64
def videoFlags : ℕ := 0x94
def dvdPlaybackKitZone : ℕ := 0xBC

end Field

/-- `EEPROM_XBERegion`. -/
inductive XbeRegion
  | invalid
  | northAmerica
  | japan
  | europeAustralia
  deriving DecidableEq, Repr

def XbeRegion.value : XbeRegion → UInt32
  | .invalid => 0x00
  | .northAmerica => 0x01
  | .japan => 0x02
  | .europeAustralia => 0x04

/-- `EEPROM_VideoStandard`. -/
inductive VideoStandard
  | invalid
  | ntscM
  | ntscJ
  | palI
  deriving DecidableEq, Repr

def VideoStandard.value : VideoStandard → UInt32
  | .invalid => 0x00000000
  | .ntscM => 0x00400100
  | .ntscJ => 0x00400200
  | .palI => 0x00800300

/-- `EEPROM_VidScreenFormat`. -/
inductive VidScreenFormat
  | fullScreen
  | widescreen
  | letterbox
  deriving DecidableEq, Repr

def VidScreenFormat.value : VidScreenFormat → UInt8
  | .fullScreen => 0x00
  | .widescreen => 0x01
  | .letterbox => 0x10

/-- `EEPROM_VidResolutionEnable`. -/
inductive VidResolutionEnable
  | enable720p
  | enable1080i
  | enable480p
  deriving DecidableEq, Repr

def VidResolutionEnable.value : VidResolutionEnable → UInt8
  | .enable720p => 0x02
  | .enable1080i => 0x04
  | .enable480p => 0x08

/-- `EEPROM_DVDRegionAirlines`, the last DVD region. -/
def dvdRegionAirlines : UInt8 := 0x08

/-! ### The checksum -/

variable (data : List UInt8)

/-- `CRC_Data`: the input circle shifted one byte right, followed by zeros. -/
def crcData : Bytes :=
  listImage (data.getLastD 0 :: data.dropLast)

/-- The byte of the checksum at a position. -/
def crcByte (pos : ℕ) : UInt8 :=
  let words := (List.range' pos ((data.length + 3 - pos) / 4) 4).map (littleEndian16 (crcData data))
  let crcPosVal := words.foldl (· - ·) 0xFFFF
  ((crcPosVal &&& 0xFF00) >>> 8).toUInt8

def eepromCRC : List UInt8 := (List.range 4).map (crcByte data)

theorem eepromCRC_length : (eepromCRC data).length = 4 := by
  rw [eepromCRC, List.length_map, List.length_range]

variable (eeprom : EepromData)

/-- `EepromCRC(Checksum2, SerialNumber, 0x28)`. -/
def refreshChecksum2 : EepromData :=
  eeprom.write Field.checksum2 (eepromCRC (eeprom.bytes Field.serialNumber 0x28))

/-- `EepromCRC(Checksum3, TimeZoneBias, 0x5b)`. -/
def refreshChecksum3 : EepromData :=
  eeprom.write Field.checksum3 (eepromCRC (eeprom.bytes Field.timeZoneBias 0x5b))

def Checksum2Valid : Prop :=
  eeprom.bytes Field.checksum2 4 = eepromCRC (eeprom.bytes Field.serialNumber 0x28)

def Checksum3Valid : Prop :=
  eeprom.bytes Field.checksum3 4 = eepromCRC (eeprom.bytes Field.timeZoneBias 0x5b)

instance : DecidablePred Checksum2Valid := fun _ ↦ inferInstanceAs (Decidable (_ = _))

instance : DecidablePred Checksum3Valid := fun _ ↦ inferInstanceAs (Decidable (_ = _))

/-- An image whose two checksums are those of the ranges they cover. -/
def Consistent : Prop := Checksum2Valid eeprom ∧ Checksum3Valid eeprom

instance : DecidablePred Consistent := fun _ ↦ inferInstanceAs (Decidable (_ ∧ _))

section

variable {eeprom : EepromData} {start : ℕ} {bytes : List UInt8}

/-- A write that touches neither Checksum2 nor its range keeps it valid or invalid. -/
theorem checksum2Valid_write
    (houtside : start + bytes.length ≤ Field.checksum2 ∨ Field.serialNumber + 0x28 ≤ start) :
    Checksum2Valid (eeprom.write start bytes) ↔ Checksum2Valid eeprom := by
  simp only [Field.checksum2, Field.serialNumber] at houtside
  rw [Checksum2Valid, Checksum2Valid, eeprom.bytes_write_outside, eeprom.bytes_write_outside]
  · simp only [Field.serialNumber]
    omega
  · simp only [Field.checksum2]
    omega

/-- A write that touches neither Checksum3 nor its range keeps it valid or invalid. -/
theorem checksum3Valid_write
    (houtside : start + bytes.length ≤ Field.checksum3 ∨ Field.timeZoneBias + 0x5b ≤ start) :
    Checksum3Valid (eeprom.write start bytes) ↔ Checksum3Valid eeprom := by
  simp only [Field.checksum3, Field.timeZoneBias] at houtside
  rw [Checksum3Valid, Checksum3Valid, eeprom.bytes_write_outside, eeprom.bytes_write_outside]
  · simp only [Field.timeZoneBias]
    omega
  · simp only [Field.checksum3]
    omega

theorem checksum2Valid_refresh (eeprom : EepromData) :
    Checksum2Valid (refreshChecksum2 eeprom) := by
  rw [Checksum2Valid, refreshChecksum2, eeprom.bytes_write (eepromCRC_length _) (by decide),
    eeprom.bytes_write_outside (.inr (by rw [eepromCRC_length]; decide))]

theorem checksum3Valid_refresh (eeprom : EepromData) :
    Checksum3Valid (refreshChecksum3 eeprom) := by
  rw [Checksum3Valid, refreshChecksum3, eeprom.bytes_write (eepromCRC_length _) (by decide),
    eeprom.bytes_write_outside (.inr (by rw [eepromCRC_length]; decide))]

theorem checksum3Valid_refreshChecksum2 :
    Checksum3Valid (refreshChecksum2 eeprom) ↔ Checksum3Valid eeprom :=
  checksum3Valid_write (.inl (by rw [eepromCRC_length]; decide))

theorem checksum2Valid_refreshChecksum3 :
    Checksum2Valid (refreshChecksum3 eeprom) ↔ Checksum2Valid eeprom :=
  checksum2Valid_write (.inr (by decide))

/-- Recomputing one checksum after the other gives a consistent image. -/
theorem consistent_refresh (eeprom : EepromData) :
    Consistent (refreshChecksum3 (refreshChecksum2 eeprom)) :=
  ⟨checksum2Valid_refreshChecksum3.mpr (checksum2Valid_refresh eeprom),
    checksum3Valid_refresh (refreshChecksum2 eeprom)⟩

end

/-! ### Changes of one byte -/

section

open List

section

variable {data : List UInt8} {index : ℕ} {value : UInt8} (hindex : index + 1 < data.length)

include hindex

/-- A byte before the last one stands one place further in `CRC_Data`. -/
theorem crcData_set (place : ℕ) : crcData (data.set index value) place =
    if place = index + 1 then value else crcData data place := by
  obtain ⟨front, last, rfl⟩ : ∃ front last, data = front ++ [last] :=
    ⟨_, _, (dropLast_concat_getLast (ne_nil_of_length_pos (by omega))).symm⟩
  rw [length_append, length_singleton] at hindex
  rw [set_append_left _ _ (by omega), crcData, crcData, getLastD_concat,
    getLastD_concat, dropLast_concat, dropLast_concat]
  cases place with
  | zero => rfl
  | succ place =>
    simp only [listImage, getD_cons_succ, Nat.add_right_cancel_iff]
    rw [getD_eq_getElem?_getD, getElem?_set, getD_eq_getElem?_getD]
    split_ifs with hsame hinside hplace <;> first | rfl | omega

/-- In its own column a byte is the high half of one word, and of no other word any part. -/
theorem exists_words : ∃ before after, ∀ value,
    (range' (index % 4) ((data.length + 3 - index % 4) / 4) 4).map
        (littleEndian16 (crcData (data.set index value))) =
      before ++ UInt16.ofNat ((crcData data index).toNat + 0x100 * value.toNat) :: after := by
  obtain ⟨rest, hcount⟩ : ∃ rest, (data.length + 3 - index % 4) / 4 = index / 4 + (rest + 1) :=
    ⟨(data.length + 3 - index % 4) / 4 - (index / 4 + 1), by omega⟩
  refine ⟨(range' (index % 4) (index / 4) 4).map (littleEndian16 (crcData data)),
    (range' (index + 4) rest 4).map (littleEndian16 (crcData data)), fun value ↦ ?_⟩
  have hother : ∀ place, place % 4 = index % 4 → place ≠ index →
      littleEndian16 (crcData (data.set index value)) place =
        littleEndian16 (crcData data) place := by
    intro place hcolumn hne
    rw [littleEndian16, crcData_set hindex, crcData_set hindex, if_neg (by omega),
      if_neg (by omega)]
    rfl
  rw [hcount, ← range'_append, Nat.mod_add_div, range'_succ, map_append,
    map_cons]
  refine congrArg₂ (· ++ ·) (map_congr_left fun place hplace ↦ ?_)
    (congrArg₂ cons ?_ (map_congr_left fun place hplace ↦ ?_))
  · obtain ⟨turn, hturn, rfl⟩ := mem_range'.mp hplace
    exact hother _ (by omega) (by omega)
  · rw [littleEndian16, crcData_set hindex, crcData_set hindex, if_neg (by omega), if_pos rfl]
  · obtain ⟨turn, hturn, rfl⟩ := mem_range'.mp hplace
    exact hother _ (by omega) (by omega)

end

theorem foldl_sub (words : List UInt16) (start word : UInt16) :
    words.foldl (· - ·) (start - word) = words.foldl (· - ·) start - word := by
  induction words generalizing start with
  | nil => rfl
  | cons first words ih =>
    have hcomm : start - word - first = start - first - word := by grind
    rw [foldl_cons, foldl_cons, hcomm, ih]

theorem toNat_highByte (word : UInt16) :
    ((word &&& 0xFF00) >>> 8).toUInt8.toNat = word.toNat / 0x100 := by
  have hlt := word.toNat_lt
  have hmask : word.toNat / 0x100 &&& 0xFF = word.toNat / 0x100 % 0x100 :=
    Nat.and_two_pow_sub_one_eq_mod _ 8
  rw [UInt16.toNat_toUInt8, UInt16.toNat_shiftRight, UInt16.toNat_and, Nat.shiftRight_and_distrib,
    Nat.shiftRight_eq_div_pow]
  change (word.toNat / 0x100 &&& 0xFF) % 0x100 = _
  omega

/-- A change of any byte but the last one changes the checksum: in the column of the byte the high
half of the sum changes by the difference, and the low half does not change. -/
theorem eepromCRC_set_ne {data : List UInt8} {index : ℕ} (hindex : index + 1 < data.length)
    {value : UInt8} (hvalue : data[index]? ≠ some value) :
    eepromCRC (data.set index value) ≠ eepromCRC data := by
  intro hsame
  obtain ⟨before, after, hwords⟩ := exists_words hindex
  have hbyte : crcByte (data.set index value) (index % 4) = crcByte data (index % 4) :=
    map_inj_left.mp hsame _ (mem_range.mpr (Nat.mod_lt _ (by decide)))
  have hdata := hwords data[index]
  rw [set_getElem_self] at hdata
  rw [crcByte, crcByte, length_set, hwords, hdata] at hbyte
  simp only [foldl_append, foldl_cons, foldl_sub] at hbyte
  have hhigh := congrArg UInt8.toNat hbyte
  rw [toNat_highByte, toNat_highByte, UInt16.toNat_sub, UInt16.toNat_sub, UInt16.toNat_ofNat',
    UInt16.toNat_ofNat'] at hhigh
  rw [getElem?_eq_getElem (by omega)] at hvalue
  refine hvalue (congrArg some (UInt8.toNat_inj.mp ?_))
  have hnew := value.toNat_lt
  have hold := data[index].toNat_lt
  have hlow := (crcData data index).toNat_lt
  omega

theorem eepromCRC_zeros_set :
    eepromCRC ([0, 0, 0, 0, 0].set 3 1) ≠ eepromCRC [0, 0, 0, 0, 0] :=
  eepromCRC_set_ne (by decide) (by decide)

end

/-! ### The import -/

/-- `XboxMotherboardRevision`. -/
inductive MotherboardRevision
  | devkit
  | debugkit
  | rev1_0
  | rev1_1
  | rev1_2
  | rev1_4
  | rev1_6
  | unknown
  deriving DecidableEq, Repr

/-- The version an image is sealed for on a motherboard. -/
def hostVersion : MotherboardRevision → EncryptVersion
  | .debugkit | .devkit | .rev1_0 => .v1_0
  | .rev1_1 | .rev1_2 | .rev1_4 => .v1_1
  | .rev1_6 => .v1_6
  | .unknown => .invalid

/-- The test on a version that both the check and the import make. -/
def EncryptVersion.InRange (version : EncryptVersion) : Prop :=
  EncryptVersion.v1_0.value ≤ version.value ∧ version.value ≤ EncryptVersion.v1_6.value

instance : DecidablePred EncryptVersion.InRange := fun _ ↦ inferInstanceAs (Decidable (_ ∧ _))

variable {version : EncryptVersion}

theorem EncryptVersion.inRange_iff :
    version.InRange ↔ version ≠ .invalid := by
  cases version <;> decide

section

variable (hmac : Hmac)

/-- The version of an image whose fields hold plausible values, or `invalid`. -/
def eepromSanityCheck (eeprom : EepromData) : EncryptVersion :=
  let version := (decryptEEPROMData hmac eeprom).1
  let region := littleEndian32 (decryptEEPROMData hmac eeprom).2.image Field.xbeRegion
  let videoStandard := littleEndian32 eeprom.image Field.videoStandard
  let screenFlags := eeprom.image (Field.videoFlags + 2)
  let zone := fun index ↦ eeprom.image (Field.dvdPlaybackKitZone + index)
  if version.InRange then
    if region ≠ XbeRegion.europeAustralia.value ∧ region ≠ XbeRegion.japan.value ∧
        region ≠ XbeRegion.northAmerica.value then
      .invalid
    else if videoStandard ≠ VideoStandard.ntscJ.value ∧ videoStandard ≠ VideoStandard.ntscM.value ∧
        videoStandard ≠ VideoStandard.palI.value then
      .invalid
    else if VidResolutionEnable.enable720p.value ||| VidResolutionEnable.enable1080i.value |||
        VidResolutionEnable.enable480p.value ||| VidScreenFormat.fullScreen.value |||
        VidScreenFormat.widescreen.value ||| VidScreenFormat.letterbox.value ≤ screenFlags then
      .invalid
    else if zone 1 ≠ 0 ∨ zone 2 ≠ 0 ∨ zone 3 ≠ 0 then
      .invalid
    else if dvdRegionAirlines < zone 0 then
      .invalid
    else
      version
  else
    .invalid

/-- The result code and the edit buffer after the call. `refused` is what `ConfirmDialog` returns
if it is called, and `buffer` the 256 bytes the pointer refers to, unless it is `NULL`. -/
def updateEEPROMEditBufferFromInputBuffer (revision : MotherboardRevision) (refused : Bool)
    (buffer : Option EepromData) (size : ℕ) (editeeprom : EepromData) : Int × EepromData :=
  match buffer with
  | none => (-4, editeeprom)
  | some buffer =>
    if size ≠ 256 then
      (-3, editeeprom)
    else
      let newVersion := eepromSanityCheck hmac buffer
      if newVersion.InRange then
        let decryptedData := (decryptEEPROMData hmac buffer).2
        if revision = .unknown then
          (-4, editeeprom)
        else if hostVersion revision ≠ newVersion ∧ refused = true then
          (-2, editeeprom)
        else
          let result := (encryptEEPROMData hmac decryptedData buffer (hostVersion revision)).2
          (0, refreshChecksum3 (refreshChecksum2 result))
      else
        (-1, editeeprom)

end

variable {hmac : Hmac}

variable {revision : MotherboardRevision}

theorem hostVersion_ne_invalid (hknown : revision ≠ .unknown) :
    hostVersion revision ≠ .invalid := by
  cases revision <;> first | exact absurd rfl hknown | decide

/-- The image an accepted import leaves in the edit buffer. -/
def retargeted (hmac : Hmac)
    (revision : MotherboardRevision) (buffer : EepromData) : EepromData :=
  refreshChecksum3 (refreshChecksum2 (encryptEEPROMData hmac (decryptEEPROMData hmac buffer).2
    buffer (hostVersion revision)).2)

theorem consistent_retargeted {buffer : EepromData} :
    Consistent (retargeted hmac revision buffer) :=
  consistent_refresh _

/-- What an import can do: with every test passed the edit buffer becomes the retargeted image, and
otherwise it is left as it was with an error. -/
theorem update_cases (hmac : Hmac)
    (revision : MotherboardRevision) (refused : Bool) (buffer : Option EepromData) (size : ℕ) :
    (∃ image, buffer = some image ∧ size = 256 ∧ eepromSanityCheck hmac image ≠ .invalid ∧
      revision ≠ .unknown ∧
      ¬(hostVersion revision ≠ eepromSanityCheck hmac image ∧ refused = true) ∧
      ∀ editeeprom,
        updateEEPROMEditBufferFromInputBuffer hmac revision refused buffer size editeeprom =
          (0, retargeted hmac revision image)) ∨
    ((∀ image, buffer = some image → size = 256 → eepromSanityCheck hmac image ≠ .invalid →
      revision ≠ .unknown →
      hostVersion revision ≠ eepromSanityCheck hmac image ∧ refused = true) ∧
      ∃ code : Int, code ≠ 0 ∧ ∀ editeeprom,
        updateEEPROMEditBufferFromInputBuffer hmac revision refused buffer size editeeprom =
          (code, editeeprom)) := by
  cases buffer with
  | none => exact .inr ⟨by simp, -4, by decide, fun _ ↦ rfl⟩
  | some image =>
    simp only [updateEEPROMEditBufferFromInputBuffer, EncryptVersion.inRange_iff,
      some.injEq, forall_eq']
    by_cases hsize : size = 256
    · by_cases hcheck : eepromSanityCheck hmac image = .invalid
      · exact .inr ⟨fun _ hnot ↦ absurd hcheck hnot, -1, by decide, fun _ ↦ by
          rw [if_neg (not_not.mpr hsize), if_neg (not_not.mpr hcheck)]⟩
      · by_cases hknown : revision = .unknown
        · exact .inr ⟨fun _ _ hnot ↦ absurd hknown hnot, -4, by decide, fun _ ↦ by
            rw [if_neg (not_not.mpr hsize), if_pos hcheck, if_pos hknown]⟩
        · by_cases hrefused : hostVersion revision ≠ eepromSanityCheck hmac image ∧
              refused = true
          · exact .inr ⟨fun _ _ _ ↦ hrefused, -2, by decide, fun _ ↦ by
              rw [if_neg (not_not.mpr hsize), if_pos hcheck, if_neg hknown, if_pos hrefused]⟩
          · refine .inl ⟨image, rfl, hsize, hcheck, hknown, hrefused, fun _ ↦ ?_⟩
            rw [if_neg (not_not.mpr hsize), if_pos hcheck, if_neg hknown, if_neg hrefused]
            rfl
    · exact .inr ⟨fun heq ↦ absurd heq hsize, -3, by decide, fun _ ↦ if_pos hsize⟩

/-- The calls that the import turns down. -/
inductive ImportRejected (hmac : Hmac)
    (revision : MotherboardRevision) (refused : Bool) (buffer : Option EepromData) (size : ℕ) :
    Prop
  | null (hnull : buffer = none)
  | wrongSize (hsize : size ≠ 256)
  | failsCheck (image : EepromData) (hbuffer : buffer = some image)
      (hcheck : eepromSanityCheck hmac image = .invalid)
  | refusedByUser (image : EepromData) (hbuffer : buffer = some image)
      (hmismatch : hostVersion revision ≠ eepromSanityCheck hmac image) (hrefused : refused = true)

/-- A call that is turned down returns an error and the edit buffer as it was. -/
theorem update_rejected {refused : Bool} {buffer : Option EepromData} {size : ℕ}
    (hrejected : ImportRejected hmac revision refused buffer size) (editeeprom : EepromData) :
    ∃ code : Int, code ≠ 0 ∧
      updateEEPROMEditBufferFromInputBuffer hmac revision refused buffer size editeeprom =
        (code, editeeprom) := by
  obtain ⟨image, hbuffer, hsize, hcheck, -, hagreed, -⟩ | ⟨-, code, hcode, houtcome⟩ :=
    update_cases hmac revision refused buffer size
  · cases hrejected with
    | null hnull => exact absurd (hnull.symm.trans hbuffer) (by simp)
    | wrongSize hwrong => exact absurd hsize hwrong
    | failsCheck other hother hfails =>
      obtain rfl := some.inj (hother.symm.trans hbuffer)
      exact absurd hfails hcheck
    | refusedByUser other hother hmismatch hrefused =>
      obtain rfl := some.inj (hother.symm.trans hbuffer)
      exact absurd ⟨hmismatch, hrefused⟩ hagreed
  · exact ⟨code, hcode, houtcome editeeprom⟩

/-- An image that passes the check is accepted on a known motherboard if the user agrees. -/
theorem update_accepted {buffer : EepromData} (hcheck : eepromSanityCheck hmac buffer ≠ .invalid)
    (hknown : revision ≠ .unknown) (editeeprom : EepromData) :
    updateEEPROMEditBufferFromInputBuffer hmac revision false (some buffer) 256 editeeprom =
      (0, retargeted hmac revision buffer) := by
  obtain ⟨image, hbuffer, -, -, -, -, houtcome⟩ | ⟨hrefused, -⟩ :=
    update_cases hmac revision false (some buffer) 256
  · obtain rfl := some.inj hbuffer
    exact houtcome editeeprom
  · exact absurd (hrefused buffer rfl rfl hcheck hknown).2 Bool.false_ne_true

/-- At most one version validates any block. -/
def UniqueVersion (hmac : Hmac) : Prop :=
  ∀ (block : Packed 0x30) (first second : EncryptVersion), first ≠ .invalid → second ≠ .invalid →
    Validates hmac first block → Validates hmac second block → first = second

/-- Where at most one version validates, an image with a sealed block opens with the version it was
sealed for, to the plaintext with its hash. -/
theorem decryptEEPROMData_of_sealed (hunique : UniqueVersion hmac) (hversion : version ≠ .invalid)
    {plain : Packed 0x30} {eeprom target : EepromData}
    (hsealed : sealedBlock eeprom = sealedBlock (encryptEEPROMData hmac plain target version).2) :
    decryptEEPROMData hmac eeprom =
      (version, plain.write 0 (confirmHash hmac version plain).toList) := by
  have hvalidates : Validates hmac version (sealedBlock eeprom) := by
    rw [hsealed]
    exact validates_encryptEEPROMData
  rw [decryptEEPROMData_eq hversion hvalidates, hsealed, cryptBlock_sealedBlock_encryptEEPROMData]
  intro lower hlower hless hother
  rw [hunique _ lower version hlower hversion hother hvalidates] at hless
  exact Nat.lt_irrefl _ hless

/-- The checksums are outside the sealed block. -/
theorem sealedBlock_refresh :
    sealedBlock (refreshChecksum3 (refreshChecksum2 eeprom)) = sealedBlock eeprom := by
  apply Packed.ext_bytes
  rw [bytes_sealedBlock (Nat.le_refl 0x30), bytes_sealedBlock (Nat.le_refl 0x30),
    refreshChecksum3, Packed.bytes_write_outside _ (.inl (by decide)),
    refreshChecksum2, Packed.bytes_write_outside _ (.inl (by decide))]

/-- Recomputing the checksums changes no byte but theirs. -/
theorem refresh_outside {eeprom : EepromData} {index : Fin 256}
    (hchecksum2 : index.val < Field.checksum2 ∨ Field.checksum2 + 4 ≤ index.val)
    (hchecksum3 : index.val < Field.checksum3 ∨ Field.checksum3 + 4 ≤ index.val) :
    refreshChecksum3 (refreshChecksum2 eeprom) index = eeprom index := by
  rw [refreshChecksum3, Packed.write_outside _ (by rwa [eepromCRC_length]), refreshChecksum2,
    Packed.write_outside _ (by rwa [eepromCRC_length])]

/-- **Importing re-targets an image without losing data.** An image that passes the check is taken
on every known motherboard if the user agrees: it then opens with the version of the motherboard
to the same confounder, HDD key and region, its other bytes are those of the input, and its
checksums are recomputed. A call that is turned down leaves the edit buffer as it was and returns
an error. -/
theorem import_retargets (hmac : Hmac)
    (hunique : UniqueVersion hmac) (revision : MotherboardRevision) (editeeprom : EepromData) :
    (∀ buffer : EepromData, eepromSanityCheck hmac buffer ≠ .invalid → revision ≠ .unknown →
      let outcome := updateEEPROMEditBufferFromInputBuffer hmac revision false (some buffer) 256
        editeeprom
      outcome.1 = 0 ∧
        (decryptEEPROMData hmac outcome.2).1 = hostVersion revision ∧
        (decryptEEPROMData hmac outcome.2).2.bytes 20 28 =
          (decryptEEPROMData hmac buffer).2.bytes 20 28 ∧
        (∀ index : Fin 256, 0x30 ≤ index.val →
          (index.val < Field.checksum2 ∨ Field.checksum2 + 4 ≤ index.val) →
          (index.val < Field.checksum3 ∨ Field.checksum3 + 4 ≤ index.val) →
          outcome.2 index = buffer index) ∧
        Consistent outcome.2) ∧
    (∀ (refused : Bool) (buffer : Option EepromData) (size : ℕ),
      ImportRejected hmac revision refused buffer size →
      (updateEEPROMEditBufferFromInputBuffer hmac revision refused buffer size editeeprom).2 =
          editeeprom ∧
        (updateEEPROMEditBufferFromInputBuffer hmac revision refused buffer size editeeprom).1 ≠
          0) := by
  constructor
  · intro buffer hcheck hknown outcome
    have houtcome : outcome = _ := update_accepted hcheck hknown editeeprom
    have hhost := hostVersion_ne_invalid hknown
    have hopened := decryptEEPROMData_of_sealed hunique hhost
      ((congrArg (fun result ↦ sealedBlock result.2) houtcome).trans (sealedBlock_refresh _))
    refine ⟨by rw [houtcome], by rw [hopened], ?_, fun index hindex hchecksum2 hchecksum3 ↦ ?_, ?_⟩
    · rw [hopened, bytes_hashed_data]
    · rw [houtcome]
      exact (refresh_outside hchecksum2 hchecksum3).trans (encryptEEPROMData_outside hindex)
    · rw [houtcome]
      exact consistent_retargeted
  · intro refused buffer size hrejected
    obtain ⟨code, hcode, houtcome⟩ := update_rejected hrejected editeeprom
    rw [houtcome]
    exact ⟨rfl, hcode⟩

/-- A hash that names its version and nothing else. -/
def versionHmac (version : EncryptVersion) (_ : List UInt8) : Vector UInt8 20 :=
  Vector.replicate 20 (UInt8.ofNat version.value)

theorem versionHmac_unique : UniqueVersion versionHmac := by
  intro block first second _ _ hfirst hsecond
  rw [validates_iff] at hfirst hsecond
  have hbyte : UInt8.ofNat first.value = UInt8.ofNat second.value := by
    simpa [versionHmac] using congrArg List.head? (hfirst.symm.trans hsecond)
  cases first <;> cases second <;> first | rfl | exact absurd hbyte (by decide)

/-- The plaintext of a console sold in North America. -/
def northAmericanPlain : Packed 0x30 :=
  Packed.write (fun _ ↦ 0) Field.xbeRegion [0x01, 0x00, 0x00, 0x00]

/-- An image with that plaintext for version 1.1, with an NTSC video standard. -/
def northAmericanImage : EepromData :=
  let fields : EepromData := Packed.write (fun _ ↦ 0) Field.videoStandard [0x00, 0x01, 0x40, 0x00]
  (encryptEEPROMData versionHmac northAmericanPlain fields .v1_1).2

/-- Imported on a console of version 1.6, the image opens with that version. -/
theorem northAmericanImage_retargeted :
    eepromSanityCheck versionHmac northAmericanImage = .v1_1 ∧
      (decryptEEPROMData versionHmac (updateEEPROMEditBufferFromInputBuffer versionHmac .rev1_6
        false (some northAmericanImage) 256 (fun _ ↦ 0)).2).1 = .v1_6 := by
  have hopened : decryptEEPROMData versionHmac northAmericanImage = _ :=
    decryptEEPROMData_of_sealed versionHmac_unique (by decide) rfl
  have hcheck : eepromSanityCheck versionHmac northAmericanImage = .v1_1 := by
    rw [eepromSanityCheck, hopened]
    decide +kernel
  have hretargeted := (import_retargets versionHmac versionHmac_unique .rev1_6 fun _ ↦ 0).1
    northAmericanImage (by rw [hcheck]; decide) (by decide)
  exact ⟨hcheck, hretargeted.2.1⟩

end XBlast.Eeprom
