import XBlast.Eeprom.EditSession

/-!
# Changing the game region

`setGameRegionValue` opens the sealed section, puts the region into it and seals it again for the
version that was found. The confounder and the hard disk key are kept, as long as no other version
opens the new block by coincidence. An image that opens with no version at all should be left alone.
The test for it asks whether the version is larger than the last one, and `EEPROM_EncryptInvalid` is
zero: the bytes that the last attempt left behind are sealed for no version. What is meant holds
exactly for the images that can be opened (`setGameRegionValue_correct_iff`).
-/

set_option autoImplicit false
set_option relaxedAutoImplicit false

namespace XBlast.Eeprom

open Foundation UInt8

section

variable (hmac : Hmac)

/-- The number that `setGameRegionValue` returns. -/
def setGameRegionResult (value : UInt8) (eeprom : EepromData) : Int :=
  if EncryptVersion.v1_6.value < (decryptEEPROMData hmac eeprom).1.value then -1 else value.toNat

def getGameRegionValue (eeprom : EepromData) : Int :=
  let version := (decryptEEPROMData hmac eeprom).1
  let gameRegion := littleEndian32 (decryptEEPROMData hmac eeprom).2.image Field.xbeRegion
  if EncryptVersion.v1_6.value < version.value then XbeRegion.invalid.value.toNat
  else if gameRegion = XbeRegion.japan.value then XbeRegion.japan.value.toNat
  else if gameRegion = XbeRegion.europeAustralia.value then XbeRegion.europeAustralia.value.toNat
  else if gameRegion = XbeRegion.northAmerica.value then XbeRegion.northAmerica.value.toNat
  else XbeRegion.invalid.value.toNat

/-- What a change of the region should do: an image that opens gets the region and keeps its
version, its confounder, its key and everything behind the sealed section, and any other image is
refused. -/
def ChangesRegion (value : UInt8) (eeprom : EepromData) : Prop :=
  let changed := setGameRegionValue hmac value eeprom
  if (decryptEEPROMData hmac eeprom).1 ≠ .invalid then
    setGameRegionResult hmac value eeprom = value.toNat ∧
      (decryptEEPROMData hmac changed).1 = (decryptEEPROMData hmac eeprom).1 ∧
      (decryptEEPROMData hmac changed).2.bytes 20 24 =
        (decryptEEPROMData hmac eeprom).2.bytes 20 24 ∧
      getGameRegionValue hmac changed = value.toNat ∧
      ∀ index : Fin 256, 0x30 ≤ index.val → changed index = eeprom index
  else
    setGameRegionResult hmac value eeprom = -1 ∧ changed = eeprom

end

variable {hmac : Hmac} {eeprom : EepromData}
  {value : UInt8}

theorem EncryptVersion.not_v1_6_lt (version : EncryptVersion) :
    ¬EncryptVersion.v1_6.value < version.value := by
  cases version <;> decide

/-- The opened block with the region in it. -/
def withRegion (hmac : Hmac) (value : UInt8)
    (eeprom : EepromData) : Packed 0x30 :=
  (decryptEEPROMData hmac eeprom).2.write Field.xbeRegion [value, 0, 0, 0]

/-- The test never refuses an image. -/
theorem setGameRegionValue_eq : setGameRegionResult hmac value eeprom = value.toNat ∧
    setGameRegionValue hmac value eeprom =
      (encryptEEPROMData hmac (withRegion hmac value eeprom) eeprom
        (decryptEEPROMData hmac eeprom).1).2 := by
  have hversion := (decryptEEPROMData hmac eeprom).1.not_v1_6_lt
  exact ⟨if_neg hversion, if_neg hversion⟩

/-- The new image opens with the version of the old one, and with the changed block in it. -/
theorem decryptEEPROMData_setGameRegionValue (hunique : UniqueVersion hmac)
    (hopens : (decryptEEPROMData hmac eeprom).1 ≠ .invalid) :
    ∃ digest : Vector UInt8 20, decryptEEPROMData hmac (setGameRegionValue hmac value eeprom) =
      ((decryptEEPROMData hmac eeprom).1,
        (withRegion hmac value eeprom).write 0 digest.toList) := by
  rw [setGameRegionValue_eq.2]
  exact ⟨_, decryptEEPROMData_of_sealed hunique hopens rfl⟩

theorem listImage_eq_byteOf32 {index : ℕ} (hindex : index < 4) :
    listImage [value, 0, 0, 0] index = byteOf32 value.toUInt32 index := by
  have hbyte := value.toNat_lt
  apply UInt8.toNat_inj.mp
  rw [byteOf32, toNat_ofNat', toNat_toUInt32]
  obtain rfl | rfl | rfl | rfl : index = 0 ∨ index = 1 ∨ index = 2 ∨ index = 3 := by omega
  all_goals
    simp only [listImage, List.getD_cons_zero, List.getD_cons_succ, UInt8.toNat_zero]
    omega

/-- The region of the changed block. -/
theorem littleEndian32_withRegion (digest : Vector UInt8 20) :
    littleEndian32 ((withRegion hmac value eeprom).write 0 digest.toList).image Field.xbeRegion =
      value.toUInt32 := by
  refine littleEndian32_eq fun index hindex ↦ ?_
  have hinside : Field.xbeRegion + index < 0x30 := by
    simp only [Field.xbeRegion]
    omega
  have houtside : Field.xbeRegion + index < 0 ∨ 0 + digest.toList.length ≤
      Field.xbeRegion + index := by
    simp only [Field.xbeRegion, Vector.length_toList]
    omega
  rw [Packed.image_write _ _ hinside, overlay_outside houtside, withRegion,
    Packed.image_write _ _ hinside, overlay_add (by simpa using hindex),
    listImage_eq_byteOf32 hindex]

section

variable (hunique : UniqueVersion hmac) (hopens : (decryptEEPROMData hmac eeprom).1 ≠ .invalid)
  (hvalue : value = 1 ∨ value = 2 ∨ value = 4)

include hunique hopens hvalue

/-- One of the three regions is read back. -/
theorem getGameRegionValue_setGameRegionValue :
    getGameRegionValue hmac (setGameRegionValue hmac value eeprom) = value.toNat := by
  obtain ⟨digest, hdecrypt⟩ :=
    @decryptEEPROMData_setGameRegionValue hmac eeprom value hunique hopens
  rw [getGameRegionValue, hdecrypt]
  dsimp only
  rw [if_neg (EncryptVersion.not_v1_6_lt _), littleEndian32_withRegion]
  obtain rfl | rfl | rfl := hvalue
  · decide
  · decide
  · decide

/-- Everything that is asked of an image that can be opened. -/
theorem changesRegion_of_opens : ChangesRegion hmac value eeprom := by
  obtain ⟨digest, hdecrypt⟩ :=
    @decryptEEPROMData_setGameRegionValue hmac eeprom value hunique hopens
  rw [ChangesRegion, if_pos hopens]
  refine ⟨setGameRegionValue_eq.1, by rw [hdecrypt], ?_,
    getGameRegionValue_setGameRegionValue hunique hopens hvalue, fun index hindex ↦ ?_⟩
  · rw [hdecrypt, Packed.bytes_write_outside _ (.inr (by rw [Vector.length_toList])), withRegion,
      Packed.bytes_write_outside _ (.inl (by decide))]
  · rw [setGameRegionValue_eq.2]
    exact encryptEEPROMData_outside hindex

end

/-- An image opens if some version validates its sealed section. -/
theorem decryptEEPROMData_ne_invalid_iff : (decryptEEPROMData hmac eeprom).1 ≠ .invalid ↔
    ∃ version, version ≠ .invalid ∧ Validates hmac version (sealedBlock eeprom) := by
  obtain ⟨version, hversion, hvalidates, -, hresult⟩ | ⟨hnone, hresult⟩ :=
    decryptEEPROMData_cases hmac eeprom
  · rw [hresult]
    exact iff_of_true hversion ⟨version, hversion, hvalidates⟩
  · rw [hresult]
    exact iff_of_false (not_not_intro rfl) fun ⟨version, hversion, hvalidates⟩ ↦
      hnone version hversion hvalidates

/-- An image opens with the version that its hash names. -/
theorem validates_versionHmac_iff {version : EncryptVersion} {block : Packed 0x30} :
    Validates versionHmac version block ↔
      block.bytes 0 20 = List.replicate 20 (UInt8.ofNat version.value) := by
  rw [validates_iff, versionHmac, Vector.toList_replicate]

/-- The image whose hash names the first version. -/
def firstVersionImage : EepromData := fun _ ↦ 0x0A

theorem firstVersionImage_opens :
    (decryptEEPROMData versionHmac firstVersionImage).1 ≠ .invalid := by
  refine decryptEEPROMData_ne_invalid_iff.mpr ⟨.v1_0, by decide, ?_⟩
  rw [validates_versionHmac_iff]
  decide

/-- A hash for which no block opens with two versions, and one of the three regions. The change does
what it should just in case that the image can be opened. -/
theorem setGameRegionValue_correct_iff (hunique : UniqueVersion hmac) (eeprom : EepromData)
    (hvalue : value = 1 ∨ value = 2 ∨ value = 4) :
    ChangesRegion hmac value eeprom ↔ (decryptEEPROMData hmac eeprom).1 ≠ .invalid := by
  refine ⟨fun hchanges hinvalid ↦ ?_, fun hopens ↦ changesRegion_of_opens hunique hopens hvalue⟩
  rw [ChangesRegion, if_neg (not_not_intro hinvalid), setGameRegionValue_eq.1] at hchanges
  exact absurd hchanges.1 (by omega)

theorem firstVersionImage_changes :
    UniqueVersion versionHmac ∧ ChangesRegion versionHmac 4 firstVersionImage :=
  ⟨versionHmac_unique, (setGameRegionValue_correct_iff versionHmac_unique firstVersionImage
    (by decide)).mpr firstVersionImage_opens⟩

/-- An image of zeros opens with no version, and its change is reported as done. -/
theorem zeros_changed :
    UniqueVersion versionHmac ∧ (decryptEEPROMData versionHmac fun _ ↦ 0).1 = .invalid ∧
      setGameRegionResult versionHmac 4 (fun _ ↦ 0) = 4 := by
  refine ⟨versionHmac_unique, ?_, setGameRegionValue_eq.1⟩
  by_contra hopens
  obtain ⟨version, hversion, hvalidates⟩ := decryptEEPROMData_ne_invalid_iff.mp hopens
  rw [validates_versionHmac_iff] at hvalidates
  cases version with
  | invalid => exact hversion rfl
  | _ => exact absurd hvalidates (by decide)

end XBlast.Eeprom
