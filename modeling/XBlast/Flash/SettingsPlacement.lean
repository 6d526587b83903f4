import XBlast.Flash.BiosJob

/-!
# The place of the settings in an update

An update carries its own identifier, and the settings are put into the image at the offset that
the identifier asks for. `SafePlacement` says that this place lies behind the firmware and in
front of the identifier, and that the image with the settings is still the image that was checked.
For images below 192KB it does. From 192KB on the offset is a remainder by 4KB, which is inside
the firmware.
-/

set_option autoImplicit false
set_option relaxedAutoImplicit false

namespace XBlast.Flash

open Foundation BiosIdentifier

variable {σ : Type*}

/-- The firmware and the identifier of an image are found again in a buffer, which passes the
check that the image has passed. -/
structure FirmwareKept (md5 : Digest 16) (inBuf buffer : Bytes) : Prop where
  firmware : ∀ index < (BiosIdentifier.ofImage inBuf).biosSize.toNat, buffer index = inBuf index
  identifier : BiosIdentifier.ofImage buffer = .ofImage inBuf
  accepted : validateOSImage md5 buffer (256 * 1024) = .noError

/-- The settings of an image have a place of their own, and an update that has put them there
keeps the firmware. -/
structure SafePlacement (device : FlashLowLevel σ) (md5 : Digest 16)
    (inBuf : Bytes) : Prop where
  aligned : 4 * 1024 ∣ getXBlastOSSettingStartingOffset (.ofImage inBuf)
  floor : 192 * 1024 ≤ getXBlastOSSettingStartingOffset (.ofImage inBuf)
  aboveFirmware : (BiosIdentifier.ofImage inBuf).biosSize.toNat ≤
    getXBlastOSSettingStartingOffset (.ofImage inBuf)
  belowIdentifier : getXBlastOSSettingStartingOffset (.ofImage inBuf) + 3840 ≤ 256 * 1024 - 63
  update (state : FlashState σ) (offset : ℕ) (overrideChecks : Bool) :
    state.currentFlashOp = .idle →
    (xblastOSBankFlash device md5 inBuf (256 * 1024) offset overrideChecks
      state).currentFlashOp = .pendingOp →
    FirmwareKept md5 inBuf
      (xblastOSBankFlash device md5 inBuf (256 * 1024) offset overrideChecks state).biosBuffer

/-! ### What an accepted image says -/

variable {md5 : Digest 16} {inBuf : Bytes}

theorem hasProgName_of_accepted (haccepted : validateOSImage md5 inBuf (256 * 1024) = .noError) :
    (BiosIdentifier.ofImage inBuf).hasProgName = true := by
  by_contra hname
  rw [validateOSImage, if_neg (not_not_intro rfl)] at haccepted
  simp only [Bool.not_eq_true] at hname
  rw [if_pos hname] at haccepted
  cases haccepted

/-- The check of an image of the second version reads the firmware and the identifier only. -/
theorem validateOSImage_congr {inBuf buffer : Bytes}
    (hversion : (BiosIdentifier.ofImage inBuf).headerVersion = 2)
    (hfirmware : ∀ index < (BiosIdentifier.ofImage inBuf).biosSize.toNat,
      buffer index = inBuf index)
    (hidentifier : BiosIdentifier.ofImage buffer = .ofImage inBuf) :
    validateOSImage md5 buffer (256 * 1024) = validateOSImage md5 inBuf (256 * 1024) := by
  have hhashed : (List.range (BiosIdentifier.ofImage inBuf).biosSize.toNat).map buffer =
      (List.range (BiosIdentifier.ofImage inBuf).biosSize.toNat).map inBuf :=
    List.map_congr_left fun index hindex ↦ hfirmware index (List.mem_range.mp hindex)
  simp only [validateOSImage, hidentifier, if_pos hversion, hhashed]

theorem imageSettingsOffset_eq (hname : (BiosIdentifier.ofImage inBuf).hasProgName = true) :
    imageSettingsOffset inBuf = getXBlastOSSettingStartingOffset (.ofImage inBuf) := by
  rw [imageSettingsOffset, getBiosIdentifierFromBuffer, if_pos ⟨rfl, hname⟩]

/-- From 192KB on the offset is the remainder of the rounded size. -/
theorem startingOffset_of_large {biosID : BiosIdentifier} (hversion : biosID.headerVersion = 2)
    (hname : biosID.hasProgName = true) (hsaves : biosID.savesSettings = true)
    (hlarge : 192 * 1024 ≤ biosID.biosSize.toNat) (hsize : biosID.biosSize.toNat < 256 * 1024) :
    getXBlastOSSettingStartingOffset biosID = (biosID.biosSize.toNat + 4095) % 4096 := by
  rw [getXBlastOSSettingStartingOffset, if_pos (.inl hversion), if_pos hname, if_pos hsaves]
  exact (if_neg (by omega)).trans (if_neg (by omega))

/-! ### Settings behind the firmware -/

/-- Settings at 192KB leave a smaller firmware and the identifier alone. -/
theorem imageWithSettings_kept {inBuf buffer : Bytes} {settings : LPCmodSettings}
    (haccepted : validateOSImage md5 inBuf (256 * 1024) = .noError)
    (hversion : (BiosIdentifier.ofImage inBuf).headerVersion = 2)
    (hfloor : SavesAtFloor (.ofImage inBuf))
    (hbuffer : ∀ index < 256 * 1024, buffer index = imageWithSettings inBuf settings index) :
    FirmwareKept md5 inBuf buffer := by
  have hoffset : imageSettingsOffset inBuf = 0x30000 :=
    (imageSettingsOffset_eq hfloor.hasProgName).trans hfloor.startingOffset
  have hsize := hfloor.biosSize
  have houtside (index : ℕ) (hindex : index < 256 * 1024)
      (hplace : index < 0x30000 ∨ 0x30000 + 3840 ≤ index) : buffer index = inBuf index := by
    rw [hbuffer index hindex, imageWithSettings, if_pos (by rw [hoffset]; decide), hoffset,
      overlay_outside hplace]
  have hfirmware : ∀ index < (BiosIdentifier.ofImage inBuf).biosSize.toNat,
      buffer index = inBuf index := by
    intro index hindex
    exact houtside index (by omega) (.inl (by omega))
  have hidentifier : BiosIdentifier.ofImage buffer = .ofImage inBuf :=
    ofImage_congr fun address hlow hhigh ↦
      houtside address (by omega) (.inr (by omega))
  exact ⟨hfirmware, hidentifier,
    (validateOSImage_congr hversion hfirmware hidentifier).trans haccepted⟩

/-- Below 192KB the settings of an accepted image have a safe place. -/
theorem safePlacement_of_small (device : FlashLowLevel σ)
    (haccepted : validateOSImage md5 inBuf (256 * 1024) = .noError)
    (hversion : (BiosIdentifier.ofImage inBuf).headerVersion = 2)
    (hfloor : SavesAtFloor (.ofImage inBuf)) : SafePlacement device md5 inBuf := by
  have hoffset := hfloor.startingOffset
  have hsize := hfloor.biosSize
  refine ⟨?_, ?_, ?_, ?_, ?_⟩
  · rw [hoffset]
    decide
  · rw [hoffset]
  · rw [hoffset]
    omega
  · rw [hoffset]
    decide
  · intro state offset overrideChecks hidle hpending
    rcases xblastOSBankFlash_cases device md5 inBuf offset overrideChecks hidle with
      ⟨_, _, _, _, hbuffer⟩ | hstill
    · exact imageWithSettings_kept haccepted hversion hfloor hbuffer
    · rw [hstill] at hpending
      cases hpending

/-- The settings of an accepted image of the second version have a safe place exactly when its
firmware is smaller than 192KB.

Assumes: the image passes the check, saves its settings, and its firmware has at most the 252KB
that the image builder can fill. -/
theorem safePlacement_iff (device : FlashLowLevel σ) (md5 : Digest 16)
    (inBuf : Bytes) (haccepted : validateOSImage md5 inBuf (256 * 1024) = .noError)
    (hversion : (BiosIdentifier.ofImage inBuf).headerVersion = 2)
    (hsaves : (BiosIdentifier.ofImage inBuf).savesSettings = true)
    (hsize : (BiosIdentifier.ofImage inBuf).biosSize.toNat ≤ 252 * 1024) :
    SafePlacement device md5 inBuf ↔
      (BiosIdentifier.ofImage inBuf).biosSize.toNat < 192 * 1024 := by
  have hname := hasProgName_of_accepted haccepted
  constructor
  · intro hsafe
    by_contra hlarge
    have hoffset := startingOffset_of_large hversion hname hsaves (by omega) (by omega)
    have hfloor := hsafe.floor
    omega
  · intro hsmall
    exact safePlacement_of_small device haccepted hversion ⟨.inr hversion, hname, hsaves, hsmall⟩

/-- The smallest image of the second version has a safe place for its settings. -/
theorem safePlacement_iff_floorImage :
    validateOSImage (fun _ _ ↦ 0) floorImage (256 * 1024) = .noError ∧
      SafePlacement workingChip (fun _ _ ↦ 0) floorImage := by
  have haccepted : validateOSImage (fun _ _ ↦ 0) floorImage (256 * 1024) = .noError := by decide
  have hsmall : (BiosIdentifier.ofImage floorImage).biosSize.toNat < 192 * 1024 := by decide
  refine ⟨haccepted, ?_⟩
  exact (safePlacement_iff _ _ floorImage haccepted (by decide) (by decide) (by omega)).mpr hsmall

/-! ### Settings inside the firmware -/

section

variable (md5)

/-- An image with a firmware of 192KB, all zero, and the hash of that firmware. -/
def largeImage : Bytes :=
  overlay (fun address ↦ if address = 0x3FFCE then 3 else floorImage address) 0x3FFF0 16
    (md5 (List.replicate 0x30000 0)).image

theorem largeImage_of_lt {address : ℕ} (haddress : address < 0x3FFC1) :
    largeImage md5 address = 0 := by
  rw [largeImage, overlay_outside (.inl (by omega)), if_neg (by omega), floorImage,
    if_neg (by omega), if_neg (by omega), if_neg (by omega)]

/-- The fields of the identifier in front of the hash do not depend on it. -/
theorem largeImage_image {index : ℕ} (hindex : index < 47) :
    (BiosIdentifier.ofImage (largeImage md5)).image index =
      if index = 13 then 3 else (BiosIdentifier.ofImage floorImage).image index := by
  rw [ofImage_image _ (by omega), ofImage_image _ (by omega),
    largeImage, overlay_outside (.inl (by omega))]
  by_cases hsize : index = 13
  · rw [if_pos hsize, if_pos (by omega)]
  · rw [if_neg hsize, if_neg (by omega)]

theorem largeImage_biosSize : (BiosIdentifier.ofImage (largeImage md5)).biosSize = 0x30000 := by
  refine littleEndian32_eq fun index hindex ↦ ?_
  rw [largeImage_image md5 (by omega)]
  decide +revert

theorem largeImage_hasProgName : (BiosIdentifier.ofImage (largeImage md5)).hasProgName = true := by
  have hname : (List.range progName.length).map (BiosIdentifier.ofImage (largeImage md5)).name =
      (List.range progName.length).map (BiosIdentifier.ofImage floorImage).name := by
    refine List.map_congr_left fun index hindex ↦ ?_
    have hlength : index < 9 := List.mem_range.mp hindex
    rw [BiosIdentifier.name, largeImage_image md5 (by omega), if_neg (by omega)]
    rfl
  rw [BiosIdentifier.hasProgName, hname]
  exact floorImage_savesAtFloor.hasProgName

theorem largeImage_headerVersion : (BiosIdentifier.ofImage (largeImage md5)).headerVersion = 2 := by
  rw [BiosIdentifier.headerVersion, largeImage_image md5 (by omega)]
  decide

theorem largeImage_savesSettings :
    (BiosIdentifier.ofImage (largeImage md5)).savesSettings = true := by
  rw [BiosIdentifier.savesSettings, BiosIdentifier.option1, largeImage_image md5 (by omega)]
  decide

theorem largeImage_accepted : validateOSImage md5 (largeImage md5) (256 * 1024) = .noError := by
  have hfirmware : (List.range 0x30000).map (largeImage md5) = List.replicate 0x30000 0 := by
    refine List.eq_replicate_iff.mpr ⟨by rw [List.length_map, List.length_range], ?_⟩
    intro byte hbyte
    obtain ⟨address, haddress, rfl⟩ := List.mem_map.mp hbyte
    have hlow := List.mem_range.mp haddress
    exact largeImage_of_lt md5 (by omega)
  have hhash : (BiosIdentifier.ofImage (largeImage md5)).md5Hash =
      md5 (List.replicate 0x30000 0) := by
    refine readPacked_eq fun index hindex ↦ ?_
    rw [ofImage_image _ (by omega), largeImage, ← add_assoc, overlay_add hindex]
  have hsize : (BiosIdentifier.ofImage (largeImage md5)).biosSize.toNat = 0x30000 := by
    rw [largeImage_biosSize md5]
    rfl
  rw [validateOSImage, if_neg (not_not_intro rfl)]
  simp only [largeImage_hasProgName md5, largeImage_headerVersion md5, hsize, hfirmware, hhash]
  rfl

end

/-- The settings of the image with 192KB of firmware are put at 0xFFF, over its firmware, whatever
the hash function is: the default settings do not start with a zero byte. -/
theorem largeImage_overwritten :
    (populateSettingsStructWithDefault plainHardware).image 0 ≠ 0 ∧
    ∀ md5 : Digest 16,
      let device := workingChip
      let state := bootState (populateSettingsStructWithDefault plainHardware) fun _ ↦ 0
      let biosID := BiosIdentifier.ofImage (largeImage md5)
      let started := xblastOSBankFlash device md5 (largeImage md5) (256 * 1024) 0 false state
      validateOSImage md5 (largeImage md5) (256 * 1024) = .noError ∧ biosID.headerVersion = 2 ∧
        biosID.savesSettings = true ∧ biosID.biosSize = 192 * 1024 ∧
        getXBlastOSSettingStartingOffset biosID = 0xFFF ∧
        started.currentFlashOp = .pendingOp ∧ started.biosBuffer 0xFFF ≠ largeImage md5 0xFFF := by
  have hfirst : (populateSettingsStructWithDefault plainHardware).image 0 ≠ 0 := by
    decide
  refine ⟨hfirst, fun md5 ↦ ?_⟩
  intro device state biosID started
  have hoffset : getXBlastOSSettingStartingOffset biosID = 0xFFF := by
    rw [startingOffset_of_large (largeImage_headerVersion md5) (largeImage_hasProgName md5)
      (largeImage_savesSettings md5)]
    all_goals
      rw [largeImage_biosSize md5]
      decide
  refine ⟨largeImage_accepted md5, largeImage_headerVersion md5, largeImage_savesSettings md5,
    largeImage_biosSize md5, hoffset, ?_⟩
  have hstarted : started = _ := xblastOSBankFlash_eq md5 (largeImage md5) 0 state rfl rfl
    (by decide) (largeImage_accepted md5)
  obtain ⟨hpending, _, _, _, hbuffer⟩ := injectSettings_pendingWrite device
    { state with flashErrorCode := .noError } ⟨0x80000, true⟩ (largeImage md5) 0
  rw [hstarted]
  refine ⟨hpending, ?_⟩
  have hplace : imageSettingsOffset (largeImage md5) = 0xFFF :=
    (imageSettingsOffset_eq (largeImage_hasProgName md5)).trans hoffset
  rw [largeImage_of_lt md5 (by decide)]
  intro hzero
  have hbyte := (hbuffer 0xFFF (by decide)).symm.trans hzero
  rw [imageWithSettings, hplace, if_pos (by decide), overlay_inside (by decide) (by decide),
    LPCmodSettings.withCrc, LPCmodSettings.setCrc32Value_image (by decide)] at hbyte
  exact hfirst hbyte

end XBlast.Flash
