import XBlast.Image.Imagebld

/-!
# Builder, update check and loader agree

The image builder, the check of an update in the flash driver and the loader at boot were written
apart and share the layout of an image. An image that the builder writes passes the check of an
update, and the loader finds the kernel in it that the builder was given. The builder has no lower
bound on the size of the loader and takes the size of the kernel as a 32-bit word; the agreement
holds exactly for the inputs that neither of the two spoils.
-/

set_option autoImplicit false
set_option relaxedAutoImplicit false

namespace XBlast.Image

open Foundation Flash

variable {sha1 : Digest 20} {md5 : Digest 16}

/-! ### The check of an update -/

section

variable {cromimage : Bytes} {biosSize : UInt32}

theorem ofImage_writeBiosIdentifier_biosSize :
    (BiosIdentifier.ofImage (writeBiosIdentifier md5 cromimage biosSize)).biosSize = biosSize := by
  refine littleEndian32_eq fun index hindex ↦ ?_
  rw [BiosIdentifier.ofImage_image _ (by omega)]
  obtain rfl | rfl | rfl | rfl : index = 0 ∨ index = 1 ∨ index = 2 ∨ index = 3 := by omega
  · rfl
  · rfl
  · rfl
  · rfl

theorem ofImage_writeBiosIdentifier_hasProgName :
    (BiosIdentifier.ofImage (writeBiosIdentifier md5 cromimage biosSize)).hasProgName = true := by
  rfl

theorem ofImage_writeBiosIdentifier_md5Hash (hsize : biosSize.toNat ≤ 252 * 1024) :
    (BiosIdentifier.ofImage (writeBiosIdentifier md5 cromimage biosSize)).md5Hash =
      md5 ((List.range biosSize.toNat).map (writeBiosIdentifier md5 cromimage biosSize)) := by
  have hhashed : (List.range biosSize.toNat).map (writeBiosIdentifier md5 cromimage biosSize) =
      bytesAt (writeFields (identifierFields biosSize) cromimage) 0 biosSize.toNat := by
    refine List.map_congr_left fun index hindex ↦ ?_
    have hlow := List.mem_range.mp hindex
    rw [zero_add, writeBiosIdentifier, overlay_outside (.inl (by omega))]
  rw [hhashed]
  refine readPacked_eq fun index hindex ↦ ?_
  rw [BiosIdentifier.ofImage_image _ (by omega), ← add_assoc]
  exact overlay_add hindex

/-- An identifier that the builder writes passes the check of an update. -/
theorem validateOSImage_writeBiosIdentifier (hsize : biosSize.toNat ≤ 252 * 1024) :
    validateOSImage md5 (writeBiosIdentifier md5 cromimage biosSize) (256 * 1024) = .noError := by
  have hversion : (BiosIdentifier.ofImage
      (writeBiosIdentifier md5 cromimage biosSize)).headerVersion = 2 := rfl
  rw [validateOSImage, if_neg (by simp)]
  simp only [ofImage_writeBiosIdentifier_hasProgName, hversion,
    ofImage_writeBiosIdentifier_biosSize, ofImage_writeBiosIdentifier_md5Hash hsize]
  rfl

end

/-! ### The loader at boot -/

variable {loader crom : List UInt8}

/-- The image that the builder writes for a kernel of a size. -/
def romImage (sha1 : Digest 20) (md5 : Digest 16)
    (loader crom : List UInt8) (romsize : ℕ) : Bytes :=
  writeBiosIdentifier md5 (kernelFlash sha1 (hashedLoader sha1 loader) crom romsize)
    (UInt32.ofNat (0x3018 + romsize))

theorem romImage_below {romsize address : ℕ} (haddress : address < 0x3FFC1) :
    romImage sha1 md5 loader crom romsize address =
      kernelFlash sha1 (hashedLoader sha1 loader) crom romsize address :=
  writeBiosIdentifier_below md5 _ haddress

theorem romImage_size {romsize : ℕ} :
    littleEndian32 (romImage sha1 md5 loader crom romsize) 0x3014 = UInt32.ofNat romsize := by
  rw [← kernelFlash_size]
  exact littleEndian32_congr fun index hindex ↦ romImage_below (by omega)

theorem romImage_kernel (hfits : crom.length ≤ 252 * 1024 - 0x3018) :
    bytesAt (romImage sha1 md5 loader crom crom.length) 0x3018 crom.length = crom := by
  refine bytesAt_eq fun index hindex ↦ ?_
  rw [romImage_below (by omega), kernelFlash_kernel hindex]

theorem romImage_checksum :
    readPacked 20 (romImage sha1 md5 loader crom crom.length) 0x3000 = sha1 crom := by
  have hbytes : bytesAt (kernelFlash sha1 (hashedLoader sha1 loader) crom crom.length) 0x3018
      crom.length = crom :=
    bytesAt_eq fun index hindex ↦ kernelFlash_kernel hindex
  rw [readPacked_congr fun index _ ↦ romImage_below (by omega), kernelFlash_checksum, hbytes]

/-- The loader finds the kernel in the image when it is large enough for it. -/
theorem bootStartBiosLoader_romImage (hfits : crom.length ≤ 252 * 1024 - 0x3018) :
    bootStartBiosLoader sha1 (romImage sha1 md5 loader crom crom.length) =
      if 50000 ≤ crom.length then some crom else none := by
  have hsize : (littleEndian32 (romImage sha1 md5 loader crom crom.length) 0x3014).toNat =
      crom.length := by
    rw [romImage_size, UInt32.toNat_ofNat_of_lt' (by simp only [UInt32.size]; omega)]
  simp only [bootStartBiosLoader, loadKernel, hsize, romImage_kernel hfits,
    romImage_checksum, if_true]
  by_cases hlarge : 50000 ≤ crom.length
  · rw [if_pos hlarge, if_neg (by omega)]
  · rw [if_neg hlarge, if_pos (.inl (by omega))]

/-! ### The builder -/

/-- When the loader and its checksum structure fit, the builder writes an image exactly when the
structure is not larger than the loader and the low word of the size of the kernel fits. -/
theorem romcopy_eq (sha1 : Digest 20) (md5 : Digest 16)
    (crom : List UInt8)
    (hloader : (bootloaderpos loader).toNat + (sizeRamcopy loader).toNat ≤ 0x3000) :
    (24 ≤ (sizeRamcopy loader).toNat ∧ crom.length % 2 ^ 32 ≤ 252 * 1024 - 0x3018 ∧
      romcopy sha1 md5 loader crom =
        .written (romImage sha1 md5 loader crom (crom.length % 2 ^ 32))) ∨
    (¬ (24 ≤ (sizeRamcopy loader).toNat ∧ crom.length % 2 ^ 32 ≤ 252 * 1024 - 0x3018) ∧
      ∀ image, romcopy sha1 md5 loader crom ≠ .written image) := by
  have hsum : (bootloaderpos loader + sizeRamcopy loader).toNat =
      (bootloaderpos loader).toNat + (sizeRamcopy loader).toNat := by
    rw [UInt32.toNat_add]
    omega
  have hhashed : hashedSize loader = (2 ^ 32 - 24 + (sizeRamcopy loader).toNat) % 2 ^ 32 := by
    rw [hashedSize, UInt32.toNat_sub]
    rfl
  unfold romcopy
  by_cases hstructure : 24 ≤ (sizeRamcopy loader).toNat
  · have hinside : ¬ 256 * 1024 < (bootloaderpos loader).toNat + 24 + hashedSize loader := by
      rw [hhashed]
      omega
    have hbelow : ¬ 0x3000 < (bootloaderpos loader + sizeRamcopy loader).toNat := by
      rw [hsum]
      omega
    simp only [if_neg hinside, if_neg hbelow]
    by_cases hfits : crom.length % 2 ^ 32 ≤ 252 * 1024 - 0x3018
    · left
      rw [if_neg (by omega), if_neg (by omega)]
      exact ⟨hstructure, hfits, rfl⟩
    · right
      refine ⟨fun hboth ↦ hfits hboth.2, fun image ↦ ?_⟩
      rw [if_pos (show 252 * 1024 - 0x3018 < crom.length % 2 ^ 32 by omega)]
      split_ifs <;> simp
  · right
    have houtside : 256 * 1024 < (bootloaderpos loader).toNat + 24 + hashedSize loader := by
      rw [hhashed]
      omega
    refine ⟨fun hboth ↦ hstructure hboth.1, fun image ↦ ?_⟩
    simp only [if_pos houtside]
    split_ifs <;> simp

/-- The agreement of the three programs on a loader and a kernel. -/
structure Agrees (sha1 : Digest 20) (md5 : Digest 16)
    (loader crom : List UInt8) : Prop where
  written_iff : (∃ image, romcopy sha1 md5 loader crom = .written image) ↔
    crom.length ≤ 252 * 1024 - 0x3018
  validates : ∀ image, romcopy sha1 md5 loader crom = .written image →
    validateOSImage md5 image (256 * 1024) = .noError
  loads_iff : ∀ image, romcopy sha1 md5 loader crom = .written image →
    ((∃ kernel, bootStartBiosLoader sha1 image = some kernel) ↔ 50000 ≤ crom.length)
  kernel_eq : ∀ image, romcopy sha1 md5 loader crom = .written image →
    ∀ kernel, bootStartBiosLoader sha1 image = some kernel → kernel = crom

theorem agrees_of_written (hfits : crom.length ≤ 252 * 1024 - 0x3018)
    (hwritten : romcopy sha1 md5 loader crom =
      .written (romImage sha1 md5 loader crom crom.length)) :
    Agrees sha1 md5 loader crom := by
  have himage {image : Bytes} (hcopied : romcopy sha1 md5 loader crom = .written image) :
      image = romImage sha1 md5 loader crom crom.length :=
    Outcome.written.inj (hcopied.symm.trans hwritten)
  refine ⟨⟨fun _ ↦ hfits, fun _ ↦ ⟨_, hwritten⟩⟩, fun image hcopied ↦ ?_, fun image hcopied ↦ ?_,
    fun image hcopied kernel hkernel ↦ ?_⟩
  · rw [himage hcopied]
    refine validateOSImage_writeBiosIdentifier ?_
    rw [UInt32.toNat_ofNat_of_lt' (by simp only [UInt32.size]; omega)]
    omega
  · rw [himage hcopied, bootStartBiosLoader_romImage hfits]
    by_cases hlarge : 50000 ≤ crom.length
    · simp [hlarge]
    · simp [hlarge]
  · rw [himage hcopied, bootStartBiosLoader_romImage hfits] at hkernel
    split_ifs at hkernel
    exact (Option.some.inj hkernel).symm

/-- A loader that is nothing but its checksum structure, at 0x44. -/
def bareLoader : List UInt8 :=
  List.replicate 0x40 0 ++ [0x44, 0, 0, 0] ++ List.replicate 20 0 ++ [24, 0, 0, 0]

theorem bootloaderpos_bareLoader : bootloaderpos bareLoader = 0x44 := by
  decide +kernel

theorem sizeRamcopy_bareLoader : sizeRamcopy bareLoader = 24 := by
  rw [sizeRamcopy, bootloaderpos_bareLoader]
  decide +kernel

/-- The three programs agree exactly when a kernel that fits comes with a loader that is not
smaller than its checksum structure, and no kernel of 4GB or more has a size whose low word
fits. Assumes: the loader ends at or below the place of the kernel. -/
theorem agrees_iff (sha1 : Digest 20) (md5 : Digest 16)
    (loader crom : List UInt8)
    (hloader : (bootloaderpos loader).toNat + (sizeRamcopy loader).toNat ≤ 0x3000) :
    Agrees sha1 md5 loader crom ↔
      (crom.length ≤ 252 * 1024 - 0x3018 → 24 ≤ (sizeRamcopy loader).toNat) ∧
      (2 ^ 32 ≤ crom.length → 24 ≤ (sizeRamcopy loader).toNat →
        252 * 1024 - 0x3018 < crom.length % 2 ^ 32) := by
  rcases romcopy_eq sha1 md5 crom hloader with
    ⟨hstructure, hfits, hwritten⟩ | ⟨hmisfit, hnever⟩
  · constructor
    · intro hagrees
      have hlength := hagrees.written_iff.mp ⟨_, hwritten⟩
      exact ⟨fun _ ↦ hstructure, fun hlarge _ ↦ by omega⟩
    · rintro ⟨_, hword⟩
      have hsmall : crom.length < 2 ^ 32 := by
        by_contra hlarge
        omega
      rw [Nat.mod_eq_of_lt hsmall] at hfits hwritten
      exact agrees_of_written hfits hwritten
  · constructor
    · intro hagrees
      refine ⟨fun hlength ↦ ?_, fun _ hstructure ↦ ?_⟩
      · obtain ⟨image, himage⟩ := hagrees.written_iff.mpr hlength
        exact absurd himage (hnever image)
      · by_contra hfits
        exact hmisfit ⟨hstructure, by omega⟩
    · rintro ⟨hstructure, _⟩
      refine ⟨⟨?_, fun hlength ↦ absurd ⟨hstructure hlength, by omega⟩ hmisfit⟩, ?_, ?_, ?_⟩
      · rintro ⟨image, himage⟩
        exact absurd himage (hnever image)
      · exact fun image himage ↦ absurd himage (hnever image)
      · exact fun image himage ↦ absurd himage (hnever image)
      · exact fun image himage ↦ absurd himage (hnever image)

/-- The programs agree on the bare loader and a kernel of 50000 bytes. -/
theorem agrees_iff_bareLoader :
    (bootloaderpos bareLoader).toNat + (sizeRamcopy bareLoader).toNat ≤ 0x3000 ∧
      Agrees (fun _ _ ↦ 0) (fun _ _ ↦ 0) bareLoader (List.replicate 50000 0x1F) := by
  have hloader : (bootloaderpos bareLoader).toNat + (sizeRamcopy bareLoader).toNat ≤ 0x3000 := by
    rw [bootloaderpos_bareLoader, sizeRamcopy_bareLoader]
    decide
  refine ⟨hloader, (agrees_iff _ _ bareLoader _ hloader).mpr ⟨fun _ ↦ ?_, fun hlarge ↦ ?_⟩⟩
  · rw [sizeRamcopy_bareLoader]
    decide
  · rw [List.length_replicate] at hlarge
    omega

/-- The builder does not survive an empty loader file, although the empty kernel fits, and it
writes an image for a kernel of 4GB. -/
theorem romcopy_disagrees :
    ((bootloaderpos []).toNat + (sizeRamcopy []).toNat ≤ 0x3000 ∧
      ¬ ∃ image, romcopy (fun _ _ ↦ 0) (fun _ _ ↦ 0) [] [] = .written image) ∧
    ((bootloaderpos bareLoader).toNat + (sizeRamcopy bareLoader).toNat ≤ 0x3000 ∧
      ∃ image, romcopy (fun _ _ ↦ 0) (fun _ _ ↦ 0) bareLoader (List.replicate (2 ^ 32) 0) =
        .written image) := by
  have hstart : bootloaderpos [] = 0 := by decide +kernel
  have hsize : sizeRamcopy [] = 0 := by
    rw [sizeRamcopy, hstart]
    decide +kernel
  constructor
  · have hloader : (bootloaderpos []).toNat + (sizeRamcopy []).toNat ≤ 0x3000 := by
      rw [hstart, hsize]
      decide
    refine ⟨hloader, ?_⟩
    rcases romcopy_eq (fun _ _ ↦ 0) (fun _ _ ↦ 0) [] hloader with ⟨hstructure, _⟩ | ⟨_, hnever⟩
    · rw [hsize] at hstructure
      cases hstructure
    · rintro ⟨image, himage⟩
      exact hnever image himage
  · have hloader : (bootloaderpos bareLoader).toNat + (sizeRamcopy bareLoader).toNat ≤ 0x3000 := by
      rw [bootloaderpos_bareLoader, sizeRamcopy_bareLoader]
      decide
    refine ⟨hloader, ?_⟩
    rcases romcopy_eq (fun _ _ ↦ 0) (fun _ _ ↦ 0) (List.replicate (2 ^ 32) 0) hloader with
      ⟨_, _, hwritten⟩ | ⟨hmisfit, _⟩
    · exact ⟨_, hwritten⟩
    · refine absurd ⟨?_, ?_⟩ hmisfit
      · rw [sizeRamcopy_bareLoader]
        decide
      · rw [List.length_replicate]
        decide

end XBlast.Image
