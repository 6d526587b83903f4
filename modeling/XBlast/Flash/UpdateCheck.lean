import XBlast.Flash.QuietChip

/-!
# What the check of an update hashes

`validateOSImage` hashes as many bytes of the image as an identifier of the second version says,
which is any number of 32 bits. The identifier is part of the image, and nothing compares its
number with the 256KB of the image or with the place of the stored hash, the last 16 bytes. Images
of the first version are hashed up to 252KB.
-/

set_option autoImplicit false
set_option relaxedAutoImplicit false

namespace XBlast.Flash

open Foundation

/-- The number of bytes of an image of 256KB that its check hashes, if it comes to that. -/
def hashedLength (inBuf : Bytes) : Option ℕ :=
  let biosID := BiosIdentifier.ofImage inBuf
  if biosID.hasProgName = false then none
  else if biosID.headerVersion = 2 then some biosID.biosSize.toNat
  else if biosID.headerVersion = 1 then some (256 * 1024 - 4 * 1024)
  else none

/-- The address of the stored hash in an image of 256KB. -/
def md5HashAddress : ℕ := 256 * 1024 - 16

/-- The check reads no byte behind the image and accepts it only with a hash of other bytes than
the hash itself. -/
structure ValidatesInside (md5 : Digest 16) (inBuf : Bytes) : Prop where
  inside : ∀ length, hashedLength inBuf = some length → ∀ index < length, index < 256 * 1024
  apart : validateOSImage md5 inBuf (256 * 1024) = .noError →
    ∀ length, hashedLength inBuf = some length →
      ∀ index < length, ¬ (md5HashAddress ≤ index ∧ index < md5HashAddress + 16)

variable {md5 : Digest 16} {inBuf : Bytes}

theorem hashedLength_eq_some {length : ℕ} :
    hashedLength inBuf = some length ↔
      (BiosIdentifier.ofImage inBuf).hasProgName = true ∧
        ((BiosIdentifier.ofImage inBuf).headerVersion = 2 ∧
            length = (BiosIdentifier.ofImage inBuf).biosSize.toNat ∨
          (BiosIdentifier.ofImage inBuf).headerVersion = 1 ∧ length = 252 * 1024) := by
  unfold hashedLength
  simp only
  split_ifs with hname hsecond hfirst
  · simp [hname]
  · simp [hname, hsecond, eq_comm]
  · simp [hname, hfirst, eq_comm]
  · simp [hname, hsecond, hfirst]

/-- The check of an image depends on its identifier and on the hash of the bytes that it counts
out. -/
theorem validateOSImage_of_hashedLength {length : ℕ} (hlength : hashedLength inBuf = some length) :
    validateOSImage md5 inBuf (256 * 1024) =
      if md5 ((List.range length).map inBuf) = (BiosIdentifier.ofImage inBuf).md5Hash then
        if (BiosIdentifier.ofImage inBuf).headerVersion = 2 then .noError else .downgradeWarning
      else .md5Mismatch := by
  obtain ⟨hname, ⟨hversion, rfl⟩ | ⟨hversion, rfl⟩⟩ := hashedLength_eq_some.mp hlength
  · simp [validateOSImage, hname, hversion]
  · simp [validateOSImage, hname, hversion]

/-- The check stays inside the image and off the stored hash exactly if the size in an identifier
of the second version is at most 256KB, and at most the address of the hash when the hash is
right. -/
theorem validatesInside_iff (md5 : Digest 16) (inBuf : Bytes) :
    ValidatesInside md5 inBuf ↔
      ((BiosIdentifier.ofImage inBuf).hasProgName = true →
        (BiosIdentifier.ofImage inBuf).headerVersion = 2 →
        (BiosIdentifier.ofImage inBuf).biosSize.toNat ≤ 256 * 1024 ∧
        (md5 ((List.range (BiosIdentifier.ofImage inBuf).biosSize.toNat).map inBuf) =
            (BiosIdentifier.ofImage inBuf).md5Hash →
          (BiosIdentifier.ofImage inBuf).biosSize.toNat ≤ md5HashAddress)) := by
  constructor
  · intro hinside hname hversion
    have hlength := hashedLength_eq_some.mpr ⟨hname, .inl ⟨hversion, rfl⟩⟩
    refine ⟨?_, fun hhash ↦ ?_⟩
    · by_contra hlarge
      exact absurd (hinside.inside _ hlength (256 * 1024) (lt_of_not_ge hlarge))
        (lt_irrefl _)
    · have haccepted : validateOSImage md5 inBuf (256 * 1024) = .noError := by
        rw [validateOSImage_of_hashedLength hlength, if_pos hhash, if_pos hversion]
      by_contra hlarge
      exact hinside.apart haccepted _ hlength md5HashAddress (lt_of_not_ge hlarge)
        ⟨le_rfl, by omega⟩
  · intro hcondition
    constructor
    · intro length hlength index hindex
      obtain ⟨hname, ⟨hversion, rfl⟩ | ⟨-, rfl⟩⟩ := hashedLength_eq_some.mp hlength
      · exact lt_of_lt_of_le hindex (hcondition hname hversion).1
      · omega
    · rintro haccepted length hlength index hindex ⟨hhash, -⟩
      rw [validateOSImage_of_hashedLength hlength] at haccepted
      obtain ⟨hname, ⟨hversion, rfl⟩ | ⟨hversion, rfl⟩⟩ := hashedLength_eq_some.mp hlength
      · split_ifs at haccepted with hequal
        exact absurd ((hcondition hname hversion).2 hequal) (by omega)
      · rw [hversion] at haccepted
        split_ifs at haccepted with hequal hsecond
        exact absurd hsecond (by decide)

/-- An image of the second version with the largest size that the identifier can hold. -/
def boundlessImage (address : ℕ) : UInt8 :=
  if 0x3FFCC ≤ address ∧ address < 0x3FFD0 then 0xFF else floorImage address

/-- Its check goes on reading behind the image. -/
theorem boundlessImage_not_validatesInside :
    hashedLength boundlessImage = some 0xFFFFFFFF ∧
      ¬ ValidatesInside (fun _ _ ↦ 0) boundlessImage := by
  have hlength : hashedLength boundlessImage = some 0xFFFFFFFF := by decide
  refine ⟨hlength, fun hinside ↦ ?_⟩
  exact absurd (hinside.inside _ hlength (256 * 1024) (by decide)) (by decide)

end XBlast.Flash
