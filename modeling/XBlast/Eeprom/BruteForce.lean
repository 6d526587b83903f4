import XBlast.Eeprom.GameRegion

/-!
# Repairing an image by trying

`bruteForceFixEEprom` tries every value for every byte of the sealed section and keeps the first
change with which the image opens. It finds a repair whenever a single byte is damaged
(`bruteForceFixEEprom_spec`). The menu entry that should call it asks first whether the version of
the image is smaller than the first one and larger than the last one. No number is, so the search is
never started, and what is meant holds exactly for the images that need no repair or have none
(`bruteForceFixDisplayresult_repairs_iff`).
-/

set_option autoImplicit false
set_option relaxedAutoImplicit false

namespace XBlast.Eeprom

open Foundation

section

variable (hmac : Hmac)

/-- The positions and values in the order in which they are tried. -/
def candidates : List (ℕ × ℕ) :=
  (List.range 0x30).flatMap fun bytepos ↦ (List.range 0x100).map fun bytecombinations ↦
    (bytepos, bytecombinations)

variable (editeeprom : EepromData)

/-- The image with one byte changed. -/
def withByte (candidate : ℕ × ℕ) : EepromData :=
  editeeprom.write candidate.1 [UInt8.ofNat candidate.2]

def bruteForceFixEEprom : Bool × EepromData :=
  match candidates.find? fun candidate ↦
      (decryptEEPROMData hmac (withByte editeeprom candidate)).1.InRange with
  | some candidate => (true, withByte editeeprom candidate)
  | none => (false, editeeprom)

/-- The edit buffer after the menu entry. -/
def bruteForceFixDisplayresult : EepromData :=
  let eepromVersion := (decryptEEPROMData hmac editeeprom).1
  if eepromVersion.value < EncryptVersion.v1_0.value ∧
      EncryptVersion.v1_6.value < eepromVersion.value then
    (bruteForceFixEEprom hmac editeeprom).2
  else
    editeeprom

/-- The image opens with some version. -/
def Opens (eeprom : EepromData) : Prop := (decryptEEPROMData hmac eeprom).1 ≠ .invalid

/-- Some value of one byte of the sealed section makes the image open. -/
def Repairable (eeprom : EepromData) : Prop :=
  ∃ position < 0x30, ∃ value : UInt8, Opens hmac (eeprom.write position [value])

/-- One byte of the sealed section differs and nothing else. -/
def DiffersInOneByte (eeprom other : EepromData) : Prop :=
  ∃ index : Fin 256, index.val < 0x30 ∧ eeprom index ≠ other index ∧
    ∀ place, place ≠ index → eeprom place = other place

/-- What a repair should make of an image: one that opens or cannot be repaired stays as it is, and
any other opens after the change of one byte. -/
def Repairs (eeprom repaired : EepromData) : Prop :=
  (Opens hmac eeprom → repaired = eeprom) ∧
  (¬Opens hmac eeprom → Repairable hmac eeprom →
    Opens hmac repaired ∧ DiffersInOneByte repaired eeprom) ∧
  (¬Opens hmac eeprom → ¬Repairable hmac eeprom → repaired = eeprom)

end

variable {hmac : Hmac} {eeprom : EepromData}

theorem mem_candidates {candidate : ℕ × ℕ} :
    candidate ∈ candidates ↔ candidate.1 < 0x30 ∧ candidate.2 < 0x100 := by
  obtain ⟨position, value⟩ := candidate
  simp [candidates]

theorem write_one (position : ℕ) (value : UInt8) (place : Fin 256) :
    eeprom.write position [value] place = if place.val = position then value else eeprom place := by
  by_cases hplace : place.val = position
  · rw [if_pos hplace, Packed.write, readPacked, zero_add, hplace,
      overlay_inside le_rfl (Nat.lt_succ_self position), Nat.sub_self]
    rfl
  · rw [if_neg hplace]
    exact eeprom.write_outside (by simp only [List.length_singleton]; omega)

/-- A change that makes an image open changes one byte of it. -/
theorem differsInOneByte_write {position : ℕ} (hposition : position < 0x30) {value : UInt8}
    (hclosed : ¬Opens hmac eeprom) (hopens : Opens hmac (eeprom.write position [value])) :
    DiffersInOneByte (eeprom.write position [value]) eeprom := by
  have hsize : position < 256 := by omega
  refine ⟨⟨position, hsize⟩, hposition, fun hsame ↦ hclosed ?_, fun place hplace ↦ ?_⟩
  · -- With the old value written back nothing changes, and the image would still be closed.
    rw [write_one, if_pos rfl] at hsame
    have hwrite : eeprom.write position [value] = eeprom := by
      funext place
      rw [write_one, hsame]
      split_ifs with hplace
      · exact congrArg eeprom (Fin.ext hplace.symm)
      · rfl
    rwa [hwrite] at hopens
  · rw [write_one, if_neg fun heq ↦ hplace (Fin.ext heq)]

/-- What the search can end with. -/
theorem bruteForceFixEEprom_cases (hmac : Hmac)
    (eeprom : EepromData) :
    (∃ position < 0x30, ∃ value : UInt8, Opens hmac (eeprom.write position [value]) ∧
      bruteForceFixEEprom hmac eeprom = (true, eeprom.write position [value])) ∨
    (¬Repairable hmac eeprom ∧ bruteForceFixEEprom hmac eeprom = (false, eeprom)) := by
  rw [bruteForceFixEEprom]
  cases hfind : candidates.find? fun candidate ↦
      (decryptEEPROMData hmac (withByte eeprom candidate)).1.InRange with
  | none =>
    refine .inr ⟨?_, rfl⟩
    rintro ⟨position, hposition, value, hopens⟩
    have hcandidate : (position, value.toNat) ∈ candidates :=
      mem_candidates.mpr ⟨hposition, value.toNat_lt⟩
    refine absurd (decide_eq_true ?_) (List.find?_eq_none.mp hfind _ hcandidate)
    rw [EncryptVersion.inRange_iff, withByte, UInt8.ofNat_toNat]
    exact hopens
  | some candidate =>
    have hposition := (mem_candidates.mp (List.mem_of_find?_eq_some hfind)).1
    have hrange : (decryptEEPROMData hmac (withByte eeprom candidate)).1.InRange := by
      simpa using List.find?_some hfind
    exact .inl ⟨candidate.1, hposition, _, EncryptVersion.inRange_iff.mp hrange, rfl⟩

/-- The search repairs an image that does not open, if a single byte is at fault. -/
theorem bruteForceFixEEprom_spec (hclosed : ¬Opens hmac eeprom) :
    Repairs hmac eeprom (bruteForceFixEEprom hmac eeprom).2 := by
  refine ⟨fun hopens ↦ absurd hopens hclosed, fun _ hrepairable ↦ ?_, fun _ hbroken ↦ ?_⟩
  · obtain ⟨position, hposition, value, hopens, hresult⟩ | ⟨hbroken, -⟩ :=
      bruteForceFixEEprom_cases hmac eeprom
    · rw [hresult]
      exact ⟨hopens, differsInOneByte_write hposition hclosed hopens⟩
    · exact absurd hrepairable hbroken
  · obtain ⟨position, hposition, value, hopens, -⟩ | ⟨-, hresult⟩ :=
      bruteForceFixEEprom_cases hmac eeprom
    · exact absurd ⟨position, hposition, value, hopens⟩ hbroken
    · rw [hresult]

/-- No version is below the first and above the last, so nothing is ever changed. -/
theorem bruteForceFixDisplayresult_eq (hmac : Hmac)
    (eeprom : EepromData) : bruteForceFixDisplayresult hmac eeprom = eeprom := by
  refine if_neg ?_
  rintro ⟨hlow, hhigh⟩
  have horder : EncryptVersion.v1_0.value < EncryptVersion.v1_6.value := by decide
  omega

/-- The menu entry does what it should just in case that the image opens or that no change of one
byte would make it open. -/
theorem bruteForceFixDisplayresult_repairs_iff
    (hmac : Hmac) (eeprom : EepromData) :
    Repairs hmac eeprom (bruteForceFixDisplayresult hmac eeprom) ↔
      Opens hmac eeprom ∨ ¬Repairable hmac eeprom := by
  rw [bruteForceFixDisplayresult_eq]
  constructor
  · intro hrepairs
    by_contra hneeded
    obtain ⟨hclosed, hrepairable⟩ := not_or.mp hneeded
    exact hclosed (hrepairs.2.1 hclosed (not_not.mp hrepairable)).1
  · rintro (hopens | hbroken)
    · exact ⟨fun _ ↦ rfl, fun hclosed ↦ absurd hopens hclosed, fun _ _ ↦ rfl⟩
    · exact ⟨fun _ ↦ rfl, fun _ hrepairable ↦ absurd hrepairable hbroken, fun _ _ ↦ rfl⟩

theorem firstVersionImage_kept :
    Repairs versionHmac firstVersionImage
      (bruteForceFixDisplayresult versionHmac firstVersionImage) :=
  (bruteForceFixDisplayresult_repairs_iff versionHmac firstVersionImage).mpr
    (.inl firstVersionImage_opens)

/-- The first byte of the hash is damaged. -/
def damagedImage : EepromData := firstVersionImage.write 0 [0]

theorem damagedImage_repaired : damagedImage.write 0 [0x0A] = firstVersionImage := by
  funext place
  rw [damagedImage, write_one, write_one]
  split_ifs with hplace
  · rfl
  · rfl

theorem damagedImage_closed : ¬Opens versionHmac damagedImage := by
  intro hopens
  obtain ⟨version, hversion, hvalidates⟩ := decryptEEPROMData_ne_invalid_iff.mp hopens
  rw [validates_versionHmac_iff] at hvalidates
  cases version with
  | invalid => exact hversion rfl
  | _ => exact absurd hvalidates (by decide)

/-- The search repairs the damage. -/
theorem damagedImage_searched :
    Repairs versionHmac damagedImage (bruteForceFixEEprom versionHmac damagedImage).2 :=
  bruteForceFixEEprom_spec damagedImage_closed

/-- The damage could be repaired, but the image is left as it is. -/
theorem damagedImage_not_repaired :
    ¬Opens versionHmac damagedImage ∧ Repairable versionHmac damagedImage ∧
      bruteForceFixDisplayresult versionHmac damagedImage = damagedImage := by
  refine ⟨damagedImage_closed, ⟨0, by decide, 0x0A, ?_⟩, bruteForceFixDisplayresult_eq _ _⟩
  rw [damagedImage_repaired]
  exact firstVersionImage_opens

end XBlast.Eeprom
