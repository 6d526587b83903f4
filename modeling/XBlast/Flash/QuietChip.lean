import XBlast.Flash.Progress

/-!
# Chips that are never busy

The plainest chip: its state is its array of bytes, every command takes effect at once, and each
of the three erase commands is supported or ignored. The second chip ignores every erase command
from some bank selection on. Both keep the promises of `SectoredFlash`.
-/

set_option autoImplicit false
set_option relaxedAutoImplicit false

namespace XBlast.Flash

open Foundation Function

variable (flashType : KnownFlashType)

/-- Whether two addresses lie in the unit that a method erases. -/
def sameUnit (method : EraseSequenceMethod) (address position : ℕ) : Bool :=
  match method with
  | .sector =>
    if flashType.support4KBErase then position / 0x1000 == address / 0x1000
    else position / 0x10000 == address / 0x10000
  | .block => position / 0x10000 == address / 0x10000
  | .chip => position < flashType.lengthInBytes

variable (supports : EraseSequenceMethod → Bool)

/-- The array after an erase command. -/
def eraseCells (method : EraseSequenceMethod) (address : ℕ) (cells : Bytes) : Bytes :=
  fun position ↦
    if supports method && sameUnit flashType method address position then 0xFF
    else cells position

def quietChip : FlashLowLevel Bytes where
  readDevice := fun cells ↦ (some flashType, cells)
  deviceIsBusy := fun cells ↦ (false, cells)
  readByte := fun cells ↦ cells
  writeByte := fun byte address cells ↦ Function.update cells address (cells address &&& byte)
  inititiateSectorErase := eraseCells flashType supports .sector
  inititiateBlockErase := eraseCells flashType supports .block
  inititiateChipErase := eraseCells flashType supports .chip 0
  switchOSBank := fun _ cells ↦ cells

/-- A chip of 512KB that supports every command. -/
abbrev workingChip : FlashLowLevel Bytes := quietChip ⟨0x80000, true⟩ fun _ ↦ true

variable (flashType : KnownFlashType) (supports : EraseSequenceMethod → Bool)

theorem quietChip_initiateErase (method : EraseSequenceMethod) (address : ℕ)
    (cells : Bytes) :
    (quietChip flashType supports).initiateErase method address cells =
      eraseCells flashType supports method address cells := by
  cases method <;> rfl

/-- The promises of the chip. -/
def quietFlash : SectoredFlash (quietChip flashType supports) where
  content := id
  ready := fun _ ↦ True
  readByte_eq := fun _ _ _ ↦ rfl
  poll_content := fun _ ↦ rfl
  poll_ready := fun _ _ ↦ trivial
  readDevice_content := fun _ ↦ rfl
  readDevice_ready := fun _ _ ↦ trivial
  writeByte_other := fun _ _ _ _ _ hother ↦ update_of_ne hother _ _
  erase_content := by
    intro cells _ method address position
    rw [quietChip_initiateErase]
    simp only [eraseCells, id_eq]
    split_ifs with hunit
    · exact .inr rfl
    · exact .inl rfl
  flashType := flashType
  eraseUnit := fun method address ↦ {position | sameUnit flashType method address position = true}
  executes := fun method _ _ ↦ supports method = true
  readDevice_type := fun _ _ hanswer ↦ (Option.some.inj hanswer).symm
  switchOSBank_content := fun _ ↦ rfl
  switchOSBank_ready := fun _ _ ↦ trivial
  mem_sectorUnit := by
    intro address
    simp [sameUnit]
  sectorUnit_block := by
    intro address position hposition
    simp only [sameUnit, Set.mem_ofPred_eq] at hposition
    split_ifs at hposition with hsupport
    · have hsector := eq_of_beq hposition
      omega
    · exact eq_of_beq hposition
  sectorUnit_4KB := by
    intro hsupport address
    ext position
    simp [sameUnit, hsupport]
  blockUnit := by
    intro address
    ext position
    simp [sameUnit]
  chipUnit := by
    intro address
    ext position
    simp [sameUnit]
  sector_uniform := fun _ _ _ _ hexecutes ↦ hexecutes
  erase_executed := by
    intro cells _ method address hexecutes
    rw [quietChip_initiateErase]
    refine ⟨fun position hposition ↦ ?_, fun position hposition ↦ ?_⟩
    · exact if_pos (by rw [hexecutes]; exact hposition)
    · exact if_neg (by rw [hexecutes]; exact hposition)
  erase_ignored := by
    intro cells _ method address hignored
    rw [quietChip_initiateErase]
    funext position
    exact if_neg (by simp [hignored])

theorem quietChip_steady :
    SteadyChip (quietFlash flashType supports).toNorFlash fun _ ↦ True where
  neverBusy := fun _ _ ↦ rfl
  poll := fun _ _ ↦ trivial
  write := fun _ _ _ _ ↦ trivial
  erase := fun _ _ _ _ ↦ trivial
  writeByte_and := fun _ _ _ _ _ ↦ update_self _ _ _

theorem quietChip_erases (hchip : supports .chip = true) :
    ErasesChip (quietFlash flashType supports).toNorFlash flashType.lengthInBytes
      fun _ ↦ True := by
  intro cells _ _ address haddress
  exact if_pos (by simp [hchip, sameUnit, haddress])

/-! ### A chip that wears out -/

/-- The erase commands of a chip that has been selected so many times: the sector erase is never
supported, and the other two until the end of the chip's life. -/
def agingSupports (lifetime selections : ℕ) (method : EraseSequenceMethod) : Bool :=
  decide (method ≠ .sector ∧ selections ≤ lifetime)

/-- A quiet chip that counts how often its bank is selected. -/
def agingChip (flashType : KnownFlashType) (lifetime : ℕ) : FlashLowLevel (Bytes × ℕ) where
  readDevice := fun chip ↦ (some flashType, chip)
  deviceIsBusy := fun chip ↦ (false, chip)
  readByte := fun chip ↦ chip.1
  writeByte := fun byte address chip ↦
    (Function.update chip.1 address (chip.1 address &&& byte), chip.2)
  inititiateSectorErase := fun address chip ↦
    (eraseCells flashType (agingSupports lifetime chip.2) .sector address chip.1, chip.2)
  inititiateBlockErase := fun address chip ↦
    (eraseCells flashType (agingSupports lifetime chip.2) .block address chip.1, chip.2)
  inititiateChipErase := fun chip ↦
    (eraseCells flashType (agingSupports lifetime chip.2) .chip 0 chip.1, chip.2)
  switchOSBank := fun _ chip ↦ (chip.1, chip.2 + 1)

section

variable (lifetime : ℕ)

theorem agingChip_initiateErase (method : EraseSequenceMethod) (address : ℕ)
    (chip : Bytes × ℕ) :
    (agingChip flashType lifetime).initiateErase method address chip =
      ((quietChip flashType (agingSupports lifetime chip.2)).initiateErase method address chip.1,
        chip.2) := by
  cases method <;> rfl

/-- The chip keeps the promises that a quiet chip with its present commands keeps. -/
def agingFlash : SectoredFlash (agingChip flashType lifetime) where
  content := Prod.fst
  ready := fun _ ↦ True
  readByte_eq := fun _ _ _ ↦ rfl
  poll_content := fun _ ↦ rfl
  poll_ready := fun _ _ ↦ trivial
  readDevice_content := fun _ ↦ rfl
  readDevice_ready := fun _ _ ↦ trivial
  writeByte_other := fun _ _ _ _ _ hother ↦ update_of_ne hother _ _
  erase_content := by
    intro chip _ method address position
    rw [agingChip_initiateErase]
    exact (quietFlash flashType (agingSupports lifetime chip.2)).erase_content chip.1 trivial
      method address position
  flashType := flashType
  eraseUnit := (quietFlash flashType (agingSupports lifetime 0)).eraseUnit
  executes := fun method chip _ ↦ agingSupports lifetime chip.2 method = true
  readDevice_type := fun _ _ hanswer ↦ (Option.some.inj hanswer).symm
  switchOSBank_content := fun _ ↦ rfl
  switchOSBank_ready := fun _ _ ↦ trivial
  mem_sectorUnit := (quietFlash flashType (agingSupports lifetime 0)).mem_sectorUnit
  sectorUnit_block := (quietFlash flashType (agingSupports lifetime 0)).sectorUnit_block
  sectorUnit_4KB := (quietFlash flashType (agingSupports lifetime 0)).sectorUnit_4KB
  blockUnit := (quietFlash flashType (agingSupports lifetime 0)).blockUnit
  chipUnit := (quietFlash flashType (agingSupports lifetime 0)).chipUnit
  sector_uniform := fun _ _ _ _ hexecutes ↦ absurd rfl (of_decide_eq_true hexecutes).1
  erase_executed := by
    intro chip _ method address hexecutes
    rw [agingChip_initiateErase]
    exact (quietFlash flashType (agingSupports lifetime chip.2)).erase_executed chip.1 trivial
      method address hexecutes
  erase_ignored := by
    intro chip _ method address hignored
    rw [agingChip_initiateErase]
    exact (quietFlash flashType (agingSupports lifetime chip.2)).erase_ignored chip.1 trivial
      method address hignored

theorem agingChip_steady (selections : ℕ) :
    SteadyChip (agingFlash flashType lifetime).toNorFlash fun chip ↦ chip.2 = selections where
  neverBusy := fun _ _ ↦ rfl
  poll := fun _ hselected ↦ hselected
  write := fun _ hselected _ _ ↦ hselected
  erase := by
    intro chip hselected method address
    rw [agingChip_initiateErase]
    exact hselected
  writeByte_and := fun _ _ _ _ _ ↦ update_self _ _ _

theorem agingChip_erases {selections : ℕ} (hyoung : selections ≤ lifetime) :
    ErasesChip (agingFlash flashType lifetime).toNorFlash flashType.lengthInBytes
      fun chip ↦ chip.2 = selections := by
  rintro chip rfl _ address haddress
  exact if_pos (by simp [agingSupports, hyoung, sameUnit, haddress])

end

/-! ### A flash to start from -/

/-- An array that is zero but for the identifier of an empty image of version 2 that saves its
settings. -/
def floorImage (address : ℕ) : UInt8 :=
  if address = 0x3FFC5 then 2
  else if address = 0x3FFC9 then 1
  else if 0x3FFD0 ≤ address ∧ address < 0x3FFD9 then progName.getD (address - 0x3FFD0) 0
  else 0

theorem floorImage_savesAtFloor : SavesAtFloor (.ofImage floorImage) where
  headerVersion := .inr (by decide)
  hasProgName := by decide
  savesSettings := by decide
  biosSize := by decide

end XBlast.Flash
