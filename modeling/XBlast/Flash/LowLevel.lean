import Mathlib.Data.Set.Basic
import XBlast.Foundation.ByteImage

/-!
# Flash chips as the driver sees them

The driver reaches a flash chip through the operations of 'FlashLowLevel.c' only. A
`FlashLowLevel` is one behaviour of a chip under these operations: every poll and every command
may move the chip to a new state, and nothing says how. `NorFlash` and `SectoredFlash` are what
a chip promises; results about the driver assume no more of the chip than one of the two.
-/

set_option autoImplicit false
set_option relaxedAutoImplicit false

namespace XBlast.Flash

open Foundation

/-! ### The enumerations of the driver -/

inductive FlashOp where
  | idle | pendingOp | eraseInProgress | writeInProgress | verifyInProgress | readInProgress
  | completed | error
  deriving DecidableEq, Repr

inductive FlashErrorcodes where
  | noError | userAbort | failedErase | failedProgram | failedVerify | unknownFlash
  | writeProtect | fileSizeError | invalidUpdateFile | md5Mismatch | flashContentError
  | downgradeWarning | undefinedError
  deriving DecidableEq, Repr

inductive FlashTask where
  | noTask | writeBios | readBios | writeSettings | readSettings
  deriving DecidableEq, Repr

inductive FlashBank where
  | osBank | bank512 | bank256 | fullTSOPBank | splitTSOP0Bank | splitTSOP1Bank | noBank
  deriving DecidableEq, Repr

inductive EraseSequenceMethod where
  | sector | block | chip
  deriving DecidableEq, Repr

/-- The fields of `KNOWN_FLASH_TYPE` that the driver reads. -/
structure KnownFlashType where
  lengthInBytes : ℕ
  support4KBErase : Bool
  deriving DecidableEq, Repr

/-! ### The operations -/

/-- One behaviour of a chip under the operations of 'FlashLowLevel.c' and the bank switch. -/
structure FlashLowLevel (σ : Type*) where
  readDevice : σ → Option KnownFlashType × σ
  deviceIsBusy : σ → Bool × σ
  readByte : σ → Bytes
  writeByte : UInt8 → ℕ → σ → σ
  inititiateSectorErase : ℕ → σ → σ
  inititiateBlockErase : ℕ → σ → σ
  inititiateChipErase : σ → σ
  switchOSBank : FlashBank → σ → σ

variable {σ : Type*}

/-- The erase command of a method. The chip erase takes no address. -/
def FlashLowLevel.initiateErase (device : FlashLowLevel σ) :
    EraseSequenceMethod → ℕ → σ → σ
  | .sector, address => device.inititiateSectorErase address
  | .block, address => device.inititiateBlockErase address
  | .chip, _ => device.inititiateChipErase

/-! ### What a chip promises -/

/-- A chip that holds an array of bytes in NOR cells. `content` is the array once the running
operation is over and `ready` says that none is running. Programming a byte changes that byte
only: a sound cell keeps the bits that were set in both, and a worn one may keep anything.
Erasing leaves each byte as it is or sets it to `0xFF`, and a poll may answer busy any number of
times. A chip that is busy answers an identification with its status, so that a chip which
identifies itself is ready. -/
structure NorFlash (device : FlashLowLevel σ) where
  content : σ → Bytes
  ready : σ → Prop
  readByte_eq : ∀ chip, ready chip → ∀ address,
    device.readByte chip address = content chip address
  poll_content : ∀ chip, content (device.deviceIsBusy chip).2 = content chip
  poll_ready : ∀ chip, (device.deviceIsBusy chip).1 = false →
    ready (device.deviceIsBusy chip).2
  readDevice_content : ∀ chip, content (device.readDevice chip).2 = content chip
  readDevice_ready : ∀ chip, (device.readDevice chip).1.isSome →
    ready (device.readDevice chip).2
  writeByte_other : ∀ chip, ready chip → ∀ byte address position, position ≠ address →
    content (device.writeByte byte address chip) position = content chip position
  erase_content : ∀ chip, ready chip → ∀ method address position,
    content (device.initiateErase method address chip) position = content chip position ∨
      content (device.initiateErase method address chip) position = 0xFF

/-- A NOR chip whose erase commands act on aligned units. A command is either ignored or sets
its unit to `0xFF`: a 4KB sector on chips that support these and a part of one 64KB block on the
others, a 64KB block, or the whole chip. A chip supports the sector command everywhere or
nowhere. The bank that the operating system boots from is selected. -/
structure SectoredFlash (device : FlashLowLevel σ) extends NorFlash device where
  flashType : KnownFlashType
  eraseUnit : EraseSequenceMethod → ℕ → Set ℕ
  executes : EraseSequenceMethod → σ → ℕ → Prop
  readDevice_type : ∀ chip known, (device.readDevice chip).1 = some known → known = flashType
  switchOSBank_content : ∀ chip, content (device.switchOSBank .osBank chip) = content chip
  switchOSBank_ready : ∀ chip, ready chip → ready (device.switchOSBank .osBank chip)
  mem_sectorUnit : ∀ address, address ∈ eraseUnit .sector address
  sectorUnit_block : ∀ address, ∀ position ∈ eraseUnit .sector address,
    position / 0x10000 = address / 0x10000
  sectorUnit_4KB : flashType.support4KBErase = true → ∀ address,
    eraseUnit .sector address = {position | position / 0x1000 = address / 0x1000}
  blockUnit : ∀ address,
    eraseUnit .block address = {position | position / 0x10000 = address / 0x10000}
  chipUnit : ∀ address, eraseUnit .chip address = {position | position < flashType.lengthInBytes}
  sector_uniform : ∀ chip other address position,
    executes .sector chip address → executes .sector other position
  erase_executed : ∀ chip, ready chip → ∀ method address, executes method chip address →
    (∀ position ∈ eraseUnit method address,
      content (device.initiateErase method address chip) position = 0xFF) ∧
    ∀ position ∉ eraseUnit method address,
      content (device.initiateErase method address chip) position = content chip position
  erase_ignored : ∀ chip, ready chip → ∀ method address, ¬ executes method chip address →
    content (device.initiateErase method address chip) = content chip

end XBlast.Flash
