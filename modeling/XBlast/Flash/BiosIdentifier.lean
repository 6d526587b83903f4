import XBlast.Flash.LowLevel
import XBlast.Flash.Settings

/-!
# The BIOS identifier and the place of the settings

The last 63 bytes of a 256KB image are its `BiosIdentifier`. The driver derives from it where in
the image the settings are kept, and the update check which part of the image its hash covers.
The hash is a parameter: any function from a list of bytes to 16 bytes.
-/

set_option autoImplicit false
set_option relaxedAutoImplicit false

namespace XBlast.Flash

open Foundation

/-- The bytes of `struct BiosIdentifier`. -/
@[ext]
structure BiosIdentifier where
  bytes : Packed 63
  deriving DecidableEq

/-- `PROG_NAME`, which is "XBlast OS". -/
def progName : List UInt8 := [0x58, 0x42, 0x6C, 0x61, 0x73, 0x74, 0x20, 0x4F, 0x53]

variable (biosID : BiosIdentifier)

namespace BiosIdentifier

/-- The bytes of the structure laid out from address zero on. -/
def image (biosID : BiosIdentifier) : Bytes := biosID.bytes.image

def headerVersion : UInt8 := biosID.image 4

def option1 : UInt8 := biosID.image 8

def biosSize : UInt32 := littleEndian32 biosID.image 11

def name (index : ℕ) : UInt8 := biosID.image (15 + index)

def md5Hash : Packed 16 := readPacked 16 biosID.image 47

/-- The comparison of the start of `Name` with `PROG_NAME`. -/
def hasProgName : Bool :=
  (List.range progName.length).map biosID.name == progName

def savesSettings : Bool := biosID.option1 &&& 0x01 != 0

/-- The identifier in the last bytes of the first 256KB. -/
def ofImage (source : Bytes) : BiosIdentifier := ⟨readPacked 63 source 0x3FFC1⟩

theorem ofImage_image (source : Bytes) {index : ℕ} (hindex : index < 63) :
    (ofImage source).image index = source (0x3FFC1 + index) :=
  Packed.image_of_lt _ hindex

theorem ofImage_congr {source other : Bytes}
    (hbytes : ∀ address, 0x3FFC1 ≤ address → address < 0x40000 →
      source address = other address) : ofImage source = ofImage other := by
  rw [ofImage, ofImage, readPacked_congr fun index hindex ↦ hbytes (0x3FFC1 + index) (by omega)
    (by omega)]

end BiosIdentifier

/-! ### Where the settings are kept -/

/-- The offset of the settings in the first 256KB, zero when they are not saved. The last branch
takes the remainder by 4KB and not the next multiple. -/
def getXBlastOSSettingStartingOffset : ℕ :=
  if biosID.headerVersion = 2 ∨ biosID.headerVersion = 1 then
    if biosID.hasProgName then
      if biosID.savesSettings then
        let settingsOffset := biosID.biosSize.toNat
        -- No proper offset in the identifier: no settings are saved.
        if 256 * 1024 ≤ settingsOffset then 0
        -- Never below the 192KB mark.
        else if settingsOffset < 3 * 64 * 1024 then 3 * 64 * 1024
        else (settingsOffset + 4 * 1024 - 1) % (4 * 1024)
      else 0
    else 0
  else 0

/-- The identifiers whose settings stay in the last 64KB of the 256KB image. -/
structure SavesAtFloor (biosID : BiosIdentifier) : Prop where
  headerVersion : biosID.headerVersion = 1 ∨ biosID.headerVersion = 2
  hasProgName : biosID.hasProgName = true
  savesSettings : biosID.savesSettings = true
  biosSize : biosID.biosSize.toNat < 0x30000

theorem SavesAtFloor.startingOffset {biosID : BiosIdentifier} (hfloor : SavesAtFloor biosID) :
    getXBlastOSSettingStartingOffset biosID = 0x30000 := by
  have hsize := hfloor.biosSize
  rw [getXBlastOSSettingStartingOffset, if_pos hfloor.headerVersion.symm,
    if_pos hfloor.hasProgName, if_pos hfloor.savesSettings]
  exact (if_neg (by omega)).trans (if_pos (by omega))

/-- The settings are kept at 192KB, or the remainder puts them into the first 4KB. -/
theorem startingOffset_cases :
    getXBlastOSSettingStartingOffset biosID = 0x30000 ∨
      getXBlastOSSettingStartingOffset biosID < 0x1000 := by
  simp only [getXBlastOSSettingStartingOffset]
  split_ifs with hversion hname hsaves hlarge hfloor <;> omega

/-! ### The check of an update -/

/-- The check of an update file: its size, its name, its header version and the hash of the part
that the version says is hashed. -/
def validateOSImage (md5 : Digest 16) (inBuf : Bytes) (size : ℕ) :
    FlashErrorcodes :=
  if size ≠ 256 * 1024 then .fileSizeError
  else
    let biosID := BiosIdentifier.ofImage inBuf
    if biosID.hasProgName = false then .invalidUpdateFile
    else if biosID.headerVersion = 2 then
      if md5 ((List.range biosID.biosSize.toNat).map inBuf) = biosID.md5Hash then .noError
      else .md5Mismatch
    else if biosID.headerVersion = 1 then
      if md5 ((List.range (256 * 1024 - 4 * 1024)).map inBuf) = biosID.md5Hash then
        .downgradeWarning
      else .md5Mismatch
    else .invalidUpdateFile

end XBlast.Flash
