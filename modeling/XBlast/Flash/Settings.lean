import Mathlib.Data.Fintype.Pi
import XBlast.Foundation.ByteImage

/-!
# The settings structure and its checksum

`_LPCmodSettings` is a packed structure of 3840 bytes: a version byte, the OS and LCD settings,
an EEPROM backup, the boot script and, in the last four bytes, the CRC-32 of everything before
it. The text fields have 24 bytes, since `sizeof('\0')` is the size of an `int`.
-/

set_option autoImplicit false
set_option relaxedAutoImplicit false

namespace XBlast.Flash

open Foundation

/-! ### The checksum -/

/-- The feedback terms of the CRC polynomial `0xedb88320`. -/
def crc32Table : List UInt32 :=
  [0x00000000, 0x77073096, 0xee0e612c, 0x990951ba, 0x076dc419, 0x706af48f, 0xe963a535,
   0x9e6495a3, 0x0edb8832, 0x79dcb8a4, 0xe0d5e91e, 0x97d2d988, 0x09b64c2b, 0x7eb17cbd,
   0xe7b82d07, 0x90bf1d91, 0x1db71064, 0x6ab020f2, 0xf3b97148, 0x84be41de, 0x1adad47d,
   0x6ddde4eb, 0xf4d4b551, 0x83d385c7, 0x136c9856, 0x646ba8c0, 0xfd62f97a, 0x8a65c9ec,
   0x14015c4f, 0x63066cd9, 0xfa0f3d63, 0x8d080df5, 0x3b6e20c8, 0x4c69105e, 0xd56041e4,
   0xa2677172, 0x3c03e4d1, 0x4b04d447, 0xd20d85fd, 0xa50ab56b, 0x35b5a8fa, 0x42b2986c,
   0xdbbbc9d6, 0xacbcf940, 0x32d86ce3, 0x45df5c75, 0xdcd60dcf, 0xabd13d59, 0x26d930ac,
   0x51de003a, 0xc8d75180, 0xbfd06116, 0x21b4f4b5, 0x56b3c423, 0xcfba9599, 0xb8bda50f,
   0x2802b89e, 0x5f058808, 0xc60cd9b2, 0xb10be924, 0x2f6f7c87, 0x58684c11, 0xc1611dab,
   0xb6662d3d, 0x76dc4190, 0x01db7106, 0x98d220bc, 0xefd5102a, 0x71b18589, 0x06b6b51f,
   0x9fbfe4a5, 0xe8b8d433, 0x7807c9a2, 0x0f00f934, 0x9609a88e, 0xe10e9818, 0x7f6a0dbb,
   0x086d3d2d, 0x91646c97, 0xe6635c01, 0x6b6b51f4, 0x1c6c6162, 0x856530d8, 0xf262004e,
   0x6c0695ed, 0x1b01a57b, 0x8208f4c1, 0xf50fc457, 0x65b0d9c6, 0x12b7e950, 0x8bbeb8ea,
   0xfcb9887c, 0x62dd1ddf, 0x15da2d49, 0x8cd37cf3, 0xfbd44c65, 0x4db26158, 0x3ab551ce,
   0xa3bc0074, 0xd4bb30e2, 0x4adfa541, 0x3dd895d7, 0xa4d1c46d, 0xd3d6f4fb, 0x4369e96a,
   0x346ed9fc, 0xad678846, 0xda60b8d0, 0x44042d73, 0x33031de5, 0xaa0a4c5f, 0xdd0d7cc9,
   0x5005713c, 0x270241aa, 0xbe0b1010, 0xc90c2086, 0x5768b525, 0x206f85b3, 0xb966d409,
   0xce61e49f, 0x5edef90e, 0x29d9c998, 0xb0d09822, 0xc7d7a8b4, 0x59b33d17, 0x2eb40d81,
   0xb7bd5c3b, 0xc0ba6cad, 0xedb88320, 0x9abfb3b6, 0x03b6e20c, 0x74b1d29a, 0xead54739,
   0x9dd277af, 0x04db2615, 0x73dc1683, 0xe3630b12, 0x94643b84, 0x0d6d6a3e, 0x7a6a5aa8,
   0xe40ecf0b, 0x9309ff9d, 0x0a00ae27, 0x7d079eb1, 0xf00f9344, 0x8708a3d2, 0x1e01f268,
   0x6906c2fe, 0xf762575d, 0x806567cb, 0x196c3671, 0x6e6b06e7, 0xfed41b76, 0x89d32be0,
   0x10da7a5a, 0x67dd4acc, 0xf9b9df6f, 0x8ebeeff9, 0x17b7be43, 0x60b08ed5, 0xd6d6a3e8,
   0xa1d1937e, 0x38d8c2c4, 0x4fdff252, 0xd1bb67f1, 0xa6bc5767, 0x3fb506dd, 0x48b2364b,
   0xd80d2bda, 0xaf0a1b4c, 0x36034af6, 0x41047a60, 0xdf60efc3, 0xa867df55, 0x316e8eef,
   0x4669be79, 0xcb61b38c, 0xbc66831a, 0x256fd2a0, 0x5268e236, 0xcc0c7795, 0xbb0b4703,
   0x220216b9, 0x5505262f, 0xc5ba3bbe, 0xb2bd0b28, 0x2bb45a92, 0x5cb36a04, 0xc2d7ffa7,
   0xb5d0cf31, 0x2cd99e8b, 0x5bdeae1d, 0x9b64c2b0, 0xec63f226, 0x756aa39c, 0x026d930a,
   0x9c0906a9, 0xeb0e363f, 0x72076785, 0x05005713, 0x95bf4a82, 0xe2b87a14, 0x7bb12bae,
   0x0cb61b38, 0x92d28e9b, 0xe5d5be0d, 0x7cdcefb7, 0x0bdbdf21, 0x86d3d2d4, 0xf1d4e242,
   0x68ddb3f8, 0x1fda836e, 0x81be16cd, 0xf6b9265b, 0x6fb077e1, 0x18b74777, 0x88085ae6,
   0xff0f6a70, 0x66063bca, 0x11010b5c, 0x8f659eff, 0xf862ae69, 0x616bffd3, 0x166ccf45,
   0xa00ae278, 0xd70dd2ee, 0x4e048354, 0x3903b3c2, 0xa7672661, 0xd06016f7, 0x4969474d,
   0x3e6e77db, 0xaed16a4a, 0xd9d65adc, 0x40df0b66, 0x37d83bf0, 0xa9bcae53, 0xdebb9ec5,
   0x47b2cf7f, 0x30b5ffe9, 0xbdbdf21c, 0xcabac28a, 0x53b39330, 0x24b4a3a6, 0xbad03605,
   0xcdd70693, 0x54de5729, 0x23d967bf, 0xb3667a2e, 0xc4614ab8, 0x5d681b02, 0x2a6f2b94,
   0xb40bbe37, 0xc30c8ea1, 0x5a05df1b, 0x2d02ef8d]

def updc32 (octet : UInt8) (crc : UInt32) : UInt32 :=
  crc32Table.getD ((crc ^^^ octet.toUInt32) &&& 0xFF).toNat 0 ^^^ (crc >>> 8)

/-- The checksum register after the first `len` bytes of a buffer. The register is not
complemented at the end. -/
def crc32buf (buf : Bytes) (len : ℕ) : UInt32 :=
  (List.range len).foldl (fun state nbytes ↦ updc32 (buf nbytes) state) 0xFFFFFFFF

@[simp]
theorem crc32buf_succ (buf : Bytes) (len : ℕ) :
    crc32buf buf (len + 1) = updc32 (buf len) (crc32buf buf len) := by
  simp only [crc32buf, List.range_succ, List.foldl_append, List.foldl_cons, List.foldl_nil]

/-- The checksum depends on the bytes it covers and on nothing else. -/
theorem crc32buf_congr {buf other : Bytes} {len : ℕ}
    (hbytes : ∀ index < len, buf index = other index) : crc32buf buf len = crc32buf other len := by
  induction len with
  | zero => rfl
  | succ len ih =>
    rw [crc32buf_succ, crc32buf_succ, hbytes len (Nat.lt_succ_self len),
      ih fun index hindex ↦ hbytes index (Nat.lt_succ_of_lt hindex)]

/-! ### The structure -/

/-- The bytes of `_LPCmodSettings`. -/
@[ext]
structure LPCmodSettings where
  bytes : Packed 3840
  deriving DecidableEq

namespace LPCmodSettings

/-- The bytes of the structure laid out from address zero on. -/
def image (settings : LPCmodSettings) : Bytes := settings.bytes.image

variable (settings : LPCmodSettings)

def settingsVersion : UInt8 := settings.image 0

def crc32Value : UInt32 := littleEndian32 settings.image 3836

def setCrc32Value (value : UInt32) : LPCmodSettings where
  bytes := fun index ↦ if 3836 ≤ index.val then byteOf32 value (index.val - 3836)
    else settings.bytes index

/-- The checksum of the structure without its last field. -/
def calculateSettingsStructCRC32Value : UInt32 :=
  crc32buf settings.image 3836

/-- The settings with the checksum of their other fields in `crc32Value`. -/
def withCrc : LPCmodSettings :=
  settings.setCrc32Value settings.calculateSettingsStructCRC32Value

variable {settings other : LPCmodSettings}

theorem image_of_lt {index : ℕ} (hindex : index < 3840) :
    settings.image index = settings.bytes ⟨index, hindex⟩ :=
  settings.bytes.image_of_lt hindex

theorem eq_of_image_eq (hbytes : ∀ index < 3840, settings.image index = other.image index) :
    settings = other := by
  ext index
  rw [← image_of_lt index.isLt, ← image_of_lt index.isLt, hbytes index index.isLt]

theorem setCrc32Value_image {value : UInt32} {index : ℕ} (hindex : index < 3836) :
    (settings.setCrc32Value value).image index = settings.image index := by
  rw [image_of_lt (by omega), image_of_lt (by omega), setCrc32Value]
  exact if_neg (by simpa using hindex)

@[simp]
theorem crc32Value_setCrc32Value (value : UInt32) :
    (settings.setCrc32Value value).crc32Value = value := by
  refine littleEndian32_eq fun index hindex ↦ ?_
  rw [image_of_lt (by omega), setCrc32Value]
  simp

@[simp]
theorem calculateSettingsStructCRC32Value_setCrc32Value (value : UInt32) :
    (settings.setCrc32Value value).calculateSettingsStructCRC32Value =
      settings.calculateSettingsStructCRC32Value :=
  crc32buf_congr fun _ hindex ↦ setCrc32Value_image hindex

@[simp]
theorem setCrc32Value_setCrc32Value (value newer : UInt32) :
    (settings.setCrc32Value value).setCrc32Value newer = settings.setCrc32Value newer := by
  ext index
  simp only [setCrc32Value]
  split_ifs with hcrc
  · rfl
  · rfl

theorem withCrc_image {index : ℕ} (hindex : index < 3836) :
    settings.withCrc.image index = settings.image index :=
  setCrc32Value_image hindex

@[simp]
theorem settingsVersion_withCrc : settings.withCrc.settingsVersion = settings.settingsVersion :=
  withCrc_image (by omega)

@[simp]
theorem crc32Value_withCrc :
    settings.withCrc.crc32Value = settings.calculateSettingsStructCRC32Value :=
  crc32Value_setCrc32Value _

@[simp]
theorem calculateSettingsStructCRC32Value_withCrc :
    settings.withCrc.calculateSettingsStructCRC32Value =
      settings.calculateSettingsStructCRC32Value :=
  calculateSettingsStructCRC32Value_setCrc32Value _

@[simp]
theorem withCrc_setCrc32Value (value : UInt32) :
    (settings.setCrc32Value value).withCrc = settings.withCrc := by
  rw [withCrc, calculateSettingsStructCRC32Value_setCrc32Value, setCrc32Value_setCrc32Value,
    withCrc]

/-- Writing the checksum a second time changes nothing. -/
@[simp]
theorem withCrc_withCrc : settings.withCrc.withCrc = settings.withCrc :=
  withCrc_setCrc32Value _

/-- Settings that have their checksum are left alone. -/
theorem withCrc_eq_self
    (hcrc : settings.calculateSettingsStructCRC32Value = settings.crc32Value) :
    settings.withCrc = settings := by
  ext index
  rw [withCrc, hcrc, setCrc32Value]
  by_cases hlast : 3836 ≤ index.val
  · have hindex := index.isLt
    simp only [if_pos hlast]
    rw [crc32Value, byteOf32_littleEndian32 _ _ (by omega), Nat.add_sub_cancel' hlast,
      image_of_lt hindex]
  · simp only [if_neg hlast]

end LPCmodSettings

/-! ### Default values -/

/-- The values of `fHasHardware`. -/
inductive SysconId where
  | unknown | v1 | v1TSOP | xt | xtTSOP | xx1 | xx2 | xxOPX | xx3 | x3 | cham | unknownTSOP
  deriving DecidableEq, Repr

/-- What the program knows about the console it runs on. -/
structure Hardware where
  fHasHardware : SysconId
  isPreEdition : Bool
  isXBE : Bool
  enableVGA : Bool

/-- A first console without the chip. -/
def plainHardware : Hardware := ⟨.v1, false, false, false⟩

variable (hardware : Hardware)

namespace Hardware

def isXBlastOnTSOP : Bool :=
  hardware.fHasHardware == .v1TSOP || hardware.fHasHardware == .xtTSOP

def isXBlastOnLPC : Bool :=
  hardware.fHasHardware == .v1 || hardware.fHasHardware == .xt

def isXBlastCompatible : Bool :=
  hardware.isXBlastOnLPC || hardware.isXBlastOnTSOP

def isXecuter3 : Bool := hardware.fHasHardware == .x3

end Hardware

/-- The fields that the defaults set, each with its offset in the structure. -/
def defaultFields : List (ℕ × List UInt8) :=
  let emptyText := List.replicate 21 0
  [(0, [1]),
   -- activeBank, altBank, Quickboot, selectedMenuItem, fanSpeed, bootTimeout, LEDColor
   (1, [if hardware.isXBlastCompatible then 0x84 else 0xFF, 0x87, 0, 0x84, 20, 0, 1]),
   -- TSOPcontrol, TSOPhide, runBankScript, runBootScript, enableVGA, backgroundColorPreset
   (8, [0, 0, 0, 0, if hardware.enableVGA then 1 else 0, if hardware.isPreEdition then 1 else 0]),
   -- enableNetwork, useDHCP and the static addresses
   (110, [1, 1, 192, 168, 0, 250, 192, 168, 0, 1, 255, 255, 255, 0,
     192, 168, 0, 1, 192, 168, 0, 1]),
   -- the LCD settings
   (269, [0, 0, 4, 20, 50, 20, 0, 0, 0]),
   -- the names of the banks and the lines of the LCD
   (14, emptyText), (38, emptyText), (62, emptyText), (86, emptyText),
   (278, emptyText), (302, emptyText), (326, emptyText), (350, emptyText),
   -- scriptSize
   (793, [0, 0])]

/-- The default settings: every byte `0xFF` but for the fields that are set. -/
def populateSettingsStructWithDefault : LPCmodSettings where
  bytes := readPacked 3840 (writeFields (defaultFields hardware) fun _ ↦ 0xFF) 0

end XBlast.Flash
