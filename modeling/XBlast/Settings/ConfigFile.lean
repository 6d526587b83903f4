import XBlast.Flash.Settings
import XBlast.Settings.AddressText

/-!
# The configuration file

`LPCMod_SaveCFGToHDD` writes the settings to `xblast.cfg` as one line for each of 36 keys, and
`LPCMod_ReadCFGFromHDD` starts from the settings in memory and stores what `iniCallback` makes of
each line. The keys fall into five groups with a text format each: flags, numbers, addresses, texts
and four fields whose values have names. `settingsTable` holds the key of every field, its group
and its offset in the structure; the file itself is the list of its keys and values.
-/

set_option autoImplicit false
set_option relaxedAutoImplicit false

namespace XBlast.Settings

open Foundation Flash

/-! ### The keys and their fields -/

/-- The fields whose values are written by name. -/
inductive SpecialSetting
  | activeBank
  | altBank
  | ledColor
  | lcdType
  deriving DecidableEq, Repr

instance : Fintype SpecialSetting :=
  ⟨{.activeBank, .altBank, .ledColor, .lcdType}, fun index ↦ by cases index <;> decide⟩

/-- The groups of `xblastCfgStringsStruct`. -/
inductive SettingGroup
  | bool
  | num
  | ip
  | text
  | special (index : SpecialSetting)
  deriving DecidableEq, Repr

/-- The number of bytes of a field. -/
def SettingGroup.size : SettingGroup → ℕ
  | .ip => 4
  | .text => 24
  | _ => 1

/-- A key of the file with the field that `setCFGFileTransferPtr` gives it. -/
structure Setting where
  name : String
  group : SettingGroup
  offset : ℕ
  deriving DecidableEq

def boolSettings : List Setting :=
  [⟨"quickboot", .bool, 3⟩, ⟨"tsopcontrol", .bool, 8⟩, ⟨"tsophide", .bool, 9⟩,
   ⟨"runbankscript", .bool, 10⟩, ⟨"runbootscript", .bool, 11⟩, ⟨"enablenetwork", .bool, 110⟩,
   ⟨"usedhcp", .bool, 111⟩, ⟨"enablevga", .bool, 12⟩, ⟨"enable5v", .bool, 269⟩,
   ⟨"displaybootmsg", .bool, 275⟩, ⟨"customtextboot", .bool, 276⟩,
   ⟨"displaybiosnameboot", .bool, 277⟩]

def numSettings : List Setting :=
  [⟨"bgcolor", .num, 13⟩, ⟨"fanspeed", .num, 5⟩, ⟨"boottimeout", .num, 6⟩, ⟨"nblines", .num, 271⟩,
   ⟨"linelength", .num, 272⟩, ⟨"backlight", .num, 273⟩, ⟨"contrast", .num, 274⟩]

def ipSettings : List Setting :=
  [⟨"staticip", .ip, 112⟩, ⟨"staticgateway", .ip, 116⟩, ⟨"staticmask", .ip, 120⟩,
   ⟨"staticdns1", .ip, 124⟩, ⟨"staticdns2", .ip, 128⟩]

def textSettings : List Setting :=
  [⟨"512kbname", .text, 14⟩, ⟨"256kbname", .text, 38⟩, ⟨"tsop0name", .text, 62⟩,
   ⟨"tsop1name", .text, 86⟩, ⟨"customstring0", .text, 278⟩, ⟨"customstring1", .text, 302⟩,
   ⟨"customstring2", .text, 326⟩, ⟨"customstring3", .text, 350⟩]

def specialSettings : List Setting :=
  [⟨"activebank", .special .activeBank, 1⟩, ⟨"altbank", .special .altBank, 2⟩,
   ⟨"ledcolor", .special .ledColor, 7⟩, ⟨"lcdtype", .special .lcdType, 270⟩]

/-- All keys, in the order in which they are written and searched. -/
def settingsTable : List Setting :=
  boolSettings ++ numSettings ++ ipSettings ++ textSettings ++ specialSettings

/-- What a field holds: the string at its start for a text, its bytes otherwise. -/
def Setting.stored (setting : Setting) (settings : LPCmodSettings) : List UInt8 :=
  let bytes := settings.bytes.bytes setting.offset setting.group.size
  if setting.group = .text then cString bytes else bytes

/-! ### Values with names -/

/-- The text of a special value, or no text when the value is not one of the known ones. -/
def getSpecialSettingTextString (index : SpecialSetting) (value : UInt8) : Option String :=
  match index with
  | .activeBank | .altBank =>
    if value = 0x84 then some "BNK512"
    else if value = 0x86 then some "BNK256"
    else if value = 0x10 then some "BNKTSOPSPLIT0"
    else if value = 0x00 then some "BNKFULLTSOP"
    else if value = 0x18 then some "BNKTSOPSPLIT1"
    else if value = 0x87 then some "BNKOS"
    else none
  | .ledColor =>
    if value = 0 then some "Off"
    else if value = 1 then some "Green"
    else if value = 2 then some "Red"
    else if value = 3 then some "Orange"
    else if value = 4 then some "Cycle"
    else none
  | .lcdType =>
    if value = 0 then some "HD44780"
    else if value = 1 then some "KS0073"
    else none

def bankSettingArray : List UInt8 := [0x84, 0x86, 0x10, 0x18, 0x00, 0x87]

def ledArraySetting : List UInt8 := [0, 1, 2, 3, 4]

def lcdArraySetting : List UInt8 := [0, 1]

/-- The first value of the array whose name matches the text: the whole of it for a bank, two
letters for the others. -/
def importSpecial (index : SpecialSetting) (value : List UInt8) : Option UInt8 :=
  let named (compare : List UInt8 → List UInt8 → Int) (candidate : UInt8) : Bool :=
    (getSpecialSettingTextString index candidate).any fun text ↦ compare value (ascii text) == 0
  match index with
  | .activeBank | .altBank => bankSettingArray.find? (named strcasecmp)
  | .ledColor => ledArraySetting.find? (named (strncasecmp 2))
  | .lcdType => lcdArraySetting.find? (named (strncasecmp 2))

/-! ### Writing the file -/

/-- The text of a field. A special value without a name has none; `ini_puts` then removes the
key. -/
def Setting.exportText (setting : Setting) (settings : LPCmodSettings) : Option (List UInt8) :=
  let byte (index : ℕ) : UInt8 := settings.image (setting.offset + index)
  match setting.group with
  | .bool | .num => some (decimal (byte 0).toNat)
  | .ip => some (dottedQuad (byte 0) (byte 1) (byte 2) (byte 3))
  | .text => some (setting.stored settings)
  | .special index => (getSpecialSettingTextString index (byte 0)).map ascii

/-- A line of the file: a key and the text of its value. -/
structure ConfigLine where
  key : List UInt8
  value : List UInt8
  deriving DecidableEq

/-- The lines that an export leaves in the file. -/
def lpcModSaveCFGToHDD (settings : LPCmodSettings) : List ConfigLine :=
  settingsTable.filterMap fun setting ↦
    (setting.exportText settings).map fun text ↦ ⟨ascii setting.name, text⟩

/-! ### Reading the file -/

/-- The byte that a text beginning with a digit stands for. -/
def importNumber (value : List UInt8) : Option UInt8 :=
  if value.head?.any isDigit then some (UInt8.ofInt (strtol value 0)) else none

/-- The byte that a flag is set to, if any. -/
def importBool (value : List UInt8) : Option UInt8 :=
  match importNumber value with
  | some byte => some byte
  | none =>
    if strncasecmp 1 value (ascii "y") = 0 ∨ strncasecmp 1 value (ascii "t") = 0 then some 1
    else if strncasecmp 1 value (ascii "n") = 0 ∨ strncasecmp 1 value (ascii "f") = 0 then some 0
    else none

/-- Settings with every byte zero. -/
def zeroSettings : LPCmodSettings := ⟨fun _ ↦ 0⟩

variable (stack : Bytes)

/-- The bytes that a value puts at the start of its field, or nothing when the field keeps what it
holds. -/
def SettingGroup.importBytes (group : SettingGroup) (value : List UInt8) : Option (List UInt8) :=
  match group with
  | .bool => (importBool value).map fun byte ↦ [byte]
  | .num => some [(importNumber value).getD 0]
  | .ip =>
    if value.length < (ascii "255.255.255.255").length then assertCorrectIPString stack value
    else none
  | .text => if value.length < 20 then some (value ++ [0]) else none
  | .special index => (importSpecial index value).map fun byte ↦ [byte]

/-- The settings after one line of the file: the first key of the table that the line's key matches
without case decides where its value goes. -/
def iniCallback (settings : LPCmodSettings) (line : ConfigLine) : LPCmodSettings :=
  match settingsTable.find? fun setting ↦ strcasecmp (ascii setting.name) line.key = 0 with
  | none => settings
  | some setting =>
    match setting.group.importBytes stack line.value with
    | none => settings
    | some bytes => ⟨settings.bytes.write setting.offset bytes⟩

/-- The result code and the imported settings, which start as a copy of those in memory. There is
no file when `ini_browse` cannot open it. -/
def lpcModReadCFGFromHDD (mounted : Bool) (file : Option (List ConfigLine))
    (settings : LPCmodSettings) : Int × LPCmodSettings :=
  if mounted then
    match file with
    | none => (4, settings)
    | some lines => (0, lines.foldl (iniCallback stack) settings)
  else (2, settings)

end XBlast.Settings
