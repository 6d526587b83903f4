import XBlast.Eeprom.GameRegion
import XBlast.Foundation.CString

/-!
# The list of pending changes of the EEPROM

`generateEEPROMChangeList` compares the image in memory with the one that was read at boot, section
by section. A section is looked at only if its hash or its checksum has changed, and a `Checksum3`
that was set to ones counts as one change without an entry. `generateEEPROMChangeList_spec` says
which items are counted and listed. `putNewChangeInList` does not count the first entry of a list,
so that the list is exact only if nothing has changed at all
(`generateEEPROMChangeList_exact_iff`).
-/

set_option autoImplicit false
set_option relaxedAutoImplicit false

namespace XBlast.Eeprom

open Foundation UInt8

/-! ### Entries -/

/-- `EEPROMModItem`: the items whose changes are listed. -/
inductive EepromModItem
  | hddKkey
  | xbeRegion
  | serialNumber
  | macAddress
  | videoStandard
  | videoFlagsFormat
  | videoFlags480p
  | videoFlags720p
  | videoFlags1080i
  | dvdPlaybackKitZone
  deriving DecidableEq, Repr

def settingChangeLabel : EepromModItem → String
  | .hddKkey => "HDDKkey="
  | .xbeRegion => "GameRegion="
  | .serialNumber => "SerialNumber="
  | .macAddress => "MACAddress="
  | .videoStandard => "VideoStandard="
  | .videoFlagsFormat => "VideoFormat="
  | .videoFlags480p => "Enable480p="
  | .videoFlags720p => "Enable720p="
  | .videoFlags1080i => "Enable71080i"
  | .dvdPlaybackKitZone => "DVDZone="

/-- An entry of the list. There is no text for a DVD zone behind the end of the table of names. -/
structure EepromChangeEntry where
  label : String
  changeString : Option (List UInt8)
  eepromModItem : EepromModItem
  deriving DecidableEq

structure EepromChangeList where
  changeCount : UInt8
  entries : List EepromChangeEntry
  deriving DecidableEq

/-- `eepromChangeTrackerInit`. -/
def EepromChangeList.empty : EepromChangeList := ⟨0, []⟩

variable (list : EepromChangeList)

def putNewChangeInList (change : EepromChangeEntry) : EepromChangeList :=
  if list.entries = [] then { list with entries := [change] }
  else ⟨list.changeCount + 1, list.entries ++ [change]⟩

/-! ### Texts -/

def dvdregiontext : List String :=
  ["Region Clear", "USA (1)", "Europe (2)", "India (3)", "Australia (4)", "USSR (5)", "China (6)",
    "Free (7)", "Airlines (8)"]

def gameregiontext : List String := ["Unknown/Error", "NTSC-U", "NTSC-J", "n/a", "PAL"]

def vidformattext : List String := ["Fullscreen", "Widescreen", "Letterbox"]

def getVideoStandardText (vidStandard : UInt32) : Option String :=
  if vidStandard = VideoStandard.ntscM.value then
    gameregiontext[XbeRegion.northAmerica.value.toNat]?
  else if vidStandard = VideoStandard.ntscJ.value then gameregiontext[XbeRegion.japan.value.toNat]?
  else if vidStandard = VideoStandard.palI.value then
    gameregiontext[XbeRegion.europeAustralia.value.toNat]?
  else gameregiontext[XbeRegion.invalid.value.toNat]?

def getScreenFormatText : VidScreenFormat → Option String
  | .widescreen => vidformattext[1]?
  | .letterbox => vidformattext[2]?
  | .fullScreen => vidformattext[0]?

/-- The format that the flags of an image stand for. -/
def screenFormat (flags : UInt8) : VidScreenFormat :=
  if flags &&& VidScreenFormat.widescreen.value ≠ 0 then .widescreen
  else if flags &&& VidScreenFormat.letterbox.value ≠ 0 then .letterbox
  else .fullScreen

/-- `%02X`. -/
def hexByte (byte : UInt8) : List UInt8 :=
  let digit (value : UInt8) : UInt8 := if value < 10 then 0x30 + value else 0x37 + value
  [digit (byte / 16), digit (byte % 16)]

/-- `VideoFlags[2]`. -/
def videoFlags (eeprom : EepromData) : UInt8 := eeprom.image (Field.videoFlags + 2)

/-- The word at an offset. -/
def wordAt (field : ℕ) (eeprom : EepromData) : UInt32 := littleEndian32 eeprom.image field

section

variable (hmac : Hmac)

def bootHddKeyGenerateEepromKeyData (eeprom : EepromData) : List UInt8 :=
  (decryptEEPROMData hmac eeprom).2.bytes 28 16

/-- The text of an item. The hard disk key and the serial number are printed from a buffer on the
stack. -/
def itemText (eeprom : EepromData) (tempItemString : Packed 35) :
    EepromModItem → Option (List UInt8)
  | .hddKkey | .serialNumber => some (cString (tempItemString.bytes 0 35))
  | .xbeRegion => gameregiontext[(getGameRegionValue hmac eeprom).toNat]?.map ascii
  | .macAddress =>
    some ((ascii ":").intercalate ((eeprom.bytes Field.macAddress 6).map hexByte))
  | .videoStandard => (getVideoStandardText (wordAt Field.videoStandard eeprom)).map ascii
  | .videoFlagsFormat => (getScreenFormatText (screenFormat (videoFlags eeprom))).map ascii
  | .videoFlags480p => some (resolution eeprom .enable480p)
  | .videoFlags720p => some (resolution eeprom .enable720p)
  | .videoFlags1080i => some (resolution eeprom .enable1080i)
  | .dvdPlaybackKitZone =>
    dvdregiontext[(eeprom.image Field.dvdPlaybackKitZone).toNat]?.map ascii
where
  resolution (eeprom : EepromData) (enabled : VidResolutionEnable) : List UInt8 :=
    ascii (if videoFlags eeprom &&& enabled.value ≠ 0 then "Yes" else "No")

/-! ### The comparison -/

variable (orig eeprom : EepromData)

/-- The comparison of an item. -/
def itemDiffers (item : EepromModItem) : Bool :=
  let bytesDiffer (field size : ℕ) : Bool := orig.bytes field size ≠ eeprom.bytes field size
  let flagsDiffer (mask : UInt8) : Bool := videoFlags orig &&& mask ≠ videoFlags eeprom &&& mask
  match item with
  | .hddKkey =>
    bootHddKeyGenerateEepromKeyData hmac orig ≠ bootHddKeyGenerateEepromKeyData hmac eeprom
  | .xbeRegion => getGameRegionValue hmac orig ≠ getGameRegionValue hmac eeprom
  | .serialNumber => bytesDiffer Field.serialNumber 12
  | .macAddress => bytesDiffer Field.macAddress 6
  | .videoStandard => wordAt Field.videoStandard orig ≠ wordAt Field.videoStandard eeprom
  | .videoFlagsFormat => flagsDiffer 0x11
  | .videoFlags480p => flagsDiffer VidResolutionEnable.enable480p.value
  | .videoFlags720p => flagsDiffer VidResolutionEnable.enable720p.value
  | .videoFlags1080i => flagsDiffer VidResolutionEnable.enable1080i.value
  | .dvdPlaybackKitZone => bytesDiffer Field.dvdPlaybackKitZone 1

/-- The variables of the function. The two buffers are not initialised. -/
structure ChangeScan where
  nbChanges : UInt8
  eepromChangeList : EepromChangeList
  origTempItemString : Packed 35
  tempItemString : Packed 35

/-- The loop that should print the keys: it prints the first byte that differs, at its place. -/
def ChangeScan.printKeys (scan : ChangeScan) : ChangeScan :=
  let origHDDKey := bootHddKeyGenerateEepromKeyData hmac orig
  let hddKey := bootHddKeyGenerateEepromKeyData hmac eeprom
  let i := (origHDDKey.zip hddKey).findIdx fun bytes ↦ bytes.1 ≠ bytes.2
  { scan with
    origTempItemString :=
      scan.origTempItemString.write (2 * i) (hexByte (origHDDKey.getD i 0) ++ [0])
    tempItemString := scan.tempItemString.write (2 * i) (hexByte (hddKey.getD i 0) ++ [0]) }

/-- A new entry for an item. -/
def ChangeScan.addEntry (scan : ChangeScan) (item : EepromModItem) : ChangeScan :=
  { scan with
    eepromChangeList := putNewChangeInList scan.eepromChangeList
      { label := settingChangeLabel item
        changeString := do
          let old ← itemText hmac orig scan.origTempItemString item
          let new ← itemText hmac eeprom scan.tempItemString item
          some (ascii "\"" ++ old ++ ascii "\" -> \"" ++ new ++ ascii "\"")
        eepromModItem := item } }

/-- The work on an item. -/
def ChangeScan.check (genStrings : Bool) (orig eeprom : EepromData) (scan : ChangeScan)
    (item : EepromModItem) : ChangeScan :=
  if itemDiffers hmac orig eeprom item then
    let scan := if genStrings ∧ item = .hddKkey then scan.printKeys hmac orig eeprom else scan
    let scan := if genStrings then scan.addEntry hmac orig eeprom item else scan
    { scan with nbChanges := scan.nbChanges + 1 }
  else scan

def encryptedSection : List EepromModItem := [.hddKkey, .xbeRegion]

def checksum2Section : List EepromModItem := [.serialNumber, .macAddress, .videoStandard]

def checksum3Section : List EepromModItem :=
  [.videoFlagsFormat, .videoFlags480p, .videoFlags720p, .videoFlags1080i, .dvdPlaybackKitZone]

def generateEEPROMChangeList (genStrings : Bool) (orig eeprom : EepromData)
    (origTempItemString tempItemString : Packed 35) (eepromChangeList : EepromChangeList) :
    UInt8 × EepromChangeList :=
  let check := ChangeScan.check hmac genStrings orig eeprom
  let scan : ChangeScan := ⟨0, eepromChangeList, origTempItemString, tempItemString⟩
  let scan :=
    if orig.bytes 0 20 ≠ eeprom.bytes 0 20 then encryptedSection.foldl check scan else scan
  let scan :=
    if wordAt Field.checksum2 eeprom ≠ wordAt Field.checksum2 orig then
      checksum2Section.foldl check scan
    else scan
  let scan :=
    if wordAt Field.checksum3 eeprom ≠ wordAt Field.checksum3 orig then
      if wordAt Field.checksum3 eeprom = 0xFFFFFFFF ∧
          wordAt Field.checksum3 orig ≠ 0xFFFFFFFF then
        { scan with nbChanges := scan.nbChanges + 1 }
      else checksum3Section.foldl check scan
    else scan
  (scan.nbChanges, scan.eepromChangeList)

/-! ### What is meant -/

/-- The tracked items that differ. -/
def differing : List EepromModItem :=
  (encryptedSection ++ checksum2Section ++ checksum3Section).filter (itemDiffers hmac orig eeprom)

/-- The list with all changes and the count without a list are right. -/
def ListsExactly (origTempItemString tempItemString : Packed 35) : Prop :=
  let listed := generateEEPROMChangeList hmac true orig eeprom origTempItemString tempItemString
    .empty
  listed.1.toNat = (differing hmac orig eeprom).length ∧
    (listed.2.entries.map EepromChangeEntry.eepromModItem).Perm (differing hmac orig eeprom) ∧
    listed.2.changeCount.toNat = listed.2.entries.length ∧
    generateEEPROMChangeList hmac false orig eeprom origTempItemString tempItemString .empty =
      (listed.1, .empty)

/-- `Checksum3` was set to ones. -/
def FactoryReset : Prop :=
  wordAt Field.checksum3 eeprom = 0xFFFFFFFF ∧ wordAt Field.checksum3 orig ≠ 0xFFFFFFFF

instance (orig eeprom : EepromData) : Decidable (FactoryReset orig eeprom) :=
  inferInstanceAs (Decidable (_ ∧ _))

/-- The items that are compared. -/
def compared : List EepromModItem :=
  (if orig.bytes 0 20 ≠ eeprom.bytes 0 20 then encryptedSection else []) ++
    (if wordAt Field.checksum2 eeprom ≠ wordAt Field.checksum2 orig then checksum2Section
      else []) ++
    if wordAt Field.checksum3 eeprom ≠ wordAt Field.checksum3 orig ∧ ¬FactoryReset orig eeprom then
      checksum3Section
    else []

end

variable {hmac : Hmac} {orig eeprom : EepromData}
  {genStrings : Bool}

/-! ### The run over the items -/

/-- The first entry of the list is not counted. -/
def EepromChangeList.FirstUncounted : Prop :=
  list.changeCount = UInt8.ofNat (list.entries.length - 1)

theorem putNewChangeInList_entries (change : EepromChangeEntry) :
    (putNewChangeInList list change).entries = list.entries ++ [change] := by
  rw [putNewChangeInList]
  split_ifs with hempty
  · simp [hempty]
  · rfl

theorem EepromChangeList.FirstUncounted.put {list : EepromChangeList}
    (huncounted : list.FirstUncounted) (change : EepromChangeEntry) :
    (putNewChangeInList list change).FirstUncounted := by
  rw [FirstUncounted, putNewChangeInList_entries, List.length_append, List.length_singleton,
    Nat.add_sub_cancel, putNewChangeInList]
  rw [FirstUncounted] at huncounted
  split_ifs with hempty
  · simpa [hempty] using huncounted
  · have hlength : list.entries.length = list.entries.length - 1 + 1 :=
      (Nat.sub_add_cancel (List.length_pos_iff.mpr hempty)).symm
    simp only [huncounted]
    rw [hlength, Nat.add_sub_cancel, ofNat_add]
    rfl

/-- Between two states the given items were counted and, if asked for, listed. -/
structure ChangeScan.Adds (genStrings : Bool) (items : List EepromModItem)
    (before after : ChangeScan) : Prop where
  counted : after.nbChanges = before.nbChanges + UInt8.ofNat items.length
  listed : genStrings → after.eepromChangeList.entries.map EepromChangeEntry.eepromModItem =
    before.eepromChangeList.entries.map EepromChangeEntry.eepromModItem ++ items
  uncounted : before.eepromChangeList.FirstUncounted → after.eepromChangeList.FirstUncounted
  kept : ¬genStrings → after.eepromChangeList = before.eepromChangeList

variable {item : EepromModItem}

namespace ChangeScan

variable {before middle after : ChangeScan} {items more : List EepromModItem}

variable (scan : ChangeScan)

theorem Adds.refl : Adds genStrings [] scan scan where
  counted := by simp
  listed := by simp
  uncounted := id
  kept := fun _ ↦ rfl

theorem Adds.trans (hfirst : Adds genStrings items before middle)
    (hnext : Adds genStrings more middle after) : Adds genStrings (items ++ more) before after where
  counted := by rw [hnext.counted, hfirst.counted, List.length_append, ofNat_add,
    UInt8.add_assoc]
  listed := fun hgen ↦ by rw [hnext.listed hgen, hfirst.listed hgen, List.append_assoc]
  uncounted := fun huncounted ↦ hnext.uncounted (hfirst.uncounted huncounted)
  kept := fun hgen ↦ (hnext.kept hgen).trans (hfirst.kept hgen)

section

variable (hdiffers : itemDiffers hmac orig eeprom item) (scan : ChangeScan)

include hdiffers

theorem check_nbChanges :
    (scan.check hmac genStrings orig eeprom item).nbChanges = scan.nbChanges + 1 := by
  rw [check, if_pos hdiffers]
  cases genStrings with
  | false => rfl
  | true => by_cases hkey : item = .hddKkey <;> simp [hkey, addEntry, printKeys]

/-- With strings an item that differs gets an entry. -/
theorem check_listed :
    ∃ change : EepromChangeEntry, change.eepromModItem = item ∧
      (scan.check hmac true orig eeprom item).eepromChangeList =
        putNewChangeInList scan.eepromChangeList change := by
  rw [check, if_pos hdiffers]
  by_cases hkey : item = .hddKkey
  · simp only [hkey, and_self, if_true]
    exact ⟨_, rfl, rfl⟩
  · simp only [hkey, and_false, if_false, if_true]
    exact ⟨_, rfl, rfl⟩

/-- Without strings the list is left alone. -/
theorem check_kept :
    (scan.check hmac false orig eeprom item).eepromChangeList = scan.eepromChangeList := by
  rw [check, if_pos hdiffers]
  rfl

end

/-- One item adds itself if it differs. -/
theorem adds_check (item : EepromModItem) :
    Adds genStrings ([item].filter (itemDiffers hmac orig eeprom)) scan
      (scan.check hmac genStrings orig eeprom item) := by
  by_cases hdiffers : itemDiffers hmac orig eeprom item
  · rw [List.filter_cons_of_pos hdiffers, List.filter_nil]
    cases genStrings with
    | false =>
      have hkept := check_kept hdiffers scan
      refine ⟨check_nbChanges hdiffers scan, fun hgen ↦ absurd hgen Bool.false_ne_true,
        fun huncounted ↦ ?_, fun _ ↦ hkept⟩
      rw [hkept]
      exact huncounted
    | true =>
      obtain ⟨change, hitem, hlist⟩ := check_listed hdiffers scan
      refine ⟨check_nbChanges hdiffers scan, fun _ ↦ ?_, fun huncounted ↦ ?_,
        fun hgen ↦ absurd rfl hgen⟩
      · rw [hlist, putNewChangeInList_entries, List.map_append, List.map_singleton, hitem]
      · rw [hlist]
        exact huncounted.put change
  · rw [List.filter_cons_of_neg hdiffers, List.filter_nil, check, if_neg hdiffers]
    exact Adds.refl scan

/-- A section adds its items that differ. -/
theorem adds_foldl (items : List EepromModItem) (scan : ChangeScan) :
    Adds genStrings (items.filter (itemDiffers hmac orig eeprom)) scan
      (items.foldl (check hmac genStrings orig eeprom) scan) := by
  induction items generalizing scan with
  | nil => exact Adds.refl scan
  | cons item items ih =>
    rw [List.foldl_cons, ← List.singleton_append, List.filter_append]
    exact (adds_check scan item).trans (ih _)

/-- A section that is compared only under a condition. -/
theorem adds_section (condition : Prop) [Decidable condition] (items : List EepromModItem)
    (scan : ChangeScan) :
    Adds genStrings ((if condition then items else []).filter (itemDiffers hmac orig eeprom)) scan
      (if condition then items.foldl (check hmac genStrings orig eeprom) scan else scan) := by
  split_ifs with hcondition
  · exact adds_foldl items scan
  · exact Adds.refl scan

/-- The last section, with the change that has no entry. -/
theorem adds_checksum3 :
    ∃ final, Adds genStrings
      ((if wordAt Field.checksum3 eeprom ≠ wordAt Field.checksum3 orig ∧ ¬FactoryReset orig eeprom
        then checksum3Section else []).filter (itemDiffers hmac orig eeprom)) scan final ∧
      (if wordAt Field.checksum3 eeprom ≠ wordAt Field.checksum3 orig then
        if wordAt Field.checksum3 eeprom = 0xFFFFFFFF ∧
            wordAt Field.checksum3 orig ≠ 0xFFFFFFFF then
          { scan with nbChanges := scan.nbChanges + 1 }
        else checksum3Section.foldl (check hmac genStrings orig eeprom) scan
      else scan) =
      { final with
        nbChanges := final.nbChanges + if FactoryReset orig eeprom then 1 else 0 } := by
  by_cases hreset : FactoryReset orig eeprom
  · have hchanged : wordAt Field.checksum3 eeprom ≠ wordAt Field.checksum3 orig := fun hsame ↦
      hreset.2 (hsame ▸ hreset.1)
    refine ⟨scan, ?_, ?_⟩
    · rw [if_neg fun hseen ↦ hseen.2 hreset]
      exact Adds.refl scan
    · rw [if_pos hchanged, if_pos hreset]
      exact if_pos hreset
  · rw [if_neg hreset]
    by_cases hchanged : wordAt Field.checksum3 eeprom ≠ wordAt Field.checksum3 orig
    · refine ⟨checksum3Section.foldl (check hmac genStrings orig eeprom) scan, ?_, ?_⟩
      · rw [if_pos ⟨hchanged, hreset⟩]
        exact adds_foldl checksum3Section scan
      · rw [if_pos hchanged, UInt8.add_zero]
        exact if_neg hreset
    · refine ⟨scan, ?_, ?_⟩
      · rw [if_neg fun hseen ↦ hchanged hseen.1]
        exact Adds.refl scan
      · rw [if_neg hchanged, UInt8.add_zero]

end ChangeScan

/-- The items that are compared and differ are counted and listed, and a reset is counted. -/
theorem generateEEPROMChangeList_spec (origTempItemString tempItemString : Packed 35)
    (list : EepromChangeList) :
    ∃ scan : ChangeScan,
      ChangeScan.Adds genStrings ((compared orig eeprom).filter (itemDiffers hmac orig eeprom))
        ⟨0, list, origTempItemString, tempItemString⟩ scan ∧
      generateEEPROMChangeList hmac genStrings orig eeprom origTempItemString tempItemString list =
        (scan.nbChanges + (if FactoryReset orig eeprom then 1 else 0), scan.eepromChangeList) := by
  rw [compared, List.filter_append, List.filter_append, generateEEPROMChangeList]
  obtain ⟨final, hadds, hfinal⟩ := ChangeScan.adds_checksum3 _
  refine ⟨final, ((ChangeScan.adds_section _ _ _).trans
    (ChangeScan.adds_section _ _ _)).trans hadds, ?_⟩
  rw [hfinal]

theorem compared_sublist (orig eeprom : EepromData) :
    (compared orig eeprom).Sublist (encryptedSection ++ checksum2Section ++ checksum3Section) := by
  rw [compared]
  refine ((ite_sublist _ _).append (ite_sublist _ _)).append (ite_sublist _ _)
where
  ite_sublist (condition : Prop) [Decidable condition] (items : List EepromModItem) :
      (if condition then items else []).Sublist items := by
    split_ifs
    · exact List.Sublist.refl items
    · exact List.nil_sublist items

/-- Every listed item differs. -/
theorem listed_sublist : ((compared orig eeprom).filter (itemDiffers hmac orig eeprom)).Sublist
    (differing hmac orig eeprom) :=
  (compared_sublist orig eeprom).filter _

/-- A list from which an entry is missing in the count has none. -/
theorem EepromChangeList.FirstUncounted.eq_nil {list : EepromChangeList}
    (huncounted : list.FirstUncounted) (hcount : list.changeCount.toNat = list.entries.length) :
    list.entries = [] := by
  rw [huncounted, toNat_ofNat'] at hcount
  refine List.eq_nil_of_length_eq_zero ?_
  omega

/-- The list is right exactly if no tracked item differs and `Checksum3` was not set to ones. -/
theorem generateEEPROMChangeList_exact_iff (hmac : Hmac)
    (orig eeprom : EepromData) (origTempItemString tempItemString : Packed 35) :
    ListsExactly hmac orig eeprom origTempItemString tempItemString ↔
      differing hmac orig eeprom = [] ∧ ¬FactoryReset orig eeprom := by
  obtain ⟨scan, hadds, hresult⟩ := @generateEEPROMChangeList_spec hmac orig eeprom true
    origTempItemString tempItemString .empty
  obtain ⟨quiet, hquiet, hcounted⟩ := @generateEEPROMChangeList_spec hmac orig eeprom false
    origTempItemString tempItemString .empty
  have hlisted := hadds.listed rfl
  have huncounted : scan.eepromChangeList.FirstUncounted := hadds.uncounted rfl
  rw [ListsExactly, hresult, hcounted]
  rw [hquiet.kept Bool.false_ne_true, hquiet.counted, hadds.counted]
  constructor
  · rintro ⟨hcount, hitems, hentries, -⟩
    have hnone := huncounted.eq_nil hentries
    have hdiffering : differing hmac orig eeprom = [] := by
      rw [hnone] at hitems
      exact hitems.symm.eq_nil
    refine ⟨hdiffering, fun hreset ↦ ?_⟩
    have hempty := List.sublist_nil.mp (hdiffering ▸ @listed_sublist hmac orig eeprom)
    rw [hdiffering, hempty, if_pos hreset] at hcount
    exact Nat.one_ne_zero hcount
  · rintro ⟨hdiffering, hreset⟩
    have hempty := List.sublist_nil.mp (hdiffering ▸ @listed_sublist hmac orig eeprom)
    have hnone : scan.eepromChangeList.entries = [] := by
      rw [hempty] at hlisted
      exact List.map_eq_nil_iff.mp hlisted
    rw [hdiffering, hempty, if_neg hreset, hnone, huncounted, hnone]
    exact ⟨rfl, List.Perm.nil, rfl, rfl⟩

theorem firstVersionImage_unchanged :
    ListsExactly versionHmac firstVersionImage firstVersionImage (fun _ ↦ 0) fun _ ↦ 0 := by
  refine (generateEEPROMChangeList_exact_iff _ _ _ _ _).mpr ⟨?_, fun hreset ↦ hreset.2 hreset.1⟩
  refine List.filter_eq_nil_iff.mpr fun item _ ↦ ?_
  cases item <;> simp [itemDiffers]

/-- An image that opens, with its checksums. -/
def bootImage : EepromData := refreshChecksum3 (refreshChecksum2 firstVersionImage)

/-- The same with another MAC address. -/
def otherMacImage : EepromData :=
  refreshChecksum3 (refreshChecksum2 (firstVersionImage.write Field.macAddress [0x0B]))

/-- The images open and their checksums are right. The new address is listed, and the list says that
it has no entries. -/
theorem otherMacImage_listed_uncounted :
    ((decryptEEPROMData versionHmac bootImage).1 ≠ .invalid ∧
      (decryptEEPROMData versionHmac otherMacImage).1 ≠ .invalid) ∧
      (Consistent bootImage ∧ Consistent otherMacImage) ∧
      let listed := generateEEPROMChangeList versionHmac true bootImage otherMacImage (fun _ ↦ 0)
        (fun _ ↦ 0) .empty
      listed.1 = 1 ∧ listed.2.entries.map EepromChangeEntry.eepromModItem = [.macAddress] ∧
        listed.2.changeCount = 0 := by
  have hopens {eeprom : EepromData} (hhash : (sealedBlock eeprom).bytes 0 20 =
      List.replicate 20 (UInt8.ofNat EncryptVersion.v1_0.value)) :
      (decryptEEPROMData versionHmac (refreshChecksum3 (refreshChecksum2 eeprom))).1 ≠
        .invalid := by
    refine decryptEEPROMData_ne_invalid_iff.mpr ⟨.v1_0, by decide, ?_⟩
    rw [sealedBlock_refresh, validates_versionHmac_iff]
    exact hhash
  refine ⟨⟨hopens (by decide), hopens (by decide)⟩,
    ⟨consistent_refresh _, consistent_refresh _⟩, ?_⟩
  decide +kernel

end XBlast.Eeprom
