import XBlast.Settings.ConfigFile

/-!
# Counting the pending changes of the settings

`LPCMod_CountNumberOfChangesInSettings` compares the settings in memory with those from the flash,
one group after the other, and lists what was changed. The macro `AddChange` that ends the work on
a changed setting ends with `break`, so that the loop over the group stops there: of each group only
the first change is counted. The count is right exactly if no group has more than one
(`lpcModCountNumberOfChangesInSettings_exact_iff`).
-/

set_option autoImplicit false
set_option relaxedAutoImplicit false

namespace XBlast.Settings

open Foundation Flash List

/-! ### The code -/

/-- The text that starts at an offset. Without a NUL in its field it goes on behind the field. -/
def fieldText (settings : LPCmodSettings) (offset : ℕ) : List UInt8 :=
  cString (settings.bytes.bytes offset (3840 - offset))

def getSpecialSettingDisplayString (index : SpecialSetting) (value : UInt8) : Option String :=
  match index with
  | .activeBank | .altBank =>
    if value = 0x84 then some "512KB bank"
    else if value = 0x86 then some "256KB bank"
    else if value = 0x10 then some "OnBoard Bank0"
    else if value = 0x00 then some "OnBoard BIOS"
    else if value = 0x18 then some "OnBoard Bank1"
    else if value = 0x87 then some "XBlast OS"
    else none
  | .ledColor | .lcdType => getSpecialSettingTextString index value

/-- An entry of the list of changes. `setting` stands for the two pointers to its field. There is no
text when a special value has no name; what is printed for a null pointer is not modelled. -/
structure OSSettingsChangeEntry where
  label : String
  changeString : Option (List UInt8)
  setting : Setting
  settingSize : UInt8
  deriving DecidableEq

structure OSSettingsChangeList where
  changeCount : UInt8
  entries : List OSSettingsChangeEntry
  deriving DecidableEq

def putNewChangeInList (list : OSSettingsChangeList) (change : OSSettingsChangeEntry) :
    OSSettingsChangeList :=
  if list.entries = [] then ⟨1, [change]⟩ else ⟨list.changeCount + 1, list.entries ++ [change]⟩

variable (orig settings : LPCmodSettings)

/-- The comparison of a setting, which depends on its group. -/
def settingChanged (setting : Setting) : Bool :=
  match setting.group with
  | .bool | .num | .special _ => orig.image setting.offset ≠ settings.image setting.offset
  | .ip => orig.bytes.bytes setting.offset 4 ≠ settings.bytes.bytes setting.offset 4
  | .text =>
    (fieldText orig setting.offset).length % 256 ≠
        (fieldText settings setting.offset).length % 256 ∨
      fieldText orig setting.offset ≠ fieldText settings setting.offset

/-- The value of a setting in the text of a change. -/
def shownValue (settings : LPCmodSettings) (setting : Setting) : Option (List UInt8) :=
  let byte (index : ℕ) : UInt8 := settings.image (setting.offset + index)
  match setting.group with
  | .bool | .num => some (decimal (byte 0).toNat)
  | .ip => some (dottedQuad (byte 0) (byte 1) (byte 2) (byte 3))
  | .text => some (fieldText settings setting.offset)
  | .special index => (getSpecialSettingDisplayString index (byte 0)).map ascii

def changeEntry (setting : Setting) : OSSettingsChangeEntry where
  label := setting.name
  changeString := do
    let old ← shownValue orig setting
    let new ← shownValue settings setting
    some (ascii " : \"" ++ old ++ ascii "\" -> \"" ++ new ++ ascii "\"")
  setting := setting
  settingSize :=
    match setting.group with
    | .bool | .num | .special _ => 1
    | .ip => 4
    | .text => UInt8.ofNat (max ((fieldText orig setting.offset).length % 256)
        ((fieldText settings setting.offset).length % 256))

/-- The loop over the settings of a group, with the number of changes and the list. `AddChange`
leaves it at the first change. -/
def countGroup (generateChangeStruct : Bool) (orig settings : LPCmodSettings) :
    List Setting → ℕ × OSSettingsChangeList → ℕ × OSSettingsChangeList
  | [], counted => counted
  | setting :: group, counted =>
    if settingChanged orig settings setting then
      (counted.1 + 1,
        if generateChangeStruct then
          putNewChangeInList counted.2 (changeEntry orig settings setting)
        else counted.2)
    else countGroup generateChangeStruct orig settings group counted

/-- The groups in the order of the loops. -/
def settingGroups : List (List Setting) :=
  [boolSettings, numSettings, ipSettings, textSettings, specialSettings]

def lpcModCountNumberOfChangesInSettings (generateChangeStruct : Bool)
    (orig settings : LPCmodSettings) (output : OSSettingsChangeList) :
    UInt8 × OSSettingsChangeList :=
  let counted := settingGroups.foldl
    (fun counted group ↦ countGroup generateChangeStruct orig settings group counted)
    (0, { output with changeCount := 0 })
  (UInt8.ofNat counted.1, counted.2)

/-! ### Changes -/

/-- The texts of the settings end in their fields. -/
def TextsTerminated (settings : LPCmodSettings) : Prop :=
  ∀ setting ∈ textSettings, 0 ∈ settings.bytes.bytes setting.offset 24

/-- The settings of a list whose values differ. -/
def differing (group : List Setting) : List Setting :=
  group.filter fun setting ↦ setting.stored orig ≠ setting.stored settings

/-- The count with a list of changes is right. -/
def CountsExactly (changeCount : UInt8) : Prop :=
  let result := lpcModCountNumberOfChangesInSettings true orig settings ⟨changeCount, []⟩
  result.1.toNat = (differing orig settings settingsTable).length ∧
    result.2.changeCount.toNat = (differing orig settings settingsTable).length ∧
    (result.2.entries.map OSSettingsChangeEntry.label).Perm
      ((differing orig settings settingsTable).map Setting.name)

/-- Taking at most one item of each part keeps the number of items exactly if no part has more. -/
theorem length_flatMap_take_one_eq_iff {α β : Type*} (parts : List α) (items : α → List β) :
    (parts.flatMap fun part ↦ (items part).take 1).length = (parts.flatMap items).length ↔
      ∀ part ∈ parts, (items part).length ≤ 1 := by
  have hle (parts : List α) :
      (parts.flatMap fun part ↦ (items part).take 1).length ≤ (parts.flatMap items).length := by
    induction parts with
    | nil => exact le_rfl
    | cons part parts ih =>
      simp only [flatMap_cons, length_append, length_take]
      omega
  induction parts with
  | nil => simp
  | cons part parts ih =>
    have hrest := hle parts
    rw [forall_mem_cons]
    refine Iff.trans ?_ (and_congr_right' ih)
    simp only [flatMap_cons, length_append, length_take]
    omega

section

variable {orig settings : LPCmodSettings}

theorem fieldText_eq_stored {setting : Setting} (hsetting : setting ∈ textSettings)
    (hterminated : TextsTerminated settings) :
    fieldText settings setting.offset = setting.stored settings := by
  have hplace : setting.group = .text ∧ setting.offset + 24 ≤ 3840 :=
    (by decide : ∀ setting ∈ textSettings,
      setting.group = .text ∧ setting.offset + 24 ≤ 3840) setting hsetting
  have hlength : 3840 - setting.offset = 24 + (3840 - setting.offset - 24) := by omega
  rw [fieldText, Setting.stored, if_pos hplace.1, hplace.1, hlength, ← Packed.bytes_append]
  exact cString_append_of_mem (hterminated setting hsetting) _

/-- The comparison of each group finds exactly the settings whose values differ. -/
theorem settingChanged_eq {setting : Setting} (hsetting : setting ∈ settingsTable)
    (horig : TextsTerminated orig) (hsettings : TextsTerminated settings) :
    settingChanged orig settings setting =
      decide (setting.stored orig ≠ setting.stored settings) := by
  have htext : setting.group = .text → setting ∈ textSettings :=
    (by decide : ∀ setting ∈ settingsTable, setting.group = .text → setting ∈ textSettings)
      setting hsetting
  cases hgroup : setting.group with
  | text =>
    have hstored := fieldText_eq_stored (htext hgroup) horig
    have hstored' := fieldText_eq_stored (htext hgroup) hsettings
    have hdiffers :
        ((setting.stored orig).length % 256 ≠ (setting.stored settings).length % 256 ∨
          setting.stored orig ≠ setting.stored settings) ↔
        setting.stored orig ≠ setting.stored settings := by
      refine or_iff_right_of_imp fun hlength heq ↦ hlength ?_
      rw [heq]
    simp only [settingChanged, hgroup, hstored, hstored', hdiffers]
  | bool | num | ip | special =>
    rw [settingChanged, hgroup]
    refine decide_eq_decide.mpr ?_
    simp [hgroup, Setting.stored, SettingGroup.size, Packed.bytes, bytesAt, LPCmodSettings.image]

/-! ### What the loops count -/

variable (entries : List OSSettingsChangeEntry)

/-- The list that holds some entries, with their number. -/
def OSSettingsChangeList.ofEntries : OSSettingsChangeList :=
  ⟨UInt8.ofNat entries.length, entries⟩

theorem putNewChangeInList_ofEntries (change : OSSettingsChangeEntry) :
    putNewChangeInList (.ofEntries entries) change = .ofEntries (entries ++ [change]) := by
  cases entries with
  | nil => rfl
  | cons entry entries => simp [putNewChangeInList, OSSettingsChangeList.ofEntries]

/-- The changes that the loops see: the first of each group. -/
def firstChanges (orig settings : LPCmodSettings) (groups : List (List Setting)) : List Setting :=
  groups.flatMap fun group ↦ (differing orig settings group).take 1

theorem countGroup_eq {group : List Setting} (hgroup : ∀ setting ∈ group, setting ∈ settingsTable)
    (horig : TextsTerminated orig) (hsettings : TextsTerminated settings) (number : ℕ)
    (entries : List OSSettingsChangeEntry) :
    countGroup true orig settings group (number, .ofEntries entries) =
      (number + ((differing orig settings group).take 1).length,
        .ofEntries (entries ++
          ((differing orig settings group).take 1).map (changeEntry orig settings))) := by
  induction group with
  | nil => simp [countGroup, differing]
  | cons setting group ih =>
    obtain ⟨hsetting, hgroup⟩ := forall_mem_cons.mp hgroup
    rw [countGroup, settingChanged_eq hsetting horig hsettings]
    by_cases hchanged : setting.stored orig ≠ setting.stored settings
    · simp [differing, hchanged, putNewChangeInList_ofEntries]
    · rw [if_neg (by simpa using hchanged), ih hgroup]
      simp [differing, hchanged]

theorem foldl_countGroup_eq {groups : List (List Setting)}
    (hgroups : ∀ group ∈ groups, ∀ setting ∈ group, setting ∈ settingsTable)
    (horig : TextsTerminated orig) (hsettings : TextsTerminated settings) (number : ℕ)
    (entries : List OSSettingsChangeEntry) :
    groups.foldl (fun counted group ↦ countGroup true orig settings group counted)
        (number, .ofEntries entries) =
      (number + (firstChanges orig settings groups).length,
        .ofEntries (entries ++
          (firstChanges orig settings groups).map (changeEntry orig settings))) := by
  -- Both the number and the list of the loops behind are part of what is carried along.
  induction groups generalizing number entries with
  | nil => simp [firstChanges]
  | cons group groups ih =>
    obtain ⟨hgroup, hgroups⟩ := forall_mem_cons.mp hgroups
    rw [foldl_cons, countGroup_eq hgroup horig hsettings, ih hgroups]
    simp [firstChanges, add_assoc]

theorem length_firstChanges_le (groups : List (List Setting)) :
    (firstChanges orig settings groups).length ≤ groups.length := by
  induction groups with
  | nil => exact le_rfl
  | cons group groups ih =>
    rw [firstChanges, flatMap_cons, length_append, length_take, length_cons]
    rw [firstChanges] at ih
    omega

theorem differing_settingsTable :
    differing orig settings settingsTable = settingGroups.flatMap (differing orig settings) := by
  simp only [differing, settingsTable, settingGroups, filter_append, flatMap_cons,
    flatMap_nil, append_nil, append_assoc]

/-- The result for an empty list: one change for each group that has any. -/
theorem lpcModCountNumberOfChangesInSettings_eq (horig : TextsTerminated orig)
    (hsettings : TextsTerminated settings) (changeCount : UInt8) :
    lpcModCountNumberOfChangesInSettings true orig settings ⟨changeCount, []⟩ =
      (UInt8.ofNat (firstChanges orig settings settingGroups).length,
        .ofEntries ((firstChanges orig settings settingGroups).map
          (changeEntry orig settings))) := by
  have hgroups : ∀ group ∈ settingGroups, ∀ setting ∈ group, setting ∈ settingsTable := by decide
  have hrun := foldl_countGroup_eq hgroups horig hsettings 0 []
  rw [zero_add, nil_append] at hrun
  have hstart : (⟨0, []⟩ : OSSettingsChangeList) = .ofEntries [] := rfl
  rw [lpcModCountNumberOfChangesInSettings]
  rw [hstart, hrun]

/-- For settings whose texts are terminated, the number that is returned, the number in the list
and its labels are those of the settings that differ exactly if no two of one group do. -/
theorem lpcModCountNumberOfChangesInSettings_exact_iff (horig : TextsTerminated orig)
    (hsettings : TextsTerminated settings) (changeCount : UInt8) :
    CountsExactly orig settings changeCount ↔
      ∀ group ∈ settingGroups, (differing orig settings group).length ≤ 1 := by
  have hsmall : (firstChanges orig settings settingGroups).length < 2 ^ 8 :=
    (length_firstChanges_le settingGroups).trans_lt (by decide)
  have hnumber : (UInt8.ofNat (firstChanges orig settings settingGroups).length).toNat =
      (firstChanges orig settings settingGroups).length := UInt8.toNat_ofNat_of_lt' hsmall
  have hlabels (found : List Setting) :
      (found.map (changeEntry orig settings)).map OSSettingsChangeEntry.label =
        found.map Setting.name := by
    rw [map_map]
    rfl
  rw [CountsExactly, lpcModCountNumberOfChangesInSettings_eq horig hsettings]
  dsimp only [OSSettingsChangeList.ofEntries]
  rw [length_map, hnumber, hlabels, differing_settingsTable]
  constructor
  · intro hexact
    exact (length_flatMap_take_one_eq_iff settingGroups (differing orig settings)).mp hexact.1
  · intro hone
    have hall : firstChanges orig settings settingGroups =
        settingGroups.flatMap (differing orig settings) := by
      refine flatMap_congr fun group hgroup ↦ ?_
      exact take_of_length_le (hone group hgroup)
    rw [hall]
    exact ⟨rfl, rfl, List.Perm.refl _⟩

end

instance (settings : LPCmodSettings) : Decidable (TextsTerminated settings) :=
  inferInstanceAs (Decidable (∀ setting ∈ textSettings, 0 ∈ settings.bytes.bytes setting.offset 24))

/-- One flag and one number are changed. -/
def flagAndNumber : LPCmodSettings := ⟨(zeroSettings.bytes.write 3 [1]).write 5 [40]⟩

theorem flagAndNumber_counted :
    TextsTerminated zeroSettings ∧ TextsTerminated flagAndNumber ∧
      (differing zeroSettings flagAndNumber settingsTable).length = 2 ∧
      CountsExactly zeroSettings flagAndNumber 0 := by
  have hblank : TextsTerminated zeroSettings := by decide +kernel
  have hchanged : TextsTerminated flagAndNumber := by decide +kernel
  refine ⟨hblank, hchanged, by decide +kernel, ?_⟩
  exact (lpcModCountNumberOfChangesInSettings_exact_iff hblank hchanged 0).mpr (by decide +kernel)

/-- Two flags are changed. -/
def twoFlags : LPCmodSettings := ⟨(zeroSettings.bytes.write 3 [1]).write 8 [1]⟩

/-- Two flags differ, and one change is counted and listed. -/
theorem twoFlags_counted_once :
    TextsTerminated zeroSettings ∧ TextsTerminated twoFlags ∧
      (differing zeroSettings twoFlags settingsTable).map Setting.name =
        ["quickboot", "tsopcontrol"] ∧
      lpcModCountNumberOfChangesInSettings true zeroSettings twoFlags ⟨0, []⟩ =
        (1, ⟨1, [⟨"quickboot", some (ascii " : \"0\" -> \"1\""),
          ⟨"quickboot", .bool, 3⟩, 1⟩]⟩) := by
  decide +kernel

end XBlast.Settings
