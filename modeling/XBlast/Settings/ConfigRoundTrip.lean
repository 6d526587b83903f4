import XBlast.Settings.ConfigFile

/-!
# Exporting and importing the settings

Every line of an exported file finds its own key again, so that the import writes each field at
most once and the fields are apart: the order of the lines does not matter. What a line writes is
the exported field, with two exceptions. The guard on addresses asks for a text shorter than
`255.255.255.255`, which no address with four three-digit numbers has, and the guard on texts asks
for less than 20 characters, although a field holds 20. Such a field keeps what memory held before
the import, and `config_round_trip_iff` says that these are the only ones lost.
-/

set_option autoImplicit false
set_option relaxedAutoImplicit false

namespace XBlast.Settings

open Foundation Flash List Option

/-! ### What one line writes -/

/-- The value of a field passes the length check of the import: an address has a number below a
hundred, a text has less than 20 characters. -/
def Setting.ReadsBack (setting : Setting) (settings : LPCmodSettings) : Prop :=
  (setting.group = .ip → ∃ byte ∈ setting.stored settings, byte < 100) ∧
    (setting.group = .text → (setting.stored settings).length < 20)

instance (setting : Setting) (settings : LPCmodSettings) :
    Decidable (setting.ReadsBack settings) :=
  inferInstanceAs (Decidable (_ ∧ _))

/-- The bytes that the import puts at the start of a field, a text with its terminator. -/
def Setting.written (setting : Setting) (settings : LPCmodSettings) : List UInt8 :=
  if setting.group = .text then setting.stored settings ++ [0] else setting.stored settings

/-- Settings whose special values have names and whose texts fit their fields. -/
structure Exportable (settings : LPCmodSettings) : Prop where
  named : ∀ setting ∈ settingsTable, ∀ index, setting.group = .special index →
    (getSpecialSettingTextString index (settings.image setting.offset)).isSome
  texts : ∀ setting ∈ settingsTable, setting.group = .text →
    (setting.stored settings).length ≤ 20

theorem importNumber_decimal (byte : UInt8) : importNumber (decimal byte.toNat) = some byte := by
  have hdigit : (decimal byte.toNat).head?.any isDigit = true := by
    obtain ⟨letter, text, hdecimal⟩ := exists_cons_of_ne_nil (decimal_ne_nil byte.toNat)
    have hletter : letter ∈ decimal byte.toNat := by
      rw [hdecimal]
      exact mem_cons_self
    obtain ⟨digit, hdigit, rfl⟩ := mem_map.mp hletter
    rw [hdecimal]
    exact (by decide : ∀ digit < 10, isDigit (digitLetter digit) = true) digit
      (lt_of_mem_decimalDigits hdigit)
  have hbound := byte.toNat_lt
  have hlow : ((byte.toNat : Int) % 2 ^ 8).toNat = byte.toNat := by omega
  rw [importNumber, if_pos hdigit, strtol_decimal (by omega), UInt8.ofInt, hlow, UInt8.ofNat_toNat]

/-- Every name is taken back for the value it was written for. -/
theorem importSpecial_text {index : SpecialSetting} {value : UInt8} {text : String}
    (htext : getSpecialSettingTextString index value = some text) :
    importSpecial index (ascii text) = some value := by
  cases index <;>
  · simp only [getSpecialSettingTextString] at htext
    split_ifs at htext <;>
    · cases htext
      subst_vars
      decide

variable (stack : Bytes) {setting : Setting}

/-- The line of a key carries the exported field back unless its text is too long. -/
theorem importBytes_exportText {settings : LPCmodSettings} (hsetting : setting ∈ settingsTable)
    (hexport : Exportable settings) :
    ∃ text, setting.exportText settings = some text ∧
      setting.group.importBytes stack text =
        if setting.ReadsBack settings then some (setting.written settings) else none := by
  have hnamed := hexport.named setting hsetting
  obtain ⟨name, group, offset⟩ := setting
  cases group with
  | bool =>
    refine ⟨_, rfl, ?_⟩
    simp only [SettingGroup.importBytes, importBool, importNumber_decimal]
    exact (if_pos ⟨nofun, nofun⟩).symm
  | num =>
    refine ⟨_, rfl, ?_⟩
    simp only [SettingGroup.importBytes, importNumber_decimal]
    exact (if_pos ⟨nofun, nofun⟩).symm
  | ip =>
    refine ⟨_, rfl, ?_⟩
    simp only [SettingGroup.importBytes, assertCorrectIPString_dottedQuad]
    refine if_congr ((length_dottedQuad_lt_iff _ _ _ _).trans ⟨?_, ?_⟩) rfl rfl
    · exact fun hshort ↦ ⟨fun _ ↦ hshort, nofun⟩
    · exact fun hreads ↦ hreads.1 rfl
  | text =>
    refine ⟨_, rfl, if_congr ⟨?_, ?_⟩ rfl rfl⟩
    · exact fun hshort ↦ ⟨nofun, fun _ ↦ hshort⟩
    · exact fun hreads ↦ hreads.2 rfl
  | special index =>
    obtain ⟨text, htext⟩ := isSome_iff_exists.mp (hnamed index rfl)
    refine ⟨ascii text, ?_, ?_⟩
    · simp only [Setting.exportText, add_zero, htext, map_some]
    · simp only [SettingGroup.importBytes, importSpecial_text htext]
      exact (if_pos ⟨nofun, nofun⟩).symm

/-! ### The lines as writes to fields that are apart -/

/-- The bytes that a line writes and where it writes them. -/
def lineField (line : ConfigLine) : Option (ℕ × List UInt8) :=
  (settingsTable.find? fun setting ↦ strcasecmp (ascii setting.name) line.key = 0).bind
    fun setting ↦ (setting.group.importBytes stack line.value).map fun bytes ↦
      (setting.offset, bytes)

/-- The bytes of the exported fields that the import writes. -/
def importedFields (settings : LPCmodSettings) : List (ℕ × List UInt8) :=
  settingsTable.filterMap fun setting ↦
    if setting.ReadsBack settings then some (setting.offset, setting.written settings) else none

theorem image_iniCallback (settings : LPCmodSettings) (line : ConfigLine) {index : ℕ}
    (hindex : index < 3840) :
    (iniCallback stack settings line).image index =
      writeFields (lineField stack line).toList settings.image index := by
  rw [iniCallback, lineField]
  cases settingsTable.find? fun setting ↦ strcasecmp (ascii setting.name) line.key = 0 with
  | none => rfl
  | some setting =>
    cases hbytes : setting.group.importBytes stack line.value with
    | none => simp only [hbytes, bind_some, map_none]; rfl
    | some bytes =>
      simp only [hbytes, bind_some, map_some]
      exact settings.bytes.image_write bytes hindex

/-- An import writes the fields of its lines one after the other. -/
theorem image_foldl_iniCallback (lines : List ConfigLine) (settings : LPCmodSettings) {index : ℕ}
    (hindex : index < 3840) :
    (lines.foldl (iniCallback stack) settings).image index =
      writeFields (lines.filterMap (lineField stack)) settings.image index := by
  induction lines generalizing settings with
  | nil => rfl
  | cons line lines ih =>
    rw [foldl_cons, ih, writeFields_congr (image_iniCallback stack settings line hindex)]
    cases hfield : lineField stack line with
    | none => rw [filterMap_cons_none hfield]; rfl
    | some field => rw [filterMap_cons_some hfield]; rfl

/-- The keys differ even without case, so that every key is found at its own place. -/
theorem find?_settingsTable (hsetting : setting ∈ settingsTable) :
    (settingsTable.find? fun other ↦ strcasecmp (ascii other.name) (ascii setting.name) = 0) =
      some setting :=
  (by decide +kernel : ∀ setting ∈ settingsTable,
    (settingsTable.find? fun other ↦ strcasecmp (ascii other.name) (ascii setting.name) = 0) =
      some setting) setting hsetting

/-- Fields that share no byte. -/
def Setting.Apart (first second : Setting) : Prop :=
  first.offset + first.group.size ≤ second.offset ∨
    second.offset + second.group.size ≤ first.offset

instance : DecidableRel Setting.Apart := fun _ _ ↦ inferInstanceAs (Decidable (_ ∨ _))

instance : Std.Symm Setting.Apart := ⟨fun _ _ h ↦ Or.symm h⟩

theorem settingsTable_apart : settingsTable.Pairwise Setting.Apart := by
  decide +kernel

theorem settingsTable_inside (hsetting : setting ∈ settingsTable) :
    setting.offset + setting.group.size ≤ 3840 :=
  (by decide +kernel : ∀ setting ∈ settingsTable, setting.offset + setting.group.size ≤ 3840)
    setting hsetting

variable {stack : Bytes} {exported current : LPCmodSettings} {lines : List ConfigLine}

/-- The lines of an exported file, in any order, write the exported fields. -/
theorem filterMap_lineField_perm (hexport : Exportable exported)
    (hlines : lines.Perm (lpcModSaveCFGToHDD exported)) :
    (lines.filterMap (lineField stack)).Perm (importedFields exported) := by
  refine (hlines.filterMap (lineField stack)).trans (List.Perm.of_eq ?_)
  rw [lpcModSaveCFGToHDD, filterMap_filterMap, importedFields]
  apply filterMap_congr
  intro setting hsetting
  obtain ⟨text, htext, himport⟩ := importBytes_exportText stack hsetting hexport
  rw [htext, map_some, bind_some, lineField, find?_settingsTable hsetting, bind_some, himport]
  split <;> rfl

theorem length_stored (hgroup : setting.group ≠ .text) (settings : LPCmodSettings) :
    (setting.stored settings).length = setting.group.size := by
  rw [Setting.stored, if_neg hgroup, Packed.length_bytes]

/-- What the import writes fits the field. -/
theorem length_written_le {setting : Setting} (hreads : setting.ReadsBack exported) :
    (setting.written exported).length ≤ setting.group.size := by
  by_cases hgroup : setting.group = .text
  · rw [Setting.written, if_pos hgroup, hgroup, length_append, length_singleton]
    exact le_trans (hreads.2 hgroup) (by decide)
  · rw [Setting.written, if_neg hgroup, length_stored hgroup]

theorem mem_importedFields {field : ℕ × List UInt8} : field ∈ importedFields exported ↔
    ∃ setting ∈ settingsTable, setting.ReadsBack exported ∧
      field = (setting.offset, setting.written exported) := by
  simp only [importedFields, mem_filterMap, ite_none_right_eq_some, some.injEq,
    @eq_comm _ _ field]

theorem importedFields_apart : (importedFields exported).Pairwise FieldsApart := by
  rw [importedFields, pairwise_filterMap]
  refine settingsTable_apart.imp fun {first second} hapart field hfield other hother ↦ ?_
  obtain ⟨hfirst, hfield⟩ := ite_none_right_eq_some.mp hfield
  obtain ⟨hsecond, hother⟩ := ite_none_right_eq_some.mp hother
  obtain rfl := some.inj hfield
  obtain rfl := some.inj hother
  have hfirst := length_written_le hfirst
  have hsecond := length_written_le hsecond
  simp only [Setting.Apart] at hapart
  simp only [FieldsApart]
  omega

/-! ### The imported settings -/

/-- The settings that an import leaves, given by the fields it wrote. -/
structure Imported (exported current imported : LPCmodSettings) : Prop where
  inside : ∀ field ∈ importedFields exported, ∀ offset < field.2.length, field.1 + offset < 3840 →
    imported.image (field.1 + offset) = listImage field.2 offset
  outside : ∀ index < 3840, (∀ field ∈ importedFields exported,
    index < field.1 ∨ field.1 + field.2.length ≤ index) →
    imported.image index = current.image index

theorem imported_of_perm (hexport : Exportable exported)
    (hlines : lines.Perm (lpcModSaveCFGToHDD exported)) :
    Imported exported current (lines.foldl (iniCallback stack) current) := by
  have hperm : (lines.filterMap (lineField stack)).Perm (importedFields exported) :=
    filterMap_lineField_perm hexport hlines
  have hapart : (lines.filterMap (lineField stack)).Pairwise FieldsApart :=
    (hperm.pairwise_iff FieldsApart.symm).mpr importedFields_apart
  constructor
  · intro field hfield offset hoffset hindex
    rw [image_foldl_iniCallback stack lines current hindex]
    exact writeFields_inside hapart (hperm.mem_iff.mpr hfield) hoffset
  · intro index hindex houtside
    rw [image_foldl_iniCallback stack lines current hindex]
    exact writeFields_outside fun field hfield ↦ houtside field (hperm.mem_iff.mp hfield)

namespace Imported

variable {imported : LPCmodSettings} {setting : Setting}

/-- A field that is read back holds the exported value. -/
theorem stored_eq (himported : Imported exported current imported)
    (hsetting : setting ∈ settingsTable) (hreads : setting.ReadsBack exported) :
    setting.stored imported = setting.stored exported := by
  have hlength := length_written_le hreads
  have hinside := settingsTable_inside hsetting
  have hmem : (setting.offset, setting.written exported) ∈ importedFields exported :=
    mem_importedFields.mpr ⟨setting, hsetting, hreads, rfl⟩
  have hwritten : imported.bytes.bytes setting.offset (setting.written exported).length =
      setting.written exported :=
    bytesAt_eq fun index hindex ↦ himported.inside _ hmem index hindex (by omega)
  by_cases hgroup : setting.group = .text
  · obtain ⟨rest, hrest⟩ := Nat.exists_eq_add_of_le hlength
    have hletters : ∀ letter ∈ setting.stored exported, letter ≠ 0 := by
      rw [Setting.stored, if_pos hgroup]
      exact fun letter hletter ↦ ne_zero_of_mem_cString hletter
    have hfield : setting.stored imported = cString (setting.written exported ++
        imported.bytes.bytes (setting.offset + (setting.written exported).length) rest) := by
      rw [Setting.stored, if_pos hgroup, hrest, ← Packed.bytes_append, hwritten]
    rw [hfield, Setting.written, if_pos hgroup, append_assoc, singleton_append,
      cString_append hletters]
  · rw [Setting.written, if_neg hgroup, length_stored hgroup] at hwritten
    rw [Setting.stored, if_neg hgroup, hwritten]

/-- A field that is not read back holds what it held before. -/
theorem stored_eq_current (himported : Imported exported current imported)
    (hsetting : setting ∈ settingsTable) (hreads : ¬setting.ReadsBack exported) :
    setting.stored imported = setting.stored current := by
  have hinside := settingsTable_inside hsetting
  have hbytes : imported.bytes.bytes setting.offset setting.group.size =
      current.bytes.bytes setting.offset setting.group.size := by
    apply bytesAt_congr
    intro index hindex
    apply himported.outside _ (by omega)
    intro field hfield
    obtain ⟨other, hother, hread, rfl⟩ := mem_importedFields.mp hfield
    have hne : setting ≠ other := fun hsame ↦ hreads (hsame ▸ hread)
    have hapart : setting.Apart other := settingsTable_apart.forall hsetting hother hne
    have hlength := length_written_le hread
    simp only [Setting.Apart] at hapart
    simp only
    omega
  rw [Setting.stored, Setting.stored, hbytes]

end Imported

/-- The settings after an import have the exported fields and, outside of them, the bytes that were
in memory. -/
structure RoundTrip (exported current imported : LPCmodSettings) : Prop where
  fields : ∀ setting ∈ settingsTable, setting.stored imported = setting.stored exported
  rest : ∀ index < 3840, (∀ setting ∈ settingsTable,
    index < setting.offset ∨ setting.offset + setting.group.size ≤ index) →
    imported.image index = current.image index

/-- An export followed by an import brings back the exported fields exactly when each of them
passes the length check of the import or is already in memory. -/
theorem config_round_trip_iff (stack : Bytes) (exported current : LPCmodSettings)
    (lines : List ConfigLine) (hexport : Exportable exported)
    (hlines : lines.Perm (lpcModSaveCFGToHDD exported)) :
    ∃ imported, lpcModReadCFGFromHDD stack true (some lines) current = (0, imported) ∧
      (RoundTrip exported current imported ↔ ∀ setting ∈ settingsTable,
        setting.ReadsBack exported ∨ setting.stored current = setting.stored exported) := by
  have himported : Imported exported current (lines.foldl (iniCallback stack) current) :=
    imported_of_perm hexport hlines
  refine ⟨lines.foldl (iniCallback stack) current, rfl, fun hround setting hsetting ↦ ?_,
    fun hfields ↦ ⟨fun setting hsetting ↦ ?_, fun index hindex houtside ↦ ?_⟩⟩
  · by_cases hreads : setting.ReadsBack exported
    · exact .inl hreads
    · right
      rw [← himported.stored_eq_current hsetting hreads, hround.fields setting hsetting]
  · by_cases hreads : setting.ReadsBack exported
    · exact himported.stored_eq hsetting hreads
    · exact (himported.stored_eq_current hsetting hreads).trans
        ((hfields setting hsetting).resolve_left hreads)
  · apply himported.outside index hindex
    intro field hfield
    obtain ⟨setting, hsetting, hreads, rfl⟩ := mem_importedFields.mp hfield
    have hlength := length_written_le hreads
    have hbeside := houtside setting hsetting
    simp only
    omega

/-- A bank, a flag, a number, a name, the address 192.168.1.10 and a text. -/
def filledSettings : LPCmodSettings :=
  ⟨fun index ↦ writeFields [(1, [0x86]), (3, [1]), (5, [40]), (14, ascii "Modded"),
    (112, [192, 168, 1, 10]), (278, ascii "Hello, XBlast")] (fun _ ↦ 0) index⟩

theorem filledSettings_exportable : Exportable filledSettings where
  named := by decide +kernel
  texts := by decide +kernel

theorem filledSettings_round_trip :
    ∃ imported, lpcModReadCFGFromHDD (fun _ ↦ 0) true (some (lpcModSaveCFGToHDD filledSettings))
        ⟨fun _ ↦ 0xFF⟩ = (0, imported) ∧ RoundTrip filledSettings ⟨fun _ ↦ 0xFF⟩ imported := by
  obtain ⟨imported, hread, hround⟩ := config_round_trip_iff (fun _ ↦ 0) filledSettings
    ⟨fun _ ↦ 0xFF⟩ (lpcModSaveCFGToHDD filledSettings) filledSettings_exportable (List.Perm.refl _)
  exact ⟨imported, hread, hround.mpr (by decide +kernel)⟩

/-- The address 192.168.100.100 and a name of 20 letters for the first bank. -/
def longSettings : LPCmodSettings :=
  ⟨(zeroSettings.bytes.write 112 [192, 168, 100, 100]).write 14 (List.replicate 20 0x41)⟩

theorem longSettings_exportable : Exportable longSettings where
  named := by decide +kernel
  texts := by decide +kernel

/-- Neither the address nor the name comes back, although both can be exported. -/
theorem longSettings_not_round_trip :
    Exportable longSettings ∧
      ∀ setting ∈ ([⟨"staticip", .ip, 112⟩, ⟨"512kbname", .text, 14⟩] : List Setting),
        setting ∈ settingsTable ∧ setting.stored (lpcModReadCFGFromHDD (fun _ ↦ 0) true
          (some (lpcModSaveCFGToHDD longSettings)) zeroSettings).2 ≠
            setting.stored longSettings := by
  refine ⟨longSettings_exportable, fun setting hsetting ↦ ?_⟩
  have himported : Imported longSettings zeroSettings ((lpcModSaveCFGToHDD longSettings).foldl
      (iniCallback fun _ ↦ 0) zeroSettings) :=
    imported_of_perm longSettings_exportable (List.Perm.refl _)
  have hlost : setting ∈ settingsTable ∧ ¬setting.ReadsBack longSettings ∧
      setting.stored zeroSettings ≠ setting.stored longSettings := by
    revert setting
    decide +kernel
  refine ⟨hlost.1, ?_⟩
  rw [← himported.stored_eq_current hlost.1 hlost.2.1] at hlost
  exact hlost.2.2

end XBlast.Settings
