import XBlast.Eeprom.Import
import XBlast.Foundation.Iteration

/-!
# Editing the EEPROM

The video and region menus change `eeprom`, the image in memory, in place. The EEPROM edit menu
works on a second image, `editeeprom`, that lives for one visit of the menu: it begins as a copy of
`eeprom`, an import replaces it, `editMACAddress` changes the MAC address in it, and
`replaceEEPROMContentFromBuffer` makes it the image in memory and restarts the console, which writes
the bytes that changed since the last start to the chip. A visit that the user leaves gives the
buffer up. `restoreEEPromFromFlash` is an import into a buffer of its own and, if it is accepted, a
save: a visit with these two actions.

Every operation on `eeprom` recomputes the checksum over the field it touches, and so does an
import. `editMACAddress` does not. `edits_consistent_iff` says which sequences of operations end
with valid checksums: those whose last renewal of `Checksum2` in `eeprom` is not the saving of an
edit buffer in which a typed MAC address left the checksum behind.
-/

set_option autoImplicit false
set_option relaxedAutoImplicit false

namespace XBlast.Eeprom

open Foundation

/-! ### The operations -/

def eepromSetVideoStandard (standard : VideoStandard) (eeprom : EepromData) : EepromData :=
  refreshChecksum2
    (eeprom.write Field.videoStandard ((List.range 4).map (byteOf32 standard.value)))

def eepromSetVideoFormat (format : VidScreenFormat) (eeprom : EepromData) : EepromData :=
  let formats := VidScreenFormat.fullScreen.value ||| VidScreenFormat.widescreen.value |||
    VidScreenFormat.letterbox.value
  let flags := eeprom.image (Field.videoFlags + 2) &&& ~~~formats
  refreshChecksum3 (eeprom.write (Field.videoFlags + 2) [flags ||| format.value])

/-- The region is changed in the opened block, which is sealed again for the version found. The
test on the version lets an image through that opens with no version at all. -/
def setGameRegionValue (hmac : Hmac) (value : UInt8)
    (eeprom : EepromData) : EepromData :=
  let version := (decryptEEPROMData hmac eeprom).1
  if EncryptVersion.v1_6.value < version.value then
    eeprom
  else
    let copy := (decryptEEPROMData hmac eeprom).2.write Field.xbeRegion [value, 0, 0, 0]
    (encryptEEPROMData hmac copy eeprom version).2

/-- The `switch` of `editMACAddress`. -/
def hexNibble : Char → Option UInt8
  | '0' => some 0x0
  | '1' => some 0x1
  | '2' => some 0x2
  | '3' => some 0x3
  | '4' => some 0x4
  | '5' => some 0x5
  | '6' => some 0x6
  | '7' => some 0x7
  | '8' => some 0x8
  | '9' => some 0x9
  | 'A' => some 0xA
  | 'B' => some 0xB
  | 'C' => some 0xC
  | 'D' => some 0xD
  | 'E' => some 0xE
  | 'F' => some 0xF
  | _ => none

/-- The bytes for a text of digits, two for each. A character that is no digit leaves its nibble
as the digits before it set it. -/
def macBytes (nibble : UInt8 × UInt8) : List Char → List UInt8
  | high :: low :: rest =>
    let nibble := ((hexNibble high).getD nibble.1, (hexNibble low).getD nibble.2)
    ((nibble.1 <<< 4) ||| nibble.2) :: macBytes nibble rest
  | _ => []

/-- Writes the MAC address that the on-screen keyboard returns. `nibble` is the array of nibbles,
which is not initialised. -/
def editMACAddress (nibble : UInt8 × UInt8) (macString : List Char) (editeeprom : EepromData) :
    EepromData :=
  if macString.length = 12 then editeeprom.write Field.macAddress (macBytes nibble macString)
  else editeeprom

/-- What `replaceEEPROMContentFromBuffer` learns about a drive; `unlockFails` is what `UnlockHDD`
returns. -/
structure Drive where
  driveExists : Bool
  atapi : Bool
  securitySettings : UInt16
  unlockFails : Bool

def Drive.unlockConfirm (drive : Drive) : UInt8 :=
  if drive.driveExists = true ∧ drive.atapi = false then
    if drive.securitySettings &&& 0x0002 = 0x0002 then
      if drive.unlockFails then 255 else 1
    else 0
  else 0

/-- Only a drive that stays locked makes the dialog appear, and `refused` is what it returns. -/
def cancelChanges (first second : Drive) (refused : Bool) : Bool :=
  if first.unlockConfirm = 255 ∨ second.unlockConfirm = 255 then refused else false

/-- The images in memory and on the chip. `origEeprom` is the copy made at the last start. -/
structure EditSession where
  eeprom : EepromData
  origEeprom : EepromData
  chip : EepromData

/-- The session of a console that has started from a chip. -/
def EditSession.start (chip : EepromData) : EditSession :=
  { eeprom := chip, origEeprom := chip, chip := chip }

/-- `assertWriteEEPROM`: the bytes that differ from those at the last start are written. -/
def EditSession.assertWriteEEPROM (session : EditSession) : EditSession :=
  { session with chip := fun index ↦
      if session.eeprom index ≠ session.origEeprom index then session.eeprom index
      else session.chip index }

/-- Saving a buffer ends with a restart. There is no session to return to unless the changes are
cancelled. -/
def EditSession.replaceEEPROMContentFromBuffer (first second : Drive) (refused : Bool)
    (eepromPtr : EepromData) (session : EditSession) : Option EditSession :=
  if cancelChanges first second refused then none
  else some (.start { session with eeprom := eepromPtr }.assertWriteEEPROM.chip)

/-- What is done in the edit menu, with the user's answers and what the hardware returns. -/
inductive EditAction
  | importImage (revision : MotherboardRevision) (refused : Bool) (buffer : Option EepromData)
      (size : ℕ)
  | editMAC (nibble : UInt8 × UInt8) (macString : List Char)
  | save (first second : Drive) (refused : Bool)

/-- The edit operations. `refused` of the edit menu is the answer to its warning. -/
inductive EditOperation
  | setVideoStandard (standard : VideoStandard)
  | setVideoFormat (format : VidScreenFormat)
  | setGameRegion (value : UInt8)
  | editMenu (refused : Bool) (actions : List EditAction)

section

variable (hmac : Hmac)

/-- What an action leaves in the edit buffer. -/
def editBuffer (editeeprom : EepromData) : EditAction → EepromData
  | .importImage revision refused buffer size =>
    (updateEEPROMEditBufferFromInputBuffer hmac revision refused buffer size editeeprom).2
  | .editMAC nibble macString => editMACAddress nibble macString editeeprom
  | .save _ _ _ => editeeprom

variable (session : EditSession)

/-- The session that an action of the edit menu ends the visit with, if it does. -/
def EditSession.restart (editeeprom : EepromData) : EditAction → Option EditSession
  | .save first second refused =>
    session.replaceEEPROMContentFromBuffer first second refused editeeprom
  | _ => none

/-- The rest of a visit of the edit menu. When the user leaves, the buffer is given up. -/
def EditSession.visit : List EditAction → EepromData → EditSession
  | [], _ => session
  | action :: actions, editeeprom =>
    (session.restart editeeprom action).getD
      (EditSession.visit actions (editBuffer hmac editeeprom action))

/-- A visit begins with a copy of `eeprom` in the edit buffer. -/
def EditSession.warningDisplayEepromEditMenu (refused : Bool) (actions : List EditAction) :
    EditSession :=
  if refused then session else session.visit hmac actions session.eeprom

def EditSession.perform : EditOperation → EditSession
  | .setVideoStandard standard =>
    { session with eeprom := eepromSetVideoStandard standard session.eeprom }
  | .setVideoFormat format =>
    { session with eeprom := eepromSetVideoFormat format session.eeprom }
  | .setGameRegion value =>
    { session with eeprom := setGameRegionValue hmac value session.eeprom }
  | .editMenu refused actions => session.warningDisplayEepromEditMenu hmac refused actions

def EditSession.performAll (operations : List EditOperation) : EditSession :=
  operations.foldl (EditSession.perform hmac) session

/-- The save that goes through. -/
def EditAction.Saves : EditAction → Prop
  | .save first second refused => cancelChanges first second refused = false
  | _ => False

/-- The actions that put something into the edit buffer: an import that is accepted and a MAC
address of the right length. -/
def EditAction.Renews : EditAction → Prop
  | .importImage revision refused buffer size => ∀ editeeprom,
      (updateEEPROMEditBufferFromInputBuffer hmac revision refused buffer size editeeprom).1 = 0
  | .editMAC _ macString => macString.length = 12
  | .save _ _ _ => False

/-- The visit saves its buffer, `action` is the last to put something into it before that, and
`prior` are the actions before `action`. -/
def LastRenewal (actions prior : List EditAction) (action : EditAction) : Prop :=
  ∃ middle save rest,
    actions = prior ++ action :: (middle ++ save :: rest) ∧
    action.Renews hmac ∧ save.Saves ∧
    (∀ earlier ∈ prior, ¬earlier.Saves) ∧
    ∀ later ∈ middle, ¬later.Saves ∧ ¬later.Renews hmac

/-- The operations after which `Checksum2` of the image in memory no longer depends on what it
was. -/
def EditOperation.RenewsEeprom : EditOperation → Prop
  | .setVideoStandard _ => True
  | .editMenu refused actions =>
    refused = false ∧ ∃ prior action, LastRenewal hmac actions prior action
  | _ => False

/-- In a visit of the edit menu a MAC address is typed whose checksum differs from the stored one,
the buffer is saved before an import or another MAC address replaces it, and nothing renews the
checksum later. -/
def SavesStaleMac (operations : List EditOperation) : Prop :=
  ∃ before actions after prior nibble macString,
    operations = before ++ .editMenu false actions :: after ∧
    LastRenewal hmac actions prior (.editMAC nibble macString) ∧
    ¬Checksum2Valid (editMACAddress nibble macString
      (prior.foldl (editBuffer hmac) (session.performAll hmac before).eeprom)) ∧
    ∀ later ∈ after, ¬later.RenewsEeprom hmac

end

/-! ### What each operation does to the checksums -/

section

variable {hmac : Hmac} {eeprom : EepromData}

theorem checksum2Valid_setVideoStandard (standard : VideoStandard) :
    Checksum2Valid (eepromSetVideoStandard standard eeprom) :=
  checksum2Valid_refresh _

theorem checksum3Valid_setVideoStandard {standard : VideoStandard} :
    Checksum3Valid (eepromSetVideoStandard standard eeprom) ↔ Checksum3Valid eeprom :=
  checksum3Valid_refreshChecksum2.trans (checksum3Valid_write (.inl (by
    rw [List.length_map, List.length_range]
    decide)))

theorem checksum2Valid_setVideoFormat {format : VidScreenFormat} :
    Checksum2Valid (eepromSetVideoFormat format eeprom) ↔ Checksum2Valid eeprom :=
  checksum2Valid_refreshChecksum3.trans (checksum2Valid_write (.inr (by decide)))

theorem checksum3Valid_setVideoFormat (format : VidScreenFormat) :
    Checksum3Valid (eepromSetVideoFormat format eeprom) :=
  checksum3Valid_refresh _

theorem checksum2Valid_setGameRegionValue {value : UInt8} :
    Checksum2Valid (setGameRegionValue hmac value eeprom) ↔ Checksum2Valid eeprom := by
  rw [setGameRegionValue]
  split_ifs
  · exact Iff.rfl
  · exact checksum2Valid_write (.inl (by rw [Packed.length_bytes]; decide))

theorem checksum3Valid_setGameRegionValue {value : UInt8} :
    Checksum3Valid (setGameRegionValue hmac value eeprom) ↔ Checksum3Valid eeprom := by
  rw [setGameRegionValue]
  split_ifs
  · exact Iff.rfl
  · exact checksum3Valid_write (.inl (by rw [Packed.length_bytes]; decide))

theorem macBytes_length (nibble : UInt8 × UInt8) (macString : List Char) :
    (macBytes nibble macString).length = macString.length / 2 := by
  induction macString using List.twoStepInduction generalizing nibble with
  | nil => rfl
  | singleton digit => simp [macBytes]
  | cons_cons high low rest ih =>
    rw [macBytes, List.length_cons, ih, List.length_cons, List.length_cons]
    omega

/-- A MAC address is outside the range of `Checksum3`. -/
theorem checksum3Valid_editMACAddress {nibble : UInt8 × UInt8} {macString : List Char} :
    Checksum3Valid (editMACAddress nibble macString eeprom) ↔ Checksum3Valid eeprom := by
  rw [editMACAddress]
  split_ifs with hlength
  · refine checksum3Valid_write (.inl ?_)
    rw [macBytes_length, hlength]
    decide
  · exact Iff.rfl

end

/-! ### A visit of the edit menu -/

/-- What holds of every session: the chip holds what was read at the last start, and `Checksum3` of
the image in memory is valid. -/
structure EditSession.Sound (session : EditSession) : Prop where
  chip_eq : session.chip = session.origEeprom
  eeprom_checksum3 : Checksum3Valid session.eeprom

theorem EditSession.sound_start {image : EepromData} (himage : Checksum3Valid image) :
    (EditSession.start image).Sound :=
  ⟨rfl, himage⟩

/-- The chip ends up with the image in memory. -/
theorem EditSession.chip_assertWriteEEPROM {session : EditSession}
    (hchip : session.chip = session.origEeprom) :
    session.assertWriteEEPROM.chip = session.eeprom := by
  funext index
  by_cases hsame : session.eeprom index = session.origEeprom index
  · exact (if_neg (not_not.mpr hsame)).trans (hchip ▸ hsame.symm)
  · exact if_pos hsame

section

variable {hmac : Hmac} {session : EditSession}
  {editeeprom : EepromData} {action : EditAction} {actions prior : List EditAction}

/-- A save that goes through restarts the console with the buffer. -/
theorem EditSession.Sound.restart_eq (hsound : session.Sound) (hsaves : action.Saves) :
    session.restart editeeprom action = some (.start editeeprom) := by
  cases action with
  | save first second refused =>
    have hchip : ({ session with eeprom := editeeprom } : EditSession).assertWriteEEPROM.chip =
        editeeprom :=
      chip_assertWriteEEPROM hsound.chip_eq
    rw [restart, replaceEEPROMContentFromBuffer, if_neg (Bool.eq_false_iff.mp hsaves), hchip]
  | _ => exact absurd hsaves id

theorem EditSession.restart_eq_none (hstays : ¬action.Saves) :
    session.restart editeeprom action = none := by
  cases action with
  | save first second refused => exact if_pos (Bool.eq_true_of_not_eq_false hstays)
  | _ => rfl

/-- The import that is refused and the MAC address of another length leave the buffer alone. -/
theorem editBuffer_eq (hkeeps : ¬action.Renews hmac) :
    editBuffer hmac editeeprom action = editeeprom := by
  cases action with
  | importImage revision refused buffer size =>
    obtain ⟨image, -, -, -, -, -, houtcome⟩ | ⟨-, code, -, houtcome⟩ :=
      update_cases hmac revision refused buffer size
    · exact absurd (fun editeeprom ↦ congrArg Prod.fst (houtcome editeeprom)) hkeeps
    · rw [editBuffer, houtcome]
  | editMAC nibble macString => exact if_neg hkeeps
  | save first second refused => rfl

theorem checksum3Valid_editBuffer (hvalid : Checksum3Valid editeeprom) (action : EditAction) :
    Checksum3Valid (editBuffer hmac editeeprom action) := by
  cases action with
  | importImage revision refused buffer size =>
    obtain ⟨image, -, -, -, -, -, houtcome⟩ | ⟨-, code, -, houtcome⟩ :=
      update_cases hmac revision refused buffer size
    · rw [editBuffer, houtcome]
      exact consistent_retargeted.2
    · rw [editBuffer, houtcome]
      exact hvalid
  | editMAC nibble macString => exact checksum3Valid_editMACAddress.mpr hvalid
  | save first second refused => exact hvalid

theorem EditSession.Sound.visit (hsound : session.Sound) (hvalid : Checksum3Valid editeeprom) :
    (session.visit hmac actions editeeprom).Sound := by
  induction actions generalizing editeeprom with
  | nil => exact hsound
  | cons action actions ih =>
    rw [EditSession.visit]
    by_cases hsaves : action.Saves
    · rw [hsound.restart_eq hsaves]
      exact sound_start hvalid
    · rw [restart_eq_none hsaves]
      exact ih (checksum3Valid_editBuffer hvalid action)

theorem EditSession.visit_append (hstays : ∀ action ∈ prior, ¬action.Saves) :
    session.visit hmac (prior ++ actions) editeeprom =
      session.visit hmac actions (prior.foldl (editBuffer hmac) editeeprom) := by
  induction prior generalizing editeeprom with
  | nil => rfl
  | cons action prior ih =>
    rw [List.forall_mem_cons] at hstays
    rw [List.cons_append, visit, restart_eq_none hstays.1, Option.getD_none, ih hstays.2,
      List.foldl_cons]

/-- The visit restarts the console with what the last renewal has put into the buffer. -/
theorem EditSession.Sound.visit_eq (hsound : session.Sound)
    (hlast : LastRenewal hmac actions prior action) :
    session.visit hmac actions editeeprom =
      .start (editBuffer hmac (prior.foldl (editBuffer hmac) editeeprom) action) := by
  obtain ⟨middle, save, rest, rfl, hrenews, hsaves, hprior, hmiddle⟩ := hlast
  have hstays : ∀ other ∈ action :: middle, ¬other.Saves := by
    refine List.forall_mem_cons.mpr ⟨?_, fun other hother ↦ (hmiddle other hother).1⟩
    cases action with
    | save first second refused => exact absurd hrenews id
    | _ => exact id
  have hunchanged (buffer : EepromData) : middle.foldl (editBuffer hmac) buffer = buffer :=
    List.foldlRecOn (motive := (· = buffer)) middle (editBuffer hmac) rfl
      fun _ heq other hother ↦ (editBuffer_eq (hmiddle other hother).2).trans heq
  rw [visit_append hprior, ← List.cons_append, visit_append hstays, List.foldl_cons, hunchanged,
    EditSession.visit, hsound.restart_eq hsaves, Option.getD_some]

/-- A visit in which nothing that was put into the buffer is saved: either there is no restart, or
the buffer is saved as it was found. -/
theorem EditSession.Sound.visit_cases (hsound : session.Sound)
    (hmac : Hmac) (actions : List EditAction)
    (editeeprom : EepromData) :
    session.visit hmac actions editeeprom = session ∨
      session.visit hmac actions editeeprom = .start editeeprom ∧
        (∃ middle save rest, actions = middle ++ save :: rest ∧ save.Saves ∧
          ∀ later ∈ middle, ¬later.Saves ∧ ¬later.Renews hmac) ∨
      ∃ prior action, LastRenewal hmac actions prior action := by
  induction actions generalizing editeeprom with
  | nil => exact .inl rfl
  | cons action actions ih =>
    rw [EditSession.visit]
    by_cases hsaves : action.Saves
    · rw [hsound.restart_eq hsaves]
      exact .inr (.inl ⟨rfl, [], action, actions, rfl, hsaves, List.forall_mem_nil _⟩)
    rw [restart_eq_none hsaves, Option.getD_none]
    obtain hstays | ⟨hstart, middle, save, rest, rfl, hsave, hmiddle⟩ |
      ⟨prior, last, middle, save, rest, rfl, hrenews, hsave, hprior, hmiddle⟩ :=
        ih (editBuffer hmac editeeprom action)
    · exact .inl hstays
    · by_cases hrenews : action.Renews hmac
      · exact .inr (.inr ⟨[], action, middle, save, rest, rfl, hrenews, hsave,
          List.forall_mem_nil _, hmiddle⟩)
      · rw [editBuffer_eq hrenews] at hstart ⊢
        exact .inr (.inl ⟨hstart, action :: middle, save, rest, rfl, hsave,
          List.forall_mem_cons.mpr ⟨⟨hsaves, hrenews⟩, hmiddle⟩⟩)
    · exact .inr (.inr ⟨action :: prior, last, middle, save, rest, rfl, hrenews, hsave,
        List.forall_mem_cons.mpr ⟨hsaves, hprior⟩, hmiddle⟩)

/-! ### Whole sessions -/

theorem EditSession.Sound.perform (hsound : session.Sound) (operation : EditOperation) :
    (session.perform hmac operation).Sound := by
  obtain ⟨hchip, heeprom⟩ := hsound
  cases operation with
  | setVideoStandard standard => exact ⟨hchip, checksum3Valid_setVideoStandard.mpr heeprom⟩
  | setVideoFormat format => exact ⟨hchip, checksum3Valid_setVideoFormat format⟩
  | setGameRegion value => exact ⟨hchip, checksum3Valid_setGameRegionValue.mpr heeprom⟩
  | editMenu refused actions =>
    rw [EditSession.perform, warningDisplayEepromEditMenu]
    split_ifs
    · exact ⟨hchip, heeprom⟩
    · exact Sound.visit ⟨hchip, heeprom⟩ heeprom

/-- `Checksum2` of the image in memory changes only with the operations that renew it. -/
theorem EditSession.Sound.checksum2_iff (hsound : session.Sound) {operation : EditOperation}
    (hkeeps : ¬operation.RenewsEeprom hmac) :
    ¬Checksum2Valid (session.perform hmac operation).eeprom ↔ ¬Checksum2Valid session.eeprom := by
  cases operation with
  | setVideoStandard standard => exact absurd trivial hkeeps
  | setVideoFormat format => exact not_congr checksum2Valid_setVideoFormat
  | setGameRegion value => exact not_congr checksum2Valid_setGameRegionValue
  | editMenu refused actions =>
    rw [EditSession.perform, warningDisplayEepromEditMenu]
    cases refused with
    | true => exact Iff.rfl
    | false =>
      rw [if_neg Bool.false_ne_true]
      obtain hsame | ⟨hstart, -⟩ | hlast := hsound.visit_cases hmac actions session.eeprom
      · rw [hsame]
      · rw [hstart, start]
      · exact absurd ⟨rfl, hlast⟩ hkeeps

/-- Of the operations that renew `Checksum2`, the visits that save a typed MAC address are the only
ones that can leave it wrong. -/
theorem EditSession.Sound.stale_iff (hsound : session.Sound) {operation : EditOperation}
    (hrenews : operation.RenewsEeprom hmac) :
    ¬Checksum2Valid (session.perform hmac operation).eeprom ↔
      ∃ actions prior nibble macString, operation = .editMenu false actions ∧
        LastRenewal hmac actions prior (.editMAC nibble macString) ∧
        ¬Checksum2Valid (editMACAddress nibble macString
          (prior.foldl (editBuffer hmac) session.eeprom)) := by
  constructor
  · intro hstale
    cases operation with
    | setVideoStandard standard =>
      exact absurd (checksum2Valid_setVideoStandard standard) hstale
    | editMenu refused actions =>
      obtain ⟨rfl, prior, action, hlast⟩ := hrenews
      rw [EditSession.perform, warningDisplayEepromEditMenu, if_neg Bool.false_ne_true,
        hsound.visit_eq hlast] at hstale
      obtain ⟨-, -, -, -, haction, -⟩ := id hlast
      cases action with
      | importImage revision refused buffer size =>
        obtain ⟨retargetedImage, -, -, -, -, -, houtcome⟩ | ⟨-, code, hcode, houtcome⟩ :=
          update_cases hmac revision refused buffer size
        · rw [editBuffer, houtcome] at hstale
          exact absurd consistent_retargeted.1 hstale
        · exact absurd (haction session.eeprom) (by rwa [houtcome])
      | editMAC nibble macString => exact ⟨actions, prior, nibble, macString, rfl, hlast, hstale⟩
      | save first second refused => exact absurd haction id
    | _ => exact absurd hrenews id
  · rintro ⟨actions, prior, nibble, macString, rfl, hlast, hstale⟩
    rw [EditSession.perform, warningDisplayEepromEditMenu, if_neg Bool.false_ne_true,
      hsound.visit_eq hlast]
    exact hstale

end

/-- **Which edits keep the checksums valid.** From a consistent image every sequence of operations
ends with the image in memory on the chip once the console restarts, and that image is consistent
unless a MAC address with another checksum was typed and saved, with nothing renewing the checksum
after it. -/
theorem edits_consistent_iff (hmac : Hmac)
    (image : EepromData) (himage : Consistent image) (operations : List EditOperation) :
    let final := (EditSession.start image).performAll hmac operations
    final.assertWriteEEPROM.chip = final.eeprom ∧
      (Consistent final.eeprom ↔ ¬SavesStaleMac hmac (EditSession.start image) operations) := by
  have hperform : ∀ session operation, EditSession.Sound session →
      (session.perform hmac operation).Sound := fun _ operation hsound ↦ hsound.perform operation
  have hsound (operations : List EditOperation) :
      ((EditSession.start image).performAll hmac operations).Sound :=
    foldl_invariant hperform (EditSession.sound_start himage.2) operations
  refine ⟨EditSession.chip_assertWriteEEPROM (hsound operations).chip_eq, ?_⟩
  rw [Consistent, and_iff_left (hsound operations).eeprom_checksum3, ← not_iff_not, not_not]
  -- the last operation that renews `Checksum2` decides
  refine (foldl_last_change (fun session ↦ ¬Checksum2Valid session.eeprom)
    (EditOperation.RenewsEeprom hmac) hperform (fun _ _ hsound hkeeps ↦ hsound.checksum2_iff hkeeps)
    (EditSession.sound_start himage.2) (not_not.mpr himage.1) operations).trans ⟨?_, ?_⟩
  · rintro ⟨before, operation, after, rfl, hrenews, hafter, hstale⟩
    obtain ⟨actions, prior, nibble, macString, rfl, hlast, hstale⟩ :=
      ((hsound before).stale_iff hrenews).mp hstale
    exact ⟨before, actions, after, prior, nibble, macString, rfl, hlast, hstale, hafter⟩
  · rintro ⟨before, actions, after, prior, nibble, macString, rfl, hlast, hstale, hafter⟩
    have hrenews : EditOperation.RenewsEeprom hmac (.editMenu false actions) :=
      ⟨rfl, prior, _, hlast⟩
    exact ⟨before, .editMenu false actions, after, rfl, hrenews, hafter,
      ((hsound before).stale_iff hrenews).mpr
        ⟨actions, prior, nibble, macString, rfl, hlast, hstale⟩⟩

/-- An image of zeros with its checksums. -/
def zeroImage : EepromData := refreshChecksum3 (refreshChecksum2 fun _ ↦ 0)

/-- No drive on a port. -/
def noDrive : Drive :=
  { driveExists := false, atapi := false, securitySettings := 0, unlockFails := false }

/-- A MAC address that is typed into the image of zeros and not saved is gone at the next visit of
the menu, which saves the image as it was. -/
theorem zeroImage_edits_consistent :
    Consistent ((EditSession.start zeroImage).performAll versionHmac
      [.editMenu false [.editMAC (0, 0) "000000000001".toList],
        .editMenu false [.save noDrive noDrive false], .setVideoFormat .letterbox]).eeprom := by
  refine (edits_consistent_iff versionHmac zeroImage (consistent_refresh _) _).2.mpr ?_
  rintro ⟨before, actions, after, prior, nibble, macString, hsplit, hlast, -⟩
  obtain ⟨middle, save, rest, hvisit, -⟩ := hlast
  have hmem : EditOperation.editMenu false actions ∈
      [EditOperation.editMenu false [.editMAC (0, 0) "000000000001".toList],
        .editMenu false [.save noDrive noDrive false], .setVideoFormat .letterbox] :=
    hsplit ▸ List.mem_append_right before List.mem_cons_self
  -- a visit that types an address and saves has two actions
  have hlength : 2 ≤ actions.length := by
    rw [hvisit]
    simp only [List.length_append, List.length_cons]
    omega
  simp only [List.mem_cons, EditOperation.editMenu.injEq, true_and, List.not_mem_nil, or_false,
    reduceCtorEq] at hmem
  obtain rfl | rfl := hmem <;> simp at hlength

/-- Typing the MAC address `000000000001` into an image of zeros and saving it leaves the console
with a wrong `Checksum2`. -/
theorem zeroImage_typed_mac_inconsistent :
    Consistent zeroImage ∧
      ¬Consistent ((EditSession.start zeroImage).performAll versionHmac
        [.editMenu false [.editMAC (0, 0) "000000000001".toList,
          .save noDrive noDrive false]]).eeprom :=
  ⟨consistent_refresh _, by decide +kernel⟩

end XBlast.Eeprom
