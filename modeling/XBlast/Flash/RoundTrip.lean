import XBlast.Flash.ReadJob
import XBlast.Flash.SaveJob

/-!
# Settings round trip

Settings that were saved are the settings that the next boot reads. The saves happen in turn, each
after the one before has completed and the machine has been freed, and the boot read fetches the
range that the last of them has written.
-/

set_option autoImplicit false
set_option relaxedAutoImplicit false

namespace XBlast.Flash

open Foundation Option

variable {σ : Type*} {device : FlashLowLevel σ} {hardware : Hardware} {state : FlashState σ}

/-! ### The boot read -/

/-- A read request on an idle machine starts a read at the offset that the flash asks for. -/
theorem ReadJob.start (flash : SectoredFlash device) (hardware : Hardware)
    (state : FlashState σ) {offset : ℕ}
    (hidle : state.currentFlashOp = .idle) (haddr : state.currentAddr = 0)
    (hanswer : (device.readDevice state.chip).1.isSome = true)
    (hoffset : getXBlastOSSettingStartingOffset (.ofImage (flash.content state.chip)) = offset)
    (hlocated : offset ≠ 0) :
    ReadJob flash.toNorFlash offset (flash.content state.chip)
      (readXBlastOSSettingsRequest device hardware state) := by
  have hready := flash.readDevice_ready state.chip hanswer
  have hcontent := (flash.switchOSBank_content (device.readDevice state.chip).2).trans
    (flash.readDevice_content state.chip)
  obtain ⟨flashType, hread⟩ := readDevice_eq device state
  rw [readXBlastOSSettingsRequest, if_pos hidle, hread, hanswer]
  simp only [Bool.true_or, if_true,
    getBiosIdentifierFromFlash_eq flash.toNorFlash (flash.switchOSBank_ready _ hready),
    hcontent, hoffset, if_neg hlocated]
  exact .pending ⟨rfl, rfl, rfl, hcontent⟩ rfl haddr

theorem readXBlastOSSettingsRequest_chip (hardware : Hardware) (state : FlashState σ)
    (hidle : state.currentFlashOp = .idle)
    (hanswer : (device.readDevice state.chip).1.isSome = true) :
    (readXBlastOSSettingsRequest device hardware state).chip =
      device.switchOSBank .osBank (device.readDevice state.chip).2 := by
  obtain ⟨flashType, hread⟩ := readDevice_eq device state
  rw [readXBlastOSSettingsRequest, if_pos hidle, hread, hanswer]
  simp only [Bool.true_or, if_true]
  split_ifs <;> rfl

variable {settings : LPCmodSettings} {rounds : ℕ}

/-- The loop of the boot read ends with the settings of the state in which the run completes. -/
theorem bootReadLoop_of_completed {calls : ℕ} {loaded : Bool}
    (hcompleted : ((executeFlashFSM device)^[calls] state).currentFlashOp = .completed)
    (hload : loadXBlastOSSettings hardware ((executeFlashFSM device)^[calls] state) =
      (loaded, settings)) (hrounds : calls < rounds) :
    bootReadLoop device hardware rounds state =
      some (loaded,
        { (executeFlashFSM device)^[calls] state with lpcmodSettings := settings }) := by
  induction rounds generalizing calls state with
  | zero => omega
  | succ rounds ih =>
    rw [bootReadLoop]
    by_cases hended : state.Ended
    · have hfixed : (executeFlashFSM device)^[calls] state = state := by
        rcases hended with hop | hop
        · exact Function.iterate_fixed (executeFlashFSM_completed hop) calls
        · exact iterate_of_error device hop calls
      rw [hfixed] at hload ⊢
      rw [if_pos hended, hload]
    · rw [if_neg hended]
      cases calls with
      | zero => exact absurd (.inl hcompleted) hended
      | succ calls =>
        rw [Function.iterate_succ_apply] at hcompleted hload ⊢
        exact ih hcompleted hload (by omega)

/-- Settings of the current version with their checksum are taken out of the buffer. -/
theorem loadXBlastOSSettings_eq (hardware : Hardware) (hop : state.currentFlashOp = .completed)
    (htask : state.currentFlashTask = .readSettings) (hversion : settings.settingsVersion = 1)
    (hbuffer : ∀ index < 3840, state.biosBuffer index = settings.withCrc.image index) :
    loadXBlastOSSettings hardware state = (true, settings.withCrc) := by
  have hseeker : (⟨readPacked 3840 state.biosBuffer 0⟩ : LPCmodSettings) = settings.withCrc := by
    refine LPCmodSettings.eq_of_image_eq fun index hindex ↦ ?_
    rw [← hbuffer index hindex, LPCmodSettings.image_of_lt hindex]
    exact congrArg state.biosBuffer (zero_add index)
  simp only [loadXBlastOSSettings, hseeker]
  exact if_pos ⟨hop, htask, by rw [LPCmodSettings.settingsVersion_withCrc, hversion], by
    rw [LPCmodSettings.calculateSettingsStructCRC32Value_withCrc,
      LPCmodSettings.crc32Value_withCrc]⟩

/-- A boot reads the settings that are in the flash, when they are of the current version and
have their checksum. -/
theorem bootRead_settings (flash : SectoredFlash device) (hresponsive : Responsive flash.toNorFlash)
    (hardware : Hardware) (state : FlashState σ)
    (hidle : state.currentFlashOp = .idle) (haddr : state.currentAddr = 0)
    (hready : flash.ready state.chip)
    (hfloor : SavesAtFloor (.ofImage (flash.content state.chip)))
    (hversion : settings.settingsVersion = 1)
    (hsettings : ∀ index < 3840,
      flash.content state.chip (0x30000 + index) = settings.withCrc.image index) :
    ∃ calls booted, booted.lpcmodSettings = settings.withCrc ∧
      booted.lpcmodSettingsOrigFromFlash = settings.withCrc ∧ ∀ rounds > calls,
        bootReadXBlastOSSettings device hardware rounds state = some (true, booted) := by
  have hjob := ReadJob.start flash hardware
    { state with lpcmodSettings := populateSettingsStructWithDefault hardware }
    hidle haddr (hresponsive.identifies state.chip hready) hfloor.startingOffset (by decide)
  generalize hstart : readXBlastOSSettingsRequest device hardware
    { state with lpcmodSettings := populateSettingsStructWithDefault hardware } = started at hjob
  obtain ⟨calls, hcompleted⟩ := hjob.completes hresponsive
  obtain ⟨_, htask, hbuffer⟩ := (hjob.run calls).of_completed hcompleted
  have hload := loadXBlastOSSettings_eq hardware hcompleted htask hversion fun index hindex ↦
    (hbuffer index hindex).trans (hsettings index hindex)
  let booted := freeFlashFSM device { (executeFlashFSM device)^[calls] started with
    lpcmodSettings := settings.withCrc
    lpcmodSettingsOrigFromFlash := settings.withCrc }
  refine ⟨calls, booted, rfl, rfl, fun rounds hrounds ↦ ?_⟩
  rw [bootReadXBlastOSSettings, hstart, bootReadLoop_of_completed hcompleted hload hrounds]
  rfl

/-- The loop of the boot read returns at the end of the job. -/
theorem bootReadLoop_some {loaded : Bool} {after : FlashState σ}
    (hloop : bootReadLoop device hardware rounds state = some (loaded, after)) :
    ∃ calls settings,
      loadXBlastOSSettings hardware ((executeFlashFSM device)^[calls] state) =
        (loaded, settings) ∧
      after = { (executeFlashFSM device)^[calls] state with lpcmodSettings := settings } := by
  induction rounds generalizing state with
  | zero => cases hloop
  | succ rounds ih =>
    rw [bootReadLoop] at hloop
    split_ifs at hloop with hended
    · cases some.inj hloop
      exact ⟨0, _, rfl, rfl⟩
    · obtain ⟨calls, settings, hload, hafter⟩ := ih hloop
      exact ⟨calls + 1, settings, hload, hafter⟩

/-- Settings that were taken out of the buffer are in it and have their checksum. -/
theorem loadXBlastOSSettings_true (hload : loadXBlastOSSettings hardware state = (true, settings)) :
    state.currentFlashOp = .completed ∧
      settings.calculateSettingsStructCRC32Value = settings.crc32Value ∧
      ∀ index < 3840, settings.image index = state.biosBuffer index := by
  simp only [loadXBlastOSSettings] at hload
  split_ifs at hload with haccepted
  · obtain ⟨hop, _, _, hcrc⟩ := haccepted
    cases hload
    refine ⟨hop, hcrc, fun index hindex ↦ ?_⟩
    rw [LPCmodSettings.image_of_lt hindex]
    exact congrArg state.biosBuffer (zero_add index)
  · cases hload

/-- A boot that has read its settings has found them in the flash, which it left alone. -/
theorem bootRead_true (flash : SectoredFlash device) {booted : FlashState σ}
    (hidle : state.currentFlashOp = .idle) (haddr : state.currentAddr = 0)
    (hanswer : (device.readDevice state.chip).1.isSome = true)
    (hfloor : SavesAtFloor (.ofImage (flash.content state.chip)))
    (hboot : bootReadXBlastOSSettings device hardware rounds state = some (true, booted)) :
    ∃ ended, booted = freeFlashFSM device ended ∧
      ended.lpcmodSettingsOrigFromFlash = ended.lpcmodSettings ∧
      ended.lpcmodSettings.calculateSettingsStructCRC32Value = ended.lpcmodSettings.crc32Value ∧
      flash.content ended.chip = flash.content state.chip ∧
      ∀ index < 3840, flash.content state.chip (0x30000 + index) =
        ended.lpcmodSettings.image index := by
  obtain ⟨⟨loaded, after⟩, hloop, hbooted⟩ := map_eq_some_iff.mp hboot
  obtain ⟨rfl, rfl⟩ := Prod.mk.inj hbooted
  obtain ⟨calls, settings, hload, hafter⟩ := bootReadLoop_some hloop
  have hjob := (ReadJob.start flash hardware
    { state with lpcmodSettings := populateSettingsStructWithDefault hardware }
    hidle haddr hanswer hfloor.startingOffset (by decide)).run calls
  obtain ⟨hcompleted, hcrc, hbytes⟩ := loadXBlastOSSettings_true hload
  obtain ⟨hcontent, _, hbuffer⟩ := hjob.of_completed hcompleted
  refine ⟨_, rfl, rfl, ?_⟩
  rw [hafter]
  refine ⟨hcrc, hcontent, fun index hindex ↦ ?_⟩
  rw [hbytes index hindex, hbuffer index hindex]

/-! ### Saves in turn -/

/-- A number of calls after the request to save a value. -/
def saveRun (device : FlashLowLevel σ) (hardware : Hardware) (settings : LPCmodSettings)
    (calls : ℕ) (state : FlashState σ) : FlashState σ :=
  (executeFlashFSM device)^[calls]
    (saveXBlastOSSettings device hardware { state with lpcmodSettings := settings })

/-- The states after saves that each completed and were freed, with the latest value first. -/
inductive SavedInTurn (device : FlashLowLevel σ) (hardware : Hardware) (start : FlashState σ) :
    List LPCmodSettings → FlashState σ → Prop
  | nil : SavedInTurn device hardware start [] start
  | save {earlier : List LPCmodSettings} {state : FlashState σ} (settings : LPCmodSettings)
      (calls : ℕ) (hearlier : SavedInTurn device hardware start earlier state)
      (hcompleted : (saveRun device hardware settings calls state).currentFlashOp = .completed) :
      SavedInTurn device hardware start (settings :: earlier)
        (freeFlashFSM device (saveRun device hardware settings calls state))

/-- A machine that is free for a save to 192KB. -/
structure ReadyToSave (flash : SectoredFlash device) (state : FlashState σ) : Prop where
  idle : state.currentFlashOp = .idle
  addr : state.currentAddr = 0
  floor : SavesAtFloor (.ofImage (flash.content state.chip))

variable {flash : SectoredFlash device}

/-- A completed save has its value in memory and in the flash, and the chip is not busy. -/
theorem ReadyToSave.saveRun (hsave : ReadyToSave flash state) (settings : LPCmodSettings)
    (calls : ℕ)
    (hcompleted : (saveRun device hardware settings calls state).currentFlashOp = .completed) :
    let final := saveRun device hardware settings calls state
    final.lpcmodSettings = settings.withCrc ∧ flash.ready final.chip ∧
      ∀ address < 0x40000, flash.content final.chip address =
        savedImage (flash.content state.chip) settings.withCrc address := by
  intro final
  have hjob := SaveJob.start flash hardware { state with lpcmodSettings := settings } hsave.floor
    hsave.idle hsave.addr (ne_error_of_completed hcompleted)
  have hidle : { state with lpcmodSettings := settings }.currentFlashOp = .idle := hsave.idle
  have hopen : (saveXBlastOSSettings device hardware
      { state with lpcmodSettings := settings }).currentFlashOp ≠ .completed := by
    rcases saveXBlastOSSettings_cases flash.toNorFlash hardware hidle with
      ⟨known, _, _, hstart⟩ | ⟨_, known, offset, code, hstart⟩
    · rw [hstart]
      exact fun hop ↦ by cases hop
    · rw [hstart]
      exact fun hop ↦ by cases hop
  obtain ⟨hsettings, hcontent⟩ := (hjob.run hsave.floor calls).content_of_completed hcompleted
  exact ⟨hsettings, ready_of_completed flash.toNorFlash hopen calls hcompleted, hcontent⟩

/-- A completed and freed save leaves a machine that is free for the next one. -/
theorem ReadyToSave.free (hsave : ReadyToSave flash state) (settings : LPCmodSettings) (calls : ℕ)
    (hcompleted :
      (Flash.saveRun device hardware settings calls state).currentFlashOp = .completed) :
    ReadyToSave flash
      (freeFlashFSM device (Flash.saveRun device hardware settings calls state)) := by
  obtain ⟨_, _, hcontent⟩ := hsave.saveRun settings calls hcompleted
  refine ⟨rfl, rfl, ?_⟩
  have hidentifier : BiosIdentifier.ofImage
      (flash.content (Flash.saveRun device hardware settings calls state).chip) =
        .ofImage (flash.content state.chip) := by
    refine BiosIdentifier.ofImage_congr fun address hstart hend ↦ ?_
    rw [hcontent address hend, savedImage, overlay_outside (.inr (by omega))]
  change SavesAtFloor (.ofImage (flash.content (device.switchOSBank .osBank _)))
  rw [flash.switchOSBank_content, hidentifier]
  exact hsave.floor

theorem SavedInTurn.readyToSave {start : FlashState σ} {values : List LPCmodSettings}
    (hsaved : SavedInTurn device hardware start values state) (hstart : ReadyToSave flash start) :
    ReadyToSave flash state := by
  induction hsaved with
  | nil => exact hstart
  | save settings calls _ hcompleted ih => exact ih.free settings calls hcompleted

/-- Values can be saved in turn on a quiet chip of at least 256KB with a chip erase. -/
theorem quietChip_savedInTurn (flashType : KnownFlashType) (supports : EraseSequenceMethod → Bool)
    (hardware : Hardware) {state : FlashState Bytes}
    (hlength : 0x40000 ≤ flashType.lengthInBytes) (hchip : supports .chip = true)
    (hstart : ReadyToSave (quietFlash flashType supports) state) (values : List LPCmodSettings) :
    ∃ final, SavedInTurn (quietChip flashType supports) hardware state values final := by
  induction values with
  | nil => exact ⟨state, .nil⟩
  | cons settings earlier ih =>
    obtain ⟨before, hearlier⟩ := ih
    have hsave := hearlier.readyToSave hstart
    obtain ⟨calls, hcompleted⟩ := quietChip_save_completed flashType supports hardware
      { before with lpcmodSettings := settings } hlength hchip hsave.floor hsave.idle hsave.addr
    exact ⟨_, .save settings calls hearlier hcompleted⟩

/-- After any number of completed saves the next boot reads the last value, with its checksum.
The boot may find the driver as the last save has left it or in any other idle state. Assumes: the
saves start in an idle state that the program reaches, the flash holds an image that keeps its
settings at 192KB, the chip answers once it is ready, and the last value has the current
version. -/
theorem bootRead_savedInTurn {md5 : Digest 16} (flash : SectoredFlash device)
    (hresponsive : Responsive flash.toNorFlash) (start : FlashState σ)
    (hreachable : Reachable device hardware md5 start) (hidle : start.currentFlashOp = .idle)
    (hfloor : SavesAtFloor (.ofImage (flash.content start.chip))) (last : LPCmodSettings)
    (earlier : List LPCmodSettings) (hversion : last.settingsVersion = 1) (final : FlashState σ)
    (hsaved : SavedInTurn device hardware start (last :: earlier) final) :
    final.lpcmodSettings = last.withCrc ∧
    ∀ driver : FlashState σ, driver.chip = final.chip → driver.currentFlashOp = .idle →
      driver.currentAddr = 0 →
      ∃ calls booted, booted.lpcmodSettings = last.withCrc ∧
        booted.lpcmodSettingsOrigFromFlash = last.withCrc ∧ ∀ rounds > calls,
          bootReadXBlastOSSettings device hardware rounds driver = some (true, booted) := by
  have hstart : ReadyToSave flash start := ⟨hidle, hreachable.idle_currentAddr hidle, hfloor⟩
  have hfree := hsaved.readyToSave hstart
  cases hsaved with
  | @save _ before _ calls hearlier hcompleted =>
    obtain ⟨hsettings, hready, hcontent⟩ :=
      (hearlier.readyToSave hstart).saveRun last calls hcompleted
    refine ⟨hsettings, fun driver hchip hop haddr ↦ ?_⟩
    have hfloor' := hfree.floor
    rw [← hchip] at hfloor'
    refine bootRead_settings flash hresponsive hardware driver hop haddr ?_ hfloor' hversion ?_
    · rw [hchip]
      exact flash.switchOSBank_ready _ hready
    · intro index hindex
      rw [hchip]
      change flash.content (device.switchOSBank .osBank _) (0x30000 + index) = _
      rw [flash.switchOSBank_content, hcontent (0x30000 + index) (by omega), savedImage,
        overlay_add hindex]

/-- Two values saved in turn on a chip that holds nothing but an identifier. -/
theorem bootRead_savedInTurn_floorImage :
    let hardware : Hardware := plainHardware
    let first := populateSettingsStructWithDefault hardware
    let second := populateSettingsStructWithDefault ⟨.xt, true, false, true⟩
    let device := quietChip ⟨0x40000, true⟩ fun _ ↦ true
    ∃ final calls booted,
      SavedInTurn device hardware (flashInit device (bootState first floorImage))
        [second, first] final ∧
      booted.lpcmodSettings = second.withCrc ∧ ∀ rounds > calls,
        bootReadXBlastOSSettings device hardware rounds final = some (true, booted) := by
  intro hardware first second device
  let flash := quietFlash ⟨0x40000, true⟩ fun _ ↦ true
  let start := flashInit device (bootState first floorImage)
  have hreachable : Reachable device hardware (fun _ _ ↦ 0) start := .init _
  have hresponsive : Responsive flash.toNorFlash := ⟨fun _ _ ↦ rfl, fun _ ↦ ⟨0, rfl⟩⟩
  have hstart : ReadyToSave flash start := ⟨rfl, rfl, floorImage_savesAtFloor⟩
  obtain ⟨final, hsaved⟩ := quietChip_savedInTurn ⟨0x40000, true⟩ (fun _ ↦ true) hardware le_rfl
    rfl hstart [second, first]
  have hfree := hsaved.readyToSave hstart
  have hversion : second.settingsVersion = 1 := by decide
  obtain ⟨calls, booted, hsettings, _, hread⟩ := (bootRead_savedInTurn flash hresponsive start
    hreachable rfl floorImage_savesAtFloor second [first] hversion final hsaved).2 final rfl
    hfree.idle hfree.addr
  exact ⟨final, calls, booted, hsaved, hsettings, hread⟩

end XBlast.Flash
