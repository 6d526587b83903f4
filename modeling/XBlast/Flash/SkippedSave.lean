import XBlast.Flash.FlashUi
import XBlast.Flash.RoundTrip

/-!
# Saves that are skipped

`SaveXBlastOSSettings` writes nothing when the settings in memory are those of the last boot,
checksum included. The checksum in memory is only renewed by a save job, so that it marks the
settings as changed after every save of other values. The mark is lost when the values of the last
boot are saved again and that job fails: the next save is then skipped although the flash holds
something else.
-/

set_option autoImplicit false
set_option relaxedAutoImplicit false

namespace XBlast.Flash

open Foundation FlashUi LPCmodSettings

variable {σ : Type*} {device : FlashLowLevel σ} {hardware : Hardware} {state : FlashState σ}

/-! ### Edits and saves after a boot -/

/-- The states that edits and saves reach from a boot. An edit keeps the checksum in memory, the
edited settings are among the given values, and a save that is not skipped satisfies a
condition. -/
inductive SettingsRun (device : FlashLowLevel σ) (hardware : Hardware)
    (values : Set LPCmodSettings) (condition : FlashState σ → Prop) (booted : FlashState σ) :
    FlashState σ → Prop
  | boot : SettingsRun device hardware values condition booted booted
  | edit {state : FlashState σ} (settings : LPCmodSettings)
      (hrun : SettingsRun device hardware values condition booted state)
      (hvalue : settings ∈ values)
      (hcrc : settings.crc32Value = state.lpcmodSettings.crc32Value) :
      SettingsRun device hardware values condition booted
        { state with lpcmodSettings := settings }
  | save {state after : FlashState σ} {success : Bool} (mustRestart confirm : Bool) (rounds : ℕ)
      (hrun : SettingsRun device hardware values condition booted state)
      (hcondition : state.lpcmodSettings ≠ state.lpcmodSettingsOrigFromFlash → condition state)
      (hreturn : FlashUi.saveXBlastOSSettings device hardware mustRestart confirm rounds state =
        some (success, after)) :
      SettingsRun device hardware values condition booted after

/-- Settings that differ in more than their checksum field have different checksums. -/
def DistinctChecksums (values : Set LPCmodSettings) : Prop :=
  ∀ value ∈ values, ∀ other ∈ values,
    value.calculateSettingsStructCRC32Value = other.calculateSettingsStructCRC32Value →
      value.withCrc = other.withCrc

/-- The state that a save which is not skipped starts its job in. -/
def startedSave (device : FlashLowLevel σ) (hardware : Hardware) (state : FlashState σ) :
    FlashState σ :=
  Flash.saveXBlastOSSettings device hardware (selectOSBank device state)

/-- The flash keeps its settings at 192KB or not at all, and a save of the values of the last boot
completes. -/
def SafeSave (flash : SectoredFlash device) (hardware : Hardware) (state : FlashState σ) : Prop :=
  (SavesAtFloor (.ofImage (flash.content state.chip)) ∨
    getXBlastOSSettingStartingOffset (.ofImage (flash.content state.chip)) = 0) ∧
  (state.lpcmodSettings.withCrc = state.lpcmodSettingsOrigFromFlash →
    ∃ calls, ((executeFlashFSM device)^[calls]
      (startedSave device hardware state)).currentFlashOp = .completed)

/-- The settings area of the flash holds settings. -/
def HoldsSettings (flash : SectoredFlash device) (state : FlashState σ)
    (settings : LPCmodSettings) : Prop :=
  ∀ index < 3840, flash.content state.chip (0x30000 + index) = settings.image index

/-! ### One save -/

/-- A save that returns after starting a job has put the checksum into memory, and it has put the
settings into the flash when the job completed. -/
theorem save_returns {flash : SectoredFlash device} {mustRestart confirm success : Bool}
    {rounds : ℕ} {after : FlashState σ} (hidle : state.currentFlashOp = .idle)
    (haddr : state.currentAddr = 0) (htask : state.currentFlashTask = .noTask)
    (hlocated : SavesAtFloor (.ofImage (flash.content state.chip)) ∨
      getXBlastOSSettingStartingOffset (.ofImage (flash.content state.chip)) = 0)
    (hreturn : saveLoop device mustRestart confirm rounds false
      (startedSave device hardware state) = some (success, after)) :
    ∃ calls, let ended := (executeFlashFSM device)^[calls] (startedSave device hardware state)
      ended.Ended ∧ after = freeFlashFSM device ended ∧
      ended.lpcmodSettings = state.lpcmodSettings.withCrc ∧
      ended.lpcmodSettingsOrigFromFlash = state.lpcmodSettingsOrigFromFlash ∧
      (ended.currentFlashOp = .completed → ∀ address < 0x40000,
        flash.content ended.chip address =
          savedImage (flash.content state.chip) state.lpcmodSettings.withCrc address) := by
  have hcontent : flash.content (selectOSBank device state).chip = flash.content state.chip :=
    flash.switchOSBank_content state.chip
  have hselected : (selectOSBank device state).currentFlashOp = .idle := hidle
  rcases saveXBlastOSSettings_cases flash.toNorFlash hardware hselected with
    ⟨known, _, hoffset, hstart⟩ | ⟨_, known, offset, code, hstart⟩
  · rw [hcontent] at hoffset
    have hfloor := hlocated.resolve_right hoffset
    rw [← hcontent] at hfloor
    have hop : (startedSave device hardware state).currentFlashOp = .pendingOp :=
      congrArg FlashState.currentFlashOp hstart
    have hjob := SaveJob.start flash hardware (selectOSBank device state) hfloor hselected haddr
      (fun herror ↦ by cases hop.symm.trans herror)
    obtain ⟨calls, hended, hafter⟩ := saveLoop_some (congrArg FlashState.currentFlashTask hstart)
      (fun hnone ↦ by cases hop.symm.trans hnone) hreturn
    have horig := (iterate_origFromFlash device (startedSave device hardware state) calls).trans
      (congrArg FlashState.lpcmodSettingsOrigFromFlash hstart)
    have hend := hjob.run hfloor calls
    rw [hcontent] at hend
    refine ⟨calls, hended, hafter, ?_, horig, fun hcompleted ↦
      (hend.content_of_completed hcompleted).2⟩
    rcases hended with hcompleted | herror
    · exact (hend.content_of_completed hcompleted).1
    · exact hend.settings_of_error herror
  · have hop : (startedSave device hardware state).currentFlashOp = .error :=
      congrArg FlashState.currentFlashOp hstart
    have hrefused : (startedSave device hardware state).currentFlashTask = .noTask :=
      (congrArg FlashState.currentFlashTask hstart).trans htask
    rw [saveLoop_refused mustRestart confirm rounds false hrefused hop] at hreturn
    cases hreturn

/-! ### The mark -/

/-- The invariant of a run after a boot: settings in memory with the checksum of the boot mean
that the flash holds the settings of the boot. -/
structure MarkedSettings (flash : SectoredFlash device) (values : Set LPCmodSettings)
    (boot : LPCmodSettings) (state : FlashState σ) : Prop where
  idle : state.currentFlashOp = .idle
  addr : state.currentAddr = 0
  task : state.currentFlashTask = .noTask
  orig : state.lpcmodSettingsOrigFromFlash = boot
  value : ∃ value ∈ values, state.lpcmodSettings.withCrc = value.withCrc
  mark : state.lpcmodSettings.crc32Value = boot.crc32Value → HoldsSettings flash state boot

section

variable {flash : SectoredFlash device} {values : Set LPCmodSettings} {boot : LPCmodSettings}

theorem MarkedSettings.edit (hmarked : MarkedSettings flash values boot state)
    {settings : LPCmodSettings} (hvalue : settings ∈ values)
    (hcrc : settings.crc32Value = state.lpcmodSettings.crc32Value) :
    MarkedSettings flash values boot { state with lpcmodSettings := settings } where
  idle := hmarked.idle
  addr := hmarked.addr
  task := hmarked.task
  orig := hmarked.orig
  value := ⟨settings, hvalue, rfl⟩
  mark := fun hsame ↦ hmarked.mark (hcrc.symm.trans hsame)

variable (hcollision : DistinctChecksums values) (hboot : boot ∈ values)
  (hcrc : boot.calculateSettingsStructCRC32Value = boot.crc32Value)

include hcollision hboot hcrc

theorem MarkedSettings.save (hmarked : MarkedSettings flash values boot state)
    {mustRestart confirm success : Bool} {rounds : ℕ} {after : FlashState σ}
    (hcondition : state.lpcmodSettings ≠ state.lpcmodSettingsOrigFromFlash →
      SafeSave flash hardware state)
    (hreturn : FlashUi.saveXBlastOSSettings device hardware mustRestart confirm rounds state =
      some (success, after)) :
    MarkedSettings flash values boot after := by
  unfold FlashUi.saveXBlastOSSettings at hreturn
  split_ifs at hreturn with hskip htsop hxbe
  · cases hreturn
    exact hmarked
  · cases hreturn
    exact hmarked
  · cases hreturn
    exact hmarked
  · obtain ⟨hlocated, hcompletes⟩ := hcondition hskip
    obtain ⟨calls, hended, rfl, hsettings, horig, hcontent⟩ :=
      save_returns hmarked.idle hmarked.addr hmarked.task hlocated hreturn
    obtain ⟨value, hvalue, hsame⟩ := hmarked.value
    refine ⟨rfl, rfl, rfl, horig.trans hmarked.orig, ⟨value, hvalue, ?_⟩, fun hmark ↦ ?_⟩
    · refine Eq.trans ?_ hsame
      exact (congrArg withCrc hsettings).trans withCrc_withCrc
    · -- the checksum of the boot is back, so that the values of the boot were saved
      have hequal : state.lpcmodSettings.withCrc = boot := by
        rw [hsame, hcollision value hvalue boot hboot, withCrc_eq_self hcrc]
        rw [hcrc, ← hmark, ← crc32Value_withCrc, ← hsame]
        exact (congrArg crc32Value hsettings).symm
      rcases hended with hcompleted | herror
      · intro index hindex
        change flash.content (device.switchOSBank .osBank _) (0x30000 + index) = _
        rw [flash.switchOSBank_content, hcontent hcompleted _ (by omega), savedImage,
          overlay_add hindex, hequal]
      · obtain ⟨completedCalls, hcompleted⟩ := hcompletes (hequal.trans hmarked.orig.symm)
        exact (not_completed_and_error hcompleted herror).elim

theorem MarkedSettings.run {booted : FlashState σ}
    (hbooted : MarkedSettings flash values boot booted)
    (hrun : SettingsRun device hardware values (SafeSave flash hardware) booted state) :
    MarkedSettings flash values boot state := by
  induction hrun with
  | boot => exact hbooted
  | edit settings _ hvalue hsame ih => exact ih.edit hvalue hsame
  | save mustRestart confirm rounds _ hcondition hreturn ih =>
    exact ih.save hcollision hboot hcrc hcondition hreturn

end

/-! ### A run on a chip that wears out -/

variable {condition : FlashState (Bytes × ℕ) → Prop} {booted : FlashState (Bytes × ℕ)}

section

variable {lifetime : ℕ}

/-- A save on the aging chip returns. It goes well when the chip is young enough, and it cannot
set a bit of the flash when it is not. -/
theorem agingChip_save (lifetime : ℕ) (state : FlashState (Bytes × ℕ))
    (hidle : state.currentFlashOp = .idle) (haddr : state.currentAddr = 0)
    (hfloor : SavesAtFloor (.ofImage state.chip.1))
    (hchanged : state.lpcmodSettings ≠ state.lpcmodSettingsOrigFromFlash) :
    let device := agingChip ⟨0x40000, true⟩ lifetime
    let hardware : Hardware := plainHardware
    ∃ rounds success ended,
      FlashUi.saveXBlastOSSettings device hardware false false rounds state =
        some (success, freeFlashFSM device ended) ∧
      ended.chip.2 = state.chip.2 + 1 ∧
      ended.lpcmodSettings = state.lpcmodSettings.withCrc ∧
      ended.lpcmodSettingsOrigFromFlash = state.lpcmodSettingsOrigFromFlash ∧
      (state.chip.2 < lifetime →
        SafeSave (agingFlash ⟨0x40000, true⟩ lifetime) hardware state ∧
        ∀ address < 0x40000, ended.chip.1 address =
          savedImage state.chip.1 state.lpcmodSettings.withCrc address) ∧
      (lifetime ≤ state.chip.2 → ∀ position bits, state.chip.1 position &&& bits = 0 →
        ended.chip.1 position &&& bits = 0) := by
  intro device hardware
  let flash := agingFlash ⟨0x40000, true⟩ lifetime
  have hsteady := agingChip_steady ⟨0x40000, true⟩ lifetime (state.chip.2 + 1)
  have hselected : (selectOSBank device state).currentFlashOp = .idle := hidle
  have hstart := saveXBlastOSSettings_pending hardware (selectOSBank device state) flash.toNorFlash
    rfl hfloor hselected
  have hjob := SaveJob.start flash hardware (selectOSBank device state) hfloor hselected haddr
    (by rw [hstart]; exact fun herror ↦ by cases herror)
  change startedSave device hardware state = _ at hstart
  have hchip : (startedSave device hardware state).chip = (state.chip.1, state.chip.2 + 1) := by
    rw [hstart]
    rfl
  have hwrite (content : Bytes) : WriteJob (ErasesChip flash.toNorFlash 0x40000
      fun chip ↦ chip.2 = state.chip.2 + 1) 0x40000 content
        (startedSave device hardware state) := by
    rw [hstart]
    exact WriteJob.pendingSave _ le_rfl content _ _ haddr
  obtain ⟨calls, hend⟩ := WriteJob.ends hsteady (congrArg Prod.snd hchip) (hwrite _)
  obtain ⟨rounds, success, hloop⟩ := exists_saveLoop_some false
    (congrArg FlashState.currentFlashTask hstart)
    (by rw [hstart]; exact fun hnone ↦ by cases hnone) (hend.imp id And.left) false
  have hsave := hjob.run hfloor calls
  refine ⟨rounds, success, _, ?_, hsteady.run (congrArg Prod.snd hchip) calls, ?_, ?_, ?_, ?_⟩
  · rw [FlashUi.saveXBlastOSSettings, if_neg hchanged, if_neg (by decide), if_neg (by decide)]
    exact hloop
  · rcases hend with hcompleted | ⟨herror, _⟩
    · exact (hsave.content_of_completed hcompleted).1
    · exact hsave.settings_of_error herror
  · rw [iterate_origFromFlash, hstart]
    rfl
  · intro hyoung
    rcases hend with hcompleted | ⟨_, hfails⟩
    · exact ⟨⟨.inl hfloor, fun _ ↦ ⟨calls, hcompleted⟩⟩, (hsave.content_of_completed hcompleted).2⟩
    · exact absurd (agingChip_erases ⟨0x40000, true⟩ lifetime hyoung) hfails
  · intro hold position bits hclear
    have hrun : ((executeFlashFSM device)^[calls] (startedSave device hardware state)).chip.2 =
        state.chip.2 + 1 ∧
        ((executeFlashFSM device)^[calls] (startedSave device hardware state)).chip.1 position &&&
          bits = 0 := by
      refine Function.Iterate.rec (fun after : FlashState (Bytes × ℕ) ↦
        after.chip.2 = state.chip.2 + 1 ∧ after.chip.1 position &&& bits = 0) ?_ ?_ calls
      · rw [hchip]
        exact ⟨rfl, hclear⟩
      · rintro before ⟨halive, hbefore⟩
        refine ⟨hsteady.step halive, hsteady.clear_step halive ?_ hbefore⟩
        intro method address _ hexecutes
        have hyoung := (of_decide_eq_true hexecutes).2
        change before.chip.2 ≤ lifetime at hyoung
        omega
    exact hrun.2

/-- The default settings with their checksum. -/
def bootSettings : LPCmodSettings :=
  (populateSettingsStructWithDefault plainHardware).withCrc

/-- The settings of the boot with a bit of the last byte of the boot script cleared. -/
def editedSettings : LPCmodSettings where
  bytes := Function.update bootSettings.bytes ⟨3835, by decide⟩ 0xFE

theorem editedSettings_image {index : ℕ} (hindex : index < 3840) (hother : index ≠ 3835) :
    editedSettings.image index = bootSettings.image index := by
  rw [image_of_lt hindex, image_of_lt hindex]
  have hdifferent : (⟨index, hindex⟩ : Fin 3840) ≠ ⟨3835, by decide⟩ :=
    fun hsame ↦ hother (Fin.mk.inj hsame)
  exact Function.update_of_ne hdifferent 0xFE bootSettings.bytes

theorem editedSettings_image_last : editedSettings.image 3835 = 0xFE := by
  rw [image_of_lt (by decide)]
  exact Function.update_self (⟨3835, by decide⟩ : Fin 3840) 0xFE bootSettings.bytes

theorem bootSettings_image_last : bootSettings.image 3835 = 0xFF := by
  rw [bootSettings, withCrc_image (by decide)]
  decide

theorem editedSettings_crc32Value :
    editedSettings.crc32Value = bootSettings.crc32Value :=
  littleEndian32_congr fun _ hindex ↦ editedSettings_image (by omega) (by omega)

/-- Table entries whose indices differ in the lowest bit differ. -/
theorem crc32Table_flip : ∀ low < 256,
    crc32Table.getD (low ^^^ 0xFE) 0 ≠ crc32Table.getD (low ^^^ 0xFF) 0 := by
  decide +kernel

theorem updc32_last_ne (crc : UInt32) : updc32 0xFE crc ≠ updc32 0xFF crc := by
  intro hsame
  have hlow : crc.toNat &&& 0xFF < 256 := Nat.lt_succ_of_le Nat.and_le_right
  have hindex (octet : UInt8) : ((crc ^^^ octet.toUInt32) &&& 0xFF).toNat =
      (crc.toNat &&& 0xFF) ^^^ octet.toNat := by
    have hoctet : octet.toNat &&& 0xFF = octet.toNat :=
      Nat.and_two_pow_sub_one_of_lt_two_pow octet.toNat_lt
    rw [UInt32.toNat_and, UInt32.toNat_xor, UInt8.toNat_toUInt32]
    exact Nat.and_xor_distrib_right.trans (congrArg _ hoctet)
  simp only [updc32, hindex] at hsame
  exact crc32Table_flip _ hlow ((UInt32.xor_left_inj _).mp hsame)

theorem editedSettings_checksum_ne : editedSettings.calculateSettingsStructCRC32Value ≠
    bootSettings.calculateSettingsStructCRC32Value := by
  have hprefix : crc32buf editedSettings.image 3835 = crc32buf bootSettings.image 3835 :=
    crc32buf_congr fun _ hindex ↦ editedSettings_image (by omega) (by omega)
  unfold calculateSettingsStructCRC32Value
  rw [crc32buf_succ _ 3835, crc32buf_succ _ 3835, hprefix, editedSettings_image_last,
    bootSettings_image_last]
  exact updc32_last_ne _

/-- The settings of the boot and the edited ones, whatever their checksum field holds. -/
def agingValues : Set LPCmodSettings :=
  {value | value.withCrc = bootSettings ∨ value.withCrc = editedSettings.withCrc}

theorem agingValues_distinct : DistinctChecksums agingValues := by
  have hnever (value other : LPCmodSettings) (hboot : value.withCrc = bootSettings)
      (hedited : other.withCrc = editedSettings.withCrc)
      (hsame : value.calculateSettingsStructCRC32Value =
        other.calculateSettingsStructCRC32Value) : False := by
    rw [← calculateSettingsStructCRC32Value_withCrc, hboot,
      ← other.calculateSettingsStructCRC32Value_withCrc, hedited,
      calculateSettingsStructCRC32Value_withCrc] at hsame
    exact editedSettings_checksum_ne hsame.symm
  rintro value (hvalue | hvalue) other (hother | hother) hsame
  · rw [hvalue, hother]
  · exact (hnever value other hvalue hother hsame).elim
  · exact (hnever other value hother hvalue hsame.symm).elim
  · rw [hvalue, hother]

/-- The driver before a boot from a chip of 256KB that holds the settings. -/
def agingStart (lifetime : ℕ) : FlashState (Bytes × ℕ) :=
  flashInit (agingChip ⟨0x40000, true⟩ lifetime)
    (bootState bootSettings (savedImage floorImage bootSettings, 0))

theorem savedImage_savesAtFloor {origin : Bytes} (saved : LPCmodSettings)
    (hfloor : SavesAtFloor (.ofImage origin)) :
    SavesAtFloor (.ofImage (savedImage origin saved)) := by
  have hsame : BiosIdentifier.ofImage (savedImage origin saved) = .ofImage origin :=
    BiosIdentifier.ofImage_congr fun address hlow _ ↦ overlay_outside (.inr (by omega))
  rwa [hsame]

/-- The boot reads the settings and selects the bank twice. -/
theorem agingStart_boots (lifetime : ℕ) :
    let device := agingChip ⟨0x40000, true⟩ lifetime
    ∃ rounds booted,
      bootReadXBlastOSSettings device plainHardware rounds (agingStart lifetime) =
        some (true, booted) ∧
      booted.currentFlashOp = .idle ∧ booted.currentAddr = 0 ∧
      booted.lpcmodSettings = bootSettings ∧ booted.lpcmodSettingsOrigFromFlash = bootSettings ∧
      booted.chip = (savedImage floorImage bootSettings, 3) := by
  intro device
  let flash := agingFlash ⟨0x40000, true⟩ lifetime
  have hfloor : SavesAtFloor (.ofImage (flash.content (agingStart lifetime).chip)) :=
    savedImage_savesAtFloor bootSettings floorImage_savesAtFloor
  have hresponsive : Responsive flash.toNorFlash := ⟨fun _ _ ↦ rfl, fun _ ↦ ⟨0, rfl⟩⟩
  have hcrc : bootSettings.withCrc = bootSettings := withCrc_withCrc
  have hversion : bootSettings.settingsVersion = 1 := by
    rw [bootSettings, settingsVersion_withCrc]
    decide
  obtain ⟨calls, booted, hsettings, horig, hread⟩ := bootRead_settings flash hresponsive
    plainHardware (agingStart lifetime) rfl rfl trivial hfloor hversion (by
      intro index hindex
      rw [hcrc]
      exact overlay_add hindex)
  have hboot := hread (calls + 1) (Nat.lt_succ_self calls)
  obtain ⟨ended, rfl, _, _, hcontent, _⟩ := bootRead_true flash rfl rfl rfl hfloor hboot
  obtain ⟨⟨loaded, after⟩, hloop, hbooted⟩ := Option.map_eq_some_iff.mp hboot
  obtain ⟨runCalls, settings, _, hafter⟩ := bootReadLoop_some hloop
  have hselections : after.chip.2 = 2 := by
    rw [hafter]
    refine (agingChip_steady ⟨0x40000, true⟩ lifetime 2).run ?_ runCalls
    rw [readXBlastOSSettingsRequest_chip _ _ rfl rfl]
    rfl
  refine ⟨calls + 1, _, hboot, rfl, rfl, hsettings.trans hcrc, horig.trans hcrc, ?_⟩
  have hlast : (freeFlashFSM device ended).chip.2 = after.chip.2 + 1 :=
    congrArg (fun pair : Bool × FlashState (Bytes × ℕ) ↦ pair.2.chip.2) hbooted.symm
  exact Prod.ext hcontent (hlast.trans (congrArg (· + 1) hselections))

variable (hyoung : 3 < lifetime) (hidle : booted.currentFlashOp = .idle)
  (haddr : booted.currentAddr = 0) (hsettings : booted.lpcmodSettings = bootSettings)
  (horig : booted.lpcmodSettingsOrigFromFlash = bootSettings)
  (hchip : booted.chip = (savedImage floorImage bootSettings, 3))

include hyoung hidle haddr hsettings horig hchip

/-- A boot, an edit and a save of the edited settings on a chip that is young enough. -/
theorem agingRun_edited (hcondition : ∀ before, SafeSave (agingFlash ⟨0x40000, true⟩ lifetime)
      plainHardware before → condition before) :
    ∃ ended, SettingsRun (agingChip ⟨0x40000, true⟩ lifetime) plainHardware
        agingValues condition booted (freeFlashFSM (agingChip ⟨0x40000, true⟩ lifetime) ended) ∧
      ended.lpcmodSettings = editedSettings.withCrc ∧
      ended.lpcmodSettingsOrigFromFlash = bootSettings ∧ ended.chip.2 = 4 ∧
      ∀ address < 0x40000, ended.chip.1 address =
        savedImage (savedImage floorImage bootSettings) editedSettings.withCrc address := by
  have hchanged : editedSettings ≠ booted.lpcmodSettingsOrigFromFlash := by
    intro hsame
    rw [horig] at hsame
    exact editedSettings_checksum_ne (congrArg _ hsame)
  have hfloor : SavesAtFloor (.ofImage booted.chip.1) := by
    rw [hchip]
    exact savedImage_savesAtFloor bootSettings floorImage_savesAtFloor
  have hselected : booted.chip.2 = 3 := congrArg Prod.snd hchip
  obtain ⟨rounds, success, ended, hreturn, hselections, hended, hkept, hyoungSave, _⟩ :=
    agingChip_save lifetime { booted with lpcmodSettings := editedSettings } hidle haddr hfloor
      hchanged
  obtain ⟨hsafe, hcontent⟩ := hyoungSave (hselected.trans_lt hyoung)
  refine ⟨ended, .save false false rounds (.edit editedSettings .boot (.inr rfl) ?_)
    (fun _ ↦ hcondition _ hsafe) hreturn, hended, hkept.trans horig,
    hselections.trans (congrArg (· + 1) hselected), fun address haddress ↦ ?_⟩
  · rw [editedSettings_crc32Value, hsettings]
  · rw [hcontent address haddress]
    exact congrArg (fun chip : Bytes × ℕ ↦
      savedImage chip.1 editedSettings.withCrc address) hchip

/-- After the save of the edited settings, the settings of the boot are put back and saved. When
the chip is worn by then, the bit that the edit had cleared stays clear. -/
theorem agingRun_reverted
    (hcondition : ∀ before, lifetime ≤ 5 ∨ SafeSave (agingFlash ⟨0x40000, true⟩ lifetime)
      plainHardware before → condition before) :
    ∃ state, SettingsRun (agingChip ⟨0x40000, true⟩ lifetime) plainHardware
        agingValues condition booted state ∧
      state.lpcmodSettings = bootSettings ∧ state.lpcmodSettingsOrigFromFlash = bootSettings ∧
      (lifetime ≤ 5 → state.chip.1 (0x30000 + 3835) &&& 1 = 0) := by
  obtain ⟨ended, hrun, hedited, hkept, hselections, hcontent⟩ := agingRun_edited hyoung
    hidle haddr hsettings horig hchip fun before hsafe ↦ hcondition before (.inr hsafe)
  let device := agingChip ⟨0x40000, true⟩ lifetime
  let reverted := bootSettings.setCrc32Value editedSettings.calculateSettingsStructCRC32Value
  have hreverted : reverted.withCrc = bootSettings := by
    rw [withCrc_setCrc32Value, bootSettings, withCrc_withCrc]
  have hchanged : reverted ≠ (freeFlashFSM device ended).lpcmodSettingsOrigFromFlash := by
    intro hsame
    have hcrc := congrArg crc32Value (hsame.trans hkept)
    rw [crc32Value_setCrc32Value, bootSettings, crc32Value_withCrc] at hcrc
    exact editedSettings_checksum_ne
      (hcrc.trans calculateSettingsStructCRC32Value_withCrc.symm)
  have hfloor : SavesAtFloor (.ofImage (freeFlashFSM device ended).chip.1) := by
    have hsame : BiosIdentifier.ofImage ended.chip.1 = .ofImage
        (savedImage (savedImage floorImage bootSettings) editedSettings.withCrc) :=
      BiosIdentifier.ofImage_congr fun address _ hhigh ↦ hcontent address hhigh
    change SavesAtFloor (.ofImage ended.chip.1)
    rw [hsame]
    exact savedImage_savesAtFloor _ (savedImage_savesAtFloor _ floorImage_savesAtFloor)
  obtain ⟨rounds, success, last, hreturn, _, hended, hkept', hyoungSave, hold⟩ :=
    agingChip_save lifetime { freeFlashFSM device ended with lpcmodSettings := reverted } rfl rfl
      hfloor hchanged
  have hselected : (freeFlashFSM device ended).chip.2 = 5 := congrArg (· + 1) hselections
  refine ⟨_, .save false false rounds (.edit reverted hrun (.inl hreverted) ?_) (fun _ ↦ ?_)
    hreturn, hended.trans hreverted, hkept'.trans hkept, fun hworn ↦ ?_⟩
  · change _ = ended.lpcmodSettings.crc32Value
    rw [hedited, crc32Value_setCrc32Value, crc32Value_withCrc]
  · apply hcondition
    by_cases hworn : lifetime ≤ 5
    · exact .inl hworn
    · exact .inr (hyoungSave (by
        change (freeFlashFSM device ended).chip.2 < lifetime
        omega)).1
  · refine hold (hworn.trans hselected.ge) (0x30000 + 3835) 1 ?_
    change ended.chip.1 (0x30000 + 3835) &&& 1 = 0
    rw [hcontent (0x30000 + 3835) (by decide), savedImage, overlay_add (by decide),
      withCrc_image (by decide), editedSettings_image_last]
    decide

end

/-- In every run of edits and saves after a boot that has read its settings, a save that is
skipped leaves a flash that holds the settings in memory. Assumes: the machine was idle before the
boot and the chip identified itself, the flash keeps its settings at 192KB, no two values of the
run have the same checksum, and every save that is not skipped is a `SafeSave`. -/
theorem skippedSave_holdsSettings {md5 : Digest 16} (flash : SectoredFlash device)
    (values : Set LPCmodSettings) (hcollision : DistinctChecksums values)
    (start booted : FlashState σ) (hreachable : Reachable device hardware md5 start)
    (hidle : start.currentFlashOp = .idle)
    (hanswer : (device.readDevice start.chip).1.isSome = true)
    (hfloor : SavesAtFloor (.ofImage (flash.content start.chip))) (rounds : ℕ)
    (hboot : bootReadXBlastOSSettings device hardware rounds start = some (true, booted))
    (hvalue : booted.lpcmodSettings ∈ values)
    (hrun : SettingsRun device hardware values (SafeSave flash hardware) booted state)
    (hskipped : state.lpcmodSettings = state.lpcmodSettingsOrigFromFlash) :
    HoldsSettings flash state state.lpcmodSettings := by
  obtain ⟨ended, rfl, horig, hcrc, hcontent, harea⟩ := bootRead_true flash hidle
    (hreachable.idle_currentAddr hidle) hanswer hfloor hboot
  have hbooted : MarkedSettings flash values ended.lpcmodSettings (freeFlashFSM device ended) := by
    refine ⟨rfl, rfl, rfl, horig, ⟨_, hvalue, rfl⟩, fun _ index hindex ↦ ?_⟩
    change flash.content (device.switchOSBank .osBank _) (0x30000 + index) = _
    rw [flash.switchOSBank_content, hcontent, harea index hindex]
  have hmarked := hbooted.run hcollision hvalue hcrc hrun
  rw [hskipped, hmarked.orig]
  refine hmarked.mark ?_
  rw [hskipped, hmarked.orig]

/-- The boot values are edited, saved, put back and saved again on a chip that stays young. -/
theorem skippedSave_holdsSettings_aging :
    let device := agingChip ⟨0x40000, true⟩ 6
    let flash := agingFlash ⟨0x40000, true⟩ 6
    ∃ rounds booted state,
      bootReadXBlastOSSettings device plainHardware rounds (agingStart 6) =
        some (true, booted) ∧
      SettingsRun device plainHardware agingValues
        (SafeSave flash plainHardware) booted state ∧
      state.lpcmodSettings = state.lpcmodSettingsOrigFromFlash ∧
      HoldsSettings flash state state.lpcmodSettings := by
  intro device flash
  have hreachable : Reachable device plainHardware (fun _ _ ↦ 0) (agingStart 6) :=
    .init _
  obtain ⟨rounds, booted, hboot, hidle, haddr, hsettings, horig, hchip⟩ := agingStart_boots 6
  obtain ⟨state, hrun, hlast, hkept, _⟩ := agingRun_reverted (show 3 < 6 by decide)
    hidle haddr hsettings horig hchip fun _ hsafe ↦ hsafe.resolve_left (by decide)
  have hvalue : booted.lpcmodSettings ∈ agingValues :=
    .inl (hsettings.symm ▸ withCrc_withCrc)
  exact ⟨rounds, booted, state, hboot, hrun, hlast.trans hkept.symm,
    skippedSave_holdsSettings flash agingValues agingValues_distinct (agingStart 6) booted
      hreachable rfl rfl (savedImage_savesAtFloor bootSettings floorImage_savesAtFloor) rounds hboot
      hvalue hrun (hlast.trans hkept.symm)⟩

/-- The same edits and saves on a chip that is worn before the second save: the settings in memory
are those of the boot again, a save is skipped, and the flash does not hold them. -/
theorem skippedSave_stale :
    let device := agingChip ⟨0x40000, true⟩ 4
    let flash := agingFlash ⟨0x40000, true⟩ 4
    DistinctChecksums agingValues ∧ ∃ rounds booted state,
      bootReadXBlastOSSettings device plainHardware rounds (agingStart 4) =
        some (true, booted) ∧
      booted.lpcmodSettings ∈ agingValues ∧
      SettingsRun device plainHardware agingValues (fun _ ↦ True) booted state ∧
      state.lpcmodSettings = state.lpcmodSettingsOrigFromFlash ∧
      ¬ HoldsSettings flash state state.lpcmodSettings := by
  intro device flash
  obtain ⟨rounds, booted, hboot, hidle, haddr, hsettings, horig, hchip⟩ := agingStart_boots 4
  obtain ⟨state, hrun, hlast, hkept, hclear⟩ := agingRun_reverted (show 3 < 4 by decide)
    hidle haddr hsettings horig hchip fun _ _ ↦ trivial
  refine ⟨agingValues_distinct, rounds, booted, state, hboot,
    .inl (hsettings.symm ▸ withCrc_withCrc), hrun, hlast.trans hkept.symm, ?_⟩
  intro hholds
  have hbyte := hholds 3835 (by decide)
  change state.chip.1 (0x30000 + 3835) = _ at hbyte
  have hbit := hclear (by decide)
  rw [hbyte, hlast, bootSettings_image_last] at hbit
  cases hbit

end XBlast.Flash
