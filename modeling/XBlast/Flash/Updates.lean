import XBlast.Flash.SettingsPlacement
import XBlast.Flash.RoundTrip

/-!
# Saves and updates

Two jobs write the first 256KB of the flash: a save replaces the settings in it, and an update
replaces the operating system and carries the settings over. `Kept` is what they are for, an image
with settings, and `Maintained` the histories of both. The flash refines what is kept, and the next
boot reads the settings of it.
-/

set_option autoImplicit false
set_option relaxedAutoImplicit false

namespace XBlast.Flash

open Foundation

variable {σ : Type*} {device : FlashLowLevel σ} {hardware : Hardware}
  {md5 : Digest 16} {flash : SectoredFlash device} {start state : FlashState σ}

/-- An image of the operating system, with settings once they have been written. -/
structure Kept where
  image : Bytes
  settings : Option LPCmodSettings

/-- The first 256KB of a flash that keeps them. -/
def Kept.bytes (kept : Kept) : Bytes :=
  kept.settings.elim kept.image fun settings ↦ savedImage kept.image settings.withCrc

/-- A number of calls after the request to update to an image. -/
def updateRun (device : FlashLowLevel σ) (md5 : Digest 16) (inBuf : Bytes)
    (overrideChecks : Bool) (calls : ℕ) (state : FlashState σ) : FlashState σ :=
  (executeFlashFSM device)^[calls]
    (xblastOSBankFlash device md5 inBuf (256 * 1024) 0 overrideChecks state)

section

variable (flash : SectoredFlash device) (hardware : Hardware) (md5 : Digest 16)
  (start : FlashState σ)

/-- What is kept after edits of the settings in memory, saves and updates, with the state that they
lead to. The jobs have completed and the machine has been freed after each. -/
inductive Maintained : Kept → FlashState σ → Prop
  | start : Maintained ⟨flash.content start.chip, none⟩ start
  | edit {kept : Kept} {state : FlashState σ} (settings : LPCmodSettings)
      (hbefore : Maintained kept state) :
      Maintained kept { state with lpcmodSettings := settings }
  | save {kept : Kept} {state : FlashState σ} (calls : ℕ) (hbefore : Maintained kept state)
      (hcompleted :
        (saveRun device hardware state.lpcmodSettings calls state).currentFlashOp = .completed) :
      Maintained ⟨kept.image, some state.lpcmodSettings⟩
        (freeFlashFSM device (saveRun device hardware state.lpcmodSettings calls state))
  | update {kept : Kept} {state : FlashState σ} (inBuf : Bytes) (overrideChecks : Bool)
      (calls : ℕ) (hbefore : Maintained kept state) (hfloor : SavesAtFloor (.ofImage inBuf))
      (hcompleted :
        (updateRun device md5 inBuf overrideChecks calls state).currentFlashOp = .completed) :
      Maintained ⟨inBuf, some state.lpcmodSettings⟩
        (freeFlashFSM device (updateRun device md5 inBuf overrideChecks calls state))

end

/-- The flash of a free machine holds what is kept. -/
structure Holds (flash : SectoredFlash device) (kept : Kept) (state : FlashState σ) : Prop where
  free : ReadyToSave flash state
  content : ∀ address < 0x40000, flash.content state.chip address = kept.bytes address
  ready : kept.settings.isSome → flash.ready state.chip

theorem Kept.bytes_outside (kept : Kept) {address : ℕ}
    (haddress : address < 0x30000 ∨ 0x30000 + 3840 ≤ address) :
    kept.bytes address = kept.image address := by
  rw [Kept.bytes]
  cases kept.settings with
  | none => rfl
  | some settings => exact overlay_outside haddress

/-- A completed save replaces the settings and nothing else. -/
theorem Holds.save {kept : Kept} (hholds : Holds flash kept state) (calls : ℕ)
    (hcompleted :
      (saveRun device hardware state.lpcmodSettings calls state).currentFlashOp = .completed) :
    Holds flash ⟨kept.image, some state.lpcmodSettings⟩
      (freeFlashFSM device (saveRun device hardware state.lpcmodSettings calls state)) := by
  obtain ⟨_, hready, hcontent⟩ := hholds.free.saveRun state.lpcmodSettings calls hcompleted
  refine ⟨hholds.free.free state.lpcmodSettings calls hcompleted, fun address haddress ↦ ?_,
    fun _ ↦ flash.switchOSBank_ready _ hready⟩
  rw [freeFlashFSM, flash.switchOSBank_content, hcontent address haddress]
  change overlay _ _ _ _ address = overlay _ _ _ _ address
  by_cases hinside : 0x30000 ≤ address ∧ address < 0x30000 + 3840
  · rw [overlay_inside hinside.1 hinside.2, overlay_inside hinside.1 hinside.2]
  · rw [overlay_outside (by omega), overlay_outside (by omega), hholds.content address haddress,
      kept.bytes_outside (by omega)]

/-- A completed update replaces the image and carries the settings over. -/
theorem Holds.update {kept : Kept} {inBuf : Bytes} {overrideChecks : Bool}
    (hholds : Holds flash kept state) (hfloor : SavesAtFloor (.ofImage inBuf)) (calls : ℕ)
    (hcompleted :
      (updateRun device md5 inBuf overrideChecks calls state).currentFlashOp = .completed) :
    Holds flash ⟨inBuf, some state.lpcmodSettings⟩
      (freeFlashFSM device (updateRun device md5 inBuf overrideChecks calls state)) := by
  have hplace : imageSettingsOffset inBuf = 0x30000 :=
    (imageSettingsOffset_eq hfloor.hasProgName).trans hfloor.startingOffset
  rcases xblastOSBankFlash_cases device md5 inBuf 0 overrideChecks hholds.free.idle with
    ⟨hpending, htask, hsize, hoffset, hbuffer⟩ | hstill
  · obtain ⟨_, _, hwritten⟩ :=
      BiosJob.content_of_completed flash.toNorFlash hpending htask calls hcompleted
    have hready := ready_of_completed flash.toNorFlash
      (fun hop ↦ by cases hpending.symm.trans hop) calls hcompleted
    have hcontent : ∀ address < 0x40000, flash.content (freeFlashFSM device
        (updateRun device md5 inBuf overrideChecks calls state)).chip address =
          savedImage inBuf state.lpcmodSettings.withCrc address := by
      intro address haddress
      have hbyte := hwritten address (by rw [hsize]; exact haddress)
      rw [hoffset, zero_add, hbuffer address haddress, imageWithSettings, hplace] at hbyte
      rw [freeFlashFSM, flash.switchOSBank_content]
      exact hbyte.trans (congrFun (if_pos (by decide)) address)
    refine ⟨⟨rfl, rfl, ?_⟩, hcontent, fun _ ↦ flash.switchOSBank_ready _ hready⟩
    rwa [BiosIdentifier.ofImage_congr fun address hlow hhigh ↦
      (hcontent address hhigh).trans (overlay_outside (.inr (by omega)))]
  · rw [updateRun, iterate_of_idle device hstill, hstill] at hcompleted
    cases hcompleted

theorem Maintained.holds {kept : Kept} (hstart : ReadyToSave flash start)
    (hmaintained : Maintained flash hardware md5 start kept state) : Holds flash kept state := by
  induction hmaintained with
  | start => exact ⟨hstart, fun _ _ ↦ rfl, fun hnone ↦ by cases hnone⟩
  | edit settings _ ih => exact ⟨⟨ih.free.idle, ih.free.addr, ih.free.floor⟩, ih.content, ih.ready⟩
  | save calls _ hcompleted ih => exact ih.save calls hcompleted
  | update inBuf overrideChecks calls _ hfloor hcompleted ih =>
    exact ih.update hfloor calls hcompleted

/-- After edits, saves and updates in any order the first 256KB of the flash are the last image
with the settings that memory held at the last job, and the next boot reads these. Assumes: the
machine is free at first and when the boot reads, every image keeps its settings at 192KB, the chip
answers once it is ready, and the settings have the current version. -/
theorem bootRead_maintained (flash : SectoredFlash device)
    (hresponsive : Responsive flash.toNorFlash) (start : FlashState σ)
    (hstart : ReadyToSave flash start) (image : Bytes) (settings : LPCmodSettings)
    (hversion : settings.settingsVersion = 1) (final : FlashState σ)
    (hmaintained : Maintained flash hardware md5 start ⟨image, some settings⟩ final) :
    (∀ address < 0x40000,
      flash.content final.chip address = savedImage image settings.withCrc address) ∧
    ∀ driver : FlashState σ, driver.chip = final.chip → driver.currentFlashOp = .idle →
      driver.currentAddr = 0 →
      ∃ calls booted, booted.lpcmodSettings = settings.withCrc ∧ ∀ rounds > calls,
        bootReadXBlastOSSettings device hardware rounds driver = some (true, booted) := by
  have hholds := hmaintained.holds hstart
  refine ⟨hholds.content, fun driver hchip hop haddr ↦ ?_⟩
  obtain ⟨calls, booted, hsettings, _, hread⟩ := bootRead_settings flash hresponsive hardware driver
    hop haddr (hchip ▸ hholds.ready rfl) (hchip ▸ hholds.free.floor) hversion fun index hindex ↦ by
      rw [hchip, hholds.content (0x30000 + index) (by omega)]
      exact overlay_add hindex
  exact ⟨calls, booted, hsettings, hread⟩

/-- The settings that memory holds before an update are read after it. -/
theorem bootRead_maintained_floorImage :
    let hardware : Hardware := plainHardware
    let settings := populateSettingsStructWithDefault hardware
    let device := quietChip ⟨0x40000, true⟩ fun _ ↦ true
    let state := bootState settings floorImage
    ∃ updated calls booted, booted.lpcmodSettings = settings.withCrc ∧ ∀ rounds > calls,
      bootReadXBlastOSSettings device hardware rounds
        (freeFlashFSM device (updateRun device (fun _ _ ↦ 0) floorImage false updated state)) =
          some (true, booted) := by
  intro hardware settings device state
  let flash := quietFlash ⟨0x40000, true⟩ fun _ ↦ true
  obtain ⟨updated, hcompleted⟩ := exists_calls_osBankFlash_completed
    (quietChip_steady ⟨0x40000, true⟩ fun _ ↦ true)
    (quietChip_erases ⟨0x40000, true⟩ (fun _ ↦ true) rfl) floorImage state rfl rfl trivial rfl
    (fun _ _ ↦ 0) (by decide) (by decide) (show 0 + 256 * 1024 ≤ _ by decide)
  have hmaintained : Maintained flash hardware (fun _ _ ↦ 0) state ⟨floorImage, some settings⟩ _ :=
    .update floorImage false updated .start floorImage_savesAtFloor hcompleted
  exact ⟨updated, (bootRead_maintained flash ⟨fun _ _ ↦ rfl, fun _ ↦ ⟨0, rfl⟩⟩ state
    ⟨rfl, rfl, floorImage_savesAtFloor⟩ floorImage settings (by decide) _ hmaintained).2 _ rfl rfl
    rfl⟩

end XBlast.Flash
