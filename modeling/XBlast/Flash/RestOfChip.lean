import XBlast.Flash.SaveJob

/-!
# The rest of the chip during a settings save

A settings save works in the first 256KB of the chip, whatever the flash holds. The chip erase
reaches the whole chip, and the range that is read back for it does not: a chip erase that the
chip executes leaves the bytes from 256KB on erased.
-/

set_option autoImplicit false
set_option relaxedAutoImplicit false

namespace XBlast.Flash

open Foundation

variable {σ : Type*} {device : FlashLowLevel σ}

/-! ### The bounds of a save job -/

/-- The range of a save job lies in the first 256KB and the address in the range while bytes are
read and erased. -/
structure SaveBounds (state : FlashState σ) : Prop where
  task : state.currentFlashTask = .writeSettings
  size : 0 < state.biosBufferSize
  range : state.startingOffset + state.biosBufferSize ≤ 0x40000
  addr : state.currentFlashOp ≠ .writeInProgress → state.currentFlashOp ≠ .verifyInProgress →
    state.currentFlashOp ≠ .completed → state.currentFlashOp ≠ .error →
      state.currentAddr < state.biosBufferSize

variable {state : FlashState σ}

section

variable (hbounds : SaveBounds state)

include hbounds

theorem SaveBounds.executeRead : SaveBounds (executeRead device state) := by
  unfold Flash.executeRead
  split_ifs with hend
  · obtain ⟨settings, buffer, hinject⟩ := injectSettingsInBuf_eq _ (storeCurrent device state)
    rw [finishRead_writeSettings _ (storeCurrent device state) hbounds.task, hinject]
    exact { hbounds with addr := fun _ _ _ _ ↦ hbounds.size }
  · exact { hbounds with addr := fun _ _ _ _ ↦ lt_of_not_ge hend }

theorem SaveBounds.switchEraseMethod {method : EraseSequenceMethod} (hmethod : method ≠ .sector) :
    SaveBounds (switchEraseMethod device method state) := by
  have hlow : state.startingOffset < 0x40000 := by
    have hrange := hbounds.range
    have hsize := hbounds.size
    omega
  obtain ⟨hrange, hsize⟩ := readBackRange_bounds state.flashType hmethod hlow
  rw [Flash.switchEraseMethod, if_pos hbounds.task]
  exact ⟨hbounds.task, hsize, hrange, fun _ _ _ _ ↦ hsize⟩

theorem SaveBounds.executeErase (hop : state.currentFlashOp = .eraseInProgress) :
    SaveBounds (executeErase device state) := by
  have haddr := hbounds.addr (by simp [hop]) (by simp [hop]) (by simp [hop]) (by simp [hop])
  have houtcome := executeErase_outcome device state
  generalize Flash.executeErase device state = after at houtcome ⊢
  cases houtcome with
  | skip _ =>
    unfold skipErase
    split_ifs with hend
    · exact { hbounds with addr := fun hwrite ↦ absurd rfl hwrite }
    · exact { hbounds with addr := fun _ _ _ _ ↦ lt_of_not_ge hend }
  | erase _ _ => exact { hbounds with addr := fun _ _ _ _ ↦ haddr }
  | switch _ _ method hrank _ => exact hbounds.switchEraseMethod (ne_sector_of_rank_lt hrank)
  | giveUp _ _ _ => exact { hbounds with addr := fun _ _ _ herror ↦ absurd rfl herror }

/-- Every call of the state machine keeps the bounds. -/
theorem SaveBounds.step : SaveBounds (executeFlashFSM device state) := by
  have hpolled : SaveBounds (pollChip device state) := { hbounds with }
  have houtcome := executeFlashFSM_outcome device state
  generalize executeFlashFSM device state = after at houtcome ⊢
  cases houtcome with
  | rest => exact hbounds
  | startErase hop _ | startRead hop _ =>
    have haddr := hbounds.addr (by simp [hop]) (by simp [hop]) (by simp [hop]) (by simp [hop])
    exact { hbounds with addr := fun _ _ _ _ ↦ haddr }
  | busyErase => exact { hbounds with }
  | busy => exact hpolled
  | erase hop _ => exact hpolled.executeErase hop
  | write hop _ =>
    unfold executeWrite
    split_ifs with hend hdiffers
    · exact { hbounds with addr := fun _ hverify ↦ absurd rfl hverify }
    · exact { hbounds with addr := fun hwrite ↦ absurd hop hwrite }
    · exact { hbounds with addr := fun hwrite ↦ absurd hop hwrite }
  | verify hop _ =>
    unfold executeVerify
    split_ifs with hend hequal
    · exact { hbounds with addr := fun _ _ hcompleted ↦ absurd rfl hcompleted }
    · exact { hbounds with addr := fun _ hverify ↦ absurd hop hverify }
    · exact { hbounds with addr := fun _ _ _ herror ↦ absurd rfl herror }
  | read => exact hpolled.executeRead

end

/-- A save request starts a job within the bounds or fails. -/
theorem SaveBounds.start (flash : NorFlash device) (hardware : Hardware) (state : FlashState σ)
    (hidle : state.currentFlashOp = .idle) (haddr : state.currentAddr = 0) :
    SaveBounds (saveXBlastOSSettings device hardware state) ∨
      (saveXBlastOSSettings device hardware state).currentFlashOp = .error := by
  rcases saveXBlastOSSettings_cases flash hardware hidle with
    ⟨known, _, _, hstart⟩ | ⟨_, known, offset, code, hstart⟩
  · left
    have hrange := readBack_range known .sector
    simp only [readBackStart] at hrange
    have hsize : 0 < getEraseMethodSize known .sector := by omega
    rw [hstart]
    refine ⟨rfl, hsize, ?_, fun _ _ _ _ ↦ haddr ▸ hsize⟩
    change getXBlastOSSettingStartingOffset _ + getEraseMethodSize known .sector ≤ 0x40000
    rcases startingOffset_cases (.ofImage (flash.content state.chip)) with hoffset | hoffset
    · omega
    · omega
  · right
    rw [hstart]

/-! ### What a call does above the first 256KB -/

/-- The call gives a chip erase that the chip executes. -/
def ExecutesChipErase (flash : SectoredFlash device) (state : FlashState σ) : Prop :=
  ∃ address, stepCommand device state = some (.erase .chip address) ∧
    flash.executes .chip (device.deviceIsBusy state.chip).2 address

variable {flash : SectoredFlash device}

theorem ExecutesChipErase.content (hexecutes : ExecutesChipErase flash state) {position : ℕ}
    (hposition : position < flash.flashType.lengthInBytes) :
    flash.content (executeFlashFSM device state).chip position = 0xFF := by
  obtain ⟨address, hcommand, hexecutes⟩ := hexecutes
  rcases executeFlashFSM_content flash.toNorFlash state with
    ⟨hnone, _⟩ | ⟨command, hsome, hready, hchip⟩
  · rw [hnone] at hcommand
    cases hcommand
  · rw [hsome] at hcommand
    cases hcommand
    rw [hchip]
    refine (flash.erase_executed _ hready _ _ hexecutes).1 position ?_
    rw [flash.chipUnit]
    exact hposition

/-- A call that does not execute a chip erase changes nothing from 256KB on. -/
theorem SaveBounds.content_above (hbounds : SaveBounds state)
    (hkept : ¬ ExecutesChipErase flash state) {position : ℕ} (hposition : 0x40000 ≤ position) :
    flash.content (executeFlashFSM device state).chip position =
      flash.content state.chip position := by
  have hpoll := congrFun (flash.poll_content state.chip) position
  have hrange := hbounds.range
  rcases executeFlashFSM_content flash.toNorFlash state with
    ⟨_, hsame⟩ | ⟨command, hcommand, hready, hchip⟩
  · rw [hsame]
  · have hlow : state.address < 0x40000 := by
      unfold FlashState.address
      rcases stepCommand_some hcommand with ⟨_, _, _, haddr⟩ | ⟨_, _, hop⟩
      · omega
      · have haddr := hbounds.addr (by simp [hop]) (by simp [hop]) (by simp [hop]) (by simp [hop])
        omega
    rw [hchip, ← hpoll]
    rcases stepCommand_some hcommand with ⟨byte, rfl, _⟩ | ⟨method, rfl, _⟩
    · change flash.content (device.writeByte _ _ _) _ = _
      rw [flash.writeByte_other _ hready _ _ _ (by omega)]
    · change flash.content (device.initiateErase _ _ _) _ = _
      by_cases hexecutes : flash.executes method (device.deviceIsBusy state.chip).2 state.address
      · refine (flash.erase_executed _ hready _ _ hexecutes).2 position fun hunit ↦ ?_
        cases method with
        | sector =>
          have hblock := flash.sectorUnit_block _ _ hunit
          omega
        | block =>
          rw [flash.blockUnit, Set.mem_ofPred_eq] at hunit
          omega
        | chip => exact hkept ⟨_, hcommand, hexecutes⟩
      · rw [flash.erase_ignored _ hready _ _ hexecutes]

/-! ### What a job does above the first 256KB -/

/-- Along a run, either no chip erase was executed and nothing changed from 256KB on, or one was
and everything from 256KB on is erased. -/
theorem SaveBounds.content_above_run (flash : SectoredFlash device) (hbounds : SaveBounds state)
    (calls : ℕ) :
    ((∀ call < calls, ¬ ExecutesChipErase flash ((executeFlashFSM device)^[call] state)) ∧
      ∀ address, 0x40000 ≤ address →
        flash.content ((executeFlashFSM device)^[calls] state).chip address =
          flash.content state.chip address) ∨
    ((∃ call < calls, ExecutesChipErase flash ((executeFlashFSM device)^[call] state)) ∧
      ∀ address, 0x40000 ≤ address → address < flash.flashType.lengthInBytes →
        flash.content ((executeFlashFSM device)^[calls] state).chip address = 0xFF) := by
  induction calls with
  | zero =>
    exact .inl ⟨nofun, fun address _ ↦ rfl⟩
  | succ calls ih =>
    have hrun : SaveBounds ((executeFlashFSM device)^[calls] state) :=
      Function.Iterate.rec SaveBounds hbounds (fun _ hbefore ↦ hbefore.step) calls
    rw [Function.iterate_succ_apply']
    by_cases hexecutes : ExecutesChipErase flash ((executeFlashFSM device)^[calls] state)
    · right
      exact ⟨⟨calls, Nat.lt_succ_self calls, hexecutes⟩,
        fun address _ hlength ↦ hexecutes.content hlength⟩
    · have hstep (address : ℕ) (haddress : 0x40000 ≤ address) :=
        hrun.content_above hexecutes haddress
      rcases ih with ⟨hnone, hsame⟩ | ⟨⟨call, hcall, hsome⟩, herased⟩
      · left
        refine ⟨fun call hcall ↦ ?_, fun address haddress ↦ ?_⟩
        · by_cases hlast : call = calls
          · rwa [hlast]
          · exact hnone call (by omega)
        · rw [hstep address haddress, hsame address haddress]
      · right
        refine ⟨⟨call, Nat.lt_succ_of_lt hcall, hsome⟩, fun address haddress hlength ↦ ?_⟩
        rw [hstep address haddress, herased address haddress hlength]

/-- A settings save that reaches `completed` has left every byte from 256KB on alone exactly when
no call of it gave a chip erase that the chip executed, or when these bytes were erased from the
start. Assumes: the job starts in an idle state that the program reaches. -/
theorem saveXBlastOSSettings_above_iff {hardware : Hardware} {md5 : Digest 16}
    (flash : SectoredFlash device) (state : FlashState σ)
    (hreachable : Reachable device hardware md5 state) (hidle : state.currentFlashOp = .idle)
    (calls : ℕ) (hcompleted : ((executeFlashFSM device)^[calls]
      (saveXBlastOSSettings device hardware state)).currentFlashOp = .completed) :
    (∀ address, 0x40000 ≤ address → address < flash.flashType.lengthInBytes →
      flash.content ((executeFlashFSM device)^[calls]
        (saveXBlastOSSettings device hardware state)).chip address =
          flash.content state.chip address) ↔
    (∀ call < calls, ¬ ExecutesChipErase flash ((executeFlashFSM device)^[call]
      (saveXBlastOSSettings device hardware state))) ∨
    ∀ address, 0x40000 ≤ address → address < flash.flashType.lengthInBytes →
      flash.content state.chip address = 0xFF := by
  have hcontent := saveXBlastOSSettings_content flash.toNorFlash hardware state hidle
  rcases SaveBounds.start flash.toNorFlash hardware state hidle
    (hreachable.idle_currentAddr hidle) with hbounds | herror
  · rcases hbounds.content_above_run flash calls with
      ⟨hnone, hsame⟩ | ⟨⟨call, hcall, hsome⟩, herased⟩
    · refine ⟨fun _ ↦ .inl hnone, fun _ address haddress _ ↦ ?_⟩
      rw [hsame address haddress, hcontent]
    · constructor
      · intro hkept
        right
        intro address haddress hlength
        rw [← hkept address haddress hlength, herased address haddress hlength]
      · rintro (hnone | hblank) address haddress hlength
        · exact absurd hsome (hnone call hcall)
        · rw [herased address haddress hlength, hblank address haddress hlength]
  · rw [iterate_of_error device herror, herror] at hcompleted
    cases hcompleted

/-- A save on a chip of 512KB that supports every erase command. -/
theorem saveXBlastOSSettings_above_floorImage :
    let hardware : Hardware := plainHardware
    let device := workingChip
    let flash := quietFlash ⟨0x80000, true⟩ fun _ ↦ true
    let start := saveXBlastOSSettings device hardware (flashInit device
      (bootState (populateSettingsStructWithDefault hardware) floorImage))
    ∃ calls, ((executeFlashFSM device)^[calls] start).currentFlashOp = .completed ∧
      ((∀ address, 0x40000 ≤ address → address < 0x80000 →
        ((executeFlashFSM device)^[calls] start).chip address = floorImage address) ↔
      (∀ call < calls, ¬ ExecutesChipErase flash ((executeFlashFSM device)^[call] start)) ∨
      ∀ address, 0x40000 ≤ address → address < 0x80000 → floorImage address = 0xFF) := by
  intro hardware device flash start
  have hreachable : Reachable device hardware (fun _ _ ↦ 0) (flashInit device
    (bootState (populateSettingsStructWithDefault hardware) floorImage)) := .init _
  obtain ⟨calls, hcompleted⟩ := quietChip_save_completed ⟨0x80000, true⟩ (fun _ ↦ true) hardware
    (flashInit device (bootState (populateSettingsStructWithDefault hardware) floorImage))
    (by decide) rfl floorImage_savesAtFloor rfl rfl
  exact ⟨calls, hcompleted, saveXBlastOSSettings_above_iff flash _ hreachable rfl calls hcompleted⟩

/-! ### A chip that only supports the chip erase -/

/-- On a chip of 512KB that only supports the chip erase, the save completes and the byte at
256KB, which was zero, is erased. -/
theorem saveXBlastOSSettings_erases_above :
    let hardware : Hardware := plainHardware
    let device := quietChip ⟨0x80000, false⟩ fun method ↦ method = .chip
    let start := saveXBlastOSSettings device hardware (flashInit device
      (bootState (populateSettingsStructWithDefault hardware) floorImage))
    ∃ calls, ((executeFlashFSM device)^[calls] start).currentFlashOp = .completed ∧
      floorImage 0x40000 = 0 ∧ ((executeFlashFSM device)^[calls] start).chip 0x40000 = 0xFF := by
  intro hardware device start
  let flash := quietFlash ⟨0x80000, false⟩ fun method ↦ method = .chip
  let state := flashInit device (bootState (populateSettingsStructWithDefault hardware) floorImage)
  obtain ⟨calls, hcompleted⟩ := quietChip_save_completed ⟨0x80000, false⟩
    (fun method ↦ method = .chip) hardware state (by decide) rfl floorImage_savesAtFloor rfl rfl
  refine ⟨calls, hcompleted, by decide, ?_⟩
  rcases SaveBounds.start flash.toNorFlash hardware state rfl rfl with hbounds | herror
  · rcases hbounds.content_above_run flash calls with ⟨hnone, _⟩ | ⟨_, herased⟩
    · have hclear : ∀ call ≤ calls,
          flash.content ((executeFlashFSM device)^[call] start).chip 0x30000 &&& 1 = 0 := by
        intro call
        induction call with
        | zero =>
          intro _
          have hstart := saveXBlastOSSettings_content flash.toNorFlash hardware state rfl
          have hbyte : floorImage 0x30000 &&& 1 = 0 := by decide
          exact (congrArg (fun content : Bytes ↦ content 0x30000 &&& 1) hstart).trans hbyte
        | succ call ih =>
          intro hcall
          rw [Function.iterate_succ_apply']
          refine (quietChip_steady _ _).clear_step trivial ?_ (ih (by omega))
          intro method address hcommand hexecutes
          have hchip : method = .chip := of_decide_eq_true hexecutes
          rw [hchip] at hcommand hexecutes
          exact hnone call hcall ⟨address, hcommand, hexecutes⟩
      have hjob := (SaveJob.start flash hardware state floorImage_savesAtFloor rfl rfl
        (ne_error_of_completed hcompleted)).run floorImage_savesAtFloor calls
      have hversion := (hjob.content_of_completed hcompleted).2 0x30000 (by decide)
      have hbit := hclear calls le_rfl
      rw [hversion, savedImage, overlay_inside le_rfl (by decide), Nat.sub_self,
        LPCmodSettings.withCrc_image (by decide)] at hbit
      exact absurd hbit (by decide)
    · exact herased 0x40000 (by decide) (by decide)
  · rw [iterate_of_error device herror, herror] at hcompleted
    cases hcompleted

end XBlast.Flash
