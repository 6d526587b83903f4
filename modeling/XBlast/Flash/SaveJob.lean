import XBlast.Flash.QuietChip
import XBlast.Flash.Requests

/-!
# The settings save

A settings save reads back the range that its erase method can destroy, puts the settings into
it, and erases, programs and verifies that range. When an erase command turns out not to be
supported, the job goes on with the next larger unit: it has not changed the flash yet, and reads
the larger range back. `SaveJob` is the invariant of the job over all its phases and methods.
-/

set_option autoImplicit false
set_option relaxedAutoImplicit false

namespace XBlast.Flash

open Foundation

variable {σ : Type*} {device : FlashLowLevel σ}

/-! ### The range of an erase method -/

/-- Where the range that a method reads back starts. -/
def readBackStart : EraseSequenceMethod → ℕ
  | .sector => 0x30000
  | .block => 0x30000
  | .chip => 0

/-- The first 256KB after a save of settings over an original content. -/
def savedImage (origin : Bytes) (saved : LPCmodSettings) : Bytes :=
  overlay origin 0x30000 3840 saved.image

variable (flashType : KnownFlashType)

/-- The range of every method lies in the first 256KB and holds the settings. -/
theorem readBack_range (method : EraseSequenceMethod) :
    readBackStart method ≤ 0x30000 ∧
    0x30000 + 3840 ≤ readBackStart method + getEraseMethodSize flashType method ∧
    readBackStart method + getEraseMethodSize flashType method ≤ 0x40000 ∧
    readBackStart method + 0x30000 % getEraseMethodSize flashType method = 0x30000 := by
  rcases flashType with ⟨length, support⟩
  cases method <;> cases support <;> simp [getEraseMethodSize, readBackStart]

/-! ### The invariant -/

/-- What holds in every phase before the end. Only the chip of a device with 4KB sectors is
erased by blocks. -/
structure SaveFrame (flashType : KnownFlashType) (origin : Bytes) (saved : LPCmodSettings)
    (content : Bytes) (state : FlashState σ) : Prop where
  task : state.currentFlashTask = .writeSettings
  known : state.flashType = flashType
  block : state.eraseSequenceMethod = .block → flashType.support4KBErase = true
  start : state.startingOffset = readBackStart state.eraseSequenceMethod
  size : state.biosBufferSize = getEraseMethodSize flashType state.eraseSequenceMethod
  settings : state.lpcmodSettings.withCrc = saved
  outside : ∀ address < 0x40000, address < state.startingOffset ∨
    state.startingOffset + state.biosBufferSize ≤ address → content address = origin address

/-- The first 256KB are as the job found them. -/
def Untouched (origin content : Bytes) : Prop :=
  ∀ address < 0x40000, content address = origin address

/-- The buffer holds the range with the settings in it. -/
structure Loaded (origin : Bytes) (saved : LPCmodSettings) (state : FlashState σ) : Prop where
  settings : state.lpcmodSettings = saved
  buffer : ∀ index < state.biosBufferSize,
    state.biosBuffer index = savedImage origin saved (state.startingOffset + index)

/-- Why the erase phase may still give up its method: either no larger range is left to read, or
the flash is untouched, or the range is erased and no byte of it asks for another erase. A chip
that supports the sector command has erased the byte that it was asked to erase. -/
inductive EraseProgress (flash : SectoredFlash device) (origin content : Bytes)
    (state : FlashState σ) : Prop
  | chip (hmethod : state.eraseSequenceMethod = .chip)
  | untouched (huntouched : Untouched origin content)
  | erased (herased : ∀ address, state.startingOffset ≤ address →
      address < state.startingOffset + state.biosBufferSize → content address = 0xFF)
  | sector (hmethod : state.eraseSequenceMethod = .sector)
      (hexecutes : ∀ chip address, flash.executes .sector chip address)
      (hretry : state.firstEraseTry = false → content state.address = 0xFF)

/-- The invariant of a settings save over the original content, the settings to save and the
present content. -/
inductive SaveJob (flash : SectoredFlash device) (origin : Bytes) (saved : LPCmodSettings)
    (content : Bytes) (state : FlashState σ) : Prop
  | pending (frame : SaveFrame flash.flashType origin saved content state)
      (hop : state.currentFlashOp = .pendingOp) (haddr : state.currentAddr = 0)
      (huntouched : Untouched origin content)
  | read (frame : SaveFrame flash.flashType origin saved content state)
      (hop : state.currentFlashOp = .readInProgress)
      (haddr : state.currentAddr < state.biosBufferSize)
      (huntouched : Untouched origin content)
      (hbuffer : ∀ index < state.currentAddr,
        state.biosBuffer index = origin (state.startingOffset + index))
  | erase (frame : SaveFrame flash.flashType origin saved content state)
      (hop : state.currentFlashOp = .eraseInProgress)
      (haddr : state.currentAddr < state.biosBufferSize)
      (hloaded : Loaded origin saved state)
      (hprogress : EraseProgress flash origin content state)
  | write (frame : SaveFrame flash.flashType origin saved content state)
      (hop : state.currentFlashOp = .writeInProgress)
      (hloaded : Loaded origin saved state)
  | verify (frame : SaveFrame flash.flashType origin saved content state)
      (hop : state.currentFlashOp = .verifyInProgress)
      (haddr : state.currentAddr ≤ state.biosBufferSize)
      (hloaded : Loaded origin saved state)
      (hverified : ∀ index < state.currentAddr,
        content (state.startingOffset + index) = state.biosBuffer index)
  | completed (hop : state.currentFlashOp = .completed)
      (hsettings : state.lpcmodSettings = saved)
      (hcontent : ∀ address < 0x40000, content address = savedImage origin saved address)
  | error (hop : state.currentFlashOp = .error) (hsettings : state.lpcmodSettings = saved)

section

variable {flash : SectoredFlash device} {origin content : Bytes} {saved : LPCmodSettings}
  {state : FlashState σ}

theorem SaveFrame.range (frame : SaveFrame flash.flashType origin saved content state) :
    state.startingOffset ≤ 0x30000 ∧
    0x30000 + 3840 ≤ state.startingOffset + state.biosBufferSize ∧
    state.startingOffset + state.biosBufferSize ≤ 0x40000 ∧
    state.startingOffset + 0x30000 % state.biosBufferSize = 0x30000 := by
  rw [frame.start, frame.size]
  exact readBack_range flash.flashType state.eraseSequenceMethod

/-- A poll changes nothing that the invariant reads. -/
theorem SaveJob.poll (hjob : SaveJob flash origin saved content state) (busyCount : UInt32) :
    SaveJob flash origin saved content
      { pollChip device state with eraseBusyCount := busyCount } := by
  cases hjob with
  | pending frame hop haddr huntouched => exact .pending { frame with } hop haddr huntouched
  | read frame hop haddr huntouched hbuffer =>
    exact .read { frame with } hop haddr huntouched hbuffer
  | erase frame hop haddr hloaded hprogress =>
    refine .erase { frame with } hop haddr { hloaded with } ?_
    cases hprogress with
    | chip hmethod => exact .chip hmethod
    | untouched huntouched => exact .untouched huntouched
    | erased herased => exact .erased herased
    | sector hmethod hexecutes hretry => exact .sector hmethod hexecutes hretry
  | write frame hop hloaded => exact .write { frame with } hop { hloaded with }
  | verify frame hop haddr hloaded hverified =>
    exact .verify { frame with } hop haddr { hloaded with } hverified
  | completed hop hsettings hcontent => exact .completed hop hsettings hcontent
  | error hop hsettings => exact .error hop hsettings

/-! ### One call in each phase -/

/-- The identifier that the job reads from an untouched flash is the original one. -/
theorem Untouched.startingOffset {chip : σ} (hfloor : SavesAtFloor (.ofImage origin))
    (hready : flash.ready chip) (huntouched : Untouched origin (flash.content chip)) :
    getXBlastOSSettingStartingOffset (getBiosIdentifierFromFlash device chip) = 0x30000 := by
  have hidentifier : getBiosIdentifierFromFlash device chip = .ofImage origin := by
    refine BiosIdentifier.ofImage_congr fun address _ hhigh ↦ ?_
    rw [flash.readByte_eq chip hready, huntouched address hhigh]
  rw [hidentifier, hfloor.startingOffset]

section

variable (hready : flash.ready state.chip)
  (frame : SaveFrame flash.flashType origin saved (flash.content state.chip) state)

include hready frame

theorem SaveJob.executeRead (hfloor : SavesAtFloor (.ofImage origin))
    (hop : state.currentFlashOp = .readInProgress)
    (haddr : state.currentAddr < state.biosBufferSize)
    (huntouched : Untouched origin (flash.content state.chip))
    (hbuffer : ∀ index < state.currentAddr,
      state.biosBuffer index = origin (state.startingOffset + index)) :
    SaveJob flash origin saved (flash.content state.chip) (executeRead device state) := by
  have hrange := frame.range
  have hbyte : device.readByte state.chip state.address = origin state.address := by
    rw [flash.readByte_eq state.chip hready, huntouched]
    unfold FlashState.address
    omega
  have hstored := storeCurrent_buffer hbyte hbuffer
  unfold Flash.executeRead
  split_ifs with hend
  · have hoffset : getXBlastOSSettingStartingOffset
        (getBiosIdentifierFromFlash device (storeCurrent device state).chip) = 0x30000 :=
      huntouched.startingOffset hfloor hready
    rw [finishRead_writeSettings _ (storeCurrent device state) frame.task, hoffset,
      injectSettingsInBuf_of_ne (by decide)]
    refine .erase { frame with settings := ?_ } rfl ?_ ⟨frame.settings, ?_⟩ (.untouched huntouched)
    · rw [← frame.settings]
      exact LPCmodSettings.withCrc_withCrc
    · exact Nat.zero_lt_of_lt haddr
    · intro index hindex
      change index < state.biosBufferSize at hindex
      change overlay _ (0x30000 % state.biosBufferSize) 3840 state.lpcmodSettings.withCrc.image
        index = overlay origin 0x30000 3840 saved.image (state.startingOffset + index)
      rw [overlay_shift (hstored index (by omega)), hrange.2.2.2, frame.settings]
  · exact .read { frame with } hop (lt_of_not_ge hend) huntouched hstored

theorem SaveJob.executeWrite (hop : state.currentFlashOp = .writeInProgress)
    (hloaded : Loaded origin saved state) :
    SaveJob flash origin saved (flash.content (executeWrite device state).chip)
      (executeWrite device state) := by
  unfold Flash.executeWrite
  split_ifs with hend hdiffers
  · exact .verify { frame with } rfl (Nat.zero_le _) { hloaded with }
      nofun
  · refine .write { frame with outside := ?_ } hop { hloaded with }
    intro address hlow houtside
    have hother : address ≠ state.address := by
      unfold FlashState.address
      change address < state.startingOffset ∨
        state.startingOffset + state.biosBufferSize ≤ address at houtside
      omega
    rw [flash.writeByte_other state.chip hready _ _ _ hother]
    exact frame.outside address hlow houtside
  · exact .write { frame with } hop { hloaded with }

theorem SaveJob.executeVerify (hop : state.currentFlashOp = .verifyInProgress)
    (haddr : state.currentAddr ≤ state.biosBufferSize) (hloaded : Loaded origin saved state)
    (hverified : ∀ index < state.currentAddr,
      flash.content state.chip (state.startingOffset + index) = state.biosBuffer index) :
    SaveJob flash origin saved (flash.content state.chip) (executeVerify device state) := by
  have hrange := frame.range
  unfold Flash.executeVerify
  split_ifs with hend hequal
  · refine .completed rfl hloaded.settings fun address hlow ↦ ?_
    by_cases houtside : address < state.startingOffset ∨
        state.startingOffset + state.biosBufferSize ≤ address
    · rw [frame.outside address hlow houtside, savedImage, overlay_outside (by omega)]
    · obtain ⟨index, rfl⟩ : ∃ index, address = state.startingOffset + index :=
        ⟨address - state.startingOffset, by omega⟩
      rw [hverified index (by omega), hloaded.buffer index (by omega)]
  · refine .verify { frame with } hop (lt_of_not_ge hend) { hloaded with } ?_
    intro index hindex
    by_cases hlast : index = state.currentAddr
    · rw [hlast, ← flash.readByte_eq state.chip hready]
      exact hequal
    · exact hverified index (by
        change index < state.currentAddr + 1 at hindex
        omega)
  · exact .error rfl hloaded.settings

end

/-! ### The erase phase -/

/-- Aligning the place of the settings to the size of a method gives the range of the method. -/
theorem alignDown_readBackStart (method : EraseSequenceMethod) (hmethod : method ≠ .sector) :
    (UInt32.ofNat 0x30000 &&& ~~~(UInt32.ofNat (getEraseMethodSize flashType method) - 1)).toNat =
      readBackStart method := by
  cases method with
  | sector => exact absurd rfl hmethod
  | block =>
    rw [getEraseMethodSize_block]
    decide
  | chip =>
    rw [getEraseMethodSize_chip]
    decide

/-- An escalation on an untouched flash starts over with the range of the new method. -/
theorem SaveJob.switchEraseMethod {method : EraseSequenceMethod}
    (frame : SaveFrame flash.flashType origin saved content state)
    (hold : state.eraseSequenceMethod ≠ .chip) (hnew : method ≠ .sector)
    (hblock : method = .block → flash.flashType.support4KBErase = true)
    (huntouched : Untouched origin content) :
    SaveJob flash origin saved content (switchEraseMethod device method state) := by
  have hstart : state.startingOffset = 0x30000 := by
    rw [frame.start]
    cases hmethod : state.eraseSequenceMethod with
    | sector | block => rfl
    | chip => exact absurd hmethod hold
  have hrange := readBack_range flash.flashType method
  have haligned := alignDown_readBackStart flash.flashType method hnew
  rw [Flash.switchEraseMethod, if_pos frame.task]
  refine .read ⟨frame.task, frame.known, hblock, ?_, ?_, frame.settings, ?_⟩ rfl ?_ huntouched ?_
  · simpa only [evaluateReadBackRange, hstart, frame.known] using haligned
  · simp only [evaluateReadBackRange, frame.known]
  · exact fun address hlow _ ↦ huntouched address hlow
  · simp only [evaluateReadBackRange, frame.known]
    omega
  · exact fun index hindex ↦ absurd hindex index.not_lt_zero

/-- A byte that asks for an erase is not erased. -/
theorem ne_erased_of_not_canWrite (hready : flash.ready state.chip) {bufferByte : UInt8}
    (hwritable : ¬ canWrite (device.readByte state.chip state.address) bufferByte = true) :
    flash.content state.chip state.address ≠ 0xFF := by
  intro herased
  rw [flash.readByte_eq state.chip hready, herased] at hwritable
  exact hwritable (canWrite_erased bufferByte)

/-- A job that needs a larger unit has not changed the flash. -/
theorem EraseProgress.untouched_of_retry
    (haddr : state.currentAddr < state.biosBufferSize)
    (hprogress : EraseProgress flash origin content state)
    (hmethod : state.eraseSequenceMethod ≠ .chip) (hretry : state.firstEraseTry = false)
    (hbyte : content state.address ≠ 0xFF) : Untouched origin content := by
  cases hprogress with
  | chip hchip => exact absurd hchip hmethod
  | untouched huntouched => exact huntouched
  | erased herased =>
    refine absurd (herased state.address ?_ ?_) hbyte
    · exact Nat.le_add_right _ _
    · exact Nat.add_lt_add_left haddr _
  | sector hsector hexecutes herased => exact absurd (herased hretry) hbyte

/-- An erase command of the job only reaches the range that was read back. -/
theorem eraseUnit_subset (frame : SaveFrame flash.flashType origin saved content state)
    (haddr : state.currentAddr < state.biosBufferSize) {position : ℕ} (hlow : position < 0x40000)
    (hposition : position ∈ flash.eraseUnit state.eraseSequenceMethod state.address) :
    state.startingOffset ≤ position ∧
      position < state.startingOffset + state.biosBufferSize := by
  have hstart := frame.start
  have hsize := frame.size
  have haddress : state.address = state.startingOffset + state.currentAddr := rfl
  cases hmethod : state.eraseSequenceMethod with
  | sector =>
    rw [hmethod] at hposition hstart hsize
    by_cases hsupport : flash.flashType.support4KBErase = true
    · rw [flash.sectorUnit_4KB hsupport, Set.mem_ofPred_eq] at hposition
      rw [getEraseMethodSize, if_pos hsupport] at hsize
      simp only [readBackStart] at hstart hsize
      omega
    · have hblock := flash.sectorUnit_block state.address position hposition
      rw [getEraseMethodSize, if_neg hsupport] at hsize
      simp only [readBackStart] at hstart hsize
      omega
  | block =>
    rw [hmethod, flash.blockUnit, Set.mem_ofPred_eq] at hposition
    rw [hmethod, getEraseMethodSize_block] at hsize
    rw [hmethod, readBackStart] at hstart
    omega
  | chip =>
    rw [hmethod, getEraseMethodSize_chip] at hsize
    rw [hmethod, readBackStart] at hstart
    omega

theorem SaveJob.skipErase (frame : SaveFrame flash.flashType origin saved content state)
    (hop : state.currentFlashOp = .eraseInProgress) (hloaded : Loaded origin saved state)
    (hprogress : EraseProgress flash origin content state) :
    SaveJob flash origin saved content (skipErase state) := by
  unfold Flash.skipErase
  split_ifs with hend
  · exact .write { frame with } rfl { hloaded with }
  · refine .erase { frame with } hop (lt_of_not_ge hend) { hloaded with } ?_
    cases hprogress with
    | chip hmethod => exact .chip hmethod
    | untouched huntouched => exact .untouched huntouched
    | erased herased => exact .erased herased
    | sector hmethod hevery hretry => exact .sector hmethod hevery fun hfirst ↦ by cases hfirst

section

variable (hready : flash.ready state.chip)
  (frame : SaveFrame flash.flashType origin saved (flash.content state.chip) state)
  (hop : state.currentFlashOp = .eraseInProgress) (haddr : state.currentAddr < state.biosBufferSize)
  (hloaded : Loaded origin saved state)
  (hprogress : EraseProgress flash origin (flash.content state.chip) state)

include hready frame hop haddr hloaded hprogress

theorem SaveJob.eraseCurrent :
    SaveJob flash origin saved (flash.content (eraseCurrent device state).chip)
      (eraseCurrent device state) := by
  by_cases hexecutes : flash.executes state.eraseSequenceMethod state.chip state.address
  · obtain ⟨hinside, hkept⟩ := flash.erase_executed state.chip hready _ _ hexecutes
    refine .erase { frame with outside := ?_ } hop haddr { hloaded with } ?_
    · intro address hlow houtside
      change address < state.startingOffset ∨
        state.startingOffset + state.biosBufferSize ≤ address at houtside
      refine (hkept address fun hunit ↦ ?_).trans (frame.outside address hlow houtside)
      have hsubset := eraseUnit_subset frame haddr hlow hunit
      omega
    · cases hmethod : state.eraseSequenceMethod with
      | chip => exact .chip hmethod
      | block =>
        refine .erased fun address hlow hhigh ↦ hinside address ?_
        have hstart := frame.start
        have hsize := frame.size
        rw [hmethod, readBackStart] at hstart
        rw [hmethod, getEraseMethodSize_block] at hsize
        rw [hmethod, flash.blockUnit, Set.mem_ofPred_eq, FlashState.address]
        change state.startingOffset ≤ address at hlow
        change address < state.startingOffset + state.biosBufferSize at hhigh
        omega
      | sector =>
        rw [hmethod] at hexecutes hinside
        refine .sector hmethod (fun chip address ↦ flash.sector_uniform _ _ _ _ hexecutes) ?_
        intro _
        change flash.content (device.initiateErase state.eraseSequenceMethod _ _) _ = _
        rw [hmethod]
        exact hinside state.address (flash.mem_sectorUnit state.address)
  · have hsame := flash.erase_ignored state.chip hready _ _ hexecutes
    change SaveJob flash origin saved (flash.content (device.initiateErase _ _ _)) _
    rw [hsame]
    refine .erase { frame with } hop haddr { hloaded with } ?_
    cases hprogress with
    | chip hmethod => exact .chip hmethod
    | untouched huntouched => exact .untouched huntouched
    | erased herased => exact .erased herased
    | sector hmethod hevery hretry =>
      rw [hmethod] at hexecutes
      exact absurd (hevery state.chip state.address) hexecutes

theorem SaveJob.executeErase :
    SaveJob flash origin saved (flash.content (executeErase device state).chip)
      (executeErase device state) := by
  have houtcome := executeErase_outcome device state
  generalize Flash.executeErase device state = after at houtcome ⊢
  cases houtcome with
  | skip _ =>
    rw [skipErase_chip]
    exact SaveJob.skipErase frame hop hloaded hprogress
  | erase _ _ => exact SaveJob.eraseCurrent hready frame hop haddr hloaded hprogress
  | switch hwritable hnever method hrank hblock =>
    have hbyte := ne_erased_of_not_canWrite hready (Bool.eq_false_iff.mp hwritable)
    have hold : state.eraseSequenceMethod ≠ .chip := by
      intro hchip
      rw [hchip] at hrank
      exact absurd method.rank_le (not_le.mpr hrank)
    rw [switchEraseMethod_chip, if_pos frame.task]
    exact SaveJob.switchEraseMethod frame hold (ne_sector_of_rank_lt hrank) (frame.known ▸ hblock)
      (hprogress.untouched_of_retry haddr hold hnever.1 hbyte)
  | giveUp _ _ _ => exact .error rfl hloaded.settings

end

/-- Every call of the state machine keeps the invariant. -/
theorem SaveJob.step (hfloor : SavesAtFloor (.ofImage origin))
    (hjob : SaveJob flash origin saved (flash.content state.chip) state) :
    SaveJob flash origin saved (flash.content (executeFlashFSM device state).chip)
      (executeFlashFSM device state) := by
  have hcontent : flash.content (pollChip device state).chip = flash.content state.chip :=
    flash.poll_content state.chip
  have hpolled : SaveJob flash origin saved (flash.content (pollChip device state).chip) state := by
    rw [hcontent]
    exact hjob
  have hready (hfree : ¬ (device.deviceIsBusy state.chip).1 = true) :
      flash.ready (pollChip device state).chip :=
    flash.poll_ready state.chip (Bool.eq_false_iff.mpr hfree)
  have hcases := hpolled
  cases hcases with
  | pending frame hop haddr huntouched =>
    have hrange := frame.range
    rw [executeFlashFSM_pending hop frame.task]
    rw [hcontent] at frame huntouched
    refine .read { frame with } rfl ?_ huntouched ?_
    · change state.currentAddr < state.biosBufferSize
      omega
    · intro index hindex
      change index < state.currentAddr at hindex
      omega
  | read frame hop haddr huntouched hbuffer =>
    rw [executeFlashFSM_read hop]
    split_ifs with hbusy
    · exact hpolled.poll state.eraseBusyCount
    · rw [executeRead_chip]
      exact SaveJob.executeRead (hready hbusy) { frame with } hfloor hop haddr huntouched hbuffer
  | erase frame hop haddr hloaded hprogress =>
    rw [executeFlashFSM_erase hop]
    split_ifs with hbusy
    · exact hpolled.poll (state.eraseBusyCount + 1)
    · refine SaveJob.executeErase (hready hbusy) { frame with } hop haddr { hloaded with } ?_
      cases hprogress with
      | chip hmethod => exact .chip hmethod
      | untouched huntouched => exact .untouched huntouched
      | erased herased => exact .erased herased
      | sector hmethod hevery hretry => exact .sector hmethod hevery hretry
  | write frame hop hloaded =>
    rw [executeFlashFSM_write hop]
    split_ifs with hbusy
    · exact hpolled.poll state.eraseBusyCount
    · exact SaveJob.executeWrite (hready hbusy) { frame with } hop { hloaded with }
  | verify frame hop haddr hloaded hverified =>
    rw [executeFlashFSM_verify hop]
    split_ifs with hbusy
    · exact hpolled.poll state.eraseBusyCount
    · rw [executeVerify_chip]
      exact SaveJob.executeVerify (hready hbusy) { frame with } hop haddr { hloaded with } hverified
  | completed hop hsettings hdone =>
    rw [executeFlashFSM_completed hop]
    exact hjob
  | error hop hsettings =>
    rw [executeFlashFSM_error hop]
    exact hjob

/-- Every run of calls keeps the invariant. -/
theorem SaveJob.run (hfloor : SavesAtFloor (.ofImage origin))
    (hjob : SaveJob flash origin saved (flash.content state.chip) state) (calls : ℕ) :
    SaveJob flash origin saved (flash.content ((executeFlashFSM device)^[calls] state).chip)
      ((executeFlashFSM device)^[calls] state) := by
  induction calls with
  | zero => exact hjob
  | succ calls ih =>
    rw [Function.iterate_succ_apply']
    exact ih.step hfloor

/-- A request that an idle machine does not refuse starts a job that satisfies the invariant. -/
theorem SaveJob.start (flash : SectoredFlash device) (hardware : Hardware) (state : FlashState σ)
    (hfloor : SavesAtFloor (.ofImage (flash.content state.chip)))
    (hidle : state.currentFlashOp = .idle) (haddr : state.currentAddr = 0)
    (hstarted : (saveXBlastOSSettings device hardware state).currentFlashOp ≠ .error) :
    SaveJob flash (flash.content state.chip) state.lpcmodSettings.withCrc
      (flash.content (saveXBlastOSSettings device hardware state).chip)
      (saveXBlastOSSettings device hardware state) := by
  have huntouched : Untouched (flash.content state.chip)
      (flash.content (device.readDevice state.chip).2) :=
    fun address _ ↦ congrFun (flash.readDevice_content state.chip) address
  rcases saveXBlastOSSettings_cases flash.toNorFlash hardware hidle with
    ⟨known, hanswer, _, hstart⟩ | ⟨_, known, offset, code, hstart⟩
  · have htype := flash.readDevice_type state.chip known hanswer
    rw [hstart, hfloor.startingOffset]
    exact .pending ⟨rfl, htype, fun hblock ↦ (by cases hblock), rfl, htype ▸ rfl, rfl,
      fun address hlow _ ↦ huntouched address hlow⟩ rfl haddr huntouched
  · exact absurd (congrArg FlashState.currentFlashOp hstart) hstarted

/-- A completed job has the settings with their checksum in place, and nothing else changed. -/
theorem SaveJob.content_of_completed (hjob : SaveJob flash origin saved content state)
    (hcompleted : state.currentFlashOp = .completed) :
    state.lpcmodSettings = saved ∧
      ∀ address < 0x40000, content address = savedImage origin saved address := by
  cases hjob with
  | completed hop hsettings hcontent => exact ⟨hsettings, hcontent⟩
  | pending frame hop | read frame hop | erase frame hop => cases hop.symm.trans hcompleted
  | write frame hop | verify frame hop | error hop => cases hop.symm.trans hcompleted

/-- A job that failed has put the checksum into the settings in memory. -/
theorem SaveJob.settings_of_error (hjob : SaveJob flash origin saved content state)
    (herror : state.currentFlashOp = .error) : state.lpcmodSettings = saved := by
  cases hjob with
  | error hop hsettings => exact hsettings
  | pending frame hop | read frame hop | erase frame hop => cases hop.symm.trans herror
  | write frame hop | verify frame hop | completed hop => cases hop.symm.trans herror

end

/-- A settings save that reaches `completed`, whatever erase methods it went through, has put the
settings with their checksum at 192KB and has left every other byte of the first 256KB alone.
Assumes: the job starts in an idle state that the program reaches, and the flash holds an image
that keeps its settings at 192KB. -/
theorem saveXBlastOSSettings_completed {hardware : Hardware} {md5 : Digest 16}
    (flash : SectoredFlash device) (state : FlashState σ)
    (hreachable : Reachable device hardware md5 state) (hidle : state.currentFlashOp = .idle)
    (hfloor : SavesAtFloor (.ofImage (flash.content state.chip))) (calls : ℕ)
    (hcompleted : ((executeFlashFSM device)^[calls]
      (saveXBlastOSSettings device hardware state)).currentFlashOp = .completed) :
    let final := (executeFlashFSM device)^[calls] (saveXBlastOSSettings device hardware state)
    (∀ index < 3840, flash.content final.chip (0x30000 + index) =
      (state.lpcmodSettings.setCrc32Value
        state.lpcmodSettings.calculateSettingsStructCRC32Value).image index) ∧
    ∀ address < 0x40000, address < 0x30000 ∨ 0x30000 + 3840 ≤ address →
      flash.content final.chip address = flash.content state.chip address := by
  intro final
  have hjob := (SaveJob.start flash hardware state hfloor hidle
    (hreachable.idle_currentAddr hidle) (ne_error_of_completed hcompleted)).run hfloor calls
  obtain ⟨_, hcontent⟩ := hjob.content_of_completed hcompleted
  refine ⟨fun index hindex ↦ ?_, fun address hlow houtside ↦ ?_⟩
  · rw [hcontent (0x30000 + index) (by omega), savedImage, overlay_add hindex]
    rfl
  · rw [hcontent address hlow, savedImage, overlay_outside houtside]

/-- The save request of an idle machine is accepted when the chip answers and the flash holds an
image that keeps its settings at 192KB. -/
theorem saveXBlastOSSettings_pending (hardware : Hardware) (state : FlashState σ)
    (flash : NorFlash device) {known : KnownFlashType}
    (hanswer : (device.readDevice state.chip).1 = some known)
    (hfloor : SavesAtFloor (.ofImage (flash.content state.chip)))
    (hidle : state.currentFlashOp = .idle) :
    saveXBlastOSSettings device hardware state = pendingSave device state known 0x30000 := by
  rcases saveXBlastOSSettings_cases flash hardware hidle with
    ⟨answered, hanswered, _, hstart⟩ | ⟨hnone | hzero, _⟩
  · obtain rfl : known = answered := Option.some.inj (hanswer.symm.trans hanswered)
    rw [hstart, hfloor.startingOffset]
  · rw [hnone] at hanswer
    cases hanswer
  · rw [hfloor.startingOffset] at hzero
    cases hzero

theorem WriteJob.pendingSave (erases : Prop) {length : ℕ} (hlength : 0x40000 ≤ length)
    (content : Bytes) (known : KnownFlashType) (state : FlashState σ)
    (haddr : state.currentAddr = 0) :
    WriteJob erases length content (pendingSave device state known 0x30000) := by
  have hrange := readBack_range known .sector
  simp only [readBackStart] at hrange
  refine .pending ⟨.inr rfl, ?_, ?_, ?_, rfl⟩ rfl haddr rfl
  · change 0 < getEraseMethodSize known .sector
    omega
  · change 0x30000 + getEraseMethodSize known .sector ≤ length
    omega
  · exact fun _ ↦ ⟨show 0x30000 < 0x40000 by decide, hlength⟩

/-- A settings save completes on a quiet chip of at least 256KB that supports the chip erase. -/
theorem quietChip_save_completed (supports : EraseSequenceMethod → Bool) (hardware : Hardware)
    (state : FlashState Bytes) (hlength : 0x40000 ≤ flashType.lengthInBytes)
    (hchip : supports .chip = true) (hfloor : SavesAtFloor (.ofImage state.chip))
    (hidle : state.currentFlashOp = .idle) (haddr : state.currentAddr = 0) :
    ∃ calls, ((executeFlashFSM (quietChip flashType supports))^[calls]
      (saveXBlastOSSettings (quietChip flashType supports) hardware state)).currentFlashOp =
        .completed := by
  rw [saveXBlastOSSettings_pending hardware state (quietFlash flashType supports).toNorFlash rfl
    hfloor hidle]
  exact WriteJob.completes (quietChip_steady flashType supports)
    (quietChip_erases flashType supports hchip) trivial
    (WriteJob.pendingSave _ hlength _ flashType state haddr)

/-- The save of the default settings on a chip with 4KB sectors that holds nothing but an
identifier. -/
theorem saveXBlastOSSettings_completed_floorImage :
    let hardware : Hardware := plainHardware
    let settings := populateSettingsStructWithDefault hardware
    let device := quietChip ⟨0x100000, true⟩ fun _ ↦ true
    let state := flashInit device (bootState settings floorImage)
    ∃ calls,
      let final := (executeFlashFSM device)^[calls] (saveXBlastOSSettings device hardware state)
      final.currentFlashOp = .completed ∧
      (∀ index < 3840, final.chip (0x30000 + index) = (settings.setCrc32Value
        settings.calculateSettingsStructCRC32Value).image index) ∧
      ∀ address < 0x40000, address < 0x30000 ∨ 0x30000 + 3840 ≤ address →
        final.chip address = floorImage address := by
  intro hardware settings device state
  have hreachable : Reachable device hardware (fun _ _ ↦ 0) state := .init _
  obtain ⟨calls, hcompleted⟩ := quietChip_save_completed ⟨0x100000, true⟩ (fun _ ↦ true)
    hardware state (by decide) rfl floorImage_savesAtFloor rfl rfl
  exact ⟨calls, hcompleted, saveXBlastOSSettings_completed (quietFlash _ _) state hreachable rfl
    floorImage_savesAtFloor calls hcompleted⟩

end XBlast.Flash
