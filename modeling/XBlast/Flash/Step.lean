import XBlast.Flash.Driver

/-!
# What one call of the state machine does

`stepCommand` is the command, if any, that a call of `executeFlashFSM` gives to the chip, and
`executeFlashFSM_content` says that the chip's content changes by that command and by nothing
else. `executeErase_outcome` says what the erase phase can do.
-/

set_option autoImplicit false
set_option relaxedAutoImplicit false

namespace XBlast.Flash

open Foundation Function Option Bool

variable {σ : Type*} {device : FlashLowLevel σ} {state : FlashState σ}

/-! ### The helpers -/

theorem canWrite_erased (bufferByte : UInt8) : canWrite 0xFF bufferByte = true := by
  have hmask : ~~~(0xFF : UInt8) = 0 := rfl
  rw [canWrite, hmask, UInt8.zero_and]
  rfl

theorem getEraseMethodSize_block (flashType : KnownFlashType) :
    getEraseMethodSize flashType .block = 2 ^ 16 := by
  unfold getEraseMethodSize
  split_ifs <;> rfl

theorem getEraseMethodSize_chip (flashType : KnownFlashType) :
    getEraseMethodSize flashType .chip = 2 ^ 18 := by
  unfold getEraseMethodSize
  split_ifs <;> rfl

theorem readDevice_eq (device : FlashLowLevel σ) (state : FlashState σ) :
    ∃ flashType, readDevice device state = ((device.readDevice state.chip).1.isSome,
      { state with flashType := flashType, chip := (device.readDevice state.chip).2 }) := by
  rw [readDevice]
  rcases device.readDevice state.chip with ⟨_ | known, chip⟩
  · exact ⟨state.flashType, rfl⟩
  · exact ⟨known, rfl⟩

theorem readDevice_of_some {known : KnownFlashType}
    (hanswer : (device.readDevice state.chip).1 = some known) :
    readDevice device state =
      (true, { state with flashType := known, chip := (device.readDevice state.chip).2 }) := by
  rw [readDevice]
  rcases hread : device.readDevice state.chip with ⟨answer, chip⟩
  rw [hread] at hanswer
  cases hanswer
  rfl

theorem readDevice_of_none (hanswer : (device.readDevice state.chip).1 = none) :
    readDevice device state = (false, { state with chip := (device.readDevice state.chip).2 }) := by
  rw [readDevice]
  rcases hread : device.readDevice state.chip with ⟨answer, chip⟩
  rw [hread] at hanswer
  cases hanswer
  rfl

/-! ### Commands -/

/-- A command that the driver gives to the chip. -/
inductive FlashCommand where
  | write (byte : UInt8) (address : ℕ)
  | erase (method : EraseSequenceMethod) (address : ℕ)
  deriving DecidableEq, Repr

def FlashCommand.perform (device : FlashLowLevel σ) : FlashCommand → σ → σ
  | .write byte address => device.writeByte byte address
  | .erase method address => device.initiateErase method address

/-- The erase command after a second failure on the same byte. A settings save reads back
first. -/
def escalateCommand (state : FlashState σ) : Option FlashCommand :=
  match state.eraseSequenceMethod with
  | .sector =>
    if state.currentFlashTask = .writeSettings then none
    else some (.erase (if state.flashType.support4KBErase then .block else .chip) state.address)
  | .block =>
    if state.currentFlashTask = .writeSettings then none else some (.erase .chip state.address)
  | .chip => none

/-- The command of a call of the state machine on a chip that is not busy. -/
def readyCommand (device : FlashLowLevel σ) (state : FlashState σ) : Option FlashCommand :=
  match state.currentFlashOp with
  | .eraseInProgress =>
    if canWrite (device.readByte state.chip state.address) (state.biosBuffer state.currentAddr)
    then none
    else if state.firstEraseTry = false ∧ state.eraseBusyCount < 3 then escalateCommand state
    else some (.erase state.eraseSequenceMethod state.address)
  | .writeInProgress =>
    if state.biosBufferSize ≤ state.currentAddr then none
    else if device.readByte state.chip state.address ≠ state.biosBuffer state.currentAddr then
      some (.write (state.biosBuffer state.currentAddr) state.address)
    else none
  | _ => none

/-- The command that a call of the state machine gives to the chip. -/
def stepCommand (device : FlashLowLevel σ) (state : FlashState σ) : Option FlashCommand :=
  if (device.deviceIsBusy state.chip).1 then none else readyCommand device (pollChip device state)

theorem escalateCommand_some {command : FlashCommand}
    (hcommand : escalateCommand state = some command) :
    ∃ method, command = .erase method state.address := by
  unfold escalateCommand at hcommand
  split at hcommand
  · split_ifs at hcommand with htask hsupport
    · exact ⟨_, (some.inj hcommand).symm⟩
    · exact ⟨_, (some.inj hcommand).symm⟩
  · split_ifs at hcommand with htask
    exact ⟨_, (some.inj hcommand).symm⟩
  · cases hcommand

theorem escalateCommand_settings (htask : state.currentFlashTask = .writeSettings) :
    escalateCommand state = none := by
  rw [escalateCommand, if_pos htask, if_pos htask]
  cases state.eraseSequenceMethod <;> rfl

theorem escalateCommand_chip (hmethod : state.eraseSequenceMethod = .chip) :
    escalateCommand state = none := by
  rw [escalateCommand, hmethod]

/-- Bytes are programmed and erased at the current address, in the phase for it. -/
theorem stepCommand_some {command : FlashCommand}
    (hcommand : stepCommand device state = some command) :
    (∃ byte, command = .write byte state.address ∧ state.currentFlashOp = .writeInProgress ∧
      state.currentAddr < state.biosBufferSize) ∨
    ∃ method, command = .erase method state.address ∧
      state.currentFlashOp = .eraseInProgress := by
  unfold stepCommand at hcommand
  split_ifs at hcommand with hbusy
  unfold readyCommand at hcommand
  split at hcommand
  · rename_i hop
    right
    split_ifs at hcommand with hwritable hescalate
    · obtain ⟨method, herase⟩ := escalateCommand_some hcommand
      exact ⟨method, herase, hop⟩
    · exact ⟨_, (some.inj hcommand).symm, hop⟩
  · rename_i hop
    split_ifs at hcommand with hend hdiffers
    exact .inl ⟨_, (some.inj hcommand).symm, hop, lt_of_not_ge hend⟩
  · cases hcommand

/-! ### The call in each phase -/

theorem executeFlashFSM_pending (hop : state.currentFlashOp = .pendingOp)
    (htask : state.currentFlashTask = .writeSettings) :
    executeFlashFSM device state = { state with currentFlashOp := .readInProgress } := by
  simp only [executeFlashFSM, hop, htask]

theorem executeFlashFSM_erase (hop : state.currentFlashOp = .eraseInProgress) :
    executeFlashFSM device state =
      if (device.deviceIsBusy state.chip).1 then
        { pollChip device state with eraseBusyCount := state.eraseBusyCount + 1 }
      else executeErase device (pollChip device state) := by
  simp only [executeFlashFSM, hop]

theorem executeFlashFSM_write (hop : state.currentFlashOp = .writeInProgress) :
    executeFlashFSM device state =
      if (device.deviceIsBusy state.chip).1 then pollChip device state
      else executeWrite device (pollChip device state) := by
  simp only [executeFlashFSM, hop]

theorem executeFlashFSM_verify (hop : state.currentFlashOp = .verifyInProgress) :
    executeFlashFSM device state =
      if (device.deviceIsBusy state.chip).1 then pollChip device state
      else executeVerify device (pollChip device state) := by
  simp only [executeFlashFSM, hop]

theorem executeFlashFSM_read (hop : state.currentFlashOp = .readInProgress) :
    executeFlashFSM device state =
      if (device.deviceIsBusy state.chip).1 then pollChip device state
      else executeRead device (pollChip device state) := by
  simp only [executeFlashFSM, hop]

theorem executeFlashFSM_completed (hop : state.currentFlashOp = .completed) :
    executeFlashFSM device state = state := by
  simp only [executeFlashFSM, hop]

theorem executeFlashFSM_error (hop : state.currentFlashOp = .error) :
    executeFlashFSM device state = state := by
  simp only [executeFlashFSM, hop]

theorem iterate_of_error (device : FlashLowLevel σ) (hop : state.currentFlashOp = .error)
    (calls : ℕ) : (executeFlashFSM device)^[calls] state = state :=
  iterate_fixed (executeFlashFSM_error hop) calls

theorem ne_error_of_completed {calls : ℕ}
    (hcompleted : ((executeFlashFSM device)^[calls] state).currentFlashOp = .completed) :
    state.currentFlashOp ≠ .error := by
  intro herror
  rw [iterate_of_error device herror, herror] at hcompleted
  cases hcompleted

/-- A run does not end both ways. -/
theorem not_completed_and_error {completedCalls errorCalls : ℕ}
    (hcompleted : ((executeFlashFSM device)^[completedCalls] state).currentFlashOp = .completed)
    (herror : ((executeFlashFSM device)^[errorCalls] state).currentFlashOp = .error) : False := by
  have hlast : (executeFlashFSM device)^[errorCalls]
      ((executeFlashFSM device)^[completedCalls] state) =
        (executeFlashFSM device)^[completedCalls]
          ((executeFlashFSM device)^[errorCalls] state) := by
    rw [← iterate_add_apply, ← iterate_add_apply, add_comm]
  rw [iterate_fixed (executeFlashFSM_completed hcompleted),
    iterate_fixed (executeFlashFSM_error herror)] at hlast
  rw [hlast, herror] at hcompleted
  cases hcompleted

theorem executeFlashFSM_idle (hop : state.currentFlashOp = .idle) :
    executeFlashFSM device state = state := by
  simp only [executeFlashFSM, hop]

theorem iterate_of_idle (device : FlashLowLevel σ) (hop : state.currentFlashOp = .idle)
    (calls : ℕ) : (executeFlashFSM device)^[calls] state = state :=
  iterate_fixed (executeFlashFSM_idle hop) calls

/-- What a call of the state machine does. -/
inductive StepOutcome (device : FlashLowLevel σ) (state : FlashState σ) : FlashState σ → Prop
  | rest (hcommand : readyCommand device (pollChip device state) = none) :
      StepOutcome device state state
  | startErase (hop : state.currentFlashOp = .pendingOp)
      (htask : state.currentFlashTask = .writeBios) :
      StepOutcome device state { state with currentFlashOp := .eraseInProgress }
  | startRead (hop : state.currentFlashOp = .pendingOp)
      (htask : state.currentFlashTask ∈ [.readBios, .writeSettings, .readSettings]) :
      StepOutcome device state { state with currentFlashOp := .readInProgress }
  | busyErase (hop : state.currentFlashOp = .eraseInProgress)
      (hbusy : (device.deviceIsBusy state.chip).1 = true) :
      StepOutcome device state
        { pollChip device state with eraseBusyCount := state.eraseBusyCount + 1 }
  | busy (hop : state.currentFlashOp = .writeInProgress ∨
        state.currentFlashOp = .verifyInProgress ∨ state.currentFlashOp = .readInProgress)
      (hbusy : (device.deviceIsBusy state.chip).1 = true) :
      StepOutcome device state (pollChip device state)
  | erase (hop : state.currentFlashOp = .eraseInProgress)
      (hready : ¬ (device.deviceIsBusy state.chip).1 = true) :
      StepOutcome device state (executeErase device (pollChip device state))
  | write (hop : state.currentFlashOp = .writeInProgress)
      (hready : ¬ (device.deviceIsBusy state.chip).1 = true) :
      StepOutcome device state (executeWrite device (pollChip device state))
  | verify (hop : state.currentFlashOp = .verifyInProgress)
      (hready : ¬ (device.deviceIsBusy state.chip).1 = true) :
      StepOutcome device state (executeVerify device (pollChip device state))
  | read (hop : state.currentFlashOp = .readInProgress)
      (hready : ¬ (device.deviceIsBusy state.chip).1 = true) :
      StepOutcome device state (executeRead device (pollChip device state))

theorem executeFlashFSM_outcome (device : FlashLowLevel σ) (state : FlashState σ) :
    StepOutcome device state (executeFlashFSM device state) := by
  have hquiet {op : FlashOp} (hop : state.currentFlashOp = op)
      (hrests : op ∈ [.idle, .pendingOp, .completed, .error]) :
      readyCommand device (pollChip device state) = none := by
    simp only [readyCommand, pollChip, hop]
    cases op <;> first | rfl | simp at hrests
  cases hop : state.currentFlashOp with
  | idle =>
    rw [executeFlashFSM_idle hop]
    exact .rest (hquiet hop (by simp))
  | completed =>
    rw [executeFlashFSM_completed hop]
    exact .rest (hquiet hop (by simp))
  | error =>
    rw [executeFlashFSM_error hop]
    exact .rest (hquiet hop (by simp))
  | pendingOp =>
    simp only [executeFlashFSM, hop]
    split <;> rename_i htask
    · exact .startErase hop htask
    · exact .startRead hop (by simp [htask])
    · exact .startRead hop (by simp [htask])
    · exact .startRead hop (by simp [htask])
    · exact .rest (hquiet hop (by simp))
  | eraseInProgress =>
    rw [executeFlashFSM_erase hop]
    split_ifs with hbusy
    · exact .busyErase hop hbusy
    · exact .erase hop hbusy
  | writeInProgress =>
    rw [executeFlashFSM_write hop]
    split_ifs with hbusy
    · exact .busy (.inl hop) hbusy
    · exact .write hop hbusy
  | verifyInProgress =>
    rw [executeFlashFSM_verify hop]
    split_ifs with hbusy
    · exact .busy (.inr (.inl hop)) hbusy
    · exact .verify hop hbusy
  | readInProgress =>
    rw [executeFlashFSM_read hop]
    split_ifs with hbusy
    · exact .busy (.inr (.inr hop)) hbusy
    · exact .read hop hbusy

/-! ### The chip after a call -/

/-- The chip after an optional command. -/
def performOption (device : FlashLowLevel σ) (command : Option FlashCommand) (chip : σ) : σ :=
  command.elim chip fun given ↦ given.perform device chip

theorem switchEraseMethod_chip (method : EraseSequenceMethod) :
    (switchEraseMethod device method state).chip =
      performOption device (if state.currentFlashTask = .writeSettings then none
        else some (.erase method state.address)) state.chip := by
  unfold switchEraseMethod
  split_ifs with htask
  · rfl
  · rfl

theorem escalateErase_chip :
    (escalateErase device state).chip =
      performOption device (escalateCommand state) state.chip := by
  unfold escalateErase escalateCommand
  cases state.eraseSequenceMethod with
  | sector | block => exact switchEraseMethod_chip _
  | chip => rfl

theorem skipErase_chip : (skipErase state).chip = state.chip := by
  unfold skipErase
  split_ifs with hend
  · rfl
  · rfl

theorem executeErase_chip (hop : state.currentFlashOp = .eraseInProgress) :
    (executeErase device state).chip =
      performOption device (readyCommand device state) state.chip := by
  simp only [executeErase, readyCommand, hop]
  split_ifs with hwritable hescalate
  · exact skipErase_chip
  · exact escalateErase_chip
  · rfl

theorem executeWrite_chip (hop : state.currentFlashOp = .writeInProgress) :
    (executeWrite device state).chip =
      performOption device (readyCommand device state) state.chip := by
  simp only [executeWrite, readyCommand, hop]
  split_ifs with hend hdiffers
  · rfl
  · rfl
  · rfl

theorem executeVerify_chip : (executeVerify device state).chip = state.chip := by
  unfold executeVerify
  split_ifs with hend hequal
  · rfl
  · rfl
  · rfl

theorem injectSettingsInBuf_of_ne {offset : ℕ} (hoffset : offset ≠ 0) :
    injectSettingsInBuf offset state =
      { state with
        lpcmodSettings := state.lpcmodSettings.withCrc
        biosBuffer := overlay state.biosBuffer (offset % state.biosBufferSize) 3840
          state.lpcmodSettings.withCrc.image } :=
  if_pos hoffset

/-- Putting the settings into the buffer changes the buffer and the settings only. -/
theorem injectSettingsInBuf_eq (offset : ℕ) (state : FlashState σ) :
    ∃ settings buffer, injectSettingsInBuf offset state =
      { state with lpcmodSettings := settings, biosBuffer := buffer } := by
  by_cases hoffset : offset ≠ 0
  · exact ⟨_, _, injectSettingsInBuf_of_ne hoffset⟩
  · exact ⟨state.lpcmodSettings, state.biosBuffer, if_neg hoffset⟩

theorem injectSettingsInBuf_chip (offset : ℕ) :
    (injectSettingsInBuf offset state).chip = state.chip := by
  obtain ⟨settings, buffer, hinject⟩ := injectSettingsInBuf_eq offset state
  rw [hinject]

/-- A settings save goes on to erase with the settings put into the buffer. -/
theorem finishRead_writeSettings (device : FlashLowLevel σ) (state : FlashState σ)
    (htask : state.currentFlashTask = .writeSettings) :
    finishRead device state =
      { injectSettingsInBuf (getXBlastOSSettingStartingOffset
          (getBiosIdentifierFromFlash device state.chip)) state with
        currentAddr := 0
        currentFlashOp := .eraseInProgress } := by
  simp only [finishRead, htask]

theorem finishRead_chip : (finishRead device state).chip = state.chip := by
  unfold finishRead
  cases state.currentFlashTask with
  | writeSettings => exact injectSettingsInBuf_chip _
  | noTask | writeBios | readBios | readSettings => rfl

theorem executeRead_chip : (executeRead device state).chip = state.chip := by
  unfold executeRead
  split_ifs with hend
  · exact finishRead_chip
  · rfl

/-- Reading one more byte extends the part of the buffer that holds the flash. -/
theorem storeCurrent_buffer {origin : Bytes}
    (hbyte : device.readByte state.chip state.address = origin state.address)
    (hbuffer : ∀ index < state.currentAddr,
      state.biosBuffer index = origin (state.startingOffset + index)) :
    ∀ index < state.currentAddr + 1,
      (storeCurrent device state).biosBuffer index = origin (state.startingOffset + index) := by
  intro index hindex
  change update state.biosBuffer state.currentAddr _ index = _
  by_cases hlast : index = state.currentAddr
  · rw [hlast, update_self, hbyte, FlashState.address]
  · rw [update_of_ne hlast, hbuffer index (by omega)]

/-- A call that polls the chip leaves it as the poll and the command do. The other calls leave
it alone. -/
theorem executeFlashFSM_chip (device : FlashLowLevel σ) (state : FlashState σ) :
    (stepCommand device state = none ∧ (executeFlashFSM device state).chip = state.chip) ∨
    (executeFlashFSM device state).chip =
      performOption device (stepCommand device state) (device.deviceIsBusy state.chip).2 := by
  have hquiet (hnone : readyCommand device (pollChip device state) = none) :
      stepCommand device state = none := by
    unfold stepCommand
    split_ifs with hbusy
    · rfl
    · exact hnone
  have houtcome := executeFlashFSM_outcome device state
  generalize executeFlashFSM device state = after at houtcome ⊢
  cases houtcome with
  | rest hcommand => exact .inl ⟨hquiet hcommand, rfl⟩
  | startErase hop _ | startRead hop _ =>
    exact .inl ⟨hquiet (by simp only [readyCommand, pollChip, hop]), rfl⟩
  | busyErase _ hbusy | busy _ hbusy =>
    rw [stepCommand, if_pos hbusy]
    exact .inr rfl
  | erase hop hready =>
    rw [stepCommand, if_neg hready]
    exact .inr (executeErase_chip hop)
  | write hop hready =>
    rw [stepCommand, if_neg hready]
    exact .inr (executeWrite_chip hop)
  | verify hop _ =>
    rw [hquiet (by simp only [readyCommand, pollChip, hop])]
    exact .inr executeVerify_chip
  | read hop _ =>
    rw [hquiet (by simp only [readyCommand, pollChip, hop])]
    exact .inr executeRead_chip

variable (flash : NorFlash device)

/-- The content of the chip changes by the command of the call, which is given to a chip that
answered as not busy, and by nothing else. -/
theorem executeFlashFSM_content (state : FlashState σ) :
    (stepCommand device state = none ∧
      flash.content (executeFlashFSM device state).chip = flash.content state.chip) ∨
    ∃ command, stepCommand device state = some command ∧
      flash.ready (device.deviceIsBusy state.chip).2 ∧
      (executeFlashFSM device state).chip =
        command.perform device (device.deviceIsBusy state.chip).2 := by
  have hpoll := flash.poll_content state.chip
  rcases executeFlashFSM_chip device state with ⟨hnone, hchip⟩ | hchip
  · exact .inl ⟨hnone, by rw [hchip]⟩
  · cases hcommand : stepCommand device state with
    | none =>
      rw [hcommand] at hchip
      exact .inl ⟨rfl, by rw [hchip]; exact hpoll⟩
    | some command =>
      rw [hcommand] at hchip
      refine .inr ⟨command, rfl, flash.poll_ready state.chip ?_, hchip⟩
      by_contra hbusy
      rw [stepCommand, if_pos (eq_true_of_not_eq_false hbusy)] at hcommand
      cases hcommand

/-! ### The end of a job -/

/-- The order in which the erase methods are tried. -/
def EraseSequenceMethod.rank : EraseSequenceMethod → ℕ
  | .sector => 0
  | .block => 1
  | .chip => 2

theorem EraseSequenceMethod.rank_le (method : EraseSequenceMethod) : method.rank ≤ 2 := by
  cases method <;> decide

theorem ne_sector_of_rank_lt {old method : EraseSequenceMethod} (hrank : old.rank < method.rank) :
    method ≠ .sector := by
  rintro rfl
  exact absurd hrank (Nat.not_lt_zero _)

/-- Whether the byte at the current address can be programmed without an erase. -/
def FlashState.writable (device : FlashLowLevel σ) (state : FlashState σ) : Bool :=
  canWrite (device.readByte state.chip state.address) (state.biosBuffer state.currentAddr)

/-- The erase command at this byte was given before, and the chip was hardly busy since. -/
def FlashState.NeverRan (state : FlashState σ) : Prop :=
  state.firstEraseTry = false ∧ state.eraseBusyCount < 3

/-- What the erase phase does on a chip that is not busy. -/
inductive EraseOutcome (device : FlashLowLevel σ) (state : FlashState σ) : FlashState σ → Prop
  | skip (hwritable : state.writable device = true) : EraseOutcome device state (skipErase state)
  | erase (hwritable : state.writable device = false) (hran : ¬ state.NeverRan) :
      EraseOutcome device state (eraseCurrent device state)
  | switch (hwritable : state.writable device = false) (hnever : state.NeverRan)
      (method : EraseSequenceMethod) (hrank : state.eraseSequenceMethod.rank < method.rank)
      (hblock : method = .block → state.flashType.support4KBErase = true) :
      EraseOutcome device state (switchEraseMethod device method state)
  | giveUp (hwritable : state.writable device = false) (hnever : state.NeverRan)
      (hmethod : state.eraseSequenceMethod = .chip) :
      EraseOutcome device state
        { state with
          firstEraseTry := true
          eraseBusyCount := 0
          currentFlashOp := .error
          flashErrorCode := .failedErase }

theorem executeErase_outcome (device : FlashLowLevel σ) (state : FlashState σ) :
    EraseOutcome device state (executeErase device state) := by
  unfold executeErase
  split_ifs with hwritable hnever
  · exact .skip hwritable
  · have hbad := eq_false_of_not_eq_true hwritable
    unfold escalateErase
    split
    · rename_i hmethod
      refine .switch hbad hnever _ ?_ fun hblock ↦ ?_
      · rw [hmethod]
        split_ifs <;> decide
      · by_contra hsupport
        rw [if_neg hsupport] at hblock
        cases hblock
    · rename_i hmethod
      refine .switch hbad hnever .chip ?_ nofun
      rw [hmethod]
      decide
    · rename_i hmethod
      exact .giveUp hbad hnever hmethod
  · exact .erase (eq_false_of_not_eq_true hwritable) hnever

/-- The phases that can follow the erase phase, with the code of a failure. -/
theorem executeErase_phase (device : FlashLowLevel σ) (state : FlashState σ)
    (hop : state.currentFlashOp = .eraseInProgress) :
    (executeErase device state).currentFlashOp = .eraseInProgress ∨
    ((executeErase device state).currentFlashOp = .writeInProgress ∧
      (executeErase device state).currentAddr = 0) ∨
    ((executeErase device state).currentFlashOp = .readInProgress ∧
      state.currentFlashTask = .writeSettings) ∨
    ((executeErase device state).currentFlashOp = .error ∧
      (executeErase device state).flashErrorCode = .failedErase) := by
  have houtcome := executeErase_outcome device state
  generalize executeErase device state = after at houtcome ⊢
  cases houtcome with
  | skip hwritable =>
    unfold skipErase
    split_ifs with hend
    · exact .inr (.inl ⟨rfl, rfl⟩)
    · exact .inl hop
  | erase hwritable hran => exact .inl hop
  | switch hwritable hnever method hrank =>
    unfold switchEraseMethod
    split_ifs with htask
    · exact .inr (.inr (.inl ⟨rfl, htask⟩))
    · exact .inl hop
  | giveUp hwritable hnever hmethod => exact .inr (.inr (.inr ⟨rfl, rfl⟩))

/-- The phases that can follow the read phase. -/
theorem executeRead_op (device : FlashLowLevel σ) (state : FlashState σ)
    (hop : state.currentFlashOp = .readInProgress) :
    (executeRead device state).currentFlashOp = .readInProgress ∨
    (executeRead device state).currentFlashOp = .completed ∨
    ((executeRead device state).currentFlashOp = .eraseInProgress ∧
      (executeRead device state).currentAddr = 0 ∧
      state.currentFlashTask = .writeSettings) := by
  unfold executeRead
  split_ifs
  · unfold finishRead
    cases htask : state.currentFlashTask with
    | readBios | readSettings => exact .inr (.inl (by simp [storeCurrent, htask]))
    | writeSettings =>
      exact .inr (.inr ⟨by simp [storeCurrent, htask], by simp [storeCurrent, htask], rfl⟩)
    | noTask | writeBios => exact .inl (by simp [storeCurrent, htask, hop])
  · exact .inl hop

/-- The part of the state that no call of the state machine changes. -/
def FlashState.constants (state : FlashState σ) : FlashTask × LPCmodSettings :=
  (state.currentFlashTask, state.lpcmodSettingsOrigFromFlash)

section

variable (device : FlashLowLevel σ) (state : FlashState σ)

theorem executeErase_constants :
    (executeErase device state).constants = state.constants := by
  have houtcome := executeErase_outcome device state
  generalize executeErase device state = after at houtcome ⊢
  cases houtcome with
  | skip _ =>
    unfold skipErase
    split_ifs <;> rfl
  | erase | giveUp => rfl
  | switch _ _ method _ =>
    unfold switchEraseMethod
    split_ifs <;> rfl

theorem finishRead_constants :
    (finishRead device state).constants = state.constants := by
  unfold finishRead
  split
  · rfl
  · rfl
  · obtain ⟨settings, buffer, hinject⟩ := injectSettingsInBuf_eq _ state
    rw [hinject]
    rfl
  · rfl
  · rfl

/-- A call of the state machine keeps its task and the settings of the last boot. -/
theorem executeFlashFSM_constants :
    (executeFlashFSM device state).constants = state.constants := by
  have houtcome := executeFlashFSM_outcome device state
  generalize executeFlashFSM device state = after at houtcome ⊢
  cases houtcome with
  | rest | startErase | startRead | busyErase | busy => rfl
  | erase => exact executeErase_constants device _
  | write =>
    unfold executeWrite
    split_ifs <;> rfl
  | verify =>
    unfold executeVerify
    split_ifs <;> rfl
  | read =>
    unfold executeRead
    split_ifs with hend
    · exact finishRead_constants device _
    · rfl

theorem executeFlashFSM_task :
    (executeFlashFSM device state).currentFlashTask = state.currentFlashTask :=
  congrArg Prod.fst (executeFlashFSM_constants device state)

theorem iterate_origFromFlash (calls : ℕ) :
    ((executeFlashFSM device)^[calls] state).lpcmodSettingsOrigFromFlash =
      state.lpcmodSettingsOrigFromFlash := by
  induction calls with
  | zero => rfl
  | succ calls ih =>
    rw [iterate_succ_apply', ← ih]
    exact congrArg Prod.snd (executeFlashFSM_constants device _)

end

/-- A job that has reached `completed` leaves a chip that is not busy. -/
theorem executeFlashFSM_ready (state : FlashState σ)
    (hready : state.currentFlashOp = .completed → flash.ready state.chip)
    (hcompleted : (executeFlashFSM device state).currentFlashOp = .completed) :
    flash.ready (executeFlashFSM device state).chip := by
  have hpolled (hfree : ¬ (device.deviceIsBusy state.chip).1 = true) :
      flash.ready (pollChip device state).chip :=
    flash.poll_ready state.chip (eq_false_iff.mpr hfree)
  have houtcome := executeFlashFSM_outcome device state
  generalize executeFlashFSM device state = after at houtcome hcompleted ⊢
  cases houtcome with
  | rest => exact hready hcompleted
  | startErase | startRead => cases hcompleted
  | busyErase hop _ => cases hop.symm.trans hcompleted
  | busy hop _ => obtain hop | hop | hop := hop <;> cases hop.symm.trans hcompleted
  | erase hop _ =>
    have hnext := executeErase_phase device (pollChip device state) hop
    simp [hcompleted] at hnext
  | write hop _ =>
    unfold executeWrite at hcompleted
    split_ifs at hcompleted <;> simp [pollChip, hop] at hcompleted
  | verify _ hfree =>
    rw [executeVerify_chip]
    exact hpolled hfree
  | read _ hfree =>
    rw [executeRead_chip]
    exact hpolled hfree

theorem ready_of_completed (hstart : state.currentFlashOp ≠ .completed) (calls : ℕ)
    (hcompleted : ((executeFlashFSM device)^[calls] state).currentFlashOp = .completed) :
    flash.ready ((executeFlashFSM device)^[calls] state).chip := by
  induction calls with
  | zero => exact absurd hcompleted hstart
  | succ calls ih =>
    rw [iterate_succ_apply'] at hcompleted ⊢
    exact executeFlashFSM_ready flash _ ih hcompleted

/-! ### The save request -/

theorem getBiosIdentifierFromFlash_eq {chip : σ} (hready : flash.ready chip) :
    getBiosIdentifierFromFlash device chip = .ofImage (flash.content chip) :=
  BiosIdentifier.ofImage_congr fun address _ _ ↦ flash.readByte_eq chip hready address

/-- The state in which a settings save at an offset is pending. -/
def pendingSave (device : FlashLowLevel σ) (state : FlashState σ) (known : KnownFlashType)
    (offset : ℕ) : FlashState σ :=
  { state with
    flashType := known
    chip := (device.readDevice state.chip).2
    startingOffset := offset
    eraseSequenceMethod := .sector
    eraseBusyCount := 0
    firstEraseTry := true
    biosBufferSize := getEraseMethodSize known .sector
    currentFlashOp := .pendingOp
    currentFlashTask := .writeSettings }

/-- A save request on an idle machine starts a job at the offset that the flash asks for, or
fails at once. -/
theorem saveXBlastOSSettings_cases (hardware : Hardware) (hidle : state.currentFlashOp = .idle) :
    (∃ known, (device.readDevice state.chip).1 = some known ∧
      getXBlastOSSettingStartingOffset (.ofImage (flash.content state.chip)) ≠ 0 ∧
      saveXBlastOSSettings device hardware state = pendingSave device state known
        (getXBlastOSSettingStartingOffset (.ofImage (flash.content state.chip)))) ∨
    (((device.readDevice state.chip).1 = none ∨
        getXBlastOSSettingStartingOffset (.ofImage (flash.content state.chip)) = 0) ∧
      ∃ known offset code, saveXBlastOSSettings device hardware state =
        { state with
          flashType := known
          chip := (device.readDevice state.chip).2
          startingOffset := offset
          currentFlashOp := .error
          flashErrorCode := code }) := by
  rw [saveXBlastOSSettings, if_pos hidle]
  cases hanswer : (device.readDevice state.chip).1 with
  | none =>
    rw [readDevice_of_none hanswer]
    exact .inr ⟨.inl rfl, state.flashType, state.startingOffset, _, rfl⟩
  | some known =>
    have hready := flash.readDevice_ready state.chip (Option.isSome_of_eq_some hanswer)
    rw [readDevice_of_some hanswer]
    simp only [getBiosIdentifierFromFlash_eq flash hready, flash.readDevice_content]
    split_ifs with hoffset
    · exact .inl ⟨known, rfl, hoffset, rfl⟩
    · exact .inr ⟨.inr (not_ne_iff.mp hoffset), known, _, _, rfl⟩

theorem saveXBlastOSSettings_content (hardware : Hardware) (state : FlashState σ)
    (hidle : state.currentFlashOp = .idle) :
    flash.content (saveXBlastOSSettings device hardware state).chip =
      flash.content state.chip := by
  rcases saveXBlastOSSettings_cases flash hardware hidle with
    ⟨known, _, _, hstart⟩ | ⟨_, known, offset, code, hstart⟩
  · rw [hstart]
    exact flash.readDevice_content state.chip
  · rw [hstart]
    exact flash.readDevice_content state.chip

end XBlast.Flash
