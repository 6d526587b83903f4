import XBlast.Flash.DeviceTable
import XBlast.Flash.SaveJob

/-!
# The indices of the flash machine

No request resets the address of the machine: it relies on every way back to `idle` having done
so. `InRange` is the invariant behind this, with the bounds of the address in each phase. The calls
then use `biosBuffer` below its size and the flash inside the range of the job or at the
identifier, with one exception. A settings save puts the settings into the range that it read back,
at the remainder of their offset, and nothing checks that they end inside the range
(`indicesInRange_iff`).
-/

set_option autoImplicit false
set_option relaxedAutoImplicit false

namespace XBlast.Flash

open Foundation

variable {σ : Type*} {device : FlashLowLevel σ} {state : FlashState σ}

/-! ### The accesses of a call -/

/-- The indices of the buffer that `injectSettingsInBuf` writes. -/
def injectedIndices (offset size : ℕ) : Set ℕ :=
  {index | offset ≠ 0 ∧ offset % size ≤ index ∧ index < offset % size + 3840}

/-- The addresses of the identifier, in the flash and in an image of 256KB. -/
def identifierAddresses : Set ℕ := {address | 0x3FFC1 ≤ address ∧ address < 0x40000}

/-- A phase that looks at the byte at the current address. -/
def FlashState.AtByte (state : FlashState σ) : Prop :=
  state.currentFlashOp = .eraseInProgress ∨ state.currentFlashOp = .readInProgress ∨
    (state.currentFlashOp = .writeInProgress ∨ state.currentFlashOp = .verifyInProgress) ∧
      state.currentAddr < state.biosBufferSize

/-- A call on a ready chip that ends the read phase of a settings save. -/
structure EndsReadBack (device : FlashLowLevel σ) (state : FlashState σ) : Prop where
  ready : (device.deviceIsBusy state.chip).1 = false
  op : state.currentFlashOp = .readInProgress
  task : state.currentFlashTask = .writeSettings
  last : state.biosBufferSize ≤ state.currentAddr + 1

/-- The offset of the settings that such a call reads in the flash. -/
def readBackOffset (device : FlashLowLevel σ) (state : FlashState σ) : ℕ :=
  getXBlastOSSettingStartingOffset
    (getBiosIdentifierFromFlash device (device.deviceIsBusy state.chip).2)

/-- The indices of the buffer that a call of the state machine reads or writes. -/
def stepIndices (device : FlashLowLevel σ) (state : FlashState σ) : Set ℕ :=
  {index | ((device.deviceIsBusy state.chip).1 = false ∧ state.AtByte ∧ index = state.currentAddr) ∨
    EndsReadBack device state ∧
      index ∈ injectedIndices (readBackOffset device state) state.biosBufferSize}

/-- The flash addresses that a call of the state machine reads, programs or erases. -/
def stepAddresses (device : FlashLowLevel σ) (state : FlashState σ) : Set ℕ :=
  {address | ((device.deviceIsBusy state.chip).1 = false ∧ state.AtByte ∧ address = state.address) ∨
    EndsReadBack device state ∧ address ∈ identifierAddresses}

variable (written : FlashErrorcodes × FlashState σ)

/-- The indices that `Flash_WriteBios` writes: the image and its copies. -/
def writtenIndices : Set ℕ :=
  {index | written.1 = .noError ∧ index < written.2.biosBufferSize}

/-- The indices that `Flash_XBlastOSBankFlash` goes on to read and write after the image: the
identifier and the settings. -/
def updateIndices : Set ℕ :=
  {index | written.1 = .noError ∧
    (written.2.biosBufferSize = 256 * 1024 ∧ index ∈ identifierAddresses ∨
      index ∈ injectedIndices
        (getXBlastOSSettingStartingOffset
          (getBiosIdentifierFromBuffer written.2.biosBuffer written.2.biosBufferSize))
        written.2.biosBufferSize)}

section

variable (device) (hardware : Hardware) (md5 : Digest 16)

/-- The indices of the buffer that a call reads or writes. -/
def FlashCall.indices : FlashCall → FlashState σ → Set ℕ
  | .executeFlashFSM, state => stepIndices device state
  | .xblastUserBankFlash inBuf size offset bank, state =>
    writtenIndices (writeBios device inBuf size offset bank state)
  | .xblastOSBankFlash inBuf size offset overrideChecks, state =>
    let checked := checkOSImage md5 inBuf size overrideChecks state
    let written := writeBios device inBuf size offset .osBank checked
    {index | checked.flashErrorCode = .noError ∧
      (index ∈ writtenIndices written ∨ index ∈ updateIndices written)}
  | .readXBlastOSSettingsRequest, state =>
    {index | index = 0 ∧ state.currentFlashOp = .idle ∧
      (Flash.readXBlastOSSettingsRequest device hardware state).currentFlashOp = .completed}
  | _, _ => ∅

/-- The flash addresses that a call reads, programs or erases. -/
def FlashCall.addresses : FlashCall → FlashState σ → Set ℕ
  | .executeFlashFSM, state => stepAddresses device state
  | .readXBlastOSSettingsRequest, state =>
    {address | state.currentFlashOp = .idle ∧ address ∈ identifierAddresses}
  | .saveXBlastOSSettings, state =>
    {address | state.currentFlashOp = .idle ∧ address ∈ identifierAddresses}
  | _, _ => ∅

/-- The size of the buffer while a call uses it. A request sets the size first. -/
def FlashCall.bufferSize : FlashCall → FlashState σ → ℕ
  | .executeFlashFSM, state => state.biosBufferSize
  | call, state => (call.perform device hardware md5 state).biosBufferSize

/-- The bounds of the machine in a state, and those of a call in it. -/
structure IndicesInRange (call : FlashCall) (state : FlashState σ) : Prop where
  idle : state.currentFlashOp = .idle → state.currentAddr = 0 ∧ state.biosBufferSize = 0
  below : state.currentFlashOp = .eraseInProgress ∨ state.currentFlashOp = .readInProgress →
    state.currentAddr < state.biosBufferSize
  within : state.currentFlashOp = .writeInProgress ∨ state.currentFlashOp = .verifyInProgress →
    state.currentAddr ≤ state.biosBufferSize
  buffer : ∀ index ∈ call.indices device hardware md5 state,
    index < call.bufferSize device hardware md5 state
  flash : ∀ address ∈ call.addresses device state,
    (state.startingOffset ≤ address ∧ address < state.startingOffset + state.biosBufferSize) ∨
      address ∈ identifierAddresses

end

/-! ### The accesses are those of the model -/

section

variable {readByte : σ → Bytes} {buffer : Bytes}

theorem executeErase_congr
    (hbyte : readByte state.chip state.address = device.readByte state.chip state.address)
    (hcurrent : buffer state.currentAddr = state.biosBuffer state.currentAddr) :
    executeErase { device with readByte := readByte } { state with biosBuffer := buffer } =
      { executeErase device state with biosBuffer := buffer } := by
  have hswitch (method : EraseSequenceMethod) :
      switchEraseMethod { device with readByte := readByte } method
        { state with biosBuffer := buffer } =
      { switchEraseMethod device method state with biosBuffer := buffer } := by
    unfold switchEraseMethod
    split_ifs <;> rfl
  change (if canWrite (readByte state.chip state.address) (buffer state.currentAddr) then _ else
    if state.firstEraseTry = false ∧ state.eraseBusyCount < 3 then _ else _) = _
  rw [hbyte, hcurrent, executeErase]
  split_ifs with hwritable hrefused
  · unfold skipErase
    split_ifs <;> rfl
  · cases hmethod : state.eraseSequenceMethod with
    | sector =>
      simp only [escalateErase, hmethod]
      exact hswitch (if state.flashType.support4KBErase then .block else .chip)
    | block =>
      simp only [escalateErase, hmethod]
      exact hswitch .chip
    | chip => simp only [escalateErase, hmethod]
  · rfl

section

variable (hbytes : state.currentAddr < state.biosBufferSize →
  readByte state.chip state.address = device.readByte state.chip state.address ∧
    buffer state.currentAddr = state.biosBuffer state.currentAddr)

include hbytes

theorem executeWrite_congr :
    executeWrite { device with readByte := readByte } { state with biosBuffer := buffer } =
      { executeWrite device state with biosBuffer := buffer } := by
  simp only [executeWrite]
  by_cases hend : state.biosBufferSize ≤ state.currentAddr
  · rw [if_pos hend, if_pos hend]
  · obtain ⟨hbyte, hcurrent⟩ := hbytes (lt_of_not_ge hend)
    rw [if_neg hend, if_neg hend, hcurrent]
    change (if readByte state.chip state.address ≠ _ then _ else _) = _
    rw [hbyte]
    split_ifs <;> rfl

theorem executeVerify_congr :
    executeVerify { device with readByte := readByte } { state with biosBuffer := buffer } =
      { executeVerify device state with biosBuffer := buffer } := by
  simp only [executeVerify]
  by_cases hend : state.biosBufferSize ≤ state.currentAddr
  · rw [if_pos hend, if_pos hend]
  · obtain ⟨hbyte, hcurrent⟩ := hbytes (lt_of_not_ge hend)
    rw [if_neg hend, if_neg hend, hcurrent]
    change (if readByte state.chip state.address = _ then _ else _) = _
    rw [hbyte]
    split_ifs <;> rfl

end

theorem executeErase_biosBuffer : (executeErase device state).biosBuffer = state.biosBuffer := by
  have hsame := @executeErase_congr _ device state device.readByte state.biosBuffer rfl rfl
  exact (congrArg FlashState.biosBuffer hsame :)

theorem executeWrite_biosBuffer : (executeWrite device state).biosBuffer = state.biosBuffer := by
  unfold executeWrite
  split_ifs <;> rfl

theorem executeVerify_biosBuffer : (executeVerify device state).biosBuffer = state.biosBuffer := by
  unfold executeVerify
  split_ifs <;> rfl

theorem injectSettingsInBuf_congr {indices : Set ℕ} (offset : ℕ)
    (hbuffer : ∀ index ∈ indices, buffer index = state.biosBuffer index) :
    ∃ after, injectSettingsInBuf offset { state with biosBuffer := buffer } =
        { injectSettingsInBuf offset state with biosBuffer := after } ∧
      ∀ index ∈ indices, after index = (injectSettingsInBuf offset state).biosBuffer index := by
  unfold injectSettingsInBuf
  split_ifs with hoffset
  · refine ⟨_, rfl, fun index hindex ↦ ?_⟩
    simp only [overlay, hbuffer index hindex]
  · exact ⟨buffer, rfl, hbuffer⟩

/-- The read phase for two buffers that agree on `indices`. -/
theorem executeRead_congr {indices : Set ℕ}
    (hbyte : readByte state.chip state.address = device.readByte state.chip state.address)
    (hidentifier : state.currentFlashTask = .writeSettings →
      state.biosBufferSize ≤ state.currentAddr + 1 →
      getBiosIdentifierFromFlash { device with readByte := readByte } state.chip =
        getBiosIdentifierFromFlash device state.chip)
    (hbuffer : ∀ index ∈ indices, buffer index = state.biosBuffer index) :
    ∃ after, executeRead { device with readByte := readByte } { state with biosBuffer := buffer } =
        { executeRead device state with biosBuffer := after } ∧
      ∀ index ∈ indices, after index = (executeRead device state).biosBuffer index := by
  have hread :
      storeCurrent { device with readByte := readByte } { state with biosBuffer := buffer } =
      { storeCurrent device state with
        biosBuffer := Function.update buffer state.currentAddr
          (device.readByte state.chip state.address) } := by
    rw [← hbyte]
    rfl
  have hstored (index : ℕ) (hindex : index ∈ indices) :
      Function.update buffer state.currentAddr (device.readByte state.chip state.address) index =
        (storeCurrent device state).biosBuffer index := by
    change _ = Function.update state.biosBuffer state.currentAddr _ index
    rw [Function.update_apply, Function.update_apply, hbuffer index hindex]
  simp only [executeRead, hread]
  split_ifs with hend
  · cases htask : state.currentFlashTask with
    | readBios | readSettings | noTask | writeBios =>
      refine ⟨_, ?_, fun index hindex ↦ (hstored index hindex).trans ?_⟩
      · simp only [finishRead, storeCurrent, htask]
      · simp only [finishRead, storeCurrent, htask]
    | writeSettings =>
      obtain ⟨after, hinject, hafter⟩ := injectSettingsInBuf_congr (getXBlastOSSettingStartingOffset
        (getBiosIdentifierFromFlash device state.chip)) hstored
      rw [finishRead_writeSettings device (storeCurrent device state) htask]
      refine ⟨after, (finishRead_writeSettings _ _ ?_).trans ?_, hafter⟩
      · exact htask
      refine congrArg (fun injected : FlashState σ ↦ { injected with
        currentAddr := 0, currentFlashOp := .eraseInProgress }) (Eq.trans ?_ hinject)
      exact congrArg (fun biosID ↦ injectSettingsInBuf (getXBlastOSSettingStartingOffset biosID) _)
        (hidentifier htask hend)
  · exact ⟨_, rfl, hstored⟩

/-- A call of the state machine reads only the indices and the addresses that it accesses: the step
is the same for another buffer and another flash that agree there. -/
theorem executeFlashFSM_congr
    (hflash : ∀ address ∈ stepAddresses device state,
      readByte (device.deviceIsBusy state.chip).2 address =
        device.readByte (device.deviceIsBusy state.chip).2 address)
    (hbuffer : ∀ index ∈ stepIndices device state, buffer index = state.biosBuffer index) :
    ∃ after,
      executeFlashFSM { device with readByte := readByte } { state with biosBuffer := buffer } =
        { executeFlashFSM device state with biosBuffer := after } ∧
      ∀ index ∈ stepIndices device state,
        after index = (executeFlashFSM device state).biosBuffer index := by
  have hkept {other after : FlashState σ} (hstep : other = { after with biosBuffer := buffer })
      (hsame : after.biosBuffer = state.biosBuffer) :
      ∃ written, other = { after with biosBuffer := written } ∧
        ∀ index ∈ stepIndices device state, written index = after.biosBuffer index :=
    ⟨buffer, hstep, fun index hindex ↦ (hbuffer index hindex).trans (congrFun hsame index).symm⟩
  have hpoll (hbusy : ¬ (device.deviceIsBusy state.chip).1 = true) (hat : state.AtByte) :
      readByte (device.deviceIsBusy state.chip).2 state.address =
          device.readByte (device.deviceIsBusy state.chip).2 state.address ∧
        buffer state.currentAddr = state.biosBuffer state.currentAddr :=
    have hready := Bool.eq_false_of_not_eq_true hbusy
    ⟨hflash _ (.inl ⟨hready, hat, rfl⟩), hbuffer _ (.inl ⟨hready, hat, rfl⟩)⟩
  have hphase {op : FlashOp} (hop : state.currentFlashOp = op) :
      ({ state with biosBuffer := buffer } : FlashState σ).currentFlashOp = op := hop
  obtain ⟨op, hop⟩ : ∃ op, state.currentFlashOp = op := ⟨_, rfl⟩
  cases op with
  | idle | completed | error =>
    exact hkept (by simp only [executeFlashFSM, hop]) (by simp only [executeFlashFSM, hop])
  | pendingOp =>
    cases htask : state.currentFlashTask <;>
      exact hkept (by simp only [executeFlashFSM, hop, htask])
        (by simp only [executeFlashFSM, hop, htask])
  | eraseInProgress =>
    rw [executeFlashFSM_erase hop, executeFlashFSM_erase (hphase hop)]
    simp only
    split_ifs with hbusy
    · exact hkept rfl rfl
    · obtain ⟨hbyte, hcurrent⟩ := hpoll hbusy (.inl hop)
      have hstep := @executeErase_congr _ device (pollChip device state) _ _ hbyte hcurrent
      exact hkept hstep executeErase_biosBuffer
  | writeInProgress =>
    rw [executeFlashFSM_write hop, executeFlashFSM_write (hphase hop)]
    simp only
    split_ifs with hbusy
    · exact hkept rfl rfl
    · have hstep := @executeWrite_congr _ device (pollChip device state) _ _ fun hinside ↦
        hpoll hbusy (.inr (.inr ⟨.inl hop, hinside⟩))
      exact hkept hstep executeWrite_biosBuffer
  | verifyInProgress =>
    rw [executeFlashFSM_verify hop, executeFlashFSM_verify (hphase hop)]
    simp only
    split_ifs with hbusy
    · exact hkept rfl rfl
    · have hstep := @executeVerify_congr _ device (pollChip device state) _ _ fun hinside ↦
        hpoll hbusy (.inr (.inr ⟨.inr hop, hinside⟩))
      exact hkept hstep executeVerify_biosBuffer
  | readInProgress =>
    rw [executeFlashFSM_read hop, executeFlashFSM_read (hphase hop)]
    simp only
    split_ifs with hbusy
    · exact hkept rfl rfl
    · obtain ⟨hbyte, -⟩ := hpoll hbusy (.inr (.inl hop))
      refine @executeRead_congr _ device (pollChip device state) _ _ _ hbyte
        (fun htask hend ↦ BiosIdentifier.ofImage_congr fun address hstart hbelow ↦ ?_) hbuffer
      exact hflash address (.inr ⟨⟨Bool.eq_false_of_not_eq_true hbusy, hop, htask, hend⟩,
        hstart, hbelow⟩)

end

/-- A call of the state machine writes only the indices that it accesses. -/
theorem executeFlashFSM_biosBuffer {index : ℕ} (hindex : index ∉ stepIndices device state) :
    (executeFlashFSM device state).biosBuffer index = state.biosBuffer index := by
  have houtcome := executeFlashFSM_outcome device state
  generalize executeFlashFSM device state = after at houtcome ⊢
  cases houtcome with
  | rest | startErase | startRead | busyErase | busy => rfl
  | erase => exact congrFun executeErase_biosBuffer index
  | write => exact congrFun executeWrite_biosBuffer index
  | verify => exact congrFun executeVerify_biosBuffer index
  | read hop hfree =>
    have hready := Bool.eq_false_of_not_eq_true hfree
    have hother : index ≠ state.currentAddr :=
      fun hcurrent ↦ hindex (.inl ⟨hready, .inr (.inl hop), hcurrent⟩)
    have hstored : (storeCurrent device (pollChip device state)).biosBuffer index =
        state.biosBuffer index := Function.update_of_ne hother _ _
    unfold executeRead
    split_ifs with hend
    · unfold finishRead
      split
      · exact hstored
      · exact hstored
      · rename_i htask
        rw [← hstored]
        unfold injectSettingsInBuf
        split_ifs with hoffset
        · have hapart : ¬ (readBackOffset device state % state.biosBufferSize ≤ index ∧
              index < readBackOffset device state % state.biosBufferSize + 3840) :=
            fun hinside ↦ hindex (.inr ⟨⟨hready, hop, htask, hend⟩, hoffset, hinside⟩)
          exact if_neg hapart
        · rfl
      · exact hstored
      · exact hstored
    · exact hstored

/-- A call of the state machine gives its command at an address that it accesses. -/
theorem stepCommand_mem_stepAddresses {command : FlashCommand}
    (hcommand : stepCommand device state = some command) :
    ∃ address ∈ stepAddresses device state,
      (∃ byte, command = .write byte address) ∨ ∃ method, command = .erase method address := by
  have hready : (device.deviceIsBusy state.chip).1 = false := by
    by_contra hbusy
    rw [stepCommand, if_pos (Bool.eq_true_of_not_eq_false hbusy)] at hcommand
    cases hcommand
  rcases stepCommand_some hcommand with ⟨byte, rfl, hop, hinside⟩ | ⟨method, rfl, hop⟩
  · exact ⟨state.address, .inl ⟨hready, .inr (.inr ⟨.inl hop, hinside⟩), rfl⟩, .inl ⟨byte, rfl⟩⟩
  · exact ⟨state.address, .inl ⟨hready, .inl hop, rfl⟩, .inr ⟨method, rfl⟩⟩

/-! ### The invariant -/

/-- The bounds of the address in each phase. -/
structure InRange (state : FlashState σ) : Prop where
  idle : state.currentFlashOp = .idle → state.currentAddr = 0 ∧ state.biosBufferSize = 0
  pending : state.currentFlashOp = .pendingOp → state.currentAddr = 0 ∧ 0 < state.biosBufferSize
  below : state.currentFlashOp = .eraseInProgress ∨ state.currentFlashOp = .readInProgress →
    state.currentAddr < state.biosBufferSize
  within : state.currentFlashOp = .writeInProgress ∨ state.currentFlashOp = .verifyInProgress →
    state.currentAddr ≤ state.biosBufferSize

/-- An address below the size is in range in every phase of a job. -/
theorem InRange.of_lt (op : FlashOp) (hop : state.currentFlashOp = op)
    (hphase : op ∉ [FlashOp.idle, .pendingOp])
    (haddr : state.currentAddr < state.biosBufferSize) : InRange state := by
  subst hop
  simp only [List.mem_cons, List.not_mem_nil, or_false, not_or] at hphase
  exact ⟨fun hidle ↦ absurd hidle hphase.1, fun hpending ↦ absurd hpending hphase.2,
    fun _ ↦ haddr, fun _ ↦ haddr.le⟩

/-- At the end of its range the address is in range in the phases that go on to it. -/
theorem InRange.of_le (op : FlashOp) (hop : state.currentFlashOp = op)
    (hphase : op = .writeInProgress ∨ op = .verifyInProgress)
    (haddr : state.currentAddr ≤ state.biosBufferSize) : InRange state := by
  subst hop
  refine ⟨fun hidle ↦ ?_, fun hpending ↦ ?_, fun hbelow ↦ ?_, fun _ ↦ haddr⟩
  · simp [hidle] at hphase
  · simp [hpending] at hphase
  · rcases hphase with hop | hop <;> simp [hop] at hbelow

/-- The end of a job. -/
theorem InRange.of_over (hop : state.Ended) : InRange state := by
  refine ⟨fun hidle ↦ ?_, fun hpending ↦ ?_, fun hbelow ↦ ?_, fun hwithin ↦ ?_⟩
  · simp [FlashState.Ended, hidle] at hop
  · simp [FlashState.Ended, hpending] at hop
  · rcases hop with hop | hop <;> simp [hop] at hbelow
  · rcases hop with hop | hop <;> simp [hop] at hwithin

theorem executeErase_inRange (hop : state.currentFlashOp = .eraseInProgress)
    (haddr : state.currentAddr < state.biosBufferSize) : InRange (executeErase device state) := by
  have houtcome := executeErase_outcome device state
  generalize executeErase device state = after at houtcome ⊢
  cases houtcome with
  | skip _ =>
    unfold skipErase
    split_ifs with hend
    · exact .of_lt .writeInProgress rfl (by decide) (Nat.zero_lt_of_lt haddr)
    · exact .of_lt _ hop (by decide) (lt_of_not_ge hend)
  | erase _ _ => exact .of_lt _ hop (by decide) haddr
  | switch _ _ method _ =>
    unfold switchEraseMethod
    split_ifs with htask
    · exact .of_lt .readInProgress rfl (by decide) (getEraseMethodSize_pos _ _)
    · exact .of_lt _ hop (by decide) haddr
  | giveUp _ _ _ => exact .of_over (.inr rfl)

theorem executeRead_inRange (hop : state.currentFlashOp = .readInProgress)
    (haddr : state.currentAddr < state.biosBufferSize) : InRange (executeRead device state) := by
  have hpos : 0 < state.biosBufferSize := Nat.zero_lt_of_lt haddr
  unfold executeRead
  split_ifs with hend
  · unfold finishRead
    split
    · exact .of_over (.inl rfl)
    · exact .of_over (.inl rfl)
    · obtain ⟨settings, buffer, hinject⟩ := injectSettingsInBuf_eq _ (storeCurrent device state)
      rw [hinject]
      exact .of_lt .eraseInProgress rfl (by decide) hpos
    · exact .of_lt _ hop (by decide) hpos
    · exact .of_lt _ hop (by decide) hpos
  · exact .of_lt _ hop (by decide) (lt_of_not_ge hend)

theorem executeFlashFSM_inRange (hstate : InRange state) :
    InRange (executeFlashFSM device state) := by
  have houtcome := executeFlashFSM_outcome device state
  generalize executeFlashFSM device state = after at houtcome ⊢
  cases houtcome with
  | rest => exact hstate
  | startErase hop _ =>
    obtain ⟨haddr, hsize⟩ := hstate.pending hop
    exact .of_lt .eraseInProgress rfl (by decide) (by rwa [haddr])
  | startRead hop _ =>
    obtain ⟨haddr, hsize⟩ := hstate.pending hop
    exact .of_lt .readInProgress rfl (by decide) (by rwa [haddr])
  | busyErase hop _ => exact .of_lt _ hop (by decide) (hstate.below (.inl hop))
  | busy hop _ =>
    obtain hop | hop | hop := hop
    · exact .of_le _ hop (.inl rfl) (hstate.within (.inl hop))
    · exact .of_le _ hop (.inr rfl) (hstate.within (.inr hop))
    · exact .of_lt _ hop (by decide) (hstate.below (.inr hop))
  | erase hop _ => exact executeErase_inRange hop (hstate.below (.inl hop))
  | write hop _ =>
    unfold executeWrite
    split_ifs with hend hdiffers
    · exact .of_le .verifyInProgress rfl (.inr rfl) (Nat.zero_le _)
    · exact .of_le _ hop (.inl rfl) (lt_of_not_ge hend)
    · exact .of_le _ hop (.inl rfl) (lt_of_not_ge hend)
  | verify hop _ =>
    unfold executeVerify
    split_ifs with hend hequal
    · exact .of_over (.inl rfl)
    · exact .of_le _ hop (.inr rfl) (lt_of_not_ge hend)
    · exact .of_over (.inr rfl)
  | read hop _ => exact executeRead_inRange hop (hstate.below (.inr hop))

section

variable {hardware : Hardware} {md5 : Digest 16}

theorem Reachable.inRange (hdevice : LookedUp device)
    (hreachable : Reachable device hardware md5 state) : InRange state := by
  have hfree (after : FlashState σ) (hop : after.currentFlashOp = .idle)
      (haddr : after.currentAddr = 0) (hsize : after.biosBufferSize = 0) : InRange after :=
    ⟨fun _ ↦ ⟨haddr, hsize⟩, fun hpending ↦ by simp [hop] at hpending,
      fun hbelow ↦ by simp [hop] at hbelow, fun hwithin ↦ by simp [hop] at hwithin⟩
  induction hreachable with
  | init state => exact hfree _ rfl rfl rfl
  | @call before hbefore call ih =>
    rcases call.perform_cases before with rfl | ⟨bank, rfl⟩ | houtcome
    · exact executeFlashFSM_inRange ih
    · exact ⟨ih.idle, ih.pending, ih.below, ih.within⟩
    · generalize call.perform device hardware md5 before = after at houtcome ⊢
      cases houtcome with
      | freed hop haddr hsize => exact hfree _ hop haddr hsize
      | refused hidle hop haddr hsize =>
        obtain ⟨hzero, hempty⟩ := ih.idle hidle
        exact hfree _ hop (haddr.trans hzero) (hsize.trans hempty)
      | ended hop => exact .of_over hop
      | start hidle hop haddr hsize =>
        have hpos : 0 < after.biosBufferSize := by
          rcases hsize with hpos | ⟨known, hanswer, hlength⟩
          · exact hpos
          · rw [hlength]
            have hbounds := hdevice.length_bounds hanswer
            omega
        exact ⟨fun hidle' ↦ by simp [hop] at hidle',
          fun _ ↦ ⟨haddr.trans (ih.idle hidle).1, hpos⟩,
          fun hbelow ↦ by simp [hop] at hbelow, fun hwithin ↦ by simp [hop] at hwithin⟩
      | keep _ _ _ => exact ⟨ih.idle, ih.pending, ih.below, ih.within⟩

/-! ### The accesses of the requests -/

/-- The settings of an update end inside its image. -/
theorem lt_of_mem_updateIndices {written : FlashErrorcodes × FlashState σ} {index : ℕ}
    (hindex : index ∈ updateIndices written) : index < written.2.biosBufferSize := by
  obtain ⟨-, ⟨hsize, -, hend⟩ | ⟨hoffset, -, hend⟩⟩ := hindex
  · omega
  · by_cases hsize : written.2.biosBufferSize = 256 * 1024
    · rw [hsize] at hend ⊢
      rcases startingOffset_cases (getBiosIdentifierFromBuffer written.2.biosBuffer (256 * 1024))
        with hfloor | hsmall
      · rw [hfloor] at hend
        omega
      · rw [Nat.mod_eq_of_lt (by omega)] at hend
        omega
    · rw [getBiosIdentifierFromBuffer, if_neg fun hboth ↦ hsize hboth.1] at hoffset
      exact absurd (by decide) hoffset

theorem xblastOSBankFlash_biosBufferSize {inBuf : Bytes} {size offset : ℕ}
    {overrideChecks : Bool}
    (hvalid : (checkOSImage md5 inBuf size overrideChecks state).flashErrorCode = .noError) :
    (xblastOSBankFlash device md5 inBuf size offset overrideChecks state).biosBufferSize =
      (writeBios device inBuf size offset .osBank
        (checkOSImage md5 inBuf size overrideChecks state)).2.biosBufferSize := by
  rw [xblastOSBankFlash]
  simp only [if_pos hvalid]
  split_ifs with haccepted
  · obtain ⟨settings, buffer, hinject⟩ := injectSettingsInBuf_eq _ _
    rw [hinject]
  · rfl

theorem readXBlastOSSettingsRequest_biosBufferSize (hidle : state.currentFlashOp = .idle)
    (hop : (readXBlastOSSettingsRequest device hardware state).currentFlashOp = .completed) :
    (readXBlastOSSettingsRequest device hardware state).biosBufferSize = 3840 := by
  rw [readXBlastOSSettingsRequest, if_pos hidle] at hop ⊢
  split at hop
  simp only at hop ⊢
  split_ifs at hop ⊢ with hfound hoffset
  rfl

/-- The requests use the buffer below the size that they set. -/
theorem FlashCall.lt_bufferSize {call : FlashCall} (hstep : call ≠ .executeFlashFSM) {index : ℕ}
    (hindex : index ∈ call.indices device hardware md5 state) :
    index < call.bufferSize device hardware md5 state := by
  cases call with
  | executeFlashFSM => exact absurd rfl hstep
  | xblastUserBankFlash inBuf size offset bank => exact hindex.2
  | xblastOSBankFlash inBuf size offset overrideChecks =>
    obtain ⟨hvalid, hwritten | hupdate⟩ := hindex
    · exact Nat.lt_of_lt_of_eq hwritten.2 (xblastOSBankFlash_biosBufferSize hvalid).symm
    · exact Nat.lt_of_lt_of_eq (lt_of_mem_updateIndices hupdate)
        (xblastOSBankFlash_biosBufferSize hvalid).symm
  | readXBlastOSSettingsRequest =>
    obtain ⟨rfl, hidle, hop⟩ := hindex
    exact Nat.lt_of_lt_of_eq (Nat.succ_pos 3839)
      (readXBlastOSSettingsRequest_biosBufferSize hidle hop).symm
  | _ => exact absurd hindex (Set.notMem_empty index)

/-! ### The exact condition -/

theorem last_mem_stepIndices (hends : EndsReadBack device state)
    (hoffset : readBackOffset device state ≠ 0) :
    readBackOffset device state % state.biosBufferSize + 3839 ∈ stepIndices device state :=
  .inr ⟨hends, hoffset, Nat.le_add_right _ _, Nat.lt_succ_self _⟩

theorem InRange.address_bounds (hrange : InRange state) (hbyte : state.AtByte) :
    state.currentAddr < state.biosBufferSize := by
  rcases hbyte with herase | hread | ⟨-, hinside⟩
  · exact hrange.below (.inl herase)
  · exact hrange.below (.inr hread)
  · exact hinside

/-- In every state that the calls reach, the machine and its next call keep to their bounds unless
the call ends the read phase of a settings save and the settings do not end in the range that was
read. -/
theorem indicesInRange_iff (hdevice : LookedUp device)
    (hreachable : Reachable device hardware md5 state) (call : FlashCall) :
    IndicesInRange device hardware md5 call state ↔
      (call = .executeFlashFSM → EndsReadBack device state → readBackOffset device state ≠ 0 →
        readBackOffset device state % state.biosBufferSize + 3840 ≤ state.biosBufferSize) := by
  have hrange := hreachable.inRange hdevice
  constructor
  · rintro hinside rfl hends hoffset
    exact hinside.buffer _ (last_mem_stepIndices hends hoffset)
  · intro hfits
    refine ⟨hrange.idle, hrange.below, hrange.within, fun index hindex ↦ ?_,
      fun address haddress ↦ ?_⟩
    · by_cases hstep : call = .executeFlashFSM
      · subst hstep
        rcases hindex with ⟨-, hbyte, rfl⟩ | ⟨hends, hoffset, -, hend⟩
        · exact hrange.address_bounds hbyte
        · exact lt_of_lt_of_le hend (hfits rfl hends hoffset)
      · exact call.lt_bufferSize hstep hindex
    · cases call with
      | executeFlashFSM =>
        rcases haddress with ⟨-, hbyte, rfl⟩ | ⟨-, hidentifier⟩
        · have hbelow := hrange.address_bounds hbyte
          exact .inl ⟨Nat.le_add_right _ _, Nat.add_lt_add_left hbelow _⟩
        · exact .inr hidentifier
      | readXBlastOSSettingsRequest | saveXBlastOSSettings => exact .inr haddress.2
      | _ => exact absurd haddress (Set.notMem_empty address)

end

/-! ### Two saves -/

section

variable (flashType : KnownFlashType) (supports : EraseSequenceMethod → Bool)
  (reading : FlashState Bytes)

theorem quietChip_read (hop : reading.currentFlashOp = .readInProgress)
    (hmore : reading.currentAddr + 1 < reading.biosBufferSize) :
    executeFlashFSM (quietChip flashType supports) reading =
      storeCurrent (quietChip flashType supports) reading := by
  rw [executeFlashFSM_read hop]
  exact if_neg (not_le.mpr hmore)

/-- The calls of the read phase on a chip that is never busy. -/
theorem quietChip_reads (hop : reading.currentFlashOp = .readInProgress) (calls : ℕ)
    (hcalls : reading.currentAddr + calls < reading.biosBufferSize) :
    ∃ buffer, (executeFlashFSM (quietChip flashType supports))^[calls] reading =
      { reading with biosBuffer := buffer, currentAddr := reading.currentAddr + calls } := by
  induction calls with
  | zero => exact ⟨reading.biosBuffer, rfl⟩
  | succ calls ih =>
    obtain ⟨buffer, hbefore⟩ := ih (by omega)
    rw [Function.iterate_succ_apply', hbefore]
    exact ⟨_, quietChip_read flashType supports
      { reading with biosBuffer := buffer, currentAddr := _ } hop hcalls⟩

end

/-- A settings save on a chip with sectors of 4KB after some calls of its read phase. -/
def readBack (cells : Bytes) (calls : ℕ) : FlashState Bytes :=
  (executeFlashFSM workingChip)^[calls]
    (executeFlashFSM workingChip
      (saveXBlastOSSettings workingChip plainHardware
        (flashInit workingChip
          (bootState (populateSettingsStructWithDefault plainHardware) cells))))

theorem readBack_reachable (cells : Bytes) (calls : ℕ) :
    Reachable workingChip plainHardware (fun _ _ ↦ 0)
      (readBack cells calls) := by
  have hstart : Reachable workingChip plainHardware
    (fun _ _ ↦ 0) (flashInit _ (bootState
      (populateSettingsStructWithDefault plainHardware) cells)) := .init _
  exact ((hstart.call .saveXBlastOSSettings).call .executeFlashFSM).iterate calls

/-- The last call of the read phase. -/
theorem readBack_ends {cells : Bytes} {calls : ℕ} (hcalls : calls + 1 = 4096)
    (hoffset : getXBlastOSSettingStartingOffset (.ofImage cells) ≠ 0) :
    EndsReadBack workingChip (readBack cells calls) ∧
      (readBack cells calls).biosBufferSize = 4096 ∧
      readBackOffset workingChip (readBack cells calls) =
        getXBlastOSSettingStartingOffset (.ofImage cells) := by
  let device := workingChip
  let hardware : Hardware := plainHardware
  let start := flashInit device (bootState (populateSettingsStructWithDefault hardware) cells)
  let pending := pendingSave device start ⟨0x80000, true⟩
    (getXBlastOSSettingStartingOffset (.ofImage cells))
  have hsave : saveXBlastOSSettings device hardware start = pending := if_pos hoffset
  have hfirst : executeFlashFSM device (saveXBlastOSSettings device hardware start) =
      { pending with currentFlashOp := .readInProgress } := by
    rw [hsave]
    exact executeFlashFSM_pending rfl rfl
  obtain ⟨buffer, hreads⟩ := quietChip_reads ⟨0x80000, true⟩ (fun _ ↦ true)
    { pending with currentFlashOp := .readInProgress } rfl calls
    (show 0 + calls < 4096 by omega)
  have hlast : readBack cells calls = _ := (congrArg _ hfirst).trans hreads
  rw [hlast]
  exact ⟨⟨rfl, rfl, rfl, show 4096 ≤ 0 + calls + 1 by omega⟩, rfl, rfl⟩

/-- Settings at 192KB, at the start of a sector. -/
theorem indicesInRange_floorImage :
    IndicesInRange workingChip plainHardware
      (fun _ _ ↦ 0) .executeFlashFSM (readBack floorImage 4095) := by
  refine (indicesInRange_iff quietChip_lookedUp (readBack_reachable floorImage 4095) _).mpr ?_
  intro _ _ hne
  have hoffset := floorImage_savesAtFloor.startingOffset
  have hzero : getXBlastOSSettingStartingOffset (.ofImage floorImage) ≠ 0 := by
    rw [hoffset]
    decide
  obtain ⟨-, hsize, hread⟩ := readBack_ends rfl hzero
  rw [hread, hsize, hoffset]
  decide

/-- An image of 0x30FA1 bytes that saves its settings. The next multiple of 4KB is 0x31000, but the
offset is the remainder 0xFA0. -/
def unalignedImage (address : ℕ) : UInt8 :=
  if address = 0x3FFCC then 0xA1
  else if address = 0x3FFCD then 0x0F
  else if address = 0x3FFCE then 0x03
  else floorImage address

theorem unalignedImage_startingOffset :
    getXBlastOSSettingStartingOffset (.ofImage unalignedImage) = 0xFA0 := by
  decide

/-- The settings are put at 0xFA0 into a range of 4KB and end behind it. -/
theorem indicesOutOfRange_unalignedImage :
    Reachable workingChip plainHardware (fun _ _ ↦ 0)
        (readBack unalignedImage 4095) ∧
      (readBack unalignedImage 4095).biosBufferSize = 4096 ∧
      0xFA0 + 3839 ∈
        stepIndices workingChip (readBack unalignedImage 4095) ∧
      ¬ IndicesInRange workingChip plainHardware
        (fun _ _ ↦ 0) .executeFlashFSM (readBack unalignedImage 4095) := by
  have hzero : getXBlastOSSettingStartingOffset (.ofImage unalignedImage) ≠ 0 := by
    rw [unalignedImage_startingOffset]
    decide
  obtain ⟨hends, hsize, hread⟩ := readBack_ends rfl hzero
  have hlast := last_mem_stepIndices hends (by rwa [hread])
  rw [hread, hsize, unalignedImage_startingOffset, Nat.mod_eq_of_lt (by decide)] at hlast
  refine ⟨readBack_reachable unalignedImage 4095, hsize, hlast, fun hinside ↦ ?_⟩
  have hbelow := hinside.buffer _ hlast
  rw [FlashCall.bufferSize, hsize] at hbelow
  exact absurd hbelow (by decide)

end XBlast.Flash
