import XBlast.Flash.Step

/-!
# The calls of the program

The calls that the rest of the program makes are collected in `FlashCall`. A call other than that
of the state machine frees it, starts a job, ends in a state without one, or leaves the variables
of the machine as they are (`FlashCall.perform_cases`). Every state that the calls reach from
`flashInit` has its address reset when it is idle.
-/

set_option autoImplicit false
set_option relaxedAutoImplicit false

namespace XBlast.Flash

open Foundation

variable {σ : Type*} {device : FlashLowLevel σ} {state : FlashState σ}

/-! ### The calls of the program -/

/-- The calls that the rest of the program makes, with the edits of the two settings structures
and the bank switches that happen between them. -/
inductive FlashCall where
  | executeFlashFSM
  | freeFlashFSM
  | forceUserAbort
  | readDeviceInfo
  | readBIOSBank (bank : FlashBank)
  | xblastOSBankFlash (inBuf : Bytes) (size offset : ℕ) (overrideChecks : Bool)
  | xblastUserBankFlash (inBuf : Bytes) (size offset : ℕ) (bank : FlashBank)
  | readXBlastOSSettingsRequest
  | saveXBlastOSSettings
  | editSettings (settings origFromFlash : LPCmodSettings)
  | switchOSBank (bank : FlashBank)

variable (device) (hardware : Hardware) (md5 : Digest 16)

def FlashCall.perform : FlashCall → FlashState σ → FlashState σ
  | .executeFlashFSM, state => Flash.executeFlashFSM device state
  | .freeFlashFSM, state => Flash.freeFlashFSM device state
  | .forceUserAbort, state => Flash.forceUserAbort state
  | .readDeviceInfo, state => (Flash.readDeviceInfo device state).2
  | .readBIOSBank bank, state => Flash.readBIOSBank device bank state
  | .xblastOSBankFlash inBuf size offset overrideChecks, state =>
    Flash.xblastOSBankFlash device md5 inBuf size offset overrideChecks state
  | .xblastUserBankFlash inBuf size offset bank, state =>
    Flash.xblastUserBankFlash device inBuf size offset bank state
  | .readXBlastOSSettingsRequest, state =>
    Flash.readXBlastOSSettingsRequest device hardware state
  | .saveXBlastOSSettings, state => Flash.saveXBlastOSSettings device hardware state
  | .editSettings settings origFromFlash, state =>
    { state with lpcmodSettings := settings, lpcmodSettingsOrigFromFlash := origFromFlash }
  | .switchOSBank bank, state => { state with chip := device.switchOSBank bank state.chip }

/-- The states that the program can reach once the driver is initialised. -/
inductive Reachable : FlashState σ → Prop
  | init (state : FlashState σ) : Reachable (flashInit device state)
  | call {state : FlashState σ} (hreachable : Reachable state) (call : FlashCall) :
      Reachable (call.perform device hardware md5 state)

variable {device hardware md5}

/-- No call of the state machine makes it idle. -/
theorem executeFlashFSM_ne_idle (hactive : state.currentFlashOp ≠ .idle) :
    (executeFlashFSM device state).currentFlashOp ≠ .idle := by
  have houtcome := executeFlashFSM_outcome device state
  generalize executeFlashFSM device state = after at houtcome ⊢
  cases houtcome with
  | rest | busyErase | busy => exact hactive
  | startErase | startRead => simp
  | erase hop _ =>
    intro hidle
    have hnext := executeErase_phase device (pollChip device state) hop
    simp [hidle] at hnext
  | write hop _ =>
    unfold executeWrite
    split_ifs <;> simp [pollChip, hop]
  | verify hop _ =>
    unfold executeVerify
    split_ifs <;> simp [pollChip, hop]
  | read hop _ =>
    intro hidle
    have hnext := executeRead_op device (pollChip device state) hop
    simp [hidle] at hnext

/-! ### The write request -/

/-- What a doubling of the filled part keeps holds after the loop. -/
theorem mirrorLoop_rec {targetSize : ℕ} {motive : Bytes → ℕ → Prop}
    (hdouble : ∀ buffer filled, motive buffer filled →
      motive (overlay buffer filled filled buffer) (filled + filled))
    (rounds : ℕ) {buffer : Bytes} {filled : ℕ} (hstart : motive buffer filled) :
    motive (mirrorLoop targetSize rounds buffer filled).1
      (mirrorLoop targetSize rounds buffer filled).2 := by
  induction rounds generalizing buffer filled with
  | zero => exact hstart
  | succ rounds ih =>
    unfold mirrorLoop
    split_ifs with hshort
    · exact ih (hdouble buffer filled hstart)
    · exact hstart

theorem checkImageSize_pos {flashType : KnownFlashType} {size : ℕ}
    (hvalid : checkImageSize flashType size = .noError) : 0 < size := by
  unfold checkImageSize at hvalid
  split_ifs at hvalid with hbounds hmultiple
  exact hbounds.1

/-- The state in which the write of an image is pending. -/
def pendingWrite (device : FlashLowLevel σ) (state : FlashState σ) (known : KnownFlashType)
    (buf : Bytes) (size offset : ℕ) (bank : FlashBank) : FlashState σ :=
  mirrorimage bank
    { state with
      flashType := known
      chip := (device.readDevice state.chip).2
      flashErrorCode := .noError
      eraseSequenceMethod := .sector
      eraseBusyCount := 0
      firstEraseTry := true
      currentFlashOp := .pendingOp
      currentFlashTask := .writeBios
      biosBufferSize := size
      startingOffset := offset
      biosBuffer := overlay state.biosBuffer 0 size buf }

/-- No chip answers, or the chip cannot take an image of this size. -/
def RefusesImage (device : FlashLowLevel σ) (size : ℕ) (state : FlashState σ) : Prop :=
  (readDevice device state).1 = false ∨
    checkImageSize (readDevice device state).2.flashType size ≠ .noError

theorem not_refusesImage {size : ℕ} {known : KnownFlashType}
    (hanswer : (device.readDevice state.chip).1 = some known)
    (hvalid : checkImageSize known size = .noError) : ¬ RefusesImage device size state := by
  rw [RefusesImage, readDevice_of_some hanswer]
  simp [hvalid]

theorem writeBios_busy (device : FlashLowLevel σ) (buf : Bytes) (size offset : ℕ)
    (bank : FlashBank) (hbusy : state.currentFlashOp ≠ .idle) :
    writeBios device buf size offset bank state = (.undefinedError, state) :=
  if_neg hbusy

theorem writeBios_eq (buf : Bytes) {size : ℕ} (offset : ℕ) (bank : FlashBank)
    (hidle : state.currentFlashOp = .idle) {known : KnownFlashType}
    (hanswer : (device.readDevice state.chip).1 = some known)
    (hvalid : checkImageSize known size = .noError) :
    writeBios device buf size offset bank state =
      (.noError, pendingWrite device state known buf size offset bank) := by
  rw [writeBios, if_pos hidle, readDevice_of_some hanswer]
  simp only [hvalid, if_true]
  rfl

/-- A write request on an idle machine makes the write of an accepted image pending, or fails and
leaves the machine idle. -/
theorem writeBios_cases (buf : Bytes) (size offset : ℕ) (bank : FlashBank)
    (hidle : state.currentFlashOp = .idle) :
    (∃ known, (device.readDevice state.chip).1 = some known ∧
      checkImageSize known size = .noError ∧
      writeBios device buf size offset bank state =
        (.noError, pendingWrite device state known buf size offset bank)) ∨
    (RefusesImage device size state ∧ ∃ code flashType chip stored, code ≠ .noError ∧
      writeBios device buf size offset bank state =
        (code, { state with flashType := flashType, chip := chip, flashErrorCode := stored })) := by
  cases hanswer : (device.readDevice state.chip).1 with
  | none =>
    have hread := readDevice_of_none hanswer
    refine .inr ⟨.inl (by rw [hread]), .undefinedError, state.flashType,
      (device.readDevice state.chip).2, state.flashErrorCode, by decide, ?_⟩
    rw [writeBios, if_pos hidle, hread]
  | some known =>
    have hread := readDevice_of_some hanswer
    by_cases hvalid : checkImageSize known size = .noError
    · exact .inl ⟨known, rfl, hvalid, writeBios_eq buf offset bank hidle hanswer hvalid⟩
    · refine .inr ⟨.inr (by rwa [hread]), checkImageSize known size, known,
        (device.readDevice state.chip).2, checkImageSize known size, hvalid, ?_⟩
      rw [writeBios, if_pos hidle, hread]
      simp only [if_neg hvalid]

/-! ### What the requests do -/

/-- What a call other than that of the state machine does to its variables: it frees the machine,
refuses a request on an idle machine, ends in a state without a job, starts a job, or leaves the
machine as it is. -/
inductive RequestOutcome (device : FlashLowLevel σ) (before : FlashState σ) :
    FlashState σ → Prop
  | freed {after : FlashState σ} (hop : after.currentFlashOp = .idle)
      (haddr : after.currentAddr = 0) (hsize : after.biosBufferSize = 0) :
      RequestOutcome device before after
  | refused {after : FlashState σ} (hidle : before.currentFlashOp = .idle)
      (hop : after.currentFlashOp = .idle) (haddr : after.currentAddr = before.currentAddr)
      (hsize : after.biosBufferSize = before.biosBufferSize) : RequestOutcome device before after
  | ended {after : FlashState σ} (hop : after.Ended) : RequestOutcome device before after
  | start {after : FlashState σ} (hidle : before.currentFlashOp = .idle)
      (hop : after.currentFlashOp = .pendingOp) (haddr : after.currentAddr = before.currentAddr)
      (hsize : 0 < after.biosBufferSize ∨ ∃ known, (device.readDevice before.chip).1 = some known ∧
        after.biosBufferSize = known.lengthInBytes) : RequestOutcome device before after
  | keep (code : FlashErrorcodes) (settings origFromFlash : LPCmodSettings) :
      RequestOutcome device before
        { before with
          flashErrorCode := code
          lpcmodSettings := settings
          lpcmodSettingsOrigFromFlash := origFromFlash }

theorem readBIOSBank_outcome (bank : FlashBank) (state : FlashState σ) :
    RequestOutcome device state (readBIOSBank device bank state) := by
  by_cases hidle : state.currentFlashOp = .idle
  · rw [readBIOSBank, if_pos hidle, readDevice]
    rcases hanswer : device.readDevice state.chip with ⟨_ | known, chip⟩
    · exact .refused hidle hidle rfl rfl
    · refine .start hidle rfl rfl ?_
      cases bank with
      | fullTSOPBank | noBank => exact .inr ⟨known, by rw [hanswer], rfl⟩
      | _ => exact .inl (Nat.succ_pos _)
  · rw [readBIOSBank, if_neg hidle]
    exact .keep state.flashErrorCode state.lpcmodSettings state.lpcmodSettingsOrigFromFlash

theorem writeBios_outcome (buf : Bytes) (size offset : ℕ) (bank : FlashBank)
    (hidle : state.currentFlashOp = .idle) :
    RequestOutcome device state (writeBios device buf size offset bank state).2 := by
  rcases writeBios_cases buf size offset bank hidle with
    ⟨known, _, hvalid, hwrite⟩ | ⟨_, _, _, _, _, _, hwrite⟩
  · have hsize : 0 < (pendingWrite device state known buf size offset bank).biosBufferSize :=
      @mirrorLoop_rec _ (fun _ filled ↦ 0 < filled)
        (fun _ filled hpos ↦ Nat.add_pos_left hpos filled) _ _ size (checkImageSize_pos hvalid)
    rw [hwrite]
    exact .start hidle rfl rfl (.inl hsize)
  · rw [hwrite]
    exact .refused hidle hidle rfl rfl

/-- Error codes before and after, and the settings put into the buffer, are no part of an outcome
that a request on an idle machine has. -/
theorem RequestOutcome.inject {before : FlashErrorcodes} {after : FlashState σ}
    (hidle : state.currentFlashOp = .idle)
    (houtcome : RequestOutcome device { state with flashErrorCode := before } after)
    (code : FlashErrorcodes) (settings : LPCmodSettings) (buffer : Bytes) :
    RequestOutcome device state
      { after with flashErrorCode := code, lpcmodSettings := settings, biosBuffer := buffer } := by
  cases houtcome with
  | freed hop haddr hsize => exact .freed hop haddr hsize
  | refused _ hop haddr hsize => exact .refused hidle hop haddr hsize
  | ended hop => exact .ended hop
  | start _ hop haddr hsize => exact .start hidle hop haddr hsize
  | keep _ _ _ => exact .refused hidle hidle rfl rfl

variable (inBuf : Bytes)

variable (size offset : ℕ)

theorem xblastUserBankFlash_outcome (bank : FlashBank) (state : FlashState σ) :
    RequestOutcome device state (xblastUserBankFlash device inBuf size offset bank state) := by
  by_cases hidle : state.currentFlashOp = .idle
  · exact (writeBios_outcome inBuf size offset bank hidle).inject hidle _ _ _
  · rw [xblastUserBankFlash, writeBios_busy device inBuf size offset bank hidle]
    exact .keep .undefinedError state.lpcmodSettings state.lpcmodSettingsOrigFromFlash

theorem checkOSImage_eq (size : ℕ) (overrideChecks : Bool) (state : FlashState σ) :
    checkOSImage md5 inBuf size overrideChecks state =
      { state with
        flashErrorCode := (checkOSImage md5 inBuf size overrideChecks state).flashErrorCode } := by
  unfold checkOSImage
  split_ifs <;> rfl

/-- An update leaves a machine that has a job its phase and task, and an error code. -/
theorem xblastOSBankFlash_busy (overrideChecks : Bool) (hbusy : state.currentFlashOp ≠ .idle) :
    xblastOSBankFlash device md5 inBuf size offset overrideChecks state =
      { state with
        flashErrorCode :=
          if (checkOSImage md5 inBuf size overrideChecks state).flashErrorCode = .noError then
            .undefinedError
          else (checkOSImage md5 inBuf size overrideChecks state).flashErrorCode } := by
  have hchecked : checkOSImage md5 inBuf size overrideChecks state = _ :=
    checkOSImage_eq inBuf size overrideChecks state
  unfold xblastOSBankFlash
  generalize (checkOSImage md5 inBuf size overrideChecks state).flashErrorCode = code at hchecked
  rw [hchecked]
  have hwrite : writeBios device inBuf size offset .osBank
      { state with flashErrorCode := code } =
        (.undefinedError, { state with flashErrorCode := code }) :=
    writeBios_busy device inBuf size offset .osBank hbusy
  by_cases hcode : code = .noError
  · simp only [if_pos hcode, hwrite]
    rfl
  · simp only [if_neg hcode]

theorem xblastOSBankFlash_outcome (overrideChecks : Bool) (state : FlashState σ) :
    RequestOutcome device state
      (xblastOSBankFlash device md5 inBuf size offset overrideChecks state) := by
  by_cases hidle : state.currentFlashOp = .idle
  · rw [xblastOSBankFlash, checkOSImage_eq]
    generalize (checkOSImage md5 inBuf size overrideChecks state).flashErrorCode = code
    have houtcome : RequestOutcome device { state with flashErrorCode := code } _ :=
      writeBios_outcome inBuf size offset .osBank hidle
    simp only
    split_ifs with hvalid haccepted
    · obtain ⟨settings, buffer, hinject⟩ := injectSettingsInBuf_eq _ _
      rw [hinject]
      exact houtcome.inject hidle _ settings buffer
    · exact houtcome.inject hidle _ _ _
    · exact .refused hidle hidle rfl rfl
  · rw [xblastOSBankFlash_busy inBuf size offset overrideChecks hidle]
    exact .keep _ _ _

theorem readXBlastOSSettingsRequest_outcome (state : FlashState σ) :
    RequestOutcome device state (readXBlastOSSettingsRequest device hardware state) := by
  by_cases hidle : state.currentFlashOp = .idle
  · obtain ⟨flashType, hread⟩ := readDevice_eq device state
    rw [readXBlastOSSettingsRequest, if_pos hidle, hread]
    simp only
    split_ifs with hfound hoffset
    · exact .ended (.inl rfl)
    · exact .start hidle rfl rfl (.inl (Nat.succ_pos 3839))
    · exact .ended (.inr rfl)
  · rw [readXBlastOSSettingsRequest, if_neg hidle]
    exact .keep _ _ _

theorem getEraseMethodSize_pos (flashType : KnownFlashType) (method : EraseSequenceMethod) :
    0 < getEraseMethodSize flashType method := by
  unfold getEraseMethodSize
  cases method <;> split_ifs <;> decide

theorem saveXBlastOSSettings_outcome (state : FlashState σ) :
    RequestOutcome device state (saveXBlastOSSettings device hardware state) := by
  by_cases hidle : state.currentFlashOp = .idle
  · rw [saveXBlastOSSettings, if_pos hidle, readDevice]
    rcases device.readDevice state.chip with ⟨_ | known, chip⟩
    · exact .ended (.inr rfl)
    · simp only
      split_ifs with hoffset
      · exact .start hidle rfl rfl (.inl (getEraseMethodSize_pos known .sector))
      · exact .ended (.inr rfl)
  · rw [saveXBlastOSSettings, if_neg hidle]
    exact .keep _ _ _

/-- Every call is one of the state machine, a switch of the bank, or a request. -/
theorem FlashCall.perform_cases (call : FlashCall) (state : FlashState σ) :
    call = .executeFlashFSM ∨ (∃ bank, call = .switchOSBank bank) ∨
      RequestOutcome device state (call.perform device hardware md5 state) := by
  cases call with
  | executeFlashFSM => exact .inl rfl
  | switchOSBank bank => exact .inr (.inl ⟨bank, rfl⟩)
  | freeFlashFSM => exact .inr (.inr (.freed rfl rfl rfl))
  | forceUserAbort => exact .inr (.inr (.ended (.inr rfl)))
  | readDeviceInfo =>
    right; right
    rw [FlashCall.perform, Flash.readDeviceInfo]
    split_ifs
    · exact .freed rfl rfl rfl
    · exact .freed rfl rfl rfl
  | readBIOSBank bank => exact .inr (.inr (readBIOSBank_outcome bank state))
  | xblastOSBankFlash inBuf size offset overrideChecks =>
    exact .inr (.inr (xblastOSBankFlash_outcome inBuf size offset overrideChecks state))
  | xblastUserBankFlash inBuf size offset bank =>
    exact .inr (.inr (xblastUserBankFlash_outcome inBuf size offset bank state))
  | readXBlastOSSettingsRequest => exact .inr (.inr (readXBlastOSSettingsRequest_outcome state))
  | saveXBlastOSSettings => exact .inr (.inr (saveXBlastOSSettings_outcome state))
  | editSettings settings origFromFlash => exact .inr (.inr (.keep _ settings origFromFlash))

theorem Reachable.iterate (hreachable : Reachable device hardware md5 state) (calls : ℕ) :
    Reachable device hardware md5 ((executeFlashFSM device)^[calls] state) :=
  Function.Iterate.rec (Reachable device hardware md5) hreachable
    (fun _ hbefore ↦ hbefore.call .executeFlashFSM) calls

/-- In every state that the program reaches, an idle machine has its address reset. -/
theorem Reachable.idle_currentAddr (hreachable : Reachable device hardware md5 state)
    (hidle : state.currentFlashOp = .idle) : state.currentAddr = 0 := by
  induction hreachable with
  | init state => rfl
  | @call before hbefore call ih =>
    rcases call.perform_cases before with rfl | ⟨bank, rfl⟩ | houtcome
    · have hop : before.currentFlashOp = .idle :=
        Decidable.of_not_not fun hactive ↦ executeFlashFSM_ne_idle hactive hidle
      rw [FlashCall.perform, executeFlashFSM_idle hop]
      exact ih hop
    · exact ih hidle
    · generalize call.perform device hardware md5 before = after at hidle houtcome
      cases houtcome with
      | freed _ haddr _ => exact haddr
      | refused hop _ haddr _ => exact haddr.trans (ih hop)
      | ended hop | start _ hop => simp [FlashState.Ended, hidle] at hop
      | keep _ _ _ => exact ih hidle

end XBlast.Flash
