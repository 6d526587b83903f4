import XBlast.Flash.FlashUi

/-!
# The states of a flash job

A job is followed through the phase of the machine, its task and its error code. As long as no
request is refused, these agree in every state: an idle machine has no error, and one in the error
phase has an error and a task that the interface frees. A refused request breaks this at once. A
refused image leaves an error code on an idle machine, a refused read of the settings an error
phase without a code, and a refused save an error phase without a task, which no call of the
interface ends.
-/

set_option autoImplicit false
set_option relaxedAutoImplicit false

namespace XBlast.Flash

open Foundation FlashUi

variable {σ : Type*} {device : FlashLowLevel σ} {hardware : Hardware}
  {md5 : Digest 16} {state : FlashState σ}

/-! ### Phases, tasks and error codes -/

/-- The tasks that a phase belongs to. -/
def phaseTask : FlashOp → FlashTask → Bool
  | .idle, task => task = .noTask
  | .pendingOp, task => task ≠ .noTask
  | .eraseInProgress, task => task = .writeBios ∨ task = .writeSettings
  | .writeInProgress, task => task = .writeBios ∨ task = .writeSettings
  | .verifyInProgress, task => task = .writeBios ∨ task = .writeSettings
  | .readInProgress, task => task = .readBios ∨ task = .readSettings ∨ task = .writeSettings
  | .completed, _ => true
  | .error, task => task = .writeBios ∨ task = .writeSettings

/-- The phase, the task and the error code of a machine agree. -/
structure Orderly (state : FlashState σ) : Prop where
  task : phaseTask state.currentFlashOp state.currentFlashTask = true
  idle : state.currentFlashOp = .idle → state.flashErrorCode = .noError
  error : state.currentFlashOp = .error → state.flashErrorCode ≠ .noError

theorem orderly_freeFlashFSM (device : FlashLowLevel σ) (state : FlashState σ) :
    Orderly (freeFlashFSM device state) :=
  ⟨rfl, fun _ ↦ rfl, fun hop ↦ absurd hop FlashOp.noConfusion⟩

theorem orderly_forceUserAbort (state : FlashState σ) : Orderly (forceUserAbort state) :=
  ⟨rfl, fun hop ↦ absurd hop FlashOp.noConfusion, fun _ ↦ FlashErrorcodes.noConfusion⟩

/-- A phase of a job, in which the code may be any. -/
theorem Orderly.of_phase (op : FlashOp) (hop : state.currentFlashOp = op)
    (htask : phaseTask op state.currentFlashTask = true)
    (hphase : op ≠ .idle ∧ op ≠ .error) : Orderly state :=
  ⟨by rw [hop, htask], fun hop' ↦ absurd (hop.symm.trans hop') hphase.1,
    fun hop' ↦ absurd (hop.symm.trans hop') hphase.2⟩

theorem executeFlashFSM_orderly (horderly : Orderly state) :
    Orderly (executeFlashFSM device state) := by
  have htask := horderly.task
  have hsame := executeFlashFSM_task device state
  have houtcome := executeFlashFSM_outcome device state
  generalize executeFlashFSM device state = after at houtcome hsame ⊢
  cases houtcome with
  | rest => exact horderly
  | startErase _ hkind =>
    exact .of_phase .eraseInProgress rfl (by simp [hkind, phaseTask]) (by decide)
  | startRead _ hkind =>
    refine .of_phase .readInProgress rfl ?_ (by decide)
    simpa [phaseTask, or_comm] using hkind
  | busyErase hop _ => exact .of_phase _ hop (hop ▸ htask) (by decide)
  | busy hop _ =>
    obtain hop | hop | hop := hop
    · exact .of_phase _ hop (hop ▸ htask) (by decide)
    · exact .of_phase _ hop (hop ▸ htask) (by decide)
    · exact .of_phase _ hop (hop ▸ htask) (by decide)
  | erase hop _ =>
    rw [hop, ← hsame] at htask
    obtain herase | ⟨hwrite, -⟩ | ⟨hread, hkind⟩ | ⟨herror, hcode⟩ :=
      executeErase_phase device (pollChip device state) hop
    · exact .of_phase _ herase htask (by decide)
    · exact .of_phase _ hwrite htask (by decide)
    · exact .of_phase _ hread (by rw [hsame.trans hkind]; rfl) (by decide)
    · exact ⟨by rw [herror]; exact htask, fun hidle ↦ by simp [herror] at hidle,
        fun _ ↦ by simp [hcode]⟩
  | write hop _ =>
    rw [hop] at htask
    unfold executeWrite
    split_ifs
    · exact .of_phase .verifyInProgress rfl htask (by decide)
    · exact .of_phase _ hop htask (by decide)
    · exact .of_phase _ hop htask (by decide)
  | verify hop _ =>
    rw [hop] at htask
    unfold executeVerify
    split_ifs
    · exact .of_phase .completed rfl rfl (by decide)
    · exact .of_phase _ hop htask (by decide)
    · exact ⟨htask, fun hidle ↦ absurd hidle (by simp), fun _ ↦ by simp⟩
  | read hop _ =>
    rw [hop, ← hsame] at htask
    obtain hread | hdone | ⟨herase, -, hkind⟩ := executeRead_op device (pollChip device state) hop
    · exact .of_phase _ hread htask (by decide)
    · exact .of_phase _ hdone rfl (by decide)
    · exact .of_phase _ herase (by rw [hsame.trans hkind]; rfl) (by decide)

/-! ### The interface -/

section

variable (device)

/-- A task whose jobs the interface ends. -/
theorem executeFlashDriverUI_frees (confirm : Bool)
    (htask : state.currentFlashTask = .writeBios ∨ state.currentFlashTask = .writeSettings)
    (hended : state.Ended) :
    ∃ success, executeFlashDriverUI device false confirm state =
      some (success, freeFlashFSM device state) := by
  rcases htask with htask | htask
  · simp only [executeFlashDriverUI, htask, if_pos hended]
    exact ⟨true, rfl⟩
  · simp only [executeFlashDriverUI, htask]
    split_ifs with hcompleted herror
    · exact ⟨true, rfl⟩
    · exact ⟨_, rfl⟩
    · exact absurd hended (not_or.mpr ⟨hcompleted, herror⟩)

/-- The interface leaves a machine alone or frees it. -/
theorem executeFlashDriverUI_cases (confirm : Bool) (state : FlashState σ) :
    ∃ success shown, executeFlashDriverUI device false confirm state = some (success, shown) ∧
      (shown = state ∨ shown = freeFlashFSM device state) := by
  by_cases hended : state.Ended
  · by_cases htask : state.currentFlashTask = .writeBios ∨ state.currentFlashTask = .writeSettings
    · obtain ⟨success, hshown⟩ := executeFlashDriverUI_frees device confirm htask hended
      exact ⟨success, _, hshown, .inr rfl⟩
    · obtain ⟨hbios, hsettings⟩ := not_or.mp htask
      refine ⟨true, state, ?_, .inl rfl⟩
      unfold executeFlashDriverUI
      split
      · rename_i hkind
        exact absurd hkind hbios
      · rename_i hkind
        exact absurd hkind hsettings
      · rfl
  · exact ⟨true, state, executeFlashDriverUI_open false confirm hended, .inl rfl⟩

/-! ### Requests that are refused -/

/-- A request to an idle machine that does not start its job. -/
def FlashCall.Refused (hardware : Hardware) (md5 : Digest 16) (call : FlashCall)
    (state : FlashState σ) : Prop :=
  state.currentFlashOp = .idle ∧
    match call with
    | .xblastOSBankFlash inBuf size _ overrideChecks =>
      (overrideChecks = false ∧ validateOSImage md5 inBuf size ≠ .noError) ∨
        RefusesImage device size state
    | .xblastUserBankFlash _ size _ _ => RefusesImage device size state
    | .readXBlastOSSettingsRequest =>
      (readDevice device state).1 = false ∧ hardware.isXecuter3 = false
    | .saveXBlastOSSettings =>
      (readDevice device state).1 = false ∨
        getXBlastOSSettingStartingOffset
          (getBiosIdentifierFromFlash device (readDevice device state).2.chip) = 0
    | _ => False

end

theorem writeBios_refused (buf : Bytes) {size : ℕ} (offset : ℕ) (bank : FlashBank)
    (hidle : state.currentFlashOp = .idle) (hrefuses : RefusesImage device size state) :
    (writeBios device buf size offset bank state).1 ≠ .noError ∧
      (writeBios device buf size offset bank state).2.currentFlashOp = .idle := by
  rcases writeBios_cases buf size offset bank hidle with
    ⟨known, hanswer, hvalid, _⟩ | ⟨_, _, _, _, _, hcode, hwrite⟩
  · exact absurd hrefuses (not_refusesImage hanswer hvalid)
  · rw [hwrite]
    exact ⟨hcode, hidle⟩

theorem writeBios_accepted (buf : Bytes) {size : ℕ} (offset : ℕ) (bank : FlashBank)
    (hidle : state.currentFlashOp = .idle) (haccepts : ¬ RefusesImage device size state) :
    (writeBios device buf size offset bank state).1 = .noError ∧
      (writeBios device buf size offset bank state).2.currentFlashOp = .pendingOp ∧
      (writeBios device buf size offset bank state).2.currentFlashTask = .writeBios := by
  rcases writeBios_cases buf size offset bank hidle with ⟨known, _, _, hwrite⟩ | ⟨hrefuses, _⟩
  · rw [hwrite]
    exact ⟨rfl, rfl, rfl⟩
  · exact absurd hrefuses haccepts

/-- A valid update leaves no trace in the error code of a machine without an error. -/
theorem checkOSImage_of_valid {inBuf : Bytes} {size : ℕ} {overrideChecks : Bool}
    (hcode : state.flashErrorCode = .noError)
    (hvalid : ¬ (overrideChecks = false ∧ validateOSImage md5 inBuf size ≠ .noError)) :
    checkOSImage md5 inBuf size overrideChecks state = state := by
  unfold checkOSImage
  split_ifs with hoverride
  · have himage : validateOSImage md5 inBuf size = .noError :=
      not_not.mp fun hne ↦ hvalid ⟨hoverride, hne⟩
    rw [himage, ← hcode]
  · rfl

variable (inBuf : Bytes) (size offset : ℕ) (overrideChecks : Bool)

theorem Orderly.congr {other : FlashState σ} (horderly : Orderly state)
    (hop : other.currentFlashOp = state.currentFlashOp)
    (htask : other.currentFlashTask = state.currentFlashTask)
    (hcode : other.flashErrorCode = state.flashErrorCode) : Orderly other := by
  constructor
  · rw [hop, htask, horderly.task]
  · rw [hop, hcode]
    exact horderly.idle
  · rw [hop, hcode]
    exact horderly.error

theorem Orderly.with_code {code : FlashErrorcodes} (horderly : Orderly state)
    (hbusy : state.currentFlashOp ≠ .idle) (hcode : code ≠ .noError) :
    Orderly { state with flashErrorCode := code } :=
  ⟨horderly.task, fun hidle ↦ absurd hidle hbusy, fun _ ↦ hcode⟩

/-- An update that is not refused starts, or the machine has a job already. -/
theorem Orderly.xblastOSBankFlash (horderly : Orderly state)
    (haccepted : ¬ (FlashCall.xblastOSBankFlash inBuf size offset overrideChecks).Refused device
      hardware md5 state) :
    Orderly (xblastOSBankFlash device md5 inBuf size offset overrideChecks state) := by
  by_cases hidle : state.currentFlashOp = .idle
  · obtain ⟨hvalid, haccepts⟩ := not_or.mp fun hrefused ↦ haccepted ⟨hidle, hrefused⟩
    have hchecked := checkOSImage_of_valid (horderly.idle hidle) hvalid
    obtain ⟨hcode, hop, htask⟩ := writeBios_accepted inBuf offset .osBank hidle haccepts
    simp only [Flash.xblastOSBankFlash, hchecked, if_pos (horderly.idle hidle), if_pos hcode]
    generalize getXBlastOSSettingStartingOffset _ = place
    obtain ⟨settings, buffer, hinject⟩ := injectSettingsInBuf_eq place
      { (writeBios device inBuf size offset .osBank state).2 with
        flashErrorCode := (writeBios device inBuf size offset .osBank state).1 }
    rw [hinject]
    exact .of_phase .pendingOp hop (by simp [htask, phaseTask]) (by decide)
  · rw [xblastOSBankFlash_busy inBuf size offset overrideChecks hidle]
    refine horderly.with_code hidle ?_
    split_ifs with hcode
    · decide
    · exact hcode

theorem Orderly.xblastUserBankFlash (bank : FlashBank) (horderly : Orderly state)
    (haccepted : ¬ (FlashCall.xblastUserBankFlash inBuf size offset bank).Refused device
      hardware md5 state) : Orderly (xblastUserBankFlash device inBuf size offset bank state) := by
  by_cases hidle : state.currentFlashOp = .idle
  · obtain ⟨hcode, hop, htask⟩ := writeBios_accepted inBuf offset bank hidle
      fun hrefuses ↦ haccepted ⟨hidle, hrefuses⟩
    exact .of_phase .pendingOp hop (by simp [Flash.xblastUserBankFlash, htask, phaseTask])
      (by decide)
  · rw [Flash.xblastUserBankFlash, writeBios_busy device inBuf size offset bank hidle]
    exact horderly.with_code hidle (by decide)

theorem Orderly.readBIOSBank (bank : FlashBank) (horderly : Orderly state) :
    Orderly (readBIOSBank device bank state) := by
  unfold Flash.readBIOSBank
  split_ifs
  · obtain ⟨flashType, hread⟩ := readDevice_eq device state
    rw [hread]
    cases (device.readDevice state.chip).1.isSome with
    | true => exact .of_phase .pendingOp rfl rfl (by decide)
    | false => exact horderly.congr rfl rfl rfl
  · exact horderly

theorem Orderly.readXBlastOSSettingsRequest (horderly : Orderly state)
    (haccepted : ¬ FlashCall.readXBlastOSSettingsRequest.Refused device hardware md5 state) :
    Orderly (readXBlastOSSettingsRequest device hardware state) := by
  unfold Flash.readXBlastOSSettingsRequest
  split_ifs with hidle
  · have hfound : ((Flash.readDevice device state).1 || hardware.isXecuter3) = true := by
      by_contra hneither
      rw [Bool.not_eq_true, Bool.or_eq_false_iff] at hneither
      exact haccepted ⟨hidle, hneither⟩
    rcases hanswer : Flash.readDevice device state with ⟨found, known⟩
    rw [hanswer] at hfound
    simp only [if_pos hfound]
    split_ifs
    · exact .of_phase .completed rfl rfl (by decide)
    · exact .of_phase .pendingOp rfl rfl (by decide)
  · exact horderly

theorem Orderly.saveXBlastOSSettings (horderly : Orderly state)
    (haccepted : ¬ FlashCall.saveXBlastOSSettings.Refused device hardware md5 state) :
    Orderly (saveXBlastOSSettings device hardware state) := by
  by_cases hidle : state.currentFlashOp = .idle
  · rw [Flash.saveXBlastOSSettings, if_pos hidle]
    obtain ⟨hfound, hoffset⟩ := not_or.mp fun hrefused ↦ haccepted ⟨hidle, hrefused⟩
    rcases hanswer : Flash.readDevice device state with ⟨found, known⟩
    rw [hanswer] at hfound hoffset
    cases found with
    | true =>
      simp only [ne_eq, hoffset, not_false_eq_true, if_true]
      exact .of_phase .pendingOp rfl rfl (by decide)
    | false => exact absurd rfl hfound
  · rwa [Flash.saveXBlastOSSettings, if_neg hidle]

theorem Orderly.perform {call : FlashCall} (horderly : Orderly state)
    (haccepted : ¬ call.Refused device hardware md5 state) :
    Orderly (call.perform device hardware md5 state) := by
  cases call with
  | executeFlashFSM => exact executeFlashFSM_orderly horderly
  | freeFlashFSM => exact orderly_freeFlashFSM device state
  | forceUserAbort => exact orderly_forceUserAbort state
  | readDeviceInfo =>
    rw [FlashCall.perform, readDeviceInfo]
    split_ifs
    · exact orderly_freeFlashFSM device _
    · exact orderly_freeFlashFSM device state
  | readBIOSBank bank => exact horderly.readBIOSBank bank
  | xblastOSBankFlash inBuf size offset overrideChecks =>
    exact horderly.xblastOSBankFlash inBuf size offset overrideChecks haccepted
  | xblastUserBankFlash inBuf size offset bank =>
    exact horderly.xblastUserBankFlash inBuf size offset bank haccepted
  | readXBlastOSSettingsRequest => exact horderly.readXBlastOSSettingsRequest haccepted
  | saveXBlastOSSettings => exact horderly.saveXBlastOSSettings haccepted
  | editSettings | switchOSBank => exact horderly.congr rfl rfl rfl

/-! ### Whole runs -/

/-- The phase and the error code that a caller sees agree, and a job that failed is ended by the
next call of the interface, so that the loops that wait for its end return. -/
structure ProgressConsistent (device : FlashLowLevel σ) (state : FlashState σ) : Prop where
  idle : state.currentFlashOp = .idle → state.flashErrorCode = .noError
  error : state.currentFlashOp = .error → state.flashErrorCode ≠ .noError
  returns : state.currentFlashOp = .error → ∀ confirm, ∃ success shown,
    executeFlashDriverUI device false confirm state = some (success, shown) ∧
      shown.currentFlashOp = .idle
  saveReturns : state.currentFlashOp = .error → ∀ confirm resultSuccess,
    ∃ rounds, (saveLoop device false confirm rounds resultSuccess state).isSome
  jobReturns : state.currentFlashOp = .error → ∀ confirm,
    ∃ rounds, (blockExecuteFlashJob device false confirm rounds state).isSome

/-- The loops leave a machine that was freed. -/
theorem saveLoop_of_frees {confirm success : Bool} (resultSuccess : Bool)
    (hop : state.currentFlashOp = .error)
    (hshown : executeFlashDriverUI device false confirm state =
      some (success, freeFlashFSM device state)) :
    saveLoop device false confirm 2 resultSuccess state =
      some (success, freeFlashFSM device state) := by
  have hactive : state.currentFlashOp ≠ .idle := by simp [hop]
  rw [saveLoop, if_neg hactive, hshown]
  rfl

theorem Orderly.progressConsistent (horderly : Orderly state) :
    ProgressConsistent device state := by
  have hfrees (hop : state.currentFlashOp = .error) (confirm : Bool) :
      ∃ success, executeFlashDriverUI device false confirm state =
        some (success, freeFlashFSM device state) := by
    have htask := horderly.task
    rw [hop] at htask
    exact executeFlashDriverUI_frees device confirm (by simpa [phaseTask] using htask) (.inr hop)
  refine ⟨horderly.idle, horderly.error, fun hop confirm ↦ ?_, fun hop confirm result ↦ ?_,
    fun hop confirm ↦ ?_⟩
  · obtain ⟨success, hshown⟩ := hfrees hop confirm
    exact ⟨success, _, hshown, rfl⟩
  · obtain ⟨success, hshown⟩ := hfrees hop confirm
    exact ⟨2, by rw [saveLoop_of_frees result hop hshown]; rfl⟩
  · obtain ⟨success, hshown⟩ := hfrees hop confirm
    exact ⟨2, by rw [blockExecuteFlashJob, saveLoop_of_frees true hop hshown]; rfl⟩

theorem xblastOSBankFlash_refused (hidle : state.currentFlashOp = .idle)
    (hcode : state.flashErrorCode = .noError)
    (hcause : (overrideChecks = false ∧ validateOSImage md5 inBuf size ≠ .noError) ∨
      RefusesImage device size state) :
    (xblastOSBankFlash device md5 inBuf size offset overrideChecks state).currentFlashOp = .idle ∧
      (xblastOSBankFlash device md5 inBuf size offset overrideChecks state).flashErrorCode ≠
        .noError := by
  by_cases hinvalid : overrideChecks = false ∧ validateOSImage md5 inBuf size ≠ .noError
  · have hchecked : checkOSImage md5 inBuf size overrideChecks state =
        { state with flashErrorCode := validateOSImage md5 inBuf size } := if_pos hinvalid.1
    simp only [xblastOSBankFlash, hchecked, if_neg hinvalid.2]
    exact ⟨hidle, hinvalid.2⟩
  · have hchecked := checkOSImage_of_valid hcode hinvalid
    obtain ⟨hwritten, hop⟩ :=
      writeBios_refused inBuf offset .osBank hidle (hcause.resolve_left hinvalid)
    simp only [xblastOSBankFlash, hchecked, if_pos hcode, if_neg hwritten]
    exact ⟨hop, hwritten⟩

theorem readXBlastOSSettingsRequest_refused (hidle : state.currentFlashOp = .idle)
    (hcause : (readDevice device state).1 = false ∧ hardware.isXecuter3 = false) :
    (readXBlastOSSettingsRequest device hardware state).currentFlashOp = .error ∧
      (readXBlastOSSettingsRequest device hardware state).flashErrorCode =
        state.flashErrorCode := by
  obtain ⟨flashType, hread⟩ := readDevice_eq device state
  rw [hread] at hcause
  rw [readXBlastOSSettingsRequest, if_pos hidle, hread]
  generalize (device.readDevice state.chip).1.isSome = found at hcause
  obtain ⟨rfl, hother⟩ := hcause
  simp only [hother, Bool.or_self, Bool.false_eq_true, if_false]
  exact ⟨trivial, trivial⟩

theorem saveXBlastOSSettings_refused (hardware : Hardware) (hidle : state.currentFlashOp = .idle)
    (hcause : (readDevice device state).1 = false ∨ getXBlastOSSettingStartingOffset
      (getBiosIdentifierFromFlash device (readDevice device state).2.chip) = 0) :
    (saveXBlastOSSettings device hardware state).currentFlashOp = .error ∧
      (saveXBlastOSSettings device hardware state).currentFlashTask = state.currentFlashTask := by
  obtain ⟨flashType, hread⟩ := readDevice_eq device state
  rw [hread] at hcause
  rw [saveXBlastOSSettings, if_pos hidle, hread]
  generalize (device.readDevice state.chip).1.isSome = found at hcause
  cases found with
  | false => exact ⟨rfl, rfl⟩
  | true =>
    have hoffset := hcause.resolve_left (by simp)
    simp only [ne_eq, hoffset, not_true_eq_false, if_false]
    exact ⟨trivial, trivial⟩

/-- A refused request breaks the agreement at once. -/
theorem FlashCall.Refused.not_consistent {call : FlashCall}
    (hrefused : call.Refused device hardware md5 state) (horderly : Orderly state) :
    ¬ ProgressConsistent device (call.perform device hardware md5 state) := by
  obtain ⟨hidle, hcause⟩ := hrefused
  have htask : state.currentFlashTask = .noTask := by
    have htask := horderly.task
    rw [hidle] at htask
    simpa [phaseTask] using htask
  intro hconsistent
  cases call with
  | xblastOSBankFlash inBuf size offset overrideChecks =>
    obtain ⟨hop, hcode⟩ := xblastOSBankFlash_refused inBuf size offset overrideChecks hidle
      (horderly.idle hidle) hcause
    exact hcode (hconsistent.idle hop)
  | xblastUserBankFlash inBuf size offset bank =>
    obtain ⟨hcode, hop⟩ := writeBios_refused inBuf offset bank hidle hcause
    exact hcode (hconsistent.idle hop)
  | readXBlastOSSettingsRequest =>
    obtain ⟨hop, hcode⟩ := readXBlastOSSettingsRequest_refused hidle hcause
    exact hconsistent.error hop (hcode.trans (horderly.idle hidle))
  | saveXBlastOSSettings =>
    obtain ⟨hop, hkind⟩ := saveXBlastOSSettings_refused hardware hidle hcause
    obtain ⟨success, shown, hshown, hfreed⟩ := hconsistent.returns hop false
    -- the interface does nothing on a machine without a task
    simp only [FlashCall.perform, executeFlashDriverUI, hkind.trans htask] at hshown
    obtain rfl := congrArg Prod.snd (Option.some.inj hshown)
    exact absurd (hop.symm.trans hfreed) (by decide)
  | executeFlashFSM | freeFlashFSM | forceUserAbort | readDeviceInfo | readBIOSBank => exact hcause
  | editSettings | switchOSBank => exact hcause

/-- What can happen to the machine: a call of the driver, or one of the interface with the answer
of its dialog. The console does not restart, as none of these sets `mustRestart`. -/
inductive FlashEvent where
  | call (call : FlashCall)
  | executeFlashDriverUI (confirm : Bool)

def FlashEvent.perform (device : FlashLowLevel σ) (hardware : Hardware)
    (md5 : Digest 16) : FlashEvent → FlashState σ → FlashState σ
  | .call request, state => request.perform device hardware md5 state
  | .executeFlashDriverUI confirm, state =>
    ((FlashUi.executeFlashDriverUI device false confirm state).map Prod.snd).getD state

/-- Every state of a run is consistent. -/
def ConsistentRun (device : FlashLowLevel σ) (hardware : Hardware)
    (md5 : Digest 16) : List FlashEvent → FlashState σ → Prop
  | [], state => ProgressConsistent device state
  | event :: events, state => ProgressConsistent device state ∧
      ConsistentRun device hardware md5 events (event.perform device hardware md5 state)

/-- No request of a run is refused. -/
def NoRefusal (device : FlashLowLevel σ) (hardware : Hardware)
    (md5 : Digest 16) : List FlashEvent → FlashState σ → Prop
  | [], _ => True
  | event :: events, state =>
    (∀ call, event = .call call → ¬ call.Refused device hardware md5 state) ∧
      NoRefusal device hardware md5 events (event.perform device hardware md5 state)

theorem ConsistentRun.start {events : List FlashEvent}
    (hrun : ConsistentRun device hardware md5 events state) : ProgressConsistent device state := by
  cases events with
  | nil => exact hrun
  | cons event events => exact hrun.1

theorem Orderly.executeFlashDriverUI (confirm : Bool) (horderly : Orderly state) :
    Orderly ((FlashEvent.executeFlashDriverUI confirm).perform device hardware md5 state) := by
  obtain ⟨success, shown, hshown, hstate⟩ := executeFlashDriverUI_cases device confirm state
  rw [FlashEvent.perform, hshown]
  rcases hstate with rfl | rfl
  · exact horderly
  · exact orderly_freeFlashFSM device state

theorem Orderly.consistentRun_iff {events : List FlashEvent} (horderly : Orderly state) :
    ConsistentRun device hardware md5 events state ↔
      NoRefusal device hardware md5 events state := by
  induction events generalizing state with
  | nil => exact iff_of_true horderly.progressConsistent trivial
  | cons event events ih =>
    rw [ConsistentRun, NoRefusal, and_iff_right horderly.progressConsistent]
    cases event with
    | executeFlashDriverUI confirm =>
      rw [ih (horderly.executeFlashDriverUI confirm)]
      exact (and_iff_right fun _ hcall ↦ by cases hcall).symm
    | call call =>
      by_cases hrefused : call.Refused device hardware md5 state
      · refine iff_of_false (fun hrun ↦ ?_) fun hnone ↦ hnone.1 call rfl hrefused
        exact hrefused.not_consistent horderly hrun.start
      · have hnext : Orderly ((FlashEvent.call call).perform device hardware md5 state) :=
          horderly.perform hrefused
        rw [ih hnext]
        refine (and_iff_right fun other hother ↦ ?_).symm
        cases hother
        exact hrefused

/-- From the initialisation on, the states of a run are consistent exactly as long as no request is
refused. -/
theorem progress_consistent_iff_no_refusal (device : FlashLowLevel σ) (hardware : Hardware)
    (md5 : Digest 16) (state : FlashState σ) (events : List FlashEvent) :
    ConsistentRun device hardware md5 events (flashInit device state) ↔
      NoRefusal device hardware md5 events (flashInit device state) :=
  (orderly_freeFlashFSM device { state with flashType := ⟨0, false⟩ }).consistentRun_iff

/-- A bus without a chip on it. -/
def silentChip : FlashLowLevel Unit where
  readDevice _ := (none, ())
  deviceIsBusy _ := (false, ())
  readByte _ _ := 0xFF
  writeByte _ _ _ := ()
  inititiateSectorErase _ _ := ()
  inititiateBlockErase _ _ := ()
  inititiateChipErase _ := ()
  switchOSBank _ _ := ()

/-- Without a chip, a flash request leaves an idle machine with an error, a read of the settings an
error phase without one, and a save an error phase that the interface does not end, so that the
loop of the save runs forever. -/
theorem refused_requests_inconsistent :
    let state := flashInit silentChip (bootState ⟨fun _ ↦ 0⟩ ())
    let flash := xblastUserBankFlash silentChip (fun _ ↦ 0) (256 * 1024) 0 .osBank state
    let read := readXBlastOSSettingsRequest silentChip plainHardware state
    let save := Flash.saveXBlastOSSettings silentChip plainHardware state
    (flash.currentFlashOp = .idle ∧ flash.flashErrorCode ≠ .noError) ∧
    (read.currentFlashOp = .error ∧ read.flashErrorCode = .noError) ∧
    save.currentFlashOp = .error ∧
    executeFlashDriverUI silentChip false false save = some (true, save) ∧
    ∀ confirm rounds, saveLoop silentChip false confirm rounds false save = none := by
  refine ⟨⟨rfl, by decide⟩, ⟨rfl, rfl⟩, rfl, rfl, fun confirm rounds ↦ ?_⟩
  exact saveLoop_refused false confirm rounds false rfl rfl

/-! ### A machine that has a job -/

/-- The phases of a job that runs. -/
def FlashOp.isBusy : FlashOp → Bool
  | .pendingOp | .eraseInProgress | .writeInProgress | .verifyInProgress | .readInProgress => true
  | .idle | .completed | .error => false

/-- The calls that ask the driver for something. -/
def FlashCall.isRequest : FlashCall → Bool
  | .readDeviceInfo | .readBIOSBank _ | .xblastOSBankFlash .. | .xblastUserBankFlash ..
  | .readXBlastOSSettingsRequest | .saveXBlastOSSettings => true
  | _ => false

/-- What `Flash_getProgress` reports of a job. -/
def FlashState.report (state : FlashState σ) : FlashOp × FlashTask × FlashErrorcodes :=
  (state.currentFlashOp, state.currentFlashTask, state.flashErrorCode)

/-- A call left the job alone, and it goes on to report what it would have reported. -/
structure Undisturbed (device : FlashLowLevel σ) (before after : FlashState σ) : Prop where
  currentFlashOp : after.currentFlashOp = before.currentFlashOp
  currentFlashTask : after.currentFlashTask = before.currentFlashTask
  flashErrorCode : after.flashErrorCode = before.flashErrorCode
  biosBuffer : after.biosBuffer = before.biosBuffer
  biosBufferSize : after.biosBufferSize = before.biosBufferSize
  startingOffset : after.startingOffset = before.startingOffset
  currentAddr : after.currentAddr = before.currentAddr
  report : ∀ calls, ((executeFlashFSM device)^[calls] after).report =
    ((executeFlashFSM device)^[calls] before).report

theorem Undisturbed.refl (device : FlashLowLevel σ) (state : FlashState σ) :
    Undisturbed device state state :=
  ⟨rfl, rfl, rfl, rfl, rfl, rfl, rfl, fun _ ↦ rfl⟩

/-- A call that leaves the job of a machine alone: the flash requests write an error code, which
does nothing only when the code is that one already, and the device information frees the
machine. -/
def FlashCall.Harmless (md5 : Digest 16) (call : FlashCall)
    (state : FlashState σ) : Prop :=
  match call with
  | .xblastOSBankFlash inBuf size _ overrideChecks =>
    if overrideChecks then state.flashErrorCode ≠ .noError
    else if validateOSImage md5 inBuf size = .noError then
      state.flashErrorCode = .undefinedError
    else state.flashErrorCode = validateOSImage md5 inBuf size
  | .xblastUserBankFlash .. => state.flashErrorCode = .undefinedError
  | .readDeviceInfo => False
  | _ => True

theorem FlashOp.ne_idle_of_isBusy {op : FlashOp} (hbusy : op.isBusy = true) : op ≠ .idle := by
  rintro rfl
  cases hbusy

/-- A change of the error code alone is none when it is the code already. -/
theorem undisturbed_code_iff {code : FlashErrorcodes} :
    Undisturbed device state { state with flashErrorCode := code } ↔
      state.flashErrorCode = code := by
  constructor
  · intro hundisturbed
    exact hundisturbed.flashErrorCode.symm
  · rintro rfl
    exact .refl device state

/-- Which requests leave a machine alone that has a job. -/
theorem busy_undisturbed_iff (device : FlashLowLevel σ) (hardware : Hardware)
    (md5 : Digest 16) (state : FlashState σ)
    (hbusy : state.currentFlashOp.isBusy = true) (call : FlashCall)
    (hrequest : call.isRequest = true) :
    Undisturbed device state (call.perform device hardware md5 state) ↔
      call.Harmless md5 state := by
  have hidle := FlashOp.ne_idle_of_isBusy hbusy
  cases call with
  | readDeviceInfo =>
    rw [FlashCall.perform, readDeviceInfo, if_neg hidle]
    refine iff_of_false (fun hundisturbed ↦ ?_) id
    exact hidle hundisturbed.currentFlashOp.symm
  | readBIOSBank bank =>
    rw [FlashCall.perform, readBIOSBank, if_neg hidle]
    exact iff_of_true (.refl device state) trivial
  | readXBlastOSSettingsRequest =>
    rw [FlashCall.perform, readXBlastOSSettingsRequest, if_neg hidle]
    exact iff_of_true (.refl device state) trivial
  | saveXBlastOSSettings =>
    rw [FlashCall.perform, Flash.saveXBlastOSSettings, if_neg hidle]
    exact iff_of_true (.refl device state) trivial
  | xblastUserBankFlash inBuf size offset bank =>
    rw [FlashCall.perform, xblastUserBankFlash, writeBios_busy device inBuf size offset bank hidle]
    exact undisturbed_code_iff
  | xblastOSBankFlash inBuf size offset overrideChecks =>
    rw [FlashCall.perform, xblastOSBankFlash_busy inBuf size offset overrideChecks hidle,
      undisturbed_code_iff, FlashCall.Harmless, checkOSImage]
    cases overrideChecks with
    | true =>
      simp only [Bool.true_eq_false, if_false, if_true]
      split_ifs with hcode
      · simp [hcode]
      · simp [hcode]
    | false =>
      simp only [if_true, Bool.false_eq_true, if_false]
      split_ifs
      · rfl
      · rfl
  | executeFlashFSM | freeFlashFSM | forceUserAbort | editSettings | switchOSBank => cases hrequest

/-- A chip of 256 KB that is never busy. -/
def answeringChip : FlashLowLevel Unit :=
  { silentChip with readDevice := fun _ ↦ (some ⟨256 * 1024, false⟩, ()) }

/-- A read of a bank that was asked for. -/
def startedRead : FlashState Unit :=
  readBIOSBank answeringChip .osBank (flashInit answeringChip (bootState ⟨fun _ ↦ 0⟩ ()))

theorem busy_undisturbed_iff_startedRead :
    startedRead.currentFlashOp.isBusy = true ∧
      Undisturbed answeringChip startedRead
        (FlashCall.saveXBlastOSSettings.perform answeringChip plainHardware (fun _ _ ↦ 0)
          startedRead) :=
  ⟨rfl, (busy_undisturbed_iff answeringChip plainHardware (fun _ _ ↦ 0) startedRead rfl
    .saveXBlastOSSettings rfl).mpr trivial⟩

/-- A flash request gives an error code to a read that has none, and asking for the device
information ends the read. -/
theorem startedRead_disturbed :
    Reachable answeringChip plainHardware (fun _ _ ↦ 0) startedRead ∧
    startedRead.report = (.pendingOp, .readBios, .noError) ∧
    (xblastUserBankFlash answeringChip (fun _ ↦ 0) (256 * 1024) 0 .osBank startedRead).report =
      (.pendingOp, .readBios, .undefinedError) ∧
    (readDeviceInfo answeringChip startedRead).2.report = (.idle, .noTask, .noError) :=
  ⟨.call (.init (bootState ⟨fun _ ↦ 0⟩ ())) (.readBIOSBank .osBank), rfl, rfl, rfl⟩

end XBlast.Flash
