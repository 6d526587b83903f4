import XBlast.Flash.BiosIdentifier

/-!
# The flash driver

The state machine of 'FlashDriver.c'. A request puts a job in the `pendingOp` state and repeated
calls of `executeFlashFSM` drive it: a write erases, programs and verifies the range of
`biosBuffer`, a settings save first reads that range back, and a job ends in `completed` or
`error`. The fields of `FlashState` are the static variables of the file, the part of
`flashDevice` that the driver reads, the two settings structures, and the chip.
-/

set_option autoImplicit false
set_option relaxedAutoImplicit false

namespace XBlast.Flash

open Foundation

structure FlashState (σ : Type*) where
  biosBuffer : Bytes
  biosBufferSize : ℕ
  currentFlashOp : FlashOp
  flashErrorCode : FlashErrorcodes
  startingOffset : ℕ
  currentAddr : ℕ
  currentFlashTask : FlashTask
  eraseSequenceMethod : EraseSequenceMethod
  eraseBusyCount : UInt32
  firstEraseTry : Bool
  flashType : KnownFlashType
  lpcmodSettings : LPCmodSettings
  lpcmodSettingsOrigFromFlash : LPCmodSettings
  chip : σ

variable {σ : Type*}

/-- The flash address that the state machine works at. -/
def FlashState.address (state : FlashState σ) : ℕ := state.startingOffset + state.currentAddr

/-- A job is over, well or not. -/
abbrev FlashState.Ended (state : FlashState σ) : Prop :=
  state.currentFlashOp = .completed ∨ state.currentFlashOp = .error

/-! ### Helpers of the state machine -/

/-- Whether a byte of the buffer can be programmed over a byte of the flash without an erase. -/
def canWrite (flashByte bufferByte : UInt8) : Bool := (~~~flashByte) &&& bufferByte == 0

variable (flashType : KnownFlashType)

/-- The range that an erase method needs read back. -/
def getEraseMethodSize (method : EraseSequenceMethod) : ℕ :=
  if flashType.support4KBErase then
    match method with
    | .sector => 4 * 1024
    | .block => 64 * 1024
    | .chip => 256 * 1024
  else
    match method with
    | .sector => 64 * 1024
    | .block => 64 * 1024
    | .chip => 256 * 1024

variable (device : FlashLowLevel σ)

def getBiosIdentifierFromFlash (chip : σ) : BiosIdentifier :=
  .ofImage (device.readByte chip)

def getBiosIdentifierFromBuffer (buf : Bytes) (size : ℕ) : BiosIdentifier :=
  if size = 256 * 1024 ∧ (BiosIdentifier.ofImage buf).hasProgName then .ofImage buf
  else ⟨fun _ ↦ 0xFF⟩

def injectSettingsInBuf (offset : ℕ) (state : FlashState σ) : FlashState σ :=
  if offset ≠ 0 then
    { state with
      lpcmodSettings := state.lpcmodSettings.withCrc
      biosBuffer := overlay state.biosBuffer (offset % state.biosBufferSize) 3840
        state.lpcmodSettings.withCrc.image }
  else state

variable (state : FlashState σ)

/-- Aligns the offset down to the new erase size and starts reading the larger range. -/
def evaluateReadBackRange : FlashState σ :=
  let eraseSize := getEraseMethodSize state.flashType state.eraseSequenceMethod
  { state with
    startingOffset :=
      (UInt32.ofNat state.startingOffset &&& ~~~(UInt32.ofNat eraseSize - 1)).toNat
    biosBufferSize := eraseSize
    currentAddr := 0
    currentFlashOp := .readInProgress }

/-! ### One call of the state machine -/

/-- Gives the erase command of the current method at the current address. -/
def eraseCurrent : FlashState σ :=
  { state with
    chip := device.initiateErase state.eraseSequenceMethod state.address state.chip
    firstEraseTry := false }

/-- Moves on to a new erase method. A settings save reads the larger range back first. -/
def switchEraseMethod (method : EraseSequenceMethod) (state : FlashState σ) : FlashState σ :=
  let switched :=
    { state with firstEraseTry := true, eraseBusyCount := 0, eraseSequenceMethod := method }
  if state.currentFlashTask = .writeSettings then evaluateReadBackRange switched
  else eraseCurrent device switched

/-- The erase command for this byte never ran: try the next method, or give up. -/
def escalateErase : FlashState σ :=
  match state.eraseSequenceMethod with
  | .sector =>
    switchEraseMethod device (if state.flashType.support4KBErase then .block else .chip) state
  | .block => switchEraseMethod device .chip state
  | .chip =>
    { state with
      firstEraseTry := true
      eraseBusyCount := 0
      currentFlashOp := .error
      flashErrorCode := .failedErase }

/-- The byte at the current address needs no erase. -/
def skipErase : FlashState σ :=
  if state.biosBufferSize ≤ state.currentAddr + 1 then
    { state with
      firstEraseTry := true
      eraseBusyCount := 0
      currentFlashOp := .writeInProgress
      currentAddr := 0 }
  else
    { state with
      firstEraseTry := true
      eraseBusyCount := 0
      currentAddr := state.currentAddr + 1 }

/-- The erase phase on a chip that is not busy. -/
def executeErase : FlashState σ :=
  if canWrite (device.readByte state.chip state.address) (state.biosBuffer state.currentAddr) then
    skipErase state
  else if state.firstEraseTry = false ∧ state.eraseBusyCount < 3 then escalateErase device state
  else eraseCurrent device state

/-- The write phase on a chip that is not busy. -/
def executeWrite : FlashState σ :=
  if state.biosBufferSize ≤ state.currentAddr then
    { state with currentFlashOp := .verifyInProgress, currentAddr := 0 }
  else if device.readByte state.chip state.address ≠ state.biosBuffer state.currentAddr then
    { state with
      chip := device.writeByte (state.biosBuffer state.currentAddr) state.address state.chip
      currentAddr := state.currentAddr + 1 }
  else { state with currentAddr := state.currentAddr + 1 }

/-- The verify phase on a chip that is not busy. -/
def executeVerify : FlashState σ :=
  if state.biosBufferSize ≤ state.currentAddr then { state with currentFlashOp := .completed }
  else if device.readByte state.chip state.address = state.biosBuffer state.currentAddr then
    { state with currentAddr := state.currentAddr + 1 }
  else { state with currentFlashOp := .error, flashErrorCode := .failedVerify }

/-- The end of the read phase, by task. A settings save goes on with the settings put into the
range that was read. -/
def finishRead : FlashState σ :=
  match state.currentFlashTask with
  | .readBios => { state with currentAddr := 0, currentFlashOp := .completed }
  | .readSettings => { state with currentAddr := 0, currentFlashOp := .completed }
  | .writeSettings =>
    { injectSettingsInBuf
        (getXBlastOSSettingStartingOffset (getBiosIdentifierFromFlash device state.chip)) state with
      currentAddr := 0
      currentFlashOp := .eraseInProgress }
  | .noTask => { state with currentAddr := 0 }
  | .writeBios => { state with currentAddr := 0 }

/-- Copies the byte at the current address into the buffer. -/
def storeCurrent : FlashState σ :=
  { state with
    biosBuffer := Function.update state.biosBuffer state.currentAddr
      (device.readByte state.chip state.address)
    currentAddr := state.currentAddr + 1 }

/-- The read phase on a chip that is not busy. -/
def executeRead : FlashState σ :=
  if state.biosBufferSize ≤ state.currentAddr + 1 then
    finishRead device (storeCurrent device state)
  else storeCurrent device state

/-- The state after the poll that opens every phase. -/
def pollChip : FlashState σ :=
  { state with chip := (device.deviceIsBusy state.chip).2 }

def executeFlashFSM : FlashState σ :=
  match state.currentFlashOp with
  | .idle => state
  | .pendingOp =>
    match state.currentFlashTask with
    | .writeBios => { state with currentFlashOp := .eraseInProgress }
    | .readBios => { state with currentFlashOp := .readInProgress }
    | .writeSettings => { state with currentFlashOp := .readInProgress }
    | .readSettings => { state with currentFlashOp := .readInProgress }
    | .noTask => state
  | .eraseInProgress =>
    if (device.deviceIsBusy state.chip).1 then
      { pollChip device state with eraseBusyCount := state.eraseBusyCount + 1 }
    else executeErase device (pollChip device state)
  | .writeInProgress =>
    if (device.deviceIsBusy state.chip).1 then pollChip device state
    else executeWrite device (pollChip device state)
  | .verifyInProgress =>
    if (device.deviceIsBusy state.chip).1 then pollChip device state
    else executeVerify device (pollChip device state)
  | .readInProgress =>
    if (device.deviceIsBusy state.chip).1 then pollChip device state
    else executeRead device (pollChip device state)
  | .completed => state
  | .error => state

/-! ### Requests -/

/-- Asks the chip who it is. The answer replaces the known type; no answer leaves it. -/
def readDevice (device : FlashLowLevel σ) (state : FlashState σ) : Bool × FlashState σ :=
  match device.readDevice state.chip with
  | (some flashType, chip) => (true, { state with flashType := flashType, chip := chip })
  | (none, chip) => (false, { state with chip := chip })

def freeFlashFSM : FlashState σ :=
  { state with
    biosBufferSize := 0
    currentFlashOp := .idle
    flashErrorCode := .noError
    currentAddr := 0
    currentFlashTask := .noTask
    chip := device.switchOSBank .osBank state.chip }

/-- The state of the driver when the program starts, with its static variables cleared. -/
def bootState (settings : LPCmodSettings) (chip : σ) : FlashState σ where
  biosBuffer := fun _ ↦ 0
  biosBufferSize := 0
  currentFlashOp := .idle
  flashErrorCode := .noError
  startingOffset := 0
  currentAddr := 0
  currentFlashTask := .noTask
  eraseSequenceMethod := .sector
  eraseBusyCount := 0
  firstEraseTry := false
  flashType := ⟨0, false⟩
  lpcmodSettings := settings
  lpcmodSettingsOrigFromFlash := settings
  chip := chip

/-- `Flash_Init`, with the known type cleared by `FlashLowLevel_Init`. -/
def flashInit : FlashState σ :=
  freeFlashFSM device { state with flashType := ⟨0, false⟩ }

def forceUserAbort : FlashState σ :=
  { state with
    currentFlashTask := .writeBios
    currentFlashOp := .error
    flashErrorCode := .userAbort }

/-- The device information is only there when the machine was idle; it is freed in any case. -/
def readDeviceInfo : Option KnownFlashType × FlashState σ :=
  if state.currentFlashOp = .idle then
    let answered := readDevice device state
    (if answered.1 then some answered.2.flashType else none, freeFlashFSM device answered.2)
  else (none, freeFlashFSM device state)

def readBIOSBank (bank : FlashBank) (state : FlashState σ) : FlashState σ :=
  if state.currentFlashOp = .idle then
    match readDevice device state with
    | (true, known) =>
      { known with
        currentFlashOp := .pendingOp
        currentFlashTask := .readBios
        biosBufferSize :=
          match bank with
          | .osBank => 256 * 1024
          | .bank256 => 256 * 1024
          | .bank512 => 512 * 1024
          | .splitTSOP0Bank => 512 * 1024
          | .splitTSOP1Bank => 512 * 1024
          | .fullTSOPBank => known.flashType.lengthInBytes
          | .noBank => known.flashType.lengthInBytes
        startingOffset := 0 }
    | (false, known) => known
  else state

/-- The size check of an image. The macro of the image size has no parentheses, so that the
remainder is taken by 256 and then multiplied by 1024. -/
def checkImageSize (size : ℕ) : FlashErrorcodes :=
  if 0 < size ∧ size ≤ flashType.lengthInBytes then
    if size % 256 * 1024 = 0 then .noError else .fileSizeError
  else .fileSizeError

/-- The size that an image is repeated to fill. -/
def mirrorTargetSize : FlashBank → ℕ
  | .osBank => 256 * 1024
  | .bank256 => 256 * 1024
  | .bank512 => 512 * 1024
  | .splitTSOP0Bank => 512 * 1024
  | .splitTSOP1Bank => 512 * 1024
  | .fullTSOPBank => flashType.lengthInBytes
  | .noBank => flashType.lengthInBytes

/-- The loop of `mirrorimage`, which doubles the filled part of the buffer until it reaches the
target size. The first argument bounds the number of rounds. -/
def mirrorLoop (targetSize : ℕ) : ℕ → Bytes → ℕ → Bytes × ℕ
  | 0, buffer, size => (buffer, size)
  | rounds + 1, buffer, size =>
    if size < targetSize then
      mirrorLoop targetSize rounds (overlay buffer size size buffer) (size + size)
    else (buffer, size)

def mirrorimage (flashBank : FlashBank) (state : FlashState σ) : FlashState σ :=
  let targetSize := mirrorTargetSize state.flashType flashBank
  let mirrored := mirrorLoop targetSize targetSize state.biosBuffer state.biosBufferSize
  { state with biosBuffer := mirrored.1, biosBufferSize := mirrored.2 }

def writeBios (device : FlashLowLevel σ) (buf : Bytes) (size offset : ℕ)
    (flashBank : FlashBank) (state : FlashState σ) : FlashErrorcodes × FlashState σ :=
  if state.currentFlashOp = .idle then
    match readDevice device state with
    | (true, known) =>
      let errorCode := checkImageSize known.flashType size
      (errorCode,
        if errorCode = .noError then
          mirrorimage flashBank
            { known with
              flashErrorCode := errorCode
              eraseSequenceMethod := .sector
              eraseBusyCount := 0
              firstEraseTry := true
              currentFlashOp := .pendingOp
              currentFlashTask := .writeBios
              biosBufferSize := size
              startingOffset := offset
              biosBuffer := overlay known.biosBuffer 0 size buf }
        else { known with flashErrorCode := errorCode })
    | (false, known) => (.undefinedError, known)
  else (.undefinedError, state)

def xblastUserBankFlash (inBuf : Bytes) (size offset : ℕ) (bank : FlashBank)
    (state : FlashState σ) : FlashState σ :=
  let (errorCode, started) := writeBios device inBuf size offset bank state
  { started with flashErrorCode := errorCode }

def simpleBIOSBankFlash (inBuf : Bytes) (size offset : ℕ) (state : FlashState σ) :
    FlashState σ :=
  xblastUserBankFlash device inBuf size offset .noBank state

/-- The error code of the check of an update. With `overrideChecks` the code of an earlier request
is kept. -/
def checkOSImage (md5 : Digest 16) (inBuf : Bytes) (size : ℕ)
    (overrideChecks : Bool) (state : FlashState σ) : FlashState σ :=
  if overrideChecks = false then { state with flashErrorCode := validateOSImage md5 inBuf size }
  else state

/-- The update of the operating system, which keeps the settings in the image to write. -/
def xblastOSBankFlash (md5 : Digest 16) (inBuf : Bytes) (size offset : ℕ)
    (overrideChecks : Bool) (state : FlashState σ) : FlashState σ :=
  let checked := checkOSImage md5 inBuf size overrideChecks state
  if checked.flashErrorCode = .noError then
    let written := writeBios device inBuf size offset .osBank checked
    let coded := { written.2 with flashErrorCode := written.1 }
    if written.1 = .noError then
      injectSettingsInBuf (getXBlastOSSettingStartingOffset
        (getBiosIdentifierFromBuffer coded.biosBuffer coded.biosBufferSize)) coded
    else coded
  else checked

variable (hardware : Hardware)

def readXBlastOSSettingsRequest (state : FlashState σ) : FlashState σ :=
  if state.currentFlashOp = .idle then
    let (found, known) := readDevice device state
    if found || hardware.isXecuter3 then
      let chip := device.switchOSBank .osBank known.chip
      let startingOffset :=
        getXBlastOSSettingStartingOffset (getBiosIdentifierFromFlash device chip)
      let requested :=
        { known with
          currentFlashOp := .pendingOp
          currentFlashTask := .readSettings
          chip := chip
          biosBufferSize := 3840
          startingOffset := startingOffset }
      if startingOffset = 0 then
        { requested with
          currentFlashOp := .completed
          biosBuffer := Function.update known.biosBuffer 0 0xFF }
      else requested
    else { known with currentFlashOp := .error }
  else state

def saveXBlastOSSettings (state : FlashState σ) : FlashState σ :=
  if state.currentFlashOp = .idle then
    match readDevice device state with
    | (true, known) =>
      let startingOffset :=
        getXBlastOSSettingStartingOffset (getBiosIdentifierFromFlash device known.chip)
      if startingOffset ≠ 0 then
        { known with
          startingOffset := startingOffset
          eraseSequenceMethod := .sector
          eraseBusyCount := 0
          firstEraseTry := true
          biosBufferSize := getEraseMethodSize known.flashType .sector
          currentFlashOp := .pendingOp
          currentFlashTask := .writeSettings }
      else
        { known with
          startingOffset := startingOffset
          currentFlashOp := .error
          flashErrorCode := .flashContentError }
    | (false, known) =>
      { known with
        currentFlashOp := .error
        flashErrorCode := if hardware.isXecuter3 then .writeProtect else .unknownFlash }
  else state

/-! ### Reading the settings at boot -/

/-- Takes the settings out of the buffer when they have the current version and a correct
checksum, and the defaults otherwise. -/
def loadXBlastOSSettings (state : FlashState σ) : Bool × LPCmodSettings :=
  let seeker : LPCmodSettings := ⟨readPacked 3840 state.biosBuffer 0⟩
  if state.currentFlashOp = .completed ∧ state.currentFlashTask = .readSettings ∧
      seeker.settingsVersion = 1 ∧
      seeker.calculateSettingsStructCRC32Value = seeker.crc32Value then
    (true, seeker)
  else (false, populateSettingsStructWithDefault hardware)

/-- The loop of `bootReadXBlastOSSettings`; it gives nothing when the rounds are used up. -/
def bootReadLoop (device : FlashLowLevel σ) (hardware : Hardware) :
    ℕ → FlashState σ → Option (Bool × FlashState σ)
  | 0, _ => none
  | rounds + 1, state =>
    if state.currentFlashOp = .completed ∨ state.currentFlashOp = .error then
      let (loaded, settings) := loadXBlastOSSettings hardware state
      some (loaded, { state with lpcmodSettings := settings })
    else bootReadLoop device hardware rounds (executeFlashFSM device state)

/-- `bootReadXBlastOSSettings` with a bound on the rounds of its loop. -/
def bootReadXBlastOSSettings (rounds : ℕ) (state : FlashState σ) : Option (Bool × FlashState σ) :=
  (bootReadLoop device hardware rounds
    (readXBlastOSSettingsRequest device hardware
      { state with lpcmodSettings := populateSettingsStructWithDefault hardware })).map
      fun (loaded, ended) ↦ (loaded, freeFlashFSM device
        { ended with lpcmodSettingsOrigFromFlash := ended.lpcmodSettings })

end XBlast.Flash
