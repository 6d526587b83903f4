import XBlast.Flash.QuietChip
import XBlast.Flash.Requests

/-!
# Writing an image

A BIOS write fills the buffer with copies of the image up to the size of the bank, puts the
settings into an operating system image, and erases, programs and verifies the range of the
buffer. Only the verify phase leads to `completed`, and it gives no command to the chip: what it
compared is what the flash holds, whatever the erase and the write phase did.
-/

set_option autoImplicit false
set_option relaxedAutoImplicit false

namespace XBlast.Flash

open Foundation

variable {σ : Type*} {device : FlashLowLevel σ}

/-! ### Mirroring -/

/-- The buffer holds copies of an image up to a limit. -/
def MirroredTo (source : Bytes) (period : ℕ) (buffer : Bytes) (limit : ℕ) : Prop :=
  ∀ index < limit, buffer index = source (index % period)

/-- Doubling the filled part goes on with the copies. -/
theorem MirroredTo.double {source buffer : Bytes} {period filled : ℕ}
    (hmirrored : MirroredTo source period buffer filled) (hperiod : period ∣ filled) :
    MirroredTo source period (overlay buffer filled filled buffer) (filled + filled) := by
  intro index hindex
  by_cases hcopied : index < filled
  · rw [overlay_outside (.inl hcopied), hmirrored index hcopied]
  · obtain ⟨offset, rfl⟩ : ∃ offset, index = filled + offset := ⟨index - filled, by omega⟩
    obtain ⟨copies, rfl⟩ := hperiod
    rw [overlay_add (by omega), hmirrored offset (by omega), Nat.mul_add_mod]

theorem MirroredTo.loop {source : Bytes} {period targetSize : ℕ} (rounds : ℕ)
    {buffer : Bytes} {filled : ℕ} (hmirrored : MirroredTo source period buffer filled)
    (hperiod : period ∣ filled) :
    MirroredTo source period (mirrorLoop targetSize rounds buffer filled).1
      (mirrorLoop targetSize rounds buffer filled).2 := by
  have hkept := @mirrorLoop_rec targetSize
    (fun buffer filled ↦ MirroredTo source period buffer filled ∧ period ∣ filled)
    (fun _ _ hfilled ↦ ⟨hfilled.1.double hfilled.2, Nat.dvd_add hfilled.2 hfilled.2⟩)
    rounds buffer filled ⟨hmirrored, hperiod⟩
  exact hkept.1

/-- An image that fills the bank is not repeated. -/
theorem mirrorLoop_of_le {targetSize filled : ℕ} (rounds : ℕ) (buffer : Bytes)
    (hfull : targetSize ≤ filled) :
    mirrorLoop targetSize rounds buffer filled = (buffer, filled) := by
  cases rounds with
  | zero => rfl
  | succ rounds => exact if_neg (not_lt.mpr hfull)

/-- The bound on the rounds is never what ends the loop. -/
theorem mirrorLoop_targetSize_le {targetSize : ℕ} (rounds : ℕ) (buffer : Bytes) {filled : ℕ}
    (hfilled : 0 < filled) (hrounds : targetSize ≤ filled + rounds) :
    targetSize ≤ (mirrorLoop targetSize rounds buffer filled).2 := by
  induction rounds generalizing buffer filled with
  | zero => exact hrounds
  | succ rounds ih =>
    unfold mirrorLoop
    split_ifs with hshort
    · exact ih _ (by omega) (by omega)
    · exact le_of_not_gt hshort

/-! ### The request -/

variable {state : FlashState σ}

section

variable (device : FlashLowLevel σ) (state : FlashState σ) (known : KnownFlashType)
  (buf : Bytes) {size : ℕ} (offset : ℕ) (bank : FlashBank)

/-- The buffer of a pending write holds copies of the image that fill the bank. -/
theorem pendingWrite_mirrored (hsize : 0 < size) :
    MirroredTo buf size (pendingWrite device state known buf size offset bank).biosBuffer
      (pendingWrite device state known buf size offset bank).biosBufferSize ∧
    mirrorTargetSize known bank ≤
      (pendingWrite device state known buf size offset bank).biosBufferSize := by
  refine ⟨MirroredTo.loop _ ?_ (dvd_refl size),
    mirrorLoop_targetSize_le _ _ hsize (Nat.le_add_left _ _)⟩
  intro index hindex
  change index < size at hindex
  rw [Nat.mod_eq_of_lt hindex]
  exact overlay_inside (Nat.zero_le index) (by omega)

theorem pendingWrite_biosBufferSize (hfull : mirrorTargetSize known bank ≤ size) :
    (pendingWrite device state known buf size offset bank).biosBufferSize = size :=
  congrArg Prod.snd (mirrorLoop_of_le _ _ hfull)

end

/-! ### The invariant -/

/-- The range and the buffer of a write job never change. -/
structure BiosFrame (start size : ℕ) (buffer : Bytes) (state : FlashState σ) : Prop where
  task : state.currentFlashTask = .writeBios
  start : state.startingOffset = start
  size : state.biosBufferSize = size
  buffer : state.biosBuffer = buffer

/-- The invariant of the write of an image. -/
inductive BiosJob (start size : ℕ) (buffer content : Bytes) (state : FlashState σ) : Prop
  | working (frame : BiosFrame start size buffer state)
      (hop : state.currentFlashOp = .pendingOp ∨ state.currentFlashOp = .eraseInProgress ∨
        state.currentFlashOp = .writeInProgress)
  | verify (frame : BiosFrame start size buffer state)
      (hop : state.currentFlashOp = .verifyInProgress)
      (hverified : ∀ index < state.currentAddr, content (start + index) = buffer index)
  | completed (frame : BiosFrame start size buffer state)
      (hop : state.currentFlashOp = .completed)
      (hcontent : ∀ index < size, content (start + index) = buffer index)
  | error (hop : state.currentFlashOp = .error)

section

variable {flash : NorFlash device} {start size : ℕ} {buffer content : Bytes}

theorem BiosJob.executeErase (frame : BiosFrame start size buffer state)
    (hop : state.currentFlashOp = .eraseInProgress) :
    BiosJob start size buffer content (executeErase device state) := by
  have houtcome := executeErase_outcome device state
  generalize Flash.executeErase device state = after at houtcome ⊢
  cases houtcome with
  | skip _ =>
    unfold skipErase
    split_ifs with hend
    · exact .working { frame with } (.inr (.inr rfl))
    · exact .working { frame with } (.inr (.inl hop))
  | erase _ _ => exact .working { frame with } (.inr (.inl hop))
  | switch _ _ method _ _ =>
    rw [switchEraseMethod, if_neg (by simp [frame.task])]
    exact .working { frame with } (.inr (.inl hop))
  | giveUp _ _ _ => exact .error rfl

theorem BiosJob.executeWrite (frame : BiosFrame start size buffer state)
    (hop : state.currentFlashOp = .writeInProgress) :
    BiosJob start size buffer content (executeWrite device state) := by
  unfold Flash.executeWrite
  split_ifs with hend hdiffers
  · exact .verify { frame with } rfl nofun
  · exact .working { frame with } (.inr (.inr hop))
  · exact .working { frame with } (.inr (.inr hop))

theorem BiosJob.executeVerify (hready : flash.ready state.chip)
    (frame : BiosFrame start size buffer state) (hop : state.currentFlashOp = .verifyInProgress)
    (hverified : ∀ index < state.currentAddr,
      flash.content state.chip (start + index) = buffer index) :
    BiosJob start size buffer (flash.content state.chip) (executeVerify device state) := by
  unfold Flash.executeVerify
  split_ifs with hend hequal
  · refine .completed { frame with } rfl fun index hindex ↦ hverified index ?_
    have hsize := frame.size
    omega
  · refine .verify { frame with } hop fun index hindex ↦ ?_
    change index < state.currentAddr + 1 at hindex
    by_cases hlast : index = state.currentAddr
    · rw [flash.readByte_eq state.chip hready, FlashState.address, frame.start,
        frame.buffer] at hequal
      rw [hlast, hequal]
    · exact hverified index (by omega)
  · exact .error rfl

/-- Every call of the state machine keeps the invariant. -/
theorem BiosJob.step (hjob : BiosJob start size buffer (flash.content state.chip) state) :
    BiosJob start size buffer (flash.content (executeFlashFSM device state).chip)
      (executeFlashFSM device state) := by
  have hpoll (frame : BiosFrame start size buffer state) :
      BiosFrame start size buffer (pollChip device state) := { frame with }
  cases hjob with
  | working frame hop =>
    rcases hop with hop | hop | hop
    · simp only [executeFlashFSM, hop, frame.task]
      exact .working ⟨rfl, frame.start, frame.size, frame.buffer⟩ (.inr (.inl rfl))
    · rw [executeFlashFSM_erase hop]
      split_ifs with hbusy
      · exact .working { frame with } (.inr (.inl hop))
      · exact BiosJob.executeErase (hpoll frame) hop
    · rw [executeFlashFSM_write hop]
      split_ifs with hbusy
      · exact .working (hpoll frame) (.inr (.inr hop))
      · exact BiosJob.executeWrite (hpoll frame) hop
  | verify frame hop hverified =>
    have hcontent : flash.content (pollChip device state).chip = flash.content state.chip :=
      flash.poll_content state.chip
    rw [← hcontent] at hverified
    rw [executeFlashFSM_verify hop]
    split_ifs with hbusy
    · exact .verify (hpoll frame) hop hverified
    · rw [executeVerify_chip]
      exact BiosJob.executeVerify
        (flash.poll_ready state.chip (Bool.eq_false_iff.mpr hbusy)) (hpoll frame) hop hverified
  | completed frame hop hcontent =>
    rw [executeFlashFSM_completed hop]
    exact .completed frame hop hcontent
  | error hop =>
    rw [executeFlashFSM_error hop]
    exact .error hop

/-- Once the write of a buffer is pending, a completed run has the buffer in the flash. -/
theorem BiosJob.content_of_completed (flash : NorFlash device)
    (hop : state.currentFlashOp = .pendingOp) (htask : state.currentFlashTask = .writeBios)
    (calls : ℕ)
    (hcompleted : ((executeFlashFSM device)^[calls] state).currentFlashOp = .completed) :
    let final := (executeFlashFSM device)^[calls] state
    final.biosBufferSize = state.biosBufferSize ∧
      final.startingOffset = state.startingOffset ∧
      ∀ index < state.biosBufferSize,
        flash.content final.chip (state.startingOffset + index) = state.biosBuffer index := by
  intro final
  have hjob : BiosJob state.startingOffset state.biosBufferSize state.biosBuffer
      (flash.content final.chip) final :=
    Function.Iterate.rec (fun before ↦ BiosJob state.startingOffset state.biosBufferSize
      state.biosBuffer (flash.content before.chip) before)
      (.working ⟨htask, rfl, rfl, rfl⟩ (.inl hop)) (fun _ hbefore ↦ hbefore.step) calls
  cases hjob with
  | completed frame _ hcontent => exact ⟨frame.size, frame.start, hcontent⟩
  | working frame hworking =>
    rcases hworking with hpending | herase | hwrite
    · cases hpending.symm.trans hcompleted
    · cases herase.symm.trans hcompleted
    · cases hwrite.symm.trans hcompleted
  | verify frame hverify => cases hverify.symm.trans hcompleted
  | error herror => cases herror.symm.trans hcompleted

end

/-! ### The two requests -/

theorem userBankFlash_completed (flash : NorFlash device) (inBuf : Bytes) (size offset : ℕ)
    (bank : FlashBank) (hidle : state.currentFlashOp = .idle) (calls : ℕ)
    (hcompleted : ((executeFlashFSM device)^[calls]
      (xblastUserBankFlash device inBuf size offset bank state)).currentFlashOp = .completed) :
    let final := (executeFlashFSM device)^[calls]
      (xblastUserBankFlash device inBuf size offset bank state)
    ∀ index < final.biosBufferSize,
      flash.content final.chip (final.startingOffset + index) = inBuf (index % size) := by
  intro final
  rcases writeBios_cases inBuf size offset bank hidle with
    ⟨known, _, hvalid, hstart⟩ | ⟨_, _, _, _, _, _, hstart⟩
  · have hmirrored := (pendingWrite_mirrored device state known inBuf offset bank
      (checkImageSize_pos hvalid)).1
    have hrequest : xblastUserBankFlash device inBuf size offset bank state =
        pendingWrite device state known inBuf size offset bank := by
      rw [xblastUserBankFlash, hstart]
      rfl
    simp only [final]
    rw [hrequest] at hcompleted ⊢
    obtain ⟨hsize, hoffset, hcontent⟩ := BiosJob.content_of_completed flash rfl rfl calls hcompleted
    intro index hindex
    rw [hsize] at hindex
    rw [hoffset, hcontent index hindex, hmirrored index hindex]
  · have hrequest : (xblastUserBankFlash device inBuf size offset bank state).currentFlashOp =
        .idle := by
      rw [xblastUserBankFlash, hstart]
      exact hidle
    rw [iterate_of_idle device hrequest, hrequest] at hcompleted
    cases hcompleted

/-- The settings offset that an image of the operating system asks for. -/
def imageSettingsOffset (inBuf : Bytes) : ℕ :=
  getXBlastOSSettingStartingOffset (getBiosIdentifierFromBuffer inBuf (256 * 1024))

/-- The image with the settings in the place that it asks for. -/
def imageWithSettings (inBuf : Bytes) (settings : LPCmodSettings) : Bytes :=
  if imageSettingsOffset inBuf ≠ 0 then
    overlay inBuf (imageSettingsOffset inBuf) 3840 settings.withCrc.image
  else inBuf

theorem getBiosIdentifierFromBuffer_congr {buffer other : Bytes}
    (hbytes : ∀ index < 256 * 1024, buffer index = other index) :
    getBiosIdentifierFromBuffer buffer (256 * 1024) =
      getBiosIdentifierFromBuffer other (256 * 1024) := by
  have hidentifier : BiosIdentifier.ofImage buffer = .ofImage other :=
    BiosIdentifier.ofImage_congr fun address _ hhigh ↦ hbytes address (by omega)
  rw [getBiosIdentifierFromBuffer, getBiosIdentifierFromBuffer, hidentifier]

/-- The job that an update starts has the image with the settings in its buffer. -/
theorem injectSettings_pendingWrite (device : FlashLowLevel σ) (state : FlashState σ)
    (known : KnownFlashType) (inBuf : Bytes) (offset : ℕ) :
    let pending := pendingWrite device state known inBuf (256 * 1024) offset .osBank
    let injected := injectSettingsInBuf (getXBlastOSSettingStartingOffset
      (getBiosIdentifierFromBuffer pending.biosBuffer pending.biosBufferSize)) pending
    injected.currentFlashOp = .pendingOp ∧ injected.currentFlashTask = .writeBios ∧
      injected.biosBufferSize = 256 * 1024 ∧ injected.startingOffset = offset ∧
      ∀ index < 256 * 1024,
        injected.biosBuffer index = imageWithSettings inBuf state.lpcmodSettings index := by
  intro pending injected
  have hsize := pendingWrite_biosBufferSize device state known inBuf offset .osBank
    (show mirrorTargetSize known .osBank ≤ 256 * 1024 from le_rfl)
  have hbuffer : ∀ index < 256 * 1024, pending.biosBuffer index = inBuf index := by
    intro index hindex
    have hmirrored := (pendingWrite_mirrored device state known inBuf offset .osBank
      (show 0 < 256 * 1024 by decide)).1 index (by rw [← hsize] at hindex; exact hindex)
    rwa [Nat.mod_eq_of_lt hindex] at hmirrored
  have hoffset : getXBlastOSSettingStartingOffset
      (getBiosIdentifierFromBuffer pending.biosBuffer pending.biosBufferSize) =
        imageSettingsOffset inBuf := by
    rw [hsize, imageSettingsOffset, getBiosIdentifierFromBuffer_congr hbuffer]
  obtain ⟨settings, buffer, hinject⟩ := injectSettingsInBuf_eq (imageSettingsOffset inBuf) pending
  have hinjected :
      injected = { pending with lpcmodSettings := settings, biosBuffer := buffer } := by
    simp only [injected, hoffset, hinject]
  refine ⟨by rw [hinjected]; rfl, by rw [hinjected]; rfl, by rw [hinjected]; exact hsize,
    by rw [hinjected]; rfl, fun index hindex ↦ ?_⟩
  have hlow : imageSettingsOffset inBuf % (256 * 1024) = imageSettingsOffset inBuf := by
    apply Nat.mod_eq_of_lt
    rcases startingOffset_cases (getBiosIdentifierFromBuffer inBuf (256 * 1024)) with hcase | hcase
    · rw [imageSettingsOffset, hcase]
      decide
    · rw [imageSettingsOffset]
      omega
  simp only [injected, hoffset, imageWithSettings]
  by_cases hzero : imageSettingsOffset inBuf ≠ 0
  · rw [injectSettingsInBuf_of_ne hzero, if_pos hzero]
    rw [hsize, hlow]
    exact overlay_congr (hbuffer index hindex)
  · rw [injectSettingsInBuf, if_neg hzero, if_neg hzero, hbuffer index hindex]

/-- An update on an idle machine makes the write of the image with the settings pending, or
leaves the machine idle. -/
theorem xblastOSBankFlash_cases (device : FlashLowLevel σ) (md5 : Digest 16)
    (inBuf : Bytes) (offset : ℕ) (overrideChecks : Bool)
    (hidle : state.currentFlashOp = .idle) :
    let started := xblastOSBankFlash device md5 inBuf (256 * 1024) offset overrideChecks state
    (started.currentFlashOp = .pendingOp ∧ started.currentFlashTask = .writeBios ∧
      started.biosBufferSize = 256 * 1024 ∧ started.startingOffset = offset ∧
      ∀ index < 256 * 1024,
        started.biosBuffer index = imageWithSettings inBuf state.lpcmodSettings index) ∨
    started.currentFlashOp = .idle := by
  intro started
  generalize hchecked : checkOSImage md5 inBuf (256 * 1024) overrideChecks state = checked
  have hop : checked.currentFlashOp = .idle := by
    rw [← hchecked, checkOSImage_eq]
    exact hidle
  have hsettings : checked.lpcmodSettings = state.lpcmodSettings := by
    rw [← hchecked, checkOSImage_eq]
  simp only [started, xblastOSBankFlash, hchecked]
  by_cases hvalid : checked.flashErrorCode = .noError
  · rw [if_pos hvalid]
    rcases writeBios_cases inBuf (256 * 1024) offset .osBank hop with
      ⟨known, _, _, hstart⟩ | ⟨_, _, _, _, _, hfailed, hstart⟩
    · left
      rw [hstart, if_pos rfl, ← hsettings]
      exact injectSettings_pendingWrite device checked known inBuf offset
    · right
      rw [hstart, if_neg hfailed]
      exact hop
  · right
    rw [if_neg hvalid]
    exact hop

theorem osBankFlash_completed (flash : NorFlash device) (md5 : Digest 16)
    (inBuf : Bytes) (offset : ℕ) (overrideChecks : Bool)
    (hidle : state.currentFlashOp = .idle) (calls : ℕ)
    (hcompleted : ((executeFlashFSM device)^[calls] (xblastOSBankFlash device md5 inBuf
      (256 * 1024) offset overrideChecks state)).currentFlashOp = .completed) :
    let final := (executeFlashFSM device)^[calls]
      (xblastOSBankFlash device md5 inBuf (256 * 1024) offset overrideChecks state)
    final.biosBufferSize = 256 * 1024 ∧ ∀ index < 256 * 1024,
      flash.content final.chip (final.startingOffset + index) =
        imageWithSettings inBuf state.lpcmodSettings index := by
  intro final
  rcases xblastOSBankFlash_cases device md5 inBuf offset overrideChecks hidle with
    ⟨hpending, htask, hsize, _, hbuffer⟩ | hstill
  · obtain ⟨hlast, hoffset, hcontent⟩ :=
      BiosJob.content_of_completed flash hpending htask calls hcompleted
    refine ⟨hlast.trans hsize, fun index hindex ↦ ?_⟩
    rw [hoffset, hcontent index (by rw [hsize]; exact hindex), hbuffer index hindex]
  · rw [iterate_of_idle device hstill, hstill] at hcompleted
    cases hcompleted

/-! ### Both requests on a working chip -/

theorem WriteJob.pendingWrite {erases : Prop} {content : Bytes} {length : ℕ}
    (known : KnownFlashType) (buf : Bytes) {size offset : ℕ} (bank : FlashBank) (hsize : 0 < size)
    (hfull : mirrorTargetSize known bank ≤ size) (hrange : offset + size ≤ length)
    (haddr : state.currentAddr = 0) :
    WriteJob erases length content (pendingWrite device state known buf size offset bank) := by
  have hfilled := pendingWrite_biosBufferSize device state known buf offset bank hfull
  refine .pending ⟨.inl rfl, ?_, ?_, (fun htask ↦ by cases htask), rfl⟩ rfl haddr rfl
  · rwa [hfilled]
  · rw [hfilled]
    exact hrange

theorem WriteJob.injectSettingsInBuf {erases : Prop} {content : Bytes} {length : ℕ}
    (offset : ℕ) (hop : state.currentFlashOp = .pendingOp)
    (hjob : WriteJob erases length content state) :
    WriteJob erases length content (injectSettingsInBuf offset state) := by
  obtain ⟨settings, buffer, hinject⟩ := injectSettingsInBuf_eq offset state
  rw [hinject]
  cases hjob with
  | pending frame hpending haddr hfirst => exact .pending { frame with } hpending haddr hfirst
  | read frame hread => cases hop.symm.trans hread
  | erase frame herase => cases hop.symm.trans herase
  | write frame hwrite => cases hop.symm.trans hwrite
  | verify frame hverify => cases hop.symm.trans hverify
  | completed hcompleted => cases hop.symm.trans hcompleted
  | error herror => cases hop.symm.trans herror

/-- The job of an accepted update before the settings are put into its buffer. -/
def pendingOSWrite (device : FlashLowLevel σ) (state : FlashState σ) (known : KnownFlashType)
    (inBuf : Bytes) (offset : ℕ) : FlashState σ :=
  pendingWrite device { state with flashErrorCode := .noError } known inBuf (256 * 1024) offset
    .osBank

/-- An accepted update on an idle machine makes its job pending, with the settings in its buffer. -/
theorem xblastOSBankFlash_eq {known : KnownFlashType} (md5 : Digest 16)
    (inBuf : Bytes) (offset : ℕ) (state : FlashState σ) (hidle : state.currentFlashOp = .idle)
    (hanswer : (device.readDevice state.chip).1 = some known)
    (hvalid : checkImageSize known (256 * 1024) = .noError)
    (haccepted : validateOSImage md5 inBuf (256 * 1024) = .noError) :
    xblastOSBankFlash device md5 inBuf (256 * 1024) offset false state =
      injectSettingsInBuf (getXBlastOSSettingStartingOffset
        (getBiosIdentifierFromBuffer (pendingOSWrite device state known inBuf offset).biosBuffer
          (pendingOSWrite device state known inBuf offset).biosBufferSize))
        (pendingOSWrite device state known inBuf offset) := by
  rw [pendingOSWrite]
  obtain ⟨checked, hchecked, hcode, hidle', hanswer'⟩ : ∃ checked,
      { state with flashErrorCode := .noError } = checked ∧ checked.flashErrorCode = .noError ∧
      checked.currentFlashOp = .idle ∧ (device.readDevice checked.chip).1 = some known :=
    ⟨_, rfl, rfl, hidle, hanswer⟩
  have hresult : checkOSImage md5 inBuf (256 * 1024) false state = checked := by
    rw [checkOSImage, if_pos rfl, haccepted, hchecked]
  simp only [hchecked, xblastOSBankFlash, hresult, if_pos hcode]
  rw [writeBios_eq inBuf offset .osBank hidle' hanswer' hvalid, if_pos rfl]
  rfl

section

variable {flash : NorFlash device} {alive : σ → Prop} {length : ℕ} {known : KnownFlashType}
  (hsteady : SteadyChip flash alive) (herases : ErasesChip flash length alive)
  (buf : Bytes) {offset : ℕ} (state : FlashState σ) (hidle : state.currentFlashOp = .idle)
  (haddr : state.currentAddr = 0) (halive : alive (device.readDevice state.chip).2)
  (hanswer : (device.readDevice state.chip).1 = some known)

include hsteady herases hidle haddr halive hanswer

/-- An image as large as its bank is written to the end by a working chip. -/
theorem exists_calls_userBankFlash_completed {size : ℕ} (bank : FlashBank)
    (hvalid : checkImageSize known size = .noError)
    (hfull : mirrorTargetSize known bank ≤ size) (hrange : offset + size ≤ length) :
    ∃ calls, ((executeFlashFSM device)^[calls]
      (xblastUserBankFlash device buf size offset bank state)).currentFlashOp = .completed := by
  rw [xblastUserBankFlash, writeBios_eq buf offset bank hidle hanswer hvalid]
  have hjob (content : Bytes) :
      WriteJob (ErasesChip flash length alive) length content
        (pendingWrite device state known buf size offset bank) :=
    WriteJob.pendingWrite known buf bank (checkImageSize_pos hvalid) hfull hrange haddr
  exact WriteJob.completes hsteady herases halive (hjob _)

/-- A valid image of the operating system is written to the end by a working chip. -/
theorem exists_calls_osBankFlash_completed (md5 : Digest 16)
    (hvalid : checkImageSize known (256 * 1024) = .noError)
    (haccepted : validateOSImage md5 buf (256 * 1024) = .noError)
    (hrange : offset + 256 * 1024 ≤ length) :
    ∃ calls, ((executeFlashFSM device)^[calls]
      (xblastOSBankFlash device md5 buf (256 * 1024) offset false state)).currentFlashOp =
        .completed := by
  rw [xblastOSBankFlash_eq md5 buf offset state hidle hanswer hvalid haccepted]
  have hjob (content : Bytes) : WriteJob (ErasesChip flash length alive) length content
      (pendingOSWrite device state known buf offset) :=
    WriteJob.pendingWrite known buf .osBank (by decide) le_rfl hrange haddr
  refine WriteJob.completes hsteady herases ?_ ((hjob _).injectSettingsInBuf _ rfl)
  rw [injectSettingsInBuf_chip]
  exact halive

end

/-- An image that was written, by either request, is in the flash once the job has reached
`completed`: the range of the buffer holds copies of the image, but for the settings in the place
that an image of the operating system asks for. Assumes: the machine is idle and the image has
one of the three image sizes. -/
theorem bankFlash_completed (flash : NorFlash device) (md5 : Digest 16)
    (inBuf : Bytes) (size : ℕ)
    (hsize : size = 256 * 1024 ∨ size = 512 * 1024 ∨ size = 1024 * 1024) (state : FlashState σ)
    (hidle : state.currentFlashOp = .idle) (calls : ℕ) :
    (∀ bank,
      let final := (executeFlashFSM device)^[calls]
        (xblastUserBankFlash device inBuf size 0 bank state)
      final.currentFlashOp = .completed → ∀ index < final.biosBufferSize,
        flash.content final.chip (final.startingOffset + index) = inBuf (index % size)) ∧
    ∀ overrideChecks,
      let final := (executeFlashFSM device)^[calls]
        (xblastOSBankFlash device md5 inBuf size 0 overrideChecks state)
      size ≤ 256 * 1024 → final.currentFlashOp = .completed → ∀ index < final.biosBufferSize,
        flash.content final.chip (final.startingOffset + index) =
          if imageSettingsOffset inBuf ≠ 0 ∧ imageSettingsOffset inBuf ≤ index ∧
              index < imageSettingsOffset inBuf + 3840 then
            state.lpcmodSettings.withCrc.image (index - imageSettingsOffset inBuf)
          else inBuf (index % size) := by
  constructor
  · intro bank final hcompleted
    exact userBankFlash_completed flash inBuf size 0 bank hidle calls hcompleted
  · intro overrideChecks final hfits hcompleted index hindex
    obtain rfl : size = 256 * 1024 := by omega
    obtain ⟨hlast, hcontent⟩ :=
      osBankFlash_completed flash md5 inBuf 0 overrideChecks hidle calls hcompleted
    have hlow : index < 256 * 1024 := hlast ▸ hindex
    rw [hcontent index hlow, Nat.mod_eq_of_lt hlow, imageWithSettings]
    by_cases hzero : imageSettingsOffset inBuf ≠ 0
    · rw [if_pos hzero, overlay]
      by_cases hinside : imageSettingsOffset inBuf ≤ index ∧
          index < imageSettingsOffset inBuf + 3840
      · rw [if_pos hinside, if_pos ⟨hzero, hinside⟩]
      · rw [if_neg hinside, if_neg fun hboth ↦ hinside hboth.2]
    · rw [if_neg hzero, if_neg fun hboth ↦ hzero hboth.1]

/-- The same image of 256KB written to a user bank and to the bank of the operating system of a
chip of 512KB. -/
theorem bankFlash_completed_floorImage :
    let device := workingChip
    let state := bootState (populateSettingsStructWithDefault plainHardware) fun _ ↦ 0
    (∃ calls,
      let final := (executeFlashFSM device)^[calls]
        (xblastUserBankFlash device floorImage (256 * 1024) 0 .bank256 state)
      final.currentFlashOp = .completed ∧ ∀ index < final.biosBufferSize,
        final.chip (final.startingOffset + index) = floorImage (index % (256 * 1024))) ∧
    ∃ calls,
      let final := (executeFlashFSM device)^[calls]
        (xblastOSBankFlash device (fun _ _ ↦ 0) floorImage (256 * 1024) 0 false state)
      final.currentFlashOp = .completed ∧ ∀ index < final.biosBufferSize,
        final.chip (final.startingOffset + index) =
          if imageSettingsOffset floorImage ≠ 0 ∧ imageSettingsOffset floorImage ≤ index ∧
              index < imageSettingsOffset floorImage + 3840 then
            state.lpcmodSettings.withCrc.image (index - imageSettingsOffset floorImage)
          else floorImage (index % (256 * 1024)) := by
  intro device state
  have hsteady := quietChip_steady ⟨0x80000, true⟩ fun _ ↦ true
  have herases := quietChip_erases ⟨0x80000, true⟩ (fun _ ↦ true) rfl
  have hcompleted (calls : ℕ) := bankFlash_completed
    (quietFlash ⟨0x80000, true⟩ fun _ ↦ true).toNorFlash (fun _ _ ↦ 0) floorImage (256 * 1024)
    (.inl rfl) state rfl calls
  have haccepted : validateOSImage (fun _ _ ↦ 0) floorImage (256 * 1024) = .noError := by decide
  have hrange : 0 + 256 * 1024 ≤ 0x80000 := by decide
  obtain ⟨userCalls, huser⟩ := exists_calls_userBankFlash_completed hsteady herases floorImage state
    rfl rfl trivial rfl .bank256 (by decide) le_rfl hrange
  obtain ⟨osCalls, hos⟩ := exists_calls_osBankFlash_completed hsteady herases floorImage state
    rfl rfl trivial rfl (fun _ _ ↦ 0) (by decide) haccepted hrange
  exact ⟨⟨userCalls, huser, (hcompleted userCalls).1 .bank256 huser⟩,
    osCalls, hos, (hcompleted osCalls).2 false le_rfl hos⟩

end XBlast.Flash
