import XBlast.Foundation.Iteration
import XBlast.Flash.Step

/-!
# The end of a write job

A job that writes, be it an image or the settings, ends on every chip that is never busy and
whose cells are sound. The erase phase leaves every byte behind it programmable, the write phase
every byte behind it equal to the buffer, and each call brings the job nearer to its end. The job
ends in `completed` when the chip also executes the chip erase.
-/

set_option autoImplicit false
set_option relaxedAutoImplicit false

namespace XBlast.Flash

open Foundation

variable {σ : Type*} {device : FlashLowLevel σ}

/-! ### Programming a byte -/

theorem and_eq_of_canWrite {flashByte bufferByte : UInt8}
    (hwritable : canWrite flashByte bufferByte = true) :
    flashByte &&& bufferByte = bufferByte := by
  have hzero : ~~~flashByte &&& bufferByte = 0 := eq_of_beq hwritable
  apply UInt8.toBitVec_inj.mp
  ext bit hbit
  have hclear : (~~~flashByte &&& bufferByte).toBitVec[bit] = false := by
    rw [hzero]
    simp
  simp only [UInt8.toBitVec_and, UInt8.toBitVec_not, BitVec.getElem_and,
    BitVec.getElem_not] at hclear ⊢
  cases hflash : flashByte.toBitVec[bit] with
  | true => simp
  | false => simpa [hflash] using hclear.symm

theorem canWrite_self (byte : UInt8) : canWrite byte byte = true := by
  simp [canWrite]

/-- An erase command leaves a byte programmable with whatever it could be programmed with. -/
theorem canWrite_erase (flash : NorFlash device) {chip : σ} (hready : flash.ready chip)
    (method : EraseSequenceMethod) (address position : ℕ) {bufferByte : UInt8}
    (hwritable : canWrite (flash.content chip position) bufferByte = true) :
    canWrite (flash.content (device.initiateErase method address chip) position) bufferByte =
      true := by
  rcases flash.erase_content chip hready method address position with hsame | herased
  · rw [hsame, hwritable]
  · rw [herased, canWrite_erased]

/-! ### The invariant -/

/-- Chips that are never busy and have sound cells, and that stay so under the commands of a
job. -/
structure SteadyChip (flash : NorFlash device) (alive : σ → Prop) : Prop where
  neverBusy : ∀ chip, alive chip → (device.deviceIsBusy chip).1 = false
  poll : ∀ chip, alive chip → alive (device.deviceIsBusy chip).2
  write : ∀ chip, alive chip → ∀ byte address, alive (device.writeByte byte address chip)
  erase : ∀ chip, alive chip → ∀ method address, alive (device.initiateErase method address chip)
  writeByte_and : ∀ chip, alive chip → flash.ready chip → ∀ byte address,
    flash.content (device.writeByte byte address chip) address =
      flash.content chip address &&& byte

/-- The chip erase sets the whole length to `0xFF`. -/
def ErasesChip (flash : NorFlash device) (length : ℕ) (alive : σ → Prop) : Prop :=
  ∀ chip, alive chip → flash.ready chip → ∀ address < length,
    flash.content (device.inititiateChipErase chip) address = 0xFF

section

variable {flash : NorFlash device} {alive : σ → Prop} (hsteady : SteadyChip flash alive)
  {state : FlashState σ} (halive : alive state.chip)

include hsteady halive

theorem SteadyChip.step : alive (executeFlashFSM device state).chip := by
  rcases executeFlashFSM_chip device state with ⟨_, hchip⟩ | hchip
  · rwa [hchip]
  · rw [hchip]
    cases stepCommand device state with
    | none => exact hsteady.poll _ halive
    | some command =>
      cases command with
      | write byte address => exact hsteady.write _ (hsteady.poll _ halive) byte address
      | erase method address => exact hsteady.erase _ (hsteady.poll _ halive) method address

theorem SteadyChip.run (calls : ℕ) : alive ((executeFlashFSM device)^[calls] state).chip :=
  Function.Iterate.rec (fun after : FlashState σ ↦ alive after.chip) halive
    (fun _ ↦ hsteady.step) calls

end

/-- Bits that are clear stay clear as long as the chip ignores the erase commands. -/
theorem SteadyChip.clear_step {flash : SectoredFlash device} {alive : σ → Prop}
    (hsteady : SteadyChip flash.toNorFlash alive) {state : FlashState σ}
    (halive : alive state.chip)
    (hignores : ∀ method address, stepCommand device state = some (.erase method address) →
      ¬ flash.executes method (device.deviceIsBusy state.chip).2 address)
    {position : ℕ} {bits : UInt8} (hclear : flash.content state.chip position &&& bits = 0) :
    flash.content (executeFlashFSM device state).chip position &&& bits = 0 := by
  have hpoll := congrFun (flash.poll_content state.chip) position
  rcases executeFlashFSM_content flash.toNorFlash state with
    ⟨_, hsame⟩ | ⟨command, hcommand, hready, hchip⟩
  · rw [hsame, hclear]
  · rw [hchip]
    rw [← hpoll] at hclear
    cases command with
    | write byte address =>
      change flash.content (device.writeByte _ _ _) _ &&& bits = 0
      by_cases hposition : position = address
      · rw [hposition] at hclear ⊢
        rw [hsteady.writeByte_and _ (hsteady.poll _ halive) hready, UInt8.and_assoc,
          UInt8.and_comm byte bits, ← UInt8.and_assoc, hclear, UInt8.zero_and]
      · rw [flash.writeByte_other _ hready _ _ _ hposition, hclear]
    | erase method address =>
      change flash.content (device.initiateErase _ _ _) _ &&& bits = 0
      rw [flash.erase_ignored _ hready _ _ (hignores method address hcommand), hclear]

/-- What holds in every phase of a write job. -/
structure WriteFrame (length : ℕ) (state : FlashState σ) : Prop where
  task : state.currentFlashTask = .writeBios ∨ state.currentFlashTask = .writeSettings
  size : 0 < state.biosBufferSize
  range : state.startingOffset + state.biosBufferSize ≤ length
  settings : state.currentFlashTask = .writeSettings →
    state.startingOffset < 0x40000 ∧ 0x40000 ≤ length
  busyCount : state.eraseBusyCount = 0

/-- Every byte of the buffer before an index can be programmed. -/
def WritableTo (content : Bytes) (state : FlashState σ) (limit : ℕ) : Prop :=
  ∀ index < limit,
    canWrite (content (state.startingOffset + index)) (state.biosBuffer index) = true

/-- Every byte of the buffer before an index is in the flash. -/
def WrittenTo (content : Bytes) (state : FlashState σ) (limit : ℕ) : Prop :=
  ∀ index < limit, content (state.startingOffset + index) = state.biosBuffer index

/-- The invariant of a write job on a steady chip. It fails only when the chip erase does. -/
inductive WriteJob (erases : Prop) (length : ℕ) (content : Bytes) (state : FlashState σ) : Prop
  | pending (frame : WriteFrame length state) (hop : state.currentFlashOp = .pendingOp)
      (haddr : state.currentAddr = 0) (hfirst : state.firstEraseTry = true)
  | read (frame : WriteFrame length state) (hop : state.currentFlashOp = .readInProgress)
      (htask : state.currentFlashTask = .writeSettings)
      (haddr : state.currentAddr < state.biosBufferSize) (hfirst : state.firstEraseTry = true)
  | erase (frame : WriteFrame length state) (hop : state.currentFlashOp = .eraseInProgress)
      (haddr : state.currentAddr < state.biosBufferSize)
      (hwritable : WritableTo content state state.currentAddr)
      (hretry : erases → state.firstEraseTry = false → state.eraseSequenceMethod = .chip →
        content state.address = 0xFF)
  | write (frame : WriteFrame length state) (hop : state.currentFlashOp = .writeInProgress)
      (haddr : state.currentAddr ≤ state.biosBufferSize)
      (hwritable : WritableTo content state state.biosBufferSize)
      (hwritten : WrittenTo content state state.currentAddr)
  | verify (frame : WriteFrame length state) (hop : state.currentFlashOp = .verifyInProgress)
      (haddr : state.currentAddr ≤ state.biosBufferSize)
      (hwritten : WrittenTo content state state.biosBufferSize)
  | completed (hop : state.currentFlashOp = .completed)
  | error (hop : state.currentFlashOp = .error) (hfails : ¬ erases)

/-- A bound on the calls that a write job still needs. The erase can be escalated to each method of
a higher rank. -/
def writeMeasure (length : ℕ) (state : FlashState σ) : ℕ :=
  (2 - state.eraseSequenceMethod.rank) * (8 * (length + 1)) +
    match state.currentFlashOp with
    | .pendingOp => 7 * (length + 1)
    | .readInProgress => 6 * (length + 1) + (state.biosBufferSize - state.currentAddr)
    | .eraseInProgress =>
      3 * (length + 1) + 2 * (state.biosBufferSize - state.currentAddr) +
        if state.firstEraseTry then 1 else 0
    | .writeInProgress => length + 2 + (state.biosBufferSize - state.currentAddr)
    | .verifyInProgress => 1 + (state.biosBufferSize - state.currentAddr)
    | _ => 0

/-! ### One call in each phase -/

section

variable {flash : NorFlash device} {alive : σ → Prop} {length : ℕ} {state : FlashState σ}

/-- A call that keeps the invariant and lowers the bound. -/
def Advances (flash : NorFlash device) (alive : σ → Prop) (length : ℕ)
    (before after : FlashState σ) : Prop :=
  WriteJob (ErasesChip flash length alive) length (flash.content after.chip) after ∧
    writeMeasure length after < writeMeasure length before

section

variable (frame : WriteFrame length state)

include frame

theorem advances_executeRead (hop : state.currentFlashOp = .readInProgress)
    (htask : state.currentFlashTask = .writeSettings)
    (haddr : state.currentAddr < state.biosBufferSize) (hfirst : state.firstEraseTry = true) :
    Advances flash alive length state (executeRead device state) := by
  have hrange := frame.range
  unfold executeRead
  split_ifs with hend
  · obtain ⟨settings, buffer, hinject⟩ := injectSettingsInBuf_eq _ (storeCurrent device state)
    rw [finishRead_writeSettings _ (storeCurrent device state) htask, hinject]
    refine ⟨.erase { frame with } rfl frame.size ?_ ?_, ?_⟩
    · exact nofun
    · exact fun _ hfalse ↦ absurd (hfirst.symm.trans hfalse) (by decide)
    · simp only [writeMeasure, hop, storeCurrent, hfirst, if_true]
      omega
  · refine ⟨.read { frame with } hop htask (lt_of_not_ge hend) hfirst, ?_⟩
    simp only [writeMeasure, hop, storeCurrent]
    omega

theorem advances_executeWrite (hsteady : SteadyChip flash alive) (halive : alive state.chip)
    (hready : flash.ready state.chip) (hop : state.currentFlashOp = .writeInProgress)
    (haddr : state.currentAddr ≤ state.biosBufferSize)
    (hwritable : WritableTo (flash.content state.chip) state state.biosBufferSize)
    (hwritten : WrittenTo (flash.content state.chip) state state.currentAddr) :
    Advances flash alive length state (executeWrite device state) := by
  have hrange := frame.range
  have hread := flash.readByte_eq state.chip hready state.address
  unfold executeWrite
  split_ifs with hend hdiffers
  · have hall : state.currentAddr = state.biosBufferSize := le_antisymm haddr hend
    refine ⟨.verify { frame with } rfl (Nat.zero_le _) (hall ▸ hwritten), ?_⟩
    simp only [writeMeasure, hop]
    omega
  · have hcurrent := and_eq_of_canWrite (hwritable state.currentAddr (lt_of_not_ge hend))
    have hafter (index : ℕ) : flash.content (device.writeByte (state.biosBuffer state.currentAddr)
        state.address state.chip) (state.startingOffset + index) =
          if index = state.currentAddr then state.biosBuffer index
          else flash.content state.chip (state.startingOffset + index) := by
      split_ifs with hlast
      · rw [hlast]
        exact (hsteady.writeByte_and state.chip halive hready _ _).trans hcurrent
      · refine flash.writeByte_other state.chip hready _ _ _ ?_
        unfold FlashState.address
        omega
    refine ⟨.write { frame with } hop (lt_of_not_ge hend) ?_ ?_, ?_⟩
    · intro index hindex
      refine (congrArg (canWrite · (state.biosBuffer index)) (hafter index)).trans ?_
      split_ifs with hlast
      · exact canWrite_self (state.biosBuffer index)
      · exact hwritable index hindex
    · intro index hindex
      change index < state.currentAddr + 1 at hindex
      refine (hafter index).trans ?_
      split_ifs with hlast
      · rfl
      · exact hwritten index (by omega)
    · simp only [writeMeasure, hop]
      omega
  · refine ⟨.write { frame with } hop (lt_of_not_ge hend) hwritable ?_, ?_⟩
    · intro index hindex
      change index < state.currentAddr + 1 at hindex
      by_cases hlast : index = state.currentAddr
      · rw [hlast, ← not_ne_iff.mp hdiffers, hread]
        rfl
      · exact hwritten index (by omega)
    · simp only [writeMeasure, hop]
      omega

theorem advances_executeVerify (hready : flash.ready state.chip)
    (hop : state.currentFlashOp = .verifyInProgress)
    (hwritten : WrittenTo (flash.content state.chip) state state.biosBufferSize) :
    Advances flash alive length state (executeVerify device state) := by
  unfold executeVerify
  split_ifs with hend hequal
  · refine ⟨.completed rfl, ?_⟩
    simp only [writeMeasure, hop]
    omega
  · refine ⟨.verify { frame with } hop (lt_of_not_ge hend) hwritten, ?_⟩
    simp only [writeMeasure, hop]
    omega
  · refine absurd ?_ hequal
    rw [flash.readByte_eq state.chip hready]
    exact hwritten state.currentAddr (lt_of_not_ge hend)

end

/-! ### The erase phase -/

/-- The range that a larger unit reads back lies in the first 256KB. -/
theorem readBackRange_bounds (flashType : KnownFlashType) {method : EraseSequenceMethod}
    (hmethod : method ≠ .sector) {offset : ℕ} (hoffset : offset < 0x40000) :
    (UInt32.ofNat offset &&& ~~~(UInt32.ofNat (getEraseMethodSize flashType method) - 1)).toNat +
      getEraseMethodSize flashType method ≤ 0x40000 ∧
    0 < getEraseMethodSize flashType method := by
  cases method with
  | sector => exact absurd rfl hmethod
  | block =>
    rw [getEraseMethodSize_block, alignDown_toNat _ _ (show _ = 2 ^ 16 - 1 by decide) (by decide),
      UInt32.toNat_ofNat_of_lt' (show offset < 2 ^ 32 by omega)]
    omega
  | chip =>
    rw [getEraseMethodSize_chip, alignDown_toNat _ _ (show _ = 2 ^ 18 - 1 by decide) (by decide),
      UInt32.toNat_ofNat_of_lt' (show offset < 2 ^ 32 by omega)]
    omega

theorem advances_skipErase (frame : WriteFrame length state)
    (hop : state.currentFlashOp = .eraseInProgress)
    (haddr : state.currentAddr < state.biosBufferSize)
    (hwritable : WritableTo (flash.content state.chip) state (state.currentAddr + 1)) :
    Advances flash alive length state (skipErase state) := by
  have hrange := frame.range
  unfold skipErase
  split_ifs with hend
  · have hall : state.currentAddr + 1 = state.biosBufferSize := by omega
    refine ⟨.write { frame with busyCount := rfl } rfl (Nat.zero_le _) (hall ▸ hwritable) ?_, ?_⟩
    · exact nofun
    · simp only [writeMeasure, hop]
      omega
  · refine ⟨.erase { frame with busyCount := rfl } hop (lt_of_not_ge hend) hwritable ?_, ?_⟩
    · exact fun _ hfalse ↦ by cases hfalse
    · simp only [writeMeasure, hop, if_true]
      omega

section

variable (halive : alive state.chip) (hready : flash.ready state.chip)
  (frame : WriteFrame length state) (hop : state.currentFlashOp = .eraseInProgress)
  (haddr : state.currentAddr < state.biosBufferSize)
  (hwritable : WritableTo (flash.content state.chip) state state.currentAddr)

include halive hready frame hop haddr hwritable

theorem eraseCurrent_writeJob :
    WriteJob (ErasesChip flash length alive) length (flash.content (eraseCurrent device state).chip)
      (eraseCurrent device state) := by
  have hrange := frame.range
  refine .erase { frame with } hop haddr ?_ ?_
  · intro index hindex
    exact canWrite_erase flash hready _ _ _ (hwritable index hindex)
  · intro herases _ hmethod
    change state.eraseSequenceMethod = .chip at hmethod
    change flash.content (device.initiateErase state.eraseSequenceMethod _ _) _ = 0xFF
    rw [hmethod]
    refine herases state.chip halive hready state.address ?_
    unfold FlashState.address
    omega

/-- Moving on to a larger unit brings the job nearer to its end, since a method is left behind. -/
theorem advances_switchEraseMethod {method : EraseSequenceMethod}
    (hrank : state.eraseSequenceMethod.rank < method.rank) :
    Advances flash alive length state (switchEraseMethod device method state) := by
  have hlower : (2 - method.rank) * (8 * (length + 1)) + 8 * (length + 1) ≤
      (2 - state.eraseSequenceMethod.rank) * (8 * (length + 1)) := by
    have hle := method.rank_le
    rw [← Nat.succ_mul]
    exact Nat.mul_le_mul_right _ (by omega)
  unfold switchEraseMethod
  split_ifs with htask
  · obtain ⟨hlow, hlength⟩ := frame.settings htask
    obtain ⟨hstart, hsize⟩ := readBackRange_bounds state.flashType (ne_sector_of_rank_lt hrank) hlow
    refine ⟨.read ⟨.inr htask, ?_, ?_, fun _ ↦ ⟨?_, hlength⟩, rfl⟩ rfl htask ?_ rfl, ?_⟩
    · exact hsize
    · exact hstart.trans hlength
    · exact lt_of_lt_of_le (Nat.lt_add_of_pos_right hsize) hstart
    · exact hsize
    · simp only [writeMeasure, evaluateReadBackRange, hop]
      omega
  · refine ⟨eraseCurrent_writeJob halive hready { frame with busyCount := rfl } hop haddr
      hwritable, ?_⟩
    simp only [writeMeasure, eraseCurrent, hop, Bool.false_eq_true, if_false]
    omega

theorem advances_executeErase
    (hretry : ErasesChip flash length alive → state.firstEraseTry = false →
      state.eraseSequenceMethod = .chip → flash.content state.chip state.address = 0xFF) :
    Advances flash alive length state (executeErase device state) := by
  have hread := flash.readByte_eq state.chip hready state.address
  have hnotBusy : state.eraseBusyCount < 3 := by
    rw [frame.busyCount]
    decide
  have houtcome := executeErase_outcome device state
  generalize executeErase device state = after at houtcome ⊢
  cases houtcome with
  | skip hcurrent =>
    refine advances_skipErase frame hop haddr fun index hindex ↦ ?_
    by_cases hlast : index = state.currentAddr
    · rw [FlashState.writable, hread] at hcurrent
      rw [hlast]
      exact hcurrent
    · exact hwritable index (by omega)
  | erase _ hran =>
    have hfirst : state.firstEraseTry = true := by
      by_contra hfalse
      exact hran ⟨Bool.eq_false_iff.mpr hfalse, hnotBusy⟩
    refine ⟨eraseCurrent_writeJob halive hready frame hop haddr hwritable, ?_⟩
    simp only [writeMeasure, eraseCurrent, hop, hfirst, if_true, Bool.false_eq_true, if_false]
    omega
  | switch _ _ method hrank _ =>
    exact advances_switchEraseMethod halive hready frame hop haddr hwritable hrank
  | giveUp hcurrent hnever hmethod =>
    refine ⟨.error rfl fun herases ↦ ?_, ?_⟩
    · rw [FlashState.writable, hread, hretry herases hnever.1 hmethod, canWrite_erased] at hcurrent
      cases hcurrent
    · simp only [writeMeasure, hop]
      omega

end

/-! ### The whole job -/

section

variable (hsteady : SteadyChip flash alive) (halive : alive state.chip)
  (hjob : WriteJob (ErasesChip flash length alive) length (flash.content state.chip) state)

include hsteady halive hjob

theorem WriteJob.advances (hopen : ¬ state.Ended) :
    Advances flash alive length state (executeFlashFSM device state) := by
  have hfree : ¬ (device.deviceIsBusy state.chip).1 = true := by
    rw [hsteady.neverBusy _ halive]
    decide
  have hcontent : flash.content (pollChip device state).chip = flash.content state.chip :=
    flash.poll_content state.chip
  have hpolled : alive (pollChip device state).chip := hsteady.poll state.chip halive
  have hready : flash.ready (pollChip device state).chip :=
    flash.poll_ready state.chip (hsteady.neverBusy state.chip halive)
  cases hjob with
  | pending frame hop haddr hfirst =>
    have hrange := frame.range
    rcases frame.task with htask | htask
    · have hstep : executeFlashFSM device state =
          { state with currentFlashOp := .eraseInProgress } := by
        simp only [executeFlashFSM, hop, htask]
      rw [hstep]
      refine ⟨.erase { frame with } rfl (haddr ▸ frame.size) ?_ ?_, ?_⟩
      · intro index hindex
        change index < state.currentAddr at hindex
        omega
      · exact fun _ hfalse ↦ absurd (hfirst.symm.trans hfalse) (by decide)
      · simp only [writeMeasure, hop, hfirst, if_true]
        omega
    · rw [executeFlashFSM_pending hop htask]
      refine ⟨.read { frame with } rfl htask (haddr ▸ frame.size) hfirst, ?_⟩
      simp only [writeMeasure, hop]
      omega
  | read frame hop htask haddr hfirst =>
    rw [executeFlashFSM_read hop, if_neg hfree]
    exact advances_executeRead { frame with } hop htask haddr hfirst
  | erase frame hop haddr hwritable hretry =>
    rw [executeFlashFSM_erase hop, if_neg hfree]
    exact advances_executeErase hpolled hready { frame with } hop haddr
      (hcontent.symm ▸ hwritable) (hcontent.symm ▸ hretry)
  | write frame hop haddr hwritable hwritten =>
    rw [executeFlashFSM_write hop, if_neg hfree]
    exact advances_executeWrite { frame with } hsteady hpolled hready hop haddr
      (hcontent.symm ▸ hwritable) (hcontent.symm ▸ hwritten)
  | verify frame hop haddr hwritten =>
    rw [executeFlashFSM_verify hop, if_neg hfree]
    exact advances_executeVerify { frame with } hready hop (hcontent.symm ▸ hwritten)
  | completed hop => exact absurd (.inl hop) hopen
  | error hop => exact absurd (.inr hop) hopen

/-- A write job on a steady chip ends, and it only fails when the chip erase does. -/
theorem WriteJob.ends :
    ∃ calls, let final := (executeFlashFSM device)^[calls] state
      final.currentFlashOp = .completed ∨
        final.currentFlashOp = .error ∧ ¬ ErasesChip flash length alive := by
  obtain ⟨calls, ⟨_, hend⟩, hended⟩ := exists_iterate_of_measure (executeFlashFSM device)
    (fun before ↦ alive before.chip ∧
      WriteJob (ErasesChip flash length alive) length (flash.content before.chip) before)
    FlashState.Ended (writeMeasure length) (fun before hbefore hopen ↦
      have hnext := WriteJob.advances hsteady hbefore.1 hbefore.2 hopen
      ⟨⟨hsteady.step hbefore.1, hnext.1⟩, hnext.2⟩) ⟨halive, hjob⟩
  refine ⟨calls, ?_⟩
  rcases hended with hcompleted | herror
  · exact .inl hcompleted
  · right
    cases hend with
    | error _ hfails => exact ⟨herror, hfails⟩
    | pending frame hop | read frame hop | erase frame hop => cases hop.symm.trans herror
    | write frame hop | verify frame hop | completed hop => cases hop.symm.trans herror

end

/-- A write job reaches `completed` when the chip also executes the chip erase. -/
theorem WriteJob.completes (hsteady : SteadyChip flash alive)
    (herases : ErasesChip flash length alive) (halive : alive state.chip)
    (hjob : WriteJob (ErasesChip flash length alive) length (flash.content state.chip) state) :
    ∃ calls, ((executeFlashFSM device)^[calls] state).currentFlashOp = .completed := by
  obtain ⟨calls, hcompleted | ⟨_, hfails⟩⟩ := hjob.ends hsteady halive
  · exact ⟨calls, hcompleted⟩
  · exact absurd herases hfails

end

end XBlast.Flash
