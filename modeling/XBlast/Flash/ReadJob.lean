import Mathlib.Data.Prod.Lex
import XBlast.Flash.Step
import XBlast.Foundation.Iteration

/-!
# Reading the settings

A settings read copies the structure from the flash into the buffer and ends in `completed`. It
gives the chip no command, and it ends on every chip that is at last ready after any poll.
-/

set_option autoImplicit false
set_option relaxedAutoImplicit false

namespace XBlast.Flash

open Foundation

variable {σ : Type*} {device : FlashLowLevel σ}

/-! ### The invariant -/

structure ReadFrame (flash : NorFlash device) (offset : ℕ) (origin : Bytes)
    (state : FlashState σ) : Prop where
  task : state.currentFlashTask = .readSettings
  start : state.startingOffset = offset
  size : state.biosBufferSize = 3840
  content : flash.content state.chip = origin

/-- The invariant of a read of the settings at an offset. -/
inductive ReadJob (flash : NorFlash device) (offset : ℕ) (origin : Bytes)
    (state : FlashState σ) : Prop
  | pending (frame : ReadFrame flash offset origin state)
      (hop : state.currentFlashOp = .pendingOp) (haddr : state.currentAddr = 0)
  | read (frame : ReadFrame flash offset origin state)
      (hop : state.currentFlashOp = .readInProgress) (haddr : state.currentAddr < 3840)
      (hbuffer : ∀ index < state.currentAddr,
        state.biosBuffer index = origin (state.startingOffset + index))
  | completed (frame : ReadFrame flash offset origin state)
      (hop : state.currentFlashOp = .completed)
      (hbuffer : ∀ index < 3840, state.biosBuffer index = origin (offset + index))

section

variable {flash : NorFlash device} {offset : ℕ} {origin : Bytes} {state : FlashState σ}

/-- The read phase on a chip that is not busy. -/
theorem ReadJob.executeRead (hready : flash.ready state.chip)
    (frame : ReadFrame flash offset origin state)
    (hop : state.currentFlashOp = .readInProgress) (haddr : state.currentAddr < 3840)
    (hbuffer : ∀ index < state.currentAddr,
      state.biosBuffer index = origin (state.startingOffset + index)) :
    ReadJob flash offset origin (executeRead device state) := by
  have hbyte : device.readByte state.chip state.address = origin state.address := by
    rw [flash.readByte_eq state.chip hready, frame.content]
  have hstored := storeCurrent_buffer hbyte hbuffer
  unfold Flash.executeRead
  split_ifs with hend
  · have htask : (storeCurrent device state).currentFlashTask = .readSettings := frame.task
    simp only [finishRead, htask]
    refine .completed { frame with task := rfl } rfl fun index hindex ↦ ?_
    rw [frame.size] at hend
    rw [← frame.start]
    exact hstored index (by omega)
  · rw [frame.size] at hend
    refine .read { frame with } hop ?_ hstored
    change state.currentAddr + 1 < 3840
    omega

section

variable (hjob : ReadJob flash offset origin state)

include hjob

/-- Every call of the state machine keeps the invariant. -/
theorem ReadJob.step : ReadJob flash offset origin (executeFlashFSM device state) := by
  have hframe (frame : ReadFrame flash offset origin state) :
      ReadFrame flash offset origin (pollChip device state) :=
    { frame with content := (flash.poll_content state.chip).trans frame.content }
  cases hjob with
  | pending frame hop haddr =>
    simp only [executeFlashFSM, hop, frame.task]
    refine .read { frame with task := rfl } rfl ?_ fun index hindex ↦ ?_
    · change state.currentAddr < 3840
      omega
    · change index < state.currentAddr at hindex
      omega
  | read frame hop haddr hbuffer =>
    rw [executeFlashFSM_read hop]
    split_ifs with hbusy
    · exact .read (hframe frame) hop haddr hbuffer
    · exact ReadJob.executeRead (flash.poll_ready state.chip (Bool.eq_false_iff.mpr hbusy))
        (hframe frame) hop haddr hbuffer
  | completed frame hop hbuffer =>
    rw [executeFlashFSM_completed hop]
    exact .completed frame hop hbuffer

theorem ReadJob.run (calls : ℕ) :
    ReadJob flash offset origin ((executeFlashFSM device)^[calls] state) :=
  Function.Iterate.rec _ hjob (fun _ ↦ ReadJob.step) calls

/-- A completed read has the settings in the buffer. -/
theorem ReadJob.of_completed (hcompleted : state.currentFlashOp = .completed) :
    flash.content state.chip = origin ∧ state.currentFlashTask = .readSettings ∧
      ∀ index < 3840, state.biosBuffer index = origin (offset + index) := by
  cases hjob with
  | pending frame hop | read frame hop => cases hop.symm.trans hcompleted
  | completed frame hop hbuffer => exact ⟨frame.content, frame.task, hbuffer⟩

end

end

/-! ### The end of the read -/

/-- A chip that answers when it is ready, and that is ready at last when it is polled. -/
structure Responsive (flash : NorFlash device) : Prop where
  identifies : ∀ chip, flash.ready chip → (device.readDevice chip).1.isSome = true
  settles : ∀ chip, ∃ polls,
    (device.deviceIsBusy ((fun polled ↦ (device.deviceIsBusy polled).2)^[polls] chip)).1 = false

section

variable {flash : NorFlash device} {offset : ℕ} {origin : Bytes} {state : FlashState σ}

variable (hresponsive : Responsive flash)

/-- How often a chip still answers that it is busy. -/
noncomputable def busyPolls (chip : σ) : ℕ :=
  Nat.find (hresponsive.settles chip)

theorem busyPolls_poll {chip : σ} (hbusy : (device.deviceIsBusy chip).1 = true) :
    busyPolls hresponsive (device.deviceIsBusy chip).2 < busyPolls hresponsive chip := by
  have hsettled := Nat.find_spec (hresponsive.settles chip)
  cases hpolls : Nat.find (hresponsive.settles chip) with
  | zero =>
    rw [hpolls] at hsettled
    cases hbusy.symm.trans hsettled
  | succ polls =>
    rw [hpolls, Function.iterate_succ_apply] at hsettled
    rw [busyPolls, busyPolls, hpolls]
    exact Nat.lt_succ_of_le (Nat.find_min' _ hsettled)

/-- The calls that a read still needs when the chip is not busy. -/
def readCallsLeft (state : FlashState σ) : ℕ :=
  match state.currentFlashOp with
  | .pendingOp => 3841
  | .readInProgress => 3840 - state.currentAddr
  | _ => 0

noncomputable def readMeasure (state : FlashState σ) : ℕ ×ₗ ℕ :=
  toLex (readCallsLeft state, busyPolls hresponsive state.chip)

theorem ReadJob.advances (hjob : ReadJob flash offset origin state)
    (hopen : state.currentFlashOp ≠ .completed) :
    readMeasure hresponsive (executeFlashFSM device state) < readMeasure hresponsive state := by
  cases hjob with
  | pending frame hop haddr =>
    refine Prod.Lex.toLex_lt_toLex.mpr (.inl ?_)
    simp only [readCallsLeft, executeFlashFSM, hop, frame.task]
    omega
  | read frame hop haddr hbuffer =>
    have hleft : readCallsLeft state = 3840 - state.currentAddr := by
      simp only [readCallsLeft, hop]
    rw [executeFlashFSM_read hop]
    split_ifs with hbusy
    · exact Prod.Lex.toLex_lt_toLex.mpr (.inr ⟨rfl, busyPolls_poll hresponsive hbusy⟩)
    · refine Prod.Lex.toLex_lt_toLex.mpr (.inl ?_)
      rw [hleft, Flash.executeRead]
      have htask : (storeCurrent device (pollChip device state)).currentFlashTask =
          .readSettings := frame.task
      split_ifs with hend
      · simp only [readCallsLeft, finishRead, htask]
        omega
      · simp only [readCallsLeft, storeCurrent, pollChip, hop]
        omega
  | completed frame hop => exact absurd hop hopen

theorem ReadJob.completes (hresponsive : Responsive flash)
    (hjob : ReadJob flash offset origin state) :
    ∃ calls, ((executeFlashFSM device)^[calls] state).currentFlashOp = .completed := by
  obtain ⟨calls, _, hcompleted⟩ := exists_iterate_of_measure (executeFlashFSM device)
    (fun before ↦ ReadJob flash offset origin before)
    (fun before ↦ before.currentFlashOp = .completed) (readMeasure hresponsive)
    (fun before hbefore hopen ↦ ⟨hbefore.step, hbefore.advances hresponsive hopen⟩) hjob
  exact ⟨calls, hcompleted⟩

end

end XBlast.Flash
