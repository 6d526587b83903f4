import XBlast.Lcd.WireStream

/-!
# The ring buffer of the display as a queue

Two positions in a ring of bytes and a flag stand for a queue of 256 operations. `queueEvents` is
what a run does to the queue, by the tests that the code makes: `putInBuf` finds room or drops its
operation, and `updateLCDRingBuffer` calls `getFromBuf` or not. `lcdRingBuffer_fifo` says that these
are the steps of a queue of that capacity, and that the ring holds what such a queue holds.
-/

set_option autoImplicit false
set_option relaxedAutoImplicit false

namespace XBlast.Lcd

open Foundation

/-- Whether an update calls `getFromBuf`. -/
def callsGetFromBuf (now : UInt32) (state : LcdState) : Prop :=
  state.currentOp.delayInUs.toUInt32 ≤ getElapseMicroSecondsSince state.systickStartValue now ∧
    state.internalOp = .readyForNewOp ∧
    (state.ring.outPos ≠ state.ring.inPos ∨ state.ring.rollOver = true)

instance (now : UInt32) (state : LcdState) : Decidable (callsGetFromBuf now state) :=
  inferInstanceAs (Decidable (_ ∧ _))

/-- What a call does to the queue. -/
def LcdEvent.queueEvent (state : LcdState) : LcdEvent → QueueEvent DataOperation
  | .putInLCDRingBuffer data RS delay =>
    if noSpaceLeft state.ring then .dropped ⟨data, RS, delay⟩ else .appended ⟨data, RS, delay⟩
  | .updateLCDRingBuffer now _ =>
    if callsGetFromBuf now state then .taken (getFromBuf state.ring).1 else .idle
  | .lcdRingBufferInit => .cleared

/-- What the calls of a run do to the queue. -/
def queueEvents (isXecuter3 : Bool) : List LcdEvent → LcdTrace → List (QueueEvent DataOperation)
  | [], _ => []
  | event :: events, trace =>
    event.queueEvent trace.state :: queueEvents isXecuter3 events (event.perform isXecuter3 trace)

/-- An update changes the ring only by the call of `getFromBuf`, and the operation that this returns
becomes the current one. -/
theorem updateLCDRingBuffer_ring (isXecuter3 : Bool) (now later : UInt32) (state : LcdState) :
    (callsGetFromBuf now state →
      (updateLCDRingBuffer isXecuter3 now later state).2.ring = (getFromBuf state.ring).2 ∧
      (updateLCDRingBuffer isXecuter3 now later state).2.currentOp = (getFromBuf state.ring).1) ∧
    (¬ callsGetFromBuf now state →
      (updateLCDRingBuffer isXecuter3 now later state).2.ring = state.ring ∧
      (updateLCDRingBuffer isXecuter3 now later state).2.currentOp = state.currentOp) := by
  constructor
  · rintro ⟨helapsed, hready, hnonempty⟩
    rw [updateLCDRingBuffer, if_pos helapsed, hready]
    dsimp only
    rw [if_pos hnonempty]
    exact ⟨rfl, rfl⟩
  · intro hnot
    rw [updateLCDRingBuffer]
    by_cases helapsed : state.currentOp.delayInUs.toUInt32 ≤
        getElapseMicroSecondsSince state.systickStartValue now
    · rw [if_pos helapsed]
      cases hop : state.internalOp with
      | readyForNewOp =>
        dsimp only
        rw [if_neg fun hnonempty ↦ hnot ⟨helapsed, hop, hnonempty⟩]
        exact ⟨rfl, rfl⟩
      | writeHighNibble | writeLowNibble => exact ⟨rfl, rfl⟩
    · rw [if_neg helapsed]
      exact ⟨rfl, rfl⟩

section

variable {isXecuter3 : Bool} {trace : LcdTrace} {queue : List DataOperation}

theorem Stores.length_le {ring : RingBuffer UInt8} (hstores : Stores ring queue) :
    queue.length ≤ 256 := by
  have hfits := hstores.holds.fits
  rw [length_flatMap_bytes, ringBufSize] at hfits
  omega

/-- Every call is a step of the queue that the ring stands for. -/
theorem queueStep_of_event (hstores : Stores trace.state.ring queue) (event : LcdEvent) :
    ∃ next, QueueStep 256 queue (event.queueEvent trace.state) next ∧
      Stores (event.perform isXecuter3 trace).state.ring next := by
  have hlength := hstores.length_le
  cases event with
  | putInLCDRingBuffer data RS delay =>
    have hspace := noSpaceLeft_iff hstores
    rw [ringBufSize] at hspace
    simp only [LcdEvent.queueEvent, LcdEvent.perform, Lcd.putInLCDRingBuffer, putInBuf]
    by_cases hfull : noSpaceLeft trace.state.ring = true
    · rw [if_pos hfull, if_pos hfull]
      have hcount := hspace.mp hfull
      exact ⟨queue, QueueStep.drop _ (by omega), hstores⟩
    · rw [if_neg hfull, if_neg hfull]
      have hcount := mt hspace.mpr hfull
      exact ⟨_, QueueStep.append _ (by omega),
        hstores.push ⟨data, RS, delay⟩ (Bool.eq_false_iff.mpr hfull)⟩
  | updateLCDRingBuffer now later =>
    obtain ⟨htaken, hidle⟩ := updateLCDRingBuffer_ring isXecuter3 now later trace.state
    simp only [LcdEvent.queueEvent, LcdEvent.perform]
    by_cases hcalls : callsGetFromBuf now trace.state
    · rw [if_pos hcalls, (htaken hcalls).1]
      have hne := hstores.holds.nonempty_iff.mp hcalls.2.2
      cases queue with
      | nil => exact absurd rfl hne
      | cons operation queue =>
        obtain ⟨hoperation, hrest⟩ := hstores.getFromBuf
        rw [hoperation]
        exact ⟨queue, QueueStep.take operation queue, hrest⟩
    · rw [if_neg hcalls, (hidle hcalls).1]
      exact ⟨queue, QueueStep.idle queue, hstores⟩
  | lcdRingBufferInit => exact ⟨[], QueueStep.clear queue, stores_nil _⟩

/-- A run is a run of the queue. -/
theorem queueRun_of_stores (hstores : Stores trace.state.ring queue) (events : List LcdEvent) :
    ∃ final, QueueRun 256 queue (queueEvents isXecuter3 events trace) final ∧
      Stores (runLcd isXecuter3 events trace).state.ring final := by
  induction events generalizing trace queue with
  | nil => exact ⟨queue, QueueRun.nil queue, hstores⟩
  | cons event events ih =>
    obtain ⟨next, hstep, hnext⟩ := queueStep_of_event hstores event
    obtain ⟨final, hrest, hfinal⟩ := ih hnext
    exact ⟨final, QueueRun.cons hstep hrest, hfinal⟩

end

/-- After `LCDRingBufferInit` every sequence of calls is a run of an empty queue for 256 operations,
and the ring holds the operations that are queued at its end. -/
theorem lcdRingBuffer_fifo (isXecuter3 : Bool) (trace : LcdTrace) (events : List LcdEvent) :
    ∃ queue,
      QueueRun 256 []
        (queueEvents isXecuter3 events
          (LcdEvent.perform isXecuter3 trace .lcdRingBufferInit)) queue ∧
      Stores (runLcd isXecuter3 events
        (LcdEvent.perform isXecuter3 trace .lcdRingBufferInit)).state.ring queue :=
  queueRun_of_stores (stores_nil _) events

end XBlast.Lcd
