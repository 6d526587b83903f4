import XBlast.Foundation.ByteImage
import XBlast.Lcd.RingBuffer

/-!
# The nibbles on the wires of the display

The display takes a byte as two nibbles and cannot tell which of them comes first, so that one lost
nibble shifts all that follows. A run of the queue is recorded with the operations that were
accepted and the nibbles that were strobed. The nibbles come in pairs, each from one operation and
in the order of the queue, unless the queue is initialised again between the two nibbles of an
operation and something is strobed after that.
-/

set_option autoImplicit false
set_option relaxedAutoImplicit false

namespace XBlast.Lcd

open Foundation List

/-! ### What the display receives -/

/-- The lines of a display as the ports hold them, and the nibbles it has taken with the RS
line. -/
structure Display where
  data : UInt8
  control : UInt8
  latched : List (UInt8 × Bool)

variable (isXecuter3 : Bool)

/-- The port with the RS and E lines. -/
def controlPort : UInt16 := if isXecuter3 then x3DispOCmd else lcdData

/-- The port with the data lines. -/
def dataPort : UInt16 := if isXecuter3 then x3DispODat else lcdData

/-- `X3_DISPLAY_RS` or `DISPLAY_RS`. -/
def displayRs : UInt8 := if isXecuter3 then 0x01 else 0x02

/-- The nibble on the data lines. -/
def dataLines (data : UInt8) : UInt8 :=
  if isXecuter3 then data >>> 4
  else
    let bit3 : UInt8 := data >>> 2 &&& 0x08
    let bit2 : UInt8 := data >>> 4 &&& 0x04
    let bit1 : UInt8 := data >>> 2 &&& 0x02
    let bit0 : UInt8 := data >>> 4 &&& 0x01
    bit3 ||| bit2 ||| bit1 ||| bit0

/-- The display takes the nibble on its lines when E falls. -/
def Display.write (isXecuter3 : Bool) (display : Display) (write : PortWrite) : Display :=
  let data := if write.port = dataPort isXecuter3 then write.value else display.data
  let control := if write.port = controlPort isXecuter3 then write.value else display.control
  { data := data
    control := control
    latched :=
      if display.control &&& displayE ≠ 0 ∧ control &&& displayE = 0 then
        display.latched ++
          [(dataLines isXecuter3 data, decide (control &&& displayRs isXecuter3 ≠ 0))]
      else display.latched }

/-- A nibble of a byte. -/
def nibbleOf : Nibble → UInt8 → UInt8
  | .high, data => data >>> 4
  | .low, data => data &&& 0x0F

/-- A byte that sets no other line than RS. -/
def IsRsFlag (rsFlag : UInt8) : Prop :=
  rsFlag = 0 ∨ rsFlag = displayRs isXecuter3

theorem or_displayE (value : UInt8) : (value ||| displayE) &&& displayE ≠ 0 := by
  revert value
  exact forall_byte (by decide +kernel)

theorem drop_displayE (value : UInt8) (hlow : value &&& displayE = 0) :
    (value ||| displayE) ^^^ displayE = value := by
  revert value
  exact forall_byte (by decide +kernel)

variable {display : Display}

/-- The display takes one nibble from the three writes of a SmartXX. -/
theorem smartXXLCDwrite_latched {value : UInt8} (hvalue : value &&& displayE = 0)
    (hlow : display.control &&& displayE = 0) :
    (smartXXLCDwrite value).foldl (Display.write false) display =
      ⟨value, value, display.latched ++
        [(dataLines false value, decide (value &&& displayRs false ≠ 0))]⟩ := by
  have hraised := or_displayE value
  simp only [smartXXLCDwrite, foldl_cons, foldl_nil, Display.write, dataPort,
    controlPort, Bool.false_eq_true, if_false, if_true, hvalue, hlow, drop_displayE value hvalue,
    hraised, ne_eq, not_true_eq_false, not_false_eq_true, false_and, true_and]

/-- The display takes one nibble from the four writes of an Xecuter 3. -/
theorem xecuter3LCDWrite_latched {data RSFlag : UInt8} (hflag : RSFlag &&& displayE = 0)
    (hlow : display.control &&& displayE = 0) :
    (xecuter3LCDWrite data RSFlag).foldl (Display.write true) display =
      ⟨data, RSFlag, display.latched ++
        [(dataLines true data, decide (RSFlag &&& displayRs true ≠ 0))]⟩ := by
  have hraised := or_displayE RSFlag
  have hports : x3DispODat ≠ x3DispOCmd := by decide
  simp only [xecuter3LCDWrite, foldl_cons, foldl_nil, Display.write, dataPort,
    controlPort, if_false, if_true, hflag, hlow, hports, hports.symm, hraised, ne_eq,
    not_true_eq_false, not_false_eq_true, false_and, true_and]

/-- What a SmartXX puts on its one port for a nibble is what the display reads from it. -/
theorem smartXXNibble_lines (nibble : Nibble) (data : UInt8) {rsFlag : UInt8}
    (hflag : IsRsFlag false rsFlag) :
    smartXXNibble nibble data rsFlag &&& displayE = 0 ∧
      dataLines false (smartXXNibble nibble data rsFlag) = nibbleOf nibble data ∧
      decide (smartXXNibble nibble data rsFlag &&& displayRs false ≠ 0) = decide (rsFlag ≠ 0) := by
  revert data
  rcases hflag with rfl | rfl
  · cases nibble with
    | high | low => exact forall_byte (by decide +kernel)
  · cases nibble with
    | high | low => exact forall_byte (by decide +kernel)

theorem xecuter3Nibble_lines (nibble : Nibble) (data : UInt8) :
    dataLines true (xecuter3Nibble nibble data) = nibbleOf nibble data := by
  revert data
  cases nibble with
  | high | low => exact forall_byte (by decide +kernel)

theorem xecuter3_flag {rsFlag : UInt8} (hflag : IsRsFlag true rsFlag) :
    rsFlag &&& displayE = 0 ∧
      decide (rsFlag &&& displayRs true ≠ 0) = decide (rsFlag ≠ 0) := by
  rcases hflag with rfl | rfl
  · exact ⟨rfl, rfl⟩
  · exact ⟨rfl, rfl⟩

/-- A strobed nibble reaches the display with the data and the RS flag of its operation. -/
theorem display_takes_nibble {isXecuter3 : Bool} (nibble : Nibble) {operation : DataOperation}
    (hflag : IsRsFlag isXecuter3 operation.rsFlag) (hlow : display.control &&& displayE = 0) :
    let after := (writeNibble isXecuter3 nibble operation).foldl (Display.write isXecuter3) display
    after.control &&& displayE = 0 ∧
      after.latched = display.latched ++
        [(nibbleOf nibble operation.dataToWrite, decide (operation.rsFlag ≠ 0))] := by
  cases isXecuter3 with
  | true =>
    obtain ⟨hvalue, hrs⟩ := xecuter3_flag hflag
    have hlines := xecuter3Nibble_lines nibble operation.dataToWrite
    simp only [writeNibble, if_true, xecuter3LCDWrite_latched hvalue hlow, hlines, hrs]
    exact ⟨hvalue, trivial⟩
  | false =>
    obtain ⟨hvalue, hlines, hrs⟩ := smartXXNibble_lines nibble operation.dataToWrite hflag
    simp only [writeNibble, Bool.false_eq_true, if_false, smartXXLCDwrite_latched hvalue hlow,
      hlines, hrs]
    exact ⟨hvalue, trivial⟩

/-! ### Runs -/

/-- A call of the queue; an update has the readings of the clock that it makes. -/
inductive LcdEvent where
  | putInLCDRingBuffer (data RS : UInt8) (delay : UInt16)
  | updateLCDRingBuffer (now later : UInt32)
  | lcdRingBufferInit

/-- The state together with the operations that were accepted and the nibbles that were strobed
since power-up. -/
structure LcdTrace where
  state : LcdState
  queued : List DataOperation
  strobed : List Strobe

def LcdTrace.powerUp : LcdTrace := ⟨Lcd.powerUp, [], []⟩

def LcdEvent.perform (trace : LcdTrace) : LcdEvent → LcdTrace
  | .putInLCDRingBuffer data RS delay =>
    { trace with
      state := Lcd.putInLCDRingBuffer data RS delay trace.state
      queued :=
        if noSpaceLeft trace.state.ring then trace.queued
        else trace.queued ++ [⟨data, RS, delay⟩] }
  | .updateLCDRingBuffer now later =>
    { trace with
      state := (Lcd.updateLCDRingBuffer isXecuter3 now later trace.state).2
      strobed :=
        trace.strobed ++ (Lcd.updateLCDRingBuffer isXecuter3 now later trace.state).1 }
  | .lcdRingBufferInit => { trace with state := Lcd.lcdRingBufferInit trace.state }

def runLcd (events : List LcdEvent) (trace : LcdTrace) : LcdTrace :=
  events.foldl (LcdEvent.perform isXecuter3) trace

/-- The nibbles of an operation. -/
def strobePair (operation : DataOperation) : List Strobe :=
  [strobe isXecuter3 .high operation, strobe isXecuter3 .low operation]

/-- The strobed nibbles are the pairs of operations of the queue, in its order, and at the end
perhaps a high nibble whose low nibble is still to come. -/
def Aligned (trace : LcdTrace) : Prop :=
  ∃ sent : List DataOperation,
    (trace.strobed = sent.flatMap (strobePair isXecuter3) ∧ sent.Sublist trace.queued) ∨
    ∃ operation, trace.strobed =
        sent.flatMap (strobePair isXecuter3) ++ [strobe isXecuter3 .high operation] ∧
      (sent ++ [operation]).Sublist trace.queued

/-- The queue is initialised between the two nibbles of an operation, and a nibble is strobed
later. -/
def LosesNibble (isXecuter3 : Bool) : List LcdEvent → LcdTrace → Prop
  | [], _ => False
  | event :: events, trace =>
    (event = .lcdRingBufferInit ∧ trace.state.internalOp = .writeLowNibble ∧
      (runLcd isXecuter3 (event :: events) trace).strobed ≠ trace.strobed) ∨
    LosesNibble isXecuter3 events (event.perform isXecuter3 trace)

variable {isXecuter3 : Bool} {trace : LcdTrace}

/-- A run that has lost nothing: which operations are in the ring, which came before them, and
which of these were sent. -/
structure Live (isXecuter3 : Bool) (trace : LcdTrace) (past stored sent : List DataOperation) :
    Prop where
  stores : Stores trace.state.ring stored
  queued : trace.queued = past ++ stored
  sent :
    match trace.state.internalOp with
    | .readyForNewOp =>
      trace.strobed = sent.flatMap (strobePair isXecuter3) ∧ sent.Sublist past
    | .writeHighNibble =>
      trace.strobed = sent.flatMap (strobePair isXecuter3) ∧
        (sent ++ [trace.state.currentOp]).Sublist past
    | .writeLowNibble =>
      trace.strobed = sent.flatMap (strobePair isXecuter3) ++
          [strobe isXecuter3 .high trace.state.currentOp] ∧
        (sent ++ [trace.state.currentOp]).Sublist past

variable {past stored sent : List DataOperation}

theorem live_powerUp (isXecuter3 : Bool) : Live isXecuter3 .powerUp [] [] [] :=
  ⟨stores_nil _, rfl, rfl, .slnil⟩

section

variable (hlive : Live isXecuter3 trace past stored sent)

include hlive

/-- As long as no nibble is due, only whole operations have been strobed. -/
theorem Live.sent_of_ne (hop : trace.state.internalOp ≠ .writeLowNibble) :
    trace.strobed = sent.flatMap (strobePair isXecuter3) ∧ sent.Sublist past := by
  have hsent := hlive.sent
  cases hphase : trace.state.internalOp with
  | readyForNewOp =>
    rw [hphase] at hsent
    exact hsent
  | writeHighNibble =>
    rw [hphase] at hsent
    exact ⟨hsent.1, (sublist_append_left sent _).trans hsent.2⟩
  | writeLowNibble => exact absurd hphase hop

theorem Live.aligned : Aligned isXecuter3 trace := by
  have hpast : past.Sublist trace.queued := by
    rw [hlive.queued]
    exact sublist_append_left past stored
  by_cases hop : trace.state.internalOp = .writeLowNibble
  · have hsent := hlive.sent
    rw [hop] at hsent
    exact ⟨sent, .inr ⟨trace.state.currentOp, hsent.1, hsent.2.trans hpast⟩⟩
  · obtain ⟨hstrobed, hsent⟩ := hlive.sent_of_ne hop
    exact ⟨sent, .inl ⟨hstrobed, hsent.trans hpast⟩⟩

theorem Live.put (data RS : UInt8) (delay : UInt16) :
    ∃ stored, Live isXecuter3
      (LcdEvent.perform isXecuter3 trace (.putInLCDRingBuffer data RS delay)) past stored sent := by
  by_cases hfull : noSpaceLeft trace.state.ring = true
  · refine ⟨stored, ?_, ?_, hlive.sent⟩
    · simp only [LcdEvent.perform, Lcd.putInLCDRingBuffer, putInBuf, if_pos hfull]
      exact hlive.stores
    · simp only [LcdEvent.perform, if_pos hfull]
      exact hlive.queued
  · refine ⟨stored ++ [⟨data, RS, delay⟩], ?_, ?_, hlive.sent⟩
    · simp only [LcdEvent.perform, Lcd.putInLCDRingBuffer, putInBuf, if_neg hfull]
      exact hlive.stores.push ⟨data, RS, delay⟩ (Bool.eq_false_iff.mpr hfull)
    · simp only [LcdEvent.perform, if_neg hfull, hlive.queued, append_assoc]

/-- Initialising the queue drops what is in it, and nothing else as long as no nibble is due. -/
theorem Live.init (hop : trace.state.internalOp ≠ .writeLowNibble) :
    Live isXecuter3 (LcdEvent.perform isXecuter3 trace .lcdRingBufferInit) (past ++ stored) []
      sent := by
  obtain ⟨hstrobed, hsent⟩ := hlive.sent_of_ne hop
  exact ⟨stores_nil _, by rw [append_nil]; exact hlive.queued, hstrobed,
    hsent.trans (sublist_append_left past stored)⟩

end

/-- What one update can do. -/
theorem updateLCDRingBuffer_cases (isXecuter3 : Bool) (now later : UInt32) (state : LcdState) :
    updateLCDRingBuffer isXecuter3 now later state = ([], state) ∨
    (state.internalOp = .readyForNewOp ∧
      (state.ring.outPos ≠ state.ring.inPos ∨ state.ring.rollOver = true) ∧
      updateLCDRingBuffer isXecuter3 now later state =
        ([], { state with
          ring := (getFromBuf state.ring).2
          currentOp := (getFromBuf state.ring).1
          internalOp := .writeHighNibble })) ∨
    (state.internalOp = .writeHighNibble ∧
      updateLCDRingBuffer isXecuter3 now later state =
        ([strobe isXecuter3 .high state.currentOp],
          { state with systickStartValue := later, internalOp := .writeLowNibble })) ∨
    (state.internalOp = .writeLowNibble ∧
      updateLCDRingBuffer isXecuter3 now later state =
        ([strobe isXecuter3 .low state.currentOp],
          { state with systickStartValue := later, internalOp := .readyForNewOp })) := by
  by_cases helapsed : state.currentOp.delayInUs.toUInt32 ≤
      getElapseMicroSecondsSince state.systickStartValue now
  · rw [updateLCDRingBuffer, if_pos helapsed]
    cases hop : state.internalOp with
    | readyForNewOp =>
      by_cases hnonempty : state.ring.outPos ≠ state.ring.inPos ∨ state.ring.rollOver = true
      · exact .inr (.inl ⟨rfl, hnonempty, if_pos hnonempty⟩)
      · exact .inl (if_neg hnonempty)
    | writeHighNibble => exact .inr (.inr (.inl ⟨rfl, rfl⟩))
    | writeLowNibble => exact .inr (.inr (.inr ⟨rfl, rfl⟩))
  · exact .inl (if_neg helapsed)

theorem Live.update (hlive : Live isXecuter3 trace past stored sent) (now later : UInt32) :
    ∃ past stored sent, Live isXecuter3
      (LcdEvent.perform isXecuter3 trace (.updateLCDRingBuffer now later)) past stored sent := by
  have hqueued := hlive.queued
  have hsent := hlive.sent
  obtain hnothing | ⟨hop, hnonempty, htaken⟩ | ⟨hop, hhigh⟩ | ⟨hop, hlow⟩ :=
    updateLCDRingBuffer_cases isXecuter3 now later trace.state
  · simp only [LcdEvent.perform, hnothing, append_nil]
    exact ⟨past, stored, sent, hlive⟩
  · rw [hop] at hsent
    have hne := hlive.stores.holds.nonempty_iff.mp hnonempty
    cases stored with
    | nil => exact absurd rfl hne
    | cons operation stored =>
      obtain ⟨hoperation, hrest⟩ := hlive.stores.getFromBuf
      simp only [LcdEvent.perform, htaken, append_nil]
      refine ⟨past ++ [operation], stored, sent, hrest, ?_, hsent.1, ?_⟩
      · rw [append_assoc]
        exact hqueued
      · rw [hoperation]
        exact hsent.2.append (List.Sublist.refl [operation])
  · rw [hop] at hsent
    simp only [LcdEvent.perform, hhigh]
    exact ⟨past, stored, sent, hlive.stores, hqueued, by rw [hsent.1], hsent.2⟩
  · rw [hop] at hsent
    simp only [LcdEvent.perform, hlow]
    refine ⟨past, stored, sent ++ [trace.state.currentOp], hlive.stores, hqueued, ?_, hsent.2⟩
    rw [hsent.1, flatMap_append, flatMap_singleton, append_assoc]
    rfl

/-- A run loses nothing as long as no due nibble is dropped. -/
theorem Live.perform (hlive : Live isXecuter3 trace past stored sent) (event : LcdEvent)
    (hkeeps : event = .lcdRingBufferInit → trace.state.internalOp ≠ .writeLowNibble) :
    ∃ past stored sent, Live isXecuter3 (event.perform isXecuter3 trace) past stored sent := by
  cases event with
  | putInLCDRingBuffer data RS delay =>
    obtain ⟨stored, hnext⟩ := hlive.put data RS delay
    exact ⟨past, stored, sent, hnext⟩
  | updateLCDRingBuffer now later => exact hlive.update now later
  | lcdRingBufferInit => exact ⟨past ++ stored, [], sent, hlive.init (hkeeps rfl)⟩

/-! ### What follows a lost nibble -/

theorem runLcd_cons (event : LcdEvent) (events : List LcdEvent) :
    runLcd isXecuter3 (event :: events) trace =
      runLcd isXecuter3 events (event.perform isXecuter3 trace) :=
  rfl

/-- A run only adds to what was queued and strobed. -/
theorem runLcd_extends (isXecuter3 : Bool) (events : List LcdEvent) (trace : LcdTrace) :
    trace.queued.Sublist (runLcd isXecuter3 events trace).queued ∧
      ∃ more, (runLcd isXecuter3 events trace).strobed = trace.strobed ++ more := by
  induction events generalizing trace with
  | nil => exact ⟨.refl _, [], (append_nil _).symm⟩
  | cons event events ih =>
    obtain ⟨hqueued, more, hstrobed⟩ := ih (event.perform isXecuter3 trace)
    rw [runLcd_cons]
    cases event with
    | putInLCDRingBuffer data RS delay =>
      refine ⟨.trans ?_ hqueued, more, hstrobed⟩
      simp only [LcdEvent.perform]
      split_ifs
      · exact .refl _
      · exact sublist_append_left _ _
    | updateLCDRingBuffer now later =>
      refine ⟨hqueued, _, hstrobed.trans (append_assoc _ _ _)⟩
    | lcdRingBufferInit => exact ⟨hqueued, more, hstrobed⟩

/-- As long as none is due, a run loses no nibble before it strobes one, and the first one is a
high one. -/
theorem runLcd_first (events : List LcdEvent) {trace : LcdTrace}
    (hop : trace.state.internalOp ≠ .writeLowNibble) :
    ((runLcd isXecuter3 events trace).strobed = trace.strobed ∧
        ¬ LosesNibble isXecuter3 events trace) ∨
      ∃ operation more, (runLcd isXecuter3 events trace).strobed =
        trace.strobed ++ strobe isXecuter3 .high operation :: more := by
  induction events generalizing trace with
  | nil => exact .inl ⟨rfl, id⟩
  | cons event events ih =>
    have hlater : LosesNibble isXecuter3 (event :: events) trace ↔
        LosesNibble isXecuter3 events (event.perform isXecuter3 trace) :=
      or_iff_right fun hlost ↦ hop hlost.2.1
    rw [runLcd_cons, hlater]
    cases event with
    | putInLCDRingBuffer data RS delay => exact ih hop
    | lcdRingBufferInit => exact ih InternalOp.noConfusion
    | updateLCDRingBuffer now later =>
      obtain hnothing | ⟨_, _, htaken⟩ | ⟨_, hhigh⟩ | ⟨hlow, _⟩ :=
        updateLCDRingBuffer_cases isXecuter3 now later trace.state
      · simp only [LcdEvent.perform, hnothing, append_nil]
        exact ih hop
      · simp only [LcdEvent.perform, htaken, append_nil]
        exact ih InternalOp.noConfusion
      · obtain ⟨_, more, hmore⟩ := runLcd_extends isXecuter3 events
          (LcdEvent.perform isXecuter3 trace (.updateLCDRingBuffer now later))
        refine .inr ⟨trace.state.currentOp, more, hmore.trans ?_⟩
        simp only [LcdEvent.perform, hhigh, append_assoc, singleton_append]
      · exact absurd hlow hop

/-- Two high nibbles in a row are not the nibbles of a sequence of operations. -/
theorem highs_not_aligned (first second : DataOperation) (more : List Strobe)
    (sent : List DataOperation)
    (hstrobed : trace.strobed = sent.flatMap (strobePair isXecuter3) ++
      strobe isXecuter3 .high first :: strobe isXecuter3 .high second :: more) :
    ¬ Aligned isXecuter3 trace := by
  rintro ⟨other, haligned⟩
  obtain ⟨rest, hshort, hrest⟩ : ∃ rest : List Strobe, rest.length ≤ 1 ∧
      trace.strobed = other.flatMap (strobePair isXecuter3) ++ rest := by
    rcases haligned with ⟨hpairs, _⟩ | ⟨operation, hpairs, _⟩
    · exact ⟨[], Nat.zero_le 1, by rw [hpairs, append_nil]⟩
    · exact ⟨[_], Nat.le_refl 1, hpairs⟩
  rw [hstrobed] at hrest
  clear hstrobed haligned
  -- The pairs are taken off both sides; the first of them is complete on one side only.
  induction sent generalizing other with
  | nil =>
    cases other with
    | nil =>
      rw [flatMap_nil, nil_append, nil_append] at hrest
      rw [← hrest] at hshort
      simp at hshort
    | cons operation other =>
      simp [strobePair, strobe] at hrest
  | cons operation sent ih =>
    cases other with
    | nil =>
      rw [flatMap_nil, nil_append] at hrest
      rw [← hrest] at hshort
      simp [strobePair] at hshort
    | cons next other =>
      rw [flatMap_cons, flatMap_cons, append_assoc, append_assoc] at hrest
      exact ih other (append_inj hrest rfl).2

theorem Aligned.extend {longer : LcdTrace} (haligned : Aligned isXecuter3 trace)
    (hstrobed : longer.strobed = trace.strobed) (hqueued : trace.queued.Sublist longer.queued) :
    Aligned isXecuter3 longer := by
  obtain ⟨sent, ⟨hpairs, hsent⟩ | ⟨operation, hpairs, hsent⟩⟩ := haligned
  · exact ⟨sent, .inl ⟨hstrobed.trans hpairs, hsent.trans hqueued⟩⟩
  · exact ⟨sent, .inr ⟨operation, hstrobed.trans hpairs, hsent.trans hqueued⟩⟩

/-- After the low nibble of an operation was dropped, the run stays aligned as long as it is
silent. -/
theorem Live.dropped_iff (hlive : Live isXecuter3 trace past stored sent)
    (hop : trace.state.internalOp = .writeLowNibble) (events : List LcdEvent) :
    Aligned isXecuter3 (runLcd isXecuter3 (.lcdRingBufferInit :: events) trace) ↔
      ¬ LosesNibble isXecuter3 (.lcdRingBufferInit :: events) trace := by
  have hready : (LcdEvent.perform isXecuter3 trace .lcdRingBufferInit).state.internalOp ≠
      .writeLowNibble := InternalOp.noConfusion
  have hsent := hlive.sent
  rw [hop] at hsent
  rcases runLcd_first events hready with ⟨hsilent, hkept⟩ | ⟨operation, more, hmore⟩
  · have hsame : (runLcd isXecuter3 (.lcdRingBufferInit :: events) trace).strobed =
        trace.strobed := hsilent
    refine iff_of_true (hlive.aligned.extend hsame ?_) ?_
    · exact (runLcd_extends isXecuter3 (.lcdRingBufferInit :: events) trace).1
    · exact not_or.mpr ⟨fun hlost ↦ hlost.2.2 hsame, hkept⟩
  · have hstrobed : (runLcd isXecuter3 (.lcdRingBufferInit :: events) trace).strobed =
        trace.strobed ++ strobe isXecuter3 .high operation :: more := hmore
    refine iff_of_false (highs_not_aligned trace.state.currentOp operation more sent ?_)
      fun hkept ↦ hkept (.inl ⟨rfl, hop, ?_⟩)
    · rw [hstrobed, hsent.1, append_assoc]
      rfl
    · rw [hstrobed]
      simp

theorem Live.aligned_iff (hlive : Live isXecuter3 trace past stored sent)
    (events : List LcdEvent) :
    Aligned isXecuter3 (runLcd isXecuter3 events trace) ↔
      ¬ LosesNibble isXecuter3 events trace := by
  induction events generalizing trace past stored sent with
  | nil => exact iff_of_true hlive.aligned id
  | cons event events ih =>
    by_cases hdropped : event = .lcdRingBufferInit ∧
        trace.state.internalOp = .writeLowNibble
    · obtain ⟨rfl, hop⟩ := hdropped
      exact hlive.dropped_iff hop events
    · have hkeeps : event = .lcdRingBufferInit → trace.state.internalOp ≠ .writeLowNibble :=
        fun hevent hop ↦ hdropped ⟨hevent, hop⟩
      obtain ⟨past, stored, sent, hnext⟩ := hlive.perform event hkeeps
      rw [runLcd_cons, ih hnext, LosesNibble, or_iff_right]
      exact fun hlost ↦ hdropped ⟨hlost.1, hlost.2.1⟩

/-- Since power-up the nibbles come in the pairs of the queue exactly if none is lost by an
initialisation, and each nibble reaches the display with the data and the RS flag of its
operation. -/
theorem lcd_stream_aligned_iff (isXecuter3 : Bool) (events : List LcdEvent) :
    (Aligned isXecuter3 (runLcd isXecuter3 events .powerUp) ↔
      ¬ LosesNibble isXecuter3 events .powerUp) ∧
    ∀ (nibble : Nibble) (operation : DataOperation) (display : Display),
      IsRsFlag isXecuter3 operation.rsFlag → display.control &&& displayE = 0 →
      let after :=
        (strobe isXecuter3 nibble operation).writes.foldl (Display.write isXecuter3) display
      after.control &&& displayE = 0 ∧
        after.latched = display.latched ++
          [(nibbleOf nibble operation.dataToWrite, decide (operation.rsFlag ≠ 0))] :=
  ⟨(live_powerUp isXecuter3).aligned_iff events,
    fun nibble _ _ hflag hlow ↦ display_takes_nibble nibble hflag hlow⟩

/-- A run that sends one byte. -/
def singleByte : List LcdEvent :=
  [.putInLCDRingBuffer 0x41 0x02 50, .updateLCDRingBuffer 0 0, .updateLCDRingBuffer 50 60,
    .updateLCDRingBuffer 110 120]

theorem lcd_stream_aligned_iff_singleByte :
    (runLcd false singleByte .powerUp).strobed = strobePair false ⟨0x41, 0x02, 50⟩ ∧
      Aligned false (runLcd false singleByte .powerUp) := by
  refine ⟨by decide +kernel, (lcd_stream_aligned_iff false singleByte).1.mpr ?_⟩
  simp [LosesNibble, singleByte]

/-- A run that is initialised again after the high nibble of a command. -/
def interruptedCommand : List LcdEvent :=
  [.putInLCDRingBuffer 0x28 0x00 0, .updateLCDRingBuffer 0 0, .updateLCDRingBuffer 0 0,
    .lcdRingBufferInit, .putInLCDRingBuffer 0x0C 0x00 0, .updateLCDRingBuffer 0 0,
    .updateLCDRingBuffer 0 0]

theorem interruptedCommand_not_aligned :
    (runLcd false interruptedCommand .powerUp).strobed =
        [strobe false .high ⟨0x28, 0x00, 0⟩, strobe false .high ⟨0x0C, 0x00, 0⟩] ∧
      ¬ Aligned false (runLcd false interruptedCommand .powerUp) := by
  have hstrobed : (runLcd false interruptedCommand .powerUp).strobed =
      [strobe false .high ⟨0x28, 0x00, 0⟩, strobe false .high ⟨0x0C, 0x00, 0⟩] := by
    decide +kernel
  exact ⟨hstrobed, highs_not_aligned ⟨0x28, 0x00, 0⟩ ⟨0x0C, 0x00, 0⟩ [] [] hstrobed⟩

end XBlast.Lcd
