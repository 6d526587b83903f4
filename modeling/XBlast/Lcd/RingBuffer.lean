import XBlast.Foundation.Ring

/-!
# The ring buffer of the display

'LCDRingBuffer.c' queues operations for a character display with a bus of four bits. An operation
is written to a ring of bytes, and repeated calls of `updateLCDRingBuffer` take it out and strobe
its high and its low nibble once the delay of the operation has passed. `Stores` is the queue of
operations that the ring stands for; an operation is dropped when the ring has no room for it.
-/

set_option autoImplicit false
set_option relaxedAutoImplicit false

namespace XBlast.Lcd

open Foundation

structure DataOperation where
  dataToWrite : UInt8
  rsFlag : UInt8
  delayInUs : UInt16
  deriving DecidableEq, Repr

/-- The bytes of an operation in memory. -/
def DataOperation.bytes (operation : DataOperation) : List UInt8 :=
  [operation.dataToWrite, operation.rsFlag, UInt8.ofNat operation.delayInUs.toNat,
    UInt8.ofNat (operation.delayInUs.toNat / 256)]

def DataOperation.ofBytes : List UInt8 → DataOperation
  | [dataToWrite, rsFlag, low, high] =>
    ⟨dataToWrite, rsFlag, UInt16.ofNat (low.toNat + 256 * high.toNat)⟩
  | _ => ⟨0, 0, 0⟩

inductive InternalOp where
  | readyForNewOp | writeHighNibble | writeLowNibble
  deriving DecidableEq, Repr

def ringBufSize : ℕ := 1024

structure LcdState where
  ring : RingBuffer UInt8
  internalOp : InternalOp
  currentOp : DataOperation
  systickStartValue : UInt32

/-- The static variables before the first call. -/
def powerUp : LcdState where
  ring := ⟨fun _ ↦ 0, 0, 0, false⟩
  internalOp := .readyForNewOp
  currentOp := ⟨0, 0, 0⟩
  systickStartValue := 0

def lcdRingBufferInit (state : LcdState) : LcdState where
  ring := { state.ring with inPos := 0, outPos := 0, rollOver := false }
  internalOp := .readyForNewOp
  currentOp := { state.currentOp with delayInUs := 0 }
  systickStartValue := 0

/-! ### The queue -/

/-- Whether an operation is dropped. -/
def noSpaceLeft (ring : RingBuffer UInt8) : Bool :=
  let projectedEnd := ring.inPos + 4
  (ring.rollOver && projectedEnd > ring.outPos) ||
    (!ring.rollOver && projectedEnd % ringBufSize < projectedEnd &&
      projectedEnd % ringBufSize > ring.outPos)

def putInBuf (input : DataOperation) (ring : RingBuffer UInt8) : RingBuffer UInt8 :=
  if noSpaceLeft ring then ring else ring.pushAll ringBufSize input.bytes

def getFromBuf (ring : RingBuffer UInt8) : DataOperation × RingBuffer UInt8 :=
  let (bytes, rest) := ring.popAll ringBufSize 4
  (.ofBytes bytes, rest)

def putInLCDRingBuffer (data RS : UInt8) (delay : UInt16) (state : LcdState) : LcdState :=
  { state with ring := putInBuf ⟨data, RS, delay⟩ state.ring }

/-! ### The wires -/

structure PortWrite where
  port : UInt16
  value : UInt8
  deriving DecidableEq, Repr

/-- `LCD_DATA`. -/
def lcdData : UInt16 := 0xF700

/-- `X3_DISP_O_DAT`. -/
def x3DispODat : UInt16 := 0xF504

/-- `X3_DISP_O_CMD`. -/
def x3DispOCmd : UInt16 := 0xF505

def displayE : UInt8 := 0x04

def xecuter3LCDWrite (data RSFlag : UInt8) : List PortWrite :=
  [⟨x3DispODat, data⟩, ⟨x3DispOCmd, RSFlag⟩, ⟨x3DispOCmd, RSFlag ||| displayE⟩,
    ⟨x3DispOCmd, RSFlag⟩]

def smartXXLCDwrite (data : UInt8) : List PortWrite :=
  [⟨lcdData, data⟩, ⟨lcdData, data ||| displayE⟩, ⟨lcdData, (data ||| displayE) ^^^ displayE⟩]

/-- The two nibbles of an operation. -/
inductive Nibble where
  | high | low
  deriving DecidableEq, Repr

/-- The byte for a nibble on the one port of a SmartXX, which has the bits of the nibble in the
order 2, 3, 0, 1 between the lines RS and E and an unused one. -/
def smartXXNibble (nibble : Nibble) (data rsFlag : UInt8) : UInt8 :=
  match nibble with
  | .high =>
    let highNibble : UInt8 := (data >>> 2 &&& 0x28) ||| rsFlag
    highNibble ||| (data &&& 0x50)
  | .low =>
    let lowNibble : UInt8 := (data <<< 2 &&& 0x28) ||| rsFlag
    lowNibble ||| (data <<< 4 &&& 0x50)

/-- The byte for a nibble on the data port of an Xecuter 3. -/
def xecuter3Nibble (nibble : Nibble) (data : UInt8) : UInt8 :=
  match nibble with
  | .high => data &&& 0xF0
  | .low => data <<< 4

variable (isXecuter3 : Bool)

/-- What is written to the ports for a nibble. -/
def writeNibble (nibble : Nibble) (operation : DataOperation) : List PortWrite :=
  if isXecuter3 then
    xecuter3LCDWrite (xecuter3Nibble nibble operation.dataToWrite) operation.rsFlag
  else smartXXLCDwrite (smartXXNibble nibble operation.dataToWrite operation.rsFlag)

/-- A nibble that was strobed to the display. -/
structure Strobe where
  nibble : Nibble
  writes : List PortWrite
  deriving DecidableEq, Repr

def strobe (nibble : Nibble) (operation : DataOperation) : Strobe :=
  ⟨nibble, writeNibble isXecuter3 nibble operation⟩

/-- The microseconds since a reading of the clock, which may have started again at zero. -/
def getElapseMicroSecondsSince (startValue currentTime : UInt32) : UInt32 :=
  if startValue > currentTime then currentTime + (0xFFFFFFFF - startValue)
  else currentTime - startValue

/-- One call, with the readings of the clock before and after. It strobes at most one nibble. -/
def updateLCDRingBuffer (now later : UInt32) (state : LcdState) : List Strobe × LcdState :=
  if state.currentOp.delayInUs.toUInt32 ≤
      getElapseMicroSecondsSince state.systickStartValue now then
    match state.internalOp with
    | .readyForNewOp =>
      if state.ring.outPos ≠ state.ring.inPos ∨ state.ring.rollOver = true then
        ([], { state with
          ring := (getFromBuf state.ring).2
          currentOp := (getFromBuf state.ring).1
          internalOp := .writeHighNibble })
      else ([], state)
    | .writeHighNibble =>
      ([strobe isXecuter3 .high state.currentOp],
        { state with systickStartValue := later, internalOp := .writeLowNibble })
    | .writeLowNibble =>
      ([strobe isXecuter3 .low state.currentOp],
        { state with systickStartValue := later, internalOp := .readyForNewOp })
  else ([], state)

/-! ### The queue that the ring stands for -/

/-- The operations in the ring, the oldest first. -/
structure Stores (ring : RingBuffer UInt8) (operations : List DataOperation) : Prop where
  holds : ring.Holds ringBufSize (operations.flatMap DataOperation.bytes)
  aligned : ring.outPos % 4 = 0

theorem length_flatMap_bytes (operations : List DataOperation) :
    (operations.flatMap DataOperation.bytes).length = 4 * operations.length := by
  induction operations with
  | nil => rfl
  | cons operation operations ih =>
    rw [List.flatMap_cons, List.length_append, ih, List.length_cons]
    simp only [DataOperation.bytes, List.length_cons, List.length_nil]
    omega

theorem ofBytes_bytes (operation : DataOperation) : .ofBytes operation.bytes = operation := by
  have hdelay : UInt16.ofNat ((UInt8.ofNat operation.delayInUs.toNat).toNat +
      256 * (UInt8.ofNat (operation.delayInUs.toNat / 256)).toNat) = operation.delayInUs := by
    have hbound := operation.delayInUs.toNat_lt
    apply UInt16.toNat_inj.mp
    simp only [UInt16.toNat_ofNat', UInt8.toNat_ofNat']
    omega
  simp only [DataOperation.bytes, DataOperation.ofBytes, hdelay]

variable {ring : RingBuffer UInt8} {operations : List DataOperation}

theorem stores_nil (buf : ℕ → UInt8) : Stores ⟨buf, 0, 0, false⟩ [] :=
  ⟨RingBuffer.holds_nil (by decide), rfl⟩

/-- An operation is dropped exactly when it does not fit. -/
theorem noSpaceLeft_iff (hstores : Stores ring operations) :
    noSpaceLeft ring = true ↔ ringBufSize < 4 * (operations.length + 1) := by
  have hsize : ringBufSize = 1024 := rfl
  have hin := hstores.holds.inPos_lt
  have hout := hstores.holds.outPos_lt
  have haligned := hstores.aligned
  have hlength := hstores.holds.length
  rw [length_flatMap_bytes] at hlength
  simp only [noSpaceLeft]
  cases hroll : ring.rollOver with
  | true =>
    rw [hroll, if_pos rfl] at hlength
    simp only [Bool.true_and, Bool.not_true, Bool.false_and, Bool.or_false, decide_eq_true_eq]
    omega
  | false =>
    rw [hroll, if_neg Bool.false_ne_true] at hlength
    simp only [Bool.false_and, Bool.not_false, Bool.true_and, Bool.false_or, Bool.and_eq_true,
      decide_eq_true_eq]
    rw [hsize] at hin ⊢
    omega

theorem Stores.push (hstores : Stores ring operations) (operation : DataOperation)
    (hroom : noSpaceLeft ring = false) :
    Stores (ring.pushAll ringBufSize operation.bytes) (operations ++ [operation]) := by
  have hfits : 4 * (operations.length + 1) ≤ ringBufSize := by
    by_contra hfull
    rw [(noSpaceLeft_iff hstores).mpr (by omega)] at hroom
    cases hroom
  constructor
  · rw [List.flatMap_append, List.flatMap_singleton]
    refine hstores.holds.pushAll ?_
    rw [length_flatMap_bytes]
    exact hfits
  · rw [RingBuffer.pushAll_outPos]
    exact hstores.aligned

theorem Stores.getFromBuf {operation : DataOperation}
    (hstores : Stores ring (operation :: operations)) :
    (getFromBuf ring).1 = operation ∧ Stores (getFromBuf ring).2 operations := by
  have hholds := hstores.holds
  rw [List.flatMap_cons] at hholds
  obtain ⟨hbytes, hrest⟩ := hholds.popAll
  refine ⟨?_, ⟨hrest, ?_⟩⟩
  · change DataOperation.ofBytes (ring.popAll ringBufSize operation.bytes.length).1 = operation
    rw [hbytes, ofBytes_bytes]
  · have hsize : ringBufSize = 1024 := rfl
    have haligned := hstores.aligned
    change (ring.popAll ringBufSize 4).2.outPos % 4 = 0
    rw [RingBuffer.popAll_outPos hholds.outPos_lt (by omega), RingBuffer.wrap]
    split_ifs <;> omega

end XBlast.Lcd
