import Mathlib.Tactic.Common

/-!
# Ring buffers

A ring of `size` cells with a position for writing, a position for reading and a flag that says
that the writer is a round ahead of the reader. `Holds` is the queue that a ring stands for. The
positions alone do not tell an empty ring from a full one; the flag does.

`QueueRun` is a queue of bounded capacity on its own, by what can be observed of it: values are
appended or dropped, the oldest is taken, or the queue is cleared.

Nothing here depends on a particular program.
-/

set_option autoImplicit false
set_option relaxedAutoImplicit false

namespace XBlast.Foundation

variable {α : Type}

structure RingBuffer (α : Type) where
  buf : ℕ → α
  inPos : ℕ
  outPos : ℕ
  rollOver : Bool

namespace RingBuffer

/-- Writes a value and moves the position for writing. -/
def push (size : ℕ) (ring : RingBuffer α) (value : α) : RingBuffer α :=
  if size ≤ ring.inPos + 1 then
    { ring with
      buf := Function.update ring.buf ring.inPos value
      inPos := 0
      rollOver := true }
  else
    { ring with
      buf := Function.update ring.buf ring.inPos value
      inPos := ring.inPos + 1 }

/-- Reads a value and moves the position for reading. -/
def pop (size : ℕ) (ring : RingBuffer α) : α × RingBuffer α :=
  (ring.buf ring.outPos,
    if size ≤ ring.outPos + 1 then { ring with outPos := 0, rollOver := false }
    else { ring with outPos := ring.outPos + 1 })

def pushAll (size : ℕ) (ring : RingBuffer α) (values : List α) : RingBuffer α :=
  values.foldl (push size) ring

/-- Reads a number of values. -/
def popAll (size : ℕ) : ℕ → RingBuffer α → List α × RingBuffer α
  | 0, ring => ([], ring)
  | count + 1, ring =>
    ((ring.pop size).1 :: (popAll size count (ring.pop size).2).1,
      (popAll size count (ring.pop size).2).2)

/-- A position that may be one round too far. -/
def wrap (size position : ℕ) : ℕ := if position < size then position else position - size

/-- The values that a ring holds, the oldest first. -/
structure Holds (size : ℕ) (ring : RingBuffer α) (values : List α) : Prop where
  inPos_lt : ring.inPos < size
  outPos_lt : ring.outPos < size
  fits : values.length ≤ size
  length : ring.outPos + values.length = ring.inPos + if ring.rollOver then size else 0
  cells : ∀ index value, values[index]? = some value →
    ring.buf (wrap size (ring.outPos + index)) = value

variable {size : ℕ} {ring : RingBuffer α} {values : List α}

theorem holds_nil {buf : ℕ → α} (hsize : 0 < size) : Holds size ⟨buf, 0, 0, false⟩ [] :=
  ⟨hsize, hsize, Nat.zero_le size, rfl, fun index value hvalue ↦ by simp at hvalue⟩

/-- The cell that is written is the one behind the last value. -/
theorem Holds.inPos_eq (hholds : Holds size ring values) :
    ring.inPos = wrap size (ring.outPos + values.length) := by
  have hin := hholds.inPos_lt
  have hlength := hholds.length
  rw [wrap]
  split_ifs at hlength ⊢ <;> omega

theorem wrap_injective {start first second : ℕ} (hfirst : first < size)
    (hsecond : second < size) (heq : wrap size (start + first) = wrap size (start + second)) :
    first = second := by
  simp only [wrap] at heq
  split_ifs at heq <;> omega

theorem Holds.push (hholds : Holds size ring values) (hroom : values.length < size) (value : α) :
    Holds size (ring.push size value) (values ++ [value]) := by
  have hin := hholds.inPos_lt
  have hout := hholds.outPos_lt
  have hlength := hholds.length
  have hcells : ∀ index other, (values ++ [value])[index]? = some other →
      Function.update ring.buf ring.inPos value (wrap size (ring.outPos + index)) = other := by
    intro index other hother
    by_cases hold : index < values.length
    · rw [List.getElem?_append_left hold] at hother
      rw [Function.update_of_ne, hholds.cells index other hother]
      intro heq
      rw [hholds.inPos_eq] at heq
      have := wrap_injective (by omega) hroom heq
      omega
    · obtain ⟨hbound, hget⟩ := List.getElem?_eq_some_iff.mp hother
      rw [List.length_append, List.length_singleton] at hbound
      obtain rfl : index = values.length := by omega
      rw [← hholds.inPos_eq, Function.update_self]
      simpa using hget
  have hcount : (values ++ [value]).length = values.length + 1 := by simp
  rw [RingBuffer.push]
  split_ifs with hend
  · refine ⟨by simp only; omega, hout, by omega, ?_, hcells⟩
    simp only [hcount, if_true]
    split_ifs at hlength <;> omega
  · refine ⟨by simp only; omega, hout, by omega, ?_, hcells⟩
    simp only [hcount]
    omega

theorem Holds.pop {value : α} (hholds : Holds size ring (value :: values)) :
    (ring.pop size).1 = value ∧ Holds size (ring.pop size).2 values := by
  have hin := hholds.inPos_lt
  have hout := hholds.outPos_lt
  have hfits := hholds.fits
  have hlength := hholds.length
  rw [List.length_cons] at hfits hlength
  have hfirst := hholds.cells 0 value rfl
  rw [Nat.add_zero, wrap, if_pos hout] at hfirst
  refine ⟨hfirst, ?_⟩
  simp only [RingBuffer.pop]
  split_ifs with hend
  · refine ⟨hin, by simp only; omega, by omega, ?_, fun index other hother ↦ ?_⟩
    · simp only [Bool.false_eq_true, if_false]
      split_ifs at hlength <;> omega
    · have hbound := (List.getElem?_eq_some_iff.mp hother).1
      have hplace : wrap size (0 + index) = wrap size (ring.outPos + (index + 1)) := by
        simp only [wrap]
        split_ifs <;> omega
      rw [hplace]
      exact hholds.cells (index + 1) other hother
  · refine ⟨hin, by simp only; omega, by omega, by simp only; omega, fun index other hother ↦ ?_⟩
    rw [Nat.add_assoc, Nat.add_comm 1 index]
    exact hholds.cells (index + 1) other hother

theorem Holds.pushAll (hholds : Holds size ring values) {more : List α}
    (hroom : values.length + more.length ≤ size) :
    Holds size (ring.pushAll size more) (values ++ more) := by
  induction more generalizing ring values with
  | nil => simpa [RingBuffer.pushAll] using hholds
  | cons value more ih =>
    rw [List.length_cons] at hroom
    have hnext := ih (hholds.push (by omega) value) (by simp; omega)
    rwa [List.append_assoc, List.singleton_append] at hnext

theorem Holds.popAll {more : List α} (hholds : Holds size ring (values ++ more)) :
    (ring.popAll size values.length).1 = values ∧
      Holds size (ring.popAll size values.length).2 more := by
  induction values generalizing ring with
  | nil => exact ⟨rfl, hholds⟩
  | cons value values ih =>
    obtain ⟨hvalue, hrest⟩ := hholds.pop
    obtain ⟨hvalues, hmore⟩ := ih hrest
    simp only [List.length_cons, RingBuffer.popAll, hvalue, hvalues]
    exact ⟨trivial, hmore⟩

theorem pushAll_outPos (size : ℕ) (ring : RingBuffer α) (values : List α) :
    (ring.pushAll size values).outPos = ring.outPos := by
  induction values generalizing ring with
  | nil => rfl
  | cons value values ih =>
    have hpush : (ring.push size value).outPos = ring.outPos := by
      rw [RingBuffer.push]
      split_ifs <;> rfl
    exact (ih (ring.push size value)).trans hpush

theorem popAll_outPos {ring : RingBuffer α} (hout : ring.outPos < size) {count : ℕ}
    (hcount : count < size) :
    (ring.popAll size count).2.outPos = wrap size (ring.outPos + count) := by
  induction count generalizing ring with
  | zero => exact (if_pos hout).symm
  | succ count ih =>
    have hpop : (ring.pop size).2.outPos = wrap size (ring.outPos + 1) := by
      rw [RingBuffer.pop, wrap]
      by_cases hend : size ≤ ring.outPos + 1
      · rw [if_pos hend, if_neg (Nat.not_lt.mpr hend)]
        change 0 = ring.outPos + 1 - size
        omega
      · rw [if_neg hend, if_pos (Nat.lt_of_not_le hend)]
    have hnext : (ring.pop size).2.outPos < size := by
      rw [hpop, wrap]
      split_ifs <;> omega
    rw [RingBuffer.popAll, ih hnext (by omega), hpop]
    simp only [wrap]
    split_ifs <;> omega

/-- How a reader finds out that there is something to read. -/
theorem Holds.nonempty_iff (hholds : Holds size ring values) :
    ring.outPos ≠ ring.inPos ∨ ring.rollOver = true ↔ values ≠ [] := by
  have hin := hholds.inPos_lt
  have hout := hholds.outPos_lt
  have hlength := hholds.length
  rw [← List.length_pos_iff]
  cases hroll : ring.rollOver with
  | true =>
    rw [hroll, if_pos rfl] at hlength
    exact iff_of_true (.inr rfl) (by omega)
  | false =>
    rw [hroll, if_neg Bool.false_ne_true] at hlength
    simp only [Bool.false_eq_true, or_false]
    omega

end RingBuffer

/-! ### Bounded queues -/

/-- What is observed of a queue in one step. -/
inductive QueueEvent (α : Type) where
  | appended (value : α)
  | dropped (value : α)
  | taken (value : α)
  | cleared
  | idle

/-- A step of a queue with a capacity: a value is dropped only when the queue is full, and the
oldest value is taken, which takes a queue that is not empty. -/
inductive QueueStep (capacity : ℕ) : List α → QueueEvent α → List α → Prop
  | append {queue : List α} (value : α) (hroom : queue.length < capacity) :
      QueueStep capacity queue (.appended value) (queue ++ [value])
  | drop {queue : List α} (value : α) (hfull : queue.length = capacity) :
      QueueStep capacity queue (.dropped value) queue
  | take (value : α) (queue : List α) : QueueStep capacity (value :: queue) (.taken value) queue
  | clear (queue : List α) : QueueStep capacity queue .cleared []
  | idle (queue : List α) : QueueStep capacity queue .idle queue

inductive QueueRun (capacity : ℕ) : List α → List (QueueEvent α) → List α → Prop
  | nil (queue : List α) : QueueRun capacity queue [] queue
  | cons {queue next final : List α} {event : QueueEvent α} {events : List (QueueEvent α)}
      (hstep : QueueStep capacity queue event next) (hrest : QueueRun capacity next events final) :
      QueueRun capacity queue (event :: events) final

end XBlast.Foundation
