import Mathlib.Tactic.Common

/-!
# Stream ciphers

A stream cipher has a generator, which gives one key stream byte and its next state from a state,
and combines every byte of a buffer with the next key stream byte by exclusive or. What the
generator does with its state is irrelevant to decryption: from the same state it gives the same
key stream, and combining twice with the same byte changes nothing.

Nothing here depends on a particular program.
-/

set_option autoImplicit false
set_option relaxedAutoImplicit false

namespace XBlast.Foundation

variable {σ : Type*}

/-- Combines a buffer with the key stream of a generator; the second component is the state the
generator is left in. -/
def applyKeystream (next : σ → UInt8 × σ) : List UInt8 → σ → List UInt8 × σ
  | [], state => ([], state)
  | byte :: bytes, state =>
    let rest := applyKeystream next bytes (next state).2
    ((byte ^^^ (next state).1) :: rest.1, rest.2)

@[simp] theorem applyKeystream_length (next : σ → UInt8 × σ) (bytes : List UInt8) (state : σ) :
    (applyKeystream next bytes state).1.length = bytes.length := by
  induction bytes generalizing state with
  | nil => rfl
  | cons byte bytes ih => exact congrArg (· + 1) (ih (next state).2)

/-- What a generator keeps holds after a whole buffer. -/
theorem applyKeystream_invariant {next : σ → UInt8 × σ} {invariant : σ → Prop}
    (hnext : ∀ state, invariant state → invariant (next state).2) (bytes : List UInt8) {state : σ}
    (hstate : invariant state) : invariant (applyKeystream next bytes state).2 := by
  induction bytes generalizing state with
  | nil => exact hstate
  | cons byte bytes ih => exact ih (hnext state hstate)

/-- **Decryption.** Combining a buffer twice with the key stream from the same state gives the
buffer back. -/
theorem applyKeystream_applyKeystream (next : σ → UInt8 × σ) (bytes : List UInt8) (state : σ) :
    (applyKeystream next (applyKeystream next bytes state).1 state).1 = bytes := by
  induction bytes generalizing state with
  | nil => rfl
  | cons byte bytes ih =>
    simp only [applyKeystream, ih]
    rw [UInt8.xor_assoc, UInt8.xor_self, UInt8.xor_zero]

end XBlast.Foundation
