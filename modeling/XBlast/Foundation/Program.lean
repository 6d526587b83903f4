import Mathlib.Tactic.Common

/-!
# Programs with a state and error codes

A program runs on a state and either returns a value or stops with an error code, and it leaves a
state in both cases: what was done before an error stays done. `wp` is the weakest precondition
of a program for a condition on the value it returns and a condition on the code it stops with.
The rules say how it is computed along the structure of a program, and `wp_mono` how the
specification of a part is used inside a larger program.

Nothing here depends on a particular program.
-/

set_option autoImplicit false
set_option relaxedAutoImplicit false

namespace XBlast.Foundation

/-- A program on states `σ` that returns a value or stops with an error code. -/
def Program (σ ε α : Type) : Type := σ → Except ε α × σ

namespace Program

variable {σ τ ε α β : Type}

instance : Monad (Program σ ε) where
  pure value := fun state ↦ (.ok value, state)
  bind program next := fun state ↦
    match program state with
    | (.ok value, state) => next value state
    | (.error code, state) => (.error code, state)

/-- Stops with an error code. -/
def stop (code : ε) : Program σ ε α := fun state ↦ (.error code, state)

/-- Stops with an error code if a condition holds. -/
def stopIf (condition : Prop) [Decidable condition] (code : ε) : Program σ ε Unit :=
  if condition then stop code else pure ()

/-- Returns or stops with a result that was computed without the state. -/
def ofExcept (result : Except ε α) : Program σ ε α := fun state ↦ (result, state)

/-- Reads a part of the state. -/
def gets (part : σ → α) : Program σ ε α := fun state ↦ (.ok (part state), state)

/-- Changes the state. -/
def modify (change : σ → σ) : Program σ ε Unit := fun state ↦ (.ok (), change state)

/-- Runs a program and returns a value also when it stops, with the state that it left. -/
def recover (value : ε → α) (program : Program σ ε α) : Program σ ε α := fun state ↦
  match program state with
  | (.ok value, state) => (.ok value, state)
  | (.error code, state) => (.ok (value code), state)

/-- Whether a program returns. -/
def succeeds (program : Program σ ε α) : Program σ ε Bool :=
  recover (fun _ ↦ false) (program >>= fun _ ↦ pure true)

/-- Changes the state when a program stops. -/
def modifyOnError (change : σ → σ) (program : Program σ ε α) : Program σ ε α := fun state ↦
  match program state with
  | (.ok value, state) => (.ok value, state)
  | (.error code, state) => (.error code, change state)

/-- Runs a program with another kind of error codes. -/
def mapError {ε' : Type} (convert : ε → ε') (program : Program σ ε α) : Program σ ε' α :=
  fun state ↦
    match program state with
    | (.ok value, state) => (.ok value, state)
    | (.error code, state) => (.error (convert code), state)

/-- Runs a program on a part of the state. -/
def onPart (part : σ → τ) (replace : τ → σ → σ) (program : Program τ ε α) : Program σ ε α :=
  fun state ↦ ((program (part state)).1, replace (program (part state)).2 state)

/-- Goes on with the value of a part, unless the part says what the whole program returns. -/
def unlessReturned (program : Program σ ε (Except β α)) (next : α → Program σ ε β) :
    Program σ ε β := do
  match ← program with
  | .error value => pure value
  | .ok value => next value

/-- Runs a body for `count` numbers from `start` on. -/
def forRange (body : ℕ → Program σ ε Unit) : ℕ → ℕ → Program σ ε Unit
  | _, 0 => pure ()
  | start, count + 1 => do
      body start
      forRange body (start + 1) count

/-- The weakest precondition: what holds of a state exactly when the program, run on it, meets
`ok` if it returns and `error` if it stops. -/
def wp (program : Program σ ε α) (ok : α → σ → Prop) (error : ε → σ → Prop) (state : σ) : Prop :=
  match program state with
  | (.ok value, state) => ok value state
  | (.error code, state) => error code state

variable {program : Program σ ε α} {ok ok' : α → σ → Prop} {error error' : ε → σ → Prop}
  {state : σ}

/-! ### The rules -/

@[simp]
theorem wp_pure (value : α) : wp (pure value) ok error state ↔ ok value state :=
  Iff.rfl

theorem wp_ofExcept {result : Except ε α} (hok : ∀ value, result = .ok value → ok value state)
    (herror : ∀ code, result = .error code → error code state) :
    wp (ofExcept result) ok error state := by
  rw [wp, ofExcept]
  rcases result with code | value
  · exact herror code rfl
  · exact hok value rfl

@[simp]
theorem wp_gets (part : σ → α) : wp (gets part) ok error state ↔ ok (part state) state :=
  Iff.rfl

@[simp]
theorem wp_modify (change : σ → σ) {done : Unit → σ → Prop} :
    wp (modify change) done error state ↔ done () (change state) :=
  Iff.rfl

@[simp]
theorem bind_of_ok {value : α} {after : σ} (hprogram : program state = (.ok value, after))
    (next : α → Program σ ε β) : (program >>= next) state = next value after := by
  simp only [bind, hprogram]

theorem bind_of_error {code : ε} {after : σ} (hprogram : program state = (.error code, after))
    (next : α → Program σ ε β) : (program >>= next) state = (.error code, after) := by
  simp only [bind, hprogram]

variable {done : β → σ → Prop}

theorem wp_bind (next : α → Program σ ε β) :
    wp (program >>= next) done error state ↔
      wp program (fun value ↦ wp (next value) done error) error state := by
  rw [wp, wp]
  rcases hprogram : program state with ⟨code | value, after⟩
  · rw [bind_of_error hprogram]
  · rw [bind_of_ok hprogram]
    exact Iff.rfl

theorem wp_bind_of_ok {value : α} {after : σ} (hprogram : program state = (.ok value, after))
    (next : α → Program σ ε β) :
    wp (program >>= next) done error state ↔ wp (next value) done error after := by
  rw [wp, wp, bind_of_ok hprogram]

theorem wp_ite (condition : Prop) [Decidable condition] (other : Program σ ε α) :
    wp (if condition then program else other) ok error state ↔
      (condition → wp program ok error state) ∧ (¬ condition → wp other ok error state) := by
  by_cases hcondition : condition
  · simp [hcondition]
  · simp [hcondition]

@[simp]
theorem wp_stopIf (condition : Prop) [Decidable condition] (code : ε) {done : Unit → σ → Prop} :
    wp (stopIf condition code) done error state ↔
      (condition → error code state) ∧ (¬ condition → done () state) :=
  wp_ite condition (pure ())

@[simp]
theorem wp_recover (value : ε → α) :
    wp (program.recover value) ok error state ↔
      wp program ok (fun code ↦ ok (value code)) state := by
  rw [wp, wp, recover]
  rcases program state with ⟨code | value, state⟩
  · exact Iff.rfl
  · exact Iff.rfl

@[simp]
theorem wp_succeeds {answer : Bool → σ → Prop} :
    wp program.succeeds answer error state ↔
      wp program (fun _ ↦ answer true) (fun _ ↦ answer false) state := by
  rw [succeeds, wp_recover, wp_bind]
  exact Iff.rfl

@[simp]
theorem wp_modifyOnError (change : σ → σ) :
    wp (program.modifyOnError change) ok error state ↔
      wp program ok (fun code state ↦ error code (change state)) state := by
  rw [wp, wp, modifyOnError]
  rcases program state with ⟨code | value, state⟩
  · exact Iff.rfl
  · exact Iff.rfl

@[simp]
theorem wp_mapError {ε' : Type} (convert : ε → ε') {failed : ε' → σ → Prop} :
    wp (program.mapError convert) ok failed state ↔
      wp program ok (fun code ↦ failed (convert code)) state := by
  rw [wp, wp, mapError]
  rcases program state with ⟨code | value, state⟩
  · exact Iff.rfl
  · exact Iff.rfl

@[simp]
theorem wp_onPart (part : σ → τ) (replace : τ → σ → σ) (inner : Program τ ε α) :
    wp (onPart part replace inner) ok error state ↔
      wp inner (fun value changed ↦ ok value (replace changed state))
        (fun code changed ↦ error code (replace changed state)) (part state) := by
  rw [wp, wp, onPart]
  rcases inner (part state) with ⟨code | value, changed⟩
  · exact Iff.rfl
  · exact Iff.rfl

theorem wp_unlessReturned {part : Program σ ε (Except β α)} (next : α → Program σ ε β)
    (hpart : wp part (fun result after ↦ match result with
      | .error value => done value after
      | .ok value => wp (next value) done error after) error state) :
    wp (part.unlessReturned next) done error state := by
  rw [unlessReturned, wp_bind]
  revert hpart
  rw [wp, wp]
  rcases part state with ⟨code | (value | value), after⟩
  · exact id
  · exact id
  · exact id

/-- A specification is used by weakening both of its conditions. -/
theorem wp_mono (hprogram : wp program ok error state)
    (hok : ∀ value state, ok value state → ok' value state)
    (herror : ∀ code state, error code state → error' code state) :
    wp program ok' error' state := by
  revert hprogram
  rw [wp, wp]
  rcases program state with ⟨code | value, state⟩
  · exact herror code state
  · exact hok value state

/-- The same for a program that never stops. -/
theorem wp_safe (hprogram : wp program ok (fun _ _ ↦ False) state)
    (hok : ∀ value state, ok value state → ok' value state) : wp program ok' error' state :=
  wp_mono hprogram hok fun _ _ ↦ False.elim

theorem wp_of_forall (hok : ∀ value state, ok value state)
    (herror : ∀ code state, error code state) : wp program ok error state := by
  rw [wp]
  rcases program state with ⟨code | value, state⟩
  · exact herror code state
  · exact hok value state

variable {next : α → Program σ ε β}

/-- The frame rule: what both parts of a sequence keep, the sequence keeps. -/
theorem wp_bind_keeps {keeps : σ → σ → Prop} {failed failed' : Prop}
    (htrans : ∀ {first second third}, keeps first second → keeps second third → keeps first third)
    (hprogram : wp program (fun value after ↦ ok value after ∧ keeps state after)
      (fun _ after ↦ failed' ∧ keeps state after) state) (hfailed : failed' → failed)
    (hnext : ∀ value middle, ok value middle →
      wp (next value) (fun result after ↦ done result after ∧ keeps middle after)
        (fun _ after ↦ failed ∧ keeps middle after) middle) :
    wp (program >>= next) (fun result after ↦ done result after ∧ keeps state after)
      (fun _ after ↦ failed ∧ keeps state after) state := by
  rw [wp_bind]
  refine wp_mono hprogram ?_ fun _ _ herror ↦ ⟨hfailed herror.1, herror.2⟩
  intro value middle hmiddle
  refine wp_mono (hnext value middle hmiddle.1) ?_ ?_
  · exact fun _ _ hdone ↦ ⟨hdone.1, htrans hmiddle.2 hdone.2⟩
  · exact fun _ _ herror ↦ ⟨herror.1, htrans hmiddle.2 herror.2⟩

/-- A condition on the result that does not depend on how a program starts. -/
theorem wp_bind_of_forall (hnext : ∀ value state, wp (next value) done error state)
    (herror : ∀ code state, error code state) : wp (program >>= next) done error state :=
  (wp_bind next).mpr (wp_of_forall hnext herror)

/-- A step of which only the codes it stops with matter. -/
theorem wp_bind_of_stops (hprogram : wp program (fun _ _ ↦ True) error state)
    (hnext : ∀ value state, wp (next value) done error state) :
    wp (program >>= next) done error state :=
  (wp_bind next).mpr (wp_mono hprogram (fun value state _ ↦ hnext value state)
    fun _ _ herror ↦ herror)

theorem wp_and (hprogram : wp program ok error state) (hother : wp program ok' error' state) :
    wp program (fun value state ↦ ok value state ∧ ok' value state)
      (fun code state ↦ error code state ∧ error' code state) state := by
  revert hprogram hother
  rw [wp, wp, wp]
  rcases program state with ⟨code | value, state⟩
  · exact And.intro
  · exact And.intro

/-- The rule for loops: the invariant speaks about the number that comes next. -/
theorem wp_forRange (invariant : ℕ → σ → Prop) {body : ℕ → Program σ ε Unit} {start count : ℕ}
    (hstart : invariant start state)
    (hbody : ∀ index state, start ≤ index → index < start + count → invariant index state →
      wp (body index) (fun _ ↦ invariant (index + 1)) error state) :
    wp (forRange body start count) (fun _ ↦ invariant (start + count)) error state := by
  induction count generalizing start state with
  | zero => exact hstart
  | succ count ih =>
    rw [forRange, wp_bind]
    refine wp_mono (hbody start state (Nat.le_refl start) (by omega) hstart) ?_
      fun _ _ herror ↦ herror
    intro _ next hnext
    have hrest := ih hnext fun index state hlow hhigh ↦ hbody index state (by omega) (by omega)
    rwa [Nat.add_right_comm] at hrest

/-- What a specification says of a run that returned. -/
theorem wp_ok {value : α} {final : σ} (hprogram : wp program ok error state)
    (hrun : program state = (.ok value, final)) : ok value final := by
  rw [wp, hrun] at hprogram
  exact hprogram

/-- A run without a result, from a test of its success. -/
theorem run_eq_of_isOk {program : Program σ ε Unit} {state : σ}
    (hok : (program state).1.isOk = true) : program state = (.ok (), (program state).2) := by
  revert hok
  rcases program state with ⟨code | _, after⟩
  · exact fun hok ↦ absurd hok Bool.false_ne_true
  · exact fun _ ↦ rfl

/-- What a specification says of a run that stopped. -/
theorem wp_error {code : ε} {final : σ} (hprogram : wp program ok error state)
    (hrun : program state = (.error code, final)) : error code final := by
  rw [wp, hrun] at hprogram
  exact hprogram

/-- A program that cannot stop returns. -/
theorem exists_ok (hprogram : wp program ok (fun _ _ ↦ False) state) :
    ∃ value final, program state = (.ok value, final) ∧ ok value final := by
  rw [wp] at hprogram
  rcases hrun : program state with ⟨code | value, final⟩
  · rw [hrun] at hprogram
    exact hprogram.elim
  · rw [hrun] at hprogram
    exact ⟨value, final, rfl, hprogram⟩

end Program

end XBlast.Foundation
