import Mathlib.Tactic.Common

/-!
# Blocks of lines with nested conditionals

A block is a sequence of lines and conditionals, each conditional with a body and perhaps an
alternative, nested to any depth. Its meaning is the usual one (`CodeBlock.eval`): the lines of the
body are performed when the test holds, those of the alternative otherwise, and a line may end the
whole run. `CodeBlock.flatten` writes a block as a sequence of marks, the form in which an
interpreter reads it.

Two properties of a block speak about its conditionals only. It is `Total` if each of them has an
alternative, and `ElseComplete` if the body of every conditional with an alternative is total. For
a block that is not else-complete, `CodeBlock.exposed` chooses tests and one line such that the
line belongs to the run of the block (`eval_exposed`), in the alternative of an outermost
conditional whose body is not total.

Nothing here depends on a particular program.
-/

set_option autoImplicit false
set_option relaxedAutoImplicit false

namespace XBlast.Foundation

open List

/-- A sequence of lines and of conditionals without (`guarded`) and with (`choice`) an
alternative. -/
inductive CodeBlock (α β : Type)
  | done
  | line (item : α) (rest : CodeBlock α β)
  | guarded (test : β) (body rest : CodeBlock α β)
  | choice (test : β) (body alternative rest : CodeBlock α β)

/-! ### Meaning -/

/-- What lines and tests do to a state. A line may end the run. -/
structure Meaning (α β σ : Type) where
  perform : α → σ → Option σ
  holds : β → σ → Bool × σ

/-- The lines performed by a run and its last state, if the run was not ended. -/
@[ext]
structure Outcome (α σ : Type) where
  trace : List α
  final : Option σ

variable {α β γ σ : Type}

/-- A run followed by another one, unless a line ended the first. -/
def Outcome.andThen (first : Outcome α σ) (next : σ → Outcome α σ) : Outcome α σ :=
  match first.final with
  | none => first
  | some state => ⟨first.trace ++ (next state).trace, (next state).final⟩

@[simp]
theorem Outcome.mk_some_andThen (trace : List α) (state : σ) (next : σ → Outcome α σ) :
    (Outcome.mk trace (some state)).andThen next =
      ⟨trace ++ (next state).trace, (next state).final⟩ :=
  rfl

theorem Outcome.mem_andThen_left {first : Outcome α σ} {item : α} (hitem : item ∈ first.trace)
    (next : σ → Outcome α σ) : item ∈ (first.andThen next).trace := by
  obtain ⟨trace, final⟩ := first
  cases final with
  | none => exact hitem
  | some state => exact mem_append_left _ hitem

theorem Outcome.mem_andThen_right {first : Outcome α σ} {state : σ}
    (hstate : first.final = some state) {next : σ → Outcome α σ} {item : α}
    (hitem : item ∈ (next state).trace) : item ∈ (first.andThen next).trace := by
  obtain ⟨trace, final⟩ := first
  obtain rfl : final = some state := hstate
  exact mem_append_right _ hitem

/-- The outcome with another view of its lines. -/
def Outcome.mapTrace (view : α → γ) (outcome : Outcome α σ) : Outcome γ σ :=
  ⟨outcome.trace.map view, outcome.final⟩

theorem Outcome.mapTrace_andThen (view : α → γ) (first : Outcome α σ) (next : σ → Outcome α σ) :
    (first.andThen next).mapTrace view =
      (first.mapTrace view).andThen fun state ↦ (next state).mapTrace view := by
  obtain ⟨trace, final⟩ := first
  cases final with
  | none => rfl
  | some state =>
    rw [mk_some_andThen, mapTrace, mapTrace, mk_some_andThen, map_append]
    rfl

/-- The structured meaning of a block. -/
def CodeBlock.eval (meaning : Meaning α β σ) : CodeBlock α β → σ → Outcome α σ
  | .done, state => ⟨[], some state⟩
  | .line item rest, state =>
    (Outcome.mk [item] (meaning.perform item state)).andThen (rest.eval meaning)
  | .guarded test body rest, state =>
    let (holds, next) := meaning.holds test state
    (if holds then body.eval meaning next else ⟨[], some next⟩).andThen (rest.eval meaning)
  | .choice test body alternative rest, state =>
    let (holds, next) := meaning.holds test state
    (if holds then body.eval meaning next else alternative.eval meaning next).andThen
      (rest.eval meaning)

section

variable {meaning : Meaning α β σ} {test : β} {body alternative rest : CodeBlock α β} {state : σ}

theorem CodeBlock.eval_guarded_of_holds (htest : (meaning.holds test state).1 = true) :
    (guarded test body rest).eval meaning state =
      (body.eval meaning (meaning.holds test state).2).andThen (rest.eval meaning) := by
  simp only [eval, htest, if_true]

theorem CodeBlock.eval_guarded_of_fails (htest : (meaning.holds test state).1 = false) :
    (guarded test body rest).eval meaning state =
      rest.eval meaning (meaning.holds test state).2 := by
  simp only [eval, htest, Bool.false_eq_true, if_false, Outcome.mk_some_andThen, nil_append]

theorem CodeBlock.eval_choice_of_holds (htest : (meaning.holds test state).1 = true) :
    (choice test body alternative rest).eval meaning state =
      (body.eval meaning (meaning.holds test state).2).andThen (rest.eval meaning) := by
  simp only [eval, htest, if_true]

theorem CodeBlock.eval_choice_of_fails (htest : (meaning.holds test state).1 = false) :
    (choice test body alternative rest).eval meaning state =
      (alternative.eval meaning (meaning.holds test state).2).andThen (rest.eval meaning) := by
  simp only [eval, htest, Bool.false_eq_true, if_false]

end

/-- The marks of a block in order: its lines, its tests, and a mark between body and alternative
and after each conditional. -/
def CodeBlock.flatten (item : α → γ) (test : β → γ) (middle closing : γ) : CodeBlock α β → List γ
  | .done => []
  | .line content rest => item content :: rest.flatten item test middle closing
  | .guarded condition body rest =>
    test condition :: (body.flatten item test middle closing ++
      closing :: rest.flatten item test middle closing)
  | .choice condition body alternative rest =>
    test condition :: (body.flatten item test middle closing ++
      middle :: (alternative.flatten item test middle closing ++
        closing :: rest.flatten item test middle closing))

/-! ### The arrangement of the conditionals -/

/-- The conditionals of a block without its lines and tests. -/
def CodeBlock.shape : CodeBlock α β → CodeBlock Unit Unit
  | .done => .done
  | .line _ rest => rest.shape
  | .guarded _ body rest => .guarded () body.shape rest.shape
  | .choice _ body alternative rest => .choice () body.shape alternative.shape rest.shape

/-- Every conditional of the block has an alternative. -/
def CodeBlock.Total : CodeBlock α β → Prop
  | .done => True
  | .line _ rest => rest.Total
  | .guarded _ _ _ => False
  | .choice _ body alternative rest => body.Total ∧ alternative.Total ∧ rest.Total

/-- The body of every conditional with an alternative is total. -/
def CodeBlock.ElseComplete : CodeBlock α β → Prop
  | .done => True
  | .line _ rest => rest.ElseComplete
  | .guarded _ body rest => body.ElseComplete ∧ rest.ElseComplete
  | .choice _ body alternative rest =>
    body.Total ∧ alternative.ElseComplete ∧ rest.ElseComplete

theorem CodeBlock.Total.elseComplete {block : CodeBlock α β} (htotal : block.Total) :
    block.ElseComplete := by
  induction block with
  | done => trivial
  | line item rest ih => exact ih htotal
  | guarded test body rest => exact htotal.elim
  | choice test body alternative rest _ ihAlternative ihRest =>
    exact ⟨htotal.1, ihAlternative htotal.2.1, ihRest htotal.2.2⟩

/-! ### Exposing a body that is not total -/

/-- The block without its lines and with one test everywhere. -/
def CodeBlock.quiet (no : β) : CodeBlock α β → CodeBlock α β
  | .done => .done
  | .line _ rest => rest.quiet no
  | .guarded _ body rest => .guarded no (body.quiet no) (rest.quiet no)
  | .choice _ body alternative rest =>
    .choice no (body.quiet no) (alternative.quiet no) (rest.quiet no)

open Classical in
/-- The block without its lines, but with the line `item` in the alternative of the first
conditional whose body is not total, and with tests that lead there: `yes` where the way is through
a body, `no` everywhere else. -/
noncomputable def CodeBlock.exposed (item : α) (yes no : β) : CodeBlock α β → CodeBlock α β
  | .done => .done
  | .line _ rest => rest.exposed item yes no
  | .guarded _ body rest =>
    if body.ElseComplete then .guarded no (body.quiet no) (rest.exposed item yes no)
    else .guarded yes (body.exposed item yes no) (rest.quiet no)
  | .choice _ body alternative rest =>
    if body.Total then
      if alternative.ElseComplete then
        .choice no (body.quiet no) (alternative.quiet no) (rest.exposed item yes no)
      else .choice no (body.quiet no) (alternative.exposed item yes no) (rest.quiet no)
    else .choice no (body.quiet no) (.line item (alternative.quiet no)) (rest.quiet no)

theorem CodeBlock.shape_quiet (no : β) (block : CodeBlock α β) :
    (block.quiet no).shape = block.shape := by
  induction block with
  | done => rfl
  | line item rest ih => exact ih
  | guarded test body rest ihBody ihRest => rw [quiet, shape, shape, ihBody, ihRest]
  | choice test body alternative rest ihBody ihAlternative ihRest =>
    rw [quiet, shape, shape, ihBody, ihAlternative, ihRest]

theorem CodeBlock.total_quiet_iff (no : β) (block : CodeBlock α β) :
    (block.quiet no).Total ↔ block.Total := by
  induction block with
  | done | guarded => exact Iff.rfl
  | line item rest ih => exact ih
  | choice test body alternative rest ihBody ihAlternative ihRest =>
    exact and_congr ihBody (and_congr ihAlternative ihRest)

theorem CodeBlock.shape_exposed (item : α) (yes no : β) (block : CodeBlock α β) :
    (block.exposed item yes no).shape = block.shape := by
  induction block with
  | done => rfl
  | line other rest ih => exact ih
  | guarded test body rest ihBody ihRest =>
    rw [exposed]
    split
    · rw [shape, shape, shape_quiet, ihRest]
    · rw [shape, shape, ihBody, shape_quiet]
  | choice test body alternative rest _ ihAlternative ihRest =>
    rw [exposed]
    split_ifs
    · rw [shape, shape, shape_quiet, shape_quiet, ihRest]
    · rw [shape, shape, shape_quiet, ihAlternative, shape_quiet]
    · rw [shape, shape, shape, shape_quiet, shape_quiet, shape_quiet]

section

variable {property : γ → Prop} {mark : α → γ} {testMark : β → γ} {middle closing : γ}
  (hmiddle : property middle) (hclosing : property closing)

include hmiddle hclosing

theorem CodeBlock.forall_mem_flatten_quiet {no : β} (hno : property (testMark no))
    (block : CodeBlock α β) :
    ∀ element ∈ (block.quiet no).flatten mark testMark middle closing, property element := by
  induction block with
  | done => exact nofun
  | line item rest ih => exact ih
  | guarded test body rest ihBody ihRest =>
    simp only [quiet, flatten, forall_mem_cons, forall_mem_append]
    exact ⟨hno, ihBody, hclosing, ihRest⟩
  | choice test body alternative rest ihBody ihAlternative ihRest =>
    simp only [quiet, flatten, forall_mem_cons, forall_mem_append]
    exact ⟨hno, ihBody, hmiddle, ihAlternative, hclosing, ihRest⟩

theorem CodeBlock.forall_mem_flatten_exposed {item : α} {yes no : β} (hitem : property (mark item))
    (hyes : property (testMark yes)) (hno : property (testMark no)) (block : CodeBlock α β) :
    ∀ element ∈ (block.exposed item yes no).flatten mark testMark middle closing,
      property element := by
  have hquiet : ∀ other : CodeBlock α β,
      ∀ element ∈ (other.quiet no).flatten mark testMark middle closing, property element :=
    forall_mem_flatten_quiet hmiddle hclosing hno
  induction block with
  | done => exact nofun
  | line other rest ih => exact ih
  | guarded test body rest ihBody ihRest =>
    rw [exposed]
    split
    · simp only [flatten, forall_mem_cons, forall_mem_append]
      exact ⟨hno, hquiet body, hclosing, ihRest⟩
    · simp only [flatten, forall_mem_cons, forall_mem_append]
      exact ⟨hyes, ihBody, hclosing, hquiet rest⟩
  | choice test body alternative rest _ ihAlternative ihRest =>
    rw [exposed]
    split_ifs
    · simp only [flatten, forall_mem_cons, forall_mem_append]
      exact ⟨hno, hquiet body, hmiddle, hquiet alternative, hclosing, ihRest⟩
    · simp only [flatten, forall_mem_cons, forall_mem_append]
      exact ⟨hno, hquiet body, hmiddle, ihAlternative, hclosing, hquiet rest⟩
    · simp only [flatten, forall_mem_cons, forall_mem_append]
      exact ⟨hno, hquiet body, hmiddle, ⟨hitem, hquiet alternative⟩, hclosing, hquiet rest⟩

end

section

variable {meaning : Meaning α β σ} {item : α} {yes no : β}

theorem CodeBlock.eval_quiet (hno : ∀ state, (meaning.holds no state).1 = false)
    (block : CodeBlock α β) (state : σ) :
    ∃ last, (block.quiet no).eval meaning state = ⟨[], some last⟩ := by
  induction block generalizing state with
  | done => exact ⟨state, rfl⟩
  | line other rest ih => exact ih state
  | guarded test body rest _ ihRest =>
    rw [quiet, eval_guarded_of_fails (hno state)]
    exact ihRest _
  | choice test body alternative rest _ ihAlternative ihRest =>
    obtain ⟨middle, hmiddle⟩ := ihAlternative (meaning.holds no state).2
    rw [quiet, eval_choice_of_fails (hno state), hmiddle]
    exact ihRest middle

/-- The structured meaning performs the exposed line. -/
theorem CodeBlock.eval_exposed (hyes : ∀ state, (meaning.holds yes state).1 = true)
    (hno : ∀ state, (meaning.holds no state).1 = false)
    (hitem : ∀ state, (meaning.perform item state).isSome) {block : CodeBlock α β}
    (hblock : ¬block.ElseComplete) (state : σ) :
    ∃ last, (block.exposed item yes no).eval meaning state = ⟨[item], some last⟩ := by
  induction block generalizing state with
  | done => exact absurd trivial hblock
  | line other rest ih => exact ih hblock state
  | guarded test body rest ihBody ihRest =>
    rw [exposed]
    split_ifs with hbody
    · rw [eval_guarded_of_fails (hno state)]
      exact ihRest (fun hrest ↦ hblock ⟨hbody, hrest⟩) _
    · obtain ⟨middle, hmiddle⟩ := ihBody hbody (meaning.holds yes state).2
      obtain ⟨last, hlast⟩ := eval_quiet hno rest middle
      rw [eval_guarded_of_holds (hyes state), hmiddle, Outcome.mk_some_andThen, hlast]
      exact ⟨last, rfl⟩
  | choice test body alternative rest _ ihAlternative ihRest =>
    rw [exposed]
    split_ifs with hbody halternative
    · obtain ⟨middle, hmiddle⟩ := eval_quiet hno alternative (meaning.holds no state).2
      rw [eval_choice_of_fails (hno state), hmiddle]
      exact ihRest (fun hrest ↦ hblock ⟨hbody, halternative, hrest⟩) middle
    · obtain ⟨middle, hmiddle⟩ := ihAlternative halternative (meaning.holds no state).2
      obtain ⟨last, hlast⟩ := eval_quiet hno rest middle
      rw [eval_choice_of_fails (hno state), hmiddle, Outcome.mk_some_andThen, hlast]
      exact ⟨last, rfl⟩
    · obtain ⟨performed, hperformed⟩ :=
        Option.isSome_iff_exists.mp (hitem (meaning.holds no state).2)
      obtain ⟨middle, hmiddle⟩ := eval_quiet hno alternative performed
      obtain ⟨last, hlast⟩ := eval_quiet hno rest middle
      rw [eval_choice_of_fails (hno state), eval, hperformed, Outcome.mk_some_andThen, hmiddle,
        Outcome.mk_some_andThen, hlast]
      exact ⟨last, rfl⟩

end

end XBlast.Foundation
