import XBlast.Script.Structured

/-!
# Conditionals whose `ELSE` goes astray

If the body of a conditional with `ELSE` contains a conditional without one, the pass over the file
gives the `ELSE` to the inner conditional. For every such arrangement there is a script that the
engine executes in another way than its structure says (`exists_not_runsStructured`): its tests are
closed comparisons, so that this does not depend on any variable.
-/

set_option autoImplicit false
set_option relaxedAutoImplicit false

namespace XBlast.Script

open Foundation List Option CodeBlock

variable {μ : Type}

variable (host : ScriptHost μ)

/-- The engine passes over a block without an ordinary line, wherever it stands. -/
def PassesBlock (program : ScriptProgram) (lines : List Text) (block : ScriptBlock) : Prop :=
  ∀ ⦃rest : List Text⦄ ⦃before after : IfStatementList⦄ ⦃state : ScriptState μ⦄,
    Located program lines block rest before after →
    state.control.position = linePosition lines (blockTexts block ++ rest) →
    ∃ next, Silent host program state before.length next ∧
      next.control.position = linePosition lines rest

section

variable {host : ScriptHost μ} {program : ScriptProgram} {lines rest : List Text}
  {block : ScriptBlock} {below behind : ℕ} {state : ScriptState μ}

theorem PassesBlock.inside (hblock : PassesBlock host program lines block)
    (hinside : Inside program lines below block rest)
    (hstate : state.control.position = linePosition lines (blockTexts block ++ rest)) :
    ∃ next, Silent host program state (below + 1) next ∧
      next.control.position = linePosition lines rest := by
  obtain ⟨before, after, hlength, hlocated⟩ := hinside
  obtain ⟨next, hsilent, hnext⟩ := hblock hlocated hstate
  exact ⟨next, hsilent.mono hlength, hnext⟩

/-- Lines before a block that is passed over. -/
theorem PassesBlock.after (hblock : PassesBlock host program lines block)
    (hinside : Inside program lines below block rest) {next : ScriptState μ}
    (hsilent : Silent host program state below next)
    (hnext : next.control.position = linePosition lines (blockTexts block ++ rest)) :
    ∃ last, Silent host program state below last ∧
      last.control.position = linePosition lines rest := by
  obtain ⟨last, hlater, hlast⟩ := hblock.inside hinside hnext
  exact ⟨last, hsilent.trans (hlater.mono (Nat.le_succ below)), hlast⟩

/-- A branch that is passed over, and the line that closes it. -/
theorem PassesBlock.branch (hblock : PassesBlock host program lines block)
    (hbranch : AtBranch host program lines below block rest behind state) :
    ∃ last, Silent host program state below last ∧ last.control.position = behind := by
  obtain ⟨middle, hpassed, hmiddle⟩ := hblock.inside hbranch.inside hbranch.position
  obtain ⟨last, hclosing, -, hend⟩ := hbranch.closes middle hmiddle hpassed.kept
  exact ⟨last, (hpassed.mono (Nat.le_succ below)).trans hclosing, hend⟩

end

section

variable {host : ScriptHost μ} (hhost : host.Undisturbed) {program : ScriptProgram}
  {lines : List Text} (hfile : program.file = scriptFile lines) {yes no : Condition}
  {body alternative block : ScriptBlock}

include hhost hfile

/-- The branch of a conditional whose test holds. -/
theorem passesBlock_guarded_of_holds (hyes : ∀ data : ScriptData μ, (yes.test data).1 = true)
    (hbody : PassesBlock host program lines body) (hblock : PassesBlock host program lines block) :
    PassesBlock host program lines (.guarded yes body block) := by
  intro rest before after state hlocated hstate
  obtain ⟨next, hsilent, -, hinside, hholds, -⟩ := enter_guarded hhost hfile hlocated hstate
  obtain ⟨last, hpassed, hlast⟩ := hbody.branch (hholds (hyes state.data))
  exact hblock.after hinside (hsilent.trans hpassed) hlast

variable (hno : ∀ data : ScriptData μ, (no.test data).1 = false)

include hno

theorem passesBlock_guarded_of_fails (body : ScriptBlock)
    (hblock : PassesBlock host program lines block) :
    PassesBlock host program lines (.guarded no body block) := by
  intro rest before after state hlocated hstate
  obtain ⟨next, hsilent, -, hinside, -, hfails⟩ := enter_guarded hhost hfile hlocated hstate
  exact hblock.after hinside hsilent (hfails (hno state.data))

/-- The alternative of a conditional whose test fails is reached if the body is total. -/
theorem passesBlock_choice_of_fails
    (halternative : body.Total → PassesBlock host program lines alternative)
    (hblock : PassesBlock host program lines block) :
    PassesBlock host program lines (.choice no body alternative block) := by
  intro rest before after state hlocated hstate
  obtain ⟨next, hsilent, -, hinside, -, hfails⟩ := enter_choice hhost hfile hlocated hstate
  obtain ⟨hreached, hmissed⟩ := hfails (hno state.data)
  by_cases htotal : body.Total
  · obtain ⟨last, hpassed, hlast⟩ := (halternative htotal).branch (hreached htotal)
    exact hblock.after hinside (hsilent.trans hpassed) hlast
  · exact hblock.after hinside hsilent (hmissed htotal)

/-- A block without lines whose tests fail executes no ordinary line. -/
theorem passesBlock_quiet (block : ScriptBlock) :
    PassesBlock host program lines (block.quiet no) := by
  induction block with
  | done =>
    intro rest before after state _ hstate
    exact ⟨state, ⟨[], Runs.refl state, rfl, Control.Kept.refl _ _⟩, hstate⟩
  | line line block ih => exact ih
  | guarded condition body block _ ihBlock =>
    exact passesBlock_guarded_of_fails hhost hfile hno _ ihBlock
  | choice condition body alternative block _ ihAlternative ihBlock =>
    exact passesBlock_choice_of_fails hhost hfile hno (fun _ ↦ ihAlternative) ihBlock

/-- The engine misses the exposed line. -/
theorem passesBlock_exposed (hyes : ∀ data : ScriptData μ, (yes.test data).1 = true) (item : Line)
    (hcomplete : ¬block.ElseComplete) :
    PassesBlock host program lines (block.exposed item yes no) := by
  have hquiet : ∀ other : ScriptBlock,
      PassesBlock host program lines (other.quiet no) := passesBlock_quiet hhost hfile hno
  induction block with
  | done => exact absurd trivial hcomplete
  | line line block ih => exact ih hcomplete
  | guarded condition body block ihBody ihBlock =>
    rw [CodeBlock.exposed]
    split_ifs with hbody
    · exact passesBlock_guarded_of_fails hhost hfile hno _
        (ihBlock fun hblock ↦ hcomplete ⟨hbody, hblock⟩)
    · exact passesBlock_guarded_of_holds hhost hfile hyes (ihBody hbody) (hquiet block)
  | choice condition body alternative block _ ihAlternative ihBlock =>
    rw [CodeBlock.exposed]
    split_ifs with hbody halternative
    · exact passesBlock_choice_of_fails hhost hfile hno (fun _ ↦ hquiet alternative)
        (ihBlock fun hblock ↦ hcomplete ⟨hbody, halternative, hblock⟩)
    · exact passesBlock_choice_of_fails hhost hfile hno (fun _ ↦ ihAlternative halternative)
        (hquiet block)
    · exact passesBlock_choice_of_fails hhost hfile hno
        (fun htotal ↦ absurd ((total_quiet_iff no body).mp htotal) hbody) (hquiet block)

end

/-! ### Arrangements that the engine does not follow -/

/-- The meaning of a block without positions. -/
def lineMeaning : Meaning Line Condition (ScriptData μ) where
  perform line data := performText host line.text data
  holds condition data := condition.test data

/-- The positions have no part in the structured meaning. -/
theorem mapTrace_eval_placed (position : List Text → ℕ) (block : ScriptBlock) (rest : List Text)
    (data : ScriptData μ) :
    ((placed position block rest).eval (scriptMeaning host) data).mapTrace ExecutedLine.text =
      (block.eval (lineMeaning host) data).mapTrace Line.text := by
  induction block generalizing rest data with
  | done => rfl
  | line line block ih =>
    simp only [placed, CodeBlock.eval, Outcome.mapTrace_andThen, ih]
    rfl
  | guarded condition body block ihBody ihBlock =>
    cases htest : (condition.test data).1 with
    | true =>
      rw [placed, eval_guarded_of_holds htest, eval_guarded_of_holds htest]
      simp only [Outcome.mapTrace_andThen, ihBody, ihBlock]
      rfl
    | false =>
      rw [placed, eval_guarded_of_fails htest, eval_guarded_of_fails htest]
      exact ihBlock rest _
  | choice condition body alternative block ihBody ihAlternative ihBlock =>
    cases htest : (condition.test data).1 with
    | true =>
      rw [placed, eval_choice_of_holds htest, eval_choice_of_holds htest]
      simp only [Outcome.mapTrace_andThen, ihBody, ihBlock]
      rfl
    | false =>
      rw [placed, eval_choice_of_fails htest, eval_choice_of_fails htest]
      simp only [Outcome.mapTrace_andThen, ihAlternative, ihBlock]
      rfl

/-- The line `LCDR`. -/
def resetLine : Line where
  text := ascii "LCDR"
  isLine := by decide
  length_lt := by decide
  keyword := by decide
  ordinary := .inr (by decide)

/-- The number one as one side of a comparison. -/
def oneOperand : Operand where
  word := ascii "1"
  isWord := by decide
  not_function := by decide

/-- The comparisons of one with itself. -/
def oneCondition (comparison : Comparison) : Condition where
  first := oneOperand
  comparison := comparison
  second := oneOperand
  length_lt := by cases comparison <;> decide

theorem oneOperand_value (first second : Int32) (variableList : List Variable) :
    oneOperand.value first variableList = oneOperand.value second variableList := by
  rw [Operand.value, Operand.value, Operand.decodeArgument_eq, Operand.decodeArgument_eq]
  cases lookup variableList oneOperand.word with
  | none | some => rfl

theorem oneCondition_equal (data : ScriptData μ) : ((oneCondition .equal).test data).1 = true :=
  decide_eq_true (oneOperand_value _ _ _)

theorem oneCondition_notEqual (data : ScriptData μ) :
    ((oneCondition .notEqual).test data).1 = false :=
  decide_eq_false (not_not.mpr (oneOperand_value _ _ _))

/-- Every other arrangement of conditionals has a script that does not run by its structure. -/
theorem exists_not_runsStructured {host : ScriptHost μ} (hhost : host.Undisturbed)
    {script : ScriptBlock} (hcomplete : ¬script.ElseComplete) :
    ∃ other : ScriptBlock, other.shape = script.shape ∧
      (∀ text ∈ blockTexts other, text.length < 99) ∧
      ∀ param machine compareBuf, ¬RunsStructured host other param machine compareBuf := by
  obtain ⟨other, hother⟩ : ∃ other,
      other = script.exposed resetLine (oneCondition .equal) (oneCondition .notEqual) := ⟨_, rfl⟩
  refine ⟨other, hother ▸ shape_exposed _ _ _ _, ?_, ?_⟩
  · rw [hother]
    exact forall_mem_flatten_exposed (by decide) (by decide) (by decide) (by decide)
      (by decide) script
  · rintro param machine compareBuf ⟨fuel, trace, hrun, htrace⟩
    have hpasses : PassesBlock host (scriptProgram other) (blockTexts other) other := by
      nth_rewrite 3 [hother]
      exact passesBlock_exposed hhost rfl oneCondition_notEqual oneCondition_equal resetLine
        hcomplete
    obtain ⟨next, ⟨silent, hruns, hsilent, -⟩, hnext⟩ := hpasses (located_script other)
      (position_initialState other param machine compareBuf)
    rw [runScript_eq] at hrun
    rw [(hruns.finish hnext).eq_of_runLines hrun, hsilent] at htrace
    obtain ⟨last, hlast⟩ := eval_exposed oneCondition_equal oneCondition_notEqual
      (fun _ ↦ rfl : ∀ data, ((lineMeaning host).perform resetLine data).isSome) hcomplete
      (initialData param machine)
    have hplaced := mapTrace_eval_placed host (linePosition (blockTexts other)) other []
      (initialData param machine)
    rw [← hother] at hlast
    rw [hlast] at hplaced
    have htexts : (structuredRun host other param machine).trace.map ExecutedLine.text =
      [ascii "LCDR"] := congrArg Outcome.trace hplaced
    obtain ⟨line, hline, htext⟩ := map_eq_singleton_iff.mp htexts
    rw [hline, filter_singleton, isPerformedLine, htext] at htrace
    exact absurd htrace.symm (cons_ne_nil line [])

/-- A well-nested script and its structure. Assumes: nobody stops the script from outside. If every
conditional in the body of a conditional with `ELSE` has an `ELSE` itself, `runScript` executes the
ordinary lines of the structured run, and no others, just when each of them fits the buffer
together with the zero behind the last line. For every other arrangement of conditionals there is a
script that `runScript` executes in another way, whatever the values of its variables. -/
theorem runScript_structured {host : ScriptHost μ} (hhost : host.Undisturbed)
    (script : ScriptBlock) :
    (script.ElseComplete → ∀ param machine compareBuf,
      RunsStructured host script param machine compareBuf ↔ LinesFit host script param machine) ∧
    (¬script.ElseComplete → ∃ other : ScriptBlock, other.shape = script.shape ∧
      (∀ text ∈ blockTexts other, text.length < 99) ∧
      ∀ param machine compareBuf, ¬RunsStructured host other param machine compareBuf) :=
  ⟨runsStructured_iff_linesFit hhost, exists_not_runsStructured hhost⟩

/-- The lines `IF(1==1)`, `IF(1!=1)`, `ELSE`, `LCDR`, `ENDIF`, `ELSE`, `ENDIF`. -/
def nestedScript : ScriptBlock :=
  .choice (oneCondition .equal)
    (.choice (oneCondition .notEqual) .done (.line resetLine .done) .done) .done .done

theorem nestedScript_runsStructured :
    nestedScript.ElseComplete ∧ RunsStructured idleHost nestedScript [] () fun _ ↦ 0 := by
  have hcomplete : nestedScript.ElseComplete :=
    ⟨⟨trivial, trivial, trivial⟩, trivial, trivial⟩
  refine ⟨hcomplete, ?_⟩
  exact ((runScript_structured idleHost_undisturbed nestedScript).1 hcomplete [] ()
    fun _ ↦ 0).mpr (by decide +kernel)

/-- The lines `IF(1==1)`, `IF(1==1)`, `ENDIF`, `ELSE`, `LCDR`, `ENDIF`. -/
def danglingScript : ScriptBlock :=
  .choice (oneCondition .equal) (.guarded (oneCondition .equal) .done .done)
    (.line resetLine .done) .done

/-- The `ELSE` goes to the inner conditional, which is closed, and `LCDR` is executed although the
outer condition holds. -/
theorem danglingScript_not_runsStructured :
    ¬RunsStructured idleHost danglingScript [] () fun _ ↦ 0 := by
  rintro ⟨fuel, trace, hrun, htrace⟩
  have hfixed : runScript idleHost (scriptFile (blockTexts danglingScript)) [] () (fun _ ↦ 0) 7 =
      some [⟨0, ascii "IF(1==1)"⟩, ⟨9, ascii "IF(1==1)"⟩, ⟨18, ascii "ENDIF"⟩, ⟨24, ascii "ELSE"⟩,
        ⟨29, ascii "LCDR"⟩, ⟨34, ascii "ENDIF"⟩] := by
    decide +kernel
  rw [runScript_eq] at hrun hfixed
  have hmore := (runLines_mono hrun 7).symm.trans
    (add_comm 7 fuel ▸ runLines_mono hfixed fuel)
  rw [some.inj hmore] at htrace
  exact absurd htrace (by decide +kernel)

end XBlast.Script
