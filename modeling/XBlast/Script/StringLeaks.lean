import XBlast.Script.Points

/-!
# What a script leaves allocated

A run of a script ends at the end of the file, at a line that is too long, by the escape
combination, by `END`, or by an error in a line; a script whose conditionals are not accepted is not
run at all. All ways lead to the flush of the three lists, which gives back every block of theirs
once. The strings among the arguments of the last line are given back only when another line is
executed, so they are lost unless the run ends by the escape combination, which is looked at after
they have been given back (`flush_balanced_iff`).
-/

set_option autoImplicit false
set_option relaxedAutoImplicit false

namespace XBlast.Script

open Foundation Option

variable {μ : Type}

/-! ### The ends of a run -/

/-- The execution of an argument jumps to the end of the script: a condition with missing arguments,
a declaration that is not the first argument of its line or has no name, `END`, or an assignment to
a variable that does not exist. -/
def EndsScript (args : List Argument) (index : ℕ) (state : LineState μ) (argument : Argument) :
    Prop :=
  match argument.type with
  | .function .ifCall =>
    args[index + 1]? = none ∨ args[index + 2]? = none ∨ args[index + 3]? = none
  | .function .var => index ≠ 0 ∨ args[1]? = none
  | .function .endCall => True
  | .variable => ∃ name value,
      variableCall args index state.registers = some (.assign name value) ∧
        updateVariable name value state.data.variableList = none
  | _ => False

/-- A run ends at a point, with the memory at the end and with the arguments of the last line,
unless their strings have been given back. -/
inductive Exits (host : ScriptHost μ) (program : ScriptProgram) (point : Point μ) :
    ScriptMemory → List Argument → Prop
  | finished (hpending : point.pending = []) (hstops : ¬point.GoesOn host program) :
      Exits host program point point.memory point.args
  | tooLong (hpending : point.pending = []) (hgoes : point.GoesOn host program)
      (hlabel : (point.line program).head? ≠ some 0x24)
      (hlength : 100 ≤ (point.line program).length) :
      Exits host program point point.memory point.args
  | escaped (hpending : point.pending = []) (hgoes : point.GoesOn host program)
      (hlabel : (point.line program).head? ≠ some 0x24)
      (hlength : (point.line program).length < 100)
      (hescape : host.emergencyEscape point.state.data.machine = true) :
      Exits host program point point.memory.releaseStrings []
  | ended {index : ℕ} {rest : List ℕ} {argument : Argument}
      (hpending : point.pending = index :: rest) (hargument : point.args[index]? = some argument)
      (hends : EndsScript point.args index point.current argument) :
      Exits host program point point.memory point.args

/-- `runScript` comes to its end, before the lists are flushed. -/
inductive Returns (host : ScriptHost μ) (ledger : Ledger) (param : List Int32) (file : Text)
    (machine : μ) (compareBuf : Packed 100) : ScriptMemory → List Argument → Prop
  | rejected (hrejected : parseFileForIFStatements file = none) :
      Returns host ledger param file machine compareBuf (.setup ledger param file) []
  | exited {list : IfStatementList} {point : Point μ} {memory : ScriptMemory}
      {args : List Argument} (haccepted : parseFileForIFStatements file = some list)
      (hsteps : Relation.ReflTransGen (PointStep host ⟨file, parseFileForLabels file, list⟩)
        (startPoint ledger param file machine compareBuf) point)
      (hexits : Exits host ⟨file, parseFileForLabels file, list⟩ point memory args) :
      Returns host ledger param file machine compareBuf memory args

/-- The engine executes no argument where the script ends. -/
theorem executeArgument_of_endsScript (host : ScriptHost μ) (program : ScriptProgram)
    {args : List Argument} {index : ℕ} {state : LineState μ} {argument : Argument}
    (hargument : args[index]? = some argument) (hends : EndsScript args index state argument) :
    executeArgument host program args state index = none := by
  rw [EndsScript] at hends
  split at hends
  · rename_i htype
    rw [executeArgument_function host program hargument htype,
      if_pos (show ScriptFunction.ifCall.isControl = true from rfl), map_eq_none_iff, callControl]
    dsimp only
    split
    · rename_i first op second hfirst hop hsecond
      rw [hfirst, hop, hsecond] at hends
      simp at hends
    · rfl
  · rename_i htype
    rw [executeArgument_function host program hargument htype,
      if_neg (show ¬ScriptFunction.var.isControl = true by decide), map_eq_none_iff]
    cases hresult : callFunction host args index .var state.data state.registers with
    | none => rfl
    | some result =>
      obtain ⟨rfl, name, hname, -⟩ := callFunction_var hresult
      rw [hname] at hends
      simp at hends
  · rename_i htype
    rw [executeArgument_function host program hargument htype]
    rfl
  · rename_i htype
    obtain ⟨name, value, hcall, hupdate⟩ := hends
    have hoperand (call : ScriptFunction) : argument.type ≠ .function call :=
      fun hcall ↦ ArgumentType.noConfusion (htype.symm.trans hcall)
    rw [executeArgument_operand host program hargument hoperand, map_eq_none_iff]
    cases hresult : executeOperand args index argument state.data state.registers with
    | none => rfl
    | some result =>
      have hlist := executeOperand_variableList hargument hoperand hresult
      rw [hcall, elim_some, VariableCall.onList, hupdate] at hlist
      cases hlist
  · exact hends.elim

/-! ### What is left -/

theorem ArgumentType.isString_iff (type : ArgumentType) :
    type.isString = true ↔ type = .string := by
  cases type with
  | string => exact iff_of_true rfl rfl
  | _ => exact iff_of_false Bool.false_ne_true ArgumentType.noConfusion

section

variable {host : ScriptHost μ} {ledger : Ledger} {param : List Int32} {file : Text} {machine : μ}
  {compareBuf : Packed 100} {memory : ScriptMemory} {args : List Argument}

/-- At the end of a run the lists own their blocks, and there are as many strings as in the
arguments. -/
theorem Returns.owns (hreturns : Returns host ledger param file machine compareBuf memory args) :
    memory.IsOwned ledger.next ∧
      memory.strings.length = args.countP fun argument ↦ argument.type.isString := by
  cases hreturns with
  | rejected =>
    have hsound := sound_startPoint ledger param file machine compareBuf
    exact ⟨hsound.owned, hsound.strings⟩
  | exited haccepted hsteps hexits =>
    have hsound := Reached.sound ⟨_, haccepted, hsteps⟩
    cases hexits with
    | finished | tooLong | ended => exact ⟨hsound.owned, hsound.strings⟩
    | escaped =>
      obtain ⟨cells, labels, statements, howns⟩ := hsound.owned
      refine ⟨⟨cells, labels, statements, howns.releaseStrings⟩, ?_⟩
      rw [ScriptMemory.strings_releaseStrings]
      rfl

theorem Returns.balanced_iff_countP
    (hreturns : Returns host ledger param file machine compareBuf memory args) :
    memory.flush.Balanced ledger.next ↔
      args.countP (fun argument ↦ argument.type.isString) = 0 := by
  obtain ⟨⟨cells, labels, statements, howns⟩, hcount⟩ := hreturns.owns
  rw [howns.flush.balanced_iff, ← List.length_eq_zero_iff, hcount]

/-- A script of one line that is executed to its end returns with the arguments of the line. -/
theorem exists_returns_of_line (ledger : Ledger) {list : IfStatementList}
    (haccepted : parseFileForIFStatements file = some list)
    (hline : (lineStep host ⟨file, parseFileForLabels file, list⟩ ⟨⟨0, fun _ ↦ false, none⟩,
      ⟨initialVariables param, fun _ ↦ 0, machine⟩, compareBuf⟩).final.any
        (fun following ↦ file.length ≤ following.control.position) = true)
    (hlabel : ((lineAt file 0).take 100).head? ≠ some 0x24) :
    ∃ memory, Returns host ledger param file machine compareBuf memory
      ((startPoint ledger param file machine compareBuf).enter
        ⟨file, parseFileForLabels file, list⟩).args := by
  obtain ⟨following, hfinal, hend⟩ := (any_eq_true _ _).mp hline
  obtain ⟨point, hsteps, hpoint, hargs⟩ :=
    (matches_startPoint ledger param file machine compareBuf).exists_steps
      (sound_startPoint ledger param file machine compareBuf) hfinal
  refine ⟨point.memory, hargs.trans (if_neg hlabel) ▸
    .exited haccepted hsteps (.finished hpoint.pending fun hgoes ↦ ?_)⟩
  rw [Point.GoesOn, hpoint.control] at hgoes
  exact absurd hgoes.1 (not_lt.mpr (of_decide_eq_true hend))

end

end XBlast.Script
