import XBlast.Script.IfTable

/-!
# One line of a script

What the engine does with a single line of a laid-out script, by the kind of the line. An ordinary
line has an effect on the data only (`performText`), the line of a condition has the value of the
comparison as its outcome (`Condition.test`), and `ELSE` and `ENDIF` leave the data alone.

`Runs` says that the main loop leads from one state to another, or to the end of the script, and
which lines it executes on the way, with enough fuel given. The lemmas about lines are stated in
this form, so that the lines of a script can be put together (`Runs.andThen`).
-/

set_option autoImplicit false
set_option relaxedAutoImplicit false

namespace XBlast.Script

open Foundation List Option

variable {μ : Type}

/-! ### Ordinary lines -/

variable (host : ScriptHost μ)

/-- An argument of a line without control functions. -/
def performArgument (args : List Argument) (state : ScriptData μ × Registers) (index : ℕ) :
    Option (ScriptData μ × Registers) :=
  match args[index]? with
  | none => some state
  | some argument => executeData host args index argument state.1 state.2

/-- The effect of a line without control functions. -/
def performArguments (texts : List Text) (data : ScriptData μ) : Option (ScriptData μ) :=
  let args := decodeArguments texts data
  ([4, 3, 2, 1, 0].foldlM (performArgument host args)
    ({ data with values := keepValues args data.values }, ⟨0, false, none⟩)).map Prod.fst

/-- The effect of a line that belongs to no conditional. A label has none. -/
def performText (text : Text) (data : ScriptData μ) : Option (ScriptData μ) :=
  if isLabel text then some data else performArguments host (arguments (listImage text)) data

/-- A word that names no function is an operator, a variable, a number or a string. -/
theorem decodeArgument_type {word : Text} (hfunction : findNamed functionCallList word = none)
    (stale : Int32) (variableList : List Variable) :
    (∃ found, findNamed operatorList word = some found ∧
        (decodeArgument word stale variableList).type = .operator found.1) ∨
      (decodeArgument word stale variableList).type ∈
        [ArgumentType.variable, .numeric, .string] := by
  simp only [decodeArgument, hfunction]
  split
  · rename_i hfound
    exact .inl ⟨_, hfound, rfl⟩
  · right
    split
    · simp
    · split
      · simp
      · split <;> simp

theorem isControl_decodeArgument (word : Text) (stale : Int32) (variableList : List Variable) :
    (decodeArgument word stale variableList).type.isControl = isControlWord word := by
  have hothers : ∀ type ∈ [ArgumentType.variable, .numeric, .string], type.isControl = false := by
    decide
  rw [isControlWord]
  cases hfunction : findNamed functionCallList word with
  | some found =>
    rw [decodeArgument, hfunction]
    rfl
  | none =>
    obtain ⟨found, -, htype⟩ | htype := decodeArgument_type hfunction stale variableList
    · rw [htype]
      rfl
    · exact hothers _ htype

variable {args : List Argument}

variable (host : ScriptHost μ) (program : ScriptProgram)

section

variable {index : ℕ} {argument : Argument} (hargument : args[index]? = some argument)

include hargument

/-- A function decides about the next line or acts on the data. -/
theorem executeArgument_function {call : ScriptFunction} (htype : argument.type = .function call)
    (state : LineState μ) : executeArgument host program args state index =
      if call.isControl then
        (callControl program args index call state.control).map fun control ↦
          { state with control := control }
      else
        (callFunction host args index call state.data state.registers).map fun result ↦
          { state with data := result.1, registers := result.2 } := by
  simp only [executeArgument, executeData, hargument, htype]
  rfl

theorem executeArgument_operand (htype : ∀ call, argument.type ≠ .function call)
    (state : LineState μ) : executeArgument host program args state index =
      (executeOperand args index argument state.data state.registers).map fun result ↦
        { state with data := result.1, registers := result.2 } := by
  simp only [executeArgument, executeData, hargument]
  cases hcase : argument.type with
  | function call => exact absurd hcase (htype call)
  | _ => rfl

end

theorem executeArgument_of_ordinary {index : ℕ}
    (hargument : ∀ argument, args[index]? = some argument → argument.type.isControl = false)
    (state : LineState μ) :
    executeArgument host program args state index =
      (performArgument host args (state.data, state.registers) index).map fun result ↦
        { state with data := result.1, registers := result.2 } := by
  rw [executeArgument, performArgument]
  cases hindex : args[index]? with
  | none => rfl
  | some argument => simp only [hargument argument hindex, Bool.false_eq_true, if_false]

theorem foldlM_executeArgument (hargs : ∀ argument ∈ args, argument.type.isControl = false)
    (indices : List ℕ) (state : LineState μ) :
    indices.foldlM (executeArgument host program args) state =
      (indices.foldlM (performArgument host args) (state.data, state.registers)).map fun result ↦
        { state with data := result.1, registers := result.2 } := by
  induction indices generalizing state with
  | nil => rfl
  | cons index indices ih =>
    have hindex : ∀ argument, args[index]? = some argument → argument.type.isControl = false :=
      fun argument hargument ↦ hargs argument (mem_of_getElem? hargument)
    rw [foldlM_cons, foldlM_cons, executeArgument_of_ordinary host program hindex state]
    cases performArgument host args (state.data, state.registers) index with
    | none => rfl
    | some result => exact ih _

/-- A line without control functions goes on with the next line. -/
theorem executeLine_of_ordinary {texts : List Text}
    (htexts : ∀ word ∈ texts, isControlWord word = false) (control : Control)
    (data : ScriptData μ) :
    executeLine host program texts control data =
      (performArguments host texts data).map fun result ↦ (control, result) := by
  have hargs : ∀ argument ∈ decodeArguments texts data, argument.type.isControl = false := by
    intro argument hargument
    obtain ⟨index, hindex, rfl⟩ := mem_mapIdx.mp hargument
    rw [isControl_decodeArgument]
    exact htexts _ (getElem_mem hindex)
  rw [executeLine, performArguments, foldlM_executeArgument host program hargs, Option.map_map,
    Option.map_map]
  rfl

/-! ### The lines of a conditional -/

/-- The value of a word in a comparison. A word that is neither a variable nor a number has the
value that an earlier line left in its place. -/
def Operand.value (operand : Operand) (stale : Int32) (variableList : List Variable) : Int32 :=
  (decodeArgument operand.word stale variableList).value

def Comparison.holds : Comparison → Int32 → Int32 → Bool
  | .equal, first, second => first = second
  | .notEqual, first, second => first ≠ second
  | .greater, first, second => second < first
  | .lower, first, second => first < second
  | .greaterEqual, first, second => second ≤ first
  | .lowerEqual, first, second => first ≤ second

/-- The arguments of the line of a condition. -/
def Condition.words (condition : Condition) : List Text :=
  [ascii "IF", condition.first.word, condition.comparison.text, condition.second.word]

/-- The outcome of a condition, and the data with the values that its line leaves behind. -/
def Condition.test (condition : Condition) (data : ScriptData μ) : Bool × ScriptData μ :=
  (condition.comparison.holds
      (condition.first.value (data.values 1) data.variableList)
      (condition.second.value (data.values 3) data.variableList),
    { data with values := keepValues (decodeArguments condition.words data) data.values })

/-- An operator that leaves the accumulator as it is or combines it with every number. -/
def Operator.neverFaults (op : Operator) : Bool := op ≠ .divide && op ≠ .mod

/-- An argument that is no function and no division. -/
def Argument.IsHarmless (argument : Argument) : Prop :=
  (∀ call, argument.type ≠ .function call) ∧
    ∀ op, argument.type = .operator op → op.neverFaults = true

theorem Registers.exists_operand {registers : Registers}
    (hregisters : registers.arithOpInLine.all Operator.neverFaults = true)
    {combine : Option Operator → Int32 → Int32 → Option Int32}
    (hcombine : combine = combineVariable ∨ combine = combineNumeric) (value : Int32) :
    ∃ next, registers.operand combine value = some next ∧
      next.arithOpInLine = registers.arithOpInLine := by
  rw [operand]
  split
  · obtain ⟨result, hresult⟩ : ∃ result, combine registers.arithOpInLine value
        registers.arithAccumulator = some result := by
      cases hop : registers.arithOpInLine with
      | none => obtain rfl | rfl := hcombine <;> exact ⟨_, rfl⟩
      | some op =>
        rw [hop] at hregisters
        cases op with
        | divide | mod => exact absurd hregisters Bool.false_ne_true
        | _ => obtain rfl | rfl := hcombine <;> exact ⟨_, rfl⟩
    rw [hresult]
    exact ⟨_, rfl, rfl⟩
  · exact ⟨_, rfl, rfl⟩

/-- A harmless argument behind the first changes the registers only. -/
theorem executeArgument_of_operand {index : ℕ} (hindex : index ≠ 0)
    (hargument : ∀ argument, args[index]? = some argument → argument.IsHarmless)
    {state : LineState μ} (hstate : state.registers.arithOpInLine.all Operator.neverFaults = true) :
    ∃ registers : Registers, registers.arithOpInLine.all Operator.neverFaults = true ∧
      executeArgument host program args state index =
        some { state with registers := registers } := by
  cases hfound : args[index]? with
  | none =>
    rw [executeArgument, hfound]
    exact ⟨state.registers, hstate, rfl⟩
  | some argument =>
    obtain ⟨hfunction, hoperator⟩ := hargument argument hfound
    rw [executeArgument_operand host program hfound hfunction, executeOperand]
    rcases htype : argument.type with call | op | _ | _ | _
    · exact absurd htype (hfunction call)
    · exact ⟨{ state.registers with arithOpInLine := some op }, hoperator op htype, rfl⟩
    · obtain ⟨next, hnext, hop⟩ := Registers.exists_operand hstate (.inl rfl) argument.value
      refine ⟨next, by rw [hop]; exact hstate, ?_⟩
      simp only [if_neg hindex, hnext, map_some]
    · obtain ⟨next, hnext, hop⟩ := Registers.exists_operand hstate (.inr rfl) argument.value
      refine ⟨next, by rw [hop]; exact hstate, ?_⟩
      simp only [hnext, map_some]
    · exact ⟨state.registers, hstate, rfl⟩

/-- Several such arguments. -/
theorem foldlM_executeArgument_of_operands {indices : List ℕ}
    (hindices : ∀ index ∈ indices, index ≠ 0)
    (hargs : ∀ index ∈ indices, ∀ argument, args[index]? = some argument → argument.IsHarmless)
    {state : LineState μ} (hstate : state.registers.arithOpInLine.all Operator.neverFaults = true) :
    ∃ registers, indices.foldlM (executeArgument host program args) state =
      some { state with registers := registers } := by
  induction indices generalizing state with
  | nil => exact ⟨state.registers, rfl⟩
  | cons index indices ih =>
    rw [forall_mem_cons] at hindices hargs
    obtain ⟨middle, hregisters, hmiddle⟩ :=
      executeArgument_of_operand host program hindices.1 hargs.1 hstate
    obtain ⟨registers, hlater⟩ := @ih hindices.2 hargs.2
      { state with registers := middle } hregisters
    refine ⟨registers, ?_⟩
    rw [foldlM_cons, hmiddle, bind_eq_bind, bind_some, hlater]

theorem findNamed_eq_none {α : Type} {table : List (String × α)} {name : Text}
    (htable : ∀ entry ∈ table, ascii entry.1 ≠ name) : findNamed table name = none := by
  have hindex : table.findIdx (fun entry ↦ ascii entry.1 = name) = table.length :=
    findIdx_eq_length.mpr fun entry hentry ↦ decide_eq_false (htable entry hentry)
  rw [findNamed, hindex, getElem?_eq_none le_rfl, map_none]

variable {word : Text}

/-- A word that names no function is harmless unless it is a division. -/
theorem isHarmless_decodeArgument (hfunction : findNamed functionCallList word = none)
    (hoperator : ∀ found, findNamed operatorList word = some found → found.1.neverFaults = true)
    (stale : Int32) (variableList : List Variable) :
    (decodeArgument word stale variableList).IsHarmless := by
  obtain ⟨found, hfound, htype⟩ | htype := decodeArgument_type hfunction stale variableList
  · refine ⟨fun call hcall ↦ ArgumentType.noConfusion (htype.symm.trans hcall), fun op hop ↦ ?_⟩
    rw [← ArgumentType.operator.inj (htype.symm.trans hop)]
    exact hoperator found hfound
  · rw [Argument.IsHarmless]
    generalize (decodeArgument word stale variableList).type = type at htype ⊢
    simp only [mem_cons, not_mem_nil, or_false] at htype
    obtain rfl | rfl | rfl := htype <;> simp

/-- A word of letters is no operator. -/
theorem IsWord.findNamed_operatorList (hword : IsWord word) :
    findNamed operatorList word = none := by
  have hspecial : ∀ entry ∈ operatorList,
      ∃ letter ∈ ascii entry.1, isWordLetter letter = false := by decide
  refine findNamed_eq_none fun entry hentry heq ↦ ?_
  obtain ⟨letter, hletter, hspecial⟩ := hspecial entry hentry
  rw [hword.2 letter (heq ▸ hletter)] at hspecial
  exact Bool.noConfusion hspecial

/-- The variable that a name stands for. -/
def lookup (variableList : List Variable) (name : Text) : Option Variable :=
  variableList.find? fun entry ↦ entry.name = name

/-- A word of letters that is no function is a variable, a number or a string. -/
theorem Operand.decodeArgument_eq (operand : Operand) (stale : Int32)
    (variableList : List Variable) :
    decodeArgument operand.word stale variableList =
      match lookup variableList operand.word with
      | some entry => ⟨.variable, entry.value, some entry.name⟩
      | none =>
        if operand.word.head?.any fun letter ↦ isDigit letter || letter == 0x2D then
          ⟨.numeric, Int32.ofInt (strtol operand.word 0), none⟩
        else ⟨.string, stale, some operand.word⟩ := by
  have hquote : operand.word.head? ≠ some 0x22 := by
    intro hhead
    exact (isWordLetter_iff.mp (operand.isWord.2 _ (mem_of_head? hhead))).2.2.1 rfl
  rw [decodeArgument, operand.not_function, operand.isWord.findNamed_operatorList]
  exact if_neg hquote

theorem Operand.isHarmless (operand : Operand) (stale : Int32) (variableList : List Variable) :
    (decodeArgument operand.word stale variableList).IsHarmless := by
  refine isHarmless_decodeArgument operand.not_function (fun found hfound ↦ ?_) stale variableList
  rw [operand.isWord.findNamed_operatorList] at hfound
  exact nomatch hfound

variable (comparison : Comparison)

theorem Comparison.neverFaults :
    ∀ found, findNamed operatorList comparison.text = some found → found.1.neverFaults = true := by
  intro found hfound
  cases comparison <;> (obtain rfl := some.inj hfound; rfl)

theorem Comparison.findNamed_text : findNamed functionCallList comparison.text = none := by
  cases comparison <;> decide

/-- `ifFunction` with the number of a comparison. -/
theorem Comparison.ifFunction_eq (stale : Int32) (variableList : List Variable)
    (first second : Int32) :
    ifFunction first (lowByte (decodeArgument comparison.text stale variableList).value) second =
      comparison.holds first second := by
  cases comparison <;> rfl

/-- The search for an entry finds the first one that is wanted. -/
theorem findEntry_append {wanted : IfStatementEntry → Bool} {list before after : IfStatementList}
    {own : IfStatementEntry} (hlist : list = before ++ own :: after)
    (hbefore : ∀ entry ∈ before, wanted entry = false) (hown : wanted own = true) :
    findEntry list wanted 0 = some before.length ∧ list[before.length]? = some own := by
  subst hlist
  have hfound : (before ++ own :: after).findIdx? wanted = some before.length := by
    rw [findIdx?_append, findIdx?_eq_none_iff.mpr hbefore, findIdx?_cons, hown,
      if_pos rfl, none_or, map_some, zero_add]
  rw [findEntry, if_neg (append_ne_nil_of_right_ne_nil _ (cons_ne_nil _ _)), drop_zero, hfound]
  dsimp only
  rw [zero_add, getElem?_append_right le_rfl, Nat.sub_self, getElem?_cons_zero]
  exact ⟨rfl, rfl⟩

/-- The search never goes back below a bound that is in the list. -/
theorem exists_findEntry {list : IfStatementList} {below start : ℕ}
    (hlist : below < list.length) (hstart : below ≤ start) (wanted : IfStatementEntry → Bool) :
    ∃ found, findEntry list wanted start = some found ∧ below ≤ found := by
  have hne : list ≠ [] := by
    rintro rfl
    exact nomatch hlist
  rw [findEntry, if_neg hne]
  cases (list.drop start).findIdx? wanted with
  | some index => exact ⟨start + index, rfl, by omega⟩
  | none => exact ⟨list.length - 1, rfl, by omega⟩

variable {entry : IfStatementEntry}

section

variable (host : ScriptHost μ) {program : ScriptProgram} {control : Control} (data : ScriptData μ)

/-- A line that begins with a control function and has only harmless arguments behind it. -/
theorem executeLine_call {texts : List Text} (hargs : decodeArguments texts data = args)
    {call : ScriptFunction} {number : Int32} {text : Option Text}
    (hfirst : args[0]? = some ⟨.function call, number, text⟩) (hcall : call.isControl = true)
    (hothers : ∀ argument ∈ args.tail, argument.IsHarmless) :
    executeLine host program texts control data =
      (callControl program args 0 call control).map fun next ↦
        (next, { data with values := keepValues args data.values }) := by
  have hindices : ∀ index ∈ [4, 3, 2, 1], index ≠ 0 := by decide
  have hharmless : ∀ index ∈ [4, 3, 2, 1], ∀ argument, args[index]? = some argument →
      argument.IsHarmless := by
    intro index hindex argument hargument
    obtain ⟨before, rfl⟩ := Nat.exists_eq_succ_of_ne_zero (hindices index hindex)
    refine hothers argument (mem_of_getElem? (?_ : args.tail[before]? = some argument))
    rw [getElem?_tail]
    exact hargument
  rw [executeLine, hargs, show [4, 3, 2, 1, 0] = [4, 3, 2, 1] ++ [0] from rfl, foldlM_append]
  obtain ⟨registers, hoperands⟩ := foldlM_executeArgument_of_operands host program hindices
    hharmless (rfl : (⟨control, { data with values := keepValues args data.values },
      ⟨0, false, none⟩⟩ : LineState μ).registers.arithOpInLine.all Operator.neverFaults = true)
  rw [hoperands, bind_eq_bind, bind_some, foldlM_cons]
  rw [executeArgument_function host program hfirst rfl, if_pos hcall]
  cases callControl program args 0 call control with
  | none | some => rfl

/-- A condition jumps to its `ELSE` or `ENDIF` when it fails. -/
theorem executeLine_condition (condition : Condition) {found : ℕ}
    (hfound : findEntry program.ifStatementList
      (fun entry ↦ entry.ifPosition = control.position) 0 = some found)
    (hentry : program.ifStatementList[found]? = some entry) :
    executeLine host program condition.words control data =
      some ({ position := if (condition.test data).1 then control.position
                else jumpPosition (entry.elsePosition.or entry.endifPosition)
              validAssertion :=
                Function.update control.validAssertion found (condition.test data).1
              ifEntry := some found }, (condition.test data).2) := by
  have hothers : ∀ argument ∈ (decodeArguments condition.words data).tail,
      argument.IsHarmless := by
    have htail : (decodeArguments condition.words data).tail =
        [decodeArgument condition.first.word (data.values 1) data.variableList,
          decodeArgument condition.comparison.text (data.values 2) data.variableList,
          decodeArgument condition.second.word (data.values 3) data.variableList] := rfl
    rw [htail]
    simp only [forall_mem_cons, not_mem_nil, false_imp_iff, implies_true, and_true]
    exact ⟨condition.first.isHarmless _ _, isHarmless_decodeArgument
      condition.comparison.findNamed_text condition.comparison.neverFaults _ _,
      condition.second.isHarmless _ _⟩
  have hfirst : (decodeArguments condition.words data)[0]? =
      some ⟨.function .ifCall, 0, some (ascii "IF")⟩ := rfl
  rw [executeLine_call host data rfl hfirst rfl hothers]
  have hone : (decodeArguments condition.words data)[0 + 1]? = some
      (decodeArgument condition.first.word (data.values 1) data.variableList) := rfl
  have htwo : (decodeArguments condition.words data)[0 + 2]? = some
      (decodeArgument condition.comparison.text (data.values 2) data.variableList) := rfl
  have hthree : (decodeArguments condition.words data)[0 + 3]? = some
      (decodeArgument condition.second.word (data.values 3) data.variableList) := rfl
  simp only [callControl, hone, htwo, hthree, hfound, hentry, bind_some, map_some,
    Comparison.ifFunction_eq]
  rfl

/-- A line that consists of the name of a control function. -/
theorem executeLine_control {call : ScriptFunction} {number : Int32}
    (hword : findNamed functionCallList word = some (call, number))
    (hcall : call.isControl = true) :
    executeLine host program [word] control data =
      (callControl program [⟨.function call, number, some word⟩] 0 call control).map fun next ↦
        (next, data) := by
  have hargs : decodeArguments [word] data = [⟨.function call, number, some word⟩] := by
    simp only [decodeArguments, mapIdx_cons, mapIdx_nil, decodeArgument, hword]
  have hvalues : keepValues [⟨.function call, number, some word⟩] data.values = data.values := by
    funext index
    cases index with
    | zero | succ => rfl
  rw [executeLine_call host data hargs rfl hcall nofun, hvalues]

/-- `ELSE` jumps behind the conditional if its condition held. -/
theorem executeLine_else {found : ℕ}
    (hfound : findEntry program.ifStatementList
      (fun entry ↦ entry.elsePosition = some control.position) 0 = some found)
    (hentry : program.ifStatementList[found]? = some entry) :
    executeLine host program [ascii "ELSE"] control data =
      some ({ control with
              position := if control.validAssertion found then jumpPosition entry.endifPosition
                else control.position
              ifEntry := some found }, data) := by
  rw [executeLine_control host data
    (rfl : findNamed functionCallList (ascii "ELSE") = some (.elseCall, 1)) rfl]
  simp only [callControl, hfound, hentry, bind_some, map_some]

/-- `ENDIF` clears the assertion of some conditional. -/
theorem executeLine_endif {start found : ℕ} (hstart : control.ifEntry = some start)
    (hfound : findEntry program.ifStatementList
      (fun entry ↦ entry.endifPosition = some control.position) start = some found) :
    executeLine host program [ascii "ENDIF"] control data =
      some ({ control with
              validAssertion := Function.update control.validAssertion found false
              ifEntry := some found }, data) := by
  rw [executeLine_control host data
    (rfl : findNamed functionCallList (ascii "ENDIF") = some (.endifCall, 2)) rfl]
  simp only [callControl, hstart, hfound, bind_some, map_some]

end

/-! ### Runs of the main loop -/

/-- Nobody stops the script from outside. -/
structure ScriptHost.Undisturbed (host : ScriptHost μ) : Prop where
  running : ∀ machine, host.cromwellLoop machine = true
  unescaped : ∀ machine, host.emergencyEscape machine = false

/-- A machine on which nothing happens. -/
def idleHost : ScriptHost Unit where
  cromwellLoop _ := true
  emergencyEscape _ := false
  lineSize _ := 20
  gpiFunction _ machine := (false, machine)
  gpoFunction _ _ machine := machine
  waitFunction _ machine := machine
  bootFunction _ machine := machine
  fanFunction _ machine := machine
  ledFunction _ machine := machine
  lcdPrintFunction _ _ _ machine := machine
  lcdClearLineFunction _ machine := machine
  lcdResetFunction machine := machine
  lcdBacklightFunction _ machine := machine
  lcdPowerFunction _ machine := machine
  spiRead machine := (0, machine)
  spiWrite _ machine := machine
  xpadRead _ machine := (0, machine)

theorem idleHost_undisturbed : idleHost.Undisturbed := ⟨fun _ ↦ rfl, fun _ ↦ rfl⟩

/-- The main loop goes on from the last state of an outcome, or ends there. -/
def continueFrom (fuel : ℕ) (outcome : Outcome ExecutedLine (ScriptState μ)) :
    Option (List ExecutedLine) :=
  (match outcome.final with
    | none => some []
    | some next => runLines host program fuel next).map fun rest ↦ outcome.trace ++ rest

theorem runLines_succ (fuel : ℕ) (state : ScriptState μ) :
    runLines host program (fuel + 1) state =
      continueFrom host program fuel (lineStep host program state) :=
  rfl

/-- The main loop executes the lines of the outcome from a state on, and then ends or goes on from
the last state of the outcome. -/
def Runs (state : ScriptState μ) (outcome : Outcome ExecutedLine (ScriptState μ)) : Prop :=
  ∃ count, ∀ fuel, runLines host program (fuel + count) state =
    continueFrom host program fuel outcome

variable {trace : List ExecutedLine} {fuel : ℕ}

section

variable {host : ScriptHost μ} {program : ScriptProgram} {state next : ScriptState μ}

theorem Runs.refl (state : ScriptState μ) : Runs host program state ⟨[], some state⟩ :=
  ⟨0, fun _ ↦ map_id_apply.symm⟩

theorem Runs.step (state : ScriptState μ) : Runs host program state (lineStep host program state) :=
  ⟨1, fun fuel ↦ runLines_succ host program fuel state⟩

theorem Runs.trans {outcome : Outcome ExecutedLine (ScriptState μ)}
    (hfirst : Runs host program state ⟨trace, some next⟩) (hnext : Runs host program next outcome) :
    Runs host program state ⟨trace ++ outcome.trace, outcome.final⟩ := by
  obtain ⟨count, hcount⟩ := hfirst
  obtain ⟨more, hmore⟩ := hnext
  refine ⟨more + count, fun fuel ↦ ?_⟩
  rw [← add_assoc, hcount, continueFrom]
  dsimp only
  rw [hmore, continueFrom, continueFrom, Option.map_map]
  simp only [Function.comp_def, append_assoc]

theorem runLines_mono_succ (hrun : runLines host program fuel state = some trace) :
    runLines host program (fuel + 1) state = some trace := by
  induction fuel generalizing state trace with
  | zero => exact nomatch hrun
  | succ fuel ih =>
    rw [runLines_succ, continueFrom] at hrun ⊢
    cases hfinal : (lineStep host program state).final with
    | none =>
      rw [hfinal] at hrun
      exact hrun
    | some next =>
      rw [hfinal] at hrun
      dsimp only at hrun ⊢
      obtain ⟨rest, hrest, rfl⟩ := map_eq_some_iff.mp hrun
      rw [ih hrest]
      rfl

/-- More fuel does not change the lines that are executed. -/
theorem runLines_mono (hrun : runLines host program fuel state = some trace) (more : ℕ) :
    runLines host program (fuel + more) state = some trace := by
  induction more with
  | zero => exact hrun
  | succ more ih => exact runLines_mono_succ ih

/-- A run to the end is the only one. -/
theorem Runs.eq_of_runLines {trace other : List ExecutedLine}
    (hrun : Runs host program state ⟨trace, none⟩)
    (hother : runLines host program fuel state = some other) : other = trace := by
  obtain ⟨count, hcount⟩ := hrun
  have hsame := (runLines_mono hother count).symm.trans (hcount fuel)
  rw [continueFrom, map_some, append_nil] at hsame
  exact some.inj hsame

/-- Every line that is executed fits the buffer. -/
theorem length_lt_of_mem_runLines (hrun : runLines host program fuel state = some trace)
    {line : ExecutedLine} (hline : line ∈ trace) :
    (lineAt program.file line.position).length < 100 := by
  induction fuel generalizing state trace with
  | zero => exact nomatch hrun
  | succ fuel ih =>
    rw [runLines_succ, continueFrom] at hrun
    obtain ⟨rest, hrest, rfl⟩ := map_eq_some_iff.mp hrun
    obtain hline | hline := mem_append.mp hline
    · rw [lineStep] at hline
      dsimp only at hline
      split_ifs at hline with hinside hlabel hstops
      · exact nomatch hline
      · exact nomatch hline
      · rw [mem_singleton.mp hline]
        have hlength := lt_of_not_ge (not_or.mp hstops).1
        rw [length_take] at hlength
        exact (min_lt_iff.mp hlength).resolve_left (lt_irrefl 100)
      · exact nomatch hline
    · cases hfinal : (lineStep host program state).final with
      | none =>
        rw [hfinal] at hrest
        rw [← some.inj hrest] at hline
        exact nomatch hline
      | some next =>
        rw [hfinal] at hrest
        exact ih hrest hline

end

/-! ### Steps in a laid-out script -/

/-- Behind the last line nothing is executed. -/
theorem lineStep_end {host : ScriptHost μ} {program : ScriptProgram} {lines : List Text}
    (hfile : program.file = scriptFile lines) {state : ScriptState μ}
    (hstate : state.control.position = linePosition lines []) :
    lineStep host program state = ⟨[], none⟩ := by
  rw [lineStep, if_neg]
  rw [hstate, hfile]
  exact fun h ↦ not_lt.mpr (length_le_linePosition_nil lines) h.1

section

variable {host : ScriptHost μ} (hhost : host.Undisturbed) {program : ScriptProgram}
  {lines rest : List Text} {line : Text} (hfile : program.file = scriptFile lines)
  (hsuffix : line :: rest <:+ lines) (hline : IsLine line) {state : ScriptState μ}
  (hstate : state.control.position = linePosition lines (line :: rest))

include hhost hfile hsuffix hline hstate

/-- One turn of the main loop at a line of the script. -/
theorem lineStep_eq (hlength : line.length < 100) :
    lineStep host program state =
      if isLabel line then
        ⟨[], some { state with control :=
          { state.control with position := linePosition lines rest } }⟩
      else if 100 ≤ line.length + closingZeros rest then ⟨[], none⟩
      else
        ⟨[⟨linePosition lines (line :: rest), line⟩],
          (executeLine host program
            (arguments (loadLine (line ++ List.replicate (closingZeros rest) 0)
              state.compareBuf).image)
            { state.control with position := linePosition lines rest } state.data).map fun result ↦
              ⟨result.1, result.2,
                loadLine (line ++ List.replicate (closingZeros rest) 0) state.compareBuf⟩⟩ := by
  have hzeros := closingZeros_le_one rest
  have hfull : (line ++ List.replicate (closingZeros rest) 0).length =
      line.length + closingZeros rest := by
    rw [length_append, length_replicate]
  have htext : (lineAt program.file state.control.position).take 100 =
      line ++ List.replicate (closingZeros rest) 0 := by
    rw [hfile, hstate, lineAt_linePosition hsuffix hline, take_of_length_le (by omega)]
  have hstring : cString (line ++ List.replicate (closingZeros rest) 0) = line :=
    cString_append_replicate (fun letter hletter ↦ (hline letter hletter).1) _
  have hinside : state.control.position < program.file.length ∧
      host.cromwellLoop state.data.machine = true := by
    rw [hfile, hstate]
    exact ⟨linePosition_lt_length hsuffix, hhost.running _⟩
  rw [lineStep, if_pos hinside, htext]
  dsimp only
  rw [hfull, hstring, hstate, linePosition_cons_add hsuffix]
  simp only [head?_append_replicate_iff, hhost.unescaped, Bool.false_eq_true, or_false]

/-- A line that is no label and fits the buffer is executed. -/
theorem lineStep_line (hquotes : QuotesClosed line) (hlabel : isLabel line = false)
    (hlength : line.length + closingZeros rest < 100) :
    lineStep host program state =
      ⟨[⟨linePosition lines (line :: rest), line⟩],
        (executeLine host program (arguments (listImage line))
          { state.control with position := linePosition lines rest } state.data).map fun result ↦
            ⟨result.1, result.2,
              loadLine (line ++ List.replicate (closingZeros rest) 0) state.compareBuf⟩⟩ := by
  rw [lineStep_eq hhost hfile hsuffix hline hstate (by omega),
    if_neg (hlabel ▸ Bool.false_ne_true), if_neg (not_le.mpr hlength),
    arguments_loadLine (fun letter hletter ↦ (hline letter hletter).1) hlength _ hquotes]

end

end XBlast.Script
