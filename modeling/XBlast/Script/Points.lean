import XBlast.Script.Allocation
import XBlast.Script.LineSteps

/-!
# The points of a run

A run of a script is taken apart into steps: a label is passed over, a line is entered, an argument
of a line is executed. Between the steps stand the points of the run, each with the memory as it is
there. A line is entered by giving back the strings of the line before and decoding the arguments;
the variables are read from the memory.

At every point the memory is sound (`Reached.sound`): the lists are well linked, what is to be given
back is what the lists and the strings of the last line have, the names of the variables are
different, and the constants have their values. The steps of a line make up one turn of the main
loop (`Point.Matches.exists_steps`).
-/

set_option autoImplicit false
set_option relaxedAutoImplicit false

namespace XBlast.Script

open Foundation List

variable {μ : Type}

/-! ### Calls on the variable list -/

/-- A call on the variable list. The name of a declaration is a null pointer if the argument is a
number or an operator. -/
inductive VariableCall
  | declare (name : Option Text) (initValue : Int32)
  | assign (name : Text) (value : Int32)

/-- The call that the first argument of a line makes. -/
def Argument.variableCall (argument : Argument) (args : List Argument) (registers : Registers) :
    Option VariableCall :=
  match argument.type with
  | .function .var => args[1]?.map fun name ↦
      .declare name.text ((args[3]?.map Argument.value).getD 0)
  | .variable =>
    if registers.accumulatorInUse ∧ args[1]?.any fun next ↦ next.type = .operator .eq then
      some (.assign (argument.text.getD []) registers.arithAccumulator)
    else none
  | _ => none

/-- The call that the execution of an argument makes. Only the first argument of a line makes
one. -/
def variableCall (args : List Argument) (index : ℕ) (registers : Registers) :
    Option VariableCall :=
  if index = 0 then args[0]?.bind fun argument ↦ argument.variableCall args registers else none

/-- The call on the plain list of variables. -/
def VariableCall.onList (variableList : List Variable) : VariableCall → Option (List Variable)
  | .declare (some name) initValue => some (variableFunction name initValue variableList false)
  | .declare none _ => some variableList
  | .assign name value => updateVariable name value variableList

/-- The call on the memory. A null pointer is read as a text like any other pointer: the name is
what is found at address zero. -/
inductive VariableCall.Effect : Option VariableCall → ScriptMemory → ScriptMemory → Prop
  | nothing (memory : ScriptMemory) : Effect none memory memory
  | declare (name : Text) (initValue : Int32) (memory : ScriptMemory) :
      Effect (some (.declare (some name) initValue)) memory
        (memory.variableFunction name initValue false)
  | declareNull (found : Text) (initValue : Int32) (memory : ScriptMemory) :
      Effect (some (.declare none initValue)) memory
        (memory.variableFunction found initValue false)
  | assign (name : Text) (value : Int32) (memory : ScriptMemory) :
      Effect (some (.assign name value)) memory (memory.updateVariable name value)

/-! ### Points and steps -/

/-- A point of a run: the state of the current line, its arguments, the numbers of those that are
still to be executed, and the memory. Between two lines there are none to be executed, and the
arguments are those of the last line. -/
structure Point (μ : Type) where
  state : LineState μ
  compareBuf : Packed 100
  args : List Argument
  pending : List ℕ
  memory : ScriptMemory

namespace Point

/-- The state with the variables that are in the memory. -/
def current (point : Point μ) : LineState μ :=
  { point.state with
    data := { point.state.data with variableList := point.memory.visibleVariables } }

/-- The main loop goes on. -/
def GoesOn (host : ScriptHost μ) (program : ScriptProgram) (point : Point μ) : Prop :=
  point.state.control.position < program.file.length ∧
    host.cromwellLoop point.state.data.machine = true

variable (program : ScriptProgram) (point : Point μ)

/-- The next line, up to 100 letters. -/
def line : Text :=
  (lineAt program.file point.state.control.position).take 100

/-- The control behind the next line. -/
def afterLine : Control :=
  { point.state.control with
    position := point.state.control.position + (point.line program).length + 1 }

/-- The next line is copied and its arguments are decoded. -/
def enter : Point μ :=
  let compareBuf := loadLine (point.line program) point.compareBuf
  let args := decodeArguments (arguments compareBuf.image) point.current.data
  { state := ⟨point.afterLine program,
      { point.current.data with values := keepValues args point.state.data.values },
      ⟨0, false, none⟩⟩
    compareBuf := compareBuf
    args := args
    pending := [4, 3, 2, 1, 0]
    memory := point.memory.releaseStrings.decodeSlots 0 args }

end Point

inductive PointStep (host : ScriptHost μ) (program : ScriptProgram) : Point μ → Point μ → Prop
  | label {point : Point μ} (hpending : point.pending = []) (hgoes : point.GoesOn host program)
      (hlabel : (point.line program).head? = some 0x24) :
      PointStep host program point
        { point with state := { point.state with control := point.afterLine program } }
  | line {point : Point μ} (hpending : point.pending = []) (hgoes : point.GoesOn host program)
      (hlabel : (point.line program).head? ≠ some 0x24)
      (hlength : (point.line program).length < 100)
      (hescape : host.emergencyEscape point.state.data.machine = false) :
      PointStep host program point (point.enter program)
  | argument {point : Point μ} {index : ℕ} {rest : List ℕ} {next : LineState μ}
      {memory : ScriptMemory} (hpending : point.pending = index :: rest)
      (hexecute : executeArgument host program point.args point.current index = some next)
      (heffect : VariableCall.Effect (variableCall point.args index point.state.registers)
        point.memory memory) :
      PointStep host program point
        { point with state := next, pending := rest, memory := memory }

/-! ### The start of a run -/

def constantVariable (constant : String × Int32) : Variable :=
  ⟨ascii constant.1, constant.2, true⟩

section

variable (host : ScriptHost μ) (ledger : Ledger) (param : List Int32) (file : Text) (machine : μ)
  (compareBuf : Packed 100)

/-- The conditionals that have been found when the pass over the file ends, also by an error. -/
def parsedIfStatements : ℕ → ℕ → IfStatementList → IfStatementList
  | 0, _, list => list
  | fuel + 1, position, list =>
    if position < file.length then
      let next := position + (lineAt file position).length + 1
      match parseIfLine (lineKeyword file position) next list with
      | none => list
      | some list => parsedIfStatements fuel next list
    else list

/-- The parameters and the constants are declared. -/
def ScriptMemory.declareInitial (memory : ScriptMemory) : ScriptMemory :=
  scriptConstants.foldl
    (fun memory entry ↦ memory.variableFunction (ascii entry.1) entry.2 true)
    (param.zipIdx.foldl (fun memory entry ↦
      memory.variableFunction (ascii "_param" ++ decimal entry.2) entry.1 false) memory)

/-- The memory after the two passes over the file. -/
def ScriptMemory.setup : ScriptMemory :=
  (parsedIfStatements file file.length 0 []).foldl addIfStatement
    ((parseFileForLabels file).foldl addNewLabel ((start ledger).declareInitial param))

/-- The first point, before the first line. -/
def startPoint : Point μ where
  state :=
    ⟨⟨0, fun _ ↦ false, none⟩, ⟨initialVariables param, fun _ ↦ 0, machine⟩, ⟨0, false, none⟩⟩
  compareBuf := compareBuf
  args := []
  pending := []
  memory := .setup ledger param file

/-- The points that a run of an accepted script can come to. -/
def Reached (point : Point μ) : Prop :=
  ∃ list, parseFileForIFStatements file = some list ∧
    Relation.ReflTransGen (PointStep host ⟨file, parseFileForLabels file, list⟩)
      (startPoint ledger param file machine compareBuf) point

end

/-! ### The variable list -/

/-- The names of the variables are different, and every constant is among them with its value. -/
structure StoreSound (variableList : List Variable) : Prop where
  names : (variableList.map Variable.name).Nodup
  constants : ∀ constant ∈ scriptConstants, constantVariable constant ∈ variableList

variable {variableList : List Variable}

theorem nodup_variableFunction (hnames : (variableList.map Variable.name).Nodup) (name : Text)
    (initValue : Int32) (readOnly : Bool) :
    ((variableFunction name initValue variableList readOnly).map Variable.name).Nodup := by
  rw [variableFunction]
  split_ifs with htaken
  · exact hnames
  · rw [map_append, nodup_append]
    refine ⟨hnames, nodup_singleton _, ?_⟩
    intro first hfirst second hsecond hsame
    obtain ⟨entry, hentry, rfl⟩ := mem_map.mp hfirst
    rw [mem_singleton.mp hsecond] at hsame
    exact htaken (any_eq_true.mpr ⟨entry, hentry, decide_eq_true hsame⟩)

theorem subset_variableFunction (name : Text) (initValue : Int32) (variableList : List Variable)
    (readOnly : Bool) : variableList ⊆ variableFunction name initValue variableList readOnly := by
  rw [variableFunction]
  split_ifs
  · exact List.Subset.refl _
  · exact subset_append_left _ _

theorem StoreSound.variableFunction (hsound : StoreSound variableList) (name : Text)
    (initValue : Int32) (readOnly : Bool) :
    StoreSound (variableFunction name initValue variableList readOnly) where
  names := nodup_variableFunction hsound.names name initValue readOnly
  constants constant hconstant :=
    subset_variableFunction name initValue variableList readOnly
      (hsound.constants constant hconstant)

/-- An assignment keeps the names and every read-only variable. -/
theorem updateVariable_keeps {name : Text} {value : Int32} {variableList after : List Variable}
    (hupdate : updateVariable name value variableList = some after) :
    after.map Variable.name = variableList.map Variable.name ∧
      ∀ entry ∈ variableList, entry.readOnly = true → entry ∈ after := by
  induction variableList generalizing after with
  | nil => exact nomatch hupdate
  | cons first variableList ih =>
    rw [updateVariable] at hupdate
    split_ifs at hupdate with hname hreadOnly
    · obtain rfl := Option.some.inj hupdate
      exact ⟨rfl, fun entry hentry _ ↦ hentry⟩
    · obtain rfl := Option.some.inj hupdate
      refine ⟨rfl, fun entry hentry hentryReadOnly ↦ ?_⟩
      obtain rfl | hentry := mem_cons.mp hentry
      · exact absurd hentryReadOnly hreadOnly
      · exact mem_cons_of_mem _ hentry
    · obtain ⟨rest, hrest, rfl⟩ := Option.map_eq_some_iff.mp hupdate
      obtain ⟨hnames, hkeeps⟩ := ih hrest
      refine ⟨by rw [map_cons, map_cons, hnames], fun entry hentry hreadOnly ↦ ?_⟩
      obtain rfl | hentry := mem_cons.mp hentry
      · exact mem_cons_self
      · exact mem_cons_of_mem _ (hkeeps entry hentry hreadOnly)

theorem StoreSound.updateVariable {variableList after : List Variable}
    (hsound : StoreSound variableList) {name : Text} {value : Int32}
    (hupdate : updateVariable name value variableList = some after) : StoreSound after where
  names := by
    rw [(updateVariable_keeps hupdate).1]
    exact hsound.names
  constants constant hconstant :=
    (updateVariable_keeps hupdate).2 _ (hsound.constants constant hconstant) rfl

/-- Constants with different new names are added one after the other. -/
theorem foldl_variableFunction_constants {constants : List (String × Int32)}
    (hnodup : (constants.map fun entry ↦ ascii entry.1).Nodup)
    (hfresh : ∀ constant ∈ constants, ∀ entry ∈ variableList, entry.name ≠ ascii constant.1) :
    constants.foldl (fun list entry ↦ variableFunction (ascii entry.1) entry.2 list true)
      variableList = variableList ++ constants.map constantVariable := by
  induction constants generalizing variableList with
  | nil => exact (append_nil variableList).symm
  | cons constant constants ih =>
    rw [map_cons, nodup_cons] at hnodup
    have hnew : ¬(variableList.any fun entry ↦ entry.name = ascii constant.1) = true := by
      rw [any_eq_true]
      rintro ⟨entry, hentry, hsame⟩
      exact hfresh constant mem_cons_self entry hentry (of_decide_eq_true hsame)
    have hadded : variableFunction (ascii constant.1) constant.2 variableList true =
        variableList ++ [constantVariable constant] := by
      rw [variableFunction, if_neg hnew, constantVariable]
    rw [foldl_cons, hadded, ih hnodup.2, map_cons, append_assoc, singleton_append]
    intro other hother entry hentry
    obtain hentry | hentry := mem_append.mp hentry
    · exact hfresh other (mem_cons_of_mem _ hother) entry hentry
    · rw [mem_singleton.mp hentry]
      intro hsame
      exact hnodup.1 (mem_map.mpr ⟨other, hother, hsame.symm⟩)

variable (ledger : Ledger) (param : List Int32) (file : Text) (machine : μ)
  (compareBuf : Packed 100)

/-- The names of the parameters begin with an underscore. -/
theorem head?_name_parameterVariables :
    ∀ entry ∈ parameterVariables param, entry.name.head? = some 0x5F := by
  refine List.foldlRecOn (motive := fun list : List Variable ↦
    ∀ entry ∈ list, entry.name.head? = some 0x5F) param.zipIdx _ ?_ ?_
  · exact nofun
  · intro list hlist parameter _ entry hentry
    rw [variableFunction] at hentry
    split_ifs at hentry
    · exact hlist entry hentry
    · obtain hentry | hentry := mem_append.mp hentry
      · exact hlist entry hentry
      · rw [mem_singleton.mp hentry]
        rfl

theorem initialVariables_eq :
    initialVariables param = parameterVariables param ++ scriptConstants.map constantVariable := by
  have hnodup : (scriptConstants.map fun entry ↦ ascii entry.1).Nodup := by decide
  have hheads : ∀ constant ∈ scriptConstants, (ascii constant.1).head? ≠ some 0x5F := by decide
  rw [initialVariables, foldl_variableFunction_constants hnodup]
  intro constant hconstant entry hentry hsame
  refine hheads constant hconstant ?_
  rw [← hsame, head?_name_parameterVariables param entry hentry]

theorem storeSound_initialVariables : StoreSound (initialVariables param) where
  names := by
    have hparameters : ((parameterVariables param).map Variable.name).Nodup :=
      List.foldlRecOn (motive := fun list : List Variable ↦ (list.map Variable.name).Nodup)
        param.zipIdx _ nodup_nil fun _ hlist _ _ ↦ nodup_variableFunction hlist _ _ _
    exact List.foldlRecOn (motive := fun list : List Variable ↦ (list.map Variable.name).Nodup)
      scriptConstants _ hparameters fun _ hlist _ _ ↦ nodup_variableFunction hlist _ _ _
  constants constant hconstant := by
    rw [initialVariables_eq]
    exact mem_append_right _ (mem_map_of_mem hconstant)

/-! ### The start -/

section

variable {memory : ScriptMemory} {start : ℕ} {cells : List (ℕ × VariableCell)}
  {labels : List (ℕ × LabelCell)} {statements : List (ℕ × IfStatementEntry)}

section

variable (howns : memory.Owns start cells labels statements)

include howns

/-- Declarations one after the other do on the memory what they do on the plain list. -/
theorem ScriptMemory.Owns.foldl_variableFunction {β : Type} (name : β → Text) (value : β → Int32)
    (readOnly : Bool) (entries : List β) :
    ∃ after, (entries.foldl (fun memory entry ↦
        memory.variableFunction (name entry) (value entry) readOnly) memory).Owns start after labels
          statements ∧
      after.map (fun item ↦ item.2.entry) = entries.foldl (fun list entry ↦
        Script.variableFunction (name entry) (value entry) list readOnly)
          memory.visibleVariables := by
  induction entries generalizing memory cells with
  | nil => exact ⟨cells, howns, howns.visibleVariables_eq.symm⟩
  | cons entry entries ih =>
    obtain ⟨next, hnext, hvisible⟩ :=
      howns.variableFunction_spec (name entry) (value entry) readOnly
    rw [← hnext.visibleVariables_eq] at hvisible
    obtain ⟨after, hafter, hlist⟩ := ih hnext
    exact ⟨after, hafter, by rw [hlist, hvisible, foldl_cons]⟩

theorem ScriptMemory.Owns.foldl_addNewLabel (entries : List LabelEntry) :
    ∃ after, (entries.foldl ScriptMemory.addNewLabel memory).Owns start cells after statements ∧
      (entries.foldl ScriptMemory.addNewLabel memory).argumentList = memory.argumentList := by
  induction entries generalizing memory labels with
  | nil => exact ⟨labels, howns, rfl⟩
  | cons entry entries ih => exact ih (howns.addNewLabel entry)

theorem ScriptMemory.Owns.foldl_addIfStatement (entries : IfStatementList) :
    ∃ after, (entries.foldl ScriptMemory.addIfStatement memory).Owns start cells labels after ∧
      (entries.foldl ScriptMemory.addIfStatement memory).argumentList = memory.argumentList := by
  induction entries generalizing memory statements with
  | nil => exact ⟨statements, howns, rfl⟩
  | cons entry entries ih => exact ih (howns.addIfStatement entry)

end

end

theorem ScriptMemory.argumentList_variableFunction (name : Text) (initValue : Int32)
    (readOnly : Bool) (memory : ScriptMemory) :
    (memory.variableFunction name initValue readOnly).argumentList = memory.argumentList := by
  rw [ScriptMemory.variableFunction]
  split_ifs
  · rfl
  · rfl

theorem ScriptMemory.argumentList_updateVariable (name : Text) (value : Int32)
    (memory : ScriptMemory) :
    (memory.updateVariable name value).argumentList = memory.argumentList := by
  rw [ScriptMemory.updateVariable]
  split
  · rfl
  · split_ifs
    · rfl
    · rfl

theorem ScriptMemory.argumentList_declareInitial (memory : ScriptMemory) :
    (memory.declareInitial param).argumentList = memory.argumentList := by
  rw [ScriptMemory.declareInitial]
  refine List.foldlRecOn (motive := fun after : ScriptMemory ↦
    after.argumentList = memory.argumentList) scriptConstants _ ?_ ?_
  · refine List.foldlRecOn (motive := fun after : ScriptMemory ↦
      after.argumentList = memory.argumentList) param.zipIdx _ rfl ?_
    exact fun after hafter _ _ ↦ (after.argumentList_variableFunction _ _ _).trans hafter
  · exact fun after hafter _ _ ↦ (after.argumentList_variableFunction _ _ _).trans hafter

/-- The memory before the first line is sound. -/
theorem ScriptMemory.owns_setup :
    (setup ledger param file).IsOwned ledger.next ∧
      (setup ledger param file).visibleVariables = initialVariables param ∧
      (setup ledger param file).argumentList = List.replicate 5 ⟨false, none⟩ := by
  have hstart := owns_start ledger
  obtain ⟨parameters, hparameters, hfirst⟩ := hstart.foldl_variableFunction
    (fun entry : Int32 × ℕ ↦ ascii "_param" ++ decimal entry.2) Prod.fst false param.zipIdx
  rw [← hparameters.visibleVariables_eq] at hfirst
  obtain ⟨cells, hcells, hvisible⟩ := hparameters.foldl_variableFunction
    (fun entry : String × Int32 ↦ ascii entry.1) Prod.snd true scriptConstants
  rw [hfirst] at hvisible
  obtain ⟨labels, hlabels, hlabelSlots⟩ := hcells.foldl_addNewLabel (parseFileForLabels file)
  obtain ⟨statements, hstatements, hslots⟩ :=
    hlabels.foldl_addIfStatement (parsedIfStatements file file.length 0 [])
  refine ⟨⟨cells, labels, statements, hstatements⟩, ?_, ?_⟩
  · exact hstatements.visibleVariables_eq.trans hvisible
  · exact (hslots.trans hlabelSlots).trans (argumentList_declareInitial param (start ledger))

/-! ### What an argument does to the variables -/

section

variable {host : ScriptHost μ} {program : ScriptProgram} {args : List Argument} {index : ℕ}
  {argument : Argument} {data : ScriptData μ} {registers : Registers}
  {result : ScriptData μ × Registers}

/-- No function but `VAR` changes the variables. -/
theorem callFunction_variableList {call : ScriptFunction} (hcall : call ≠ .var)
    (hresult : callFunction host args index call data registers = some result) :
    result.1.variableList = data.variableList := by
  cases call with
  | var => exact absurd rfl hcall
  | _ =>
    simp only [callFunction] at hresult
    repeat' split at hresult
    all_goals
      obtain rfl := Option.some.inj hresult
      rfl

/-- A declaration is the first argument of its line and has a name. -/
theorem callFunction_var
    (hresult : callFunction host args index .var data registers = some result) :
    index = 0 ∧ ∃ name, args[1]? = some name ∧
      VariableCall.onList data.variableList
        (.declare name.text ((args[3]?.map Argument.value).getD 0)) =
          some result.1.variableList := by
  simp only [callFunction] at hresult
  split at hresult
  · rename_i name hname
    refine ⟨rfl, name, hname, ?_⟩
    split at hresult
    · rename_i text htext
      obtain rfl := Option.some.inj hresult
      rw [htext, VariableCall.onList]
    · rename_i htext
      obtain rfl := Option.some.inj hresult
      rw [htext, VariableCall.onList]
  · exact nomatch hresult

/-- Only `VAR` and a variable in the first place make a call on the variables. -/
theorem variableCall_eq_none (hargument : args[index]? = some argument)
    (hvar : argument.type ≠ .function .var) (hassigns : ¬(index = 0 ∧ argument.type = .variable)) :
    variableCall args index registers = none := by
  rw [variableCall]
  split_ifs with hindex
  · rw [← hindex, hargument, Option.bind_some, Argument.variableCall]
    split
    · exact absurd ‹_› hvar
    · exact absurd ⟨hindex, ‹_›⟩ hassigns
    · rfl
  · rfl

/-- Of the other arguments only a variable in the first place changes the variables. -/
theorem executeOperand_variableList (hargument : args[index]? = some argument)
    (htype : ∀ call, argument.type ≠ .function call)
    (hresult : executeOperand args index argument data registers = some result) :
    (variableCall args index registers).elim (some data.variableList)
      (VariableCall.onList data.variableList) = some result.1.variableList := by
  rw [executeOperand] at hresult
  have hkept {combine : Option Operator → Int32 → Int32 → Option Int32}
      (hmap : (registers.operand combine argument.value).map (fun next ↦ (data, next)) =
        some result) : result.1.variableList = data.variableList := by
    obtain ⟨next, -, rfl⟩ := Option.map_eq_some_iff.mp hmap
    rfl
  by_cases hassigns : index = 0 ∧ argument.type = .variable
  · obtain ⟨rfl, hcase⟩ := hassigns
    rw [variableCall, if_pos rfl, hargument, Option.bind_some, Argument.variableCall, hcase]
    rw [hcase] at hresult
    dsimp only at hresult ⊢
    rw [if_pos rfl] at hresult
    split_ifs at hresult ⊢
    · obtain ⟨after, hafter, rfl⟩ := Option.map_eq_some_iff.mp hresult
      exact hafter
    · obtain rfl := Option.some.inj hresult
      rfl
  · rw [variableCall_eq_none hargument (htype .var) hassigns]
    refine congrArg some ?_
    cases hcase : argument.type with
    | function call => exact absurd hcase (htype call)
    | «variable» =>
      rw [hcase] at hresult
      rw [if_neg fun hindex ↦ hassigns ⟨hindex, hcase⟩] at hresult
      exact (hkept hresult).symm
    | numeric =>
      rw [hcase] at hresult
      exact (hkept hresult).symm
    | operator | string =>
      rw [hcase] at hresult
      obtain rfl := Option.some.inj hresult
      rfl

/-- The variables after an argument are those that its call makes of them. -/
theorem executeArgument_variableList {state next : LineState μ}
    (hexecute : executeArgument host program args state index = some next) :
    (variableCall args index state.registers).elim (some state.data.variableList)
      (VariableCall.onList state.data.variableList) = some next.data.variableList := by
  cases hargument : args[index]? with
  | none =>
    rw [executeArgument, hargument] at hexecute
    obtain rfl := Option.some.inj hexecute
    rw [variableCall]
    split_ifs with hindex
    · rw [← hindex, hargument]
      rfl
    · rfl
  | some argument =>
    by_cases hfunction : ∃ call, argument.type = .function call
    · obtain ⟨call, htype⟩ := hfunction
      rw [executeArgument_function host program hargument htype] at hexecute
      by_cases hcall : call = .var
      · subst hcall
        rw [if_neg (show ¬ScriptFunction.var.isControl = true by decide)] at hexecute
        obtain ⟨result, hresult, rfl⟩ := Option.map_eq_some_iff.mp hexecute
        obtain ⟨rfl, name, hname, hdeclared⟩ := callFunction_var hresult
        rw [variableCall, if_pos rfl, hargument, Option.bind_some, Argument.variableCall, htype]
        rw [hname]
        exact hdeclared
      · rw [variableCall_eq_none hargument (by rw [htype]; exact fun h ↦ hcall (by cases h; rfl))
          (by rw [htype]; exact fun h ↦ ArgumentType.noConfusion h.2)]
        refine congrArg some ?_
        split_ifs at hexecute
        · obtain ⟨control, -, rfl⟩ := Option.map_eq_some_iff.mp hexecute
          rfl
        · obtain ⟨result, hresult, rfl⟩ := Option.map_eq_some_iff.mp hexecute
          exact (callFunction_variableList hcall hresult).symm
    · have htype (call : ScriptFunction) : argument.type ≠ .function call :=
        fun h ↦ hfunction ⟨call, h⟩
      rw [executeArgument_operand host program hargument htype] at hexecute
      obtain ⟨result, hresult, rfl⟩ := Option.map_eq_some_iff.mp hexecute
      exact executeOperand_variableList hargument htype hresult

end

/-! ### Soundness -/

/-- The lists are well linked, the entries of `argumentList` have as many strings as the last line,
and the variables are sound. -/
structure Point.Sound (point : Point μ) (start : ℕ) : Prop where
  owned : point.memory.IsOwned start
  slots : point.memory.argumentList.length = 5
  strings : point.memory.strings.length =
    point.args.countP fun argument ↦ argument.type.isString
  store : StoreSound point.memory.visibleVariables

theorem length_splitArguments_le (compareBuf : Bytes) (count tempPtr : ℕ)
    (stringDeclaration : Bool) :
    (splitArguments compareBuf count tempPtr stringDeclaration).1.length ≤ count := by
  induction count generalizing tempPtr stringDeclaration with
  | zero => exact le_refl 0
  | succ count ih =>
    rw [splitArguments]
    split_ifs
    · exact Nat.succ_le_succ (ih _ _)
    · exact Nat.zero_le _

/-- A line has at most five arguments. -/
theorem length_decodeArguments_le (compareBuf : Bytes) (data : ScriptData μ) :
    (decodeArguments (arguments compareBuf) data).length ≤ 5 := by
  rw [decodeArguments, length_mapIdx, arguments, length_map]
  exact length_splitArguments_le compareBuf 5 0 false

/-- A call keeps the memory sound and leaves the strings alone. -/
theorem VariableCall.Effect.keeps {call : Option VariableCall} {memory after : ScriptMemory}
    (heffect : VariableCall.Effect call memory after) {start : ℕ} (howned : memory.IsOwned start)
    (hstore : StoreSound memory.visibleVariables) :
    after.IsOwned start ∧ after.argumentList = memory.argumentList ∧
      StoreSound after.visibleVariables := by
  obtain ⟨cells, labels, statements, howns⟩ := howned
  have hdeclare (name : Text) (initValue : Int32) :
      (memory.variableFunction name initValue false).IsOwned start ∧
        (memory.variableFunction name initValue false).argumentList = memory.argumentList ∧
        StoreSound (memory.variableFunction name initValue false).visibleVariables := by
    obtain ⟨next, hnext, hvisible⟩ := howns.variableFunction_spec name initValue false
    refine ⟨⟨next, labels, statements, hnext⟩, memory.argumentList_variableFunction _ _ _, ?_⟩
    rw [hnext.visibleVariables_eq, hvisible]
    exact hstore.variableFunction name initValue false
  cases heffect with
  | nothing => exact ⟨⟨cells, labels, statements, howns⟩, rfl, hstore⟩
  | declare name initValue => exact hdeclare name initValue
  | declareNull found initValue => exact hdeclare found initValue
  | assign name value =>
    obtain ⟨next, hnext, hvisible⟩ := howns.updateVariable_spec name value
    refine ⟨⟨next, labels, statements, hnext⟩, memory.argumentList_updateVariable _ _, ?_⟩
    rw [hnext.visibleVariables_eq, hvisible]
    cases hupdate : updateVariable name value memory.visibleVariables with
    | none => exact hstore
    | some updated => exact hstore.updateVariable hupdate

section

variable {host : ScriptHost μ} {program : ScriptProgram} {point next : Point μ} {start : ℕ}

theorem Point.memory_enter (program : ScriptProgram) (point : Point μ) :
    (point.enter program).memory =
      point.memory.releaseStrings.decodeSlots 0 (point.enter program).args := by
  rw [enter]

theorem Point.visibleVariables_enter (program : ScriptProgram) (point : Point μ) :
    (point.enter program).memory.visibleVariables = point.memory.visibleVariables := by
  rw [ScriptMemory.visibleVariables, memory_enter, ScriptMemory.variableList_decodeSlots]
  rfl

/-- Entering a line replaces the strings of the last line by its own. -/
theorem Point.Sound.enter (hsound : point.Sound start) : (point.enter program).Sound start := by
  obtain ⟨cells, labels, statements, howns⟩ := hsound.owned
  have hlength : (point.enter program).args.length ≤ 5 := by
    rw [Point.enter]
    exact length_decodeArguments_le _ _
  have hrelease : point.memory.releaseStrings.argumentList.length = 5 := by
    rw [ScriptMemory.releaseStrings]
    exact (length_map _).trans hsound.slots
  have hfree : ∀ other, 0 ≤ other → other < 0 + (point.enter program).args.length →
      (point.memory.releaseStrings.argumentList.map ArgumentSlot.owned)[other]? = some none := by
    intro other _ hother
    rw [point.memory.owned_releaseStrings, hsound.slots, getElem?_replicate, if_pos]
    exact lt_of_lt_of_le hother (by rw [zero_add]; exact hlength)
  obtain ⟨hdecoded, hcount⟩ := howns.releaseStrings.decodeSlots hfree
  rw [← Point.memory_enter] at hdecoded hcount
  refine ⟨⟨cells, labels, statements, hdecoded⟩, ?_, ?_, ?_⟩
  · rw [Point.memory_enter]
    exact (ScriptMemory.length_argumentList_decodeSlots _ _ _).trans hrelease
  · rw [ScriptMemory.strings_releaseStrings] at hcount
    exact hcount.trans (zero_add _)
  · rw [Point.visibleVariables_enter]
    exact hsound.store

/-- Every step keeps the memory sound. -/
theorem PointStep.sound (hstep : PointStep host program point next) (hsound : point.Sound start) :
    next.Sound start := by
  cases hstep with
  | label => exact ⟨hsound.owned, hsound.slots, hsound.strings, hsound.store⟩
  | line => exact hsound.enter
  | argument hpending hexecute heffect =>
    obtain ⟨hafter, hslots, hstore⟩ := heffect.keeps hsound.owned hsound.store
    refine ⟨hafter, ?_, ?_, hstore⟩
    · dsimp only
      rw [hslots, hsound.slots]
    · dsimp only
      rw [ScriptMemory.strings, hslots]
      exact hsound.strings

theorem sound_startPoint :
    (startPoint ledger param file machine compareBuf).Sound ledger.next := by
  obtain ⟨howns, hvisible, hslots⟩ := ScriptMemory.owns_setup ledger param file
  refine ⟨howns, ?_, ?_, ?_⟩
  · rw [startPoint, hslots, length_replicate]
  · rw [startPoint, ScriptMemory.strings, hslots]
    rfl
  · rw [startPoint, hvisible]
    exact storeSound_initialVariables param

/-- The memory is sound at every point of a run. -/
theorem Reached.sound {ledger : Ledger} {param : List Int32} {file : Text} {machine : μ}
    {compareBuf : Packed 100} (hreached : Reached host ledger param file machine compareBuf point) :
    point.Sound ledger.next := by
  obtain ⟨list, -, hsteps⟩ := hreached
  induction hsteps with
  | refl => exact sound_startPoint ledger param file machine compareBuf
  | tail _ hstep ih => exact hstep.sound ih

/-! ### Steps and turns of the main loop -/

/-- The point lies between two lines and has the state of the main loop. -/
structure Point.Matches (point : Point μ) (state : ScriptState μ) : Prop where
  pending : point.pending = []
  control : point.state.control = state.control
  data : point.current.data = state.data
  compareBuf : point.compareBuf = state.compareBuf

/-- The first point has the first state of the main loop. -/
theorem matches_startPoint :
    (startPoint ledger param file machine compareBuf).Matches
      ⟨⟨0, fun _ ↦ false, none⟩, ⟨initialVariables param, fun _ ↦ 0, machine⟩, compareBuf⟩ where
  pending := rfl
  control := rfl
  data := by
    rw [Point.current, startPoint]
    rw [(ScriptMemory.owns_setup ledger param file).2.1]
  compareBuf := rfl

/-- There is an effect on the memory that the plain list shows. A null pointer may lead to a name
that is taken. -/
theorem VariableCall.exists_effect (call : Option VariableCall) {memory : ScriptMemory}
    (howned : memory.IsOwned start) (hstore : StoreSound memory.visibleVariables)
    (hlist : call.elim (some memory.visibleVariables)
      (VariableCall.onList memory.visibleVariables) = some variableList) :
    ∃ after, VariableCall.Effect call memory after ∧ after.visibleVariables = variableList := by
  obtain ⟨cells, labels, statements, howns⟩ := howned
  match call, hlist with
  | none, hlist => exact ⟨memory, .nothing memory, Option.some.inj hlist⟩
  | some (.declare (some name) initValue), hlist =>
    obtain ⟨next, hnext, hvisible⟩ := howns.variableFunction_spec name initValue false
    refine ⟨_, .declare name initValue memory, ?_⟩
    rw [hnext.visibleVariables_eq, hvisible]
    exact Option.some.inj hlist
  | some (.declare none initValue), hlist =>
    refine ⟨_, .declareNull (ascii "BNK512") initValue memory, ?_⟩
    have htaken : (memory.visibleVariables.any fun entry ↦ entry.name = ascii "BNK512") = true :=
      any_eq_true.mpr ⟨_, hstore.constants ("BNK512", 0x84) (by decide), by decide⟩
    rw [ScriptMemory.variableFunction, if_pos htaken]
    exact Option.some.inj hlist
  | some (.assign name value), hlist =>
    obtain ⟨next, hnext, hvisible⟩ := howns.updateVariable_spec name value
    refine ⟨_, .assign name value memory, ?_⟩
    have hupdate : updateVariable name value memory.visibleVariables = some variableList := hlist
    rw [hnext.visibleVariables_eq, hvisible, hupdate, Option.getD_some]

/-- The arguments of a line are executed step by step. -/
theorem exists_argument_steps {indices : List ℕ} (hpending : point.pending = indices)
    (hsound : point.Sound start) {final : LineState μ}
    (hfold : indices.foldlM (executeArgument host program point.args) point.current =
      some final) :
    ∃ after, Relation.ReflTransGen (PointStep host program) point after ∧ after.pending = [] ∧
      after.current = final ∧ after.compareBuf = point.compareBuf ∧ after.args = point.args := by
  induction indices generalizing point with
  | nil => exact ⟨point, .refl, hpending, Option.some.inj hfold, rfl, rfl⟩
  | cons index indices ih =>
    rw [foldlM_cons] at hfold
    obtain ⟨state, hexecute, hrest⟩ := Option.bind_eq_some_iff.mp hfold
    obtain ⟨memory, heffect, hvisible⟩ := VariableCall.exists_effect _ hsound.owned hsound.store
      (executeArgument_variableList hexecute)
    have hstep : PointStep host program point
        { point with state := state, pending := indices, memory := memory } :=
      .argument hpending hexecute heffect
    have hcurrent : ({ point with state := state, pending := indices, memory := memory } :
        Point μ).current = state := by
      rw [Point.current]
      rw [hvisible]
    rw [← hcurrent] at hrest
    obtain ⟨after, hsteps, hdone⟩ := ih rfl (hstep.sound hsound) hrest
    exact ⟨after, .head hstep hsteps, hdone⟩

/-- A turn of the main loop is made of steps. The arguments are those of the line, unless it is a
label. -/
theorem Point.Matches.exists_steps {state following : ScriptState μ}
    (hmatches : point.Matches state) (hsound : point.Sound start)
    (hline : (lineStep host program state).final = some following) :
    ∃ after, Relation.ReflTransGen (PointStep host program) point after ∧
      after.Matches following ∧ after.args =
        if (point.line program).head? = some 0x24 then point.args
        else (point.enter program).args := by
  obtain ⟨hpending, hcontrol, hdata, hcompareBuf⟩ := hmatches
  have hmachine : point.state.data.machine = state.data.machine := by rw [← hdata]; rfl
  have hvalues : point.state.data.values = state.data.values := by rw [← hdata]; rfl
  have htext : point.line program = (lineAt program.file state.control.position).take 100 := by
    rw [Point.line, hcontrol]
  rw [lineStep] at hline
  dsimp only at hline
  split_ifs at hline with hgoes hlabel hstops
  · refine ⟨_, .single (.label hpending ?_ (htext ▸ hlabel)), ⟨hpending, ?_, ?_, ?_⟩,
      (if_pos (htext ▸ hlabel)).symm⟩
    · rw [Point.GoesOn, hcontrol, hmachine]
      exact hgoes
    all_goals obtain rfl := Option.some.inj hline
    · dsimp only
      rw [Point.afterLine, htext, hcontrol]
    · exact hdata
    · exact hcompareBuf
  · dsimp only at hline
    obtain ⟨result, hexecuted, rfl⟩ := Option.map_eq_some_iff.mp hline
    obtain ⟨hshort, hunescaped⟩ := not_or.mp hstops
    have hstep : PointStep host program point (point.enter program) := by
      refine .line hpending ?_ (htext ▸ hlabel) (htext ▸ lt_of_not_ge hshort) ?_
      · rw [Point.GoesOn, hcontrol, hmachine]
        exact hgoes
      · rw [hmachine]
        exact Bool.eq_false_iff.mpr hunescaped
    have henterArgs : (point.enter program).args = decodeArguments (arguments (loadLine
        ((lineAt program.file state.control.position).take 100) state.compareBuf).image)
          state.data := by
      rw [Point.enter]
      rw [hdata, htext, hcompareBuf]
    have hcurrent : (point.enter program).current =
        ⟨{ state.control with position := state.control.position +
            ((lineAt program.file state.control.position).take 100).length + 1 },
          { state.data with values := keepValues (point.enter program).args state.data.values },
          ⟨0, false, none⟩⟩ := by
      rw [Point.current, Point.visibleVariables_enter, Point.enter]
      rw [hdata, hvalues, Point.afterLine, htext, hcontrol, ← hdata]
      rfl
    rw [executeLine] at hexecuted
    rw [← henterArgs, ← hcurrent] at hexecuted
    obtain ⟨final, hfold, rfl⟩ := Option.map_eq_some_iff.mp hexecuted
    obtain ⟨after, hsteps, hdone, hfinal, hbuffer, hargs⟩ :=
      exists_argument_steps rfl hsound.enter hfold
    refine ⟨after, .head hstep hsteps, ⟨hdone, ?_, ?_, ?_⟩,
      hargs.trans (if_neg (htext ▸ hlabel)).symm⟩
    · rw [← hfinal]
      rfl
    · rw [← hfinal]
    · rw [hbuffer, Point.enter]
      rw [htext, hcompareBuf]

end

/-! ### The variables at every point -/

/-- At every point of a run the pointers of the variable list lead to as many nodes as it counts, no
two of them with the same name, and each constant is among them, read-only and with its value. -/
theorem variableList_of_reached (host : ScriptHost μ) (ledger : Ledger) (param : List Int32)
    (file : Text) (machine : μ) (compareBuf : Packed 100) (point : Point μ)
    (hreached : Reached host ledger param file machine compareBuf point) :
    ∃ cells, LinkedList.Linked point.memory.variableList.node point.memory.variableList.first
        cells ∧
      point.memory.variableList.count = cells.length ∧
      (cells.map fun item ↦ item.2.entry.name).Nodup ∧
      ∀ constant ∈ scriptConstants, ∃ item ∈ cells, item.2.entry = constantVariable constant := by
  have hsound := hreached.sound
  obtain ⟨cells, labels, statements, howns⟩ := hsound.owned
  have hstore := hsound.store
  rw [howns.visibleVariables_eq] at hstore
  have hnames := hstore.names
  rw [map_map] at hnames
  refine ⟨cells, howns.variableList.linked, howns.variableList.count_eq, hnames, ?_⟩
  intro constant hconstant
  exact mem_map.mp (hstore.constants constant hconstant)

/-- A script that assigns to a constant comes to the point behind its line. -/
theorem variableList_after_assignment :
    ∃ point : Point Unit,
      Reached idleHost .empty [5] (ascii "xpadA=7\x00") () (fun _ ↦ 0) point ∧
      point.state.control.position = 9 ∧
      ∃ cells, LinkedList.Linked point.memory.variableList.node point.memory.variableList.first
          cells ∧
        point.memory.variableList.count = cells.length ∧
        (cells.map fun item ↦ item.2.entry.name).Nodup ∧
        ∀ constant ∈ scriptConstants, ∃ item ∈ cells, item.2.entry = constantVariable constant := by
  let file := ascii "xpadA=7\x00"
  have hturn : (lineStep idleHost ⟨file, parseFileForLabels file, []⟩
      ⟨⟨0, fun _ ↦ false, none⟩, ⟨initialVariables [5], fun _ ↦ 0, ()⟩, fun _ ↦ 0⟩).final.map
        (fun following ↦ following.control.position) = some 9 := by decide +kernel
  obtain ⟨following, hfinal, hposition⟩ := Option.map_eq_some_iff.mp hturn
  obtain ⟨point, hsteps, hpoint, -⟩ := (matches_startPoint .empty [5] file () _).exists_steps
    (sound_startPoint .empty [5] file () _) hfinal
  have hreached : Reached idleHost .empty [5] file () (fun _ ↦ 0) point :=
    ⟨[], by decide +kernel, hsteps⟩
  refine ⟨point, hreached, ?_, variableList_of_reached idleHost .empty [5] file () _ point hreached⟩
  rw [hpoint.control, hposition]

end XBlast.Script
