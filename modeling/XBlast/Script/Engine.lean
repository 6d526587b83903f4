import XBlast.Foundation.BlockTree
import XBlast.Script.Tokens

/-!
# The script engine

`runScript` executes a trimmed script: lines separated by line feeds, the last one closed by a
zero byte that belongs to the file. A first pass collects the labels, a second one the positions of
the conditionals; then the lines are executed one after the other. The arguments of a line are
decoded from left to right and executed from right to left, so that the value of an arithmetic
expression is ready when the variable on its left is reached.

The functions that a script can call on the machine are those of `ScriptHost`. Positions are byte
offsets in the file; the position `-1` of a missing `ELSE` or `ENDIF` is `none`. The assertions of
the conditionals are kept apart from their positions, by the index of the conditional.
-/

set_option autoImplicit false
set_option relaxedAutoImplicit false

namespace XBlast.Script

open Foundation

/-! ### Arguments -/

inductive ScriptFunction
  | ifCall
  | elseCall
  | endifCall
  | gotoCall
  | gpi
  | gpo
  | wait
  | boot
  | fan
  | led
  | lcdw
  | lcdc
  | lcdr
  | lcdb
  | lcdp
  | var
  | spir
  | spiw
  | xpad
  | endCall
  deriving DecidableEq, Repr

def functionCallList : List (String × ScriptFunction) :=
  [("IF", .ifCall), ("ELSE", .elseCall), ("ENDIF", .endifCall), ("GOTO", .gotoCall), ("GPI", .gpi),
   ("GPO", .gpo), ("WAIT", .wait), ("BOOT", .boot), ("FAN", .fan), ("LED", .led), ("LCDW", .lcdw),
   ("LCDC", .lcdc), ("LCDR", .lcdr), ("LCDB", .lcdb), ("LCDP", .lcdp), ("VAR", .var),
   ("SPIR", .spir), ("SPIW", .spiw), ("XPAD", .xpad), ("END", .endCall)]

/-- The functions that decide which line comes next. -/
def ScriptFunction.isControl : ScriptFunction → Bool
  | .ifCall | .elseCall | .endifCall | .gotoCall | .endCall => true
  | _ => false

inductive Operator
  | eqEq
  | notEq
  | greater
  | lower
  | greaterEq
  | lowerEq
  | eq
  | plus
  | minus
  | mult
  | divide
  | mod
  | shiftUp
  | shiftDown
  deriving DecidableEq, Repr

/-- The operators in the order of their numbers. -/
def operatorList : List (String × Operator) :=
  [("==", .eqEq), ("!=", .notEq), (">", .greater), ("<", .lower), (">=", .greaterEq),
   ("<=", .lowerEq), ("=", .eq), ("+", .plus), ("-", .minus), ("*", .mult), ("/", .divide),
   ("%", .mod), ("<<", .shiftUp), (">>", .shiftDown)]

inductive ArgumentType
  | function (call : ScriptFunction)
  | operator (op : Operator)
  | variable
  | numeric
  | string
  deriving DecidableEq, Repr

structure Argument where
  type : ArgumentType
  value : Int32
  text : Option Text

structure Variable where
  name : Text
  value : Int32
  readOnly : Bool
  deriving DecidableEq

/-- The entry of a table with a given name, with its number. -/
def findNamed {α : Type} (table : List (String × α)) (name : Text) : Option (α × Int32) :=
  let index := table.findIdx fun entry ↦ ascii entry.1 = name
  table[index]?.map fun entry ↦ (entry.2, Int32.ofNat index)

/-- The meaning of an argument. A string leaves the value alone, which is then the one of an
earlier line. -/
def decodeArgument (inputArg : Text) (stale : Int32) (variableList : List Variable) : Argument :=
  match findNamed functionCallList inputArg with
  | some (call, number) => ⟨.function call, number, some inputArg⟩
  | none =>
    match findNamed operatorList inputArg with
    | some (op, number) => ⟨.operator op, number, none⟩
    | none =>
      if inputArg.head? = some 0x22 then
        ⟨.string, stale, some (inputArg.tail.take (inputArg.length - 2))⟩
      else
        match variableList.find? fun entry ↦ entry.name = inputArg with
        | some entry => ⟨.variable, entry.value, some entry.name⟩
        | none =>
          if inputArg.head?.any fun letter ↦ isDigit letter || letter == 0x2D then
            ⟨.numeric, Int32.ofInt (strtol inputArg 0), none⟩
          else ⟨.string, stale, some inputArg⟩

/-! ### Variables -/

/-- A new variable at the end of the list, unless the name is taken. -/
def variableFunction (name : Text) (initValue : Int32) (variableList : List Variable)
    (readOnly : Bool) : List Variable :=
  if variableList.any fun entry ↦ entry.name = name then variableList
  else variableList ++ [⟨name, initValue, readOnly⟩]

/-- The list with a new value for a variable, or nothing when there is no such variable. A
read-only variable keeps its value. -/
def updateVariable (name : Text) (value : Int32) : List Variable → Option (List Variable)
  | [] => none
  | entry :: variableList =>
    if entry.name = name then
      some ((if entry.readOnly then entry else { entry with value := value }) :: variableList)
    else (updateVariable name value variableList).map fun rest ↦ entry :: rest

/-- The names and values of the read-only variables. -/
def scriptConstants : List (String × Int32) :=
  [("BNK512", 0x84), ("BNK256", 0x86), ("BNKOS", 0x87), ("BNKFULLTSOP", 0x00),
   ("BNKTSOPSPLIT0", 0x10), ("BNKTSOPSPLIT1", 0x18), ("xpadA", 1), ("xpadB", 2), ("xpadX", 3),
   ("xpadY", 4), ("xpadBl", 5), ("xpadW", 6)]

/-- The variables that stand for the parameters. -/
def parameterVariables (param : List Int32) : List Variable :=
  param.zipIdx.foldl
    (fun list entry ↦ variableFunction (ascii "_param" ++ decimal entry.2) entry.1 list false) []

/-- The variables at the start of a script: its parameters and the names of banks and buttons. -/
def initialVariables (param : List Int32) : List Variable :=
  scriptConstants.foldl (fun list entry ↦ variableFunction (ascii entry.1) entry.2 list true)
    (parameterVariables param)

/-! ### Calls to the machine -/

/-- What a script can ask of the machine, and the two functions that can stop it. -/
structure ScriptHost (μ : Type) where
  cromwellLoop : μ → Bool
  emergencyEscape : μ → Bool
  lineSize : μ → Int32
  gpiFunction : UInt8 → μ → Bool × μ
  gpoFunction : UInt8 → UInt8 → μ → μ
  waitFunction : Int32 → μ → μ
  bootFunction : Int32 → μ → μ
  fanFunction : UInt8 → μ → μ
  ledFunction : Text → μ → μ
  lcdPrintFunction : UInt8 → Text → UInt8 → μ → μ
  lcdClearLineFunction : UInt8 → μ → μ
  lcdResetFunction : μ → μ
  lcdBacklightFunction : UInt8 → μ → μ
  lcdPowerFunction : UInt8 → μ → μ
  spiRead : μ → UInt8 × μ
  spiWrite : UInt8 → μ → μ
  xpadRead : Int32 → μ → UInt8 × μ

/-- The variables, the values that the arguments of earlier lines left behind, and the machine. The
value of the first argument is never read before it is decoded and is not kept. -/
structure ScriptData (μ : Type) where
  variableList : List Variable
  values : ℕ → Int32
  machine : μ

/-- The arithmetic of one line. -/
structure Registers where
  arithAccumulator : Int32
  accumulatorInUse : Bool
  arithOpInLine : Option Operator

def lowByte (value : Int32) : UInt8 := value.toUInt32.toUInt8

variable {μ : Type}

/-- The first button of a list that is pressed. -/
def readButtons (host : ScriptHost μ) : List Int32 → μ → UInt8 × μ
  | [], machine => (0, machine)
  | button :: buttons, machine =>
    let (pressed, machine) := host.xpadRead button machine
    if pressed ≠ 0 then (pressed, machine) else readButtons host buttons machine

variable (host : ScriptHost μ) (args : List Argument)

/-- A call of one of the functions that do not decide about the next line, as the argument with
number `index` of a line. An improper declaration ends the script. -/
def callFunction (index : ℕ) (call : ScriptFunction) (data : ScriptData μ) (registers : Registers) :
    Option (ScriptData μ × Registers) :=
  let done (machine : μ) := some ({ data with machine := machine }, registers)
  let answer (value : Int32) (machine : μ) := some ({ data with machine := machine },
    { registers with arithAccumulator := value, accumulatorInUse := true })
  let number (index : ℕ) : Option Int32 := args[index]?.bind fun argument ↦
    if argument.type = .variable ∨ argument.type = .numeric then some argument.value else none
  let assigns : Bool := args[0]?.any fun argument ↦ argument.type = .variable
  let withNumber (effect : Int32 → μ → μ) :=
    match number 1 with
    | some value => done (effect value data.machine)
    | none => done data.machine
  match call with
  | .gpi =>
    match assigns, args[3]? with
    | true, some port =>
      let (level, machine) := host.gpiFunction (lowByte port.value) data.machine
      answer (if level then 1 else 0) machine
    | _, _ => done data.machine
  | .gpo =>
    match args[1]?, args[2]? with
    | some port, some value =>
      done (host.gpoFunction (lowByte port.value) (lowByte value.value) data.machine)
    | _, _ => done data.machine
  | .wait => withNumber host.waitFunction
  | .boot => withNumber host.bootFunction
  | .fan => withNumber fun value ↦ host.fanFunction (lowByte value)
  | .led =>
    match args[1]?.bind Argument.text with
    | some pattern => done (host.ledFunction pattern data.machine)
    | none => done data.machine
  | .lcdw =>
    match args[1]?, args[2]? with
    | some line, some message =>
      match message.type, message.text with
      | .string, some text =>
        let length := (number 3).getD (host.lineSize data.machine)
        done (host.lcdPrintFunction (lowByte line.value) text (lowByte length) data.machine)
      | _, _ => done data.machine
    | _, _ => done data.machine
  | .lcdc => withNumber fun value ↦ host.lcdClearLineFunction (lowByte value)
  | .lcdr => done (host.lcdResetFunction data.machine)
  | .lcdb => withNumber fun value ↦ host.lcdBacklightFunction (lowByte value)
  | .lcdp => withNumber fun value ↦ host.lcdPowerFunction (lowByte value)
  | .var =>
    match index, args[1]? with
    | 0, some name =>
      let initValue := (args[3]?.map Argument.value).getD 0
      match name.text with
      | some text => some ({ data with
          variableList := variableFunction text initValue data.variableList false }, registers)
      | none => done data.machine
    | _, _ => none
  | .spir =>
    match assigns, args[1]? with
    | true, some _ =>
      let (value, machine) := host.spiRead data.machine
      answer (Int32.ofNat value.toNat) machine
    | _, _ => done data.machine
  | .spiw => withNumber fun value ↦ host.spiWrite (lowByte value)
  | .xpad =>
    match assigns, args[1]? with
    | true, some _ =>
      match args[3]? with
      | none =>
        let (button, machine) := readButtons host [1, 2, 3, 4, 5, 6] data.machine
        answer (Int32.ofNat button.toNat) machine
      | some button =>
        if button.type = .variable ∧ 1 ≤ button.value ∧ button.value ≤ 6 then
          let (button, machine) := host.xpadRead button.value data.machine
          answer (Int32.ofNat button.toNat) machine
        else answer 0 data.machine
    | _, _ => done data.machine
  | .ifCall | .elseCall | .endifCall | .gotoCall | .endCall => done data.machine

/-! ### Operands -/

/-- Whether the processor refuses a division. -/
def divisionFaults (dividend divisor : Int32) : Prop :=
  divisor = 0 ∨ (dividend = Int32.minValue ∧ divisor = -1)

instance (dividend divisor : Int32) : Decidable (divisionFaults dividend divisor) :=
  inferInstanceAs (Decidable (_ ∨ _))

/-- The result of a division. A division that the processor refuses does not come to an end, and no
further line is executed. -/
def divided (divide : Int32 → Int32 → Int32) (dividend divisor : Int32) : Option Int32 :=
  if divisionFaults dividend divisor then none else some (divide dividend divisor)

/-- The accumulator after a variable on the left of an operator. -/
def combineVariable (op : Option Operator) (value accumulator : Int32) : Option Int32 :=
  match op with
  | some .plus => some (accumulator + value)
  | some .minus => some (value - accumulator)
  | some .mult => some (accumulator * value)
  | some .divide => divided (· / ·) value accumulator
  | some .mod => divided (· % ·) value accumulator
  | some .shiftUp => some (value <<< accumulator)
  | some .shiftDown => some (value >>> accumulator)
  | _ => some accumulator

/-- The accumulator after a number on the left of an operator. Subtraction and division have their
operands the other way round. -/
def combineNumeric (op : Option Operator) (value accumulator : Int32) : Option Int32 :=
  match op with
  | some .plus => some (accumulator + value)
  | some .minus => some (accumulator - value)
  | some .mult => some (accumulator * value)
  | some .divide => divided (· / ·) accumulator value
  | some .mod => divided (· % ·) value accumulator
  | some .shiftUp => some (value <<< accumulator)
  | some .shiftDown => some (value >>> accumulator)
  | _ => some accumulator

/-- The registers after an operand. -/
def Registers.operand (registers : Registers)
    (combine : Option Operator → Int32 → Int32 → Option Int32) (value : Int32) :
    Option Registers :=
  if registers.accumulatorInUse then
    (combine registers.arithOpInLine value registers.arithAccumulator).map fun accumulator ↦
      { registers with arithAccumulator := accumulator }
  else some { registers with arithAccumulator := value, accumulatorInUse := true }

/-- An argument that is no function. A variable in the first place receives the accumulator if an
assignment follows it. -/
def executeOperand (index : ℕ) (argument : Argument) (data : ScriptData μ) (registers : Registers) :
    Option (ScriptData μ × Registers) :=
  match argument.type with
  | .variable =>
    if index = 0 then
      if registers.accumulatorInUse ∧ args[1]?.any fun next ↦ next.type = .operator .eq then
        (updateVariable (argument.text.getD []) registers.arithAccumulator data.variableList).map
          fun variableList ↦ ({ data with variableList := variableList }, registers)
      else some (data, registers)
    else (registers.operand combineVariable argument.value).map fun next ↦ (data, next)
  | .operator op => some (data, { registers with arithOpInLine := some op })
  | .numeric => (registers.operand combineNumeric argument.value).map fun next ↦ (data, next)
  | _ => some (data, registers)

/-! ### Conditionals and labels -/

/-- The positions of a conditional, each of the line after the keyword's. -/
structure IfStatementEntry where
  ifPosition : ℕ
  elsePosition : Option ℕ
  endifPosition : Option ℕ
  deriving DecidableEq

abbrev IfStatementList := List IfStatementEntry

structure LabelEntry where
  name : Text
  stringPos : ℕ
  deriving DecidableEq

/-- What the two passes over the file have found. -/
structure ScriptProgram where
  file : Text
  labelList : List LabelEntry
  ifStatementList : IfStatementList

/-- Where the script goes on, the outcome of the last test of each conditional, and the conditional
that `ifEntry` points at, if it has been set. -/
structure Control where
  position : ℕ
  validAssertion : ℕ → Bool
  ifEntry : Option ℕ

def ifFunction (param1 : Int32) (op : UInt8) (param2 : Int32) : Bool :=
  if op = 0 then param1 = param2
  else if op = 1 then param1 ≠ param2
  else if op = 2 then param2 < param1
  else if op = 3 then param1 < param2
  else if op = 4 then param2 ≤ param1
  else if op = 5 then param1 ≤ param2
  else false

/-- The first entry from `start` on that the search looks for, or the last entry of the list when
there is none. -/
def findEntry (list : IfStatementList) (wanted : IfStatementEntry → Bool) (start : ℕ) :
    Option ℕ :=
  if list = [] then none
  else
    match (list.drop start).findIdx? wanted with
    | some index => some (start + index)
    | none => some (list.length - 1)

/-- The position of a jump. A missing one is `-1`, which ends the loop, for it is compared as an
unsigned number. -/
def jumpPosition (position : Option ℕ) : ℕ := position.getD 0xFFFFFFFF

variable (program : ScriptProgram)

/-- A call of one of the functions that decide about the next line. An `ENDIF` before any `IF` or
`ELSE` has been executed reads the pointer `ifEntry` before it is set; the script ends there. -/
def callControl (args : List Argument) (index : ℕ) (call : ScriptFunction) (control : Control) :
    Option Control :=
  let list := program.ifStatementList
  match call with
  | .ifCall =>
    match args[index + 1]?, args[index + 2]?, args[index + 3]? with
    | some first, some op, some second =>
      (findEntry list (fun entry ↦ entry.ifPosition = control.position) 0).bind fun found ↦
        list[found]?.map fun entry ↦
          let holds := ifFunction first.value (lowByte op.value) second.value
          { position := if holds then control.position
              else jumpPosition (entry.elsePosition.or entry.endifPosition)
            validAssertion := Function.update control.validAssertion found holds
            ifEntry := some found }
    | _, _, _ => none
  | .elseCall =>
    (findEntry list (fun entry ↦ entry.elsePosition = some control.position) 0).bind fun found ↦
      list[found]?.map fun entry ↦
        { control with
          position := if control.validAssertion found then jumpPosition entry.endifPosition
            else control.position
          ifEntry := some found }
  | .endifCall =>
    control.ifEntry.bind fun start ↦
      (findEntry list (fun entry ↦ entry.endifPosition = some control.position) start).map
        fun found ↦
          { control with
            validAssertion := Function.update control.validAssertion found false
            ifEntry := some found }
  | .gotoCall =>
    match index, args[1]? with
    | 0, some label =>
      match program.labelList.find? fun entry ↦ label.text = some entry.name with
      | some entry => some { control with position := entry.stringPos }
      | none => some control
    | _, _ => some control
  | .endCall => none
  | _ => some control

/-! ### Execution of a line -/

/-- The state inside the execution of a line. -/
structure LineState (μ : Type) where
  control : Control
  data : ScriptData μ
  registers : Registers

/-- An argument that does not decide about the next line. -/
def executeData (index : ℕ) (argument : Argument) (data : ScriptData μ) (registers : Registers) :
    Option (ScriptData μ × Registers) :=
  match argument.type with
  | .function call => callFunction host args index call data registers
  | _ => executeOperand args index argument data registers

def ArgumentType.isControl : ArgumentType → Bool
  | .function call => call.isControl
  | _ => false

def executeArgument (args : List Argument) (state : LineState μ) (index : ℕ) :
    Option (LineState μ) :=
  match args[index]? with
  | none => some state
  | some argument =>
    if argument.type.isControl then
      match argument.type with
      | .function call =>
        (callControl program args index call state.control).map fun control ↦
          { state with control := control }
      | _ => some state
    else
      (executeData host args index argument state.data state.registers).map fun result ↦
        { state with data := result.1, registers := result.2 }

/-- The arguments of a line, decoded. -/
def decodeArguments (texts : List Text) (data : ScriptData μ) : List Argument :=
  texts.mapIdx fun index text ↦ decodeArgument text (data.values index) data.variableList

/-- The values that stay behind after the arguments have been decoded. -/
def keepValues (values : ℕ → Int32) : ℕ → Int32 :=
  fun index ↦ if index = 0 then values 0 else (args[index]?.map Argument.value).getD (values index)

/-- A line with given arguments, from the last argument to the first. -/
def executeLine (texts : List Text) (control : Control) (data : ScriptData μ) :
    Option (Control × ScriptData μ) :=
  let args := decodeArguments texts data
  let start : LineState μ :=
    ⟨control, { data with values := keepValues args data.values }, ⟨0, false, none⟩⟩
  ([4, 3, 2, 1, 0].foldlM (executeArgument host program args) start).map fun state ↦
    (state.control, state.data)

/-! ### The passes over the file -/

variable (file : Text)

/-- The text from a position to the next line feed. -/
def lineAt (position : ℕ) : Text := (file.drop position).takeWhile (· ≠ 0x0A)

/-- The labels from a position on. -/
def parseLabels (file : Text) : ℕ → ℕ → List LabelEntry
  | 0, _ => []
  | fuel + 1, position =>
    if position < file.length then
      let line := lineAt file position
      let labels := parseLabels file fuel (position + line.length + 1)
      let name := (cString line).tail
      if line.head? = some 0x24 ∧ name ≠ [] then ⟨name, position⟩ :: labels else labels
    else []

def parseFileForLabels : List LabelEntry := parseLabels file file.length 0

/-- The first letters of a line, up to six and up to a parenthesis. -/
def lineKeyword (position : ℕ) : Text :=
  ((file.drop position).takeWhile fun letter ↦
    letter ≠ 0x28 && letter ≠ 0x0A && letter ≠ 0).take 6

/-- The list with its last entry of a kind changed, if there is one. -/
def attachLast (missing : IfStatementEntry → Bool) (attach : IfStatementEntry → IfStatementEntry) :
    IfStatementList → Option IfStatementList
  | [] => none
  | entry :: list =>
    match attachLast missing attach list with
    | some list => some (entry :: list)
    | none => if missing entry then some (attach entry :: list) else none

/-- The entries after an `ELSE` whose next line is at `next`. -/
def attachElse (next : ℕ) (list : IfStatementList) : Option IfStatementList :=
  attachLast (fun entry ↦ entry.elsePosition.isNone)
    (fun entry ↦ { entry with elsePosition := some next }) list

/-- The entries after an `ENDIF` whose next line is at `next`. -/
def attachEndif (next : ℕ) (list : IfStatementList) : Option IfStatementList :=
  attachLast (fun entry ↦ entry.endifPosition.isNone)
    (fun entry ↦ { entry with endifPosition := some next }) list

/-- The list after one line, whose successor starts at `next`. An `ELSE` goes to the last entry that
has none yet, and so does an `ENDIF`. -/
def parseIfLine (keyword : Text) (next : ℕ) (list : IfStatementList) :
    Option IfStatementList :=
  if keyword = ascii "IF" then some (list ++ [⟨next, none, none⟩])
  else if keyword = ascii "ELSE" then attachElse next list
  else if keyword = ascii "ENDIF" then attachEndif next list
  else some list

def parseIfStatements (file : Text) :
    ℕ → ℕ → IfStatementList → Option IfStatementList
  | 0, _, list => some list
  | fuel + 1, position, list =>
    if position < file.length then
      let next := position + (lineAt file position).length + 1
      (parseIfLine (lineKeyword file position) next list).bind
        (parseIfStatements file fuel next)
    else some list

/-- The conditionals of a file, or nothing when an `ELSE` or `ENDIF` finds no entry. -/
def parseFileForIFStatements : Option IfStatementList :=
  parseIfStatements file file.length 0 []

/-! ### The main loop -/

/-- The state between two lines. -/
structure ScriptState (μ : Type) where
  control : Control
  data : ScriptData μ
  compareBuf : Packed 100

/-- A line that has been executed, with its position. -/
structure ExecutedLine where
  position : ℕ
  text : Text
  deriving DecidableEq

/-- One turn of the main loop: the line that is executed, if any, and the next state, if the script
goes on. A label is passed over. A line that does not fit the buffer ends the script, and so does
the escape combination. -/
def lineStep (state : ScriptState μ) : Outcome ExecutedLine (ScriptState μ) :=
  let position := state.control.position
  if position < program.file.length ∧ host.cromwellLoop state.data.machine then
    let line := (lineAt program.file position).take 100
    let next : Control := { state.control with position := position + line.length + 1 }
    if line.head? = some 0x24 then ⟨[], some { state with control := next }⟩
    else if 100 ≤ line.length ∨ host.emergencyEscape state.data.machine then ⟨[], none⟩
    else
      let compareBuf := loadLine line state.compareBuf
      ⟨[⟨position, cString line⟩],
        (executeLine host program (arguments compareBuf.image) next state.data).map fun result ↦
          ⟨result.1, result.2, compareBuf⟩⟩
  else ⟨[], none⟩

/-- The lines that the main loop executes, or nothing when the fuel does not suffice. -/
def runLines (host : ScriptHost μ) (program : ScriptProgram) :
    ℕ → ScriptState μ → Option (List ExecutedLine)
  | 0, _ => none
  | fuel + 1, state =>
    let outcome := lineStep host program state
    (match outcome.final with
      | none => some []
      | some next => runLines host program fuel next).map fun rest ↦ outcome.trace ++ rest

/-- The lines that a script executes. `compareBuf` holds what the stack held before. -/
def runScript (param : List Int32) (machine : μ) (compareBuf : Packed 100) (fuel : ℕ) :
    Option (List ExecutedLine) :=
  match parseFileForIFStatements file with
  | none => some []
  | some list =>
    runLines host ⟨file, parseFileForLabels file, list⟩ fuel
      ⟨⟨0, fun _ ↦ false, none⟩, ⟨initialVariables param, fun _ ↦ 0, machine⟩, compareBuf⟩

end XBlast.Script
