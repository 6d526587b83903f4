import Mathlib.Data.List.DropRight
import XBlast.Script.LineSteps

/-!
# Jumps to labels

A first pass over the file collects the lines that begin with a dollar sign, each with the rest of
the line as its name. The line `GOTOL` looks for the name `L` among them and goes on at the line of
the label, which is passed over together with the labels behind it.

The name in the line of the jump is decoded like any other argument. A name that begins with a digit
and is not the name of a variable is read as a number, whose text is missing, so that no label is
found. Apart from this, and from a last line that is too long by its closing zero, a jump goes to
its label (`goto_reaches_iff`).

`Turns` says that the main loop leads from one state to another and which lines it executes on the
way. It is stated by single turns, so that it also speaks about a part of a run that never ends.
-/

set_option autoImplicit false
set_option relaxedAutoImplicit false

namespace XBlast.Script

open Foundation List Option

variable {μ : Type}

/-! ### Labels of a file -/

/-- The labels among the lines `rest` at the end of a script. -/
def labelTable (lines : List Text) : List Text → List LabelEntry
  | [] => []
  | line :: rest =>
    if isLabel line ∧ line.tail ≠ [] then
      ⟨line.tail, linePosition lines (line :: rest)⟩ :: labelTable lines rest
    else labelTable lines rest

theorem parseLabels_linePosition {lines rest : List Text} (hlines : ∀ line ∈ lines, IsLine line)
    (hsuffix : rest <:+ lines) {fuel : ℕ} (hfuel : rest.length ≤ fuel) :
    parseLabels (scriptFile lines) fuel (linePosition lines rest) = labelTable lines rest := by
  induction rest generalizing fuel with
  | nil =>
    have hend := length_le_linePosition_nil lines
    cases fuel with
    | zero => rfl
    | succ fuel => rw [parseLabels, if_neg (not_lt.mpr hend), labelTable]
  | cons line rest ih =>
    have hline := hlines line (hsuffix.subset mem_cons_self)
    have hrest := (suffix_cons line rest).trans hsuffix
    cases fuel with
    | zero => exact absurd hfuel (Nat.not_succ_le_zero _)
    | succ fuel =>
      have hlater := ih hrest (Nat.le_of_succ_le_succ hfuel)
      rw [parseLabels, if_pos (linePosition_lt_length hsuffix), lineAt_linePosition hsuffix hline]
      dsimp only
      rw [length_append, length_replicate, linePosition_cons_add hsuffix, hlater,
        cString_append_replicate fun letter hletter ↦ (hline letter hletter).1]
      simp only [head?_append_replicate_iff, labelTable]

/-- The labels of a script. -/
theorem parseFileForLabels_scriptFile {lines : List Text} (hlines : ∀ line ∈ lines, IsLine line) :
    parseFileForLabels (scriptFile lines) = labelTable lines lines := by
  rw [parseFileForLabels, ← parseLabels_linePosition hlines (suffix_refl lines)
    (length_le_length_scriptFile lines), linePosition_self]

/-- The line of a label. -/
def labelLine (name : Text) : Text := 0x24 :: name

/-- The search for a name finds the first line with this label. -/
theorem find?_labelTable {lines rest : List Text} {name : Text} (hname : name ≠ []) :
    (labelTable lines rest).find? (fun entry ↦ some name = some entry.name) =
      if labelLine name ∈ rest then
        some ⟨name, linePosition lines (rest.dropWhile (· ≠ labelLine name))⟩
      else none := by
  induction rest with
  | nil => rfl
  | cons line rest ih =>
    by_cases hline : line = labelLine name
    · subst hline
      rw [labelTable, if_pos ⟨rfl, hname⟩, find?_cons_of_pos (by exact decide_eq_true rfl),
        if_pos mem_cons_self, dropWhile_cons_of_neg (by simp)]
      rfl
    · have hdrop : (line :: rest).dropWhile (· ≠ labelLine name) =
          rest.dropWhile (· ≠ labelLine name) :=
        dropWhile_cons_of_pos (decide_eq_true hline)
      have hmem : labelLine name ∈ line :: rest ↔ labelLine name ∈ rest := by
        rw [mem_cons, or_iff_right (Ne.symm hline)]
      have hskip : (labelTable lines (line :: rest)).find?
          (fun entry ↦ some name = some entry.name) =
            (labelTable lines rest).find? (fun entry ↦ some name = some entry.name) := by
        rw [labelTable]
        split
        · rename_i hlabel
          refine find?_cons_of_neg (fun hsame ↦ hline ?_)
          have hhead : line.head? = some 0x24 := of_decide_eq_true hlabel.1
          rw [some.inj (of_decide_eq_true hsame)]
          exact eq_cons_of_mem_head? hhead
        · rfl
      rw [hskip, ih, hdrop]
      simp only [hmem]

/-! ### The line of a jump -/

/-- A letter, a digit or an underscore. -/
def isNameLetter (letter : UInt8) : Bool :=
  isDigit letter || (0x41 ≤ letter && letter ≤ 0x5A) || (0x61 ≤ letter && letter ≤ 0x7A) ||
    letter == 0x5F

/-- A name of a label: up to 45 letters, digits and underscores that are no function. -/
structure LabelName where
  text : Text
  letters : ∀ letter ∈ text, isNameLetter letter = true
  length : 1 ≤ text.length ∧ text.length ≤ 45
  not_function : findNamed functionCallList text = none

theorem isWordLetter_of_isNameLetter {letter : UInt8} (hletter : isNameLetter letter = true) :
    isWordLetter letter = true := by
  have hspecial : ∀ other ∈ 0 :: 0x0A :: 0x22 :: specialLetters, isNameLetter other = false := by
    decide
  have hne : letter ∉ 0 :: 0x0A :: 0x22 :: specialLetters := fun hmem ↦
    absurd (hletter.symm.trans (hspecial letter hmem)) Bool.noConfusion
  simp only [mem_cons, not_or] at hne
  exact isWordLetter_iff.mpr hne

variable (name : LabelName)

/-- The name as a word of a line. -/
def LabelName.operand : Operand where
  word := name.text
  isWord := ⟨length_pos_iff.mp name.length.1,
    fun letter hletter ↦ isWordLetter_of_isNameLetter (name.letters letter hletter)⟩
  not_function := name.not_function

def LabelName.gotoLine : Text := ascii "GOTO" ++ name.text

theorem LabelName.isPlain_gotoLine : IsPlain name.gotoLine :=
  (by decide : IsPlain (ascii "GOTO")).append name.operand.isWord.isPlain

theorem LabelName.length_gotoLine_add (rest : List Text) :
    name.gotoLine.length + closingZeros rest < 100 := by
  have hname := name.length.2
  have hzeros := closingZeros_le_one rest
  rw [gotoLine, length_append, show (ascii "GOTO").length = 4 from rfl]
  omega

theorem LabelName.arguments_gotoLine :
    arguments (listImage name.gotoLine) = [ascii "GOTO", name.text] :=
  arguments_goto name.operand.isWord (lt_of_le_of_lt name.length.2 (by decide))

/-- A name that the engine takes for a number. -/
def LabelName.ReadAsNumber (variableList : List Variable) : Prop :=
  lookup variableList name.text = none ∧ name.text.head?.any isDigit = true

instance (name : LabelName) (variableList : List Variable) :
    Decidable (name.ReadAsNumber variableList) :=
  inferInstanceAs (Decidable (_ ∧ _))

/-- The text that is compared with the labels. -/
theorem LabelName.text_decodeArgument (stale : Int32) (variableList : List Variable) :
    (decodeArgument name.text stale variableList).text =
      if name.ReadAsNumber variableList then none else some name.text := by
  have hdecode := name.operand.decodeArgument_eq stale variableList
  have hminus : ∀ letter, isNameLetter letter = true →
      (isDigit letter || letter == 0x2D) = isDigit letter := by
    intro letter hletter
    have hne : letter ≠ 0x2D := by
      rintro rfl
      exact absurd hletter (by decide)
    rw [beq_false_of_ne hne, Bool.or_false]
  obtain ⟨letter, letters, htext⟩ :=
    exists_cons_of_ne_nil (length_pos_iff.mp name.length.1)
  have hletter := hminus letter (name.letters letter (htext ▸ mem_cons_self))
  rw [show name.operand.word = name.text from rfl, htext] at hdecode
  have hnumber : name.ReadAsNumber variableList ↔
      lookup variableList (letter :: letters) = none ∧ isDigit letter = true := by
    rw [ReadAsNumber, htext, head?_cons, any_some]
  simp only [hnumber]
  rw [htext, hdecode]
  cases hlookup : lookup variableList (letter :: letters) with
  | some entry =>
    have hname : entry.name = letter :: letters :=
      of_decide_eq_true (find?_some hlookup :)
    dsimp only
    rw [if_neg fun h ↦ some_ne_none entry h.1, hname]
  | none =>
    simp only [head?_cons, any_some, hletter, true_and]
    split
    · rfl
    · rfl

/-- A jump goes to the first label with its name, if the name has been read as such. -/
theorem executeLine_goto (host : ScriptHost μ) (program : ScriptProgram) (name : LabelName)
    (control : Control) (data : ScriptData μ) :
    ∃ values, executeLine host program [ascii "GOTO", name.text] control data =
      some ({ control with position :=
        if name.ReadAsNumber data.variableList then control.position
        else ((program.labelList.find? fun entry ↦ some name.text = some entry.name).map
          LabelEntry.stringPos).getD control.position }, { data with values := values }) := by
  have hargs : decodeArguments [ascii "GOTO", name.text] data =
      [⟨.function .gotoCall, 3, some (ascii "GOTO")⟩,
        decodeArgument name.text (data.values 1) data.variableList] := rfl
  have hothers : ∀ argument ∈ ([⟨.function .gotoCall, 3, some (ascii "GOTO")⟩,
      decodeArgument name.text (data.values 1) data.variableList] : List Argument).tail,
      argument.IsHarmless := by
    intro argument hargument
    rw [mem_singleton.mp hargument]
    exact name.operand.isHarmless _ _
  rw [executeLine_call host data hargs rfl rfl hothers]
  refine ⟨_, congrArg (Option.map _) (?_ : _ = some _)⟩
  simp only [callControl, getElem?_cons_succ, getElem?_cons_zero, name.text_decodeArgument]
  by_cases hnumber : name.ReadAsNumber data.variableList
  · have hnone : (program.labelList.find? fun entry ↦ (none : Option Text) = some entry.name) =
        none := find?_eq_none.mpr fun entry _ ↦ by simp
    rw [if_pos hnumber, if_pos hnumber, hnone]
  · rw [if_neg hnumber, if_neg hnumber]
    cases program.labelList.find? fun entry ↦ some name.text = some entry.name with
    | none | some => rfl

/-! ### Turns of the main loop -/

/-- The main loop leads from one state to another and executes the given lines on the way. -/
inductive Turns (host : ScriptHost μ) (program : ScriptProgram) :
    ScriptState μ → List ExecutedLine → ScriptState μ → Prop
  | refl (state : ScriptState μ) : Turns host program state [] state
  | step {state middle last : ScriptState μ} {trace more : List ExecutedLine}
      (hstep : lineStep host program state = ⟨trace, some middle⟩)
      (hmore : Turns host program middle more last) :
      Turns host program state (trace ++ more) last

/-- The turns are those of the main loop. -/
theorem Turns.runs {host : ScriptHost μ} {program : ScriptProgram} {state last : ScriptState μ}
    {trace : List ExecutedLine} (hturns : Turns host program state trace last) :
    Runs host program state ⟨trace, some last⟩ := by
  induction hturns with
  | refl state => exact Runs.refl state
  | step hstep hmore ih => exact Runs.trans (hstep ▸ Runs.step _) ih

section

variable {host : ScriptHost μ} (hhost : host.Undisturbed) {program : ScriptProgram}
  {lines : List Text} (hfile : program.file = scriptFile lines)
  (hlines : ∀ line ∈ lines, IsLine line ∧ line.length < 100)

section

include hhost hfile hlines

/-- The labels at a place are passed over. -/
theorem turns_dropWhile_isLabel {rest : List Text} (hsuffix : rest <:+ lines)
    {state : ScriptState μ} (hstate : state.control.position = linePosition lines rest) :
    ∃ next, Turns host program state [] next ∧
      next.control.position = linePosition lines (rest.dropWhile isLabel) := by
  induction rest generalizing state with
  | nil => exact ⟨state, .refl state, hstate⟩
  | cons line rest ih =>
    obtain ⟨hline, hlength⟩ := hlines line (hsuffix.subset mem_cons_self)
    cases hlabel : isLabel line with
    | false =>
      rw [dropWhile_cons_of_neg (hlabel ▸ Bool.false_ne_true)]
      exact ⟨state, .refl state, hstate⟩
    | true =>
      have hstep := lineStep_eq hhost hfile hsuffix hline hstate hlength
      rw [if_pos hlabel] at hstep
      rw [dropWhile_cons_of_pos hlabel]
      obtain ⟨next, hturns, hnext⟩ := @ih ((suffix_cons line rest).trans hsuffix)
        { state with control := { state.control with position := linePosition lines rest } } rfl
      exact ⟨next, .step hstep hturns, hnext⟩

/-- Turns without an executed line pass over labels. -/
theorem Turns.exists_place {state last : ScriptState μ} {trace : List ExecutedLine}
    (hturns : Turns host program state trace last) (htrace : trace = []) {rest : List Text}
    (hsuffix : rest <:+ lines) (hstate : state.control.position = linePosition lines rest) :
    ∃ place, place <:+ lines ∧ last.control.position = linePosition lines place ∧
      place.dropWhile isLabel = rest.dropWhile isLabel := by
  induction hturns generalizing rest with
  | refl state => exact ⟨rest, hsuffix, hstate, rfl⟩
  | step hstep hmore ih =>
    obtain ⟨htrace, hnone⟩ := append_eq_nil_iff.mp htrace
    cases rest with
    | nil =>
      rw [lineStep_end hfile hstate] at hstep
      exact absurd (congrArg Outcome.final hstep).symm (some_ne_none _)
    | cons line rest =>
      obtain ⟨hline, hlength⟩ := hlines line (hsuffix.subset mem_cons_self)
      rw [lineStep_eq hhost hfile hsuffix hline hstate hlength] at hstep
      split_ifs at hstep with hlabel hlong
      · obtain rfl := some.inj (congrArg Outcome.final hstep)
        rw [dropWhile_cons_of_pos hlabel]
        exact ih hnone ((suffix_cons line rest).trans hsuffix) rfl
      · exact absurd (congrArg Outcome.final hstep).symm (some_ne_none _)
      · exact absurd ((congrArg Outcome.trace hstep).trans htrace) (cons_ne_nil _ _)

end

/-! ### Where a jump goes -/

/-- The first line that is no label, behind the first label with a name, or behind the line of the
jump if there is no such label. -/
def intendedPlace (lines : List Text) (name : Text) (rest : List Text) : List Text :=
  (if labelLine name ∈ lines then (lines.dropWhile (· ≠ labelLine name)).tail
    else rest).dropWhile isLabel

/-- The line that is executed first at a place. -/
def firstLine (lines : List Text) : List Text → List ExecutedLine
  | [] => []
  | line :: rest => [⟨linePosition lines (line :: rest), line⟩]

/-- After the line `executed` the main loop comes to a place and executes the line there. -/
def GoesOnAt (host : ScriptHost μ) (program : ScriptProgram) (lines : List Text)
    (state : ScriptState μ) (executed : ExecutedLine) (place : List Text) : Prop :=
  ∃ next, Turns host program state [executed] next ∧
    next.control.position = linePosition lines place ∧
    (lineStep host program next).trace = firstLine lines place

/-- The line at a place fits the buffer, with the zero that closes the file. -/
def Fits : List Text → Prop
  | [] => True
  | line :: rest => line.length + closingZeros rest < 100

instance : (place : List Text) → Decidable (Fits place)
  | [] => inferInstanceAs (Decidable True)
  | _ :: _ => inferInstanceAs (Decidable (_ < _))

variable {state : ScriptState μ}

include hhost hfile hlines

/-- At a place without a label the line there is executed if it fits the buffer. -/
theorem trace_lineStep_eq_firstLine_iff {place : List Text} (hsuffix : place <:+ lines)
    (hplace : place.dropWhile isLabel = place)
    (hstate : state.control.position = linePosition lines place) :
    (lineStep host program state).trace = firstLine lines place ↔ Fits place := by
  cases place with
  | nil => exact iff_of_true (by rw [lineStep_end hfile hstate]; rfl) trivial
  | cons line rest =>
    obtain ⟨hline, hlength⟩ := hlines line (hsuffix.subset mem_cons_self)
    have hlabel : ¬isLabel line = true := by
      intro hlabel
      have hshorter := length_dropWhile_le isLabel rest
      rw [dropWhile_cons_of_pos hlabel] at hplace
      rw [hplace, length_cons] at hshorter
      omega
    rw [lineStep_eq hhost hfile hsuffix hline hstate hlength, if_neg hlabel]
    by_cases hfits : 100 ≤ line.length + closingZeros rest
    · rw [if_pos hfits]
      exact iff_of_false (cons_ne_nil _ _).symm (not_lt.mpr hfits)
    · rw [if_neg hfits]
      exact iff_of_true rfl (lt_of_not_ge hfits)

/-- Where the main loop goes on after a line that leads to a given place. -/
theorem goesOnAt_iff {executed : ExecutedLine} {middle : ScriptState μ}
    (hstep : lineStep host program state = ⟨[executed], some middle⟩) {landed : List Text}
    (hlanded : landed <:+ lines) (hmiddle : middle.control.position = linePosition lines landed)
    {place : List Text} (hsuffix : place <:+ lines) (hplace : place.dropWhile isLabel = place) :
    GoesOnAt host program lines state executed place ↔
      landed.dropWhile isLabel = place ∧ Fits place := by
  constructor
  · rintro ⟨next, hturns, hnext, hfirst⟩
    generalize htrace : [executed] = trace at hturns
    cases hturns with
    | refl => exact absurd htrace (cons_ne_nil _ _)
    | step hother hmore =>
      rw [hstep] at hother
      obtain rfl := congrArg Outcome.trace hother
      obtain rfl := some.inj (congrArg Outcome.final hother)
      have hnone := (List.cons.inj htrace).2.symm
      obtain ⟨reached, hreached, hposition, hlabels⟩ :=
        hmore.exists_place hhost hfile hlines hnone hlanded hmiddle
      obtain rfl := linePosition_inj hreached hsuffix (hposition.symm.trans hnext)
      refine ⟨hlabels.symm.trans hplace, ?_⟩
      exact (trace_lineStep_eq_firstLine_iff hhost hfile hlines hsuffix hplace hnext).mp hfirst
  · rintro ⟨rfl, hfits⟩
    obtain ⟨next, hturns, hnext⟩ := turns_dropWhile_isLabel hhost hfile hlines hlanded hmiddle
    refine ⟨next, .step hstep hturns, hnext, ?_⟩
    exact (trace_lineStep_eq_firstLine_iff hhost hfile hlines hsuffix hplace hnext).mpr hfits

variable {rest : List Text} (hlabels : program.labelList = parseFileForLabels program.file)
  (name : LabelName) (hsuffix : name.gotoLine :: rest <:+ lines)
  (hstate : state.control.position = linePosition lines (name.gotoLine :: rest))

include hlabels hsuffix hstate

/-- The line of a jump. -/
theorem lineStep_goto :
    ∃ middle landed, lineStep host program state =
        ⟨[⟨state.control.position, name.gotoLine⟩], some middle⟩ ∧
      landed <:+ lines ∧ middle.control.position = linePosition lines landed ∧
      landed.dropWhile isLabel = if name.ReadAsNumber state.data.variableList
        then rest.dropWhile isLabel else intendedPlace lines name.text rest := by
  have hrest := (suffix_cons name.gotoLine rest).trans hsuffix
  have hname : name.text ≠ [] := length_pos_iff.mp name.length.1
  obtain ⟨values, hexecute⟩ := executeLine_goto host program name
    { state.control with position := linePosition lines rest } state.data
  have hfind : (program.labelList.find? fun entry ↦ some name.text = some entry.name) =
      if labelLine name.text ∈ lines then
        some ⟨name.text, linePosition lines (lines.dropWhile (· ≠ labelLine name.text))⟩
      else none := by
    rw [hlabels, hfile, parseFileForLabels_scriptFile fun line hline ↦ (hlines line hline).1,
      find?_labelTable hname]
  have hstep := lineStep_line hhost hfile hsuffix
    (hlines _ (hsuffix.subset mem_cons_self)).1 hstate name.isPlain_gotoLine.quotesClosed rfl
    (name.length_gotoLine_add rest)
  rw [name.arguments_gotoLine, hexecute, map_some, ← hstate, hfind] at hstep
  by_cases hnumber : name.ReadAsNumber state.data.variableList
  · rw [if_pos hnumber] at hstep ⊢
    exact ⟨_, rest, hstep, hrest, rfl, rfl⟩
  · rw [if_neg hnumber] at hstep ⊢
    by_cases hlabel : labelLine name.text ∈ lines
    · obtain ⟨before, behind, hsplit, hnot⟩ := eq_append_cons_of_mem hlabel
      have hbehind : lines.dropWhile (· ≠ labelLine name.text) =
          labelLine name.text :: behind := by
        rw [hsplit, dropWhile_append_of_pos, dropWhile_cons_of_neg (by simp)]
        exact fun line hline ↦ decide_eq_true fun h ↦ hnot (h ▸ hline)
      rw [if_pos hlabel] at hstep
      refine ⟨_, _, hstep, dropWhile_suffix _, rfl, ?_⟩
      rw [intendedPlace, if_pos hlabel, hbehind]
      exact dropWhile_cons_of_pos rfl
    · rw [if_neg hlabel] at hstep
      exact ⟨_, rest, hstep, hrest, rfl, by rw [intendedPlace, if_neg hlabel]⟩

/-- A line `GOTOL` in a script of lines of less than 100 letters. The next line that is executed is
the first one behind the first label `$L` that is no label, or the one behind the jump if there is
no such label, just in case that the name is not taken for a number, unless this makes no
difference, and that this line fits the buffer with the zero that closes the file. -/
theorem goto_reaches_iff :
    GoesOnAt host program lines state ⟨state.control.position, name.gotoLine⟩
        (intendedPlace lines name.text rest) ↔
      (name.ReadAsNumber state.data.variableList →
        rest.dropWhile isLabel = intendedPlace lines name.text rest) ∧
      Fits (intendedPlace lines name.text rest) := by
  have hrest := (suffix_cons name.gotoLine rest).trans hsuffix
  have hplace : (intendedPlace lines name.text rest).dropWhile isLabel =
      intendedPlace lines name.text rest := dropWhile_idempotent _ _
  have hintended : intendedPlace lines name.text rest <:+ lines := by
    rw [intendedPlace]
    refine (dropWhile_suffix _).trans ?_
    split
    · exact (tail_suffix _).trans (dropWhile_suffix _)
    · exact hrest
  obtain ⟨middle, landed, hstep, hlanded, hmiddle, hdrop⟩ :=
    lineStep_goto hhost hfile hlines hlabels name hsuffix hstate
  rw [goesOnAt_iff hhost hfile hlines hstep hlanded hmiddle hintended hplace, hdrop]
  refine and_congr_left fun _ ↦ ?_
  by_cases hnumber : name.ReadAsNumber state.data.variableList
  · rw [if_pos hnumber]
    exact ⟨fun h _ ↦ h, fun h ↦ h hnumber⟩
  · rw [if_neg hnumber]
    exact iff_of_true rfl fun h ↦ absurd h hnumber

end

/-- The lines `GOTOL`, `LCDR`, `$L` and `END`. -/
def jumpScript : List Text :=
  [name.gotoLine, ascii "LCDR", labelLine name.text, ascii "END"]

def jumpProgram : ScriptProgram :=
  ⟨scriptFile (jumpScript name), parseFileForLabels (scriptFile (jumpScript name)), []⟩

/-- A script at its first line, without variables. -/
def noVariables : ScriptState Unit := ⟨⟨0, fun _ ↦ false, none⟩, ⟨[], fun _ ↦ 0, ()⟩, fun _ ↦ 0⟩

/-- The label `a1`. -/
def letterName : LabelName := ⟨ascii "a1", by decide, by decide, by decide⟩

/-- The label `1a`. -/
def digitName : LabelName := ⟨ascii "1a", by decide, by decide, by decide⟩

theorem letterName_reaches :
    GoesOnAt idleHost (jumpProgram letterName) (jumpScript letterName) noVariables
      ⟨0, ascii "GOTOa1"⟩ [ascii "END"] :=
  (goto_reaches_iff idleHost_undisturbed rfl (by decide) rfl letterName (suffix_refl _)
    rfl).mpr (by decide)

/-- `GOTO1a` goes on with the line behind it. -/
theorem digitName_not_reaches :
    ¬GoesOnAt idleHost (jumpProgram digitName) (jumpScript digitName) noVariables
      ⟨0, ascii "GOTO1a"⟩ [ascii "END"] := by
  have hlines : ∀ line ∈ jumpScript digitName, IsLine line ∧ line.length < 100 := by decide
  have hfile : (jumpProgram digitName).file = scriptFile (jumpScript digitName) := rfl
  have hstart : noVariables.control.position =
    linePosition (jumpScript digitName) (digitName.gotoLine :: (jumpScript digitName).tail) := rfl
  obtain ⟨middle, landed, hstep, hlanded, hmiddle, hdrop⟩ :=
    lineStep_goto idleHost_undisturbed hfile hlines rfl digitName (suffix_refl _) hstart
  intro hgoes
  have hplace := ((goesOnAt_iff idleHost_undisturbed hfile hlines hstep hlanded hmiddle
    (by decide) (by decide)).mp hgoes).1
  rw [hdrop] at hplace
  exact absurd hplace (by decide)

end XBlast.Script
