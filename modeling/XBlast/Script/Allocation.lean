import XBlast.Foundation.Ledger
import XBlast.Foundation.LinkedList
import XBlast.Foundation.Slots
import XBlast.Script.Engine

/-!
# The memory of a running script

The script engine keeps its variables, its labels and its conditionals in three linked lists. A
variable and a label are a node and a block with the name, a conditional is a node. An argument of a
line that is a string is copied to a block of its own, to which the entry of `argumentList` points
until the next line is executed; whether the entry has such a block is told from its type.

`ScriptMemory.Owns` says that the lists are well linked and that the blocks which are still to be
given back are those of the lists and of the strings. Every operation keeps it, and the flush at the
end of a script gives back all but the strings (`ScriptMemory.Owns.flush`). On the variables the
operations do what they do on the plain list of variables (`Owns.variableFunction_spec`,
`Owns.updateVariable_spec`).
-/

set_option autoImplicit false
set_option relaxedAutoImplicit false

namespace XBlast.Script

open Foundation List Function

/-! ### The code -/

/-- A node of the variable list, with the block that holds the name. -/
structure VariableCell where
  nameBlock : ℕ
  entry : Variable

def VariableCell.setValue (value : Int32) (cell : VariableCell) : VariableCell :=
  { cell with entry := { cell.entry with value := value } }

structure LabelCell where
  nameBlock : ℕ
  entry : LabelEntry

/-- Whether the type is `ARGTYPE_STRING`, and the block that the text is in, if it is in one. -/
structure ArgumentSlot where
  isString : Bool
  text : Option ℕ

/-- The block that `free` is called with when the next line is executed. -/
def ArgumentSlot.owned (slot : ArgumentSlot) : Option ℕ := if slot.isString then slot.text else none

def ArgumentType.isString : ArgumentType → Bool
  | .string => true
  | _ => false

structure ScriptMemory where
  ledger : Ledger
  variableList : LinkedList VariableCell
  labelList : LinkedList LabelCell
  ifStatementList : LinkedList IfStatementEntry
  argumentList : List ArgumentSlot

namespace ScriptMemory

/-- The memory at the start of `runScript`. -/
def start (ledger : Ledger) : ScriptMemory :=
  ⟨ledger, .empty, .empty, .empty, List.replicate 5 ⟨false, none⟩⟩

variable (memory : ScriptMemory)

/-- The variables that a loop over the list sees. -/
def visibleVariables : List Variable :=
  memory.variableList.walk.map fun item ↦ item.2.entry

/-- A node and a block for the name are allocated, unless the name is taken. -/
def variableFunction (name : Text) (initValue : Int32) (readOnly : Bool) (memory : ScriptMemory) :
    ScriptMemory :=
  if memory.visibleVariables.any fun entry ↦ entry.name = name then memory
  else
    let newEntry := memory.ledger.next
    { memory with
      ledger := memory.ledger.alloc.alloc
      variableList := memory.variableList.append memory.variableList.first.isNone newEntry
        ⟨newEntry + 1, ⟨name, initValue, readOnly⟩⟩ }

/-- The value of the first variable with the name is changed, unless it is read-only. -/
def updateVariable (name : Text) (value : Int32) (memory : ScriptMemory) : ScriptMemory :=
  match memory.variableList.walk.find? fun item ↦ item.2.entry.name = name with
  | none => memory
  | some item =>
    if item.2.entry.readOnly then memory
    else
      { memory with
        variableList := memory.variableList.modify item.1 (VariableCell.setValue value) }

def addNewLabel (entry : LabelEntry) : ScriptMemory :=
  let newLabelEntry := memory.ledger.next
  { memory with
    ledger := memory.ledger.alloc.alloc
    labelList := memory.labelList.append (memory.labelList.count = 0) newLabelEntry
      ⟨newLabelEntry + 1, entry⟩ }

def addIfStatement (entry : IfStatementEntry) : ScriptMemory :=
  let newEntry := memory.ledger.next
  { memory with
    ledger := memory.ledger.alloc
    ifStatementList := memory.ifStatementList.append memory.ifStatementList.first.isNone newEntry
      entry }

/-- The strings of the last line are given back. -/
def releaseStrings : ScriptMemory :=
  { memory with
    ledger := memory.ledger.freeAll (memory.argumentList.map ArgumentSlot.owned).reduceOption
    argumentList := memory.argumentList.map fun slot ↦
      if slot.isString then { slot with text := none } else slot }

/-- One argument is decoded. A string is copied to a new block. -/
def decodeSlot (index : ℕ) (argument : Argument) : ScriptMemory :=
  if argument.type.isString then
    { memory with
      ledger := memory.ledger.alloc
      argumentList := memory.argumentList.set index ⟨true, some memory.ledger.next⟩ }
  else { memory with argumentList := memory.argumentList.set index ⟨false, none⟩ }

/-- The arguments of a line are decoded, from the one with number `index` on. -/
def decodeSlots : ℕ → List Argument → ScriptMemory → ScriptMemory
  | _, [], memory => memory
  | index, argument :: args, memory =>
    decodeSlots (index + 1) args (memory.decodeSlot index argument)

def variableBlocks (cells : List (ℕ × VariableCell)) : List ℕ :=
  cells.flatMap fun item ↦ [item.2.nameBlock, item.1]

def labelBlocks (cells : List (ℕ × LabelCell)) : List ℕ :=
  cells.flatMap fun item ↦ [item.2.nameBlock, item.1]

/-- The blocks after the lists have been flushed at the end of a script. -/
def flush : Ledger :=
  ((memory.ledger.freeAll (variableBlocks memory.variableList.walk)).freeAll
    (labelBlocks memory.labelList.walk)).freeAll (memory.ifStatementList.walk.map Prod.fst)

theorem variableBlocks_append (cells others : List (ℕ × VariableCell)) :
    variableBlocks (cells ++ others) = variableBlocks cells ++ variableBlocks others :=
  flatMap_append

theorem labelBlocks_append (cells others : List (ℕ × LabelCell)) :
    labelBlocks (cells ++ others) = labelBlocks cells ++ labelBlocks others := flatMap_append

/-- A new value does not need another block. -/
theorem variableBlocks_modifyAt (address : ℕ) (value : Int32) (cells : List (ℕ × VariableCell)) :
    variableBlocks (LinkedList.modifyAt address (VariableCell.setValue value) cells) =
      variableBlocks cells := by
  rw [variableBlocks, LinkedList.modifyAt, flatMap_map]
  refine flatMap_congr fun item _ ↦ ?_
  split_ifs
  · rfl
  · rfl

/-! ### Ownership -/

/-- The strings that have not been given back. -/
def strings : List ℕ :=
  (memory.argumentList.map ArgumentSlot.owned).reduceOption

/-- The lists have the given nodes, and the blocks that are owed are those of the lists and of the
strings. -/
structure Owns (memory : ScriptMemory) (start : ℕ) (cells : List (ℕ × VariableCell))
    (labels : List (ℕ × LabelCell)) (statements : List (ℕ × IfStatementEntry)) : Prop where
  variableList : memory.variableList.Holds cells
  labelList : memory.labelList.Holds labels
  ifStatementList : memory.ifStatementList.Holds statements
  owes : memory.ledger.Owes start
    (variableBlocks cells ++ (labelBlocks labels ++ (statements.map Prod.fst ++ memory.strings)))

/-- The lists are well linked, whatever is in them. -/
def IsOwned (memory : ScriptMemory) (start : ℕ) : Prop :=
  ∃ cells labels statements, memory.Owns start cells labels statements

theorem owns_start (ledger : Ledger) : (start ledger).Owns ledger.next [] [] [] :=
  ⟨LinkedList.holds_empty, LinkedList.holds_empty, LinkedList.holds_empty, ledger.owes_nil⟩

section

variable {memory : ScriptMemory} {start : ℕ} {cells : List (ℕ × VariableCell)}
  {labels : List (ℕ × LabelCell)} {statements : List (ℕ × IfStatementEntry)}
  (howns : memory.Owns start cells labels statements)

include howns

theorem Owns.visibleVariables_eq : memory.visibleVariables = cells.map fun item ↦ item.2.entry := by
  rw [ScriptMemory.visibleVariables, howns.variableList.walk_eq]

/-- No node of the lists has the address of the next block. -/
theorem Owns.lt_next {block : ℕ} (hblock : block ∈ variableBlocks cells ++
    (labelBlocks labels ++ (statements.map Prod.fst ++ memory.strings))) :
    block < memory.ledger.next := (howns.owes.issued block hblock).2

/-- A variable with a new name is added at the end. -/
theorem Owns.variableFunction {name : Text}
    (hname : ∀ item ∈ cells, item.2.entry.name ≠ name) (initValue : Int32) (readOnly : Bool) :
    (memory.variableFunction name initValue readOnly).Owns start
      (cells ++ [(memory.ledger.next, ⟨memory.ledger.next + 1, ⟨name, initValue, readOnly⟩⟩)])
      labels statements := by
  have hfree : ¬(memory.visibleVariables.any fun entry ↦ entry.name = name) = true := by
    rw [howns.visibleVariables_eq, any_map, any_eq_true]
    rintro ⟨item, hitem, hsame⟩
    exact hname item hitem (of_decide_eq_true hsame)
  rw [ScriptMemory.variableFunction, if_neg hfree]
  refine ⟨howns.variableList.append ?_ ?_ _, howns.labelList, howns.ifStatementList, ?_⟩
  · rw [Option.isNone_iff_eq_none, howns.variableList.first_eq_none_iff]
  · intro item hitem
    refine ne_of_lt (howns.lt_next (mem_append_left _ ?_))
    exact mem_flatMap.mpr ⟨item, hitem, by simp⟩
  · refine howns.owes.alloc.alloc.perm ?_
    rw [variableBlocks_append, append_assoc]
    exact perm_append_comm_assoc [memory.ledger.next + 1, memory.ledger.next] _ _

/-- On the variables the function is the one for the plain list. -/
theorem Owns.variableFunction_spec (name : Text) (initValue : Int32) (readOnly : Bool) :
    ∃ after, (memory.variableFunction name initValue readOnly).Owns start after labels statements ∧
      after.map (fun item ↦ item.2.entry) =
        Script.variableFunction name initValue memory.visibleVariables readOnly := by
  rw [Script.variableFunction]
  by_cases htaken : (memory.visibleVariables.any fun entry ↦ entry.name = name) = true
  · rw [ScriptMemory.variableFunction, if_pos htaken, if_pos htaken]
    exact ⟨cells, howns, howns.visibleVariables_eq.symm⟩
  · rw [if_neg htaken]
    refine ⟨_, howns.variableFunction (fun item hitem hsame ↦ htaken ?_) initValue readOnly, ?_⟩
    · rw [howns.visibleVariables_eq, any_map, any_eq_true]
      exact ⟨item, hitem, decide_eq_true hsame⟩
    · rw [map_append, howns.visibleVariables_eq]
      rfl

omit howns in
/-- Changing the first variable with a name at its address is changing it in the plain list. -/
theorem updateVariable_map_entry (hnodup : (cells.map Prod.fst).Nodup) (name : Text)
    (value : Int32) :
    Script.updateVariable name value (cells.map fun item ↦ item.2.entry) =
      (cells.find? fun item ↦ item.2.entry.name = name).map fun item ↦
        (if item.2.entry.readOnly then cells
          else LinkedList.modifyAt item.1 (VariableCell.setValue value) cells).map
            fun item ↦ item.2.entry := by
  induction cells with
  | nil => rfl
  | cons first cells ih =>
    rw [map_cons, nodup_cons] at hnodup
    rw [map_cons, Script.updateVariable]
    by_cases hname : first.2.entry.name = name
    · rw [if_pos hname, find?_cons_of_pos (by exact decide_eq_true hname), Option.map_some]
      refine congrArg some ?_
      by_cases hreadOnly : first.2.entry.readOnly = true
      · rw [if_pos hreadOnly, if_pos hreadOnly, map_cons]
      · have hrest := LinkedList.modifyAt_of_not_mem hnodup.1 (VariableCell.setValue value)
        rw [LinkedList.modifyAt] at hrest
        rw [if_neg hreadOnly, if_neg hreadOnly, LinkedList.modifyAt, map_cons, if_pos rfl,
          hrest, map_cons]
        rfl
    · rw [if_neg hname, find?_cons_of_neg (by simpa using hname), ih hnodup.2, Option.map_map]
      cases hfind : cells.find? fun item ↦ item.2.entry.name = name with
      | none => rfl
      | some item =>
        have hne : first.1 ≠ item.1 := by
          intro hsame
          exact hnodup.1 (hsame ▸ mem_map_of_mem (mem_of_find?_eq_some hfind))
        rw [Option.map_some, Option.map_some, comp_apply]
        split_ifs
        · rfl
        · rw [LinkedList.modifyAt, LinkedList.modifyAt, map_cons, if_neg hne, map_cons]

/-- On the variables an assignment is the one for the plain list; without a variable of the name it
does nothing. -/
theorem Owns.updateVariable_spec (name : Text) (value : Int32) :
    ∃ after, (memory.updateVariable name value).Owns start after labels statements ∧
      after.map (fun item ↦ item.2.entry) =
        (Script.updateVariable name value memory.visibleVariables).getD
          memory.visibleVariables := by
  have hplain := updateVariable_map_entry howns.variableList.nodup name value
  rw [← howns.visibleVariables_eq] at hplain
  rw [hplain, ScriptMemory.updateVariable, howns.variableList.walk_eq]
  cases cells.find? fun item ↦ item.2.entry.name = name with
  | none => exact ⟨cells, howns, howns.visibleVariables_eq.symm⟩
  | some item =>
    dsimp only
    rw [Option.map_some, Option.getD_some]
    split_ifs
    · exact ⟨cells, howns, rfl⟩
    · refine ⟨_, ⟨howns.variableList.modify item.1 (VariableCell.setValue value),
        howns.labelList, howns.ifStatementList, ?_⟩, rfl⟩
      rw [variableBlocks_modifyAt]
      exact howns.owes

theorem Owns.addNewLabel (entry : LabelEntry) :
    (memory.addNewLabel entry).Owns start cells
      (labels ++ [(memory.ledger.next, ⟨memory.ledger.next + 1, entry⟩)]) statements := by
  refine ⟨howns.variableList, howns.labelList.append ?_ ?_ _, howns.ifStatementList, ?_⟩
  · rw [decide_eq_true_iff, howns.labelList.count_eq, length_eq_zero_iff]
  · intro item hitem
    refine ne_of_lt (howns.lt_next (mem_append_right _ (mem_append_left _ ?_)))
    exact mem_flatMap.mpr ⟨item, hitem, by simp⟩
  · refine howns.owes.alloc.alloc.perm ?_
    rw [labelBlocks_append, append_assoc]
    refine (perm_append_comm_assoc [memory.ledger.next + 1, memory.ledger.next] _ _).trans ?_
    exact (perm_append_comm_assoc _ _ _).append_left _

theorem Owns.addIfStatement (entry : IfStatementEntry) :
    (memory.addIfStatement entry).Owns start cells labels
      (statements ++ [(memory.ledger.next, entry)]) := by
  refine ⟨howns.variableList, howns.labelList, howns.ifStatementList.append ?_ ?_ _, ?_⟩
  · rw [Option.isNone_iff_eq_none, howns.ifStatementList.first_eq_none_iff]
  · intro item hitem
    refine ne_of_lt (howns.lt_next (mem_append_right _ (mem_append_right _ ?_)))
    exact mem_append_left _ (mem_map_of_mem hitem)
  · refine howns.owes.alloc.perm ?_
    rw [map_append, append_assoc]
    refine (perm_append_comm_assoc [memory.ledger.next] _ _).trans (List.Perm.append_left _ ?_)
    refine (perm_append_comm_assoc _ _ _).trans (List.Perm.append_left _ ?_)
    exact perm_append_comm_assoc _ _ _

omit howns in
/-- No entry has a string after the strings have been given back. -/
theorem owned_releaseStrings (memory : ScriptMemory) :
    memory.releaseStrings.argumentList.map ArgumentSlot.owned =
      List.replicate memory.argumentList.length none := by
  rw [releaseStrings, eq_replicate_iff]
  refine ⟨by rw [length_map, length_map], fun owned howned ↦ ?_⟩
  rw [map_map] at howned
  obtain ⟨slot, -, rfl⟩ := mem_map.mp howned
  rw [comp_apply, ArgumentSlot.owned]
  cases hstring : slot.isString <;> simp [hstring]

omit howns in
theorem strings_releaseStrings (memory : ScriptMemory) : memory.releaseStrings.strings = [] := by
  rw [strings, owned_releaseStrings, reduceOption_replicate_none]

/-- Before a line is executed, the strings of the last one are given back. -/
theorem Owns.releaseStrings : memory.releaseStrings.Owns start cells labels statements where
  variableList := howns.variableList
  labelList := howns.labelList
  ifStatementList := howns.ifStatementList
  owes := by
    rw [strings_releaseStrings, append_nil]
    refine Ledger.Owes.freeAll (howns.owes.perm ?_)
    rw [← append_assoc, ← append_assoc, append_assoc (variableBlocks cells)]
    exact perm_append_comm

omit howns in
theorem length_argumentList_decodeSlot (memory : ScriptMemory) (index : ℕ) (argument : Argument) :
    (memory.decodeSlot index argument).argumentList.length = memory.argumentList.length := by
  rw [decodeSlot]
  split_ifs
  · exact length_set
  · exact length_set

/-- A string is put in an entry without one, and is to be given back. -/
theorem Owns.decodeSlot {index : ℕ} (argument : Argument)
    (hfree : (memory.argumentList.map ArgumentSlot.owned)[index]? = some none) :
    (memory.decodeSlot index argument).Owns start cells labels statements ∧
      (memory.decodeSlot index argument).strings.length =
        memory.strings.length + if argument.type.isString then 1 else 0 := by
  obtain ⟨hindex, -⟩ := List.getElem?_eq_some_iff.mp hfree
  rw [ScriptMemory.decodeSlot]
  split_ifs with hstring
  · have hperm : ({ memory with
          ledger := memory.ledger.alloc
          argumentList := memory.argumentList.set index ⟨true, some memory.ledger.next⟩ } :
        ScriptMemory).strings.Perm (memory.ledger.next :: memory.strings) := by
      have hplace := @reduceOption_place_perm ℕ (memory.argumentList.map ArgumentSlot.owned) index
        memory.ledger.next fun _ ↦ hfree
      rw [place, if_pos hindex] at hplace
      rw [strings]
      rw [map_set]
      exact hplace
    refine ⟨⟨howns.variableList, howns.labelList, howns.ifStatementList, ?_⟩, hperm.length_eq⟩
    refine howns.owes.alloc.perm (List.Perm.symm ?_)
    refine (hperm.append_left _ |>.append_left _ |>.append_left _).trans ?_
    refine ((perm_middle.append_left _).append_left _).trans ?_
    exact (perm_middle.append_left _).trans perm_middle
  · have hsame : ({ memory with
          argumentList := memory.argumentList.set index ⟨false, none⟩ } : ScriptMemory).strings =
        memory.strings := by
      rw [strings, strings]
      obtain ⟨hbound, hnone⟩ := List.getElem?_eq_some_iff.mp hfree
      rw [map_set]
      change List.reduceOption (List.set _ index none) = _
      rw [← hnone, set_getElem_self]
    refine ⟨⟨howns.variableList, howns.labelList, howns.ifStatementList, ?_⟩, by rw [hsame]; rfl⟩
    rw [hsame]
    exact howns.owes

omit howns in
/-- The entries behind an argument that is decoded stay as they are. -/
theorem owned_decodeSlot (memory : ScriptMemory) {index other : ℕ} (hother : index < other)
    (argument : Argument) :
    ((memory.decodeSlot index argument).argumentList.map ArgumentSlot.owned)[other]? =
      (memory.argumentList.map ArgumentSlot.owned)[other]? := by
  rw [decodeSlot]
  split_ifs
  · rw [map_set, getElem?_set_ne (ne_of_lt hother)]
  · rw [map_set, getElem?_set_ne (ne_of_lt hother)]

omit howns in
/-- After the arguments of a line have been decoded, as many strings are to be given back as the
line has. -/
theorem Owns.decodeSlots {memory : ScriptMemory}
    (howns : memory.Owns start cells labels statements) {index : ℕ} {args : List Argument}
    (hfree : ∀ other, index ≤ other → other < index + args.length →
      (memory.argumentList.map ArgumentSlot.owned)[other]? = some none) :
    (memory.decodeSlots index args).Owns start cells labels statements ∧
      (memory.decodeSlots index args).strings.length =
        memory.strings.length + args.countP fun argument ↦ argument.type.isString := by
  induction args generalizing memory index with
  | nil => exact ⟨howns, rfl⟩
  | cons argument args ih =>
    rw [length_cons] at hfree
    obtain ⟨hfirst, hlength⟩ :=
      howns.decodeSlot argument (hfree index le_rfl (by omega))
    have hlater : ∀ other, index + 1 ≤ other → other < index + 1 + args.length →
        ((memory.decodeSlot index argument).argumentList.map ArgumentSlot.owned)[other]? =
          some none := by
      intro other hlow hhigh
      rw [owned_decodeSlot memory hlow]
      exact hfree other (Nat.le_of_succ_le hlow) (by omega)
    obtain ⟨hrest, hcount⟩ := ih hfirst hlater
    refine ⟨hrest, ?_⟩
    rw [ScriptMemory.decodeSlots, hcount, hlength, countP_cons]
    omega

omit howns in
theorem length_argumentList_decodeSlots (memory : ScriptMemory) (index : ℕ)
    (args : List Argument) :
    (memory.decodeSlots index args).argumentList.length = memory.argumentList.length := by
  induction args generalizing memory index with
  | nil => rfl
  | cons argument args ih =>
    rw [decodeSlots, ih, length_argumentList_decodeSlot]

omit howns in
theorem variableList_decodeSlots (memory : ScriptMemory) (index : ℕ) (args : List Argument) :
    (memory.decodeSlots index args).variableList = memory.variableList := by
  induction args generalizing memory index with
  | nil => rfl
  | cons argument args ih =>
    rw [decodeSlots, ih, decodeSlot]
    split_ifs
    · rfl
    · rfl

/-- The strings are all that is left after the flush. -/
theorem Owns.flush : memory.flush.Owes start memory.strings := by
  rw [ScriptMemory.flush, howns.variableList.walk_eq, howns.labelList.walk_eq,
    howns.ifStatementList.walk_eq]
  exact howns.owes.freeAll.freeAll.freeAll

end

end ScriptMemory

end XBlast.Script
