import XBlast.Script.Structured

/-!
# The conditional that a line uses

`IF` and `ELSE` search the table of conditionals from its start for the position behind their line.
`ENDIF` searches from the entry that the last of these lines has left in `ifEntry`, and never goes
back. A search that finds nothing ends at the last entry. So an `ENDIF` uses its own conditional
just in case that the last one used before does not come after it in the table
(`entries_right_iff`); it does not behind an inner conditional, and a jump into a conditional may
leave the pointer unset.
-/

set_option autoImplicit false
set_option relaxedAutoImplicit false

namespace XBlast.Script

open Foundation List Option Bool

variable {μ : Type}

/-! ### The uses of a run -/

/-- The position that an entry has for a line of a kind. -/
def IfStatementEntry.behind (entry : IfStatementEntry) : ScriptFunction → Option ℕ
  | .ifCall => some entry.ifPosition
  | .elseCall => entry.elsePosition
  | .endifCall => entry.endifPosition
  | _ => none

variable (list : IfStatementList)

def positionOf (call : ScriptFunction) (index : ℕ) : Option ℕ :=
  list[index]?.bind fun entry ↦ entry.behind call

/-- An executed `IF`, `ELSE` or `ENDIF`: the position behind its line, the position that is searched
for, which is another one if an argument of the line has jumped before, and the entry that is used,
if the pointer is set and the table is not empty. -/
structure EntryUse where
  call : ScriptFunction
  line : ℕ
  position : ℕ
  entry : Option ℕ

/-- The calls that look for an entry. An `IF` with missing arguments ends the script before. -/
def searchesEntry (args : List Argument) (index : ℕ) : ScriptFunction → Bool
  | .ifCall => args[index + 1]?.isSome && args[index + 2]?.isSome && args[index + 3]?.isSome
  | .elseCall | .endifCall => true
  | _ => false

/-- The use that an argument makes. The entry is the one that `ifEntry` points at afterwards. -/
def argumentUse (program : ScriptProgram) (args : List Argument) (line : ℕ) (control : Control)
    (index : ℕ) : Option EntryUse :=
  match args[index]?.map Argument.type with
  | some (.function call) =>
    if searchesEntry args index call then
      some ⟨call, line, control.position,
        (callControl program args index call control).bind Control.ifEntry⟩
    else none
  | _ => none

def lineUses (host : ScriptHost μ) (program : ScriptProgram) (args : List Argument) (line : ℕ) :
    List ℕ → LineState μ → List EntryUse
  | [], _ => []
  | index :: indices, state =>
    (argumentUse program args line state.control index).toList ++
      (executeArgument host program args state index).elim []
        (lineUses host program args line indices)

/-- The uses of one turn of the main loop. -/
def turnUses (host : ScriptHost μ) (program : ScriptProgram) (state : ScriptState μ) :
    List EntryUse :=
  if (lineStep host program state).trace = [] then []
  else
    let line := (lineAt program.file state.control.position).take 100
    let next := state.control.position + line.length + 1
    let args := decodeArguments (arguments (loadLine line state.compareBuf).image) state.data
    lineUses host program args next [4, 3, 2, 1, 0] ⟨{ state.control with position := next },
      { state.data with values := keepValues args state.data.values }, ⟨0, false, none⟩⟩

/-- The uses of the first turns of a run. -/
def runUses (host : ScriptHost μ) (program : ScriptProgram) : ℕ → ScriptState μ → List EntryUse
  | 0, _ => []
  | turns + 1, state =>
    turnUses host program state ++
      (lineStep host program state).final.elim [] (runUses host program turns)

namespace EntryUse

/-- The entry is the one whose position is behind the line. -/
def Right (use : EntryUse) : Prop :=
  use.entry.bind (positionOf list use.call) = some use.line

instance (list : IfStatementList) (use : EntryUse) : Decidable (use.Right list) :=
  inferInstanceAs (Decidable (_ = _))

/-- Where the search starts. -/
def start (use : EntryUse) (pointer : Option ℕ) : Option ℕ :=
  if use.call = .endifCall then pointer else some 0

/-- An entry from the start on is that of the line. Behind a jump of the same line it is the last
entry, which is found for want of another one. -/
def FindsFrom (use : EntryUse) (start : ℕ) : Prop :=
  if use.position = use.line then
    ∃ index, start ≤ index ∧ positionOf list use.call index = some use.line
  else
    positionOf list use.call (list.length - 1) = some use.line ∧
      ∀ index, start ≤ index → positionOf list use.call index ≠ some use.position

def Finds (pointer : Option ℕ) (use : EntryUse) : Prop :=
  ∃ start, use.start pointer = some start ∧ use.FindsFrom list start

/-- Every use of a run finds its entry. The pointer is left at each use for the next one. -/
def AllFind (list : IfStatementList) : Option ℕ → List EntryUse → Prop
  | _, [] => True
  | pointer, use :: uses => use.Finds list pointer ∧ AllFind list use.entry uses

/-- Every use is of the entry at which the search from the last one ends. -/
inductive Threaded (list : IfStatementList) : Option ℕ → List EntryUse → Prop
  | nil (pointer : Option ℕ) : Threaded list pointer []
  | cons {pointer : Option ℕ} {use : EntryUse} {uses : List EntryUse}
      (hentry : use.entry = (use.start pointer).bind
        (findEntry list fun entry ↦ entry.behind use.call = some use.position))
      (hrest : Threaded list use.entry uses) : Threaded list pointer (use :: uses)

end EntryUse

/-! ### One search -/

section

variable {list : IfStatementList}

theorem findEntry_cases (hlist : list ≠ []) (call : ScriptFunction) (position start : ℕ) :
    (∃ index, start ≤ index ∧ positionOf list call index = some position ∧
      findEntry list (fun entry ↦ entry.behind call = some position) start = some index) ∨
    ((∀ index, start ≤ index → positionOf list call index ≠ some position) ∧
      findEntry list (fun entry ↦ entry.behind call = some position) start =
        some (list.length - 1)) := by
  rw [findEntry, if_neg hlist]
  cases hfind : (list.drop start).findIdx?
      fun entry ↦ decide (entry.behind call = some position) with
  | some offset =>
    obtain ⟨hlt, hwanted, -⟩ := findIdx?_eq_some_iff_getElem.mp hfind
    refine .inl ⟨start + offset, Nat.le_add_right _ _, ?_, rfl⟩
    rw [positionOf, ← getElem?_drop, getElem?_eq_getElem hlt]
    exact of_decide_eq_true hwanted
  | none =>
    refine .inr ⟨fun index hindex hposition ↦ ?_, rfl⟩
    obtain ⟨entry, hentry, hbehind⟩ := bind_eq_some_iff.mp hposition
    rw [← Nat.add_sub_cancel' hindex, ← getElem?_drop] at hentry
    exact of_decide_eq_false (findIdx?_eq_none_iff.mp hfind entry
      (mem_of_getElem? hentry)) hbehind

variable {wanted : IfStatementEntry → Bool}

theorem lt_of_findEntry {start index : ℕ} (hfind : findEntry list wanted start = some index) :
    index < list.length := by
  rw [findEntry] at hfind
  split_ifs at hfind with hlist
  split at hfind
  · rename_i offset hoffset
    have hlt := (findIdx?_eq_some_iff_getElem.mp hoffset).1
    rw [length_drop] at hlt
    cases hfind
    omega
  · cases hfind
    exact Nat.sub_one_lt (mt length_eq_zero_iff.mp hlist)

/-- The pointer is left at the entry that is found. -/
theorem bind_ifEntry_of_findEntry {start : ℕ} {change : ℕ → IfStatementEntry → Control}
    (hchange : ∀ found entry, (change found entry).ifEntry = some found) :
    ((findEntry list wanted start).bind fun found ↦ list[found]?.map (change found)).bind
      Control.ifEntry = findEntry list wanted start := by
  cases hfind : findEntry list wanted start with
  | none => rfl
  | some found =>
    rw [bind_some, getElem?_eq_getElem (lt_of_findEntry hfind)]
    exact hchange found _

/-- One search ends at the entry of the line just in case that it finds it. -/
theorem EntryUse.right_iff_finds {use : EntryUse} {pointer : Option ℕ}
    (hpointer : ∀ index ∈ pointer, index < list.length)
    (hentry : use.entry = (use.start pointer).bind
      (findEntry list fun entry ↦ entry.behind use.call = some use.position)) :
    use.Right list ↔ use.Finds list pointer := by
  rw [Right, hentry, Finds]
  cases hstart : use.start pointer with
  | none =>
    refine iff_of_false (some_ne_none _).symm fun hfinds ↦ ?_
    obtain ⟨start, hsome, -⟩ := hfinds
    exact some_ne_none start hsome.symm
  | some start =>
    simp only [some.injEq, exists_eq_left', bind_some, FindsFrom]
    by_cases hlist : list = []
    · subst hlist
      simp [findEntry, positionOf]
    · have hlt : start < list.length := by
        rw [EntryUse.start] at hstart
        split_ifs at hstart
        · exact hpointer start hstart
        · exact some.inj hstart ▸ length_pos_iff.mpr hlist
      obtain ⟨index, hindex, hposition, hfind⟩ | ⟨hnone, hfind⟩ :=
        findEntry_cases hlist use.call use.position start
      · rw [hfind, bind_some, hposition, some.injEq]
        split_ifs with hsame
        · exact iff_of_true hsame ⟨index, hindex, hsame ▸ hposition⟩
        · exact iff_of_false hsame fun h ↦ h.2 index hindex hposition
      · rw [hfind, bind_some]
        split_ifs with hsame
        · rw [hsame] at hnone
          refine iff_of_false (hnone _ (Nat.le_sub_one_of_lt hlt)) ?_
          rintro ⟨index, hindex, hposition⟩
          exact hnone index hindex hposition
        · exact (and_iff_left hnone).symm

end

namespace EntryUse

variable {list : IfStatementList}

/-- The uses of a run are right just in case that they find their entries. -/
theorem Threaded.forall_right_iff {uses : List EntryUse} {pointer : Option ℕ}
    (hthreaded : Threaded list pointer uses) (hpointer : ∀ index ∈ pointer, index < list.length) :
    (∀ use ∈ uses, use.Right list) ↔ AllFind list pointer uses := by
  induction uses generalizing pointer with
  | nil => exact iff_of_true (forall_mem_nil _) trivial
  | cons use uses ih =>
    obtain _ | ⟨hentry, hrest⟩ := hthreaded
    have hafter : ∀ index ∈ use.entry, index < list.length := by
      rw [hentry]
      intro index hindex
      obtain ⟨start, -, hfind⟩ := bind_eq_some_iff.mp hindex
      exact lt_of_findEntry hfind
    rw [forall_mem_cons, right_iff_finds hpointer hentry, ih hrest hafter, AllFind]

end EntryUse

/-! ### The run -/

section

variable {program : ScriptProgram} {args : List Argument} {index : ℕ}

theorem argumentUse_entry {line : ℕ} {control : Control} {use : EntryUse}
    (huse : argumentUse program args line control index = some use) :
    use.entry = (use.start control.ifEntry).bind (findEntry program.ifStatementList
      fun entry ↦ entry.behind use.call = some use.position) := by
  rw [argumentUse] at huse
  split at huse
  · rename_i call hcall
    split_ifs at huse with hsearches
    cases huse
    cases call with
    | ifCall =>
      obtain ⟨⟨hfirst, hop⟩, hsecond⟩ := (and_eq_true_iff.mp hsearches).imp_left
        and_eq_true_iff.mp
      obtain ⟨first, hfirst⟩ := isSome_iff_exists.mp hfirst
      obtain ⟨op, hop⟩ := isSome_iff_exists.mp hop
      obtain ⟨second, hsecond⟩ := isSome_iff_exists.mp hsecond
      simp only [callControl, hfirst, hop, hsecond, IfStatementEntry.behind, some.injEq]
      exact bind_ifEntry_of_findEntry fun _ _ ↦ rfl
    | elseCall =>
      exact bind_ifEntry_of_findEntry fun _ _ ↦ rfl
    | endifCall =>
      simp only [callControl, EntryUse.start]
      cases control.ifEntry with
      | none => rfl
      | some start =>
        rw [bind_some, bind_map, if_pos trivial, bind_some]
        exact bind_fun_some _
    | _ => exact absurd hsearches false_ne_true
  · cases huse

theorem executeArgument_ifEntry {host : ScriptHost μ} (line : ℕ) {state next : LineState μ}
    (hnext : executeArgument host program args state index = some next) :
    next.control.ifEntry = (argumentUse program args line state.control index).elim
      state.control.ifEntry EntryUse.entry := by
  rw [argumentUse]
  cases hargument : args[index]? with
  | none =>
    rw [executeArgument, hargument] at hnext
    cases hnext
    rfl
  | some argument =>
    rw [map_some]
    cases htype : argument.type with
    | function call =>
      rw [executeArgument_function host program hargument htype] at hnext
      dsimp only
      split_ifs at hnext with hcontrol
      · obtain ⟨control, hcall, rfl⟩ := map_eq_some_iff.mp hnext
        split_ifs with hsearches
        · rw [hcall]
          rfl
        · cases call with
          | elseCall | endifCall => exact absurd rfl hsearches
          | ifCall =>
            rw [callControl] at hcall
            split at hcall
            · rename_i hfirst hop hsecond
              rw [searchesEntry, hfirst, hop, hsecond] at hsearches
              exact absurd rfl hsearches
            · cases hcall
          | gotoCall =>
            simp only [callControl] at hcall
            split at hcall
            · split at hcall <;> exact some.inj hcall ▸ rfl
            · exact some.inj hcall ▸ rfl
          | endCall => cases hcall
          | _ => exact some.inj hcall ▸ rfl
      · obtain ⟨result, -, rfl⟩ := map_eq_some_iff.mp hnext
        rw [if_neg]
        · rfl
        · cases call with
          | ifCall | elseCall | endifCall => exact absurd rfl hcontrol
          | _ => exact false_ne_true
    | _ =>
      rw [executeArgument_operand host program hargument (by simp [htype])] at hnext
      obtain ⟨result, -, rfl⟩ := map_eq_some_iff.mp hnext
      rfl

/-- The uses of a line and of what follows it. -/
theorem threaded_lineUses (host : ScriptHost μ) (line : ℕ) (indices : List ℕ)
    (state : LineState μ) {pointer : Option ℕ} (hpointer : state.control.ifEntry = pointer)
    (rest : List EntryUse)
    (hrest : (indices.foldlM (executeArgument host program args) state).elim (rest = [])
      fun final ↦ EntryUse.Threaded program.ifStatementList final.control.ifEntry rest) :
    EntryUse.Threaded program.ifStatementList pointer
      (lineUses host program args line indices state ++ rest) := by
  subst hpointer
  induction indices generalizing state with
  | nil => exact hrest
  | cons index indices ih =>
    rw [foldlM_cons] at hrest
    have hentry := fun use ↦ @argumentUse_entry program args index line state.control use
    rw [lineUses]
    cases hexecute : executeArgument host program args state index with
    | none =>
      rw [hexecute] at hrest
      obtain rfl : rest = [] := hrest
      cases huse : argumentUse program args line state.control index with
      | none => exact .nil _
      | some use => exact .cons (hentry use huse) (.nil _)
    | some next =>
      rw [hexecute] at hrest
      have hnext := ih next hrest
      rw [executeArgument_ifEntry line hexecute] at hnext
      cases huse : argumentUse program args line state.control index with
      | none => exact (huse ▸ hnext :)
      | some use => exact .cons (hentry use huse) (huse ▸ hnext :)

theorem threaded_runUses (host : ScriptHost μ) (program : ScriptProgram) (turns : ℕ)
    (state : ScriptState μ) {pointer : Option ℕ} (hpointer : state.control.ifEntry = pointer) :
    EntryUse.Threaded program.ifStatementList pointer (runUses host program turns state) := by
  induction turns generalizing state pointer with
  | zero => exact .nil _
  | succ turns ih =>
    rw [runUses, turnUses, lineStep]
    by_cases hgoes : state.control.position < program.file.length ∧
        host.cromwellLoop state.data.machine = true
    · by_cases hlabel : ((lineAt program.file state.control.position).take 100).head? = some 0x24
      · rw [if_pos hgoes, if_pos hlabel, if_pos rfl]
        exact ih _ hpointer
      · by_cases hends : 100 ≤ ((lineAt program.file state.control.position).take 100).length ∨
            host.emergencyEscape state.data.machine = true
        · rw [if_pos hgoes, if_neg hlabel, if_pos hends]
          exact .nil _
        · rw [if_pos hgoes, if_neg hlabel, if_neg hends, if_neg (cons_ne_nil _ _)]
          dsimp only
          rw [executeLine]
          refine threaded_lineUses host _ _ _ hpointer _ ?_
          cases List.foldlM (executeArgument host program _) _ [4, 3, 2, 1, 0] with
          | none => exact rfl
          | some final => exact ih ⟨final.control, final.data, _⟩ rfl
    · rw [if_neg hgoes]
      exact .nil _

end

/-- In every run of a script, however long and whatever it jumps over, every `IF`, `ELSE` and
`ENDIF` uses the entry of its line just in case that each of them finds it, from the start of the
table or, for an `ENDIF`, from the entry that the one before has used. -/
theorem entries_right_iff (host : ScriptHost μ) (program : ScriptProgram) (param : List Int32)
    (machine : μ) (compareBuf : Packed 100) (turns : ℕ) :
    (∀ use ∈ runUses host program turns (initialState param machine compareBuf),
      use.Right program.ifStatementList) ↔
      EntryUse.AllFind program.ifStatementList none
        (runUses host program turns (initialState param machine compareBuf)) :=
  (threaded_runUses host program turns _ rfl).forall_right_iff
    fun _ hindex ↦ absurd hindex (not_mem_none _)

/-- A conditional in a conditional. -/
def innerConditional : Text := ascii "IF(1==1)\nIF(1==1)\nENDIF\nENDIF\x00"

/-- A jump into a conditional. -/
def jumpInside : Text := ascii "GOTO(a)\nIF(1==1)\n$a\nENDIF\x00"

/-- The `ENDIF` of an outer conditional uses the inner one, and an `ENDIF` behind a jump into its
conditional uses a pointer that is not set. -/
theorem endif_uses_wrong_entry :
    (∃ list, parseFileForIFStatements innerConditional = some list ∧
      ¬∀ use ∈ runUses idleHost ⟨innerConditional, parseFileForLabels innerConditional, list⟩ 4
        (initialState [] () fun _ ↦ 0), use.Right list) ∧
    ∃ list, parseFileForIFStatements jumpInside = some list ∧
      (runUses idleHost ⟨jumpInside, parseFileForLabels jumpInside, list⟩ 3
        (initialState [] () fun _ ↦ 0)).map EntryUse.entry = [none] :=
  ⟨⟨[⟨9, none, some 31⟩, ⟨18, none, some 24⟩], by decide +kernel, by decide +kernel⟩,
    [⟨17, none, some 27⟩], by decide +kernel, by decide +kernel⟩

end XBlast.Script
