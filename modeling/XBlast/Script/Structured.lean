import XBlast.Script.LineSteps

/-!
# Structured runs of well-nested scripts

The structured meaning of a script performs the body of a conditional or its alternative
(`structuredRun`). The engine jumps by its table instead. It executes the same ordinary lines if
every conditional in a body that is followed by `ELSE` has an `ELSE` itself, and if the last line
leaves room for the zero that closes the file (`follows_block`, `runsStructured_iff_linesFit`).
-/

set_option autoImplicit false
set_option relaxedAutoImplicit false

namespace XBlast.Script

open Foundation List Option Function

variable {μ : Type}

/-! ### The structured meaning -/

/-- The block with the position of each line, `rest` being the lines that follow it. -/
def placed (position : List Text → ℕ) :
    ScriptBlock → List Text → CodeBlock ExecutedLine Condition
  | .done, _ => .done
  | .line line block, rest =>
    .line ⟨position (line.text :: (blockTexts block ++ rest)), line.text⟩
      (placed position block rest)
  | .guarded condition body block, rest =>
    .guarded condition (placed position body (ascii "ENDIF" :: (blockTexts block ++ rest)))
      (placed position block rest)
  | .choice condition body alternative block, rest =>
    .choice condition
      (placed position body (ascii "ELSE" ::
        (blockTexts alternative ++ ascii "ENDIF" :: (blockTexts block ++ rest))))
      (placed position alternative (ascii "ENDIF" :: (blockTexts block ++ rest)))
      (placed position block rest)

variable (host : ScriptHost μ)

def scriptMeaning : Meaning ExecutedLine Condition (ScriptData μ) where
  perform line data := performText host line.text data
  holds condition data := condition.test data

/-- The data at the start of a script. -/
def initialData (param : List Int32) (machine : μ) : ScriptData μ :=
  ⟨initialVariables param, fun _ ↦ 0, machine⟩

variable (script : ScriptBlock) (param : List Int32) (machine : μ)

/-- The run of a script by its structure. -/
def structuredRun : Outcome ExecutedLine (ScriptData μ) :=
  (placed (linePosition (blockTexts script)) script []).eval (scriptMeaning host)
    (initialData param machine)

/-- A line that is no `IF`, `ELSE` or `ENDIF`. -/
def isOrdinaryLine (line : ExecutedLine) : Bool := keywordOf line.text ∉ structureWords

/-- A line that is no label. -/
def isPerformedLine (line : ExecutedLine) : Bool := !isLabel line.text

/-! ### Following a structured run -/

/-- What a block leaves alone: the assertions of the conditionals below an index. -/
structure Control.Kept (below : ℕ) (before after : Control) : Prop where
  validAssertion : ∀ index < below, after.validAssertion index = before.validAssertion index
  ifEntry : after.ifEntry = before.ifEntry ∨ ∃ index ≥ below, after.ifEntry = some index

theorem Control.Kept.refl (below : ℕ) (control : Control) : control.Kept below control :=
  ⟨fun _ _ ↦ rfl, .inl rfl⟩

theorem Control.Kept.trans {below : ℕ} {first second third : Control}
    (hfirst : first.Kept below second) (hsecond : second.Kept below third) :
    first.Kept below third := by
  refine ⟨fun index hindex ↦ ?_, ?_⟩
  · rw [hsecond.validAssertion index hindex, hfirst.validAssertion index hindex]
  · obtain hsame | hnew := hsecond.ifEntry
    · rw [hsame]
      exact hfirst.ifEntry
    · exact .inr hnew

theorem Control.Kept.mono {below bound : ℕ} (hle : bound ≤ below) {before after : Control}
    (hkept : before.Kept below after) : before.Kept bound after :=
  ⟨fun index hindex ↦ hkept.validAssertion index (hindex.trans_le hle),
    hkept.ifEntry.imp_right fun ⟨index, hindex, hentry⟩ ↦ ⟨index, hle.trans hindex, hentry⟩⟩

/-- The engine executes the ordinary lines of a structured run and comes to `target` with its data,
or ends where that run is ended by a line. -/
structure Simulates (state : ScriptState μ) (below target : ℕ)
    (outcome : Outcome ExecutedLine (ScriptState μ))
    (structured : Outcome ExecutedLine (ScriptData μ)) : Prop where
  trace : outcome.trace.filter isOrdinaryLine = structured.trace.filter isPerformedLine
  ended : outcome.final = none → structured.final = none
  reached : ∀ next, outcome.final = some next → structured.final = some next.data ∧
    next.control.position = target ∧ state.control.Kept below next.control

variable (program : ScriptProgram) (state : ScriptState μ)

/-- The engine follows a structured run whose lines fit the buffer. -/
def Follows (below target : ℕ) (structured : Outcome ExecutedLine (ScriptData μ)) : Prop :=
  (∀ line ∈ structured.trace, isLabel line.text = false →
      (lineAt program.file line.position).length < 100) →
    ∃ outcome, Runs host program state outcome ∧ Simulates state below target outcome structured

/-- The engine comes from one state to another without an ordinary line. -/
def Silent (below : ℕ) (next : ScriptState μ) : Prop :=
  ∃ trace, Runs host program state ⟨trace, some next⟩ ∧ trace.filter isOrdinaryLine = [] ∧
    state.control.Kept below next.control

/-- After lines that keep the conditionals up to an index, the line at `position` leads to
`target`. -/
def Closes (below position target : ℕ) : Prop :=
  ∀ middle : ScriptState μ, middle.control.position = position →
    state.control.Kept (below + 1) middle.control →
    ∃ last, Silent host program middle below last ∧ last.data = middle.data ∧
      last.control.position = target

variable {next : ScriptState μ}

section

variable {host : ScriptHost μ} {program : ScriptProgram} {state : ScriptState μ}
  {below target : ℕ} {structured : Outcome ExecutedLine (ScriptData μ)}

theorem Follows.refl (host : ScriptHost μ) (program : ScriptProgram) (state : ScriptState μ)
    (below : ℕ) :
    Follows host program state below state.control.position ⟨[], some state.data⟩ := by
  refine fun _ ↦ ⟨_, Runs.refl state, rfl, nofun, fun next hnext ↦ ?_⟩
  obtain rfl := some.inj hnext
  exact ⟨rfl, rfl, Control.Kept.refl below _⟩

theorem Follows.mono {bound : ℕ} (hle : bound ≤ below)
    (hfollows : Follows host program state below target structured) :
    Follows host program state bound target structured := by
  intro hfits
  obtain ⟨outcome, hruns, htrace, hended, hreached⟩ := hfollows hfits
  refine ⟨outcome, hruns, htrace, hended, fun next hnext ↦ ?_⟩
  obtain ⟨hdata, hposition, hkept⟩ := hreached next hnext
  exact ⟨hdata, hposition, hkept.mono hle⟩

theorem Silent.kept (hsilent : Silent host program state below next) :
    state.control.Kept below next.control := by
  obtain ⟨trace, -, -, hkept⟩ := hsilent
  exact hkept

theorem Silent.mono {bound : ℕ} (hle : bound ≤ below)
    (hsilent : Silent host program state below next) : Silent host program state bound next := by
  obtain ⟨trace, hruns, htrace, hkept⟩ := hsilent
  exact ⟨trace, hruns, htrace, hkept.mono hle⟩

theorem Silent.trans {next last : ScriptState μ} (hfirst : Silent host program state below next)
    (hnext : Silent host program next below last) : Silent host program state below last := by
  obtain ⟨trace, hruns, htrace, hkept⟩ := hfirst
  obtain ⟨later, hlater, hlaterTrace, hlaterKept⟩ := hnext
  refine ⟨trace ++ later, hruns.trans hlater, ?_, hkept.trans hlaterKept⟩
  rw [filter_append, htrace, hlaterTrace, append_nil]

/-- Lines of a conditional before a structured run. -/
theorem Silent.follows (hsilent : Silent host program state below next)
    (hfollows : Follows host program next below target structured) :
    Follows host program state below target structured := by
  intro hfits
  obtain ⟨trace, hruns, htrace, hkept⟩ := hsilent
  obtain ⟨outcome, hnext, houtcome, hended, hreached⟩ := hfollows hfits
  refine ⟨_, hruns.trans hnext, ?_, hended, fun last hlast ↦ ?_⟩
  · rw [filter_append, htrace, nil_append, houtcome]
  · obtain ⟨hdata, hposition, hlater⟩ := hreached last hlast
    exact ⟨hdata, hposition, hkept.trans hlater⟩

/-- Two structured runs, one after the other. -/
theorem Follows.andThen {inner middle : ℕ} (hle : below ≤ inner)
    (hfirst : Follows host program state inner middle structured)
    {continuation : ScriptData μ → Outcome ExecutedLine (ScriptData μ)}
    (hnext : ∀ next : ScriptState μ, next.control.position = middle →
      state.control.Kept inner next.control →
      Follows host program next below target (continuation next.data)) :
    Follows host program state below target (structured.andThen continuation) := by
  intro hfits
  obtain ⟨⟨trace, final⟩, hruns, htrace, hended, hreached⟩ := hfirst fun line hline ↦
    hfits line (Outcome.mem_andThen_left hline _)
  obtain ⟨structuredTrace, structuredFinal⟩ := structured
  cases final with
  | none =>
    obtain rfl : structuredFinal = none := hended rfl
    exact ⟨_, hruns, htrace, fun _ ↦ rfl, nofun⟩
  | some next =>
    obtain ⟨hdata, hposition, hkept⟩ := hreached next rfl
    obtain rfl : structuredFinal = some next.data := hdata
    obtain ⟨outcome, hlater, hlaterTrace, hlaterEnded, hlaterReached⟩ :=
      hnext next hposition hkept fun line hline ↦
        hfits line (Outcome.mem_andThen_right rfl hline)
    refine ⟨_, hruns.trans hlater, ?_, hlaterEnded, fun last hlast ↦ ?_⟩
    · rw [Outcome.mk_some_andThen, filter_append, filter_append, hlaterTrace]
      exact congrArg (· ++ _) htrace
    · obtain ⟨hlastData, hlastPosition, hlastKept⟩ := hlaterReached last hlast
      exact ⟨hlastData, hlastPosition, (hkept.mono hle).trans hlastKept⟩

end

/-! ### Steps of the engine -/

/-- No entry is found at a line between two positions. -/
def Clear (list : IfStatementList) (first last : ℕ) : Prop :=
  ∀ entry ∈ list, entry.ifPosition ≤ first ∧
    ∀ position, entry.elsePosition = some position → position ≤ first ∨ last < position

section

variable {list other : IfStatementList} {first last : ℕ}

theorem Clear.shrink (hclear : Clear list first last) {start stop : ℕ} (hstart : first ≤ start)
    (hstop : stop ≤ last) : Clear list start stop := fun entry hentry ↦
  ⟨(hclear entry hentry).1.trans hstart, fun position hposition ↦
    ((hclear entry hentry).2 position hposition).imp (fun h ↦ h.trans hstart) hstop.trans_lt⟩

theorem Clear.append (hlist : Clear list first last) (hother : Clear other first last) :
    Clear (list ++ other) first last := fun entry hentry ↦
  (mem_append.mp hentry).elim (hlist entry) (hother entry)

theorem clear_of_within (hlist : ∀ entry ∈ list, entry.Within first) (last : ℕ) :
    Clear list first last := fun entry hentry ↦
  ⟨(hlist entry hentry).ifPosition, fun position hposition ↦
    .inl ((hlist entry hentry).elsePosition position hposition)⟩

end

/-- The conditional of an entry, or one after it, is still the current one. -/
theorem Control.Kept.exists_ifEntry {below : ℕ} {before after : Control}
    (hkept : before.Kept (below + 1) after) (hentry : before.ifEntry = some below) :
    ∃ start ≥ below, after.ifEntry = some start := by
  obtain hsame | ⟨index, hindex, hnew⟩ := hkept.ifEntry
  · exact ⟨below, le_refl below, hsame.trans hentry⟩
  · exact ⟨index, Nat.le_of_succ_le hindex, hnew⟩

section

variable {host : ScriptHost μ} (hhost : host.Undisturbed) {program : ScriptProgram}
  {lines : List Text} (hfile : program.file = scriptFile lines)

section

variable {before after : IfStatementList} {own : IfStatementEntry}
  (hlist : program.ifStatementList = before ++ own :: after) {state : ScriptState μ}

include hhost hfile

/-- The engine executes a line that fits the buffer and does not end in an opening quote. -/
theorem runs_line {line : Text} {rest : List Text} (hsuffix : line :: rest <:+ lines)
    (hline : IsLine line) (hquotes : QuotesClosed line)
    (hlength : line.length + closingZeros rest < 100) (hlabel : isLabel line = false)
    (hstate : state.control.position = linePosition lines (line :: rest)) :
    ∃ compareBuf, Runs host program state
      ⟨[⟨linePosition lines (line :: rest), line⟩],
        (executeLine host program (arguments (listImage line))
          { state.control with position := linePosition lines rest } state.data).map fun result ↦
            ⟨result.1, result.2, compareBuf⟩⟩ := by
  have hstep := lineStep_line hhost hfile hsuffix hline hstate hquotes hlabel hlength
  exact ⟨loadLine (line ++ List.replicate (closingZeros rest) 0) state.compareBuf,
    hstep ▸ Runs.step state⟩

include hlist

/-- The line of a condition. -/
theorem silent_condition (condition : Condition) {inner : List Text} {last : ℕ}
    (hinner : inner ≠ []) (hsuffix : condition.text :: inner <:+ lines)
    (hown : own.ifPosition = linePosition lines inner)
    (hclear : Clear before (linePosition lines (condition.text :: inner)) last)
    (hstate : state.control.position = linePosition lines (condition.text :: inner)) :
    ∃ next, Silent host program state before.length next ∧
      next.data = (condition.test state.data).2 ∧
      next.control.position = (if (condition.test state.data).1 then linePosition lines inner
        else jumpPosition (own.elsePosition.or own.endifPosition)) ∧
      next.control.validAssertion before.length = (condition.test state.data).1 ∧
      next.control.ifEntry = some before.length := by
  have hzeros : closingZeros inner = 0 := if_neg hinner
  have hlength := condition.length_lt
  obtain ⟨compareBuf, hrun⟩ := runs_line hhost hfile hsuffix condition.isPlain.isLine
    condition.isPlain.quotesClosed (by rw [hzeros]; exact hlength) rfl hstate
  have hother : ∀ entry ∈ before,
      decide (entry.ifPosition = linePosition lines inner) = false := fun entry hentry ↦
    decide_eq_false ((hclear entry hentry).1.trans_lt (linePosition_lt hsuffix)).ne
  obtain ⟨hfound, hentry⟩ := findEntry_append hlist hother (decide_eq_true hown)
  have hwords : arguments (listImage condition.text) = condition.words :=
    arguments_conditionText condition.comparison condition.first.isWord condition.second.isWord
      condition.length_lt
  rw [hwords, executeLine_condition host state.data condition hfound hentry, map_some] at hrun
  refine ⟨_, ⟨_, hrun, rfl, fun index hindex ↦ ?_, .inr ⟨_, le_refl _, rfl⟩⟩, rfl, rfl,
    update_self _ _ _, rfl⟩
  exact update_of_ne hindex.ne _ _

/-- The line `ELSE` after a body. -/
theorem closes_else {other : List Text} (hother : other ≠ [])
    (hsuffix : ascii "ELSE" :: other <:+ lines)
    (hown : own.elsePosition = some (linePosition lines other))
    (hbefore : ∀ entry ∈ before, entry.elsePosition ≠ some (linePosition lines other))
    (hassertion : state.control.validAssertion before.length = true) :
    Closes host program state before.length (linePosition lines (ascii "ELSE" :: other))
      (jumpPosition own.endifPosition) := by
  intro middle hmiddle hkept
  have hzeros : closingZeros other = 0 := if_neg hother
  obtain ⟨compareBuf, hrun⟩ := runs_line hhost hfile hsuffix (by decide) (by decide)
    (by rw [hzeros]; decide) rfl hmiddle
  obtain ⟨hfound, hentry⟩ := findEntry_append hlist
    (fun entry hentry ↦ decide_eq_false (hbefore entry hentry)) (decide_eq_true hown)
  have hwords : arguments (listImage (ascii "ELSE")) = [ascii "ELSE"] := by decide
  rw [hwords, executeLine_else host middle.data hfound hentry, map_some] at hrun
  exact ⟨_, ⟨_, hrun, rfl, fun _ _ ↦ rfl, .inr ⟨_, le_refl _, rfl⟩⟩, rfl,
    if_pos ((hkept.validAssertion _ (Nat.lt_succ_self _)).trans hassertion)⟩

/-- The line `ENDIF`. -/
theorem closes_endif {rest : List Text} (hsuffix : ascii "ENDIF" :: rest <:+ lines)
    (hcurrent : state.control.ifEntry = some before.length) :
    Closes host program state before.length (linePosition lines (ascii "ENDIF" :: rest))
      (linePosition lines rest) := by
  intro middle hmiddle hkept
  have hzeros := closingZeros_le_one rest
  obtain ⟨compareBuf, hrun⟩ := runs_line hhost hfile hsuffix (by decide) (by decide)
    (show 5 + closingZeros rest < 100 by omega) rfl hmiddle
  obtain ⟨start, hstart, hentry⟩ := hkept.exists_ifEntry hcurrent
  have hlength : before.length < program.ifStatementList.length := by
    rw [hlist, length_append, length_cons]
    omega
  obtain ⟨found, hfound, hle⟩ := exists_findEntry hlength hstart
    fun entry ↦ entry.endifPosition = some (linePosition lines rest)
  have hwords : arguments (listImage (ascii "ENDIF")) = [ascii "ENDIF"] := by decide
  have hexecute : executeLine host program [ascii "ENDIF"]
      { middle.control with position := linePosition lines rest } middle.data = _ :=
    executeLine_endif host middle.data hentry hfound
  rw [hwords, hexecute, map_some] at hrun
  refine ⟨_, ⟨_, hrun, rfl, fun index hindex ↦ ?_, .inr ⟨found, hle, rfl⟩⟩, rfl, rfl⟩
  exact update_of_ne (by omega) _ _

end

/-! ### Blocks inside a script -/

/-- A block inside a script, its entries being those between `before` and `after` in the table. -/
structure Located (program : ScriptProgram) (lines : List Text)
    (block : ScriptBlock) (rest : List Text)
    (before after : IfStatementList) : Prop where
  suffix : blockTexts block ++ rest <:+ lines
  list : program.ifStatementList =
    before ++ (ifTable (linePosition lines) block rest ++ after)
  clear : Clear before (linePosition lines (blockTexts block ++ rest)) (linePosition lines rest)

/-- A block behind the first `below` entries and one more. -/
def Inside (program : ScriptProgram) (lines : List Text) (below : ℕ) (block : ScriptBlock)
    (rest : List Text) : Prop :=
  ∃ before after, below < before.length ∧ Located program lines block rest before after

section

variable {rest : List Text} {before after : IfStatementList}
  {condition : Condition} {body alternative block : ScriptBlock}

theorem Located.line {line : Line}
    (hblock : Located program lines (.line line block) rest before after) :
    Located program lines block rest before after where
  suffix := (suffix_cons _ _).trans hblock.suffix
  list := hblock.list
  clear := hblock.clear.shrink (linePosition_lt hblock.suffix).le le_rfl

theorem inside_of_list {own : IfStatementEntry} {earlier later : IfStatementList}
    {first last : ℕ} (hsuffix : blockTexts block ++ rest <:+ lines)
    (hlist : program.ifStatementList =
      before ++ own :: (earlier ++ (ifTable (linePosition lines) block rest ++ later)))
    (hbefore : Clear before first last)
    (hfirst : first ≤ linePosition lines (blockTexts block ++ rest))
    (hlast : linePosition lines rest ≤ last)
    (hown : Clear (own :: earlier) (linePosition lines (blockTexts block ++ rest))
      (linePosition lines rest)) : Inside program lines before.length block rest := by
  refine ⟨before ++ own :: earlier, later, ?_, hsuffix, ?_,
    (hbefore.shrink hfirst hlast).append hown⟩
  · rw [length_append, length_cons]
    omega
  · rw [hlist, append_assoc, cons_append]

/-- The parts of a conditional without alternative. -/
theorem Located.guarded
    (hblock : Located program lines (.guarded condition body block) rest before after) :
    ∃ own inner, program.ifStatementList = before ++ own :: inner ∧
      own.ifPosition =
        linePosition lines (blockTexts body ++ ascii "ENDIF" :: (blockTexts block ++ rest)) ∧
      own.elsePosition = none ∧
      own.endifPosition = some (linePosition lines (blockTexts block ++ rest)) ∧
      Inside program lines before.length body (ascii "ENDIF" :: (blockTexts block ++ rest)) ∧
      Inside program lines before.length block rest := by
  obtain ⟨hif, hbody, hendif, hrest⟩ := suffix_of_guarded hblock.suffix
  have hstart := linePosition_lt hif
  have hclose := linePosition_lt hendif
  have hmiddle := linePosition_le (suffix_append (blockTexts body) _) hbody
  have hend := linePosition_le (suffix_append (blockTexts block) rest) hrest
  have hlist := hblock.list
  have hclear := hblock.clear
  rw [ifTable, cons_append, append_assoc] at hlist
  rw [blockTexts_guarded_append] at hclear
  have hnone {position last : ℕ} (hposition : none = some position) : position ≤ last := by
    cases hposition
  refine ⟨_, _, hlist, rfl, rfl, rfl,
    @inside_of_list _ _ _ _ _ _ [] _ _ _ hbody hlist hclear hstart.le (hclose.le.trans hend) ?_,
    inside_of_list hrest hlist hclear (hstart.le.trans (hmiddle.trans hclose.le)) le_rfl ?_⟩
  · exact clear_of_within (forall_mem_singleton.mpr ⟨le_rfl, fun _ ↦ hnone⟩) _
  · refine clear_of_within (forall_mem_cons.mpr ⟨⟨hmiddle.trans hclose.le, fun _ ↦ hnone⟩, ?_⟩) _
    exact fun entry hentry ↦ (within_of_mem_ifTable hbody hentry).mono hclose.le

/-- The parts of a conditional with an alternative. Its `ELSE` is its own just when the body is
total. -/
theorem Located.choice
    (hblock : Located program lines (.choice condition body alternative block) rest before after)
    {behind other : List Text} (hbehind : blockTexts block ++ rest = behind)
    (hother : blockTexts alternative ++ ascii "ENDIF" :: behind = other) :
    ∃ own inner, program.ifStatementList = before ++ own :: inner ∧
      own.ifPosition = linePosition lines (blockTexts body ++ ascii "ELSE" :: other) ∧
      own.endifPosition = some (linePosition lines behind) ∧
      (∀ entry ∈ before, entry.elsePosition ≠ some (linePosition lines other)) ∧
      (body.Total → own.elsePosition = some (linePosition lines other) ∧
        Inside program lines before.length body (ascii "ELSE" :: other)) ∧
      (¬body.Total → own.elsePosition = none) ∧
      Inside program lines before.length alternative (ascii "ENDIF" :: behind) ∧
      Inside program lines before.length block rest := by
  obtain ⟨hif, hbody, helse, halternative, hendif, hrest⟩ := suffix_of_choice hblock.suffix
  have hclear := hblock.clear
  rw [blockTexts_choice_append] at hclear
  rw [hbehind] at hif hbody helse halternative hendif hrest hclear
  rw [hother] at hif hbody helse halternative hclear
  have hstart := linePosition_lt hif
  have hmiddle := linePosition_le (suffix_append (blockTexts body) _) hbody
  have hturn := linePosition_lt helse
  have halternativeEnd : linePosition lines other ≤ linePosition lines (ascii "ENDIF" :: behind) :=
    linePosition_le (hother ▸ suffix_append _ _) halternative
  have hclose := linePosition_lt hendif
  have hend : linePosition lines behind ≤ linePosition lines rest :=
    linePosition_le (hbehind ▸ suffix_append _ _) hrest
  obtain ⟨own, inner, htable, hown, hclosed, hwithin, htotal, hnot⟩ :=
    ifTable_choice condition body alternative block rest hbehind hother
      (hmiddle.trans hturn.le) fun _ hmem ↦ (within_of_mem_ifTable hbody hmem).mono hturn.le
  have hlist := hblock.list
  rw [htable, cons_append, append_assoc, append_assoc] at hlist
  refine ⟨own, _, hlist, hown, hclosed, fun entry hentry hsame ↦ ?_, fun hbodyTotal ↦ ?_, hnot,
    ?_, ?_⟩
  · obtain hle | hlt := (hclear entry hentry).2 _ hsame
    · exact absurd hle (not_le.mpr (hstart.trans_le (hmiddle.trans hturn.le)))
    · exact absurd hlt (not_lt.mpr (halternativeEnd.trans (hclose.le.trans hend)))
  · obtain ⟨helsePosition, rfl⟩ := htotal hbodyTotal
    refine ⟨helsePosition, @inside_of_list _ _ _ _ _ _ [] _ _ _ hbody hlist hclear hstart.le
      (hturn.le.trans (halternativeEnd.trans (hclose.le.trans hend))) ?_⟩
    refine forall_mem_singleton.mpr ⟨hown.le, fun position hposition ↦ .inr ?_⟩
    rw [← some.inj (helsePosition.symm.trans hposition)]
    exact hturn
  · subst hother
    exact inside_of_list halternative hlist hclear (hstart.le.trans (hmiddle.trans hturn.le))
      (hclose.le.trans hend) (clear_of_within hwithin _)
  · subst hother hbehind
    rw [← append_assoc inner] at hlist
    refine inside_of_list hrest hlist hclear (hstart.le.trans (hmiddle.trans (hturn.le.trans
      (halternativeEnd.trans hclose.le)))) le_rfl (clear_of_within (fun entry hentry ↦ ?_) _)
    rw [← cons_append] at hentry
    obtain hentry | hentry := mem_append.mp hentry
    · exact (hwithin entry hentry).mono (halternativeEnd.trans hclose.le)
    · exact (within_of_mem_ifTable halternative hentry).mono hclose.le

end

/-! ### Entering a conditional -/

/-- The engine is at the start of a branch of a conditional, and the line behind the branch leads
to `target`. -/
structure AtBranch (host : ScriptHost μ) (program : ScriptProgram) (lines : List Text) (below : ℕ)
    (block : ScriptBlock) (rest : List Text) (target : ℕ) (state : ScriptState μ) :
    Prop where
  inside : Inside program lines below block rest
  position : state.control.position = linePosition lines (blockTexts block ++ rest)
  closes : Closes host program state below (linePosition lines rest) target

section

variable {condition : Condition} {body alternative block : ScriptBlock} {rest : List Text}
  {before after : IfStatementList} {state : ScriptState μ}

include hhost hfile

/-- The line of a conditional without alternative. -/
theorem enter_guarded
    (hlocated : Located program lines (.guarded condition body block) rest before after)
    (hstate : state.control.position =
      linePosition lines (blockTexts (.guarded condition body block) ++ rest)) :
    ∃ next, Silent host program state before.length next ∧
      next.data = (condition.test state.data).2 ∧ Inside program lines before.length block rest ∧
      ((condition.test state.data).1 = true → AtBranch host program lines before.length body
        (ascii "ENDIF" :: (blockTexts block ++ rest))
        (linePosition lines (blockTexts block ++ rest)) next) ∧
      ((condition.test state.data).1 = false →
        next.control.position = linePosition lines (blockTexts block ++ rest)) := by
  obtain ⟨hif, -, hendif, -⟩ := suffix_of_guarded hlocated.suffix
  obtain ⟨own, inner, hlist, hown, helse, hclose, hbody, hrest⟩ := hlocated.guarded
  have hclear := hlocated.clear
  rw [blockTexts_guarded_append] at hstate hclear
  obtain ⟨next, hsilent, hdata, hposition, -, hentry⟩ := silent_condition hhost hfile hlist
    condition (append_ne_nil_of_right_ne_nil _ (cons_ne_nil _ _)) hif hown hclear hstate
  refine ⟨next, hsilent, hdata, hrest, fun htest ↦ ?_, fun htest ↦ ?_⟩
  · rw [htest, if_pos rfl] at hposition
    exact ⟨hbody, hposition, closes_endif hhost hfile hlist hendif hentry⟩
  · rwa [htest, if_neg Bool.false_ne_true, helse, none_or, hclose] at hposition

/-- The line of a conditional with an alternative, which is not found if the body is not total. -/
theorem enter_choice
    (hlocated : Located program lines (.choice condition body alternative block) rest before after)
    (hstate : state.control.position =
      linePosition lines (blockTexts (.choice condition body alternative block) ++ rest)) :
    ∃ next, Silent host program state before.length next ∧
      next.data = (condition.test state.data).2 ∧ Inside program lines before.length block rest ∧
      ((condition.test state.data).1 = true → body.Total →
        AtBranch host program lines before.length body (ascii "ELSE" ::
          (blockTexts alternative ++ ascii "ENDIF" :: (blockTexts block ++ rest)))
          (linePosition lines (blockTexts block ++ rest)) next) ∧
      ((condition.test state.data).1 = false →
        (body.Total → AtBranch host program lines before.length alternative
          (ascii "ENDIF" :: (blockTexts block ++ rest))
          (linePosition lines (blockTexts block ++ rest)) next) ∧
        (¬body.Total →
          next.control.position = linePosition lines (blockTexts block ++ rest))) := by
  obtain ⟨hif, -, helseLine, -, hendif, -⟩ := suffix_of_choice hlocated.suffix
  obtain ⟨own, inner, hlist, hown, hclose, hother, htotal, hnot, halternative, hrest⟩ :=
    hlocated.choice rfl rfl
  have hclear := hlocated.clear
  rw [blockTexts_choice_append] at hstate hclear
  obtain ⟨next, hsilent, hdata, hposition, hassertion, hentry⟩ := silent_condition hhost hfile
    hlist condition (append_ne_nil_of_right_ne_nil _ (cons_ne_nil _ _)) hif hown hclear hstate
  refine ⟨next, hsilent, hdata, hrest, fun htest hbody ↦ ?_, fun htest ↦
    ⟨fun hbody ↦ ?_, fun hbody ↦ ?_⟩⟩
  · obtain ⟨helse, hinside⟩ := htotal hbody
    have hcloses := closes_else hhost hfile hlist
      (append_ne_nil_of_right_ne_nil _ (cons_ne_nil _ _)) helseLine helse hother
      (hassertion.trans htest)
    rw [hclose] at hcloses
    rw [htest, if_pos rfl] at hposition
    exact ⟨hinside, hposition, hcloses⟩
  · rw [htest, if_neg Bool.false_ne_true, (htotal hbody).1, some_or] at hposition
    exact ⟨halternative, hposition, closes_endif hhost hfile hlist hendif hentry⟩
  · rwa [htest, if_neg Bool.false_ne_true, hnot hbody, none_or, hclose] at hposition

end

/-! ### The engine follows the structure -/

/-- The engine follows a block wherever it stands. -/
def FollowsBlock (host : ScriptHost μ) (program : ScriptProgram) (lines : List Text)
    (block : ScriptBlock) : Prop :=
  ∀ ⦃rest : List Text⦄ ⦃before after : IfStatementList⦄ ⦃state : ScriptState μ⦄,
    Located program lines block rest before after →
    state.control.position = linePosition lines (blockTexts block ++ rest) →
    Follows host program state before.length (linePosition lines rest)
      ((placed (linePosition lines) block rest).eval (scriptMeaning host) state.data)

section

variable {rest : List Text} {block : ScriptBlock} {below target behind : ℕ} {state : ScriptState μ}

theorem FollowsBlock.inside (hblock : FollowsBlock host program lines block)
    (hinside : Inside program lines below block rest)
    (hstate : state.control.position = linePosition lines (blockTexts block ++ rest)) :
    Follows host program state (below + 1) (linePosition lines rest)
      ((placed (linePosition lines) block rest).eval (scriptMeaning host) state.data) := by
  obtain ⟨before, after, hlength, hlocated⟩ := hinside
  exact (hblock hlocated hstate).mono hlength

/-- A branch, the line that closes it, and what follows. -/
theorem FollowsBlock.branch (hblock : FollowsBlock host program lines block)
    (hbranch : AtBranch host program lines below block rest behind state)
    {continuation : ScriptData μ → Outcome ExecutedLine (ScriptData μ)}
    (hnext : ∀ last : ScriptState μ, last.control.position = behind →
      Follows host program last below target (continuation last.data)) :
    Follows host program state below target (((placed (linePosition lines) block rest).eval
      (scriptMeaning host) state.data).andThen continuation) := by
  refine (hblock.inside hbranch.inside hbranch.position).andThen (Nat.le_succ below)
    fun middle hmiddle hkept ↦ ?_
  obtain ⟨last, hclosing, hlast, hend⟩ := hbranch.closes middle hmiddle hkept
  rw [← hlast]
  exact hclosing.follows (hnext last hend)

end

include hhost hfile

/-- A line that belongs to no conditional, followed by the rest of a block. -/
theorem follows_line (line : Line) {rest : List Text} (hsuffix : line.text :: rest <:+ lines)
    {state : ScriptState μ}
    (hstate : state.control.position = linePosition lines (line.text :: rest)) (below : ℕ) :
    Follows host program state below (linePosition lines rest)
      ⟨[⟨linePosition lines (line.text :: rest), line.text⟩],
        performText host line.text state.data⟩ := by
  intro hfits
  cases hlabel : isLabel line.text with
  | true =>
    have hstep := lineStep_eq hhost hfile hsuffix line.isLine hstate line.length_lt
    rw [if_pos hlabel] at hstep
    refine ⟨_, hstep ▸ Runs.step state, ?_, fun h ↦ absurd h (some_ne_none _),
      fun next hnext ↦ ?_⟩
    · simp only [filter_nil, filter_singleton, isPerformedLine, hlabel, Bool.not_true]
      rfl
    · obtain rfl := some.inj hnext
      rw [performText, if_pos hlabel]
      exact ⟨rfl, rfl, fun _ _ ↦ rfl, .inl rfl⟩
  | false =>
    obtain ⟨hquotes, hwords⟩ := line.ordinary.resolve_left
      (hlabel ▸ Bool.false_ne_true)
    have hlength := hfits _ (mem_singleton_self _) hlabel
    rw [hfile, lineAt_linePosition hsuffix line.isLine, length_append, length_replicate] at hlength
    obtain ⟨compareBuf, hrun⟩ :=
      runs_line hhost hfile hsuffix line.isLine hquotes hlength hlabel hstate
    rw [executeLine_of_ordinary host program hwords, Option.map_map] at hrun
    rw [performText, if_neg (hlabel ▸ Bool.false_ne_true)]
    refine ⟨_, hrun, ?_, fun hended ↦ map_eq_none_iff.mp hended, fun next hnext ↦ ?_⟩
    · have hordinary : isOrdinaryLine ⟨linePosition lines (line.text :: rest), line.text⟩ = true :=
        decide_eq_true line.keyword
      have hperformed :
          isPerformedLine ⟨linePosition lines (line.text :: rest), line.text⟩ = true := by
        rw [isPerformedLine, hlabel]
        rfl
      rw [filter_singleton, filter_singleton, hordinary, hperformed]
    · obtain ⟨data, hdata, rfl⟩ := map_eq_some_iff.mp hnext
      exact ⟨hdata, rfl, fun _ _ ↦ rfl, .inl rfl⟩

variable {condition : Condition} {body alternative block : ScriptBlock}

theorem followsBlock_guarded (hbody : FollowsBlock host program lines body)
    (hblock : FollowsBlock host program lines block) :
    FollowsBlock host program lines (.guarded condition body block) := by
  intro rest before after state hlocated hstate
  obtain ⟨next, hsilent, hdata, hinside, hholds, hfails⟩ :=
    enter_guarded hhost hfile hlocated hstate
  have hnext : ((scriptMeaning host).holds condition state.data).2 = next.data := hdata.symm
  refine hsilent.follows ?_
  cases htest : (condition.test state.data).1 with
  | true =>
    rw [placed, CodeBlock.eval_guarded_of_holds htest, hnext]
    exact hbody.branch (hholds htest) fun last hlast ↦
      (hblock.inside hinside hlast).mono (Nat.le_succ _)
  | false =>
    rw [placed, CodeBlock.eval_guarded_of_fails htest, hnext]
    exact (hblock.inside hinside (hfails htest)).mono (Nat.le_succ _)

theorem followsBlock_choice (htotal : body.Total) (hbody : FollowsBlock host program lines body)
    (halternative : FollowsBlock host program lines alternative)
    (hblock : FollowsBlock host program lines block) :
    FollowsBlock host program lines (.choice condition body alternative block) := by
  intro rest before after state hlocated hstate
  obtain ⟨next, hsilent, hdata, hinside, hholds, hfails⟩ :=
    enter_choice hhost hfile hlocated hstate
  have hnext : ((scriptMeaning host).holds condition state.data).2 = next.data := hdata.symm
  refine hsilent.follows ?_
  cases htest : (condition.test state.data).1 with
  | true =>
    rw [placed, CodeBlock.eval_choice_of_holds htest, hnext]
    exact hbody.branch (hholds htest htotal) fun last hlast ↦
      (hblock.inside hinside hlast).mono (Nat.le_succ _)
  | false =>
    rw [placed, CodeBlock.eval_choice_of_fails htest, hnext]
    exact halternative.branch ((hfails htest).1 htotal) fun last hlast ↦
      (hblock.inside hinside hlast).mono (Nat.le_succ _)

/-- The engine follows the structure of a block whose bodies with an `ELSE` after them are total. -/
theorem follows_block (hcomplete : block.ElseComplete) :
    FollowsBlock host program lines block := by
  induction block with
  | done =>
    intro rest before after state _ hstate
    have hrefl := Follows.refl host program state before.length
    rw [hstate] at hrefl
    exact hrefl
  | line line block ih =>
    intro rest before after state hlocated hstate
    exact (follows_line hhost hfile line hlocated.suffix hstate _).andThen le_rfl
      fun next hposition _ ↦ ih hcomplete hlocated.line hposition
  | guarded condition body block ihBody ihBlock =>
    exact followsBlock_guarded hhost hfile (ihBody hcomplete.1) (ihBlock hcomplete.2)
  | choice condition body alternative block ihBody ihAlternative ihBlock =>
    exact followsBlock_choice hhost hfile hcomplete.1 (ihBody hcomplete.1.elseComplete)
      (ihAlternative hcomplete.2.1) (ihBlock hcomplete.2.2)

end

/-! ### Whole scripts -/

variable (compareBuf : Packed 100)

/-- `runScript` comes to an end and executes the ordinary lines of the structured run, one after
the other. -/
def RunsStructured : Prop :=
  ∃ fuel trace, runScript host (scriptFile (blockTexts script)) param machine compareBuf fuel =
      some trace ∧
    trace.filter isOrdinaryLine =
      (structuredRun host script param machine).trace.filter isPerformedLine

/-- Every line that the structured run performs fits the buffer of the engine, together with the
zero that closes the file if it is the last line. -/
def LinesFit : Prop :=
  ∀ line ∈ (structuredRun host script param machine).trace, isLabel line.text = false →
    (lineAt (scriptFile (blockTexts script)) line.position).length < 100

instance (host : ScriptHost μ) (script : ScriptBlock) (param : List Int32)
    (machine : μ) : Decidable (LinesFit host script param machine) :=
  inferInstanceAs (Decidable (∀ line ∈ _, _))

/-- The program that the passes over a script make. -/
def scriptProgram : ScriptProgram :=
  ⟨scriptFile (blockTexts script), parseFileForLabels (scriptFile (blockTexts script)),
    ifTable (linePosition (blockTexts script)) script []⟩

/-- The state before the first line. -/
def initialState : ScriptState μ :=
  ⟨⟨0, fun _ ↦ false, none⟩, initialData param machine, compareBuf⟩

theorem runScript_eq (fuel : ℕ) :
    runScript host (scriptFile (blockTexts script)) param machine compareBuf fuel =
      runLines host (scriptProgram script) fuel (initialState param machine compareBuf) := by
  rw [runScript, parseFileForIFStatements_blockTexts]
  rfl

theorem located_script : Located (scriptProgram script) (blockTexts script) script [] [] [] where
  suffix := by rw [append_nil]
  list := by rw [append_nil, nil_append]; rfl
  clear := nofun

theorem position_initialState :
    (initialState param machine compareBuf).control.position =
      linePosition (blockTexts script) (blockTexts script ++ []) := by
  rw [append_nil, linePosition_self]
  rfl

variable {script : ScriptBlock} {trace : List ExecutedLine}

/-- Behind the last line the script ends. -/
theorem Runs.finish {host : ScriptHost μ} {state next : ScriptState μ}
    (hruns : Runs host (scriptProgram script) state ⟨trace, some next⟩)
    (hnext : next.control.position = linePosition (blockTexts script) []) :
    Runs host (scriptProgram script) state ⟨trace, none⟩ := by
  have hstep : lineStep host (scriptProgram script) next = ⟨[], none⟩ := lineStep_end rfl hnext
  have hend := hruns.trans (hstep ▸ Runs.step next)
  rwa [append_nil] at hend

theorem Runs.exists_runLines {host : ScriptHost μ} {program : ScriptProgram} {state : ScriptState μ}
    (hruns : Runs host program state ⟨trace, none⟩) :
    ∃ fuel, runLines host program fuel state = some trace := by
  obtain ⟨count, hcount⟩ := hruns
  refine ⟨0 + count, (hcount 0).trans ?_⟩
  rw [continueFrom, map_some, append_nil]

/-- A script whose bodies with an `ELSE` after them are total runs by its structure just when its
lines fit. -/
theorem runsStructured_iff_linesFit {host : ScriptHost μ} (hhost : host.Undisturbed)
    (hcomplete : script.ElseComplete) (param : List Int32) (machine : μ) (compareBuf : Packed 100) :
    RunsStructured host script param machine compareBuf ↔ LinesFit host script param machine := by
  constructor
  · rintro ⟨fuel, trace, hrun, htrace⟩ line hline hlabel
    have hperformed : line ∈ trace.filter isOrdinaryLine := by
      rw [htrace, mem_filter]
      exact ⟨hline, by rw [isPerformedLine, hlabel]; rfl⟩
    rw [runScript_eq] at hrun
    exact length_lt_of_mem_runLines hrun (mem_filter.mp hperformed).1
  · intro hfits
    obtain ⟨⟨trace, final⟩, hruns, htrace, -, hreached⟩ := follows_block hhost rfl hcomplete
      (located_script script) (position_initialState script param machine compareBuf) hfits
    have hend : Runs host (scriptProgram script) (initialState param machine compareBuf)
        ⟨trace, none⟩ := by
      cases final with
      | none => exact hruns
      | some next => exact hruns.finish (hreached next rfl).2.1
    obtain ⟨fuel, hfuel⟩ := hend.exists_runLines
    exact ⟨fuel, trace, (runScript_eq host script param machine compareBuf fuel).trans hfuel,
      htrace⟩

end XBlast.Script
