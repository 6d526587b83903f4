import XBlast.Foundation.BlockTree
import XBlast.Script.Layout

/-!
# The table of conditionals of a well-nested script

A well-nested script is a block whose lines are ordinary lines or labels (`Line`) and whose tests
are comparisons of two words (`Condition`). `blockTexts` lists its lines. The pass over the file
collects one entry for each conditional (`ifTable`, `parseFileForIFStatements_blockTexts`), but it
gives an `ELSE` to the last entry that has none yet, closed or not. The `ELSE` of a conditional
therefore reaches its own `IF` just when every conditional in its body has an alternative
(`forall_isSome_ifTable_iff`).
-/

set_option autoImplicit false
set_option relaxedAutoImplicit false

namespace XBlast.Script

open Foundation List Option

/-! ### Well-nested scripts -/

/-- The keywords of the lines that make up a conditional. -/
def structureWords : List Text := [ascii "IF", ascii "ELSE", ascii "ENDIF"]

/-- A word that calls one of the functions that decide about the next line. -/
def isControlWord (word : Text) : Bool :=
  (findNamed functionCallList word).any fun found ↦ found.1.isControl

def isLabel (text : Text) : Bool := text.head? = some 0x24

/-- The zeros that close a file do not make a label. -/
theorem head?_append_replicate_iff (text : Text) (count : ℕ) :
    (text ++ List.replicate count 0).head? = some 0x24 ↔ isLabel text = true := by
  rw [isLabel, decide_eq_true_eq]
  cases text with
  | nil =>
    cases count with
    | zero => exact Iff.rfl
    | succ =>
      rw [nil_append, replicate_succ, head?_cons]
      decide
  | cons letter text => exact Iff.rfl

/-- A line that belongs to no conditional: a label, or a line without a control function that does
not end in an opening quote. -/
structure Line where
  text : Text
  isLine : IsLine text
  length_lt : text.length < 100
  keyword : keywordOf text ∉ structureWords
  ordinary : isLabel text ∨
    QuotesClosed text ∧ ∀ word ∈ arguments (listImage text), isControlWord word = false

/-- One side of a comparison: a variable, a number or any other word that is no function. -/
structure Operand where
  word : Text
  isWord : IsWord word
  not_function : findNamed functionCallList word = none

/-- The test of a conditional. -/
structure Condition where
  first : Operand
  comparison : Comparison
  second : Operand
  length_lt : (conditionText first.word comparison second.word).length < 100

variable (condition : Condition)

def Condition.text : Text :=
  conditionText condition.first.word condition.comparison condition.second.word

abbrev ScriptBlock := CodeBlock Line Condition

/-- The lines of a script. -/
def blockTexts (block : ScriptBlock) : List Text :=
  block.flatten Line.text Condition.text (ascii "ELSE") (ascii "ENDIF")

section

variable (body alternative block : ScriptBlock) (rest : List Text)

theorem blockTexts_guarded_append : blockTexts (.guarded condition body block) ++ rest =
    condition.text :: (blockTexts body ++ ascii "ENDIF" :: (blockTexts block ++ rest)) := by
  simp only [blockTexts, CodeBlock.flatten, cons_append, append_assoc]

theorem blockTexts_choice_append : blockTexts (.choice condition body alternative block) ++ rest =
    condition.text :: (blockTexts body ++ ascii "ELSE" :: (blockTexts alternative ++
      ascii "ENDIF" :: (blockTexts block ++ rest))) := by
  simp only [blockTexts, CodeBlock.flatten, cons_append, append_assoc]

end

theorem Condition.isPlain : IsPlain condition.text :=
  (by decide : IsPlain (ascii "IF(")).append (condition.first.isWord.isPlain.append
    ((isPlain_operatorTexts _ condition.comparison.text_mem).append
      (condition.second.isWord.isPlain.append (by decide))))

theorem Condition.keywordOf_text : keywordOf condition.text = ascii "IF" :=
  rfl

/-! ### Attaching positions -/

variable {list : IfStatementList} {entry : IfStatementEntry}

section

variable {missing : IfStatementEntry → Bool} {attach : IfStatementEntry → IfStatementEntry}

theorem attachLast_eq_none_iff :
    attachLast missing attach list = none ↔ ∀ entry ∈ list, missing entry = false := by
  induction list with
  | nil => exact iff_of_true rfl nofun
  | cons entry list ih =>
    rw [forall_mem_cons, ← ih, attachLast]
    cases attachLast missing attach list with
    | some changed => exact iff_of_false (some_ne_none _) fun h ↦ some_ne_none _ h.2
    | none =>
      cases missing entry with
      | false => exact iff_of_true rfl ⟨rfl, rfl⟩
      | true => exact iff_of_false (some_ne_none _) fun h ↦ Bool.noConfusion h.1

/-- Entries before one that is changed stay as they are. -/
theorem attachLast_append {list changed : IfStatementList}
    (hchanged : attachLast missing attach list = some changed) (before : IfStatementList) :
    attachLast missing attach (before ++ list) = some (before ++ changed) := by
  induction before with
  | nil => exact hchanged
  | cons entry before ih => rw [cons_append, attachLast, ih, cons_append]

theorem attachLast_cons_of_forall (hentry : missing entry = true)
    (hlist : ∀ other ∈ list, missing other = false) :
    attachLast missing attach (entry :: list) = some (attach entry :: list) := by
  rw [attachLast, attachLast_eq_none_iff.mpr hlist, hentry, if_pos rfl]

/-- The entry that is changed is the last one of its kind. -/
theorem exists_of_attachLast {list changed : IfStatementList}
    (hchanged : attachLast missing attach list = some changed) :
    ∃ before entry after, list = before ++ entry :: after ∧ missing entry = true ∧
      (∀ other ∈ after, missing other = false) ∧ changed = before ++ attach entry :: after := by
  induction list generalizing changed with
  | nil => exact nomatch hchanged
  | cons first list ih =>
    rw [attachLast] at hchanged
    cases hrest : attachLast missing attach list with
    | some other =>
      rw [hrest] at hchanged
      obtain rfl := some.inj hchanged
      obtain ⟨before, entry, after, rfl, hentry, hafter, rfl⟩ := ih hrest
      exact ⟨first :: before, entry, after, rfl, hentry, hafter, rfl⟩
    | none =>
      rw [hrest] at hchanged
      dsimp only at hchanged
      split_ifs at hchanged with hfirst
      obtain rfl := some.inj hchanged
      exact ⟨[], first, list, rfl, hfirst, attachLast_eq_none_iff.mp hrest, rfl⟩

theorem mem_attachLast {list changed : IfStatementList}
    (hchanged : attachLast missing attach list = some changed) (hentry : entry ∈ changed) :
    ∃ original ∈ list, entry = original ∨ entry = attach original := by
  obtain ⟨before, original, after, rfl, -, -, rfl⟩ := exists_of_attachLast hchanged
  rw [mem_append, mem_cons] at hentry
  obtain hentry | rfl | hentry := hentry
  · exact ⟨entry, mem_append_left _ hentry, .inl rfl⟩
  · exact ⟨original, mem_append_right _ mem_cons_self, .inr rfl⟩
  · exact ⟨entry, mem_append_right _ (mem_cons_of_mem _ hentry), .inl rfl⟩

end

variable (next : ℕ)

/-! ### The table -/

/-- The entries of the conditionals of a block, `rest` being the lines that follow it. The `ELSE` of
a conditional goes to its body if it finds a conditional without `ELSE` there. -/
def ifTable (position : List Text → ℕ) :
    ScriptBlock → List Text → IfStatementList
  | .done, _ => []
  | .line _ block, rest => ifTable position block rest
  | .guarded _ body block, rest =>
    let after := blockTexts block ++ rest
    ⟨position (blockTexts body ++ ascii "ENDIF" :: after), none, some (position after)⟩ ::
      (ifTable position body (ascii "ENDIF" :: after) ++ ifTable position block rest)
  | .choice _ body alternative block, rest =>
    let after := blockTexts block ++ rest
    let other := blockTexts alternative ++ ascii "ENDIF" :: after
    let start := position (blockTexts body ++ ascii "ELSE" :: other)
    let inner := ifTable position body (ascii "ELSE" :: other)
    let outer := ifTable position alternative (ascii "ENDIF" :: after) ++
      ifTable position block rest
    match attachElse (position other) inner with
    | some changed => ⟨start, none, some (position after)⟩ :: (changed ++ outer)
    | none => ⟨start, some (position other), some (position after)⟩ :: (inner ++ outer)

section

variable {position : List Text → ℕ}

theorem isSome_endifPosition_of_mem_ifTable {block : ScriptBlock} {rest : List Text}
    (hentry : entry ∈ ifTable position block rest) :
    entry.endifPosition.isNone = false := by
  induction block generalizing rest entry with
  | done => exact nomatch hentry
  | line line block ih => exact ih hentry
  | guarded condition body block ihBody ihBlock =>
    obtain rfl | hentry := mem_cons.mp hentry
    · rfl
    · exact (mem_append.mp hentry).elim ihBody ihBlock
  | choice condition body alternative block ihBody ihAlternative ihBlock =>
    rw [ifTable] at hentry
    split at hentry
    · rename_i changed hchanged
      obtain rfl | hentry := mem_cons.mp hentry
      · rfl
      obtain hentry | hentry := mem_append.mp hentry
      · obtain ⟨original, hmem, rfl | rfl⟩ := mem_attachLast hchanged hentry
        · exact ihBody hmem
        · exact (ihBody hmem :)
      · exact (mem_append.mp hentry).elim ihAlternative ihBlock
    · obtain rfl | hentry := mem_cons.mp hentry
      · rfl
      obtain hentry | hentry := mem_append.mp hentry
      · exact ihBody hentry
      · exact (mem_append.mp hentry).elim ihAlternative ihBlock

/-- Every conditional of a block has an `ELSE` in the table just when it has one in the script. -/
theorem forall_isSome_ifTable_iff (block : ScriptBlock) (rest : List Text) :
    (∀ entry ∈ ifTable position block rest, entry.elsePosition.isNone = false) ↔ block.Total := by
  induction block generalizing rest with
  | done => exact iff_of_true (nofun) trivial
  | line line block ih => exact ih rest
  | guarded condition body block _ _ =>
    refine iff_of_false (fun h ↦ ?_) id
    exact Bool.noConfusion (h _ mem_cons_self)
  | choice condition body alternative block ihBody ihAlternative ihBlock =>
    rw [CodeBlock.Total, ← ihBody, ← ihAlternative, ← ihBlock, ifTable]
    split
    · rename_i changed hchanged
      refine iff_of_false (fun h ↦ Bool.noConfusion (h _ mem_cons_self)) fun h ↦ ?_
      exact some_ne_none _ (hchanged.symm.trans (attachLast_eq_none_iff.mpr h.1))
    · rename_i hnone
      rw [forall_mem_cons, forall_mem_append, forall_mem_append]
      exact and_iff_right rfl

theorem attachElse_ifTable_of_total {body : ScriptBlock} (htotal : body.Total)
    (rest : List Text) (next : ℕ) : attachElse next (ifTable position body rest) = none :=
  attachLast_eq_none_iff.mpr ((forall_isSome_ifTable_iff body rest).mpr htotal)

theorem exists_attachElse_ifTable {body : ScriptBlock} (htotal : ¬body.Total)
    (rest : List Text) (next : ℕ) :
    ∃ changed, attachElse next (ifTable position body rest) = some changed := by
  refine ne_none_iff_exists'.mp fun hnone ↦ htotal ?_
  exact (forall_isSome_ifTable_iff body rest).mp (attachLast_eq_none_iff.mp hnone)

end

/-! ### Places of a block in a script -/

section

variable {lines rest : List Text} {condition : Condition}
  {body alternative block : ScriptBlock}

/-- The lines of a conditional without alternative, from its body on. -/
theorem suffix_of_guarded (hsuffix : blockTexts (.guarded condition body block) ++ rest <:+ lines) :
    condition.text :: (blockTexts body ++ ascii "ENDIF" :: (blockTexts block ++ rest)) <:+ lines ∧
      blockTexts body ++ ascii "ENDIF" :: (blockTexts block ++ rest) <:+ lines ∧
      ascii "ENDIF" :: (blockTexts block ++ rest) <:+ lines ∧
      blockTexts block ++ rest <:+ lines := by
  rw [blockTexts_guarded_append] at hsuffix
  have hbody := (suffix_cons _ _).trans hsuffix
  have hendif := (suffix_append _ _).trans hbody
  exact ⟨hsuffix, hbody, hendif, (suffix_cons _ _).trans hendif⟩

/-- The lines of a conditional with an alternative, from its body on. -/
theorem suffix_of_choice
    (hsuffix : blockTexts (.choice condition body alternative block) ++ rest <:+ lines) :
    condition.text :: (blockTexts body ++ ascii "ELSE" ::
        (blockTexts alternative ++ ascii "ENDIF" :: (blockTexts block ++ rest))) <:+ lines ∧
      blockTexts body ++ ascii "ELSE" ::
        (blockTexts alternative ++ ascii "ENDIF" :: (blockTexts block ++ rest)) <:+ lines ∧
      ascii "ELSE" ::
        (blockTexts alternative ++ ascii "ENDIF" :: (blockTexts block ++ rest)) <:+ lines ∧
      blockTexts alternative ++ ascii "ENDIF" :: (blockTexts block ++ rest) <:+ lines ∧
      ascii "ENDIF" :: (blockTexts block ++ rest) <:+ lines ∧
      blockTexts block ++ rest <:+ lines := by
  rw [blockTexts_choice_append] at hsuffix
  have hbody := (suffix_cons _ _).trans hsuffix
  have helse := (suffix_append _ _).trans hbody
  have halternative := (suffix_cons _ _).trans helse
  have hendif := (suffix_append _ _).trans halternative
  exact ⟨hsuffix, hbody, helse, halternative, hendif, (suffix_cons _ _).trans hendif⟩

end

/-- The positions of an entry at which the engine looks for it lie in the script up to `last`. -/
structure IfStatementEntry.Within (last : ℕ) (entry : IfStatementEntry) : Prop where
  ifPosition : entry.ifPosition ≤ last
  elsePosition : ∀ position, entry.elsePosition = some position → position ≤ last

theorem IfStatementEntry.Within.mono {first last : ℕ} (hle : first ≤ last)
    (hentry : entry.Within first) : entry.Within last :=
  ⟨hentry.ifPosition.trans hle, fun position hposition ↦
    (hentry.elsePosition position hposition).trans hle⟩

/-- The table of a conditional with an alternative: its own entry, those of the body, and the
others. The own entry has its `ELSE` just when the body is total. -/
theorem ifTable_choice {position : List Text → ℕ} (condition : Condition)
    (body alternative block : ScriptBlock) (rest : List Text) {after other : List Text}
    (hafter : blockTexts block ++ rest = after)
    (hother : blockTexts alternative ++ ascii "ENDIF" :: after = other)
    (hstart : position (blockTexts body ++ ascii "ELSE" :: other) ≤ position other)
    (hbody : ∀ entry ∈ ifTable position body (ascii "ELSE" :: other),
      entry.Within (position other)) :
    ∃ own inner, ifTable position (.choice condition body alternative block) rest =
        own :: (inner ++ (ifTable position alternative (ascii "ENDIF" :: after) ++
          ifTable position block rest)) ∧
      own.ifPosition = position (blockTexts body ++ ascii "ELSE" :: other) ∧
      own.endifPosition = some (position after) ∧
      (∀ entry ∈ own :: inner, entry.Within (position other)) ∧
      (body.Total → own.elsePosition = some (position other) ∧
        inner = ifTable position body (ascii "ELSE" :: other)) ∧
      (¬body.Total → own.elsePosition = none) := by
  rw [ifTable, hafter, hother]
  by_cases htotal : body.Total
  · rw [attachElse_ifTable_of_total htotal]
    refine ⟨_, _, rfl, rfl, rfl, ?_, fun _ ↦ ⟨rfl, rfl⟩, fun hnot ↦ absurd htotal hnot⟩
    rw [forall_mem_cons]
    refine ⟨⟨hstart, fun last hlast ↦ ?_⟩, hbody⟩
    exact (some.inj hlast).symm.le
  · obtain ⟨changed, hchanged⟩ := exists_attachElse_ifTable htotal (ascii "ELSE" :: other)
      (position other)
    rw [hchanged]
    refine ⟨_, changed, rfl, rfl, rfl, ?_, fun h ↦ absurd h htotal, fun _ ↦ rfl⟩
    rw [forall_mem_cons]
    refine ⟨⟨hstart, nofun⟩, ?_⟩
    intro entry hentry
    obtain ⟨original, hmem, rfl | rfl⟩ := mem_attachLast hchanged hentry
    · exact hbody _ hmem
    · exact ⟨(hbody _ hmem).ifPosition, fun last hlast ↦ (some.inj hlast).symm.le⟩

/-- The entries of a block look for positions up to its end. -/
theorem within_of_mem_ifTable {lines : List Text} {block : ScriptBlock}
    {rest : List Text} (hsuffix : blockTexts block ++ rest <:+ lines)
    (hentry : entry ∈ ifTable (linePosition lines) block rest) :
    entry.Within (linePosition lines rest) := by
  induction block generalizing rest entry with
  | done => exact nomatch hentry
  | line line block ih => exact ih ((suffix_cons _ _).trans hsuffix) hentry
  | guarded condition body block ihBody ihBlock =>
    obtain ⟨-, hbody, hendif, hblock⟩ := suffix_of_guarded hsuffix
    have hend := linePosition_le (suffix_append (blockTexts block) rest) hblock
    have hclose := (linePosition_lt hendif).le.trans hend
    obtain rfl | hentry := mem_cons.mp hentry
    · exact ⟨(linePosition_le (suffix_append _ _) hbody).trans hclose,
        nofun⟩
    obtain hentry | hentry := mem_append.mp hentry
    · exact (ihBody hbody hentry).mono hclose
    · exact ihBlock hblock hentry
  | choice condition body alternative block ihBody ihAlternative ihBlock =>
    obtain ⟨-, hbody, helse, halternative, hendif, hblock⟩ := suffix_of_choice hsuffix
    have hend := linePosition_le (suffix_append (blockTexts block) rest) hblock
    have hclose := (linePosition_lt hendif).le.trans hend
    have hother := (linePosition_le (suffix_append _ _) halternative).trans hclose
    have hmiddle := (linePosition_lt helse).le
    have hstart := (linePosition_le (suffix_append _ _) hbody).trans hmiddle
    obtain ⟨own, inner, htable, -, -, hwithin, -⟩ :=
      ifTable_choice condition body alternative block rest rfl rfl hstart
        fun _ hmem ↦ (ihBody hbody hmem).mono hmiddle
    rw [htable, ← cons_append] at hentry
    obtain hentry | hentry := mem_append.mp hentry
    · exact (hwithin entry hentry).mono hother
    obtain hentry | hentry := mem_append.mp hentry
    · exact (ihAlternative halternative hentry).mono hclose
    · exact ihBlock hblock hentry

/-! ### The pass over the file -/

/-- One line of the pass. -/
theorem parseIfStatements_line {lines rest : List Text} {line : Text}
    (hsuffix : line :: rest <:+ lines) (hline : IsLine line) (fuel : ℕ)
    (list : IfStatementList) :
    parseIfStatements (scriptFile lines) (fuel + 1) (linePosition lines (line :: rest)) list =
      (parseIfLine (keywordOf line) (linePosition lines rest) list).bind
        (parseIfStatements (scriptFile lines) fuel (linePosition lines rest)) := by
  have hnext : linePosition lines (line :: rest) +
      (lineAt (scriptFile lines) (linePosition lines (line :: rest))).length + 1 =
        linePosition lines rest := by
    rw [lineAt_linePosition hsuffix hline, length_append, length_replicate]
    exact linePosition_cons_add hsuffix
  rw [parseIfStatements, if_pos (linePosition_lt_length hsuffix)]
  rw [hnext, lineKeyword_linePosition hsuffix hline]

theorem parseIfLine_if (list : IfStatementList) :
    parseIfLine (ascii "IF") next list = some (list ++ [⟨next, none, none⟩]) :=
  rfl

theorem parseIfLine_else (list : IfStatementList) :
    parseIfLine (ascii "ELSE") next list = attachElse next list :=
  rfl

theorem parseIfLine_endif (list : IfStatementList) :
    parseIfLine (ascii "ENDIF") next list = attachEndif next list :=
  rfl

theorem parseIfLine_of_not_mem {keyword : Text} (hkeyword : keyword ∉ structureWords) (next : ℕ)
    (list : IfStatementList) : parseIfLine keyword next list = some list := by
  rw [structureWords, mem_cons, mem_cons, mem_singleton, not_or, not_or] at hkeyword
  rw [parseIfLine, if_neg hkeyword.1, if_neg hkeyword.2.1, if_neg hkeyword.2.2]

/-- The `ENDIF` of a conditional reaches its `IF`, for every entry after it is closed. -/
theorem attachEndif_append {own : IfStatementEntry} (hown : own.endifPosition = none) (next : ℕ)
    (old : IfStatementList) {inner : IfStatementList}
    (hinner : ∀ entry ∈ inner, entry.endifPosition.isNone = false) :
    attachEndif next (old ++ own :: inner) =
      some (old ++ { own with endifPosition := some next } :: inner) :=
  attachLast_append (attachLast_cons_of_forall (by rw [hown]; rfl) hinner) old

/-- The `ELSE` of a conditional reaches its `IF` unless it stays in the body. -/
theorem attachElse_append {own : IfStatementEntry} (hown : own.elsePosition = none) (next : ℕ)
    (old inner : IfStatementList) :
    attachElse next (old ++ own :: inner) = some (old ++
      match attachElse next inner with
      | some changed => own :: changed
      | none => { own with elsePosition := some next } :: inner) := by
  refine attachLast_append ?_ old
  cases hinner : attachElse next inner with
  | some changed => rw [attachLast, show attachLast _ _ inner = some changed from hinner]
  | none => exact attachLast_cons_of_forall (by rw [hown]; rfl) (attachLast_eq_none_iff.mp hinner)

/-- The pass over a block adds its table, whatever comes before and after the block. -/
theorem parseIfStatements_block {lines : List Text} (block : ScriptBlock)
    {rest : List Text} (hsuffix : blockTexts block ++ rest <:+ lines)
    (old : IfStatementList) (fuel : ℕ) :
    parseIfStatements (scriptFile lines) (fuel + (blockTexts block).length)
        (linePosition lines (blockTexts block ++ rest)) old =
      parseIfStatements (scriptFile lines) fuel (linePosition lines rest)
        (old ++ ifTable (linePosition lines) block rest) := by
  induction block generalizing rest old fuel with
  | done =>
    rw [ifTable, append_nil]
    rfl
  | line line block ih =>
    exact (parseIfStatements_line hsuffix line.isLine _ old).trans
      (by rw [parseIfLine_of_not_mem line.keyword]
          exact ih ((suffix_cons _ _).trans hsuffix) old fuel)
  | guarded condition body block ihBody ihBlock =>
    obtain ⟨hif, hbody, hendif, hblock⟩ := suffix_of_guarded hsuffix
    have hlength : fuel + (blockTexts (.guarded condition body block)).length =
        fuel + (blockTexts block).length + 1 + (blockTexts body).length + 1 := by
      simp only [blockTexts, CodeBlock.flatten, length_cons, length_append]
      omega
    rw [blockTexts_guarded_append, hlength, parseIfStatements_line hif condition.isPlain.isLine,
      condition.keywordOf_text, parseIfLine_if, bind_some, ihBody hbody,
      parseIfStatements_line hendif (by decide), show keywordOf (ascii "ENDIF") = ascii "ENDIF"
        from rfl, parseIfLine_endif, append_assoc, singleton_append,
      attachEndif_append rfl _ _ fun _ ↦ isSome_endifPosition_of_mem_ifTable, bind_some,
      ihBlock hblock, ifTable, append_assoc, cons_append]
  | choice condition body alternative block ihBody ihAlternative ihBlock =>
    obtain ⟨hif, hbody, helse, halternative, hendif, hblock⟩ := suffix_of_choice hsuffix
    have hlength : fuel + (blockTexts (.choice condition body alternative block)).length =
        fuel + (blockTexts block).length + 1 + (blockTexts alternative).length + 1 +
          (blockTexts body).length + 1 := by
      simp only [blockTexts, CodeBlock.flatten, length_cons, length_append]
      omega
    rw [blockTexts_choice_append, hlength, parseIfStatements_line hif condition.isPlain.isLine,
      condition.keywordOf_text, parseIfLine_if, bind_some, ihBody hbody,
      parseIfStatements_line helse (by decide), show keywordOf (ascii "ELSE") = ascii "ELSE"
        from rfl, parseIfLine_else, append_assoc, singleton_append,
      attachElse_append rfl, bind_some, ihAlternative halternative,
      parseIfStatements_line hendif (by decide), show keywordOf (ascii "ENDIF") = ascii "ENDIF"
        from rfl, parseIfLine_endif, ifTable]
    have hclosed : ∀ inner : IfStatementList,
        (∀ entry ∈ inner, entry.endifPosition.isNone = false) →
        ∀ entry ∈ inner ++ ifTable (linePosition lines) alternative
          (ascii "ENDIF" :: (blockTexts block ++ rest)),
        entry.endifPosition.isNone = false := fun inner hinner entry hentry ↦
      (mem_append.mp hentry).elim (hinner entry) isSome_endifPosition_of_mem_ifTable
    split
    · rename_i changed hchanged
      have hinner : ∀ entry ∈ changed, entry.endifPosition.isNone = false := by
        intro entry hentry
        obtain ⟨original, hmem, rfl | rfl⟩ := mem_attachLast hchanged hentry
        · exact isSome_endifPosition_of_mem_ifTable hmem
        · exact (isSome_endifPosition_of_mem_ifTable hmem :)
      rw [append_assoc, cons_append, attachEndif_append rfl _ _ (hclosed _ hinner),
        bind_some, ihBlock hblock]
      simp only [hchanged, append_assoc, cons_append]
    · rename_i hnone
      rw [append_assoc, cons_append, attachEndif_append rfl _ _
        (hclosed _ fun _ ↦ isSome_endifPosition_of_mem_ifTable), bind_some,
        ihBlock hblock]
      simp only [hnone, append_assoc, cons_append]

/-- The table that the engine finds in a well-nested script. -/
theorem parseFileForIFStatements_blockTexts (block : ScriptBlock) :
    parseFileForIFStatements (scriptFile (blockTexts block)) =
      some (ifTable (linePosition (blockTexts block)) block []) := by
  have hfuel : (scriptFile (blockTexts block)).length =
      (scriptFile (blockTexts block)).length - (blockTexts block).length +
        (blockTexts block).length :=
    (Nat.sub_add_cancel (length_le_length_scriptFile _)).symm
  have hstart : linePosition (blockTexts block) (blockTexts block ++ []) = 0 := by
    rw [append_nil, linePosition_self]
  have hpass := parseIfStatements_block block
    (by rw [append_nil] : blockTexts block ++ [] <:+ blockTexts block) []
    ((scriptFile (blockTexts block)).length - (blockTexts block).length)
  rw [hstart, ← hfuel, nil_append] at hpass
  rw [parseFileForIFStatements, hpass]
  cases (scriptFile (blockTexts block)).length - (blockTexts block).length with
  | zero => rfl
  | succ fuel =>
    rw [parseIfStatements, if_neg (not_lt.mpr (length_le_linePosition_nil _))]

end XBlast.Script
