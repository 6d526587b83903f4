import XBlast.Script.Layout

/-!
# Trimming a script

`trimScript` reads a script file line by line, drops blank lines and comments, removes the blanks
outside of quoted texts, and joins what is left with line feeds and a closing zero. It is compared
with a normal form (`normalForm`) that says what is meant. The two agree unless a `#` stands inside
a quoted text, where the line is cut off, or a blank line ends in a carriage return, which is kept
as an empty line (`trimScript_eq_normalForm_iff`).
-/

set_option autoImplicit false
set_option relaxedAutoImplicit false

namespace XBlast.Script

open Foundation List Option

/-! ### The function -/

def isBlank (letter : UInt8) : Bool := letter = 0x20 || letter = 0x09

/-- The letters that are copied to a segment, `insideTextString` being the state before the first of
them. A comment ends the copy, also inside a quoted text. -/
def copyLine : Bool → Text → Text
  | _, [] => []
  | insideTextString, letter :: line =>
    if letter = 0x23 then []
    else
      let inside := if letter = 0x22 then !insideTextString else insideTextString
      if isBlank letter = false ∨ inside = true then
        (if letter = 0x09 ∧ inside = true then 0x20 else letter) :: copyLine inside line
      else copyLine inside line

variable (line : Text)

/-- The segment for a line, the line feed being left out, unless the line is blank or a comment. -/
def lineSegment : Option Text :=
  let start := line.dropWhile isBlank
  if start.head? = some 0x23 ∨ start = [] then none
  else
    let crDetected := line.getLast? = some 0x0D
    some (copyLine false (if crDetected then start.dropLast else start))

/-- The segments of the rest of a file. -/
def fileSegments : ℕ → Text → List Text
  | 0, _ => []
  | fuel + 1, file =>
    if file = [] then []
    else
      let line := file.takeWhile (· ≠ 0x0A)
      let segments := fileSegments fuel (file.drop (line.length + 1))
      match lineSegment line with
      | none => segments
      | some segment => segment :: segments

/-- The line buffers: each segment with a line feed behind it, the last one with a zero. -/
def lineBuffers : List Text → List Text
  | [] => []
  | [segment] => [segment ++ [0]]
  | segment :: next :: segments => (segment ++ [0x0A]) :: lineBuffers (next :: segments)

/-- The part of a line buffer before its first line feed or zero. -/
def lineText (lineBuf : Text) : Text :=
  lineBuf.takeWhile fun letter ↦ letter ≠ 0x0A && letter ≠ 0

/-- The new file and its size. There is none if no line is left, for then the last segment is taken
from a null pointer, or if a line does not fit its buffer of 100 bytes with the mark behind it. -/
def trimScript (file : Text) : Option (Text × ℕ) :=
  let segments := fileSegments file.length file
  if segments = [] ∨ ∃ segment ∈ segments, 100 ≤ segment.length then none
  else
    let buffers := lineBuffers segments
    some ((buffers.map fun lineBuf ↦ lineBuf.take ((lineText lineBuf).length + 1)).flatten,
      (buffers.map fun lineBuf ↦ (lineText lineBuf).length + 1).sum)

/-! ### The normal form -/

/-- A line up to the first `#` outside of quoted texts. -/
def withoutComment : Bool → Text → Text
  | _, [] => []
  | inside, letter :: line =>
    if letter = 0x23 ∧ inside = false then []
    else letter :: withoutComment (if letter = 0x22 then !inside else inside) line

/-- A line without the blanks outside of quoted texts. A tabulator inside is a space. -/
def withoutBlanks : Bool → Text → Text
  | _, [] => []
  | inside, letter :: line =>
    let rest := withoutBlanks (if letter = 0x22 then !inside else inside) line
    if isBlank letter = true then if inside then 0x20 :: rest else rest
    else letter :: rest

def normalLine : Text := withoutBlanks false (withoutComment false line)

/-- A line that is ended by a line feed, with or without a carriage return before it. -/
structure RawLine where
  content : Text
  carriageReturn : Bool

def RawLine.text (line : RawLine) : Text :=
  line.content ++ if line.carriageReturn then [0x0D] else []

variable (lines : List RawLine)

variable (last : Text)

/-- A file of lines, with a text behind the last line feed that may be empty. -/
def rawFile : Text :=
  (lines.map fun line ↦ line.text ++ [0x0A]).flatten ++ last

/-- The lines of a file, the last one among them. -/
def rawLines : List RawLine := lines ++ [⟨last, false⟩]

/-- The script that is meant: the normal form of each line, without empty lines. -/
def normalForm : Text :=
  scriptFile (((rawLines lines last).map fun line ↦ normalLine line.content).filter (· ≠ []))

/-! ### A line and its normal form -/

variable (inside : Bool) {letter : UInt8}

theorem ne_of_isBlank (hblank : isBlank letter = true) :
    letter ≠ 0x23 ∧ letter ≠ 0x22 := by
  constructor
  · rintro rfl
    exact absurd hblank (by decide)
  · rintro rfl
    exact absurd hblank (by decide)

theorem copyLine_eq (line : Text) :
    copyLine inside line = withoutBlanks inside (line.takeWhile (· ≠ 0x23)) := by
  induction line generalizing inside with
  | nil => rfl
  | cons letter line ih =>
    by_cases hmark : letter = 0x23
    · subst hmark
      rfl
    · rw [takeWhile_cons_of_pos (by exact decide_eq_true hmark), copyLine, if_neg hmark,
        withoutBlanks]
      dsimp only
      rw [ih]
      by_cases hblank : isBlank letter = true
      · have hletter : (if letter = 0x09 then 0x20 else letter) = 0x20 := by
          obtain rfl | rfl : letter = 0x20 ∨ letter = 0x09 := by
            simpa only [isBlank, Bool.or_eq_true, decide_eq_true_eq] using hblank
          · rfl
          · rfl
        rw [if_pos hblank, if_neg (ne_of_isBlank hblank).2]
        cases inside with
        | false => rw [if_neg (by rw [hblank]; decide), if_neg Bool.false_ne_true]
        | true =>
          simp only [or_true, if_true, and_true, hletter]
      · have htab : letter ≠ 0x09 := by
          rintro rfl
          exact hblank (by decide)
        rw [if_neg hblank, if_pos (.inl (Bool.not_eq_true _ ▸ hblank)), if_neg fun h ↦ htab h.1]

/-- The text before a comment is the text before the first `#`, or it goes on with a quoted one. -/
theorem withoutComment_cases (line : Text) :
    withoutComment inside line = line.takeWhile (· ≠ 0x23) ∨
      ∃ more, withoutComment inside line = line.takeWhile (· ≠ 0x23) ++ 0x23 :: more := by
  induction line generalizing inside with
  | nil => exact .inl rfl
  | cons letter line ih =>
    by_cases hmark : letter = 0x23
    · subst hmark
      cases inside with
      | false => exact .inl rfl
      | true => exact .inr ⟨_, rfl⟩
    · rw [withoutComment, if_neg fun h ↦ hmark h.1,
        takeWhile_cons_of_pos (by exact decide_eq_true hmark)]
      obtain heq | ⟨more, heq⟩ := ih (if letter = 0x22 then !inside else inside)
      · exact .inl (congrArg _ heq)
      · exact .inr ⟨more, congrArg _ heq⟩

/-- What stands before a `#` is shorter than the text with it. -/
theorem length_withoutBlanks_lt (text more : Text) :
    (withoutBlanks inside text).length < (withoutBlanks inside (text ++ 0x23 :: more)).length := by
  induction text generalizing inside with
  | nil => exact Nat.succ_pos _
  | cons letter text ih =>
    have hlater := ih (if letter = 0x22 then !inside else inside)
    rw [cons_append, withoutBlanks, withoutBlanks]
    generalize (if letter = 0x22 then !inside else inside) = next at hlater ⊢
    split_ifs
    · exact Nat.succ_lt_succ hlater
    · exact hlater
    · exact Nat.succ_lt_succ hlater

/-- A line is copied as it is meant unless it has a `#` in a quoted text. -/
theorem copyLine_eq_normalLine_iff :
    copyLine false line = normalLine line ↔ 0x23 ∉ withoutComment false line := by
  have htake : (0x23 : UInt8) ∉ line.takeWhile (· ≠ 0x23) := by
    intro hmem
    have hne := mem_takeWhile_imp hmem
    exact absurd hne (by decide)
  rw [copyLine_eq, normalLine]
  obtain heq | ⟨more, heq⟩ := withoutComment_cases false line
  · rw [heq]
    exact iff_of_true rfl htake
  · rw [heq]
    refine iff_of_false (fun hsame ↦ ?_) (not_not_intro (mem_append_right _ mem_cons_self))
    exact absurd (congrArg List.length hsame) (length_withoutBlanks_lt false _ more).ne

theorem length_copyLine_le : (copyLine false line).length ≤ (normalLine line).length := by
  rw [copyLine_eq, normalLine]
  obtain heq | ⟨more, heq⟩ := withoutComment_cases false line
  · rw [heq]
  · rw [heq]
    exact (length_withoutBlanks_lt false _ more).le

theorem copyLine_cons_of_isBlank (hblank : isBlank letter = true) (line : Text) :
    copyLine false (letter :: line) = copyLine false line := by
  obtain ⟨hmark, hquote⟩ := ne_of_isBlank hblank
  rw [copyLine, if_neg hmark]
  rw [if_neg hquote, if_neg (by rw [hblank]; decide)]

theorem copyLine_dropWhile : copyLine false (line.dropWhile isBlank) = copyLine false line := by
  induction line with
  | nil => rfl
  | cons letter line ih =>
    by_cases hblank : isBlank letter = true
    · rw [dropWhile_cons_of_pos hblank, ih, copyLine_cons_of_isBlank hblank]
    · rw [dropWhile_cons_of_neg hblank]

theorem normalLine_cons_of_isBlank (hblank : isBlank letter = true) (line : Text) :
    normalLine (letter :: line) = normalLine line := by
  obtain ⟨hmark, hquote⟩ := ne_of_isBlank hblank
  rw [normalLine, withoutComment, if_neg fun h ↦ hmark h.1, if_neg hquote, withoutBlanks,
    if_pos hblank, if_neg hquote, if_neg Bool.false_ne_true, normalLine]

/-- The lines that are meant to be dropped are those that begin with a comment or are blank. -/
theorem normalLine_eq_nil_iff : normalLine line = [] ↔
    (line.dropWhile isBlank).head? = some 0x23 ∨ line.dropWhile isBlank = [] := by
  induction line with
  | nil => exact iff_of_true rfl (.inr rfl)
  | cons letter line ih =>
    by_cases hblank : isBlank letter = true
    · rw [dropWhile_cons_of_pos hblank, normalLine_cons_of_isBlank hblank, ih]
    · rw [dropWhile_cons_of_neg hblank, head?_cons, some_inj, or_iff_left (cons_ne_nil _ _)]
      by_cases hmark : letter = 0x23
      · subst hmark
        exact iff_of_true rfl rfl
      · rw [normalLine, withoutComment, if_neg fun h ↦ hmark h.1, withoutBlanks, if_neg hblank]
        exact iff_of_false (cons_ne_nil _ _) hmark

theorem isLine_withoutBlanks {text : Text} (htext : IsLine text) (inside : Bool) :
    IsLine (withoutBlanks inside text) := by
  induction text generalizing inside with
  | nil => exact forall_mem_nil _
  | cons letter text ih =>
    obtain ⟨hletter, htext⟩ := forall_mem_cons.mp htext
    have hrest := ih htext (if letter = 0x22 then !inside else inside)
    rw [withoutBlanks]
    generalize (if letter = 0x22 then !inside else inside) = next at hrest ⊢
    split_ifs
    · exact forall_mem_cons.mpr ⟨by decide, hrest⟩
    · exact hrest
    · exact forall_mem_cons.mpr ⟨hletter, hrest⟩

theorem withoutComment_subset (line : Text) : withoutComment inside line ⊆ line := by
  induction line generalizing inside with
  | nil => exact fun _ h ↦ h
  | cons letter line ih =>
    rw [withoutComment]
    split
    · exact nil_subset _
    · exact cons_subset_cons letter (ih _)

theorem isLine_normalLine {line : Text} (hline : IsLine line) : IsLine (normalLine line) :=
  isLine_withoutBlanks (fun letter hletter ↦ hline letter (withoutComment_subset _ _ hletter)) false

theorem isLine_copyLine {line : Text} (hline : IsLine line) : IsLine (copyLine false line) := by
  rw [copyLine_eq]
  exact isLine_withoutBlanks
    (fun letter hletter ↦ hline letter ((takeWhile_sublist _).subset hletter)) false

/-! ### The segment of a line -/

variable {line : RawLine}

/-- A line is copied unless it is meant to be dropped, where a blank line that ends in a carriage
return leaves an empty segment behind. -/
theorem lineSegment_text
    (hlast : line.carriageReturn = false → line.content.getLast? ≠ some 0x0D) :
    lineSegment line.text =
      if normalLine line.content ≠ [] then some (copyLine false line.content)
      else if line.carriageReturn = true ∧ line.content.dropWhile isBlank = [] then some []
      else none := by
  obtain ⟨content, carriageReturn⟩ := line
  simp only [ne_eq, normalLine_eq_nil_iff]
  cases carriageReturn with
  | false =>
    rw [RawLine.text, if_neg Bool.false_ne_true, append_nil, lineSegment]
    dsimp only
    rw [if_neg (hlast rfl), copyLine_dropWhile, ite_not]
    simp only [Bool.false_eq_true, false_and, if_false]
  | true =>
    have hreturn : (content ++ [0x0D]).getLast? = some 0x0D := getLast?_concat
    rw [RawLine.text, if_pos rfl, lineSegment]
    dsimp only
    rw [if_pos hreturn, dropWhile_append]
    by_cases hstart : content.dropWhile isBlank = []
    · rw [hstart]
      rfl
    · obtain ⟨letter, letters, hletters⟩ := exists_cons_of_ne_nil hstart
      have hfull : ¬(letter :: letters).isEmpty = true := Bool.false_ne_true
      rw [← copyLine_dropWhile content, hletters, if_neg hfull, dropLast_concat, ite_not]
      simp only [cons_append, head?_cons, cons_ne_nil, or_false, and_false, if_false]

/-- The content of a line as it is meant, unless it is dropped. -/
def normalSegment (line : RawLine) : Option Text :=
  if normalLine line.content = [] then none else some (normalLine line.content)

/-- A text without zeros, line feeds and carriage returns. -/
def IsContent (text : Text) : Prop := ∀ letter ∈ text, letter ≠ 0 ∧ letter ≠ 0x0A ∧ letter ≠ 0x0D

instance (text : Text) : Decidable (IsContent text) :=
  inferInstanceAs (Decidable (∀ letter ∈ text, _))

theorem IsContent.isLine {text : Text} (htext : IsContent text) : IsLine text :=
  fun letter hletter ↦ ⟨(htext letter hletter).1, (htext letter hletter).2.1⟩

section

variable (hcontent : IsContent line.content)

include hcontent

theorem lineSegment_of_isContent : lineSegment line.text =
    if normalLine line.content ≠ [] then some (copyLine false line.content)
    else if line.carriageReturn = true ∧ line.content.dropWhile isBlank = [] then some []
    else none :=
  lineSegment_text fun _ hlast ↦ (hcontent _ (mem_of_getLast? hlast)).2.2 rfl

/-- A line that is not blank or does not end in a carriage return is kept when it is meant to. -/
theorem lineSegment_of_not_blank
    (hblank : line.carriageReturn = true → line.content.dropWhile isBlank ≠ []) :
    lineSegment line.text =
      if normalLine line.content = [] then none else some (copyLine false line.content) := by
  have hkept : ¬(line.carriageReturn = true ∧ line.content.dropWhile isBlank = []) :=
    fun h ↦ hblank h.1 h.2
  rw [lineSegment_of_isContent hcontent, ite_not, if_neg hkept]

/-- The segment of such a line is the one that is meant, unless it has a `#` in a quoted text. -/
theorem lineSegment_eq_normalSegment_iff
    (hblank : line.carriageReturn = true → line.content.dropWhile isBlank ≠ []) :
    lineSegment line.text = normalSegment line ↔ 0x23 ∉ withoutComment false line.content := by
  rw [lineSegment_of_not_blank hcontent hblank, normalSegment, ← copyLine_eq_normalLine_iff]
  split_ifs with hdropped
  · have hlength := length_copyLine_le line.content
    rw [hdropped, length_nil, Nat.le_zero] at hlength
    rw [hdropped, length_eq_zero_iff.mp hlength]
    exact iff_of_true rfl rfl
  · exact some_inj

end

/-! ### The segments of a file -/

/-- The segments of a file are those of its lines. -/
theorem fileSegments_eq {fuel : ℕ} {file : Text} (hfuel : file.length ≤ fuel) :
    fileSegments fuel file = (file.splitOn 0x0A).filterMap lineSegment := by
  have hkept : ∀ text : Text, 0x0A ∉ text → ∀ letter ∈ text, decide (letter ≠ 0x0A) = true :=
    fun text htext letter hletter ↦ decide_eq_true fun h ↦ htext (h ▸ hletter)
  induction fuel generalizing file with
  | zero =>
    rw [length_eq_zero_iff.mp (Nat.le_zero.mp hfuel)]
    rfl
  | succ fuel ih =>
    by_cases hfeed : 0x0A ∈ file
    · obtain ⟨line, rest, rfl, hline⟩ := eq_append_cons_of_mem hfeed
      have htake : (line ++ 0x0A :: rest).takeWhile (· ≠ 0x0A) = line := by
        rw [takeWhile_append_of_pos (hkept line hline), takeWhile_cons_of_neg (by simp), append_nil]
      have hdrop : (line ++ 0x0A :: rest).drop (line.length + 1) = rest := by
        rw [drop_append, drop_eq_nil_of_le (Nat.le_succ _), nil_append,
          Nat.add_sub_cancel_left, drop_succ_cons, drop_zero]
      rw [length_append, length_cons] at hfuel
      rw [splitOn_append_cons_self_of_not_mem hline, filterMap_cons, fileSegments,
        if_neg (append_ne_nil_of_right_ne_nil _ (cons_ne_nil _ _)), htake]
      dsimp only
      rw [hdrop, ih (by omega)]
      cases lineSegment line with
      | none | some => rfl
    · have hnil : fileSegments fuel [] = [] := ih (Nat.zero_le fuel)
      rw [splitOn_eq_singleton hfeed, fileSegments]
      split
      · rename_i hempty
        rw [hempty]
        rfl
      · rw [takeWhile_eq_self_iff.mpr (hkept file hfeed)]
        dsimp only
        rw [drop_eq_nil_of_le (Nat.le_succ _), hnil, filterMap_cons]
        cases lineSegment file with
        | none | some => rfl

/-- A file of lines without line feeds is split into these lines. -/
theorem splitOn_rawFile {lines : List RawLine} {last : Text}
    (hlines : ∀ line ∈ rawLines lines last, 0x0A ∉ line.text) :
    (rawFile lines last).splitOn 0x0A = (rawLines lines last).map RawLine.text := by
  induction lines with
  | nil =>
    have hlast : (⟨last, false⟩ : RawLine).text = last := append_nil last
    rw [rawLines, nil_append, map_singleton, hlast]
    exact splitOn_eq_singleton (hlast ▸ hlines _ mem_cons_self)
  | cons line lines ih =>
    rw [rawLines, cons_append, forall_mem_cons] at hlines
    have hfile : rawFile (line :: lines) last = line.text ++ 0x0A :: rawFile lines last := by
      simp only [rawFile, map_cons, flatten_cons, append_assoc, cons_append, nil_append]
    rw [hfile, splitOn_append_cons_self_of_not_mem hlines.1, ih hlines.2, rawLines, rawLines,
      cons_append, map_cons]

/-- The mark behind a line ends its text. -/
theorem lineText_append (text : Text) {mark : UInt8} (hmark : mark = 0 ∨ mark = 0x0A)
    (after : Text) : lineText (text ++ mark :: after) = lineText text := by
  have hstop : ¬(mark ≠ 0x0A && mark ≠ 0) = true := by
    obtain rfl | rfl := hmark
    · decide
    · decide
  rw [lineText, lineText, takeWhile_append]
  split
  · rename_i hall
    rw [takeWhile_cons_of_neg (by exact hstop), append_nil]
    exact ((takeWhile_sublist _).eq_of_length hall).symm
  · rfl

theorem lineText_eq_self {text : Text} (htext : IsLine text) : lineText text = text := by
  refine takeWhile_eq_self_iff.mpr fun letter hletter ↦ ?_
  rw [Bool.and_eq_true, decide_eq_true_eq, decide_eq_true_eq]
  exact (htext letter hletter).symm

theorem lineText_sublist (segment : Text) : (lineText segment).Sublist segment :=
  takeWhile_sublist _

/-- What is copied of the line buffers has the size that is counted. -/
theorem length_flatten_lineBuffers (segments : List Text) :
    ((lineBuffers segments).map fun lineBuf ↦
        lineBuf.take ((lineText lineBuf).length + 1)).flatten.length =
      ((lineBuffers segments).map fun lineBuf ↦ (lineText lineBuf).length + 1).sum := by
  have hmarked (segment : Text) {mark : UInt8} (hmark : mark = 0 ∨ mark = 0x0A) :
      (lineText (segment ++ [mark])).length + 1 ≤ (segment ++ [mark]).length := by
    rw [lineText_append segment hmark, length_append, length_singleton]
    exact Nat.succ_le_succ (lineText_sublist segment).length_le
  have hbuffers : ∀ lineBuf ∈ lineBuffers segments,
      (lineText lineBuf).length + 1 ≤ lineBuf.length := by
    induction segments using lineBuffers.induct with
    | case1 => exact forall_mem_nil _
    | case2 segment => exact forall_mem_singleton.mpr (hmarked segment (.inl rfl))
    | case3 segment next segments ih =>
      exact forall_mem_cons.mpr ⟨hmarked segment (.inr rfl), ih⟩
  rw [length_flatten, List.map_map]
  refine congrArg List.sum (map_congr_left fun lineBuf hmem ↦ ?_)
  exact length_take_of_le (hbuffers lineBuf hmem)

/-- The line buffers are copied as a whole. -/
theorem flatten_lineBuffers {segments : List Text} (hsegments : ∀ line ∈ segments, IsLine line) :
    ((lineBuffers segments).map fun lineBuf ↦
      lineBuf.take ((lineText lineBuf).length + 1)).flatten = scriptFile segments := by
  have hwhole (segment : Text) (hsegment : IsLine segment) {mark : UInt8}
      (hmark : mark = 0 ∨ mark = 0x0A) : (segment ++ [mark]).take
        ((lineText (segment ++ [mark])).length + 1) = segment ++ [mark] := by
    rw [lineText_append segment hmark, lineText_eq_self hsegment]
    exact take_of_length_le (by rw [length_append]; rfl)
  induction segments using lineBuffers.induct with
  | case1 => rfl
  | case2 segment =>
    rw [lineBuffers, map_singleton, flatten_singleton, scriptFile,
      hwhole segment (hsegments segment mem_cons_self) (.inl rfl)]
  | case3 segment next segments ih =>
    rw [forall_mem_cons] at hsegments
    rw [lineBuffers, map_cons, flatten_cons, ih hsegments.2, hwhole segment hsegments.1 (.inr rfl),
      scriptFile, append_assoc]
    rfl

/-- A script is determined by its file. -/
theorem scriptFile_inj {lines others : List Text} (hlines : ∀ line ∈ lines, IsLine line)
    (hothers : ∀ line ∈ others, IsLine line) (heq : scriptFile lines = scriptFile others) :
    lines = others := by
  have hmark : ∀ rest : List Text, (if rest = [] then (0 : UInt8) else 0x0A) = 0 ∨
      (if rest = [] then (0 : UInt8) else 0x0A) = 0x0A := by
    intro rest
    split
    · exact .inl rfl
    · exact .inr rfl
  have hne : ∀ (line : Text) (rest : List Text), scriptFile (line :: rest) ≠ [] := by
    intro line rest
    rw [scriptFile_cons]
    exact append_ne_nil_of_right_ne_nil _ (cons_ne_nil _ _)
  induction lines generalizing others with
  | nil =>
    cases others with
    | nil => rfl
    | cons other others => exact absurd heq.symm (hne other others)
  | cons line lines ih =>
    cases others with
    | nil => exact absurd heq (hne line lines)
    | cons other others =>
      rw [forall_mem_cons] at hlines hothers
      rw [scriptFile_cons, scriptFile_cons] at heq
      have hfirst := congrArg lineText heq
      rw [lineText_append _ (hmark lines), lineText_append _ (hmark others),
        lineText_eq_self hlines.1, lineText_eq_self hothers.1] at hfirst
      subst hfirst
      have hrest := (List.cons.inj (append_cancel_left heq)).2
      rw [ih hlines.2 hothers.2 hrest]

/-- Two selections that drop the same items agree if they agree on every item. -/
theorem filterMap_eq_filterMap_iff {α β : Type} {first second : α → Option β} {list : List α}
    (hnone : ∀ item ∈ list, first item = none ↔ second item = none) :
    list.filterMap first = list.filterMap second ↔ ∀ item ∈ list, first item = second item := by
  induction list with
  | nil => exact iff_of_true rfl nofun
  | cons item list ih =>
    rw [forall_mem_cons] at hnone ⊢
    rw [← ih hnone.2]
    cases hfirst : first item with
    | none =>
      have hsecond := hnone.1.mp hfirst
      rw [filterMap_cons_none hfirst, filterMap_cons_none hsecond, hsecond]
      exact (and_iff_right rfl).symm
    | some value =>
      obtain ⟨other, hsecond⟩ := ne_none_iff_exists'.mp
        (hnone.1.not.mp (by rw [hfirst]; exact some_ne_none value))
      rw [filterMap_cons_some hfirst, filterMap_cons_some hsecond, hsecond,
        List.cons.injEq, some_inj]

/-! ### The whole file -/

theorem normalForm_eq : normalForm lines last =
    scriptFile ((rawLines lines last).filterMap normalSegment) := by
  rw [normalForm]
  generalize rawLines lines last = list
  refine congrArg scriptFile ?_
  induction list with
  | nil => rfl
  | cons line list ih =>
    rw [map_cons, filter_cons, ih, filterMap_cons, normalSegment]
    by_cases hempty : normalLine line.content = []
    · rw [if_pos hempty, if_neg (by rw [hempty]; decide)]
    · rw [if_neg hempty, if_pos (decide_eq_true hempty)]

section

variable {lines : List RawLine} {last : Text}
  (hcontents : ∀ line ∈ rawLines lines last, IsContent line.content)

include hcontents

theorem segments_rawFile : fileSegments (rawFile lines last).length (rawFile lines last) =
    (rawLines lines last).filterMap fun line ↦ lineSegment line.text := by
  rw [fileSegments_eq le_rfl, splitOn_rawFile, filterMap_map]
  · rfl
  intro line hline hfeed
  obtain hfeed | hfeed := mem_append.mp hfeed
  · exact (hcontents line hline _ hfeed).2.1 rfl
  · split at hfeed
    · exact absurd hfeed (by decide)
    · exact nomatch hfeed

/-- The segments are lines that are not longer than the normal form. -/
theorem of_lineSegment_eq_some (hline : line ∈ rawLines lines last) {segment : Text}
    (hsegment : lineSegment line.text = some segment) :
    IsLine segment ∧ segment.length ≤ (normalLine line.content).length := by
  have hcontent := hcontents line hline
  rw [lineSegment_of_isContent hcontent] at hsegment
  split_ifs at hsegment
  · rw [← some.inj hsegment]
    exact ⟨isLine_copyLine hcontent.isLine, length_copyLine_le _⟩
  · rw [← some.inj hsegment]
    exact ⟨nofun, Nat.zero_le _⟩

/-- What is trimmed is the script of the segments. -/
theorem trimScript_rawFile
    (hshort : ∀ line ∈ rawLines lines last, (normalLine line.content).length ≤ 99)
    (hinstruction : ∃ line ∈ rawLines lines last, normalLine line.content ≠ [])
    {segments : List Text}
    (hsegments : segments = (rawLines lines last).filterMap fun line ↦ lineSegment line.text) :
    (∀ segment ∈ segments, IsLine segment) ∧
      trimScript (rawFile lines last) =
        some (scriptFile segments, (scriptFile segments).length) := by
  have hfacts : ∀ segment ∈ segments, IsLine segment ∧ segment.length < 100 := by
    intro segment hsegment
    rw [hsegments] at hsegment
    obtain ⟨line, hline, hsome⟩ := mem_filterMap.mp hsegment
    obtain ⟨hisLine, hlength⟩ := of_lineSegment_eq_some hcontents hline hsome
    exact ⟨hisLine, Nat.lt_succ_of_le (hlength.trans (hshort line hline))⟩
  have hne : segments ≠ [] := by
    obtain ⟨line, hline, hnormal⟩ := hinstruction
    have hkept : copyLine false line.content ∈ segments := by
      rw [hsegments]
      refine mem_filterMap.mpr ⟨line, hline, ?_⟩
      rw [lineSegment_of_isContent (hcontents line hline), if_pos hnormal]
    exact ne_nil_of_mem hkept
  have hgood : ¬(segments = [] ∨ ∃ segment ∈ segments, 100 ≤ segment.length) := by
    rintro (hnil | ⟨segment, hsegment, hlong⟩)
    · exact hne hnil
    · exact absurd hlong (not_le.mpr (hfacts segment hsegment).2)
  refine ⟨fun segment hsegment ↦ (hfacts segment hsegment).1, ?_⟩
  rw [trimScript, segments_rawFile hcontents, ← hsegments, if_neg hgood]
  dsimp only
  rw [← length_flatten_lineBuffers, flatten_lineBuffers fun segment hsegment ↦
    (hfacts segment hsegment).1]

/-- A file of lines that are ended by a line feed, with or without a carriage return before it, and
a last line that may be empty. Every line has a normal form of less than 100 letters, and some line
is not empty in normal form. The file is trimmed to its normal form just in case that no blank line
ends in a carriage return and that no `#` stands in a quoted text before the comment. -/
theorem trimScript_eq_normalForm_iff
    (hshort : ∀ line ∈ rawLines lines last, (normalLine line.content).length ≤ 99)
    (hinstruction : ∃ line ∈ rawLines lines last, normalLine line.content ≠ []) :
    trimScript (rawFile lines last) =
        some (normalForm lines last, (normalForm lines last).length) ↔
      (∀ line ∈ lines, line.carriageReturn = true → line.content.dropWhile isBlank ≠ []) ∧
      ∀ line ∈ rawLines lines last, 0x23 ∉ withoutComment false line.content := by
  generalize hsegments : (rawLines lines last).filterMap (fun line ↦ lineSegment line.text) =
    segments
  obtain ⟨hisLine, htrim⟩ := trimScript_rawFile hcontents hshort hinstruction hsegments.symm
  have hnormal : ∀ segment ∈ (rawLines lines last).filterMap normalSegment, IsLine segment := by
    intro segment hsegment
    obtain ⟨line, hline, hsome⟩ := mem_filterMap.mp hsegment
    rw [normalSegment] at hsome
    split_ifs at hsome
    rw [← some.inj hsome]
    exact isLine_normalLine (hcontents line hline).isLine
  have hsame : trimScript (rawFile lines last) =
        some (normalForm lines last, (normalForm lines last).length) ↔
      segments = (rawLines lines last).filterMap normalSegment := by
    rw [htrim, normalForm_eq]
    constructor
    · intro heq
      exact scriptFile_inj hisLine hnormal (congrArg Prod.fst (some.inj heq))
    · intro heq
      rw [heq]
  have hall : (∀ line ∈ lines, line.carriageReturn = true → line.content.dropWhile isBlank ≠ []) ↔
      ∀ line ∈ rawLines lines last,
        line.carriageReturn = true → line.content.dropWhile isBlank ≠ [] := by
    rw [rawLines, forall_mem_append, forall_mem_singleton]
    exact (and_iff_left fun h ↦ absurd h Bool.false_ne_true).symm
  rw [hsame, hall, ← hsegments]
  by_cases hblank : ∀ line ∈ rawLines lines last,
      line.carriageReturn = true → line.content.dropWhile isBlank ≠ []
  · rw [filterMap_eq_filterMap_iff, and_iff_right hblank]
    · refine forall₂_congr fun line hline ↦ ?_
      exact lineSegment_eq_normalSegment_iff (hcontents line hline) (hblank line hline)
    · intro line hline
      rw [lineSegment_of_not_blank (hcontents line hline) (hblank line hline), normalSegment]
      split
      · exact Iff.rfl
      · exact iff_of_false (some_ne_none _) (some_ne_none _)
  · refine iff_of_false (fun heq ↦ hblank fun line hline hcr hempty ↦ ?_) fun h ↦ hblank h.1
    -- the empty segment of the blank line is in one list and not in the other
    have hmem : [] ∈ (rawLines lines last).filterMap fun line ↦ lineSegment line.text := by
      refine mem_filterMap.mpr ⟨line, hline, ?_⟩
      rw [lineSegment_of_isContent (hcontents line hline), if_neg, if_pos ⟨hcr, hempty⟩]
      exact not_not_intro ((normalLine_eq_nil_iff _).mpr (.inr hempty))
    rw [heq] at hmem
    obtain ⟨other, -, hother⟩ := mem_filterMap.mp hmem
    rw [normalSegment] at hother
    split_ifs at hother with hnil
    exact hnil (some.inj hother)

end

/-- The lines ` LED(GREEN) # on`, with a carriage return, and an empty one. -/
def commentedLines (carriageReturn : Bool) : List RawLine :=
  [⟨ascii " LED(GREEN) # on", true⟩, ⟨[], carriageReturn⟩]

theorem trimScript_commentedLines :
    trimScript (rawFile (commentedLines false) (ascii "END")) =
      some (ascii "LED(GREEN)\nEND\x00", 15) :=
  (@trimScript_eq_normalForm_iff (commentedLines false) (ascii "END") (by decide) (by decide)
    (by decide)).mpr (by decide)

/-- The line `LCDW(1,"a # b")`. -/
def quotedMark : List RawLine := [⟨ascii "LCDW(1,\"a # b\")", false⟩]

/-- An empty line stays in the script, and a quoted text is cut off. -/
theorem trimScript_ne_normalForm :
    trimScript (rawFile (commentedLines true) (ascii "END")) ≠
        some (normalForm (commentedLines true) (ascii "END"), 15) ∧
      trimScript (rawFile quotedMark []) ≠ some (normalForm quotedMark [], 16) := by
  decide

end XBlast.Script
