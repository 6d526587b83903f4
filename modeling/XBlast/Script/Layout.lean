import XBlast.Script.Engine

/-!
# The lines of a trimmed script

A trimmed script is a list of lines joined by line feeds and closed by a zero (`scriptFile`). The
lines that follow a place in the script determine its position in the file (`linePosition`), so
that jumps can be spoken of as jumps to the remaining lines. The closing zero belongs to the last
line as the engine reads it: the last line is one byte longer, and the position behind it lies one
byte behind the end of the file.
-/

set_option autoImplicit false
set_option relaxedAutoImplicit false

namespace XBlast.Script

open Foundation List

/-- The file of a script with given lines. -/
def scriptFile : List Text → Text
  | [] => []
  | [line] => line ++ [0]
  | line :: next :: lines => line ++ 0x0A :: scriptFile (next :: lines)

/-- The number of zeros that belong to a line before the given ones. -/
def closingZeros (rest : List Text) : ℕ := if rest = [] then 1 else 0

theorem closingZeros_le_one (rest : List Text) : closingZeros rest ≤ 1 := by
  rw [closingZeros]
  split
  · exact le_refl 1
  · exact Nat.zero_le 1

/-- The position of the lines `rest` at the end of a script. -/
def linePosition (lines rest : List Text) : ℕ :=
  (scriptFile lines).length - (scriptFile rest).length +
    if rest = [] ∧ lines ≠ [] then 1 else 0

variable (line : Text)

/-- The first letters of a line up to a parenthesis, as the pass over the conditionals compares
them. -/
def keywordOf : Text := (line.takeWhile (· ≠ 0x28)).take 6

/-- A text that fits into one line of a file. -/
def IsLine : Prop := ∀ letter ∈ line, letter ≠ 0 ∧ letter ≠ 0x0A

instance (line : Text) : Decidable (IsLine line) :=
  inferInstanceAs (Decidable (∀ letter ∈ line, _))

theorem IsPlain.isLine {text : Text} (htext : IsPlain text) : IsLine text :=
  fun letter hletter ↦ ⟨(htext letter hletter).1, (htext letter hletter).2.1⟩

theorem scriptFile_cons (rest : List Text) :
    scriptFile (line :: rest) = line ++ (if rest = [] then 0 else 0x0A) :: scriptFile rest := by
  cases rest with
  | nil | cons => rfl

theorem length_scriptFile_cons (rest : List Text) :
    (scriptFile (line :: rest)).length = line.length + 1 + (scriptFile rest).length := by
  rw [scriptFile_cons, length_append, length_cons]
  omega

theorem scriptFile_suffix {rest lines : List Text} (hsuffix : rest <:+ lines) :
    scriptFile rest <:+ scriptFile lines := by
  induction lines with
  | nil => rw [suffix_nil.mp hsuffix]
  | cons line lines ih =>
    obtain rfl | hsuffix := suffix_cons_iff.mp hsuffix
    · exact suffix_refl _
    · rw [scriptFile_cons]
      exact (ih hsuffix).trans ((suffix_cons _ _).trans (suffix_append _ _))

variable (lines : List Text)

/-- Every line of a script takes at least one byte of its file. -/
theorem length_le_length_scriptFile : lines.length ≤ (scriptFile lines).length := by
  induction lines with
  | nil => exact le_refl 0
  | cons line lines ih =>
    rw [length_scriptFile_cons, length_cons]
    omega

theorem linePosition_self : linePosition lines lines = 0 := by
  rw [linePosition, Nat.sub_self, if_neg fun h ↦ h.2 h.1]

theorem linePosition_cons (line : Text) (rest : List Text) :
    linePosition lines (line :: rest) =
      (scriptFile lines).length - (scriptFile (line :: rest)).length := by
  rw [linePosition, if_neg fun h ↦ cons_ne_nil line rest h.1, add_zero]

section

variable {lines rest : List Text} {line : Text} (hsuffix : line :: rest <:+ lines)

include hsuffix

theorem drop_linePosition :
    (scriptFile lines).drop (linePosition lines (line :: rest)) = scriptFile (line :: rest) := by
  rw [linePosition_cons]
  exact (suffix_iff_eq_drop.mp (scriptFile_suffix hsuffix)).symm

theorem linePosition_lt_length :
    linePosition lines (line :: rest) < (scriptFile lines).length := by
  have hlength := (scriptFile_suffix hsuffix).length_le
  rw [length_scriptFile_cons] at hlength
  rw [linePosition_cons, length_scriptFile_cons]
  omega

/-- The position of a line and the one behind it. -/
theorem linePosition_cons_add :
    linePosition lines (line :: rest) + (line.length + closingZeros rest) + 1 =
      linePosition lines rest := by
  have hlength := (scriptFile_suffix hsuffix).length_le
  have hlines : lines ≠ [] := by
    rintro rfl
    exact absurd (suffix_nil.mp hsuffix) (cons_ne_nil line rest)
  rw [length_scriptFile_cons] at hlength
  rw [linePosition_cons, linePosition, length_scriptFile_cons, closingZeros]
  by_cases hrest : rest = []
  · rw [if_pos hrest, if_pos ⟨hrest, hlines⟩]
    omega
  · rw [if_neg hrest, if_neg fun h ↦ hrest h.1]
    omega

theorem linePosition_lt : linePosition lines (line :: rest) < linePosition lines rest := by
  have := linePosition_cons_add hsuffix
  omega

variable (hline : IsLine line)

include hline

theorem lineAt_linePosition :
    lineAt (scriptFile lines) (linePosition lines (line :: rest)) =
      line ++ List.replicate (closingZeros rest) 0 := by
  have hletters : ∀ letter ∈ line, decide (letter ≠ 0x0A) = true :=
    fun letter hletter ↦ decide_eq_true (hline letter hletter).2
  rw [lineAt, drop_linePosition hsuffix, scriptFile_cons, takeWhile_append_of_pos hletters,
    closingZeros]
  by_cases hrest : rest = []
  · subst hrest
    rfl
  · rw [if_neg hrest, if_neg hrest]
    rfl

theorem lineKeyword_linePosition :
    lineKeyword (scriptFile lines) (linePosition lines (line :: rest)) = keywordOf line := by
  have hstop : ∀ text after : Text, ∀ mark : UInt8, (mark = 0 ∨ mark = 0x0A) → IsLine text →
      (text ++ mark :: after).takeWhile
          (fun letter ↦ letter ≠ 0x28 && letter ≠ 0x0A && letter ≠ 0) =
        text.takeWhile (· ≠ 0x28) := by
    intro text after mark hmark htext
    induction text with
    | nil =>
      obtain rfl | rfl := hmark
      · rfl
      · rfl
    | cons letter text ih =>
      obtain ⟨hzero, hfeed⟩ := htext letter mem_cons_self
      have hrest := ih fun other hother ↦ htext other (mem_cons_of_mem _ hother)
      rw [cons_append, takeWhile_cons, takeWhile_cons, hrest, decide_eq_true hzero,
        decide_eq_true hfeed, Bool.and_true, Bool.and_true]
  rw [lineKeyword, keywordOf, drop_linePosition hsuffix, scriptFile_cons, hstop _ _ _ _ hline]
  split
  · exact .inl rfl
  · exact .inr rfl

end

theorem linePosition_le {lines middle rest : List Text} (hrest : rest <:+ middle)
    (hmiddle : middle <:+ lines) : linePosition lines middle ≤ linePosition lines rest := by
  induction middle with
  | nil => rw [suffix_nil.mp hrest]
  | cons line middle ih =>
    obtain rfl | hrest := suffix_cons_iff.mp hrest
    · exact le_refl _
    · exact (linePosition_lt hmiddle).le.trans
        (ih hrest ((suffix_cons line middle).trans hmiddle))

/-- Different places of a script have different positions. -/
theorem linePosition_inj {lines first second : List Text} (hfirst : first <:+ lines)
    (hsecond : second <:+ lines) (heq : linePosition lines first = linePosition lines second) :
    first = second := by
  have hproper : ∀ {before after : List Text}, before <:+ lines → after <:+ before →
      linePosition lines before = linePosition lines after → before = after := by
    intro before after hbefore hafter hposition
    cases before with
    | nil => exact (suffix_nil.mp hafter).symm
    | cons line before =>
      obtain rfl | hafter := suffix_cons_iff.mp hafter
      · rfl
      · have hlt := linePosition_lt hbefore
        have hle := linePosition_le hafter ((suffix_cons line before).trans hbefore)
        omega
  obtain hle | hle := suffix_or_suffix_of_suffix hfirst hsecond
  · exact (hproper hsecond hle heq.symm).symm
  · exact hproper hfirst hle heq

/-- Behind the last line the main loop ends. -/
theorem length_le_linePosition_nil : (scriptFile lines).length ≤ linePosition lines [] := by
  rw [linePosition, scriptFile, length_nil, Nat.sub_zero]
  exact Nat.le_add_right _ _

end XBlast.Script
