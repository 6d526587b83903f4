import XBlast.Script.Lexer

/-!
# Words and operators

A line of words with operators between them is split into these words and operators
(`splitArguments_alternates`). The line of a condition has its keyword and a comparison of two words
as arguments (`arguments_conditionText`), and a line that consists of such a sequence has just its
members (`arguments_alternates`), unless it begins with one of the words `VAR` and `GOTO`, which are
cut off.
-/

set_option autoImplicit false
set_option relaxedAutoImplicit false

namespace XBlast.Script

open Foundation List

/-- The letters that end an argument or begin a new one. -/
def specialLetters : Text := ascii "(#),+-*/%!><="

/-- A letter that is no part of an operator, a separator or a quoted text. -/
def isWordLetter (letter : UInt8) : Bool :=
  letter ≠ 0 && letter ≠ 0x0A && letter ≠ 0x22 && letter ∉ specialLetters

theorem isWordLetter_iff {letter : UInt8} : isWordLetter letter = true ↔
    letter ≠ 0 ∧ letter ≠ 0x0A ∧ letter ≠ 0x22 ∧ letter ∉ specialLetters := by
  simp only [isWordLetter, Bool.and_eq_true, decide_eq_true_eq, and_assoc]

theorem not_mem_of_isWordLetter {letter : UInt8} (hletter : isWordLetter letter = true)
    {letters : Text} (hspecial : letters ⊆ specialLetters) : letter ∉ letters :=
  fun hmem ↦ (isWordLetter_iff.mp hletter).2.2.2 (hspecial hmem)

theorem ne_of_isWordLetter {letter special : UInt8} (hletter : isWordLetter letter = true)
    (hspecial : special ∈ specialLetters) : letter ≠ special :=
  fun hsame ↦ (isWordLetter_iff.mp hletter).2.2.2 (hsame ▸ hspecial)

/-- A text of one line without quotation marks. -/
def IsPlain (text : Text) : Prop := ∀ letter ∈ text, letter ≠ 0 ∧ letter ≠ 0x0A ∧ letter ≠ 0x22

instance (text : Text) : Decidable (IsPlain text) :=
  inferInstanceAs (Decidable (∀ letter ∈ text, _))

def operatorTexts : List Text :=
  ["==", "!=", ">", "<", ">=", "<=", "=", "+", "-", "*", "/", "%", "<<", ">>"].map ascii

theorem isPlain_operatorTexts : ∀ operator ∈ operatorTexts, IsPlain operator := by decide

theorem operatorTexts_letters : ∀ operator ∈ operatorTexts,
    operator ≠ [] ∧ ∀ letter ∈ operator, letter ∈ ascii "+-*/%=!><" := by decide

/-- An operator is one letter, a letter with an equality sign, or a letter twice. -/
theorem operatorTexts_cases : ∀ operator ∈ operatorTexts,
    (∃ letter ∈ ascii "+-*/%=><", operator = [letter]) ∨
      ∃ first ∈ ascii "=!><", ∃ second ∈ ascii "+-*/%=><", operator = [first, second] ∧
        (second = 0x3D ∨ first ∈ ascii "><" ∧ second = first) := by decide

/-! ### The ends of words and operators -/

section

variable {line : Bytes} {position : ℕ}

/-- The line does not begin with one of the words that are cut off. -/
def StartsFreely (line : Bytes) : Prop :=
  bytesAt line 0 3 ≠ ascii "VAR" ∧ bytesAt line 0 4 ≠ ascii "GOTO"

/-- A position right behind one of the words that are cut off. -/
def CutAt (line : Bytes) (position : ℕ) : Prop :=
  position = 3 ∧ bytesAt line 0 3 = ascii "VAR" ∨ position = 4 ∧ bytesAt line 0 4 = ascii "GOTO"

theorem StartsFreely.not_cutAt (hstart : StartsFreely line) (position : ℕ) :
    ¬CutAt line position := by
  rintro (⟨-, h⟩ | ⟨-, h⟩)
  · exact hstart.1 h
  · exact hstart.2 h

/-- Behind a letter of a word an argument ends where an operator, a separator or the end of the line
comes, and where a word is cut off. -/
theorem endsArgument_iff_of_letter (hposition : 1 ≤ position)
    (hlast : isWordLetter (line (position - 1))) : EndsArgument line position ↔
      (line position = 0 ∨ line position ∈ specialLetters) ∨ CutAt line position := by
  have hspecial : line position ∈ specialLetters ↔ line position ∈ ascii "(#)," ∨
      line position ∈ ascii "+-*/%" ∨ line position = 0x21 ∨ line position = 0x3E ∨
        line position = 0x3C ∨ line position = 0x3D := by
    rw [show specialLetters = ascii "(#)," ++ (ascii "+-*/%" ++ [0x21, 0x3E, 0x3C, 0x3D]) from rfl,
      mem_append, mem_append]
    simp only [mem_cons, not_mem_nil, or_false]
  have hgreater : line (position - 1) ≠ 0x3E := ne_of_isWordLetter hlast (by decide)
  have hlower : line (position - 1) ≠ 0x3C := ne_of_isWordLetter hlast (by decide)
  have hequal : line (position - 1) ≠ 0x3D := ne_of_isWordLetter hlast (by decide)
  have hcomparison : line (position - 1) ∉ ascii "=!><" :=
    not_mem_of_isWordLetter hlast (by decide)
  have hoperator : line (position - 1) ∉ ascii "+-*/%" :=
    not_mem_of_isWordLetter hlast (by decide)
  rw [hspecial]
  simp only [EndsArgument, CutAt, hposition, hgreater, hlower, hequal, hcomparison, hoperator,
    ne_eq, not_false_eq_true, true_and, and_true, false_and, and_false, false_or, or_assoc]

/-- The second letter of an operator belongs to it. -/
theorem not_endsArgument_second (hstart : StartsFreely line)
    (hfirst : line (position - 1) ∈ ascii "=!><")
    (hsecond : line position = 0x3D ∨
      line (position - 1) ∈ ascii "><" ∧ line position = line (position - 1))
    (hbefore : isWordLetter (line (position - 2))) : ¬EndsArgument line position := by
  have hfacts : line position ≠ 0 ∧ line position ∉ ascii "(#)," ∧ line position ∉ ascii "+-*/%" ∧
      line position ≠ 0x21 ∧ (line position = 0x3E → line (position - 1) = 0x3E) ∧
      (line position = 0x3C → line (position - 1) = 0x3C) ∧
      (line position = 0x3D → line (position - 1) ∈ ascii "=!><") ∧
      line (position - 1) ∉ ascii "+-*/%" ∧ (line (position - 1) = 0x3D → line position = 0x3D) ∧
      (line (position - 1) = 0x3E → line position ∈ ascii "=>") ∧
      (line (position - 1) = 0x3C → line position ∈ ascii "=<") := by
    obtain hhere | ⟨hlast, hhere⟩ := hsecond
    · rw [hhere]
      revert hfirst
      generalize line (position - 1) = letter
      revert letter
      decide
    · rw [hhere]
      revert hlast
      generalize line (position - 1) = letter
      revert letter
      decide
  obtain ⟨hzero, hseparator, hoperator, hmark, hgreater, hlower, hequal, hlastOperator, hafterEqual,
    hafterGreater, hafterLower⟩ := hfacts
  rintro (h | h | h | ⟨-, h | ⟨h, hnot⟩ | ⟨h, hnot⟩ | ⟨h, hnot⟩⟩ | ⟨-, ⟨h, -⟩ | ⟨h, -⟩⟩ |
    ⟨-, h | ⟨h, hnot⟩ | ⟨h, hnot⟩ | ⟨h, hnot⟩⟩ | ⟨-, h⟩ | ⟨-, h⟩)
  · exact hzero h
  · exact hseparator h
  · exact hoperator h
  · exact hmark h
  · exact hnot (hgreater h)
  · exact hnot (hlower h)
  · exact hnot (hequal h)
  · exact ne_of_isWordLetter hbefore (by decide) h
  · exact ne_of_isWordLetter hbefore (by decide) h
  · exact hlastOperator h
  · exact hnot (hafterEqual h)
  · exact hnot (hafterGreater h)
  · exact hnot (hafterLower h)
  · exact hstart.1 h
  · exact hstart.2 h

/-- A word begins a new argument after an operator. -/
theorem endsArgument_after_operator (hposition : 1 ≤ position)
    (hhere : isWordLetter (line position)) (hlast : line (position - 1) ∈ ascii "+-*/%=><") :
    EndsArgument line position := by
  have hcases : ∀ letter ∈ ascii "+-*/%=><", letter ∈ ascii "+-*/%" ∨ letter = 0x3D ∨
      letter = 0x3E ∨ letter = 0x3C := by decide
  refine .inr (.inr (.inr (.inr (.inr (.inl ⟨hposition, ?_⟩)))))
  obtain h | h | h | h := hcases _ hlast
  · exact .inl h
  · exact .inr (.inl ⟨h, ne_of_isWordLetter hhere (by decide)⟩)
  · exact .inr (.inr (.inl ⟨h, not_mem_of_isWordLetter hhere (by decide)⟩))
  · exact .inr (.inr (.inr ⟨h, not_mem_of_isWordLetter hhere (by decide)⟩))

end

/-! ### Scans of words and operators -/

section

variable {line : Bytes} (hstart : StartsFreely line) {position : ℕ}

theorem skipSeparators_of_not_mem (hhere : line position ∉ ascii "(,)") (fuel : ℕ) :
    skipSeparators line fuel position = position := by
  cases fuel with
  | zero => rfl
  | succ fuel => rw [skipSeparators, if_neg hhere]

/-- One argument of a line, its end being known. -/
theorem splitArguments_cons {count stop : ℕ} (hhere : line position ≠ 0)
    (hposition : position < 100)
    (hstop : scanArgument line 102 (position + 1) false = (stop, false)) :
    (splitArguments line (count + 1) position false).1 =
      (position, stop) :: (splitArguments line count (skipSeparators line 100 stop) false).1 := by
  rw [splitArguments, if_pos ⟨hhere, hposition⟩]
  simp only [hstop]

theorem splitArguments_end (hend : line position = 0) (count : ℕ) :
    (splitArguments line count position false).1 = [] := by
  cases count with
  | zero => rfl
  | succ count => rw [splitArguments, if_neg fun h ↦ h.1 hend]

/-- The scan passes over the letters of a word. -/
theorem scanArgument_letters (count : ℕ)
    (hfree : ∀ offset < count, ¬CutAt line (position + 1 + offset))
    (hletters : ∀ offset ≤ count, isWordLetter (line (position + offset))) (fuel : ℕ) :
    scanArgument line (count + fuel) (position + 1) false =
      scanArgument line fuel (position + 1 + count) false := by
  induction count generalizing fuel with
  | zero => rw [zero_add, add_zero]
  | succ count ih =>
    have hhere := hletters (count + 1) le_rfl
    have hlast := hletters count (Nat.le_succ _)
    have hnext : position + 1 + count - 1 = position + count := by omega
    rw [add_right_comm, add_assoc count fuel,
      ih (fun offset hoffset ↦ hfree offset (Nat.lt_succ_of_lt hoffset))
        (fun offset hoffset ↦ hletters offset (Nat.le_succ_of_le hoffset)) (fuel + 1),
      scanArgument_of_goes]
    · rfl
    · rw [hnext]
      exact (isWordLetter_iff.mp hlast).2.2.1
    · rw [endsArgument_iff_of_letter (by omega) (by rwa [hnext]), add_assoc, add_comm 1 count]
      obtain ⟨hzero, -, -, hspecial⟩ := isWordLetter_iff.mp hhere
      rintro ((h | h) | h)
      · exact hzero h
      · exact hspecial h
      · exact hfree count (Nat.lt_succ_self count) (by rwa [add_assoc, add_comm 1 count])

/-- A word is an argument up to the place where something else begins. -/
theorem scanArgument_word {count : ℕ}
    (hfree : ∀ offset < count, ¬CutAt line (position + 1 + offset))
    (hletters : ∀ offset < count + 1, isWordLetter (line (position + offset)))
    (hend : line (position + (count + 1)) = 0 ∨ line (position + (count + 1)) ∈ specialLetters)
    (hcount : count < 100) :
    scanArgument line 102 (position + 1) false = (position + (count + 1), false) := by
  obtain ⟨fuel, hfuel⟩ : ∃ fuel, 102 = count + (fuel + 1) := ⟨101 - count, by omega⟩
  have hlast : position + (count + 1) - 1 = position + count := by omega
  have hletter := hletters count (Nat.lt_succ_self count)
  rw [hfuel, scanArgument_letters count hfree (fun offset hoffset ↦ hletters offset (by omega)),
    show position + 1 + count = position + (count + 1) by omega, scanArgument_of_ends]
  · rw [hlast]
    exact (isWordLetter_iff.mp hletter).2.2.1
  · exact (endsArgument_iff_of_letter (by omega) (by rwa [hlast])).mpr (.inl hend)

include hstart

/-- An operator between two words is an argument. -/
theorem scanArgument_operator {operator : Text} (hoperator : operator ∈ operatorTexts)
    (htext : ∀ offset < operator.length, line (position + offset) = listImage operator offset)
    (hposition : 1 ≤ position) (hbefore : isWordLetter (line (position - 1)))
    (hafter : isWordLetter (line (position + operator.length))) :
    scanArgument line 102 (position + 1) false = (position + operator.length, false) := by
  have hquote : ∀ letter ∈ operator, letter ≠ 0x22 :=
    fun letter hletter ↦ (isPlain_operatorTexts operator hoperator letter hletter).2.2
  obtain ⟨letter, hletter, rfl⟩ | ⟨first, hfirst, second, hsecond, rfl, hpair⟩ :=
    operatorTexts_cases operator hoperator
  · rw [length_singleton] at htext hafter ⊢
    have hlast : line (position + 1 - 1) = letter := htext 0 Nat.one_pos
    refine scanArgument_of_ends ?_ (endsArgument_after_operator (by omega) hafter ?_) _
    · rw [hlast]
      exact hquote letter mem_cons_self
    · rw [hlast]
      exact hletter
  · have hfirstAt : line (position + 1 - 1) = first := htext 0 Nat.two_pos
    have hsecondAt : line (position + 1) = second := htext 1 Nat.one_lt_two
    have hgoes : ¬EndsArgument line (position + 1) := by
      refine not_endsArgument_second hstart ?_ ?_ hbefore
      · rw [hfirstAt]
        exact hfirst
      · rw [hfirstAt, hsecondAt]
        exact hpair
    have hlast : line (position + [first, second].length - 1) = second := hsecondAt
    rw [scanArgument_of_goes (by rw [hfirstAt]; exact hquote first mem_cons_self) hgoes]
    refine scanArgument_of_ends ?_ (endsArgument_after_operator (by omega) hafter ?_) _
    · rw [hlast]
      exact hquote second (mem_cons_of_mem _ mem_cons_self)
    · rw [hlast]
      exact hsecond

end

/-! ### Sequences of words and operators -/

def IsWord (word : Text) : Prop := word ≠ [] ∧ ∀ letter ∈ word, isWordLetter letter = true

instance (word : Text) : Decidable (IsWord word) := inferInstanceAs (Decidable (_ ∧ _))

theorem IsWord.ne_zero {word : Text} (hword : IsWord word) : ∀ letter ∈ word, letter ≠ 0 :=
  fun letter hletter ↦ (isWordLetter_iff.mp (hword.2 letter hletter)).1

theorem IsWord.isPlain {word : Text} (hword : IsWord word) : IsPlain word := by
  intro letter hletter
  obtain ⟨hzero, hfeed, hquote, -⟩ := isWordLetter_iff.mp (hword.2 letter hletter)
  exact ⟨hzero, hfeed, hquote⟩

theorem IsPlain.append {text other : Text} (htext : IsPlain text) (hother : IsPlain other) :
    IsPlain (text ++ other) :=
  forall_mem_append.mpr ⟨htext, hother⟩

theorem IsPlain.quotesClosed {text : Text} (htext : IsPlain text) : QuotesClosed text :=
  fun hlast ↦ absurd rfl (htext _ (mem_of_getLast? hlast)).2.2

/-- From a position on the line has a text, and zeros behind it. -/
def HasText (line : Bytes) (position : ℕ) (text : Text) : Prop :=
  ∀ offset, line (position + offset) = listImage text offset

theorem HasText.here {line : Bytes} {position : ℕ} {text : Text}
    (hline : HasText line position text) : line position = listImage text 0 := hline 0

theorem HasText.append {line : Bytes} {position : ℕ} {first rest : Text}
    (hline : HasText line position (first ++ rest)) :
    HasText line (position + first.length) rest := by
  intro offset
  rw [add_assoc, hline, listImage_append_add]

/-- A word that nothing cuts is an argument up to a separator, an operator or the line's end. -/
theorem splitArguments_word {line : Bytes} {word rest : Text} (hword : IsWord word)
    {position : ℕ} (hfree : ∀ offset, ¬CutAt line (position + 1 + offset))
    (hline : HasText line position (word ++ rest))
    (hrest : listImage rest 0 = 0 ∨ listImage rest 0 ∈ specialLetters)
    (hlength : position + word.length < 101) (count : ℕ) :
    (splitArguments line (count + 1) position false).1 = (position, position + word.length) ::
      (splitArguments line count (skipSeparators line 100 (position + word.length)) false).1 := by
  obtain ⟨size, hsize⟩ : ∃ size, word.length = size + 1 :=
    Nat.exists_eq_succ_of_ne_zero (length_pos_iff.mpr hword.1).ne'
  have hletters : ∀ offset < word.length, isWordLetter (line (position + offset)) = true := by
    intro offset hoffset
    rw [hline]
    exact hword.2 _ (listImage_append_mem hoffset)
  have hend := hline.append.here
  have hzero := (isWordLetter_iff.mp (hletters 0 (by omega))).1
  refine splitArguments_cons hzero (by omega) ?_
  rw [hsize] at hletters hend ⊢
  exact scanArgument_word (fun offset _ ↦ hfree offset) hletters (by rw [hend]; exact hrest)
    (by omega)

/-- Words with operators between them. -/
inductive Alternates : List Text → Prop
  | word {word : Text} (hword : IsWord word) : Alternates [word]
  | cons {word operator : Text} {rest : List Text} (hword : IsWord word)
      (hoperator : operator ∈ operatorTexts) (hrest : Alternates rest) :
      Alternates (word :: operator :: rest)

theorem Alternates.isPlain {tokens : List Text} (htokens : Alternates tokens) :
    IsPlain tokens.flatten := by
  induction htokens with
  | word hword =>
    rw [flatten_singleton]
    exact hword.isPlain
  | cons hword hoperator _ ih =>
    exact hword.isPlain.append ((isPlain_operatorTexts _ hoperator).append ih)

/-- The places of texts one after the other. -/
def tokenSpans : ℕ → List Text → List (ℕ × ℕ)
  | _, [] => []
  | position, token :: tokens =>
    (position, position + token.length) :: tokenSpans (position + token.length) tokens

variable {tokens : List Text}

/-- The first letter of a sequence belongs to a word. -/
theorem Alternates.isWordLetter_head (htokens : Alternates tokens) (after : Text) :
    isWordLetter (listImage (tokens.flatten ++ after) 0) = true := by
  have hfirst : ∀ word rest : Text, IsWord word →
      isWordLetter (listImage (word ++ rest) 0) = true := fun word rest hword ↦
    hword.2 _ (listImage_append_mem (length_pos_iff.mpr hword.1))
  cases htokens with
  | word hword =>
    rw [flatten_cons, append_assoc]
    exact hfirst _ _ hword
  | cons hword _ _ =>
    rw [flatten_cons, append_assoc]
    exact hfirst _ _ hword

/-- A sequence of words and operators, followed by a separator or the end of the line, is split into
its members. -/
theorem splitArguments_alternates {line : Bytes} (hstart : StartsFreely line)
    (htokens : Alternates tokens) {position : ℕ} {after : Text}
    (hline : HasText line position (tokens.flatten ++ after))
    (hafter : listImage after 0 = 0 ∨ listImage after 0 ∈ specialLetters)
    (hlength : position + tokens.flatten.length < 101) (count : ℕ) :
    (splitArguments line (tokens.length + count) position false).1 =
      tokenSpans position tokens ++ (splitArguments line count
        (skipSeparators line 100 (position + tokens.flatten.length)) false).1 := by
  have hoperatorLetters : ∀ letter ∈ ascii "+-*/%=!><",
      letter ≠ 0 ∧ letter ∈ specialLetters ∧ letter ∉ ascii "(,)" := by decide
  induction htokens generalizing position with
  | word hword =>
    rw [flatten_cons, flatten_nil, append_nil] at hline hlength ⊢
    rw [length_singleton, add_comm,
      splitArguments_word hword (fun _ ↦ hstart.not_cutAt _) hline hafter hlength]
    rfl
  | @cons word operator rest hword hoperator hrest ih =>
    obtain ⟨hne, hmarks⟩ := operatorTexts_letters operator hoperator
    have hoperatorLength := length_pos_iff.mpr hne
    have hwordLength := length_pos_iff.mpr hword.1
    rw [flatten_cons, flatten_cons] at hline hlength ⊢
    rw [append_assoc, append_assoc] at hline
    rw [length_append, length_append] at hlength
    have hmiddle := hline.append
    have hlater := hmiddle.append
    have hmark : listImage (operator ++ (rest.flatten ++ after)) 0 ∈ ascii "+-*/%=!><" :=
      hmarks _ (listImage_append_mem hoperatorLength)
    have hhere : line (position + word.length) ∈ ascii "+-*/%=!><" := by
      rw [hmiddle.here]
      exact hmark
    have hnext : isWordLetter (line (position + word.length + operator.length)) = true := by
      rw [hlater.here]
      exact hrest.isWordLetter_head after
    have hlastLetter : isWordLetter (line (position + word.length - 1)) = true := by
      rw [Nat.add_sub_assoc hwordLength, hline]
      exact hword.2 _ (listImage_append_mem (by omega))
    have hoperatorStep : scanArgument line 102 (position + word.length + 1) false =
        (position + word.length + operator.length, false) := by
      refine scanArgument_operator hstart hoperator (fun offset hoffset ↦ ?_) (by omega)
        hlastLetter hnext
      rw [hmiddle, listImage, listImage, getD_append _ _ _ _ hoffset]
    have hcount : (word :: operator :: rest).length + count = rest.length + count + 1 + 1 := by
      rw [length_cons, length_cons]
      omega
    rw [hcount, splitArguments_word hword (fun _ ↦ hstart.not_cutAt _) hline
        (.inr (hoperatorLetters _ hmark).2.1) (by omega),
      skipSeparators_of_not_mem (hoperatorLetters _ hhere).2.2,
      splitArguments_cons (hoperatorLetters _ hhere).1 (by omega) hoperatorStep,
      skipSeparators_of_not_mem (not_mem_of_isWordLetter hnext (by decide)), ih hlater (by omega),
      length_append, length_append]
    simp only [tokenSpans, cons_append, add_assoc]

theorem Alternates.ne_zero (htokens : Alternates tokens) :
    ∀ token ∈ tokens, ∀ letter ∈ token, letter ≠ 0 := by
  induction htokens with
  | word hfirst =>
    intro token htoken
    rw [mem_singleton.mp htoken]
    exact hfirst.ne_zero
  | cons hfirst hoperator _ ih =>
    rw [forall_mem_cons, forall_mem_cons]
    refine ⟨hfirst.ne_zero, fun letter hletter ↦ ?_, ih⟩
    exact (by decide : ∀ letter ∈ ascii "+-*/%=!><", letter ≠ 0) letter
      ((operatorTexts_letters _ hoperator).2 letter hletter)

theorem map_tokenSpans {line : Bytes} (htokens : ∀ token ∈ tokens, ∀ letter ∈ token, letter ≠ 0)
    {position : ℕ} {after : Text} (hline : HasText line position (tokens.flatten ++ after)) :
    (tokenSpans position tokens).map (fun span ↦
      cString (bytesAt line span.1 (span.2 - span.1))) = tokens := by
  induction tokens generalizing position with
  | nil => rfl
  | cons token tokens ih =>
    rw [forall_mem_cons] at htokens
    rw [flatten_cons, append_assoc] at hline
    have hbytes : bytesAt line position token.length = token := by
      refine bytesAt_eq fun index hindex ↦ ?_
      rw [hline, listImage, listImage, getD_append _ _ _ _ hindex]
    rw [tokenSpans, map_cons, ih htokens.2 hline.append, Nat.add_sub_cancel_left, hbytes,
      cString_eq_self htokens.1]

/-- A line of at most five words and operators has these arguments. -/
theorem arguments_alternates (htokens : Alternates tokens) (hcount : tokens.length ≤ 5)
    (hlength : tokens.flatten.length < 100) (hstart : StartsFreely (listImage tokens.flatten)) :
    arguments (listImage tokens.flatten) = tokens := by
  have hline : HasText (listImage tokens.flatten) 0 (tokens.flatten ++ []) := by
    intro offset
    rw [zero_add, append_nil]
  have hend : listImage tokens.flatten tokens.flatten.length = 0 :=
    getD_eq_default _ _ le_rfl
  obtain ⟨count, hfive⟩ : ∃ count, 5 = tokens.length + count := ⟨5 - tokens.length, by omega⟩
  rw [arguments, hfive, splitArguments_alternates hstart htokens hline (.inl rfl) (by omega),
    zero_add, skipSeparators_of_not_mem (by rw [hend]; decide), splitArguments_end hend, append_nil,
    map_tokenSpans htokens.ne_zero hline]

/-! ### The line of a jump -/

/-- The word `GOTO` is cut off. -/
theorem arguments_goto {name : Text} (hname : IsWord name) (hlength : name.length < 96) :
    arguments (listImage (ascii "GOTO" ++ name)) = [ascii "GOTO", name] := by
  generalize hlineEq : listImage (ascii "GOTO" ++ name) = line
  have hfour : bytesAt line 0 4 = ascii "GOTO" := by
    rw [← hlineEq]
    exact bytesAt_listImage [] (ascii "GOTO") name
  have hletters : ∀ offset < 4, isWordLetter (line offset) = true := by
    have hkeyword : ∀ letter ∈ ascii "GOTO", isWordLetter letter = true := by decide
    intro offset hoffset
    rw [← hlineEq]
    exact hkeyword _ (listImage_append_mem hoffset)
  have hname' : HasText line 4 (name ++ []) := by
    rw [← hlineEq, append_nil]
    exact listImage_append_add (ascii "GOTO") name
  have hletter : isWordLetter (line 4) = true := by
    rw [hname'.here]
    exact hname.2 _ (listImage_append_mem (length_pos_iff.mpr hname.1))
  have hend : line (4 + name.length) = 0 := hname'.append.here
  have hfirst : scanArgument line 102 (0 + 1) false = (4, false) := by
    have hfree : ∀ offset < 3, ¬CutAt line (0 + 1 + offset) := by
      rintro offset hoffset (⟨-, hvar⟩ | ⟨hposition, -⟩)
      · rw [show bytesAt line 0 3 = (bytesAt line 0 4).take 3 from rfl, hfour] at hvar
        exact absurd hvar (by decide)
      · omega
    rw [show 102 = 3 + (98 + 1) from rfl, scanArgument_letters 3 hfree fun offset hoffset ↦ by
      rw [zero_add]; exact hletters offset (by omega)]
    exact scanArgument_of_ends (isWordLetter_iff.mp (hletters 3 (by decide))).2.2.1
      (.inr (.inr (.inr (.inr (.inr (.inr (.inr ⟨rfl, hfour⟩))))))) 98
  have hfree : ∀ offset, ¬CutAt line (4 + 1 + offset) := by
    rintro offset (⟨hposition, -⟩ | ⟨hposition, -⟩)
    · omega
    · omega
  rw [arguments, splitArguments_cons (isWordLetter_iff.mp (hletters 0 (by decide))).1 (by decide)
      hfirst, skipSeparators_of_not_mem (not_mem_of_isWordLetter hletter (by decide)),
    splitArguments_word hname hfree hname' (.inl rfl) (by omega),
    skipSeparators_of_not_mem (by rw [hend]; decide), splitArguments_end hend]
  have htokens : ∀ token ∈ [ascii "GOTO", name], ∀ letter ∈ token, letter ≠ 0 :=
    forall_mem_cons.mpr ⟨by decide, forall_mem_singleton.mpr hname.ne_zero⟩
  have hline : HasText line 0 ([ascii "GOTO", name].flatten ++ []) := by
    intro offset
    rw [zero_add, ← hlineEq, flatten_cons, flatten_singleton, append_nil]
  exact map_tokenSpans htokens hline

/-! ### The line of a condition -/

/-- The comparisons of `ifFunction`. -/
inductive Comparison
  | equal
  | notEqual
  | greater
  | lower
  | greaterEqual
  | lowerEqual
  deriving DecidableEq, Repr

def Comparison.text : Comparison → Text
  | .equal => ascii "=="
  | .notEqual => ascii "!="
  | .greater => ascii ">"
  | .lower => ascii "<"
  | .greaterEqual => ascii ">="
  | .lowerEqual => ascii "<="

/-- The line `IF(first op second)`. -/
def conditionText (first : Text) (comparison : Comparison) (second : Text) : Text :=
  ascii "IF(" ++ (first ++ (comparison.text ++ (second ++ ascii ")")))

theorem Comparison.text_mem (comparison : Comparison) : comparison.text ∈ operatorTexts := by
  cases comparison <;> decide

/-- The arguments of a condition. -/
theorem arguments_conditionText {first second : Text} (comparison : Comparison)
    (hfirst : IsWord first) (hsecond : IsWord second)
    (hlength : (conditionText first comparison second).length < 100) :
    arguments (listImage (conditionText first comparison second)) =
      [ascii "IF", first, comparison.text, second] := by
  have htokens : Alternates [first, comparison.text, second] :=
    .cons hfirst comparison.text_mem (.word hsecond)
  have htext : conditionText first comparison second =
      ascii "IF(" ++ ([first, comparison.text, second].flatten ++ ascii ")") := by
    simp only [conditionText, flatten_cons, flatten_nil, append_nil, append_assoc]
  generalize hlineEq : listImage (conditionText first comparison second) = line
  have hline : HasText line 3 ([first, comparison.text, second].flatten ++ ascii ")") := by
    intro offset
    rw [← hlineEq, htext]
    exact listImage_append_add (ascii "IF(") _ offset
  generalize hsize : [first, comparison.text, second].flatten.length = size
  have hbound : 3 + (size + 1) < 100 := by
    rw [htext, length_append, length_append, hsize] at hlength
    exact hlength
  have hkeyword : bytesAt line 0 3 = ascii "IF(" := by
    rw [← hlineEq, htext]
    exact bytesAt_listImage [] (ascii "IF(") _
  have hstart : StartsFreely line := by
    refine ⟨by rw [hkeyword]; decide, fun h ↦ ?_⟩
    have hgoto : bytesAt line 0 3 = ascii "GOT" := by
      rw [show bytesAt line 0 3 = (bytesAt line 0 4).take 3 from rfl, h]
      rfl
    exact absurd (hkeyword.symm.trans hgoto) (by decide)
  have hkeywordLine : HasText line 0 (ascii "IF" ++ (ascii "(" ++
      ([first, comparison.text, second].flatten ++ ascii ")"))) := by
    intro offset
    rw [zero_add, ← hlineEq, htext]
    rfl
  have hopen : line 2 = 0x28 := hkeywordLine 2
  have hwords : line 3 ∉ ascii "(,)" := by
    rw [hline.here]
    exact not_mem_of_isWordLetter (htokens.isWordLetter_head _) (by decide)
  have hbehind := hline.append
  rw [hsize] at hbehind
  have hclose : line (3 + size) = 0x29 := hbehind.here
  have hterminator : line (3 + size + 1) = 0 := hbehind 1
  have hskip : skipSeparators line 100 2 = 3 :=
    (if_pos (by rw [hopen]; decide)).trans (skipSeparators_of_not_mem hwords 99)
  have hskipEnd : skipSeparators line 100 (3 + size) = 3 + size + 1 :=
    (if_pos (by rw [hclose]; decide)).trans
      (skipSeparators_of_not_mem (by rw [hterminator]; decide) 99)
  have hrest := splitArguments_alternates hstart htokens hline
    (.inr (by decide : listImage (ascii ")") 0 ∈ specialLetters)) (by rw [hsize]; omega) 1
  rw [hsize, hskipEnd, splitArguments_end hterminator, append_nil] at hrest
  rw [arguments, splitArguments_word (by decide) (fun _ ↦ hstart.not_cutAt _) hkeywordLine
      (.inr (by decide : listImage (ascii "(") 0 ∈ specialLetters)) (by decide),
    show 0 + (ascii "IF").length = 2 from rfl, hskip,
    show 4 = [first, comparison.text, second].length + 1 from rfl, hrest, map_cons,
    map_tokenSpans htokens.ne_zero hline]
  refine congrArg (· :: _) ?_
  rw [show bytesAt line 0 (2 - 0) = (bytesAt line 0 3).take 2 from rfl, hkeyword]
  rfl

end XBlast.Script
