import Mathlib.Data.List.GetD
import XBlast.Foundation.ByteImage
import XBlast.Foundation.CString

/-!
# Splitting a script line into arguments

A line is copied to `compareBuf`, a buffer of 100 bytes that keeps what earlier lines left behind
the terminating zero, and split into at most five arguments. An argument ends before a
parenthesis, a comma or an operator and after an operator; a text between double quotes is one
argument. The words `VAR` and `GOTO` at the start of a line are arguments of their own, since
trimming removes the blank after them.

A line that does not end in an opening quote is split without a look at what lies behind its end
(`arguments_loadLine`), and its arguments and the separators between them make up the line. The
terminating zero right behind an opening quote is passed over, unless five arguments come before
that quote (`tokenises_iff`). `StartsArgument` says where arguments begin, by the letters around a
position and the quotes before it.
-/

set_option autoImplicit false
set_option relaxedAutoImplicit false

namespace XBlast.Script

open Foundation List

abbrev Text := List UInt8

instance lawfulBEqText : LawfulBEq Text := inferInstance

/-- `compareBuf` after `strncpy` of a line and the terminator behind it. -/
def loadLine (line : Text) (compareBuf : Packed 100) : Packed 100 :=
  compareBuf.write 0
    (cString line ++ List.replicate (line.length + 1 - (cString line).length) 0)

/-! ### The end of an argument -/

variable (compareBuf : Bytes) (position : ℕ)

/-- The cases, outside a quoted text, in which an argument does not go on at a position. -/
def EndsArgument : Prop :=
  let here := compareBuf position
  let last := compareBuf (position - 1)
  here = 0 ∨ here ∈ ascii "(#)," ∨ here ∈ ascii "+-*/%" ∨
    -- an operator right after the argument
    (1 ≤ position ∧ (here = 0x21 ∨ (here = 0x3E ∧ last ≠ 0x3E) ∨ (here = 0x3C ∧ last ≠ 0x3C) ∨
      (here = 0x3D ∧ last ∉ ascii "=!><"))) ∨
    (2 ≤ position ∧ ((compareBuf (position - 2) = 0x3E ∧ last = 0x3E) ∨
      (compareBuf (position - 2) = 0x3C ∧ last = 0x3C))) ∨
    -- an argument right after an operator
    (1 ≤ position ∧ (last ∈ ascii "+-*/%" ∨ (last = 0x3D ∧ here ≠ 0x3D) ∨
      (last = 0x3E ∧ here ∉ ascii "=>") ∨ (last = 0x3C ∧ here ∉ ascii "=<"))) ∨
    (position = 3 ∧ bytesAt compareBuf 0 3 = ascii "VAR") ∨
    (position = 4 ∧ bytesAt compareBuf 0 4 = ascii "GOTO")

instance (compareBuf : Bytes) (position : ℕ) : Decidable (EndsArgument compareBuf position) :=
  inferInstanceAs (Decidable (_ ∨ _))

/-- Whether the argument goes on at a position, and the new value of `stringDeclaration`. -/
def checkEndOfArgument (stringDeclaration : Bool) : Bool × Bool :=
  if 1 ≤ position ∧ compareBuf (position - 1) = 0x22 ∧ stringDeclaration = false then (true, true)
  else if 1 ≤ position ∧ (compareBuf (position - 1) = 0x22 ∨ compareBuf position = 0) ∧
      stringDeclaration = true then (false, false)
  else if 1 ≤ position ∧ stringDeclaration = true then (true, true)
  else (!decide (EndsArgument compareBuf position), false)

/-- The position right after the argument that goes on at `position`, and the value of
`stringDeclaration` there. -/
def scanArgument (compareBuf : Bytes) : ℕ → ℕ → Bool → ℕ × Bool
  | 0, position, stringDeclaration => (position, stringDeclaration)
  | fuel + 1, position, stringDeclaration =>
    match checkEndOfArgument compareBuf position stringDeclaration with
    | (true, next) => scanArgument compareBuf fuel (position + 1) next
    | (false, next) => (position, next)

/-- The first position that holds no parenthesis and no comma. -/
def skipSeparators (compareBuf : Bytes) : ℕ → ℕ → ℕ
  | 0, position => position
  | fuel + 1, position =>
    if compareBuf position ∈ ascii "(,)" then skipSeparators compareBuf fuel (position + 1)
    else position

/-- The arguments from a position on, each with its start and the position after it, and the value
of `stringDeclaration` after the last one. -/
def splitArguments (compareBuf : Bytes) : ℕ → ℕ → Bool → List (ℕ × ℕ) × Bool
  | 0, _, stringDeclaration => ([], stringDeclaration)
  | count + 1, tempPtr, stringDeclaration =>
    if compareBuf tempPtr ≠ 0 ∧ tempPtr < 100 then
      let scan := scanArgument compareBuf 102 (tempPtr + 1) stringDeclaration
      let rest := splitArguments compareBuf count (skipSeparators compareBuf 100 scan.1) scan.2
      ((tempPtr, scan.1) :: rest.1, rest.2)
    else ([], stringDeclaration)

/-- The arguments of the line in `compareBuf`. -/
def arguments : List Text :=
  (splitArguments compareBuf 5 0 false).1.map fun span ↦
    cString (bytesAt compareBuf span.1 (span.2 - span.1))

/-- At most `count` spans from a position on, one after the other and each with a letter, before the
end of the line. Only parentheses and commas lie between them, and they reach the end of the line
if there are fewer. -/
inductive Spans (compareBuf : Bytes) (size : ℕ) : ℕ → ℕ → List (ℕ × ℕ) → Prop
  | full (position : ℕ) : Spans compareBuf size 0 position []
  | covered (count : ℕ) : Spans compareBuf size count size []
  | span {count start stop next : ℕ} {spans : List (ℕ × ℕ)} (hstart : start < stop)
      (hstop : stop ≤ size) (hnext : stop ≤ next)
      (hbetween : ∀ index, stop ≤ index → index < next → compareBuf index ∈ ascii "(,)")
      (hspans : Spans compareBuf size count next spans) :
      Spans compareBuf size (count + 1) start ((start, stop) :: spans)

/-! ### Lines whose quotes are closed -/

section

variable {compareBuf : Bytes} {position : ℕ} (hquote : compareBuf (position - 1) ≠ 0x22)

include hquote

theorem checkEndOfArgument_of_ne : checkEndOfArgument compareBuf position false =
    (!decide (EndsArgument compareBuf position), false) := by
  rw [checkEndOfArgument, if_neg fun h ↦ hquote h.2.1, if_neg fun h ↦ Bool.false_ne_true h.2.2,
    if_neg fun h ↦ Bool.false_ne_true h.2]

theorem scanArgument_of_ends (hends : EndsArgument compareBuf position) (fuel : ℕ) :
    scanArgument compareBuf (fuel + 1) position false = (position, false) := by
  rw [scanArgument, checkEndOfArgument_of_ne hquote, decide_eq_true hends]
  rfl

theorem scanArgument_of_goes (hgoes : ¬EndsArgument compareBuf position) (fuel : ℕ) :
    scanArgument compareBuf (fuel + 1) position false =
      scanArgument compareBuf fuel (position + 1) false := by
  rw [scanArgument, checkEndOfArgument_of_ne hquote, decide_eq_false hgoes]
  rfl

end

/-- The number of double quotes before a position. -/
def quotesBefore : ℕ :=
  (bytesAt compareBuf 0 position).count 0x22

theorem quotesBefore_succ :
    quotesBefore compareBuf (position + 1) =
      quotesBefore compareBuf position + if compareBuf position = 0x22 then 1 else 0 := by
  simp only [quotesBefore, bytesAt, range_succ, map_append, map_cons, map_nil,
    count_append, count_singleton, zero_add, beq_iff_eq]

theorem quotesBefore_eq {position : ℕ} (hpositive : 1 ≤ position) :
    quotesBefore compareBuf position =
      quotesBefore compareBuf (position - 1) +
        if compareBuf (position - 1) = 0x22 then 1 else 0 := by
  obtain ⟨before, rfl⟩ : ∃ before, position = before + 1 := ⟨position - 1, by omega⟩
  exact quotesBefore_succ compareBuf before

section

variable {compareBuf other : Bytes} {size : ℕ}

/-- Two buffers with the same line, closed by a zero. -/
structure LineIn (compareBuf other : Bytes) (size : ℕ) : Prop where
  agree : ∀ index ≤ size, compareBuf index = other index
  letters : ∀ index < size, compareBuf index ≠ 0
  closed : compareBuf size = 0

/-- The last letter is a double quote that opens a text. -/
def OpensAtEnd (compareBuf : Bytes) (size : ℕ) : Prop :=
  compareBuf (size - 1) = 0x22 ∧ quotesBefore compareBuf size % 2 = 1

/-- An argument that goes up to a position ends there: a quoted text is closed by the letter before
it, or outside a text the argument does not go on. -/
def CutsBefore (compareBuf : Bytes) (position : ℕ) : Prop :=
  quotesBefore compareBuf position % 2 = 0 ∧
    (compareBuf (position - 1) = 0x22 ∨ EndsArgument compareBuf position)

/-- An argument begins at a position: at the start of the line, or with a letter that is no
separator where an argument ends or behind a separator. -/
def StartsArgument (compareBuf : Bytes) (position : ℕ) : Prop :=
  position = 0 ∨ compareBuf position ∉ ascii "(,)" ∧ (CutsBefore compareBuf position ∨
    2 ≤ position ∧ compareBuf (position - 1) ∈ ascii "(,)" ∧
      quotesBefore compareBuf position % 2 = 0)

instance (compareBuf : Bytes) (position : ℕ) : Decidable (CutsBefore compareBuf position) :=
  inferInstanceAs (Decidable (_ ∧ _))

instance (compareBuf : Bytes) (position : ℕ) : Decidable (StartsArgument compareBuf position) :=
  inferInstanceAs (Decidable (_ ∨ _))

/-- The number of arguments that begin between a position and the end of the line. -/
def startsFrom (compareBuf : Bytes) (size position : ℕ) : ℕ :=
  (range' position (size - position)).countP fun index ↦ StartsArgument compareBuf index

theorem le_scanArgument (compareBuf : Bytes) (fuel position : ℕ) (stringDeclaration : Bool) :
    position ≤ (scanArgument compareBuf fuel position stringDeclaration).1 := by
  induction fuel generalizing position stringDeclaration with
  | zero => exact le_rfl
  | succ fuel ih =>
    rw [scanArgument]
    split
    · exact (Nat.le_succ position).trans (ih _ _)
    · exact le_rfl

/-- The starts from one on: this one, and those that come after the next. -/
theorem startsFrom_eq {start next : ℕ} (hstart : StartsArgument compareBuf start)
    (hnext : start < next) (hsize : next ≤ size)
    (hnone : ∀ index, start < index → index < next → ¬StartsArgument compareBuf index) :
    startsFrom compareBuf size start = startsFrom compareBuf size next + 1 := by
  obtain ⟨gap, rfl⟩ := Nat.exists_eq_add_of_lt hnext
  obtain ⟨rest, rfl⟩ := Nat.exists_eq_add_of_le hsize
  have hsplit : range' start (start + gap + 1 + rest - start) =
      start :: (range' (start + 1) gap ++ range' (start + gap + 1) rest) := by
    rw [show start + gap + 1 + rest - start = gap + rest + 1 by omega, range'_succ,
      ← range'_append_1, show start + 1 + gap = start + gap + 1 by omega]
  have hzero : (range' (start + 1) gap).countP
      (fun index ↦ decide (StartsArgument compareBuf index)) = 0 := by
    refine countP_eq_zero.mpr fun index hindex ↦ ?_
    have hbounds := mem_range'_1.mp hindex
    simpa using hnone index (by omega) (by omega)
  rw [startsFrom, startsFrom, hsplit, countP_cons, if_pos (decide_eq_true hstart), countP_append,
    hzero, zero_add, Nat.add_sub_cancel_left]

/-- An argument that no position cuts before `stop` contains no other start. -/
theorem not_startsArgument_of_uncut {start stop : ℕ} (hstart : StartsArgument compareBuf start)
    (huncut : ∀ index, start < index → index < stop → ¬CutsBefore compareBuf index) {index : ℕ}
    (hlow : start < index) (hhigh : index < stop) : ¬StartsArgument compareBuf index := by
  have hseparator : ∀ letter ∈ ascii "(,)", letter ∈ ascii "(#)," ∧ letter ≠ 0x22 := by decide
  rintro (rfl | ⟨-, hcut | ⟨htwo, hlast, heven⟩⟩)
  · omega
  · exact huncut index hlow hhigh hcut
  · have hcount := quotesBefore_eq compareBuf (show 1 ≤ index by omega)
    rw [if_neg (hseparator _ hlast).2, add_zero] at hcount
    obtain rfl | hinside := Nat.eq_or_lt_of_le (show start ≤ index - 1 by omega)
    · -- only the first argument of a line can begin with a separator
      obtain hzero | ⟨hletter, -⟩ := hstart
      · omega
      · exact hletter hlast
    · exact huncut (index - 1) hinside (by omega)
        ⟨hcount ▸ heven, .inr (.inr (.inl (hseparator _ hlast).1))⟩

/-- The starts from an argument on: this one, and those behind the separators after it. -/
theorem startsFrom_span {start stop next : ℕ} (hstart : StartsArgument compareBuf start)
    (hnext : start < next) (hsize : next ≤ size)
    (huncut : ∀ index, start < index → index < stop → ¬CutsBefore compareBuf index)
    (hbetween : ∀ index, stop ≤ index → index < next → compareBuf index ∈ ascii "(,)") :
    startsFrom compareBuf size start = startsFrom compareBuf size next + 1 := by
  refine startsFrom_eq hstart hnext hsize fun index hlow hhigh ↦ ?_
  obtain hinside | hbehind := Nat.lt_or_ge index stop
  · exact not_startsArgument_of_uncut hstart huncut hlow hinside
  · rintro (rfl | ⟨hletter, -⟩)
    · omega
    · exact hletter (hbetween index hbehind hhigh)

theorem Spans.le_size {count position : ℕ} {spans : List (ℕ × ℕ)}
    (hspans : Spans compareBuf size count position spans) : ∀ span ∈ spans, span.2 ≤ size := by
  induction hspans with
  | full | covered => nofun
  | span _ hstop _ _ _ ih => exact forall_mem_cons.mpr ⟨hstop, ih⟩

/-- Behind a cut, the next argument begins where the separators end. -/
theorem startsArgument_next {stop next : ℕ} (hcut : CutsBefore compareBuf stop) (hpos : 0 < stop)
    (hle : stop ≤ next)
    (hbetween : ∀ index, stop ≤ index → index < next → compareBuf index ∈ ascii "(,)")
    (hletter : compareBuf next ∉ ascii "(,)")
    (hquotes : quotesBefore compareBuf next = quotesBefore compareBuf stop) :
    StartsArgument compareBuf next := by
  obtain rfl | hlt := Nat.eq_or_lt_of_le hle
  · exact .inr ⟨hletter, .inl hcut⟩
  · refine .inr ⟨hletter, .inr ⟨by omega, hbetween (next - 1) (by omega) (by omega), ?_⟩⟩
    rw [hquotes]
    exact hcut.1

section

variable (hline : LineIn compareBuf other size)

include hline

theorem endsArgument_congr {position : ℕ} (hposition : position ≤ size) :
    EndsArgument compareBuf position ↔ EndsArgument other position := by
  have hword : ∀ count ≤ position, bytesAt compareBuf 0 count = bytesAt other 0 count :=
    fun count hcount ↦ bytesAt_congr fun index hindex ↦ hline.agree _ (by omega)
  have hvar : (position = 3 ∧ bytesAt compareBuf 0 3 = ascii "VAR") ↔
      (position = 3 ∧ bytesAt other 0 3 = ascii "VAR") :=
    and_congr_right fun hthree ↦ by rw [hword 3 (by omega)]
  have hgoto : (position = 4 ∧ bytesAt compareBuf 0 4 = ascii "GOTO") ↔
      (position = 4 ∧ bytesAt other 0 4 = ascii "GOTO") :=
    and_congr_right fun hfour ↦ by rw [hword 4 (by omega)]
  simp only [EndsArgument, hline.agree position hposition, hline.agree (position - 1) (by omega),
    hline.agree (position - 2) (by omega), hvar, hgoto]

theorem checkEndOfArgument_congr {position : ℕ} (hposition : position ≤ size)
    (stringDeclaration : Bool) :
    checkEndOfArgument compareBuf position stringDeclaration =
      checkEndOfArgument other position stringDeclaration := by
  simp only [checkEndOfArgument, hline.agree position hposition,
    hline.agree (position - 1) (by omega), endsArgument_congr hline hposition]

theorem startsArgument_congr {position : ℕ} (hposition : position ≤ size) :
    StartsArgument compareBuf position ↔ StartsArgument other position := by
  have hquotes : quotesBefore compareBuf position = quotesBefore other position :=
    congrArg _ (bytesAt_congr fun index hindex ↦ hline.agree _ (by omega))
  simp only [StartsArgument, CutsBefore, hline.agree position hposition,
    hline.agree (position - 1) (by omega), hquotes, endsArgument_congr hline hposition]

theorem startsFrom_congr (position : ℕ) :
    startsFrom compareBuf size position = startsFrom other size position := by
  refine countP_congr fun index hindex ↦ ?_
  have hbounds := mem_range'_1.mp hindex
  rw [decide_eq_true_iff, decide_eq_true_iff]
  exact startsArgument_congr hline (by omega)

/-- What one look at a line finds. `stringDeclaration` says whether the number of quotes before the
last letter is odd, and so does its new value for the quotes up to that letter. -/
theorem checkEndOfArgument_line {position : ℕ} (hpositive : 1 ≤ position)
    (hposition : position ≤ size) {stringDeclaration : Bool}
    (hinside : stringDeclaration = true ↔ quotesBefore compareBuf (position - 1) % 2 = 1) :
    (∃ next, checkEndOfArgument compareBuf position stringDeclaration = (true, next) ∧
        ¬CutsBefore compareBuf position ∧ (position = size → OpensAtEnd compareBuf size) ∧
        (next = true ↔ quotesBefore compareBuf position % 2 = 1)) ∨
      checkEndOfArgument compareBuf position stringDeclaration = (false, false) ∧
        (position = size ∧ ¬OpensAtEnd compareBuf size ∨
          position < size ∧ CutsBefore compareBuf position) := by
  have hcount := quotesBefore_eq compareBuf hpositive
  have hend : compareBuf position = 0 ↔ position = size :=
    ⟨fun hzero ↦ le_antisymm hposition (le_of_not_gt fun hlt ↦ hline.letters position hlt hzero),
      fun hsize ↦ hsize ▸ hline.closed⟩
  cases stringDeclaration with
  | false =>
    have heven : quotesBefore compareBuf (position - 1) % 2 = 0 := by
      have := mt hinside.mpr Bool.false_ne_true
      omega
    by_cases hquote : compareBuf (position - 1) = 0x22
    · rw [if_pos hquote] at hcount
      have hodd : quotesBefore compareBuf position % 2 = 1 := by omega
      refine .inl ⟨true, if_pos ⟨hpositive, hquote, rfl⟩, fun hcut ↦ ?_, ?_, iff_of_true rfl hodd⟩
      · exact absurd hcut.1 (by omega)
      · rintro rfl
        exact ⟨hquote, hodd⟩
    · rw [if_neg hquote, add_zero] at hcount
      rw [checkEndOfArgument_of_ne hquote]
      by_cases hends : EndsArgument compareBuf position
      · refine .inr ⟨by rw [decide_eq_true hends]; rfl, ?_⟩
        obtain rfl | hlt := Nat.eq_or_lt_of_le hposition
        · exact .inl ⟨rfl, fun hopens ↦ hquote hopens.1⟩
        · exact .inr ⟨hlt, hcount ▸ heven, .inr hends⟩
      · refine .inl ⟨false, by rw [decide_eq_false hends]; rfl, ?_, fun hsize ↦ ?_,
          hcount ▸ hinside⟩
        · rintro ⟨-, hlast | hcut⟩
          · exact hquote hlast
          · exact hends hcut
        · exact absurd (.inl (hend.mpr hsize)) hends
  | true =>
    have hodd := hinside.mp rfl
    rw [checkEndOfArgument, if_neg fun h ↦ Bool.true_eq_false_eq_False h.2.2]
    by_cases hstops : compareBuf (position - 1) = 0x22 ∨ compareBuf position = 0
    · refine .inr ⟨if_pos ⟨hpositive, hstops, rfl⟩, ?_⟩
      obtain rfl | hlt := Nat.eq_or_lt_of_le hposition
      · refine .inl ⟨rfl, fun ⟨hquote, hopens⟩ ↦ ?_⟩
        rw [if_pos hquote] at hcount
        omega
      · have hquote := hstops.resolve_right (hline.letters position hlt)
        rw [if_pos hquote] at hcount
        exact .inr ⟨hlt, by omega, .inl hquote⟩
    · obtain ⟨hquote, hzero⟩ := not_or.mp hstops
      rw [if_neg hquote] at hcount
      rw [if_neg fun h ↦ hstops h.2.1, if_pos ⟨hpositive, rfl⟩]
      exact .inl ⟨true, rfl, fun hcut ↦ absurd hcut.1 (by omega),
        fun hsize ↦ absurd (hend.mpr hsize) hzero, iff_of_true rfl (by omega)⟩

/-- A scan ends at the first cut of the line or at its end, or it has come to a quote at the end. -/
theorem scanArgument_line (fuel : ℕ) {position : ℕ} (hpositive : 1 ≤ position)
    (hposition : position ≤ size) (hfuel : size < position + fuel) {stringDeclaration : Bool}
    (hinside : stringDeclaration = true ↔ quotesBefore compareBuf (position - 1) % 2 = 1) :
    ∃ stop last, scanArgument compareBuf fuel position stringDeclaration = (stop, last) ∧
      (∀ index, position ≤ index → index < stop → index < size → ¬CutsBefore compareBuf index) ∧
      (size < stop ∧ OpensAtEnd compareBuf size ∨
        (stop = size ∧ ¬OpensAtEnd compareBuf size ∨ stop < size ∧ CutsBefore compareBuf stop) ∧
          last = false ∧ scanArgument other fuel position stringDeclaration = (stop, false)) := by
  induction fuel generalizing position stringDeclaration with
  | zero => omega
  | succ fuel ih =>
    rw [scanArgument, scanArgument, ← checkEndOfArgument_congr hline hposition]
    obtain ⟨next, hcheck, huncut, hopens, hnext⟩ | ⟨hcheck, hstop⟩ :=
      checkEndOfArgument_line hline hpositive hposition hinside
    · rw [hcheck]
      by_cases hsize : position = size
      · have hle := le_scanArgument compareBuf fuel (position + 1) next
        exact ⟨_, _, rfl, by omega, .inl ⟨by omega, hopens hsize⟩⟩
      · obtain ⟨stop, last, hscan, hrest, hstop⟩ :=
          ih (show 1 ≤ position + 1 by omega) (by omega) (by omega) hnext
        refine ⟨stop, last, hscan, fun index hlow hhigh hlt ↦ ?_, hstop⟩
        obtain rfl | hlater := Nat.eq_or_lt_of_le hlow
        · exact huncut
        · exact hrest index hlater hhigh hlt
    · rw [hcheck]
      exact ⟨position, false, rfl, by omega, .inr ⟨hstop, rfl, rfl⟩⟩

theorem skipSeparators_line (fuel : ℕ) {position : ℕ} (hposition : position ≤ size) :
    ∃ next ≤ size, skipSeparators compareBuf fuel position = next ∧
      skipSeparators other fuel position = next ∧ position ≤ next ∧
      (∀ index, position ≤ index → index < next → compareBuf index ∈ ascii "(,)") ∧
      (size < position + fuel → compareBuf next ∉ ascii "(,)") ∧
      quotesBefore compareBuf next = quotesBefore compareBuf position := by
  induction fuel generalizing position with
  | zero =>
    exact ⟨position, hposition, rfl, rfl, le_rfl, by omega, fun h ↦ absurd h (by omega), rfl⟩
  | succ fuel ih =>
    rw [skipSeparators, skipSeparators, ← hline.agree position hposition]
    split
    · rename_i hseparator
      have hletter : ∀ letter ∈ ascii "(,)", letter ≠ 0 ∧ letter ≠ 0x22 := by decide
      obtain ⟨hzero, hquote⟩ := hletter _ hseparator
      have hne : position ≠ size := fun hsize ↦ hzero (hsize ▸ hline.closed)
      obtain ⟨next, hbound, hnext, hother, hle, hbetween, hletter, hquotes⟩ :=
        ih (by omega : position + 1 ≤ size)
      refine ⟨next, hbound, hnext, hother, by omega, fun index hindex hlt ↦ ?_,
        fun hfuel ↦ hletter (by omega), ?_⟩
      · obtain rfl | hindex := Nat.eq_or_lt_of_le hindex
        · exact hseparator
        · exact hbetween index hindex hlt
      · rw [hquotes, quotesBefore_succ, if_neg hquote, add_zero]
    · rename_i hletter
      exact ⟨position, hposition, rfl, rfl, le_rfl, by omega, fun _ ↦ hletter, rfl⟩

/-- The loop makes spans of the line and leaves `stringDeclaration` false, or an argument reaches a
quote at the end and leaves the line. It comes to that quote unless more arguments begin in the line
than it looks for. -/
theorem splitArguments_line (hsize : size < 100) (count : ℕ) {tempPtr : ℕ}
    (hposition : tempPtr ≤ size)
    (hstart : tempPtr = size ∨
      StartsArgument compareBuf tempPtr ∧ quotesBefore compareBuf tempPtr % 2 = 0)
    (hopens : OpensAtEnd compareBuf size → tempPtr < size) :
    (Spans compareBuf size count tempPtr (splitArguments compareBuf count tempPtr false).1 ∧
        (splitArguments compareBuf count tempPtr false).2 = false ∧
        (OpensAtEnd compareBuf size → count < startsFrom compareBuf size tempPtr) ∧
        splitArguments other count tempPtr false = splitArguments compareBuf count tempPtr false) ∨
      OpensAtEnd compareBuf size ∧ startsFrom compareBuf size tempPtr ≤ count ∧
        ∃ span ∈ (splitArguments compareBuf count tempPtr false).1, size < span.2 := by
  induction count generalizing tempPtr with
  | zero =>
    refine .inl ⟨.full _, rfl, fun hquote ↦ ?_, rfl⟩
    have hlt := hopens hquote
    rw [startsFrom_eq (hstart.resolve_left hlt.ne).1 (Nat.lt_succ_self tempPtr) hlt (by omega)]
    exact Nat.succ_pos _
  | succ count ih =>
    rw [splitArguments, splitArguments, ← hline.agree tempPtr hposition]
    split
    · rename_i hhere
      have hne : tempPtr ≠ size := fun heq ↦ hhere.1 (heq ▸ hline.closed)
      obtain ⟨hstarts, heven⟩ := hstart.resolve_left hne
      have hinside : false = true ↔ quotesBefore compareBuf (tempPtr + 1 - 1) % 2 = 1 :=
        iff_of_false Bool.false_ne_true (by rw [Nat.add_sub_cancel]; omega)
      have hscan := le_scanArgument compareBuf 102 (tempPtr + 1) false
      obtain ⟨stop, last, hstop, huncut, ⟨hout, hquote⟩ | ⟨hends, rfl, hother⟩⟩ :=
        scanArgument_line hline 102 (Nat.le_add_left 1 tempPtr) (by omega) (by omega) hinside
      · -- no argument begins behind this one
        rw [hstop]
        have hone := startsFrom_span hstarts (by omega) (le_refl size)
          (fun index hlow hhigh ↦ huncut index hlow (by omega) hhigh) (by omega)
        have hnone : startsFrom compareBuf size size = 0 := by rw [startsFrom, Nat.sub_self]; rfl
        exact .inr ⟨hquote, by omega, _, mem_cons_self, hout⟩
      · rw [hstop] at hscan ⊢
        have hbound : stop ≤ size := by omega
        obtain ⟨next, hnextBound, hnext, hotherNext, hle, hbetween, hletter, hsame⟩ :=
          skipSeparators_line hline 100 hbound
        rw [hother]
        dsimp only at hscan ⊢
        rw [hnext, hotherNext]
        have hcount := startsFrom_span hstarts (by omega) hnextBound
          (fun index hlow hhigh ↦ huncut index hlow hhigh (by omega)) hbetween
        have hquoteNext (hquote : OpensAtEnd compareBuf size) : next < size := by
          obtain ⟨-, hcloses⟩ | ⟨hlt, -⟩ := hends
          · exact absurd hquote hcloses
          · refine lt_of_le_of_ne hnextBound fun heq ↦ ?_
            have hlast := hbetween (size - 1) (by omega) (by omega)
            rw [hquote.1] at hlast
            exact absurd hlast (by decide)
        have hnextStart : next = size ∨
            StartsArgument compareBuf next ∧ quotesBefore compareBuf next % 2 = 0 := by
          obtain ⟨rfl, -⟩ | ⟨-, hcut⟩ := hends
          · exact .inl (by omega)
          · exact .inr ⟨startsArgument_next hcut (by omega) hle hbetween
              (hletter (by omega)) hsame, hsame ▸ hcut.1⟩
        obtain ⟨hspans, hflag, hmore, hrest⟩ | ⟨hquote, hfew, span, hmem, hout⟩ :=
          ih hnextBound hnextStart hquoteNext
        · refine .inl ⟨.span hscan hbound hle hbetween hspans, hflag, fun hquote ↦ ?_, ?_⟩
          · rw [hcount]
            exact Nat.succ_lt_succ (hmore hquote)
          · rw [hrest]
        · refine .inr ⟨hquote, ?_, span, mem_cons_of_mem _ hmem, hout⟩
          rw [hcount]
          exact Nat.succ_le_succ hfew
    · rename_i hends
      obtain rfl : tempPtr = size := by
        by_contra hne
        exact hends ⟨hline.letters tempPtr (by omega), by omega⟩
      exact .inl ⟨.covered _, rfl, fun hquote ↦ absurd (hopens hquote) (lt_irrefl _), rfl⟩

theorem arguments_congr (hcloses : ¬OpensAtEnd compareBuf size) (hsize : size < 100) :
    arguments compareBuf = arguments other := by
  obtain ⟨hspans, -, -, hsame⟩ | ⟨hquote, -⟩ := splitArguments_line hline hsize 5 (Nat.zero_le size)
    (.inr ⟨.inl rfl, rfl⟩) fun hquote ↦ absurd hquote hcloses
  · rw [arguments, arguments, hsame]
    refine map_congr_left fun span hspan ↦ congrArg cString (bytesAt_congr fun index hindex ↦ ?_)
    have hstop := hspans.le_size span hspan
    exact hline.agree _ (by omega)
  · exact absurd hquote hcloses

end

end

/-- A line that ends in a double quote has an even number of them. -/
def QuotesClosed (text : Text) : Prop := text.getLast? = some 0x22 → text.count 0x22 % 2 = 0

instance (text : Text) : Decidable (QuotesClosed text) := inferInstanceAs (Decidable (_ → _))

/-- The bytes of a loaded line, with the zeros behind it. -/
theorem image_loadLine {text : Text} (htext : ∀ letter ∈ text, letter ≠ 0) {zeros : ℕ}
    (hlength : text.length + zeros < 100) (compareBuf : Packed 100) {index : ℕ}
    (hindex : index ≤ text.length + zeros) :
    (loadLine (text ++ List.replicate zeros 0) compareBuf).image index = listImage text index := by
  have hstring : cString (text ++ List.replicate zeros 0) = text :=
    cString_append_replicate htext zeros
  have hcount :
      (text ++ List.replicate zeros (0 : UInt8)).length + 1 - text.length = zeros + 1 := by
    rw [length_append, length_replicate]
    omega
  rw [loadLine, hstring, hcount, Packed.image_write _ _ (by omega),
    overlay_inside (Nat.zero_le index), Nat.sub_zero, listImage_append_replicate]
  rw [length_append, length_replicate]
  omega

section

variable {text : Text} (htext : ∀ letter ∈ text, letter ≠ 0) {zeros : ℕ}
  (hlength : text.length + zeros < 100) (compareBuf : Packed 100)

include htext hlength

theorem lineIn_loadLine : LineIn (loadLine (text ++ List.replicate zeros 0) compareBuf).image
    (listImage text) text.length := by
  have himage : ∀ index ≤ text.length,
      (loadLine (text ++ List.replicate zeros 0) compareBuf).image index = listImage text index :=
    fun index hindex ↦ image_loadLine htext hlength compareBuf (by omega)
  refine ⟨himage, fun index hindex ↦ ?_, ?_⟩
  · rw [himage _ (by omega), listImage, getD_eq_getElem text 0 hindex]
    exact htext _ (getElem_mem hindex)
  · rw [himage _ le_rfl, listImage, getD_eq_default _ _ le_rfl]

theorem opensAtEnd_loadLine_iff :
    OpensAtEnd (loadLine (text ++ List.replicate zeros 0) compareBuf).image text.length ↔
      ¬QuotesClosed text := by
  have himage := (lineIn_loadLine htext hlength compareBuf).agree
  have hcount : quotesBefore (loadLine (text ++ List.replicate zeros 0) compareBuf).image
      text.length = text.count 0x22 := by
    have hbytes := bytesAt_listImage [] text []
    rw [nil_append, append_nil, length_nil] at hbytes
    rw [quotesBefore, bytesAt_congr fun index hindex ↦ himage _ (by omega), hbytes]
  have hlast : listImage text (text.length - 1) = 0x22 ↔ text.getLast? = some 0x22 := by
    rw [listImage, getD_eq_getElem?_getD, getLast?_eq_getElem?]
    cases text[text.length - 1]? with
    | none => decide
    | some letter => exact (Option.some_inj).symm
  rw [OpensAtEnd, himage _ (Nat.sub_le _ _), hlast, hcount, QuotesClosed, Classical.not_imp]
  exact and_congr_right fun _ ↦ by omega

/-- A line whose quotes are closed is split the same way wherever it is loaded. -/
theorem arguments_loadLine (hquotes : QuotesClosed text) :
    arguments (loadLine (text ++ List.replicate zeros 0) compareBuf).image =
      arguments (listImage text) :=
  arguments_congr (lineIn_loadLine htext hlength compareBuf) (fun hopens ↦
    (opensAtEnd_loadLine_iff htext hlength compareBuf).mp hopens hquotes) (by omega)

end

/-! ### The spans of a line -/

/-- The number of arguments that begin in a line. -/
def argumentCount (text : Text) : ℕ := startsFrom (listImage text) text.length 0

/-- The loop makes spans of a loaded line and leaves `stringDeclaration` false. -/
def Tokenises (text : Text) (compareBuf : Packed 100) : Prop :=
  Spans (loadLine text compareBuf).image text.length 5 0
      (splitArguments (loadLine text compareBuf).image 5 0 false).1 ∧
    (splitArguments (loadLine text compareBuf).image 5 0 false).2 = false

/-- A line is split into spans just when it does not end in an opening quote or more than five
arguments begin in it, so that five end before that quote. -/
theorem tokenises_iff {text : Text} (htext : ∀ letter ∈ text, letter ≠ 0)
    (hlength : text.length < 100) (compareBuf : Packed 100) :
    Tokenises text compareBuf ↔ QuotesClosed text ∨ 5 < argumentCount text := by
  have hline := lineIn_loadLine htext (show text.length + 0 < 100 from hlength) compareBuf
  have hopens := opensAtEnd_loadLine_iff htext (show text.length + 0 < 100 from hlength) compareBuf
  rw [replicate_zero, append_nil] at hline hopens
  have hcount := startsFrom_congr hline 0
  have hnonempty (hquote : OpensAtEnd (loadLine text compareBuf).image text.length) :
      0 < text.length := by
    refine Nat.pos_of_ne_zero fun hzero ↦ ?_
    have hodd := hquote.2
    rw [hzero] at hodd
    exact Nat.zero_ne_one hodd
  obtain ⟨hspans, hflag, hmore, -⟩ | ⟨hquote, hfew, span, hmem, hout⟩ :=
    splitArguments_line hline hlength 5 (Nat.zero_le _) (.inr ⟨.inl rfl, rfl⟩) hnonempty
  · refine iff_of_true ⟨hspans, hflag⟩ (or_iff_not_imp_left.mpr fun hnot ↦ ?_)
    rw [argumentCount, ← hcount]
    exact hmore (hopens.mpr hnot)
  · refine iff_of_false (fun hspans ↦ absurd (hspans.1.le_size span hmem) (by omega)) ?_
    rintro (hquotes | hmany)
    · exact hopens.mp hquote hquotes
    · rw [argumentCount, ← hcount] at hmany
      omega

/-- A line without quotes, and one whose sixth argument is an opening quote. -/
theorem led_tokenises : Tokenises (ascii "LED(1,2)") (fun _ ↦ 0) ∧
    Tokenises (ascii "LED(1,2,3,4," ++ [0x22]) fun _ ↦ 0 :=
  ⟨(tokenises_iff (by decide) (by decide) _).mpr (.inl (by decide)),
    (tokenises_iff (by decide) (by decide) _).mpr (.inr (by decide))⟩

/-- The argument of a line that consists of a quote ends behind the terminating zero. -/
theorem quote_not_tokenises : ¬Tokenises [0x22] fun _ ↦ 0 := by
  have hsplit : splitArguments (loadLine [0x22] fun _ ↦ 0).image 5 0 false = ([(0, 2)], false) := by
    decide +kernel
  rintro ⟨hspans, -⟩
  rw [hsplit] at hspans
  exact absurd (hspans.le_size _ mem_cons_self) (by decide)

end XBlast.Script
