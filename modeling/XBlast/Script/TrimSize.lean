import Mathlib.Algebra.Order.BigOperators.Group.List
import XBlast.Script.Trim

/-!
# The size of a trimmed script

The callers of `trimScript` take a script only if its new size is positive and at most the size of
the file. Every line that is kept costs one byte for the mark behind it. A line of the file pays for
it with its line feed, or with a letter that is removed; the last line may have neither. The new
size is too large exactly if no line loses anything (`trimScript_size_le_iff`), so that a tidy
script without a line feed at its end is refused.
-/

set_option autoImplicit false
set_option relaxedAutoImplicit false

namespace XBlast.Script

open Foundation List

/-! ### The lines of a file -/

variable {line : Text}

/-- The lines of a file have no line feed. The bytes of the file are theirs, with a line feed behind
each of them but one. -/
theorem splitOn_lines (file : Text) : (∀ line ∈ file.splitOn 0x0A, 0x0A ∉ line) ∧
    file.length + 1 = ((file.splitOn 0x0A).map fun line ↦ line.length + 1).sum := by
  by_cases hfeed : 0x0A ∈ file
  · obtain ⟨line, rest, hfile, hline⟩ := eq_append_cons_of_mem hfeed
    obtain ⟨hlines, hlength⟩ := splitOn_lines rest
    rw [hfile, splitOn_append_cons_self_of_not_mem hline]
    refine ⟨forall_mem_cons.mpr ⟨hline, hlines⟩, ?_⟩
    rw [map_cons, sum_cons, ← hlength, length_append, length_cons]
    omega
  · rw [splitOn_eq_singleton hfeed]
    exact ⟨forall_mem_singleton.mpr hfeed, sum_singleton.symm⟩
termination_by file.length
decreasing_by
  rw [hfile, length_append, length_cons]
  omega

/-! ### What a line costs -/

/-- The bytes that a line adds to the new size. -/
def lineCost (line : Text) : ℕ :=
  match lineSegment line with
  | none => 0
  | some segment => (lineText segment).length + 1

/-- The mark behind a segment is counted, and nothing else is added. -/
theorem sum_lineBuffers (segments : List Text) :
    ((lineBuffers segments).map fun lineBuf ↦ (lineText lineBuf).length + 1).sum =
      (segments.map fun segment ↦ (lineText segment).length + 1).sum := by
  induction segments using lineBuffers.induct with
  | case1 => rfl
  | case2 segment =>
    rw [lineBuffers, map_singleton, map_singleton, lineText_append _ (.inl rfl)]
  | case3 segment next segments ih =>
    rw [lineBuffers, map_cons, sum_cons, ih, lineText_append _ (.inr rfl)]
    exact sum_cons.symm

theorem sum_filterMap_lineSegment (lines : List Text) :
    ((lines.filterMap lineSegment).map fun segment ↦ (lineText segment).length + 1).sum =
      (lines.map lineCost).sum := by
  induction lines with
  | nil => rfl
  | cons line lines ih =>
    rw [filterMap_cons, map_cons, sum_cons, lineCost, ← ih]
    cases lineSegment line with
    | none => exact (zero_add _).symm
    | some segment => rfl

/-- A line that loses nothing: it has letters, no comment, no zero, no carriage return at its end
and no blank outside of a quoted text. -/
structure Tight (line : Text) : Prop where
  nonempty : line ≠ []
  mark : 0x23 ∉ line
  zero : 0 ∉ line
  carriageReturn : line.getLast? ≠ some 0x0D
  blanks : (withoutBlanks false line).length = line.length

theorem length_withoutBlanks_le (inside : Bool) (text : Text) :
    (withoutBlanks inside text).length ≤ text.length := by
  induction text generalizing inside with
  | nil => exact le_rfl
  | cons letter text ih =>
    have hlater := ih (if letter = 0x22 then !inside else inside)
    rw [withoutBlanks]
    generalize (if letter = 0x22 then !inside else inside) = next at hlater ⊢
    split_ifs
    · exact Nat.succ_le_succ hlater
    · exact hlater.trans (Nat.le_succ _)
    · exact Nat.succ_le_succ hlater

theorem mem_withoutBlanks {letter : UInt8} {text : Text} (hletter : letter ∈ text)
    (hblank : ¬isBlank letter = true) (inside : Bool) : letter ∈ withoutBlanks inside text := by
  induction text generalizing inside with
  | nil => exact hletter
  | cons first text ih =>
    rw [withoutBlanks]
    obtain rfl | hletter := mem_cons.mp hletter
    · rw [if_neg hblank]
      exact mem_cons_self
    · have hlater := ih hletter (if first = 0x22 then !inside else inside)
      generalize (if first = 0x22 then !inside else inside) = next at hlater ⊢
      split_ifs
      · exact mem_cons_of_mem _ hlater
      · exact hlater
      · exact mem_cons_of_mem _ hlater

theorem takeWhile_mark (hmark : 0x23 ∉ line) : line.takeWhile (· ≠ 0x23) = line :=
  takeWhile_eq_self_iff.mpr fun _ hletter ↦
    decide_eq_true fun heq ↦ hmark (heq ▸ hletter)

theorem length_copyLine_le_length (line : Text) : (copyLine false line).length ≤ line.length := by
  rw [copyLine_eq]
  exact (length_withoutBlanks_le _ _).trans (takeWhile_sublist _).length_le

/-- A line is copied whole only if it has neither a comment nor a blank outside of quoted texts. -/
theorem of_length_copyLine_eq (hlength : (copyLine false line).length = line.length) :
    0x23 ∉ line ∧ (withoutBlanks false line).length = line.length := by
  rw [copyLine_eq] at hlength
  have htake : (line.takeWhile (· ≠ 0x23)).length = line.length := by
    have hle := length_withoutBlanks_le false (line.takeWhile (· ≠ 0x23))
    have hle' : (line.takeWhile (· ≠ 0x23)).length ≤ line.length :=
      (takeWhile_sublist _).length_le
    omega
  have hwhole : line.takeWhile (· ≠ 0x23) = line := (takeWhile_sublist _).eq_of_length htake
  refine ⟨fun hmark ↦ ?_, by rwa [hwhole] at hlength⟩
  rw [← hwhole] at hmark
  exact absurd (mem_takeWhile_imp hmark) (by decide)

/-- The segment of a line is the copy of the line, or shorter than the line. -/
theorem lineSegment_cases {line segment : Text} (hsegment : lineSegment line = some segment) :
    segment.length < line.length ∨
      line ≠ [] ∧ line.getLast? ≠ some 0x0D ∧ segment = copyLine false line := by
  rw [lineSegment] at hsegment
  dsimp only at hsegment
  split_ifs at hsegment with hdropped hreturn
  · have hstart : 0 < (line.dropWhile isBlank).length :=
      length_pos_of_ne_nil fun hnil ↦ hdropped (.inr hnil)
    have hsuffix : (line.dropWhile isBlank).length ≤ line.length :=
      (dropWhile_suffix _).length_le
    have hcopy := length_copyLine_le_length (line.dropWhile isBlank).dropLast
    rw [length_dropLast] at hcopy
    rw [← Option.some.inj hsegment]
    exact .inl (by omega)
  · refine .inr ⟨fun hnil ↦ hdropped (.inr ?_), hreturn, ?_⟩
    · rw [hnil, dropWhile_nil]
    · rw [← Option.some.inj hsegment, copyLine_dropWhile]

/-- A line costs at most what it brings along with its line feed. -/
theorem lineCost_le (line : Text) : lineCost line ≤ line.length + 1 := by
  rw [lineCost]
  split
  · exact Nat.zero_le _
  · rename_i segment hsegment
    refine Nat.succ_le_succ ((lineText_sublist segment).length_le.trans ?_)
    obtain hshorter | ⟨-, -, rfl⟩ := lineSegment_cases hsegment
    · exact hshorter.le
    · exact length_copyLine_le_length line

theorem lineSegment_of_tight (htight : Tight line) :
    lineSegment line = some (copyLine false line) := by
  have hstart : line.dropWhile isBlank ≠ [] := by
    intro hnil
    have hcopy : copyLine false line = [] := by rw [← copyLine_dropWhile, hnil]; rfl
    rw [copyLine_eq, takeWhile_mark htight.mark] at hcopy
    have hlength := htight.blanks
    rw [hcopy] at hlength
    exact htight.nonempty (length_eq_zero_iff.mp hlength.symm)
  have hmark : (line.dropWhile isBlank).head? ≠ some 0x23 := fun hhead ↦
    htight.mark ((dropWhile_suffix _).subset (mem_of_head? hhead))
  rw [lineSegment]
  dsimp only
  rw [if_neg (not_or.mpr ⟨hmark, hstart⟩), if_neg htight.carriageReturn, copyLine_dropWhile]

/-- The lines that cost as much as they bring along are those that lose nothing. -/
theorem lineCost_eq_iff (hfeed : 0x0A ∉ line) :
    lineCost line = line.length + 1 ↔ Tight line := by
  constructor
  · intro hcost
    rw [lineCost] at hcost
    split at hcost
    · exact absurd hcost (Nat.succ_ne_zero _).symm
    · rename_i segment hsegment
      have hsegment' := (lineText_sublist segment).length_le
      obtain hshorter | ⟨hnonempty, hreturn, rfl⟩ := lineSegment_cases hsegment
      · omega
      · have hcopy := length_copyLine_le_length line
        have hwholeLength : (copyLine false line).length = line.length := by omega
        obtain ⟨hmark, hblanks⟩ := of_length_copyLine_eq hwholeLength
        have htext : lineText (copyLine false line) = copyLine false line :=
          (lineText_sublist _).eq_of_length (by omega)
        refine ⟨hnonempty, hmark, fun hzero ↦ ?_, hreturn, hblanks⟩
        have hcopied : 0 ∈ copyLine false line := by
          rw [copyLine_eq, takeWhile_mark hmark]
          exact mem_withoutBlanks hzero (by decide) false
        rw [← htext] at hcopied
        exact absurd (mem_takeWhile_imp hcopied) (by decide)
  · intro htight
    have hline : IsLine line := fun letter hletter ↦
      ⟨fun heq ↦ htight.zero (heq ▸ hletter), fun heq ↦ hfeed (heq ▸ hletter)⟩
    rw [lineCost, lineSegment_of_tight htight]
    dsimp only
    rw [lineText_eq_self (isLine_copyLine hline), copyLine_eq, takeWhile_mark htight.mark,
      htight.blanks]

/-! ### The whole file -/

/-- A line with an instruction: without its carriage return it is neither blank nor a comment. -/
def IsInstruction (line : Text) : Prop :=
  normalLine (if line.getLast? = some 0x0D then line.dropLast else line) ≠ []

instance (line : Text) : Decidable (IsInstruction line) := inferInstanceAs (Decidable (_ ≠ _))

theorem lineSegment_ne_none (hline : IsInstruction line) :
    lineSegment line ≠ none := by
  rw [IsInstruction] at hline
  split_ifs at hline with hreturn
  · have htext : (⟨line.dropLast, true⟩ : RawLine).text = line :=
      dropLast_append_getLast? _ hreturn
    rw [← htext, lineSegment_text fun h ↦ Bool.noConfusion h, if_pos hline]
    exact Option.some_ne_none _
  · have htext : (⟨line, false⟩ : RawLine).text = line := append_nil line
    rw [← htext, lineSegment_text fun _ ↦ hreturn, if_pos hline]
    exact Option.some_ne_none _

/-- A sum of parts that are bounded one by one reaches the sum of the bounds only if each of them
does. -/
theorem sum_map_lt_iff {α : Type*} {list : List α} {cost bound : α → ℕ}
    (hle : ∀ item, cost item ≤ bound item) :
    (list.map cost).sum < (list.map bound).sum ↔ ∃ item ∈ list, cost item ≠ bound item := by
  induction list with
  | nil => simp
  | cons item list ih =>
    have hsum : (list.map cost).sum ≤ (list.map bound).sum :=
      sum_le_sum fun item _ ↦ hle item
    have hitem := hle item
    rw [map_cons, map_cons, sum_cons, sum_cons, exists_mem_cons_iff, ← ih]
    omega

/-- A file of lines that fit their buffers, one of them with an instruction, is trimmed to a script
of positive size. The size is at most that of the file just in case that some line loses a letter or
is left out, the empty one behind a last line feed included. -/
theorem trimScript_size_le_iff (file : Text)
    (hshort : ∀ line ∈ file.splitOn 0x0A, ∀ segment ∈ lineSegment line, segment.length ≤ 99)
    (hinstruction : ∃ line ∈ file.splitOn 0x0A, IsInstruction line) :
    ∃ script newSize, trimScript file = some (script, newSize) ∧ 0 < newSize ∧
      (newSize ≤ file.length ↔ ∃ line ∈ file.splitOn 0x0A, ¬Tight line) := by
  obtain ⟨instruction, hline, hkept⟩ := hinstruction
  obtain ⟨segment, hsegment⟩ := Option.ne_none_iff_exists'.mp (lineSegment_ne_none hkept)
  have hgood : ¬((file.splitOn 0x0A).filterMap lineSegment = [] ∨
      ∃ segment ∈ (file.splitOn 0x0A).filterMap lineSegment, 100 ≤ segment.length) := by
    rintro (hnil | ⟨segment, hmem, hlong⟩)
    · exact ne_nil_of_mem (mem_filterMap.mpr ⟨instruction, hline, hsegment⟩) hnil
    · obtain ⟨line, hmem, hsome⟩ := mem_filterMap.mp hmem
      exact absurd hlong (not_le.mpr (Nat.lt_succ_of_le (hshort line hmem segment hsome)))
  have hcost : 0 < lineCost instruction := by
    rw [lineCost, hsegment]
    exact Nat.succ_pos _
  have hsize : ((file.splitOn 0x0A).map lineCost).sum ≤ file.length ↔
      ∃ line ∈ file.splitOn 0x0A, ¬Tight line := by
    rw [← Nat.lt_succ_iff, Nat.succ_eq_add_one, (splitOn_lines file).2, sum_map_lt_iff lineCost_le]
    refine exists_congr fun line ↦ and_congr_right fun hmem ↦ ?_
    exact (lineCost_eq_iff ((splitOn_lines file).1 line hmem)).not
  obtain ⟨script, htrim⟩ : ∃ script,
      trimScript file = some (script, ((file.splitOn 0x0A).map lineCost).sum) := by
    rw [trimScript, fileSegments_eq le_rfl]
    dsimp only
    rw [if_neg hgood, sum_lineBuffers, sum_filterMap_lineSegment]
    exact ⟨_, rfl⟩
  have hpos : 0 < ((file.splitOn 0x0A).map lineCost).sum :=
    hcost.trans_le (single_le_sum (fun _ _ ↦ Nat.zero_le _) _ (mem_map_of_mem hline))
  exact ⟨script, _, htrim, hpos, hsize⟩

/-- A script that ends with a line feed. -/
theorem trimScript_closed_line :
    ∃ script newSize, trimScript (ascii "LED(GREEN)\n") = some (script, newSize) ∧
      0 < newSize ∧ newSize ≤ (ascii "LED(GREEN)\n").length := by
  obtain ⟨script, newSize, htrim, hpos, hsize⟩ := trimScript_size_le_iff (ascii "LED(GREEN)\n")
    (by decide) (by decide)
  exact ⟨script, newSize, htrim, hpos, hsize.mpr ⟨[], by decide, fun h ↦ h.nonempty rfl⟩⟩

/-- The same script without it needs one byte more than the file has. -/
theorem trimScript_open_line :
    (∀ line ∈ (ascii "LED(GREEN)").splitOn 0x0A, ∀ segment ∈ lineSegment line,
        segment.length ≤ 99) ∧
      (∃ line ∈ (ascii "LED(GREEN)").splitOn 0x0A, IsInstruction line) ∧
      trimScript (ascii "LED(GREEN)") = some (ascii "LED(GREEN)\x00", 11) ∧
      (ascii "LED(GREEN)").length = 10 := by
  decide

end XBlast.Script
