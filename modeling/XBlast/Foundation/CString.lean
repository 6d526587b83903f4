import Mathlib.Data.List.TakeWhile
import Mathlib.Data.Nat.Digits.Lemmas
import XBlast.Foundation.ByteImage

/-!
# Strings of a C program

A C string is the list of the bytes before its terminating zero. The comparisons ignore the case
of the letters `A` to `Z`; a number is printed in decimal and read back by `strtol`, which takes
its base from the text when it is called with base zero.

Nothing here depends on a particular program.
-/

set_option autoImplicit false
set_option relaxedAutoImplicit false

namespace XBlast.Foundation

open List UInt8

/-- The bytes of a text literal. -/
def ascii (text : String) : List UInt8 := text.toList.map fun letter ↦ UInt8.ofNat letter.toNat

/-- The string that starts at the beginning of a buffer. -/
def cString (buffer : List UInt8) : List UInt8 := buffer.takeWhile (· ≠ 0)

variable {text : List UInt8}

section

variable (htext : ∀ letter ∈ text, letter ≠ 0)

include htext

/-- Every string stored with its terminator is read back, whatever follows it. -/
theorem cString_append (rest : List UInt8) : cString (text ++ 0 :: rest) = text := by
  have hkept : ∀ letter ∈ text, decide (letter ≠ 0) = true :=
    fun letter hletter ↦ decide_eq_true (htext letter hletter)
  rw [cString, takeWhile_append_of_pos hkept, takeWhile_cons_of_neg (by decide), append_nil]

theorem cString_eq_self : cString text = text :=
  takeWhile_eq_self_iff.mpr fun letter hletter ↦ decide_eq_true (htext letter hletter)

theorem cString_append_replicate (count : ℕ) : cString (text ++ List.replicate count 0) = text := by
  cases count with
  | zero => rw [replicate_zero, append_nil, cString_eq_self htext]
  | succ count => exact cString_append htext _

end

variable {letter : UInt8}

theorem ne_zero_of_mem_cString {buffer : List UInt8} (hletter : letter ∈ cString buffer) :
    letter ≠ 0 :=
  of_decide_eq_true (mem_takeWhile_imp (p := fun byte : UInt8 ↦ decide (byte ≠ 0)) hletter)

/-- What follows the terminator of a string does not belong to it. -/
theorem cString_append_of_mem {before : List UInt8} (hnul : 0 ∈ before) (rest : List UInt8) :
    cString (before ++ rest) = cString before := by
  induction before with
  | nil => exact nomatch hnul
  | cons letter before ih =>
    by_cases hletter : letter = 0
    · simp [cString, hletter]
    · have hbefore : 0 ∈ before := (mem_cons.mp hnul).resolve_left (Ne.symm hletter)
      simpa [cString, hletter] using ih hbefore

/-- A string that is cut at a place ends there. -/
theorem cString_set (buffer : List UInt8) (place : ℕ) :
    cString (buffer.set place 0) = (cString buffer).take place := by
  induction buffer generalizing place with
  | nil => simp [cString]
  | cons letter rest ih =>
    cases place with
    | zero => simp [cString]
    | succ place =>
      by_cases hletter : letter = 0
      · simp [cString, hletter]
      · simpa [cString, hletter] using ih place

/-! ### Searching from the end -/

/-- The place of the last such letter of a text. -/
def strrchr (letter : UInt8) : List UInt8 → Option ℕ
  | [] => none
  | first :: rest =>
    match strrchr letter rest with
    | some place => some (place + 1)
    | none => if first = letter then some 0 else none

theorem strrchr_eq_none_iff :
    strrchr letter text = none ↔ letter ∉ text := by
  induction text with
  | nil => simp [strrchr]
  | cons first rest ih =>
    cases hrest : strrchr letter rest with
    | some place =>
      have hmem : letter ∈ rest := by
        by_contra hnot
        exact Option.some_ne_none place (hrest.symm.trans (ih.mpr hnot))
      simp [strrchr, hrest, hmem]
    | none => simp [strrchr, hrest, ih.mp hrest, eq_comm]

/-- Behind the place that is found there is no such letter. -/
theorem exists_of_strrchr_eq_some {place : ℕ} (hplace : strrchr letter text = some place) :
    ∃ before behind, text = before ++ letter :: behind ∧ before.length = place ∧
      letter ∉ behind := by
  induction text generalizing place with
  | nil => cases hplace
  | cons first rest ih =>
    cases hrest : strrchr letter rest with
    | some later =>
      obtain ⟨before, behind, rfl, rfl, hbehind⟩ := ih hrest
      refine ⟨first :: before, behind, rfl, ?_, hbehind⟩
      simpa [strrchr, hrest] using hplace
    | none =>
      rw [strrchr, hrest] at hplace
      obtain ⟨rfl, rfl⟩ : first = letter ∧ 0 = place := by simpa using hplace
      exact ⟨[], rest, rfl, rfl, strrchr_eq_none_iff.mp hrest⟩

/-- What is left before the last such letter has none if it was the only one. -/
theorem not_mem_take_strrchr_iff {place : ℕ} (hplace : strrchr letter text = some place) :
    letter ∉ text.take place ↔ text.count letter = 1 := by
  obtain ⟨before, behind, rfl, rfl, hbehind⟩ := exists_of_strrchr_eq_some hplace
  rw [take_left, count_append, count_cons_self, count_eq_zero.mpr hbehind, ← count_eq_zero]
  omega

/-! ### Comparing without case -/

def tolower (letter : UInt8) : UInt8 :=
  if 0x41 ≤ letter ∧ letter ≤ 0x5A then letter + 0x20 else letter

theorem tolower_ne_zero : ∀ letter : UInt8, letter ≠ 0 → tolower letter ≠ 0 :=
  forall_byte (by decide +kernel)

/-- The difference of the first letters in which two strings differ. -/
def strcasecmp : List UInt8 → List UInt8 → Int
  | [], [] => 0
  | [], letter :: _ => -(tolower letter).toNat
  | letter :: _, [] => (tolower letter).toNat
  | letter :: text, other :: rest =>
    if tolower letter = tolower other then strcasecmp text rest
    else (tolower letter).toNat - (tolower other).toNat

/-- The comparison of at most `count` letters. -/
def strncasecmp : ℕ → List UInt8 → List UInt8 → Int
  | 0, _, _ => 0
  | _ + 1, [], [] => 0
  | _ + 1, [], letter :: _ => -(tolower letter).toNat
  | _ + 1, letter :: _, [] => (tolower letter).toNat
  | count + 1, letter :: text, other :: rest =>
    if tolower letter = tolower other then strncasecmp count text rest
    else (tolower letter).toNat - (tolower other).toNat

/-- The difference of the first bytes in which two buffers of one length differ. -/
def memcmp : List UInt8 → List UInt8 → Int
  | byte :: buffer, other :: rest =>
    if (byte.toNat : Int) - other.toNat ≠ 0 then (byte.toNat : Int) - other.toNat
    else memcmp buffer rest
  | _, _ => 0

/-- The comparison gives one only if the first byte that differs is larger by one. -/
theorem memcmp_eq_one_iff (buffer other : List UInt8) :
    memcmp buffer other = 1 ↔ ∃ common byte differing rest restOther,
      buffer = common ++ byte :: rest ∧ other = common ++ differing :: restOther ∧
        byte.toNat = differing.toNat + 1 := by
  induction buffer, other using memcmp.induct with
  | case1 byte buffer other rest hdiffer =>
    rw [memcmp, if_pos hdiffer]
    constructor
    · intro hone
      exact ⟨[], byte, other, buffer, rest, rfl, rfl, by omega⟩
    · rintro ⟨common, first, second, after, after', hbuffer, hother, hone⟩
      cases common with
      | nil =>
        rw [(List.cons.inj hbuffer).1, (List.cons.inj hother).1]
        omega
      | cons letter common =>
        rw [(List.cons.inj hbuffer).1, (List.cons.inj hother).1] at hdiffer
        exact absurd (sub_self _) hdiffer
  | case2 byte buffer other rest hequal ih =>
    have hbyte : byte = other := UInt8.toNat_inj.mp (by omega)
    rw [memcmp, if_neg hequal, ih, hbyte]
    constructor
    · rintro ⟨common, first, second, after, after', rfl, rfl, hone⟩
      exact ⟨other :: common, first, second, after, after', rfl, rfl, hone⟩
    · rintro ⟨common, first, second, after, after', hbuffer, hother, hone⟩
      cases common with
      | nil =>
        rw [← (List.cons.inj hbuffer).1, ← (List.cons.inj hother).1] at hone
        exact absurd hone (by omega)
      | cons letter common =>
        exact ⟨common, first, second, after, after', (List.cons.inj hbuffer).2,
          (List.cons.inj hother).2, hone⟩
  | case3 buffer other hshort =>
    have hzero : memcmp buffer other = 0 := by
      rw [memcmp]
      exact hshort
    rw [hzero]
    refine iff_of_false (by decide) ?_
    rintro ⟨common, first, second, after, after', rfl, rfl, -⟩
    cases common with
    | nil | cons => exact hshort _ _ _ _ rfl rfl

/-! ### Numbers -/

def isDigit (letter : UInt8) : Bool := 0x30 ≤ letter && letter ≤ 0x39

/-- The letter that prints a digit. -/
def digitLetter (digit : ℕ) : UInt8 := UInt8.ofNat (0x30 + digit)

/-- The decimal digits of a number, the most significant first. -/
def decimalDigits (value : ℕ) : List ℕ :=
  if value = 0 then [0] else (Nat.digits 10 value).reverse

/-- A number printed in decimal. -/
def decimal (value : ℕ) : List UInt8 := (decimalDigits value).map digitLetter

/-- The number that digits stand for after the digits of `start`. -/
def positional (base start : ℕ) (digits : List ℕ) : ℕ :=
  digits.foldl (fun value digit ↦ value * base + digit) start

theorem positional_cons (base start digit : ℕ) (digits : List ℕ) :
    positional base start (digit :: digits) = positional base (start * base + digit) digits :=
  rfl

theorem le_positional {base : ℕ} (hbase : 0 < base) (start : ℕ) (digits : List ℕ) :
    start ≤ positional base start digits := by
  induction digits generalizing start with
  | nil => exact le_refl start
  | cons digit digits ih =>
    have hstart : start ≤ start * base := Nat.le_mul_of_pos_right start hbase
    rw [positional_cons]
    exact le_trans (by omega) (ih (start * base + digit))

/-- The digits of a number stand for it. -/
theorem positional_decimalDigits (value : ℕ) : positional 10 0 (decimalDigits value) = value := by
  by_cases hvalue : value = 0
  · rw [hvalue]
    rfl
  · rw [decimalDigits, if_neg hvalue, positional, foldl_reverse]
    calc (Nat.digits 10 value).foldr (fun digit rest ↦ rest * 10 + digit) 0
        = (Nat.digits 10 value).foldr (fun digit rest ↦ digit + 10 * rest) 0 := by
          simp only [mul_comm, add_comm]
      _ = Nat.ofDigits 10 (Nat.digits 10 value) := (Nat.ofDigits_eq_foldr 10 _).symm
      _ = value := Nat.ofDigits_digits 10 value

theorem lt_of_mem_decimalDigits {value digit : ℕ} (hdigit : digit ∈ decimalDigits value) :
    digit < 10 := by
  rw [decimalDigits] at hdigit
  split at hdigit
  · rw [mem_singleton.mp hdigit]
    decide
  · exact Nat.digits_lt_base (by decide) (mem_reverse.mp hdigit)

/-- The first digit of a positive number is not zero. -/
theorem decimalDigits_of_pos {value : ℕ} (hvalue : value ≠ 0) :
    ∃ digit digits, decimalDigits value = digit :: digits ∧ digit ≠ 0 := by
  have hdigits : Nat.digits 10 value ≠ [] := Nat.digits_ne_nil_iff_ne_zero.mpr hvalue
  refine ⟨_, (Nat.digits 10 value).dropLast.reverse, ?_, Nat.getLast_digit_ne_zero 10 hvalue⟩
  rw [decimalDigits, if_neg hvalue, ← reverse_concat, dropLast_concat_getLast hdigits]

/-- The value of a digit or letter as a digit of a base up to 36. -/
def digitValue (letter : UInt8) : Option ℕ :=
  if isDigit letter then some (letter.toNat - 0x30)
  else if 0x61 ≤ letter ||| 0x20 ∧ letter ||| 0x20 ≤ 0x7A then
    some ((letter ||| 0x20).toNat - 0x61 + 10)
  else none

/-- The digits at the start of a text, accumulated until one does not belong to the base. The
flag is set once the number exceeds `cutoff * base + cutlim`. -/
def strtolDigits (base cutoff cutlim : ℕ) : List UInt8 → ℕ → Bool → ℕ × Bool
  | [], acc, overflow => (acc, overflow)
  | letter :: text, acc, overflow =>
    match digitValue letter with
    | none => (acc, overflow)
    | some digit =>
      if base ≤ digit then (acc, overflow)
      else if overflow ∨ cutoff < acc ∨ (acc = cutoff ∧ cutlim < digit) then
        strtolDigits base cutoff cutlim text acc true
      else strtolDigits base cutoff cutlim text (acc * base + digit) overflow

variable {digit : ℕ}

theorem digitValue_digitLetter (hdigit : digit < 10) :
    digitValue (digitLetter digit) = some digit :=
  (by decide : ∀ digit < 10, digitValue (digitLetter digit) = some digit) digit hdigit

theorem strtolDigits_overflow (base cutoff cutlim : ℕ) (letters : List UInt8) (acc : ℕ) :
    (strtolDigits base cutoff cutlim letters acc true).2 = true := by
  induction letters with
  | nil => rfl
  | cons letter letters ih =>
    rw [strtolDigits]
    split
    · rfl
    · simp only [true_or, if_true]
      split_ifs
      · rfl
      · exact ih

variable {digits : List ℕ}

/-- Digits are accumulated to the number they stand for, up to the first that does not belong to the
base, and a number above the limit is clipped. -/
theorem strtolDigits_eq {base cutoff cutlim : ℕ} (hcutlim : cutlim < base) {letters : List UInt8}
    (hletters : letters.map digitValue = digits.map some) {acc : ℕ}
    (hacc : acc ≤ cutoff * base + cutlim) :
    (if (strtolDigits base cutoff cutlim letters acc false).2 then cutoff * base + cutlim
      else (strtolDigits base cutoff cutlim letters acc false).1) =
      min (cutoff * base + cutlim) (positional base acc (digits.takeWhile (· < base))) := by
  induction digits generalizing letters acc with
  | nil =>
    rw [map_nil, map_eq_nil_iff] at hletters
    rw [hletters]
    exact (min_eq_right hacc).symm
  | cons digit digits ih =>
    obtain ⟨letter, rest, rfl, hletter, hrest⟩ := map_eq_cons_iff.mp hletters
    rw [strtolDigits, hletter]
    by_cases hbase : base ≤ digit
    · rw [takeWhile_cons_of_neg (by simpa using hbase)]
      simp only [if_pos hbase, Bool.false_eq_true, if_false]
      exact (min_eq_right hacc).symm
    · have hnext : (false = true ∨ cutoff < acc ∨ (acc = cutoff ∧ cutlim < digit)) ↔
          cutoff * base + cutlim < acc * base + digit := by
        rcases lt_trichotomy acc cutoff with hlt | rfl | hlt
        · have hproduct := Nat.mul_le_mul_right base hlt
          rw [Nat.succ_mul] at hproduct
          exact iff_of_false (by simp; omega) (by omega)
        · simp
        · have hproduct := Nat.mul_le_mul_right base hlt
          rw [Nat.succ_mul] at hproduct
          exact iff_of_true (.inr (.inl hlt)) (by omega)
      rw [takeWhile_cons_of_pos (by simpa using hbase), positional_cons]
      simp only [if_neg hbase, hnext]
      by_cases hover : cutoff * base + cutlim < acc * base + digit
      · rw [if_pos hover, strtolDigits_overflow, if_pos rfl, min_eq_left]
        exact hover.le.trans (le_positional (by omega) _ _)
      · rw [if_neg hover]
        exact ih hrest (not_lt.mp hover)

def isspace (letter : UInt8) : Bool :=
  letter == 0x20 || letter == 0x0C || letter == 0x0A || letter == 0x0D || letter == 0x09 ||
    letter == 0x0B

/-- The sign of a number and the text after it. -/
def strtolSign : List UInt8 → Bool × List UInt8
  | 0x2D :: text => (true, text)
  | 0x2B :: text => (false, text)
  | text => (false, text)

/-- The base that a text announces and the text of its digits. -/
def strtolBase (base : ℕ) (text : List UInt8) : ℕ × List UInt8 :=
  match text with
  | 0x30 :: letter :: rest =>
    if (base = 0 ∨ base = 16) ∧ tolower letter = 0x78 then (16, rest)
    else if (base = 0 ∨ base = 2) ∧ tolower letter = 0x62 then (2, rest)
    else (if base = 0 then 8 else base, text)
  | 0x30 :: [] => (if base = 0 then 8 else base, text)
  | _ => (if base = 0 then 10 else base, text)

/-- The conversion of a text to a `long` of 32 bits. -/
def strtol (text : List UInt8) (base : ℕ) : Int :=
  let (negative, text) := strtolSign (text.dropWhile isspace)
  let (base, text) := strtolBase base text
  let limit := if negative then 2 ^ 31 else 2 ^ 31 - 1
  let (acc, overflow) := strtolDigits base (limit / base) (limit % base) text 0 false
  let magnitude : Int := if overflow then limit else acc
  if negative then -magnitude else magnitude

/-- A text that starts with a digit has no white space and no sign to skip. -/
theorem strtol_digit (hdigit : digit < 10) (text : List UInt8) :
    strtolSign ((digitLetter digit :: text).dropWhile isspace) =
      (false, digitLetter digit :: text) := by
  have hspace : isspace (digitLetter digit) = false :=
    (by decide : ∀ digit < 10, isspace (digitLetter digit) = false) digit hdigit
  have hsign : digitLetter digit ≠ 0x2D ∧ digitLetter digit ≠ 0x2B :=
    (by decide : ∀ digit < 10, digitLetter digit ≠ 0x2D ∧ digitLetter digit ≠ 0x2B) digit hdigit
  rw [dropWhile_cons_of_neg (by rw [hspace]; decide)]
  unfold strtolSign
  split
  · rename_i hminus
    exact absurd (List.cons.inj hminus).1 hsign.1
  · rename_i hplus
    exact absurd (List.cons.inj hplus).1 hsign.2
  · rfl

theorem strtolBase_digit (hdigit : digit < 10) (hzero : digit ≠ 0) (text : List UInt8) :
    strtolBase 0 (digitLetter digit :: text) = (10, digitLetter digit :: text) := by
  have hletter : digitLetter digit ≠ 0x30 :=
    (by decide : ∀ digit < 10, digit ≠ 0 → digitLetter digit ≠ 0x30) digit hdigit hzero
  unfold strtolBase
  split
  · rename_i hprefix
    exact absurd (List.cons.inj hprefix).1 hletter
  · rename_i hprefix
    exact absurd (List.cons.inj hprefix).1 hletter
  · rfl

/-- The number that `strtol` reads from digits in a base. -/
def readDigits (base : ℕ) (digits : List ℕ) : ℕ :=
  min (2 ^ 31 - 1) (positional base 0 (digits.takeWhile (· < base)))

theorem readDigits_of_lt {base : ℕ} (hdigits : ∀ digit ∈ digits, digit < base)
    (hvalue : positional base 0 digits < 2 ^ 31) :
    readDigits base digits = positional base 0 digits := by
  rw [readDigits, takeWhile_eq_self_iff.mpr fun digit hdigit ↦
    decide_eq_true (hdigits digit hdigit)]
  omega

/-- The digits are read in the base that the text announces. -/
theorem strtol_eq {text letters : List UInt8} {base : ℕ} (hbase : 0 < base)
    (hsign : strtolSign (text.dropWhile isspace) = (false, text))
    (htext : strtolBase 0 text = (base, letters))
    (hletters : letters.map digitValue = digits.map some) :
    strtol text 0 = readDigits base digits := by
  have hread := strtolDigits_eq (Nat.mod_lt (2 ^ 31 - 1) hbase) hletters
    (Nat.zero_le ((2 ^ 31 - 1) / base * base + _))
  rw [Nat.div_add_mod'] at hread
  rw [strtol, hsign]
  simp only [htext, Bool.false_eq_true, if_false]
  rw [readDigits, ← hread]
  split_ifs <;> rfl

/-- A number in decimal digits is read in octal if it begins with a zero. -/
theorem strtol_digits (hdigits : ∀ other ∈ digit :: digits, other < 10) :
    strtol ((digit :: digits).map digitLetter) 0 =
      readDigits (if digit = 0 then 8 else 10) (digit :: digits) := by
  have hletters : ((digit :: digits).map digitLetter).map digitValue =
      (digit :: digits).map some := by
    rw [map_map]
    exact map_congr_left fun other hother ↦ digitValue_digitLetter (hdigits other hother)
  have hdigit := hdigits digit mem_cons_self
  refine strtol_eq (by split_ifs <;> decide) (strtol_digit hdigit _) ?_ hletters
  split_ifs with hzero
  · subst hzero
    cases digits with
    | nil => rfl
    | cons next digits =>
      have hnext : tolower (digitLetter next) ≠ 0x78 ∧ tolower (digitLetter next) ≠ 0x62 :=
        (by decide : ∀ next < 10, tolower (digitLetter next) ≠ 0x78 ∧
          tolower (digitLetter next) ≠ 0x62) next (hdigits next (by simp))
      simp only [map_cons, show digitLetter 0 = 0x30 from rfl, strtolBase, hnext, and_false,
        if_false, if_true]
  · exact strtolBase_digit hdigit hzero _

/-- A number printed in decimal is read back. -/
theorem strtol_decimal {value : ℕ} (hvalue : value < 2 ^ 31) :
    strtol (decimal value) 0 = value := by
  by_cases hzero : value = 0
  · rw [hzero]
    decide
  · obtain ⟨digit, digits, hdecimal, hdigit⟩ := decimalDigits_of_pos hzero
    have hsmall : ∀ other ∈ digit :: digits, other < 10 :=
      fun _ hother ↦ lt_of_mem_decimalDigits (hdecimal ▸ hother)
    have hpositional : positional 10 0 (digit :: digits) = value :=
      hdecimal ▸ positional_decimalDigits value
    rw [decimal, hdecimal, strtol_digits hsmall, if_neg hdigit,
      readDigits_of_lt hsmall (hpositional ▸ hvalue), hpositional]

/-- A hexadecimal number is read. -/
theorem strtol_hexadecimal {letters : List UInt8}
    (hletters : letters.map digitValue = digits.map some) :
    strtol (ascii "0x" ++ letters) 0 = readDigits 16 digits :=
  strtol_eq (by decide) rfl rfl hletters

/-- No number is read as a larger one. -/
theorem readDigits_le {base largerBase : ℕ} (hlarger : 0 < largerBase) (hbase : base ≤ largerBase)
    (digits : List ℕ) :
    readDigits base digits ≤ positional largerBase 0 digits := by
  have hgrows : ∀ {start larger : ℕ}, start ≤ larger →
      positional base start (digits.takeWhile (· < base)) ≤
        positional largerBase larger digits := by
    induction digits with
    | nil => exact id
    | cons digit digits ih =>
      intro start larger hstart
      have hproduct := Nat.mul_le_mul hstart hbase
      by_cases hdigit : digit < base
      · rw [takeWhile_cons_of_pos (by simpa using hdigit)]
        exact ih (Nat.add_le_add_right hproduct digit)
      · rw [takeWhile_cons_of_neg (by simpa using hdigit)]
        exact hstart.trans (le_positional hlarger larger _)
  exact (min_le_right _ _).trans (hgrows le_rfl)

end XBlast.Foundation
