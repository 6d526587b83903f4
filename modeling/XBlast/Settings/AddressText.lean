import Mathlib.Data.List.GetD
import XBlast.Foundation.CString

/-!
# Texts of IP addresses

An address is shown as a dotted quad, four decimal numbers between dots, and read back by
`assertCorrectIPString`. That function starts a number at the beginning of the text and after
each dot that another character follows, keeps the low byte of each number and accepts a text with
three such dots. A dotted quad of any four bytes is read back as these bytes
(`assertCorrectIPString_dottedQuad`), and its text reaches the fifteen characters of
`255.255.255.255` exactly when all four numbers have three digits
(`length_dottedQuad_lt_iff`).

The letters between the dots are not looked at, and each number goes to the next byte of an array
of four, so that a text with more dots is written behind its end. `assertCorrectIPString_exact_iff`
says for which texts the check is right all the same: for addresses, for texts with too few such
dots, and for texts that begin with a dot and have four of them.
-/

set_option autoImplicit false
set_option relaxedAutoImplicit false

namespace XBlast.Settings

open Foundation List

/-- One step of `myAtoi`. A `char` is signed, and the result is an `unsigned short`. -/
def accumulate (res : UInt16) (letter : UInt8) : UInt16 :=
  res * 10 + UInt16.ofInt letter.toInt8.toInt - 0x30

/-- The number at the start of a text, up to a dot or the end of the text. -/
def myAtoi (str : List UInt8) : UInt16 := (str.takeWhile (· ≠ 0x2E)).foldl accumulate 0

/-- The local variables of the scan of an address text. -/
structure AddressScan where
  byteOffset : ℕ
  tempAddr : ℕ → UInt8
  countDots : ℕ
  lastDotPos : ℕ

/-- The low byte of a number goes to the next byte of the address. -/
def AddressScan.store (scan : AddressScan) (number : UInt16) : AddressScan where
  byteOffset := scan.byteOffset + 1
  tempAddr := Function.update scan.tempAddr scan.byteOffset number.toUInt8
  countDots := scan.countDots
  lastDotPos := scan.lastDotPos

/-- The body of the loop at one position: `letter` stands there and `rest` follows it. -/
def AddressScan.step (scan : AddressScan) (cursorPos : ℕ) (letter : UInt8) (rest : List UInt8) :
    AddressScan :=
  if cursorPos = 0 ∧ letter ≠ 0x2E then scan.store (myAtoi (letter :: rest))
  else if letter = 0x2E ∧ rest.head? ≠ some 0x2E ∧ rest ≠ [] then
    { scan.store (myAtoi rest) with countDots := scan.countDots + 1, lastDotPos := cursorPos }
  else scan

/-- The loop over the text from one position on. -/
def AddressScan.run : List UInt8 → ℕ → AddressScan → AddressScan
  | [], _, scan => scan
  | letter :: rest, cursorPos, scan => run rest (cursorPos + 1) (scan.step cursorPos letter rest)

variable (stack : ℕ → UInt8)

/-- The four bytes that are copied to `out`, or nothing when the text is refused. `tempAddr` holds
whatever the stack held before; `lastDotPos` is read only after a dot has set it. -/
def assertCorrectIPString (input : List UInt8) : Option (List UInt8) :=
  let scan := AddressScan.run input 0 ⟨0, stack, 0, 0⟩
  if scan.countDots = 3 ∧ input.getD (scan.lastDotPos + 1) 0 ≠ 0 then
    some [scan.tempAddr 0, scan.tempAddr 1, scan.tempAddr 2, scan.tempAddr 3]
  else none

variable (first second third fourth : UInt8)

/-- The text that `%u.%u.%u.%u` prints. -/
def dottedQuad : List UInt8 :=
  decimal first.toNat ++ 0x2E :: decimal second.toNat ++ 0x2E :: decimal third.toNat ++
    0x2E :: decimal fourth.toNat

/-! ### Addresses -/

/-- A decimal field of an address and its value. Leading zeros are allowed. -/
def IsField (text : List UInt8) (value : UInt8) : Prop :=
  ∃ digits : List ℕ, (∀ digit ∈ digits, digit < 10) ∧ 1 ≤ digits.length ∧ digits.length ≤ 3 ∧
    text = digits.map digitLetter ∧ positional 10 0 digits = value.toNat

/-- An address and its four bytes. -/
def IsAddress (text bytes : List UInt8) : Prop :=
  ∃ first second third fourth : List UInt8, ∃ a b c d : UInt8,
    text = first ++ 0x2E :: second ++ 0x2E :: third ++ 0x2E :: fourth ∧
    IsField first a ∧ IsField second b ∧ IsField third c ∧ IsField fourth d ∧ bytes = [a, b, c, d]

/-! ### Reading one number -/

variable {digits : List ℕ}

section

variable (hdigits : ∀ digit ∈ digits, digit < 10)

include hdigits

/-- Digits are accumulated modulo the size of an `unsigned short`. -/
theorem foldl_accumulate (start : ℕ) :
    (digits.map digitLetter).foldl accumulate (UInt16.ofNat start) =
      UInt16.ofNat (positional 10 start digits) := by
  induction digits generalizing start with
  | nil => rfl
  | cons digit digits ih =>
    have hstep : accumulate (UInt16.ofNat start) (digitLetter digit) =
        UInt16.ofNat (start * 10 + digit) := by
      have hletter : UInt16.ofInt (digitLetter digit).toInt8.toInt = UInt16.ofNat digit + 0x30 :=
        (by decide : ∀ digit < 10,
          UInt16.ofInt (digitLetter digit).toInt8.toInt = UInt16.ofNat digit + 0x30)
          digit (hdigits digit mem_cons_self)
      rw [accumulate, hletter, ← UInt16.add_assoc, UInt16.add_sub_cancel, UInt16.ofNat_add,
        UInt16.ofNat_mul]
      rfl
    rw [map_cons, foldl_cons, hstep, positional_cons]
    exact ih (fun other hother ↦ hdigits other (mem_cons_of_mem digit hother)) _

theorem ne_of_mem_digits {letter : UInt8} (hletter : letter ∈ digits.map digitLetter) :
    letter ≠ 0x2E ∧ letter ≠ 0 := by
  obtain ⟨digit, hdigit, rfl⟩ := mem_map.mp hletter
  exact (by decide : ∀ digit < 10, digitLetter digit ≠ 0x2E ∧ digitLetter digit ≠ 0) digit
    (hdigits digit hdigit)

theorem myAtoi_digits :
    myAtoi (digits.map digitLetter) = UInt16.ofNat (positional 10 0 digits) := by
  have hdots : ∀ letter ∈ digits.map digitLetter, decide (letter ≠ 0x2E) = true :=
    fun letter hletter ↦ decide_eq_true (ne_of_mem_digits hdigits hletter).1
  rw [myAtoi, takeWhile_eq_self_iff.mpr hdots]
  exact foldl_accumulate hdigits 0

end

section

variable {field : List UInt8} {value : UInt8} (hfield : IsField field value)

include hfield

theorem IsField.letters : field ≠ [] ∧ ∀ letter ∈ field, letter ≠ 0x2E ∧ letter ≠ 0 := by
  obtain ⟨digits, hdigits, hlength, -, rfl, -⟩ := hfield
  refine ⟨?_, fun letter hletter ↦ ne_of_mem_digits hdigits hletter⟩
  rintro hempty
  rw [map_eq_nil_iff.mp hempty] at hlength
  exact absurd hlength (by decide)

theorem IsField.myAtoi_eq : (myAtoi field).toUInt8 = value := by
  obtain ⟨digits, hdigits, -, -, rfl, hvalue⟩ := hfield
  have hbound := value.toNat_lt
  apply UInt8.toNat_inj.mp
  rw [myAtoi_digits hdigits, hvalue, UInt16.toNat_toUInt8, UInt16.toNat_ofNat']
  omega

end

theorem decimal_ne_nil (value : ℕ) : decimal value ≠ [] := by
  by_cases hvalue : value = 0
  · rw [hvalue]
    decide
  · obtain ⟨digit, digits, hdigits, -⟩ := decimalDigits_of_pos hvalue
    rw [decimal, hdigits, map_cons]
    exact cons_ne_nil _ _

/-! ### Scanning a dotted quad -/

variable {text : List UInt8}

namespace AddressScan

/-- Past the first position, the scan passes over everything but dots. -/
theorem run_letters (htext : ∀ letter ∈ text, letter ≠ 0x2E) (rest : List UInt8) {cursorPos : ℕ}
    (hpos : cursorPos ≠ 0) (scan : AddressScan) :
    run (text ++ rest) cursorPos scan = run rest (cursorPos + text.length) scan := by
  induction text generalizing cursorPos with
  | nil => rfl
  | cons letter text ih =>
    have hletter : letter ≠ 0x2E := htext letter mem_cons_self
    have hstep : scan.step cursorPos letter (text ++ rest) = scan := by
      rw [step, if_neg fun h ↦ hpos h.1, if_neg fun h ↦ hletter h.1]
    rw [cons_append, run, hstep,
      ih (fun other hother ↦ htext other (mem_cons_of_mem letter hother)) (by omega), length_cons]
    congr 1
    omega

/-- The number at the beginning of a text is stored. -/
theorem run_first (hne : text ≠ []) (hdots : ∀ letter ∈ text, letter ≠ 0x2E) (rest : List UInt8)
    (scan : AddressScan) :
    run (text ++ rest) 0 scan = run rest text.length (scan.store (myAtoi (text ++ rest))) := by
  cases text with
  | nil => exact absurd rfl hne
  | cons letter text =>
    have hstep : scan.step 0 letter (text ++ rest) =
        scan.store (myAtoi (letter :: text ++ rest)) :=
      if_pos ⟨rfl, hdots letter mem_cons_self⟩
    rw [cons_append, run, hstep,
      run_letters (fun other hother ↦ hdots other (mem_cons_of_mem letter hother)) rest
        (by omega), length_cons, zero_add, add_comm]
    rfl

/-- A dot and the number after it. -/
theorem run_dot (hne : text ≠ []) (hdots : ∀ letter ∈ text, letter ≠ 0x2E) (rest : List UInt8)
    {cursorPos : ℕ} (hpos : cursorPos ≠ 0) (scan : AddressScan) :
    run (0x2E :: (text ++ rest)) cursorPos scan =
      run rest (cursorPos + 1 + text.length)
        { scan.store (myAtoi (text ++ rest)) with
          countDots := scan.countDots + 1, lastDotPos := cursorPos } := by
  have hfollows : (text ++ rest).head? ≠ some 0x2E ∧ text ++ rest ≠ [] := by
    cases text with
    | nil => exact absurd rfl hne
    | cons letter text =>
      exact ⟨fun hhead ↦ hdots letter mem_cons_self (Option.some.inj hhead),
        cons_ne_nil _ _⟩
  rw [run, step, if_neg fun h ↦ hpos h.1, if_pos ⟨rfl, hfollows⟩, run_letters hdots rest (by omega)]

end AddressScan

/-- A text of four numbers between dots is accepted, whatever the numbers are. -/
theorem assertCorrectIPString_fields {first second third fourth : List UInt8}
    (hfields : ∀ field ∈ [first, second, third, fourth],
      field ≠ [] ∧ ∀ letter ∈ field, letter ≠ 0x2E ∧ letter ≠ 0) :
    assertCorrectIPString stack
        (first ++ 0x2E :: second ++ 0x2E :: third ++ 0x2E :: fourth) =
      some ((([first, second, third, fourth].map myAtoi)).map UInt16.toUInt8) := by
  simp only [forall_mem_cons, not_mem_nil, false_imp_iff, implies_true, and_true] at hfields
  obtain ⟨⟨hfirst, hfirstDots⟩, ⟨hsecond, hsecondDots⟩, ⟨hthird, hthirdDots⟩, hfourth,
    hfourthDots⟩ := hfields
  have hread (text rest : List UInt8) (hdots : ∀ letter ∈ text, letter ≠ 0x2E ∧ letter ≠ 0) :
      myAtoi (text ++ 0x2E :: rest) = myAtoi text := by
    rw [myAtoi, myAtoi, takeWhile_append_of_pos
      fun letter hletter ↦ decide_eq_true (hdots letter hletter).1,
      takeWhile_cons_of_neg (by decide), append_nil,
      takeWhile_eq_self_iff.mpr fun letter hletter ↦ decide_eq_true (hdots letter hletter).1]
  have hpositive : first.length ≠ 0 := mt length_eq_zero_iff.mp hfirst
  have hrun : AddressScan.run (first ++ 0x2E :: second ++ 0x2E :: third ++ 0x2E :: fourth) 0
      ⟨0, stack, 0, 0⟩ = ⟨4, Function.update (Function.update (Function.update
        (Function.update stack 0 (myAtoi first).toUInt8) 1 (myAtoi second).toUInt8) 2
          (myAtoi third).toUInt8) 3 (myAtoi fourth).toUInt8, 3,
        (first ++ 0x2E :: second ++ 0x2E :: third).length⟩ := by
    simp only [append_assoc, cons_append]
    rw [AddressScan.run_first hfirst fun letter hletter ↦ (hfirstDots letter hletter).1,
      AddressScan.run_dot hsecond (fun letter hletter ↦ (hsecondDots letter hletter).1) _ hpositive,
      AddressScan.run_dot hthird (fun letter hletter ↦ (hthirdDots letter hletter).1) _ (by omega),
      ← append_nil fourth, AddressScan.run_dot hfourth
        (fun letter hletter ↦ (hfourthDots letter hletter).1) _ (by omega), append_nil,
      hread first _ hfirstDots, hread second _ hsecondDots, hread third _ hthirdDots]
    simp only [AddressScan.run, AddressScan.store, length_append, length_cons,
      AddressScan.mk.injEq, true_and, zero_add]
    omega
  -- the letter behind the last dot
  have hafter : (first ++ 0x2E :: second ++ 0x2E :: third ++ 0x2E :: fourth).getD
      ((first ++ 0x2E :: second ++ 0x2E :: third).length + 1) 0 ≠ 0 := by
    obtain ⟨letter, rest, rfl⟩ := exists_cons_of_ne_nil hfourth
    rw [getD_append_right _ _ _ _ (Nat.le_add_right _ _), Nat.add_sub_cancel_left]
    exact (hfourthDots letter mem_cons_self).2
  rw [assertCorrectIPString, hrun]
  exact if_pos ⟨rfl, hafter⟩

/-- An address is accepted and its bytes are copied. -/
theorem IsAddress.accepted {bytes : List UInt8} (haddress : IsAddress text bytes) :
    assertCorrectIPString stack text = some bytes := by
  obtain ⟨first, second, third, fourth, a, b, c, d, rfl, hfirst, hsecond, hthird, hfourth, rfl⟩ :=
    haddress
  rw [assertCorrectIPString_fields stack (by
    simp only [forall_mem_cons, not_mem_nil, false_imp_iff, implies_true, and_true]
    exact ⟨hfirst.letters, hsecond.letters, hthird.letters, hfourth.letters⟩)]
  simp only [map_cons, map_nil, hfirst.myAtoi_eq, hsecond.myAtoi_eq, hthird.myAtoi_eq,
    hfourth.myAtoi_eq]

/-! ### Dotted quads -/

theorem length_decimal {value : ℕ} (hvalue : value < 256) :
    (decimal value).length ≤ 3 ∧ ((decimal value).length < 3 ↔ value < 100) :=
  (by decide +kernel : ∀ value < 256,
    (decimal value).length ≤ 3 ∧ ((decimal value).length < 3 ↔ value < 100)) value hvalue

theorem isField_decimal (byte : UInt8) : IsField (decimal byte.toNat) byte := by
  have hpositive := length_pos_of_ne_nil (decimal_ne_nil byte.toNat)
  have hlength := (length_decimal byte.toNat_lt).1
  rw [decimal, length_map] at hpositive hlength
  exact ⟨decimalDigits byte.toNat, fun _ hdigit ↦ lt_of_mem_decimalDigits hdigit, hpositive,
    hlength, rfl, positional_decimalDigits _⟩

/-- The address of a dotted quad is read back, whatever the stack held. -/
theorem assertCorrectIPString_dottedQuad :
    assertCorrectIPString stack (dottedQuad first second third fourth) =
      some [first, second, third, fourth] :=
  IsAddress.accepted stack ⟨_, _, _, _, first, second, third, fourth, rfl, isField_decimal first,
    isField_decimal second, isField_decimal third, isField_decimal fourth, rfl⟩

/-- A dotted quad has fifteen characters only if all its numbers have three digits. -/
theorem length_dottedQuad_lt_iff :
    (dottedQuad first second third fourth).length < 15 ↔
      ∃ byte ∈ [first, second, third, fourth], byte < 100 := by
  have hbyte : ∀ byte : UInt8, byte < 100 ↔ byte.toNat < 100 := fun _ ↦ UInt8.lt_iff_toNat_lt
  have hfirst := length_decimal first.toNat_lt
  have hsecond := length_decimal second.toNat_lt
  have hthird := length_decimal third.toNat_lt
  have hfourth := length_decimal fourth.toNat_lt
  simp only [dottedQuad, length_append, length_cons, mem_cons, not_mem_nil,
    or_false, exists_eq_or_imp, exists_eq_left, hbyte]
  omega

/-! ### Which texts are taken for an address -/

variable (text)

/-- How many bytes of `tempAddr` are written, from the first one on. -/
def writtenBytes : ℕ :=
  (AddressScan.run text 0 ⟨0, stack, 0, 0⟩).byteOffset

/-- The check of a text is right: it accepts an address and copies its bytes, it refuses everything
else, and it writes no more than the four bytes of the array. -/
def ChecksExactly : Prop :=
  (∀ bytes, assertCorrectIPString stack text = some bytes ↔ IsAddress text bytes) ∧
    writtenBytes stack text ≤ 4

/-- The dots of a text that another letter follows. -/
def fieldDots : List UInt8 → ℕ
  | [] => 0
  | letter :: rest =>
    (if letter = 0x2E ∧ rest.head? ≠ some 0x2E ∧ rest ≠ [] then 1 else 0) + fieldDots rest

namespace AddressScan

/-- Past the first position each such dot is counted and writes a byte. -/
theorem run_counts {cursorPos : ℕ} (hpos : cursorPos ≠ 0) (scan : AddressScan) :
    (run text cursorPos scan).countDots = scan.countDots + fieldDots text ∧
      (run text cursorPos scan).byteOffset = scan.byteOffset + fieldDots text := by
  induction text generalizing cursorPos scan with
  | nil => exact ⟨rfl, rfl⟩
  | cons letter rest ih =>
    obtain ⟨hdots, hbytes⟩ := ih (Nat.succ_ne_zero cursorPos) (scan.step cursorPos letter rest)
    rw [run, hdots, hbytes, step, if_neg fun h ↦ hpos h.1, fieldDots]
    by_cases hcounts : letter = 0x2E ∧ rest.head? ≠ some 0x2E ∧ rest ≠ []
    · rw [if_pos hcounts, if_pos hcounts]
      exact ⟨add_assoc _ _ _, add_assoc _ _ _⟩
    · rw [if_neg hcounts, if_neg hcounts, zero_add]
      exact ⟨rfl, rfl⟩

/-- A letter stands behind the last dot that was counted. -/
theorem run_lastDotPos {text : List UInt8} (hnul : 0 ∉ text) (before rest : List UInt8)
    (htext : text = before ++ rest) (scan : AddressScan)
    (hscan : scan.countDots = 0 ∨ text.getD (scan.lastDotPos + 1) 0 ≠ 0) :
    (run rest before.length scan).countDots = 0 ∨
      text.getD ((run rest before.length scan).lastDotPos + 1) 0 ≠ 0 := by
  induction rest generalizing before scan with
  | nil => exact hscan
  | cons letter rest ih =>
    have hnext := ih (before ++ [letter]) (by rw [htext, append_assoc]; rfl)
      (scan.step before.length letter rest)
    rw [length_append, length_singleton] at hnext
    apply hnext
    rw [step]
    split_ifs with hfirst hcounts
    · exact hscan
    · obtain ⟨next, more, rfl⟩ := exists_cons_of_ne_nil hcounts.2.2
      refine .inr ?_
      rw [htext, getD_append_right _ _ _ _ (Nat.le_add_right _ _), Nat.add_sub_cancel_left]
      rintro rfl
      exact hnul (htext ▸ mem_append_right _ (mem_cons_of_mem _ mem_cons_self))
    · exact hscan

end AddressScan

section

variable {stack : ℕ → UInt8} {text : List UInt8}

/-- The first letter starts a number unless it is a dot. -/
theorem run_start (stack : ℕ → UInt8) (text : List UInt8) :
    (AddressScan.run text 0 ⟨0, stack, 0, 0⟩).countDots = fieldDots text ∧
      writtenBytes stack text =
        fieldDots text + if text = [] ∨ text.head? = some 0x2E then 0 else 1 := by
  rw [writtenBytes]
  cases text with
  | nil => exact ⟨rfl, rfl⟩
  | cons letter rest =>
    obtain ⟨hdots, hbytes⟩ := AddressScan.run_counts rest Nat.one_ne_zero
      (AddressScan.step ⟨0, stack, 0, 0⟩ 0 letter rest)
    rw [AddressScan.run, hdots, hbytes, AddressScan.step, fieldDots]
    by_cases hdot : letter = 0x2E
    · have hhead : letter :: rest = [] ∨ (letter :: rest).head? = some 0x2E :=
        .inr (congrArg some hdot)
      rw [if_neg fun h ↦ h.2 hdot, if_pos hhead]
      by_cases hcounts : letter = 0x2E ∧ rest.head? ≠ some 0x2E ∧ rest ≠ []
      · rw [if_pos hcounts, if_pos hcounts]
        exact ⟨rfl, rfl⟩
      · rw [if_neg hcounts, if_neg hcounts]
        exact ⟨rfl, rfl⟩
    · rw [if_pos ⟨rfl, hdot⟩, if_neg fun h ↦ hdot h.1]
      have hhead : ¬ (letter :: rest = [] ∨ (letter :: rest).head? = some 0x2E) := by
        simp [hdot]
      rw [if_neg hhead, zero_add]
      exact ⟨zero_add _, add_comm _ _⟩

/-- A text is accepted exactly if it has three dots that another letter follows. -/
theorem assertCorrectIPString_isSome_iff (stack : ℕ → UInt8) (hnul : 0 ∉ text) :
    (∃ bytes, assertCorrectIPString stack text = some bytes) ↔ fieldDots text = 3 := by
  have hcount := (run_start stack text).1
  have hlast := AddressScan.run_lastDotPos hnul [] text rfl ⟨0, stack, 0, 0⟩ (.inl rfl)
  rw [length_nil, hcount] at hlast
  rw [assertCorrectIPString, hcount]
  constructor
  · rintro ⟨bytes, hsome⟩
    split_ifs at hsome with haccepted
    exact haccepted.1
  · intro hthree
    rw [hthree] at hlast ⊢
    exact ⟨_, if_pos ⟨rfl, hlast.resolve_left (by decide)⟩⟩

end

/-- The check of a text is right exactly for addresses, texts with at most two dots that another
letter follows, and texts that begin with a dot and have four of these. -/
theorem assertCorrectIPString_exact_iff {text : List UInt8} (hnul : 0 ∉ text) :
    ChecksExactly stack text ↔
      (∃ bytes, IsAddress text bytes) ∨ fieldDots text ≤ 2 ∨
        (fieldDots text = 4 ∧ text.head? = some 0x2E) := by
  have hsome := assertCorrectIPString_isSome_iff stack hnul
  have hwritten := (run_start stack text).2
  constructor
  · rintro ⟨hexact, hfits⟩
    by_cases haddress : ∃ bytes, IsAddress text bytes
    · exact .inl haddress
    · have hdots : fieldDots text ≠ 3 := by
        intro hthree
        obtain ⟨bytes, hbytes⟩ := hsome.mpr hthree
        exact haddress ⟨bytes, (hexact bytes).mp hbytes⟩
      rw [hwritten] at hfits
      split_ifs at hfits with hhead
      · obtain rfl | hhead := hhead
        · exact .inr (.inl (Nat.zero_le 2))
        · by_cases hfour : fieldDots text = 4
          · exact .inr (.inr ⟨hfour, hhead⟩)
          · exact .inr (.inl (by omega))
      · exact .inr (.inl (by omega))
  · intro hcases
    have hdots (bytes : List UInt8) (haddress : IsAddress text bytes) : fieldDots text = 3 :=
      hsome.mp ⟨bytes, haddress.accepted stack⟩
    refine ⟨fun bytes ↦ ⟨fun hbytes ↦ ?_, fun haddress ↦ haddress.accepted stack⟩, ?_⟩
    · have hthree := hsome.mp ⟨bytes, hbytes⟩
      obtain ⟨other, haddress⟩ | hfew | hfour := hcases
      · have hother := haddress.accepted stack
        rwa [Option.some.inj (hother.symm.trans hbytes)] at haddress
      · omega
      · omega
    · rw [hwritten]
      obtain ⟨bytes, haddress⟩ | hfew | ⟨hfour, hhead⟩ := hcases
      · have hthree := hdots bytes haddress
        split_ifs <;> omega
      · split_ifs <;> omega
      · rw [if_pos (.inr hhead)]
        omega

/-- An address with a field of three digits is checked as it should be. -/
theorem address_checks :
    ChecksExactly (fun _ ↦ 0) (ascii "192.168.0.7") :=
  (assertCorrectIPString_exact_iff (fun _ ↦ 0) (by decide)).mpr
    (.inl ⟨[192, 168, 0, 7], ascii "192", ascii "168", ascii "0", ascii "7", 192, 168, 0, 7,
      by decide, ⟨[1, 9, 2], by decide⟩, ⟨[1, 6, 8], by decide⟩, ⟨[0], by decide⟩,
      ⟨[7], by decide⟩, rfl⟩)

/-- A number above 255 is accepted with its low byte, letters are accepted as a number, and a fifth
number is written behind the array. -/
theorem wrong_addresses_accepted :
    assertCorrectIPString (fun _ ↦ 0) (ascii "300.1.2.3") = some [44, 1, 2, 3] ∧
      assertCorrectIPString (fun _ ↦ 0) (ascii "a.1.2.3") = some [49, 1, 2, 3] ∧
      writtenBytes (fun _ ↦ 0) (ascii "1.2.3.4.5") = 5 := by
  decide

end XBlast.Settings
