import XBlast.Script.LineSteps

/-!
# Arithmetic in a script line

The line `v=x op y` is executed from its last argument to the first: `y` goes to the accumulator,
the operator is noted, `x` is combined with the accumulator, and `v` receives the result. A
variable and a number on the left of an operator are combined by different code. The variable
receives the result of the operation in the written order, except that a number minus or divided by
something is computed the other way round, and that the smallest number modulo minus one is refused
by the processor. A number is read by `strtol`: with a zero in front it is octal, and above the
largest `int` it is clipped. A line with such a number is right only by coincidence
(`assigns_iff`).
-/

set_option autoImplicit false
set_option relaxedAutoImplicit false

namespace XBlast.Script

open Foundation List Option

variable {μ : Type}

/-! ### Operators -/

inductive ArithmeticOperator
  | plus
  | minus
  | mult
  | divide
  | mod
  | shiftUp
  | shiftDown
  deriving DecidableEq, Repr

def ArithmeticOperator.toOperator : ArithmeticOperator → Operator
  | .plus => .plus
  | .minus => .minus
  | .mult => .mult
  | .divide => .divide
  | .mod => .mod
  | .shiftUp => .shiftUp
  | .shiftDown => .shiftDown

def ArithmeticOperator.text : ArithmeticOperator → Text
  | .plus => ascii "+"
  | .minus => ascii "-"
  | .mult => ascii "*"
  | .divide => ascii "/"
  | .mod => ascii "%"
  | .shiftUp => ascii "<<"
  | .shiftDown => ascii ">>"

/-- The result of an operation on integers. Division is towards zero. -/
def ArithmeticOperator.exact : ArithmeticOperator → ℤ → ℤ → ℤ
  | .plus, first, second => first + second
  | .minus, first, second => first - second
  | .mult, first, second => first * second
  | .divide, first, second => first.tdiv second
  | .mod, first, second => first.tmod second
  | .shiftUp, first, second => first * 2 ^ second.toNat
  | .shiftDown, first, second => first / 2 ^ second.toNat

/-- The right operands for which an operation has a result. -/
def ArithmeticOperator.Defined : ArithmeticOperator → ℤ → Prop
  | .divide, second | .mod, second => second ≠ 0
  | .shiftUp, second | .shiftDown, second => 0 ≤ second ∧ second < 32
  | _, _ => True

variable (op : ArithmeticOperator) (literal : Bool)

/-- The operations whose result is not the one of the written order, the left operand being a number
in the line or a variable. -/
def ArithmeticOperator.Misfires (first second : ℤ) : Prop :=
  literal = true ∧ (op = .minus ∧ first ≠ second ∨ op = .divide ∧ |first| ≠ |second|) ∨
    op = .mod ∧ first = -2 ^ 31 ∧ second = -1

instance (op : ArithmeticOperator) (literal : Bool) (first second : ℤ) :
    Decidable (op.Misfires literal first second) :=
  inferInstanceAs (Decidable (_ ∧ _ ∨ _))

/-- An operation that the processor does not refuse has a result in 32 bits. -/
def ArithmeticOperator.Computes (left right result : ℤ) : Prop :=
  ¬((op = .divide ∨ op = .mod) ∧ (right = 0 ∨ left = -2 ^ 31 ∧ right = -1)) ∧
    (op.exact left right).bmod (2 ^ 32) = result

/-- The operation in the order in which it is performed. -/
def ArithmeticOperator.Yields (first second result : ℤ) : Prop :=
  if literal = true ∧ (op = .minus ∨ op = .divide) then op.Computes second first result
  else op.Computes first second result

/-! ### Machine arithmetic -/

/-- A number in the range of 32 bits stays as it is. -/
theorem bmod_eq_of_range {number : ℤ} (hrange : -2 ^ 31 ≤ number ∧ number < 2 ^ 31) :
    number.bmod (2 ^ 32) = number :=
  Int.bmod_eq_of_le (by omega) (by omega)

theorem toNat_smod_32 {count : Int32} (hcount : 0 ≤ count.toInt ∧ count.toInt < 32) :
    (count.toBitVec.smod 32).toNat = count.toInt.toNat := by
  have hsmall : ∀ number < 32, ((Int32.ofNat number).toBitVec.smod 32).toNat = number := by decide
  have hvalue : count = Int32.ofNat count.toInt.toNat := by
    rw [← Int32.toInt_inj, Int32.toInt_ofNat_of_lt (by omega)]
    omega
  rw [hvalue, hsmall _ (by omega), ← hvalue]

theorem toInt_shiftUp {value count : Int32} (hcount : 0 ≤ count.toInt ∧ count.toInt < 32) :
    (value <<< count).toInt = (value.toInt * 2 ^ count.toInt.toNat).bmod (2 ^ 32) := by
  rw [← Int32.toInt_toBitVec, Int32.toBitVec_shiftLeft, BitVec.shiftLeft_eq', toNat_smod_32 hcount,
    BitVec.toInt_shiftLeft, Nat.shiftLeft_eq, ← Int32.toInt_toBitVec value,
    BitVec.toInt_eq_toNat_bmod, Int.bmod_mul_bmod]
  rfl

theorem toInt_shiftDown {value count : Int32} (hcount : 0 ≤ count.toInt ∧ count.toInt < 32) :
    (value >>> count).toInt = value.toInt / 2 ^ count.toInt.toNat := by
  rw [← Int32.toInt_toBitVec, Int32.toBitVec_shiftRight, BitVec.toInt_sshiftRight',
    toNat_smod_32 hcount, Int.shiftRight_eq_div_pow, Int32.toInt_toBitVec]
  rfl

theorem divisionFaults_iff {dividend divisor : Int32} : divisionFaults dividend divisor ↔
    divisor.toInt = 0 ∨ dividend.toInt = -2 ^ 31 ∧ divisor.toInt = -1 := by
  rw [divisionFaults, ← Int32.toInt_inj, ← Int32.toInt_inj, ← Int32.toInt_inj]
  rfl

/-- Two numbers divide each other with the same result only if they have the same size. -/
theorem tdiv_eq_tdiv_iff {first second : ℤ} (hfirst : first ≠ 0) (hsecond : second ≠ 0) :
    second.tdiv first = first.tdiv second ↔ |first| = |second| := by
  have hsmaller : ∀ {small large : ℤ}, |small| < |large| → small ≠ 0 →
      large.tdiv small ≠ small.tdiv large := by
    intro small large hlt hsmall heq
    rw [Int.abs_eq_natAbs, Int.abs_eq_natAbs, Int.ofNat_lt] at hlt
    have hzero : (small.tdiv large).natAbs = 0 := by
      rw [Int.natAbs_tdiv]
      exact Nat.div_eq_of_lt hlt
    have hpos : 0 < (large.tdiv small).natAbs := by
      rw [Int.natAbs_tdiv]
      exact Nat.div_pos hlt.le (Int.natAbs_pos.mpr hsmall)
    rw [heq, hzero] at hpos
    exact lt_irrefl 0 hpos
  constructor
  · intro heq
    by_contra hne
    obtain hlt | hlt := lt_or_gt_of_ne hne
    · exact hsmaller hlt hfirst heq
    · exact hsmaller hlt hsecond heq.symm
  · intro habs
    obtain rfl | rfl := abs_eq_abs.mp habs
    · rfl
    · rw [Int.tdiv_neg, Int.neg_tdiv]

/-- The combination of the accumulator with a left operand. -/
def combine : Option Operator → Int32 → Int32 → Option Int32 :=
  if literal then combineNumeric else combineVariable

section

variable {op : ArithmeticOperator} {first second : Int32}

section

variable (hshift : op = .shiftUp ∨ op = .shiftDown → 0 ≤ second.toInt ∧ second.toInt < 32)

include hshift

/-- A variable on the left is combined in the written order. -/
theorem combineVariable_eq :
    ∃ value : Int32, value.toInt = (op.exact first.toInt second.toInt).bmod (2 ^ 32) ∧
      combineVariable (some op.toOperator) first second =
        if (op = .divide ∨ op = .mod) ∧ divisionFaults first second then none else some value := by
  have hrange (value : Int32) : value.toInt.bmod (2 ^ 32) = value.toInt :=
    bmod_eq_of_range ⟨value.le_toInt, value.toInt_lt⟩
  cases op with
  | plus => exact ⟨second + first, by rw [Int32.toInt_add, Int.add_comm]; rfl, rfl⟩
  | minus => exact ⟨first - second, Int32.toInt_sub _ _, rfl⟩
  | mult => exact ⟨second * first, by rw [Int32.toInt_mul, Int.mul_comm]; rfl, rfl⟩
  | divide =>
    refine ⟨first / second, Int32.toInt_div _ _, ?_⟩
    simp only [true_or, true_and]
    rfl
  | mod =>
    refine ⟨first % second, ?_, ?_⟩
    · rw [ArithmeticOperator.exact, ← Int32.toInt_mod, hrange]
    · simp only [or_true, true_and]
      rfl
  | shiftUp => exact ⟨first <<< second, toInt_shiftUp (hshift (.inl rfl)), rfl⟩
  | shiftDown =>
    refine ⟨first >>> second, ?_, rfl⟩
    rw [ArithmeticOperator.exact, ← toInt_shiftDown (hshift (.inr rfl)), hrange]

theorem combineVariable_iff (result : ℤ) :
    (∃ value, combineVariable (some op.toOperator) first second = some value ∧
        value.toInt = result) ↔ op.Computes first.toInt second.toInt result := by
  obtain ⟨value, hvalue, hcombine⟩ : ∃ value : Int32, _ ∧ combineVariable _ first second = _ :=
    combineVariable_eq hshift
  rw [hcombine, ArithmeticOperator.Computes, ← divisionFaults_iff, ← hvalue]
  split_ifs with hfaults
  · exact iff_of_false (fun h ↦ nomatch h.choose_spec.1) fun h ↦ h.1 hfaults
  · rw [and_iff_right hfaults]
    exact ⟨fun ⟨_, hsame, hresult⟩ ↦ some.inj hsame ▸ hresult, fun hresult ↦ ⟨value, rfl, hresult⟩⟩

/-- A number on the left is subtracted from and divides the right operand. -/
theorem combine_iff {literal : Bool} (result : ℤ) :
    (∃ value, combine literal (some op.toOperator) first second = some value ∧
        value.toInt = result) ↔ op.Yields literal first.toInt second.toInt result := by
  rw [ArithmeticOperator.Yields]
  split_ifs with hswaps
  · have hnoShift : op = .shiftUp ∨ op = .shiftDown → 0 ≤ first.toInt ∧ first.toInt < 32 := by
      obtain ⟨-, rfl | rfl⟩ := hswaps <;> exact nofun
    refine Iff.trans ?_ (combineVariable_iff hnoShift result)
    obtain ⟨rfl, rfl | rfl⟩ := hswaps <;> exact Iff.rfl
  · refine Iff.trans ?_ (combineVariable_iff hshift result)
    cases literal with
    | false => exact Iff.rfl
    | true =>
      cases op with
      | minus | divide => exact absurd ⟨rfl, by simp⟩ hswaps
      | _ => exact Iff.rfl

end

variable (hdefined : op.Defined second.toInt)
  (hrange : -2 ^ 31 ≤ op.exact first.toInt second.toInt ∧
    op.exact first.toInt second.toInt < 2 ^ 31)

include hdefined hrange

/-- The written order gives the exact result, unless the processor refuses. -/
theorem computes_exact_iff : op.Computes first.toInt second.toInt
      (op.exact first.toInt second.toInt) ↔
    ¬(op = .mod ∧ first.toInt = -2 ^ 31 ∧ second.toInt = -1) := by
  rw [ArithmeticOperator.Computes, and_iff_left (bmod_eq_of_range hrange), not_iff_not]
  constructor
  · rintro ⟨rfl | rfl, hfaults⟩
    · obtain ⟨hfirst, hsecond⟩ := hfaults.resolve_left hdefined
      rw [ArithmeticOperator.exact, hfirst, hsecond] at hrange
      exact absurd hrange.2 (by decide)
    · exact ⟨rfl, hfaults.resolve_left hdefined⟩
  · rintro ⟨rfl, hfaults⟩
    exact ⟨.inr rfl, .inr hfaults⟩

/-- An operation whose operands are read as they are written gives the exact result unless it
misfires. -/
theorem yields_exact_iff {literal : Bool} (hfirst : literal = true → 0 ≤ first.toInt) :
    op.Yields literal first.toInt second.toInt (op.exact first.toInt second.toInt) ↔
      ¬op.Misfires literal first.toInt second.toInt := by
  rw [ArithmeticOperator.Yields]
  split_ifs with hswaps
  · obtain ⟨rfl, rfl | rfl⟩ := hswaps
    · have hupper := second.toInt_lt
      have hopposite : (second.toInt - first.toInt).bmod (2 ^ 32) = second.toInt - first.toInt := by
        have hnonneg := hfirst rfl
        rw [ArithmeticOperator.exact] at hrange
        exact bmod_eq_of_range ⟨by omega, by omega⟩
      simp only [ArithmeticOperator.Computes, ArithmeticOperator.Misfires,
        ArithmeticOperator.exact, hopposite, reduceCtorEq, false_and, not_false_eq_true,
        true_and, or_false, ne_eq, not_not]
      omega
    · have hmisfires : ArithmeticOperator.divide.Misfires true first.toInt second.toInt ↔
          |first.toInt| ≠ |second.toInt| := by
        simp only [ArithmeticOperator.Misfires, true_and, reduceCtorEq, false_and, or_false,
          false_or]
      rw [hmisfires, not_not]
      by_cases hzero : first.toInt = 0
      · refine iff_of_false (fun h ↦ h.1 ⟨.inl rfl, .inl hzero⟩) fun habs ↦ ?_
        rw [hzero, abs_zero] at habs
        exact hdefined (abs_eq_zero.mp habs.symm)
      · have hone : first ≠ -1 := by
          rintro rfl
          exact absurd (hfirst rfl) (by decide)
        have hopposite : (second.toInt.tdiv first.toInt).bmod (2 ^ 32) =
            second.toInt.tdiv first.toInt := by
          rw [← Int32.toInt_div_of_ne_right _ _ hone]
          exact bmod_eq_of_range ⟨Int32.le_toInt _, Int32.toInt_lt _⟩
        have hfaults : ¬(first.toInt = 0 ∨ second.toInt = -2 ^ 31 ∧ first.toInt = -1) := by
          have hnonneg := hfirst rfl
          omega
        rw [← tdiv_eq_tdiv_iff hzero hdefined, ArithmeticOperator.Computes,
          and_iff_right fun h ↦ hfaults h.2, ArithmeticOperator.exact, hopposite,
          ArithmeticOperator.exact]
  · refine (computes_exact_iff hdefined hrange).trans (not_congr (or_iff_right ?_).symm)
    rintro ⟨hliteral, ⟨hop, -⟩ | ⟨hop, -⟩⟩
    · exact hswaps ⟨hliteral, .inl hop⟩
    · exact hswaps ⟨hliteral, .inr hop⟩

end

/-! ### Operands -/

variable {name : Text}

theorem lookup_cons_of_eq {entry : Variable} (hname : entry.name = name)
    (variableList : List Variable) : lookup (entry :: variableList) name = some entry := by
  rw [lookup, find?_cons, hname, decide_eq_true rfl]

theorem lookup_cons_of_ne {entry : Variable} (hname : entry.name ≠ name)
    (variableList : List Variable) :
    lookup (entry :: variableList) name = lookup variableList name := by
  rw [lookup, find?_cons, decide_eq_false hname]
  rfl

/-- Whether an operand is a number, the value that is written and the one that is read: a declared
variable, or a decimal or hexadecimal number that is not the name of one. -/
inductive Denotes (variableList : List Variable) (word : Text) : Bool → ℤ → Int32 → Prop
  | name {entry : Variable} (hentry : lookup variableList word = some entry) :
      Denotes variableList word false entry.value.toInt entry.value
  | decimal {digit : ℕ} {digits : List ℕ} (hdigits : ∀ other ∈ digit :: digits, other < 10)
      (hword : word = (digit :: digits).map digitLetter) (hfree : lookup variableList word = none) :
      Denotes variableList word true (positional 10 0 (digit :: digits))
        (Int32.ofInt (readDigits (if digit = 0 then 8 else 10) (digit :: digits)))
  | hexadecimal {letters : Text} {digits : List ℕ}
      (hletters : letters.map digitValue = digits.map some)
      (hdigits : ∀ digit ∈ digits, digit < 16)
      (hword : word = ascii "0x" ++ letters) (hfree : lookup variableList word = none) :
      Denotes variableList word true (positional 16 0 digits)
        (Int32.ofInt (readDigits 16 digits))

variable {variableList : List Variable} {literal : Bool} {value : ℤ} {read : Int32}

/-- What the engine makes of an operand. -/
theorem Denotes.decodeArgument_eq {operand : Operand}
    (hdenotes : Denotes variableList operand.word literal value read) (stale : Int32) :
    ∃ text, decodeArgument operand.word stale variableList =
      ⟨if literal then .numeric else .variable, read, text⟩ := by
  rw [operand.decodeArgument_eq]
  cases hdenotes with
  | name hentry =>
    rw [hentry]
    exact ⟨_, rfl⟩
  | @decimal digit digits hdigits hword hfree =>
    have hhead : (isDigit (digitLetter digit) || digitLetter digit == 0x2D) = true :=
      (by decide : ∀ digit < 10, (isDigit (digitLetter digit) || digitLetter digit == 0x2D) = true)
        digit (hdigits digit mem_cons_self)
    rw [hfree, hword, strtol_digits hdigits, map_cons, head?_cons, any_some, if_pos hhead]
    exact ⟨_, rfl⟩
  | hexadecimal hletters hdigits hword hfree =>
    rw [hfree, hword]
    rw [if_pos rfl, strtol_hexadecimal hletters]
    exact ⟨_, rfl⟩

/-- The number that is read is not negative unless the written one is, and not larger. -/
theorem Denotes.read_bounds {word : Text}
    (hdenotes : Denotes variableList word literal value read) :
    (literal = true → 0 ≤ value) ∧ (0 ≤ value → 0 ≤ read.toInt) ∧ read.toInt ≤ value := by
  have hread (base : ℕ) (digits : List ℕ) :
      (Int32.ofInt (readDigits base digits)).toInt = readDigits base digits := by
    have hclipped : readDigits base digits ≤ 2 ^ 31 - 1 := min_le_left _ _
    rw [Int32.toInt_ofInt]
    exact bmod_eq_of_range ⟨by omega, by omega⟩
  cases hdenotes with
  | name hentry => exact ⟨nofun, id, le_rfl⟩
  | @decimal digit digits hdigits hword hfree =>
    have hle := readDigits_le (by decide : 0 < 10)
      (by split_ifs <;> decide : (if digit = 0 then 8 else 10) ≤ 10) (digit :: digits)
    rw [hread]
    omega
  | @hexadecimal letters digits hletters hdigits hword hfree =>
    have hle := readDigits_le (by decide : 0 < 16) le_rfl digits
    rw [hread]
    omega

/-! ### Variables -/

/-- The new value of a writable variable is found, and every other variable is found as before. -/
theorem updateVariable_spec (value : Int32) {entry : Variable}
    (hentry : lookup variableList name = some entry) (hwritable : entry.readOnly = false) :
    ∃ updated, updateVariable name value variableList = some updated ∧
      lookup updated name = some { entry with value := value } ∧
      ∀ other ≠ name, lookup updated other = lookup variableList other := by
  induction variableList with
  | nil => exact nomatch hentry
  | cons first variableList ih =>
    rw [updateVariable]
    by_cases hname : first.name = name
    · rw [lookup_cons_of_eq hname] at hentry
      obtain rfl := some.inj hentry
      rw [if_pos hname, if_neg (hwritable ▸ Bool.false_ne_true)]
      have hnew : ({ first with value := value } : Variable).name = name := hname
      refine ⟨_, rfl, lookup_cons_of_eq hnew _, fun other hother ↦ ?_⟩
      have hne : first.name ≠ other := fun h ↦ hother (h.symm.trans hname)
      have hnewNe : ({ first with value := value } : Variable).name ≠ other := hne
      rw [lookup_cons_of_ne hne, lookup_cons_of_ne hnewNe]
    · rw [lookup_cons_of_ne hname] at hentry
      obtain ⟨updated, hupdated, hnew, hothers⟩ := ih hentry
      rw [if_neg hname, hupdated]
      refine ⟨first :: updated, rfl, ?_, fun other hother ↦ ?_⟩
      · rw [lookup_cons_of_ne hname, hnew]
      · by_cases hfirst : first.name = other
        · rw [lookup_cons_of_eq hfirst, lookup_cons_of_eq hfirst]
        · rw [lookup_cons_of_ne hfirst, lookup_cons_of_ne hfirst, hothers other hother]

/-! ### The line -/

/-- A line `v=x op y`. The name does not begin like a label, a declaration or a jump, and every
argument fits its buffer. -/
structure Assignment where
  target : Operand
  first : Operand
  op : ArithmeticOperator
  second : Operand
  not_label : isLabel target.word = false
  not_declaration : ¬ascii "VAR" <+: target.word
  not_jump : ¬ascii "GOTO" <+: target.word
  fits : target.word.length < 50 ∧ first.word.length < 50 ∧ second.word.length < 50

def Assignment.words (line : Assignment) : List Text :=
  [line.target.word, ascii "=", line.first.word, line.op.text, line.second.word]

def Assignment.text (line : Assignment) : Text := line.words.flatten

theorem ArithmeticOperator.decodeArgument_eq (op : ArithmeticOperator) (stale : Int32)
    (variableList : List Variable) :
    ∃ value, decodeArgument op.text stale variableList =
      ⟨.operator op.toOperator, value, none⟩ := by
  cases op <;> exact ⟨_, rfl⟩

variable {text : Option Text}

section

variable (host : ScriptHost μ) {args : List Argument} {data : ScriptData μ} {registers : Registers}

theorem performArgument_operand (index : ℕ) {literal : Bool} {value : Int32}
    (hargument : args[index + 1]? = some ⟨if literal then .numeric else .variable, value, text⟩) :
    performArgument host args (data, registers) (index + 1) =
      (registers.operand (combine literal) value).map fun next ↦ (data, next) := by
  rw [performArgument, hargument]
  cases literal <;> rfl

theorem performArgument_operator {index : ℕ} {op : Operator} {value : Int32}
    (hargument : args[index]? = some ⟨.operator op, value, text⟩) :
    performArgument host args (data, registers) index =
      some (data, { registers with arithOpInLine := some op }) := by
  rw [performArgument, hargument]
  rfl

theorem performArgument_target {value number : Int32}
    (hargument : args[0]? = some ⟨.variable, value, some name⟩)
    (hassign : args[1]? = some ⟨.operator .eq, number, text⟩)
    (hregisters : registers.accumulatorInUse = true) :
    performArgument host args (data, registers) 0 =
      (updateVariable name registers.arithAccumulator data.variableList).map fun updated ↦
        ({ data with variableList := updated }, registers) := by
  rw [performArgument, hargument]
  simp only [executeData, executeOperand, if_true, hassign, hregisters, any_some,
    decide_true, and_self, getD_some]

end

section

variable (line : Assignment) {entry : Variable} {literalSecond : Bool} {valueSecond : ℤ}
  {readSecond : Int32}

/-- The effect of the line: the combined value goes to the variable. -/
theorem performArguments_assignment (host : ScriptHost μ) {data : ScriptData μ}
    (hentry : lookup data.variableList line.target.word = some entry)
    (hfirst : Denotes data.variableList line.first.word literal value read)
    (hsecond : Denotes data.variableList line.second.word literalSecond valueSecond readSecond) :
    ∃ values, performArguments host line.words data =
      (combine literal (some line.op.toOperator) read readSecond).bind fun result ↦
        (updateVariable line.target.word result data.variableList).map fun updated ↦
          { data with variableList := updated, values := values } := by
  generalize hargs : decodeArguments line.words data = args
  obtain ⟨secondText, hsecondArgument⟩ := hsecond.decodeArgument_eq (data.values 4)
  obtain ⟨firstText, hfirstArgument⟩ := hfirst.decodeArgument_eq (data.values 2)
  obtain ⟨number, hoperator⟩ := line.op.decodeArgument_eq (data.values 3) data.variableList
  have htarget : decodeArgument line.target.word (data.values 0) data.variableList =
      ⟨.variable, entry.value, some entry.name⟩ := by
    rw [line.target.decodeArgument_eq, hentry]
  have hname : entry.name = line.target.word := of_decide_eq_true (find?_some hentry :)
  have hlist : args = [⟨.variable, entry.value, some entry.name⟩, ⟨.operator .eq, 6, none⟩,
      ⟨if literal then .numeric else .variable, read, firstText⟩,
      ⟨.operator line.op.toOperator, number, none⟩,
      ⟨if literalSecond then .numeric else .variable, readSecond, secondText⟩] := by
    rw [← hargs, ← htarget, ← hfirstArgument, ← hoperator, ← hsecondArgument]
    rfl
  refine ⟨keepValues args data.values, ?_⟩
  rw [performArguments, hargs]
  subst hlist
  simp only [foldlM_cons, foldlM_nil, bind_eq_bind]
  rw [performArgument_operand host 3 rfl, Registers.operand, if_neg Bool.false_ne_true,
    map_some, bind_some, performArgument_operator host rfl, bind_some,
    performArgument_operand host 1 rfl, Registers.operand, if_pos rfl]
  cases combine literal (some line.op.toOperator) read readSecond with
  | none => rfl
  | some result =>
    rw [map_some, map_some, bind_some, performArgument_operator host rfl,
      bind_some, performArgument_target host rfl rfl rfl, bind_some, hname]
    cases updateVariable line.target.word result data.variableList with
    | none | some => rfl

/-! ### The line in the main loop -/

/-- One variable has received a value, and nothing else has changed. -/
def SetsOnly (name : Text) (result : ℤ) (before after : List Variable) : Prop :=
  (∃ entry, lookup after name = some entry ∧ entry.value.toInt = result) ∧
    ∀ other ≠ name, lookup after other = lookup before other

theorem ArithmeticOperator.text_mem (op : ArithmeticOperator) : op.text ∈ operatorTexts := by
  cases op <;> decide

theorem alternates_assignment : Alternates line.words :=
  .cons line.target.isWord (by decide)
    (.cons line.first.isWord line.op.text_mem (.word line.second.isWord))

/-- The arguments of the line. -/
theorem arguments_assignment (hlength : line.text.length < 100) :
    arguments (listImage line.text) = line.words := by
  have hline : line.text = line.target.word ++
      0x3D :: [line.first.word, line.op.text, line.second.word].flatten := rfl
  refine arguments_alternates (alternates_assignment line) le_rfl hlength
    ⟨fun h ↦ ?_, fun h ↦ ?_⟩
  · rw [← Assignment.text, hline] at h
    exact line.not_declaration (isPrefix_of_bytesAt (by decide) h)
  · rw [← Assignment.text, hline] at h
    exact line.not_jump (isPrefix_of_bytesAt (by decide) h)

/-- No argument of the line decides about the next line. -/
theorem isControlWord_assignment : ∀ word ∈ line.words, isControlWord word = false := by
  have hoperand : ∀ operand : Operand, isControlWord operand.word = false := by
    intro operand
    rw [isControlWord, operand.not_function, any_none]
  have hop : isControlWord line.op.text = false := by
    cases line.op <;> decide
  intro word hword
  simp only [Assignment.words, mem_cons, not_mem_nil, or_false] at hword
  obtain rfl | rfl | rfl | rfl | rfl := hword
  · exact hoperand line.target
  · decide
  · exact hoperand line.first
  · exact hop
  · exact hoperand line.second

variable {host : ScriptHost μ} (hhost : host.Undisturbed) {program : ScriptProgram}
  {lines rest : List Text} (hfile : program.file = scriptFile lines)
  (hsuffix : line.text :: rest <:+ lines) (hlength : line.text.length + closingZeros rest < 100)
  {state : ScriptState μ}
  (hstate : state.control.position = linePosition lines (line.text :: rest))

include hhost hfile hsuffix hlength hstate

/-- The line in the main loop. -/
theorem lineStep_assignment :
    ∃ compareBuf, lineStep host program state =
      ⟨[⟨state.control.position, line.text⟩],
        (performArguments host line.words state.data).map fun data ↦
          ⟨{ state.control with position := linePosition lines rest }, data, compareBuf⟩⟩ := by
  have hplain : IsPlain line.text := (alternates_assignment line).isPlain
  have hlabel : isLabel line.text = false := by
    obtain ⟨letter, letters, hword⟩ := exists_cons_of_ne_nil line.target.isWord.1
    have hlabel := line.not_label
    rw [isLabel, hword] at hlabel
    rw [isLabel, Assignment.text, Assignment.words, hword]
    exact hlabel
  refine ⟨loadLine (line.text ++ List.replicate (closingZeros rest) 0) state.compareBuf, ?_⟩
  rw [lineStep_line hhost hfile hsuffix hplain.isLine hstate hplain.quotesClosed hlabel hlength,
    arguments_assignment line (by omega),
    executeLine_of_ordinary host program (isControlWord_assignment line), Option.map_map, hstate]
  rfl

/-- A line `v=x op y` in a script, `v` being a writable variable, `x` and `y` being variables or
numbers, and the operation having a result in 32 bits. If both operands are read as they are
written, the line sets `v` to this result and no other variable, unless the operation misfires: a
number minus or divided by something is computed the other way round, and the smallest number modulo
minus one is refused. If a number is read as another one, in octal or clipped, the operation on the
numbers that are read has to have the same result. -/
theorem assigns_iff
    (hentry : lookup state.data.variableList line.target.word = some entry)
    (hwritable : entry.readOnly = false)
    (hfirst : Denotes state.data.variableList line.first.word literal value read)
    (hsecond : Denotes state.data.variableList line.second.word literalSecond valueSecond
      readSecond)
    (hdefined : line.op.Defined valueSecond)
    (hrange : -2 ^ 31 ≤ line.op.exact value valueSecond ∧
      line.op.exact value valueSecond < 2 ^ 31) :
    (∃ next, lineStep host program state =
          ⟨[⟨state.control.position, line.text⟩], some next⟩ ∧
        next.control.position = linePosition lines rest ∧
        SetsOnly line.target.word (line.op.exact value valueSecond)
          state.data.variableList next.data.variableList) ↔
      if read.toInt = value ∧ readSecond.toInt = valueSecond then
        ¬line.op.Misfires literal value valueSecond
      else
        line.op.Yields literal read.toInt readSecond.toInt (line.op.exact value valueSecond) := by
  obtain ⟨hnonneg, -, -⟩ := hfirst.read_bounds
  obtain ⟨-, hsign, hle⟩ := hsecond.read_bounds
  have hshift : line.op = .shiftUp ∨ line.op = .shiftDown →
      0 ≤ readSecond.toInt ∧ readSecond.toInt < 32 := by
    have hcount (hcount : 0 ≤ valueSecond ∧ valueSecond < 32) :
        0 ≤ readSecond.toInt ∧ readSecond.toInt < 32 := ⟨hsign hcount.1, by omega⟩
    rintro (hop | hop) <;> rw [hop] at hdefined <;> exact hcount hdefined
  refine Iff.trans (b := line.op.Yields literal read.toInt readSecond.toInt
    (line.op.exact value valueSecond)) ?_ ?_
  rotate_left
  · split_ifs with hwritten
    · obtain ⟨rfl, rfl⟩ := hwritten
      exact yields_exact_iff hdefined hrange hnonneg
    · exact Iff.rfl
  obtain ⟨compareBuf, hstep⟩ := lineStep_assignment line hhost hfile hsuffix hlength hstate
  obtain ⟨values, hperform⟩ := performArguments_assignment line host hentry hfirst hsecond
  rw [← combine_iff hshift, hstep, hperform]
  cases combine literal (some line.op.toOperator) read readSecond with
  | none =>
    refine iff_of_false ?_ fun ⟨result, hresult, _⟩ ↦
      nomatch hresult
    rintro ⟨next, hnext, -⟩
    exact absurd (congrArg Outcome.final hnext).symm (some_ne_none next)
  | some result =>
    obtain ⟨updated, hupdated, hnew, hothers⟩ := updateVariable_spec result hentry hwritable
    rw [bind_some, hupdated, map_some, map_some]
    constructor
    · rintro ⟨next, hnext, -, ⟨written, hwritten, hexact⟩, -⟩
      obtain rfl := some.inj (congrArg Outcome.final hnext)
      obtain rfl := some.inj (hnew.symm.trans hwritten)
      exact ⟨result, rfl, hexact⟩
    · rintro ⟨other, hother, hexact⟩
      obtain rfl := some.inj hother
      exact ⟨_, rfl, rfl, ⟨_, hnew, hexact⟩, hothers⟩

end

/-- The line `v=5 op 3`. -/
def fiveThree : Assignment where
  target := ⟨ascii "v", by decide, by decide⟩
  first := ⟨ascii "5", by decide, by decide⟩
  op := op
  second := ⟨ascii "3", by decide, by decide⟩
  not_label := by decide
  not_declaration := by decide
  not_jump := by decide
  fits := by decide

/-- A script at its first line, with one variable `v`. -/
def oneVariable : ScriptState Unit :=
  ⟨⟨0, fun _ ↦ false, none⟩, ⟨[⟨ascii "v", 0, false⟩], fun _ ↦ 0, ()⟩, fun _ ↦ 0⟩

theorem fiveThree_mod_assigns :
    ∃ next, lineStep idleHost ⟨scriptFile [ascii "v=5%3"], [], []⟩ oneVariable =
        ⟨[⟨0, ascii "v=5%3"⟩], some next⟩ ∧
      next.control.position = 7 ∧
      SetsOnly (ascii "v") 2 oneVariable.data.variableList next.data.variableList := by
  have hfive : Denotes oneVariable.data.variableList (ascii "5") true 5 5 :=
    .decimal (by decide : ∀ digit ∈ [5], digit < 10) rfl rfl
  have hthree : Denotes oneVariable.data.variableList (ascii "3") true 3 3 :=
    .decimal (by decide : ∀ digit ∈ [3], digit < 10) rfl rfl
  have hlength : (fiveThree .mod).text.length + closingZeros [] < 100 := by decide
  exact (assigns_iff (fiveThree .mod) idleHost_undisturbed rfl (suffix_refl _) hlength rfl
    rfl rfl hfive hthree (by decide : (3 : ℤ) ≠ 0) (by decide)).mpr
      (by rw [if_pos (by decide)]; decide)

/-- The line `v=5-3` sets `v` to `-2`. -/
theorem fiveThree_minus_not_assigns :
    ¬∃ next, lineStep idleHost ⟨scriptFile [ascii "v=5-3"], [], []⟩ oneVariable =
        ⟨[⟨0, ascii "v=5-3"⟩], some next⟩ ∧
      next.control.position = 7 ∧
      SetsOnly (ascii "v") 2 oneVariable.data.variableList next.data.variableList := by
  rintro ⟨next, hnext, -, ⟨entry, hentry, hvalue⟩, -⟩
  have hfound : ((lineStep idleHost ⟨scriptFile [ascii "v=5-3"], [], []⟩ oneVariable).final.bind
      fun next ↦ lookup next.data.variableList (ascii "v")) = some ⟨ascii "v", -2, false⟩ := by
    decide +kernel
  rw [hnext, bind_some, hentry] at hfound
  rw [some.inj hfound] at hvalue
  exact absurd hvalue (by decide)

end XBlast.Script
