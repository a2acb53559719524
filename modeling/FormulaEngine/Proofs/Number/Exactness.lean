import FormulaEngine.Number.Reduction
import FormulaEngine.Proofs.Decimal.Order
import FormulaEngine.Proofs.Decimal.Rounding
import FormulaEngine.Proofs.Number.TwosComplement

/-!
# Exact results

An operand has an exact value: an integer and a decimal their own, and a finite
float that of its shortest digits.  Unless two operands meet as floats, they keep
their values on the way to the representation in which they meet.  Sums,
differences, products and remainders are exact there, and rounded once where it
is that of decimals, as long as scales fit their word; bit operations act on the
integer parts.  So results depend on the values of the operands and on whether there
is rounding, but not on the representations or the scales of the operands.
-/

namespace FormulaEngine

namespace Operand

/-- The exact value of an operand.  Only a float that is not finite has none. -/
def exactValue? : Operand → Option ℚ
  | integer value => some value.toInt
  | float value => (Decimal.ofFloat? value).map Decimal.toRat
  | bigInteger value => some value
  | bigDecimal value => some value.toRat

/-- Every operand is finite but a float that is infinite or no number. -/
def IsFinite : Operand → Prop
  | float value => ∃ negative mantissa exponent,
      Binary64.parts value = .finite negative mantissa exponent
  | _ => True

theorem exactValue?_isSome_iff {operand : Operand} :
    operand.exactValue?.isSome = true ↔ operand.IsFinite := by
  cases operand with
  | float value =>
      cases ofValue : Binary64.parts value <;>
        simp [exactValue?, IsFinite, Decimal.ofFloat?, ofValue]
  | _ => simp [exactValue?, IsFinite]

/-- The representation in which two operands meet. -/
def meeting (left right : Operand) : Representation :=
  left.representation.common right.representation

theorem meeting_comm (left right : Operand) :
    left.meeting right = right.meeting left :=
  Representation.common_comm _ _

theorem toDecimal_exact {operand : Operand} {x : ℚ}
    (exact : operand.exactValue? = some x) :
    ∃ decimal, operand.toDecimal = .ok decimal ∧ decimal.toRat = x := by
  cases operand with
  | integer value | bigInteger value =>
      cases exact
      exact ⟨_, rfl, Decimal.toRat_ofInt _⟩
  | float value =>
      obtain ⟨decimal, isDecimal, rfl⟩ := Option.map_eq_some_iff.mp exact
      exact ⟨decimal, by simp [toDecimal, decimalOfFloat, isDecimal], rfl⟩
  | bigDecimal value =>
      cases exact
      exact ⟨value, rfl, rfl⟩

end Operand

/-- Two operands have exact values and do not meet as floats. -/
structure Operand.MeetExactly (left right : Operand) (x y : ℚ) : Prop where
  left_exact : left.exactValue? = some x
  right_exact : right.exactValue? = some y
  not_float : left.meeting right ≠ .float

namespace OperandPair

/-- The representation of both operands of a pair. -/
def representation : OperandPair → Representation
  | integers _ _ => .integer
  | floats _ _ => .float
  | bigIntegers _ _ => .bigInteger
  | decimals _ _ => .bigDecimal

/-- A pair the other way round. -/
def swap : OperandPair → OperandPair
  | integers left right => integers right left
  | floats left right => floats right left
  | bigIntegers left right => bigIntegers right left
  | decimals left right => decimals right left

/-- The scales that an operator gives its result, before and after it is rounded, fit
their word.  Only decimals have scales, and only a product of theirs may have one that
neither of the two has. -/
def ScalesFit (pair : OperandPair) (context : MathContext) (op : ArithmeticOp) :
    Prop :=
  match pair, op with
  | decimals left right, .add => (context.roundExact (left.add right)).Fits
  | decimals left right, .subtract =>
      (context.roundExact (left.subtract right)).Fits
  | decimals left right, .multiply =>
      (left.multiplyExact right).Fits ∧
        (context.roundExact (left.multiply right)).Fits
  | decimals left right, .modulo =>
      right.isZero = false → (context.roundExact (left.remainder right)).Fits
  | _, _ => True

/-- A pair of integers or decimals stands for two rational numbers. -/
inductive StandsFor : OperandPair → ℚ → ℚ → Prop
  | integers (left right : Int64) :
      StandsFor (.integers left right) left.toInt right.toInt
  | bigIntegers (left right : ℤ) : StandsFor (.bigIntegers left right) left right
  | decimals (left right : Decimal) :
      StandsFor (.decimals left right) left.toRat right.toRat

end OperandPair

/-- Operands that meet exactly keep their values, in either order. -/
theorem Operand.MeetExactly.meet {left right : Operand} {x y : ℚ}
    (meets : left.MeetExactly right x y) :
    ∃ pair, OperandPair.meet left right = .ok pair ∧
      OperandPair.meet right left = .ok pair.swap ∧
      pair.representation = left.meeting right ∧ pair.StandsFor x y := by
  obtain ⟨leftExact, rightExact, notFloat⟩ := meets
  cases isMeeting : left.meeting right with
  | bigDecimal =>
      obtain ⟨leftDecimal, isLeft, rfl⟩ := toDecimal_exact leftExact
      obtain ⟨rightDecimal, isRight, rfl⟩ := toDecimal_exact rightExact
      have swapped := (meeting_comm left right).symm.trans isMeeting
      unfold meeting at isMeeting swapped
      refine ⟨.decimals leftDecimal rightDecimal, ?_, ?_, rfl, .decimals _ _⟩
      · simp only [OperandPair.meet, isMeeting, isLeft, isRight]
        rfl
      · simp only [OperandPair.meet, swapped, isLeft, isRight]
        rfl
  | float => exact absurd isMeeting notFloat
  | _ =>
      -- Only integers, of 64 bits or big, meet as such.
      cases left <;> cases right <;> cases isMeeting <;> cases leftExact <;>
        cases rightExact
      all_goals first
        | exact ⟨.integers _ _, rfl, rfl, rfl, .integers _ _⟩
        | exact ⟨.bigIntegers _ _, rfl, rfl, rfl, .bigIntegers _ _⟩

/-- The scales of what an operator makes of two operands fit their word, if the
operands meet as decimals. -/
def Operand.ScalesFit (left right : Operand) (context : MathContext)
    (op : ArithmeticOp) : Prop :=
  ∀ pair, OperandPair.meet left right = .ok pair → pair.ScalesFit context op

/-- The values of the results of all operators on two operands. -/
def Operand.results (left right : Operand) (context : MathContext)
    (op : ArithmeticOp) : Except NumberError (Option ℚ) :=
  (op.reduce left right context).map Operand.exactValue?

/-- The values of the results of all operators on a pair. -/
def OperandPair.results (pair : OperandPair) (context : MathContext)
    (op : ArithmeticOp) : Except NumberError (Option ℚ) :=
  ((op.combination context).onPair pair).map Operand.exactValue?

/-- Two zeros may have sums of two scales, but both are zero. -/
theorem MathContext.toRat_round_add_comm (context : MathContext)
    (left right : Decimal) :
    (context.round (left.add right)).toRat =
      (context.round (right.add left)).toRat := by
  by_cases nonzero : left.isZero = false ∨ right.isZero = false
  · rw [Decimal.add_comm_of_nonzero nonzero]
  obtain ⟨leftZero, rightZero⟩ := not_or.mp nonzero
  rw [Bool.not_eq_false, Decimal.isZero_iff] at leftZero rightZero
  have isZero {sum : Decimal} (zeroSum : sum.toRat = 0) :
      (context.round sum).toRat = 0 := by
    rw [round, Decimal.roundTo, ExactDecimal.toRat_store_eq_zero,
      Decimal.toRat_roundExact, roundSignificant, if_pos (.inr zeroSum), zeroSum]
  rw [isZero, isZero] <;> rw [Decimal.toRat_add, leftZero, rightZero, add_zero]

/-- Round where decimals meet. -/
def MathContext.roundAt (context : MathContext) (meeting : Representation)
    (x : ℚ) : ℚ :=
  if meeting = .bigDecimal then context.roundRat x else x

/-- Results whose scales fit are those of rational arithmetic, rounded once.  The only
failure is a remainder by zero. -/
structure Calculates (results : ArithmeticOp → Except NumberError (Option ℚ))
    (fits : ArithmeticOp → Prop) (round : ℚ → ℚ) (x y : ℚ) : Prop where
  add : fits .add → results .add = .ok (some (round (x + y)))
  subtract : fits .subtract → results .subtract = .ok (some (round (x - y)))
  multiply : fits .multiply → results .multiply = .ok (some (round (x * y)))
  modulo : fits .modulo → results .modulo =
    if y = 0 then .error (.divisionByZero "modulo")
    else .ok (some (round (x - y * truncated (x / y))))

/-- Results are integers whose bits are combined from those of the integer
parts. -/
structure ActsOnBits (results : ArithmeticOp → Except NumberError (Option ℚ))
    (x y : ℚ) : Prop where
  and : ∃ bits : ℤ, results .and = .ok (some bits) ∧ ∀ position,
    TwosComplement.testBit bits position =
      (TwosComplement.testBit (truncated x) position &&
        TwosComplement.testBit (truncated y) position)
  or : ∃ bits : ℤ, results .or = .ok (some bits) ∧ ∀ position,
    TwosComplement.testBit bits position =
      (TwosComplement.testBit (truncated x) position ||
        TwosComplement.testBit (truncated y) position)
  xor : ∃ bits : ℤ, results .xor = .ok (some bits) ∧ ∀ position,
    TwosComplement.testBit bits position =
      (TwosComplement.testBit (truncated x) position ^^
        TwosComplement.testBit (truncated y) position)

theorem MathContext.roundAt_bigDecimal (context : MathContext) (x : ℚ) :
    context.roundAt .bigDecimal x = context.roundRat x :=
  if_pos rfl

theorem MathContext.roundAt_bigInteger (context : MathContext) (x : ℚ) :
    context.roundAt .bigInteger x = x :=
  if_neg (by decide)

namespace OperandPair

variable {pair : OperandPair} {x y : ℚ} (context : MathContext)

theorem calculates_bigIntegers (left right : ℤ) :
    Calculates ((bigIntegers left right).results context)
      ((bigIntegers left right).ScalesFit context) id left right where
  add _ := by
    rw [← Int.cast_add]
    rfl
  subtract _ := by
    rw [← Int.cast_sub]
    rfl
  multiply _ := by
    rw [← Int.cast_mul]
    rfl
  modulo _ := by
    rw [truncated_intCast_div, ← Int.cast_mul, ← Int.cast_sub, ← Int.tmod_def]
    simp only [Int.cast_eq_zero, results, Combination.onPair,
      ArithmeticOp.combination, ArithmeticOp.onBigIntegers]
    split <;> rfl

theorem calculates_decimals (left right : Decimal) :
    Calculates ((decimals left right).results context)
      ((decimals left right).ScalesFit context) context.roundRat left.toRat
      right.toRat where
  add fits := by
    rw [← left.toRat_add, ← MathContext.toRat_round fits]
    rfl
  subtract fits := by
    rw [← left.toRat_subtract, ← MathContext.toRat_round fits]
    rfl
  multiply fits := by
    rw [← Decimal.toRat_multiply fits.1, ← MathContext.toRat_round fits.2]
    rfl
  modulo fits := by
    simp only [← Decimal.isZero_iff, results, Combination.onPair,
      ArithmeticOp.combination, ArithmeticOp.onDecimals]
    split
    next => rfl
    next nonzero =>
      rw [← left.toRat_remainder,
        ← MathContext.toRat_round (fits (Bool.eq_false_iff.mpr nonzero))]
      rfl

theorem StandsFor.calculates (stands : pair.StandsFor x y)
    (notIntegers : pair.representation ≠ .integer) :
    Calculates (pair.results context) (pair.ScalesFit context)
      (context.roundAt pair.representation) x y := by
  cases stands with
  | integers => exact absurd rfl notIntegers
  | bigIntegers left right =>
      rw [representation, funext context.roundAt_bigInteger]
      exact calculates_bigIntegers context left right
  | decimals left right =>
      rw [representation, funext context.roundAt_bigDecimal]
      exact calculates_decimals context left right

/-- Bit operations are those of big integers, on the integer parts. -/
theorem StandsFor.results_bitwise (stands : pair.StandsFor x y)
    {op : ArithmeticOp} (bitwise : op.isBitwise = true) :
    pair.results context op =
      OperandPair.results (.bigIntegers (truncated x) (truncated y)) context
        op := by
  cases stands with
  | integers left right =>
      rw [truncated_intCast, truncated_intCast]
      cases op <;> cases bitwise <;>
        simp [results, Combination.onPair, ArithmeticOp.combination,
          ArithmeticOp.onIntegers, ArithmeticOp.onBigIntegers, Except.map,
          Operand.exactValue?, TwosComplement.toInt_and, TwosComplement.toInt_or,
          TwosComplement.toInt_xor]
  | bigIntegers left right => rw [truncated_intCast, truncated_intCast]
  | decimals left right =>
      rw [← left.truncate_eq, ← right.truncate_eq]
      cases op <;> cases bitwise <;> rfl

theorem StandsFor.actsOnBits (stands : pair.StandsFor x y) :
    ActsOnBits (pair.results context) x y where
  and := ⟨_, stands.results_bitwise context rfl, TwosComplement.testBit_and _ _⟩
  or := ⟨_, stands.results_bitwise context rfl, TwosComplement.testBit_or _ _⟩
  xor := ⟨_, stands.results_bitwise context rfl, TwosComplement.testBit_xor _ _⟩

end OperandPair

namespace Operand.MeetExactly

variable {left right : Operand} {x y : ℚ}

theorem symm (meets : left.MeetExactly right x y) :
    right.MeetExactly left y x :=
  ⟨meets.right_exact, meets.left_exact, meeting_comm left right ▸ meets.not_float⟩

theorem results_eq_of_meet {pair : OperandPair}
    (isPair : OperandPair.meet left right = .ok pair) (context : MathContext) :
    left.results right context = pair.results context := by
  funext op
  rw [results, ArithmeticOp.reduce, Combination.reduce, isPair]
  rfl

theorem calculates (meets : left.MeetExactly right x y) (context : MathContext)
    (notIntegers : left.meeting right ≠ .integer) :
    Calculates (left.results right context) (left.ScalesFit right context)
      (context.roundAt (left.meeting right)) x y := by
  obtain ⟨pair, isPair, -, isMeeting, stands⟩ := meets.meet
  have isScales : left.ScalesFit right context = pair.ScalesFit context := by
    funext op
    simp [Operand.ScalesFit, isPair]
  rw [results_eq_of_meet isPair, isScales, ← isMeeting]
  exact stands.calculates context (isMeeting ▸ notIntegers)

theorem actsOnBits (meets : left.MeetExactly right x y)
    (context : MathContext) : ActsOnBits (left.results right context) x y := by
  obtain ⟨pair, isPair, -, -, stands⟩ := meets.meet
  rw [results_eq_of_meet isPair]
  exact stands.actsOnBits context

end Operand.MeetExactly

/-! ### Representation and order do not matter -/

namespace ArithmeticOp

/-- The operators whose results are those of rational arithmetic. -/
def isRational : ArithmeticOp → Bool
  | add | subtract | multiply | modulo => true
  | _ => false

/-- The operators that do not distinguish their operands. -/
def isCommutative : ArithmeticOp → Bool
  | add | multiply | and | or | xor => true
  | _ => false

/-- The results of an operator are exact where operands meet in a representation:
two integers of 64 bits keep only their bit operations exact. -/
def IsExactAt (op : ArithmeticOp) (meeting : Representation) : Prop :=
  op.isBitwise = true ∨ op.isRational = true ∧ meeting ≠ .integer

end ArithmeticOp

/-- Sums and products do not depend on the order of a pair, whatever becomes of their
scales. -/
theorem OperandPair.StandsFor.results_swap {pair : OperandPair} {x y : ℚ}
    {context : MathContext} {op : ArithmeticOp} (stands : pair.StandsFor x y)
    (rational : op.isRational = true) (commutative : op.isCommutative = true) :
    pair.results context op = pair.swap.results context op := by
  cases stands with
  | integers left right =>
      cases op <;> cases rational <;> cases commutative
      · simp only [results, swap, Combination.onPair, ArithmeticOp.combination,
          ArithmeticOp.onIntegers, Int64.add_comm left]
      · simp only [results, swap, Combination.onPair, ArithmeticOp.combination,
          ArithmeticOp.onIntegers, Int64.mul_comm left]
  | bigIntegers left right =>
      cases op <;> cases rational <;> cases commutative
      · simp only [results, swap, Combination.onPair, ArithmeticOp.combination,
          ArithmeticOp.onBigIntegers, Int.add_comm left]
      · simp only [results, swap, Combination.onPair, ArithmeticOp.combination,
          ArithmeticOp.onBigIntegers, Int.mul_comm left]
  | decimals left right =>
      cases op <;> cases rational <;> cases commutative
      · exact congrArg (fun sum : ℚ => Except.ok (some sum))
          (context.toRat_round_add_comm left right)
      · simp only [results, swap, Combination.onPair, ArithmeticOp.combination,
          ArithmeticOp.onDecimals, Decimal.multiply, left.multiplyExact_comm]

/-- Exact results are rounded alike in two representations. -/
def MathContext.RoundsAlike (context : MathContext)
    (meeting other : Representation) : Prop :=
  context.isUnlimited = true ∨ (meeting = .bigDecimal ↔ other = .bigDecimal)

theorem MathContext.RoundsAlike.roundAt_eq {context : MathContext}
    {meeting other : Representation} (alike : context.RoundsAlike meeting other) :
    context.roundAt meeting = context.roundAt other := by
  rcases alike with unlimited | same
  · have noDigits : context.precision = 0 := eq_of_beq unlimited
    funext x
    simp [roundAt, roundRat, roundSignificant, noDigits]
  · funext x
    simp only [roundAt, same]

section Results

variable {results other : ArithmeticOp → Except NumberError (Option ℚ)}
  {fits otherFits : ArithmeticOp → Prop} {round : ℚ → ℚ} {x y : ℚ}
  {op : ArithmeticOp}

theorem Calculates.agree (calculates : Calculates results fits round x y)
    (otherCalculates : Calculates other otherFits round x y)
    (rational : op.isRational = true) (stored : fits op)
    (otherStored : otherFits op) : results op = other op := by
  cases op <;> cases rational
  · exact (calculates.add stored).trans (otherCalculates.add otherStored).symm
  · exact (calculates.subtract stored).trans
      (otherCalculates.subtract otherStored).symm
  · exact (calculates.multiply stored).trans
      (otherCalculates.multiply otherStored).symm
  · exact (calculates.modulo stored).trans
      (otherCalculates.modulo otherStored).symm

theorem ActsOnBits.symm (acts : ActsOnBits results x y) :
    ActsOnBits results y x where
  and := by simpa only [Bool.and_comm] using acts.and
  or := by simpa only [Bool.or_comm] using acts.or
  xor := by simpa only [Bool.xor_comm] using acts.xor

theorem ActsOnBits.agree (acts : ActsOnBits results x y)
    (otherActs : ActsOnBits other x y) (bitwise : op.isBitwise = true) :
    results op = other op := by
  have sameBits {first second : Except NumberError (Option ℚ)}
      {bits : ℕ → Bool}
      (isFirst : ∃ value : ℤ, first = .ok (some value) ∧
        ∀ position, TwosComplement.testBit value position = bits position)
      (isSecond : ∃ value : ℤ, second = .ok (some value) ∧
        ∀ position, TwosComplement.testBit value position = bits position) :
      first = second := by
    obtain ⟨value, rfl, isBits⟩ := isFirst
    obtain ⟨otherValue, rfl, otherIsBits⟩ := isSecond
    rw [TwosComplement.eq_of_testBit_eq fun position =>
      (isBits position).trans (otherIsBits position).symm]
  cases op <;> cases bitwise
  · exact sameBits acts.and otherActs.and
  · exact sameBits acts.or otherActs.or
  · exact sameBits acts.xor otherActs.xor

end Results

namespace Operand.MeetExactly

variable {left right : Operand} {x y : ℚ} {context : MathContext}
  {op : ArithmeticOp}

theorem results_agree (meets : left.MeetExactly right x y)
    (isExact : op.IsExactAt (left.meeting right)) {otherLeft otherRight : Operand}
    (otherMeets : otherLeft.MeetExactly otherRight x y)
    (otherExact : op.IsExactAt (otherLeft.meeting otherRight))
    (alike : op.isBitwise = true ∨ context.RoundsAlike (left.meeting right)
      (otherLeft.meeting otherRight))
    (fits : left.ScalesFit right context op)
    (otherFits : otherLeft.ScalesFit otherRight context op) :
    left.results right context op = otherLeft.results otherRight context op := by
  by_cases bitwise : op.isBitwise = true
  · exact (meets.actsOnBits context).agree (otherMeets.actsOnBits context) bitwise
  · obtain ⟨rational, notIntegers⟩ := isExact.resolve_left bitwise
    obtain ⟨-, otherNotIntegers⟩ := otherExact.resolve_left bitwise
    have calculates := meets.calculates context notIntegers
    rw [(alike.resolve_left bitwise).roundAt_eq] at calculates
    exact calculates.agree (otherMeets.calculates context otherNotIntegers) rational
      fits otherFits

theorem results_swap (meets : left.MeetExactly right x y)
    (isExact : op.IsExactAt (left.meeting right))
    (commutative : op.isCommutative = true) :
    left.results right context op = right.results left context op := by
  rcases isExact with bitwise | ⟨rational, -⟩
  · exact (meets.actsOnBits context).agree (meets.symm.actsOnBits context).symm
      bitwise
  · obtain ⟨pair, isPair, isSwapped, -, stands⟩ := meets.meet
    rw [results_eq_of_meet isPair, results_eq_of_meet isSwapped]
    exact stands.results_swap rational commutative

end Operand.MeetExactly

/-- Finite operands that do not meet as floats are combined as rational numbers.
The result is rounded once where decimals meet, as long as its scales fit, and not at
all elsewhere, bit operations act on the integer parts, and a remainder by zero is the
only failure.  The representation of the operands matters only for whether the result
is rounded, and their order not at all to a commutative operator. -/
theorem Operand.reduces_exactly {left right : Operand}
    (leftFinite : left.IsFinite) (rightFinite : right.IsFinite)
    (notFloats : left.meeting right ≠ .float) (context : MathContext) :
    ∃ x y : ℚ, left.MeetExactly right x y ∧
      (left.meeting right ≠ .integer →
        Calculates (left.results right context) (left.ScalesFit right context)
          (context.roundAt (left.meeting right)) x y) ∧
      ActsOnBits (left.results right context) x y ∧
      ∀ op : ArithmeticOp, op.IsExactAt (left.meeting right) →
        (∀ otherLeft otherRight : Operand,
          otherLeft.MeetExactly otherRight x y →
          op.IsExactAt (otherLeft.meeting otherRight) →
          (op.isBitwise = true ∨ context.RoundsAlike (left.meeting right)
            (otherLeft.meeting otherRight)) →
          left.ScalesFit right context op →
          otherLeft.ScalesFit otherRight context op →
          left.results right context op =
            otherLeft.results otherRight context op) ∧
        (op.isCommutative = true →
          left.results right context op = right.results left context op) := by
  obtain ⟨x, leftExact⟩ :=
    Option.isSome_iff_exists.mp (exactValue?_isSome_iff.mpr leftFinite)
  obtain ⟨y, rightExact⟩ :=
    Option.isSome_iff_exists.mp (exactValue?_isSome_iff.mpr rightFinite)
  have meets : left.MeetExactly right x y := ⟨leftExact, rightExact, notFloats⟩
  exact ⟨x, y, meets, meets.calculates context, meets.actsOnBits context,
    fun op isExact => ⟨fun _ _ otherMeets otherExact alike fits otherFits =>
        meets.results_agree isExact otherMeets otherExact alike fits otherFits,
      meets.results_swap isExact⟩⟩

theorem reduces_exactly_float_bigInteger :
    let left : Operand := .float (-2.5)
    let right : Operand := .bigInteger 2
    let context : MathContext := ⟨1, .halfEven⟩
    left.exactValue? = some (-5 / 2) ∧
      left.results right context .subtract = .ok (some (-4)) ∧
      left.results right context .modulo = .ok (some (-1 / 2)) ∧
      left.results right context .xor = .ok (some (-4 : ℤ)) := by
  intro left right context
  have exact : left.exactValue? = some (-5 / 2) := by
    have digits : Decimal.ofFloat? (-2.5) = some ⟨-25, 1⟩ := rfl
    have isScale : (⟨-25, 1⟩ : Decimal).scale = 1 := rfl
    simp [left, Operand.exactValue?, digits, Decimal.toRat, isScale]
    norm_num
  have leftFinite : left.IsFinite :=
    Operand.exactValue?_isSome_iff.mp (by rw [exact]; rfl)
  have rightFinite : right.IsFinite := trivial
  obtain ⟨x, y, meets, calculates, acts, -⟩ :=
    Operand.reduces_exactly leftFinite rightFinite (by decide) context
  obtain rfl : -5 / 2 = x := Option.some.inj (exact.symm.trans meets.left_exact)
  obtain rfl : (2 : ℤ) = y := Option.some.inj meets.right_exact
  have calculates := calculates (by decide)
  have meet : OperandPair.meet left right = .ok (.decimals ⟨-25, 1⟩ ⟨2, 0⟩) := rfl
  refine ⟨exact, ?_, ?_, ?_⟩
  · have tiesToEven : context.roundRat (-5 / 2 - (2 : ℤ)) = -4 := by
      decide +kernel
    rw [← tiesToEven]
    refine calculates.subtract fun pair isPair => ?_
    cases meet.symm.trans isPair
    exact (by decide : (context.roundExact (Decimal.subtract ⟨-25, 1⟩ ⟨2, 0⟩)).Fits)
  · have rest : context.roundRat
        (-5 / 2 - (2 : ℤ) * truncated (-5 / 2 / (2 : ℤ))) = -1 / 2 := by
      decide +kernel
    rw [← rest]
    refine calculates.modulo fun pair isPair => ?_
    cases meet.symm.trans isPair
    exact fun _ =>
      (by decide : (context.roundExact (Decimal.remainder ⟨-25, 1⟩ ⟨2, 0⟩)).Fits)
  · obtain ⟨bits, isBits, isXor⟩ := acts.xor
    rw [isBits, TwosComplement.eq_of_testBit_eq fun position =>
      (isXor position).trans (TwosComplement.testBit_xor _ _ position).symm]
    have isMinusFour :
        TwosComplement.xor (truncated (-5 / 2)) (truncated (2 : ℤ)) = -4 := by
      decide +kernel
    rw [isMinusFour]

/-- Ten to the fortieth plus one is a sum of big integers, and too long for a
decimal of thirty-four digits. -/
theorem rounding_depends_on_representation :
    let big : Operand := .bigInteger (10 ^ 40)
    let decimal : Operand := .bigDecimal ⟨10 ^ 40, 0⟩
    let one : Operand := .bigInteger 1
    big.MeetExactly one (10 ^ 40) 1 ∧ decimal.MeetExactly one (10 ^ 40) 1 ∧
      big.results one .decimal128 .add = .ok (some (10 ^ 40 + 1)) ∧
      decimal.results one .decimal128 .add = .ok (some (10 ^ 40)) := by
  intro big decimal one
  refine ⟨⟨?_, ?_, by decide⟩, ⟨?_, ?_, by decide⟩, ?_, ?_⟩
  · norm_num [big, Operand.exactValue?]
  · norm_num [one, Operand.exactValue?]
  · simp [decimal, Operand.exactValue?, Decimal.toRat, Decimal.scale]
    norm_num
  · norm_num [one, Operand.exactValue?]
  · have sum : big.results one .decimal128 .add =
        .ok (some ((10 ^ 40 + 1 : ℤ) : ℚ)) := rfl
    rw [sum]
    norm_num
  · have rounded : decimal.results one .decimal128 .add =
        .ok (some (Decimal.toRat ⟨10 ^ 33, -7⟩)) := rfl
    have isScale : (⟨10 ^ 33, -7⟩ : Decimal).scale = -7 := rfl
    rw [rounded, Decimal.toRat, isScale]
    norm_num

end FormulaEngine
