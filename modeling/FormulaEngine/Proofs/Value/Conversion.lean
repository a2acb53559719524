import FormulaEngine.Proofs.Evaluation.ResultKind
import FormulaEngine.Proofs.Number.Power
import FormulaEngine.Proofs.Value.Sort
import Mathlib.Data.List.TakeWhile

/-!
# Exact conversions

Truth values, integers of both sorts and decimals stand for quantities.  The basic
rules convert them to integers and to decimals without loss, and exactly where the
quantity is one of the target.  A text that reads as an integer reads as a decimal
of the same quantity, and whatever comes out of a conversion converts to itself.
-/

namespace FormulaEngine

variable {Label : Type}

namespace Text

/-! ### Words -/

/-- An integer lies in the range of 64 bits. -/
def FitsWord (value : ℤ) : Prop :=
  -2 ^ 63 ≤ value ∧ value ≤ 2 ^ 63 - 1

theorem fitsWord_iff {value : ℤ} :
    FitsWord value ↔
      Int64.minValue.toInt ≤ value ∧ value ≤ Int64.maxValue.toInt := by
  rw [Int64.toInt_minValue, Int64.toInt_maxValue]
  rfl

theorem fitsWord_toInt (word : Int64) : FitsWord word.toInt :=
  fitsWord_iff.mpr ⟨Int64.minValue_le_toInt word, Int64.toInt_le word⟩

theorem toInt_ofInt_of_fitsWord {value : ℤ} (fits : FitsWord value) :
    (Int64.ofInt value).toInt = value :=
  Int64.toInt_ofInt_of_le fits.1 (Int.lt_of_le_sub_one fits.2)

theorem narrowInt?_eq_some_iff {value : ℤ} {word : Int64} :
    narrowInt? value = some word ↔ word.toInt = value := by
  unfold narrowInt?
  constructor
  · intro narrows
    obtain ⟨fits, isWord⟩ := Option.ite_none_right_eq_some.mp narrows
    cases isWord
    exact toInt_ofInt_of_fitsWord (fitsWord_iff.mpr fits)
  · rintro rfl
    rw [if_pos (fitsWord_iff.mp (fitsWord_toInt word)), Int64.ofInt_toInt]

/-! ### Reading -/

variable {characters : List Char}

theorem mem_of_splitSign {character : Char} (member : character ∈ characters) :
    character = '-' ∨ character = '+' ∨ character ∈ (splitSign characters).2 := by
  unfold splitSign
  split
  · rcases List.mem_cons.mp member with isSign | behind
    · exact .inl isSign
    · exact .inr (.inr behind)
  · rcases List.mem_cons.mp member with isSign | behind
    · exact .inr (.inl isSign)
    · exact .inr (.inr behind)
  · exact .inr (.inr member)

/-- An integer in grouped digits consists of a sign, digits and underscores. -/
theorem mem_of_readGroupedInt? {value : ℤ}
    (reads : readGroupedInt? characters = some value) {character : Char}
    (member : character ∈ characters) :
    character = '-' ∨ character = '+' ∨ character = '_' ∨
      character.isDigit = true := by
  rcases mem_of_splitSign member with isSign | isSign | behind
  · exact .inl isSign
  · exact .inr (.inl isSign)
  · simp only [readGroupedInt?, readDigits?, Option.ite_none_left_eq_some,
      Option.map_eq_some_iff, Option.ite_none_right_eq_some] at reads
    obtain ⟨-, digits, ⟨⟨-, allDigits⟩, -⟩, -⟩ := reads
    by_cases isSeparator : character = '_'
    · exact .inr (.inr (.inl isSeparator))
    · have kept : character ∈ (splitSign characters).2.filter (· ≠ '_') :=
        List.mem_filter.mpr ⟨behind, by simpa using isSeparator⟩
      exact .inr (.inr (.inr (List.all_eq_true.mp allDigits character kept)))

end Text

/-- What reads as an integer in grouped digits reads as the same decimal. -/
theorem Decimal.read?_of_readGroupedInt? {characters : List Char} {value : ℤ}
    (reads : Text.readGroupedInt? characters = some value) :
    read? characters = some (ofInt value) := by
  have plain : ∀ character ∈ characters,
      character ≠ '.' ∧ character ≠ 'e' ∧ character ≠ 'E' := by
    intro character member
    have allowed := Text.mem_of_readGroupedInt? reads member
    refine ⟨?_, ?_, ?_⟩ <;> (rintro rfl; revert allowed; decide)
  have noMark : ∀ character ∈ characters,
      (!(character == 'e' || character == 'E')) = true := by
    intro character member
    obtain ⟨-, notSmall, notLarge⟩ := plain character member
    simp [notSmall, notLarge]
  have noPoint : ∀ character ∈ characters, decide (character ≠ '.') = true :=
    fun character member => decide_eq_true (plain character member).1
  have wholePart : splitPoint characters = (characters, 0) := by
    rw [splitPoint, List.dropWhile_eq_nil_iff.mpr noPoint]
  simp only [read?, List.dropWhile_eq_nil_iff.mpr noMark,
    List.takeWhile_eq_self_iff.mpr noMark, wholePart, reads]
  rfl

namespace Value

/-- The quantity that a value stands for, truth values being one and zero.  Floats
have none here, for they are rounded. -/
def quantity? : Value Label → Option ℚ
  | bool value => some (if value then 1 else 0)
  | integer value => some value.toInt
  | bigInteger value => some value
  | number (.decimal value) => some value.toRat
  | _ => none

theorem integerOfNumeral?_decimal {value : Decimal} {whole : ℤ} :
    integerOfNumeral? (.decimal value) = some whole ↔ value.toRat = whole := by
  have truncates : (Numeral.decimal value).toOperand.toBigInteger =
      .ok value.truncate := rfl
  rw [integerOfNumeral?, truncates, Numeral.isIntegral]
  constructor
  · intro isWhole
    obtain ⟨integral, isTruncated⟩ := Option.ite_none_right_eq_some.mp isWhole
    obtain ⟨exact, isExact⟩ := Decimal.isIntegral_iff.mp integral
    cases isTruncated
    rw [Decimal.truncate_eq, isExact, truncated_intCast]
  · intro isExact
    rw [if_pos (Decimal.isIntegral_iff.mpr ⟨whole, isExact⟩), Decimal.truncate_eq,
      isExact, truncated_intCast]
    rfl

theorem convertToInteger?_eq_some_iff {value : Value Label} {x : ℚ}
    (isQuantity : value.quantity? = some x) {whole : ℤ} :
    value.convertToInteger? = some whole ↔ x = whole := by
  cases value with
  | bool value =>
      cases isQuantity
      cases value <;> simp [convertToInteger?, eq_comm]
  | integer value | bigInteger value =>
      cases isQuantity
      simp [convertToInteger?]
  | number value =>
      cases value with
      | floating => cases isQuantity
      | decimal value =>
          cases isQuantity
          exact integerOfNumeral?_decimal
  | _ => cases isQuantity

theorem convertToNumber?_exact {value : Value Label} {x : ℚ}
    (isQuantity : value.quantity? = some x) :
    ∃ decimal : Decimal,
      value.convertToNumber? .arbitraryPrecision = some (.decimal decimal) ∧
        decimal.toRat = x := by
  cases value with
  | bool value =>
      cases isQuantity
      refine ⟨_, rfl, ?_⟩
      cases value <;> rw [Decimal.toRat_ofInt] <;> rfl
  | integer value | bigInteger value =>
      cases isQuantity
      exact ⟨_, rfl, Decimal.toRat_ofInt _⟩
  | number value =>
      cases value with
      | floating => cases isQuantity
      | decimal value =>
          cases isQuantity
          exact ⟨value, rfl, rfl⟩
  | _ => cases isQuantity

/-- A text that reads as an integer reads as a decimal of the same quantity. -/
theorem readNumeral?_of_readInteger? {text : String} {whole : ℤ}
    (reads : readInteger? text = some whole) :
    ∃ decimal : Decimal,
      readNumeral? .arbitraryPrecision text = some (.decimal decimal) ∧
        decimal.toRat = whole := by
  simp only [readInteger?] at reads
  split at reads
  next read grouped =>
    cases reads
    refine ⟨.ofInt whole, ?_, Decimal.toRat_ofInt whole⟩
    exact congrArg (Option.map Numeral.decimal) (Decimal.read?_of_readGroupedInt? grouped)
  next =>
    obtain ⟨decimal, isDecimal, isWhole⟩ := Option.bind_eq_some_iff.mp reads
    exact ⟨decimal, congrArg (Option.map Numeral.decimal) isDecimal,
      integerOfNumeral?_decimal.mp isWhole⟩

/-! ### Conversions -/

/-- By the basic rules a value converts to a type just under a condition, and
whatever it becomes is of that type and stands for a quantity. -/
structure ConvertsExactly (forest : Forest) (value : Value Label)
    (target : ValueType) (kind : NumberKind) (x : ℚ) (condition : Prop) :
    Prop where
  succeeds_iff :
    (∃ result, Converter.basic.convert? forest value target kind = some result) ↔
      condition
  exact : ∀ result,
    Converter.basic.convert? forest value target kind = some result →
      result.type = target ∧ result.quantity? = some x

section Targets

variable {forest : Forest} {value result : Value Label} {target : ValueType}
  {kind : NumberKind} {x : ℚ}

theorem convert?_integer_eq_some_iff :
    Converter.basic.convert? forest value .integer kind = some result ↔
      ∃ word : Int64, value.convertToInteger? = some word.toInt ∧
        integer word = result := by
  simp only [Converter.basic, convert?, Option.map_eq_some_iff, Option.bind_eq_some_iff,
    Text.narrowInt?_eq_some_iff]
  constructor
  · rintro ⟨word, ⟨_, isWhole, rfl⟩, isResult⟩
    exact ⟨word, isWhole, isResult⟩
  · rintro ⟨word, isWhole, isResult⟩
    exact ⟨word, ⟨_, isWhole, rfl⟩, isResult⟩

theorem convert?_bigInteger_eq_some_iff :
    Converter.basic.convert? forest value .bigInteger kind = some result ↔
      ∃ whole : ℤ, value.convertToInteger? = some whole ∧
        bigInteger whole = result :=
  Option.map_eq_some_iff

theorem convertsExactly_integer (isQuantity : value.quantity? = some x) :
    value.ConvertsExactly forest .integer kind x
      (∃ whole : ℤ, x = whole ∧ Text.FitsWord whole) where
  succeeds_iff := by
    constructor
    · rintro ⟨result, succeeds⟩
      obtain ⟨word, isWhole, -⟩ := convert?_integer_eq_some_iff.mp succeeds
      exact ⟨word.toInt, (convertToInteger?_eq_some_iff isQuantity).mp isWhole,
        Text.fitsWord_toInt word⟩
    · rintro ⟨whole, isWhole, fits⟩
      have isWord := Text.toInt_ofInt_of_fitsWord fits
      rw [← isWord] at isWhole
      exact ⟨_, convert?_integer_eq_some_iff.mpr
        ⟨_, (convertToInteger?_eq_some_iff isQuantity).mpr isWhole, rfl⟩⟩
  exact result succeeds := by
    obtain ⟨word, isWhole, rfl⟩ := convert?_integer_eq_some_iff.mp succeeds
    rw [(convertToInteger?_eq_some_iff isQuantity).mp isWhole]
    exact ⟨rfl, rfl⟩

theorem convertsExactly_bigInteger (isQuantity : value.quantity? = some x) :
    value.ConvertsExactly forest .bigInteger kind x (∃ whole : ℤ, x = whole) where
  succeeds_iff := by
    constructor
    · rintro ⟨result, succeeds⟩
      obtain ⟨whole, isWhole, -⟩ := convert?_bigInteger_eq_some_iff.mp succeeds
      exact ⟨whole, (convertToInteger?_eq_some_iff isQuantity).mp isWhole⟩
    · rintro ⟨whole, isWhole⟩
      have isInteger := (convertToInteger?_eq_some_iff isQuantity).mpr isWhole
      exact ⟨bigInteger whole, congrArg (Option.map bigInteger) isInteger⟩
  exact result succeeds := by
    obtain ⟨whole, isWhole, rfl⟩ := convert?_bigInteger_eq_some_iff.mp succeeds
    rw [(convertToInteger?_eq_some_iff isQuantity).mp isWhole]
    exact ⟨rfl, rfl⟩

theorem convertsExactly_number (isQuantity : value.quantity? = some x) :
    value.ConvertsExactly forest .number .arbitraryPrecision x True := by
  obtain ⟨decimal, isDecimal, isExact⟩ := convertToNumber?_exact isQuantity
  have converts : Converter.basic.convert? forest value .number
      .arbitraryPrecision = some (.number (.decimal decimal)) :=
    congrArg (Option.map number) isDecimal
  refine ⟨iff_of_true ⟨_, converts⟩ trivial, fun result succeeds => ?_⟩
  cases converts.symm.trans succeeds
  exact ⟨rfl, congrArg some isExact⟩

/-- What comes out of a conversion converts to itself. -/
theorem convert?_self
    (succeeds : Converter.basic.convert? forest value target kind = some result) :
    Converter.basic.convert? forest result target kind = some result := by
  cases target with
  | any => rfl
  | number =>
      obtain ⟨numeral, isNumeral, rfl⟩ := Option.map_eq_some_iff.mp succeeds
      have ofKind := kind_convertToNumber? isNumeral
      simp only [Converter.basic, convert?, convertToNumber?,
        Numeral.setKind_of_kind ofKind]
      rfl
  | integer =>
      obtain ⟨word, -, rfl⟩ := convert?_integer_eq_some_iff.mp succeeds
      exact convert?_integer_eq_some_iff.mpr ⟨word, rfl, rfl⟩
  | expression | function =>
      obtain ⟨isOfType, isKept⟩ := Option.ite_none_right_eq_some.mp succeeds
      cases isKept
      exact if_pos isOfType
  | _ =>
      obtain ⟨content, -, rfl⟩ := Option.map_eq_some_iff.mp succeeds
      rfl

end Targets

/-- By the basic rules a truth value, an integer of either sort or a decimal becomes
an integer of 64 bits just if its quantity is an integer in their range, a big
integer just if it is an integer, and a decimal always, and the quantity is kept.  A
text that becomes an integer of 64 bits becomes a big integer and a decimal of the
same quantity.  Every result of a conversion stays as it is when it is converted
once more. -/
theorem conversion_exact (forest : Forest) :
    (∀ (value : Value Label) (x : ℚ), value.quantity? = some x →
      ∀ kind : NumberKind,
        value.ConvertsExactly forest .integer kind x
            (∃ whole : ℤ, x = whole ∧ Text.FitsWord whole) ∧
          value.ConvertsExactly forest .bigInteger kind x (∃ whole : ℤ, x = whole) ∧
          value.ConvertsExactly forest .number .arbitraryPrecision x True) ∧
      (∀ (text : String) (kind : NumberKind) (result : Value Label),
        Converter.basic.convert? forest (.text text) .integer kind = some result →
          ∃ (x : ℚ) (whole decimal : Value Label),
            result.quantity? = some x ∧ whole.quantity? = some x ∧
              decimal.quantity? = some x ∧
              (∀ other, Converter.basic.convert? forest (.text text) .bigInteger
                other = some whole) ∧
              Converter.basic.convert? forest (.text text) .number
                .arbitraryPrecision = some decimal) ∧
      ∀ (value result : Value Label) (target : ValueType) (kind : NumberKind),
        Converter.basic.convert? forest value target kind = some result →
          Converter.basic.convert? forest result target kind = some result := by
  refine ⟨fun value x isQuantity kind => ?_, fun text kind result succeeds => ?_,
    fun value result target kind => convert?_self⟩
  · exact ⟨convertsExactly_integer isQuantity, convertsExactly_bigInteger isQuantity,
      convertsExactly_number isQuantity⟩
  · obtain ⟨word, reads, rfl⟩ := convert?_integer_eq_some_iff.mp succeeds
    obtain ⟨decimal, isDecimal, isExact⟩ := readNumeral?_of_readInteger? reads
    refine ⟨word.toInt, .bigInteger word.toInt, .number (.decimal decimal), rfl, rfl,
      congrArg some isExact, fun other => ?_, ?_⟩
    · exact congrArg (Option.map bigInteger) reads
    · exact congrArg (Option.map number) isDecimal

/-- Next to the largest integer of 64 bits, and with a digit behind the point. -/
theorem conversion_exact_largest :
    let forest : Forest := Session.start.forest
    let largest : Value Unit := .number (.decimal ⟨92233720368547758070, 1⟩)
    let beyond : Value Unit := .number (.decimal ⟨92233720368547758080, 1⟩)
    let text : Value Unit := .text " 12.00 "
    (∃ result, Converter.basic.convert? forest largest .integer .floating =
        some result ∧ result.quantity? = some (2 ^ 63 - 1)) ∧
      Converter.basic.convert? forest beyond .integer .floating = none ∧
      (∃ result, Converter.basic.convert? forest beyond .bigInteger .floating =
        some result ∧ result.quantity? = some (2 ^ 63)) ∧
      Converter.basic.convert? forest text .integer .floating =
        some (.integer 12) ∧
      ∃ decimal, Converter.basic.convert? forest text .number .arbitraryPrecision =
          some decimal ∧
        decimal.quantity? = some 12 ∧
        Converter.basic.convert? forest decimal .number .arbitraryPrecision =
          some decimal := by
  intro forest largest beyond text
  obtain ⟨exact, reads, stays⟩ := @conversion_exact Unit forest
  have largestQuantity : largest.quantity? = some (2 ^ 63 - 1) := by
    simp [largest, quantity?, Decimal.toRat, Decimal.scale]
    norm_num
  have beyondQuantity : beyond.quantity? = some (2 ^ 63) := by
    simp [beyond, quantity?, Decimal.toRat, Decimal.scale]
    norm_num
  have toWord := (exact largest _ largestQuantity .floating).1
  have beyondWord := (exact beyond _ beyondQuantity .floating).1
  have beyondWhole := (exact beyond _ beyondQuantity .floating).2.1
  refine ⟨?_, ?_, ?_, rfl, ?_⟩
  · obtain ⟨result, succeeds⟩ := toWord.succeeds_iff.mpr
      ⟨2 ^ 63 - 1, by norm_num, by decide, by decide⟩
    exact ⟨result, succeeds, (toWord.exact result succeeds).2⟩
  · refine Option.eq_none_iff_forall_ne_some.mpr fun result succeeds => ?_
    obtain ⟨whole, isWhole, -, atMost⟩ :=
      beyondWord.succeeds_iff.mp ⟨result, succeeds⟩
    have : (2 : ℤ) ^ 63 = whole := by exact_mod_cast isWhole
    omega
  · obtain ⟨result, succeeds⟩ := beyondWhole.succeeds_iff.mpr
      ⟨2 ^ 63, by norm_num⟩
    exact ⟨result, succeeds, (beyondWhole.exact result succeeds).2⟩
  · obtain ⟨x, whole, decimal, isTwelve, -, isQuantity, -, converts⟩ :=
      reads " 12.00 " .floating (.integer 12) rfl
    have : x = 12 := (Option.some.inj isTwelve).symm
    subst this
    exact ⟨decimal, converts, isQuantity, stays _ _ _ _ converts⟩

end Value

end FormulaEngine
