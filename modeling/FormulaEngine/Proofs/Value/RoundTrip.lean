import FormulaEngine.Proofs.Decimal.Order
import FormulaEngine.Proofs.Decimal.Written
import FormulaEngine.Proofs.Value.Conversion

/-!
# Values as texts

Truth values, integers of both sorts, references and decimals become texts by the
basic rules, and the text of such a value becomes an equal value of the same type
again.  Integers and decimals are written without blank characters, so trimming a
text before it is read takes nothing away from them.
-/

namespace FormulaEngine

variable {Label : Type}

namespace Text

theorem isBlank_of_isDigit {character : Char} (isDigit : character.isDigit = true) :
    isBlank character = false := by
  have range : 48 ≤ character.toNat ∧ character.toNat ≤ 57 := by
    simpa [Char.isDigit, UInt32.le_iff_toNat_le] using isDigit
  simp only [isBlank, Bool.or_eq_false_iff, Bool.and_eq_false_iff, decide_eq_false_iff_not,
    beq_eq_false_iff_ne]
  omega

theorem AreDigits.not_isBlank {digits : List Char} (areDigits : AreDigits digits) :
    ∀ character ∈ digits, isBlank character = false :=
  fun character member => isBlank_of_isDigit (areDigits character member)

theorem not_isBlank_signOf (negative : Bool) :
    ∀ character ∈ signOf negative, isBlank character = false := by
  cases negative with
  | true => exact List.forall_mem_singleton.mpr rfl
  | false => nofun

/-- An integer is read back from what is written for it. -/
theorem readGroupedInt?_writeInt (value : ℤ) :
    readGroupedInt? (writeInt value).toList = some value := by
  rw [toList_writeInt_eq, readGroupedInt?_signOf (areDigits_toDigits _)
    Nat.toDigits_ne_nil, Nat.ofDigitChars_ten_toDigits, withSign_natAbs]

theorem not_isBlank_writeInt (value : ℤ) :
    ∀ character ∈ (writeInt value).toList, isBlank character = false := by
  rw [toList_writeInt_eq]
  exact List.forall_mem_append.mpr
    ⟨not_isBlank_signOf _, (areDigits_toDigits _).not_isBlank⟩

end Text

namespace Decimal

open Text

theorem not_isBlank_pointed {places : List Char} (placesDigits : AreDigits places) :
    ∀ character ∈ pointed places, isBlank character = false := by
  intro character member
  rcases mem_pointed member with rfl | inPlaces
  · rfl
  · exact placesDigits.not_isBlank character inPlaces

/-- What stands for an exponent is an integer behind a mark. -/
theorem SpellsExponent.not_isBlank {exponentText : List Char} {exponent : ℤ}
    (spells : SpellsExponent exponentText exponent) :
    ∀ character ∈ exponentText, isBlank character = false := by
  cases spells with
  | absent => nofun
  | @marked mark text exponent isMark reads =>
      simp only [readInt?, readDigits?, Option.map_eq_some_iff,
        Option.ite_none_right_eq_some] at reads
      obtain ⟨magnitude, ⟨⟨-, allDigits⟩, -⟩, -⟩ := reads
      have areDigits : AreDigits (splitSign text).2 := List.all_eq_true.mp allDigits
      refine List.forall_mem_cons.mpr ⟨?_, fun character member => ?_⟩
      · rcases isMark with rfl | rfl <;> rfl
      · rcases mem_of_splitSign member with rfl | rfl | behind
        · rfl
        · rfl
        · exact areDigits.not_isBlank character behind

theorem not_isBlank_write (value : Decimal) :
    ∀ character ∈ value.write.toList, isBlank character = false := by
  cases isZero : value.isZero with
  | true =>
      have zero : value.write.toList = ['0'] := by rw [write, if_pos isZero]; rfl
      rw [zero]
      exact List.forall_mem_singleton.mpr rfl
  | false =>
      obtain ⟨zeros, -, spells⟩ :=
        spells_writeMagnitude value.coefficient.natAbs value.scale
      rw [toList_write isZero]
      refine List.forall_mem_append.mpr ⟨not_isBlank_signOf _, ?_⟩
      generalize writeMagnitude _ _ = characters at spells
      cases spells with
      | parts nonempty wholeDigits placesDigits spellsExponent =>
          exact List.forall_mem_append.mpr
            ⟨List.forall_mem_append.mpr
              ⟨wholeDigits.not_isBlank, not_isBlank_pointed placesDigits⟩,
              spellsExponent.not_isBlank⟩

end Decimal

namespace Value

theorem convertToBool?_writeBool (value : Bool) :
    (text (writeBool value) : Value Label).convertToBool? = some value := by
  have lowered : (Text.trim (writeBool value)).map Char.toLower = writeBool value := by
    refine String.toList_inj.mp ?_
    rw [String.toList_map]
    cases value <;> rfl
  rw [convertToBool?, lowered]
  cases value <;> rfl

theorem readInteger?_writeInt (value : ℤ) :
    readInteger? (Text.writeInt value) = some value := by
  simp only [readInteger?, Text.trimChars_eq_self (Text.not_isBlank_writeInt value),
    Text.readGroupedInt?_writeInt]

theorem readNumeral?_write (value : Decimal) :
    ∃ result : Decimal,
      readNumeral? .arbitraryPrecision value.write = some (.decimal result) ∧
        result.toRat = value.toRat := by
  obtain ⟨result, reads, isEqual⟩ := Decimal.read?_write value
  refine ⟨result, ?_, isEqual⟩
  simp only [readNumeral?, Text.trimChars_eq_self value.not_isBlank_write, reads,
    Option.map_some]

/-- A value that a text can stand for: a truth value, an integer, a reference, or,
where numbers are decimals, a decimal. -/
inductive HasText (kind : NumberKind) : Value Label → Prop
  | bool (value : Bool) : HasText kind (.bool value)
  | integer (value : Int64) : HasText kind (.integer value)
  | bigInteger (value : ℤ) : HasText kind (.bigInteger value)
  | reference (name : Reference) : HasText kind (.reference name)
  | decimal (value : Decimal) (exact : kind = .arbitraryPrecision) :
      HasText kind (.number (.decimal value))

/-- A value converts to a text by the basic rules, and the text converts back to an
equal value of the same type. -/
theorem text_converts_back (forest : Forest) {kind : NumberKind} {value : Value Label}
    (hasText : value.HasText kind) :
    ∃ (text : String) (result : Value Label),
      Converter.basic.convert? forest value .text kind = some (.text text) ∧
        Converter.basic.convert? forest (.text text) value.type kind = some result ∧
        result.type = value.type ∧ result.areEqual forest value = true := by
  cases hasText with
  | bool value =>
      have reads : (text (writeBool value) : Value Label).convertToBool? = some value :=
        convertToBool?_writeBool value
      exact ⟨_, .bool value, rfl, congrArg (Option.map bool) reads, rfl,
        beq_self_eq_true value⟩
  | integer value =>
      have reads : (text (Text.writeInt value.toInt) : Value Label).convertToInteger? =
          some value.toInt := readInteger?_writeInt value.toInt
      exact ⟨_, .integer value, rfl, convert?_integer_eq_some_iff.mpr ⟨value, reads, rfl⟩,
        rfl, beq_self_eq_true value⟩
  | bigInteger value =>
      have reads : (text (Text.writeInt value) : Value Label).convertToInteger? =
          some value := readInteger?_writeInt value
      exact ⟨_, .bigInteger value, rfl,
        convert?_bigInteger_eq_some_iff.mpr ⟨value, reads, rfl⟩, rfl,
        beq_self_eq_true value⟩
  | reference name =>
      exact ⟨name.text, .reference name, rfl, rfl, rfl, beq_self_eq_true name⟩
  | decimal value exact =>
      subst exact
      obtain ⟨result, reads, isEqual⟩ := readNumeral?_write value
      have order : result.order value = .eq := by
        rw [Decimal.order_eq, isEqual, compare_eq_iff_eq]
      refine ⟨value.write, .number (.decimal result), rfl,
        congrArg (Option.map number) reads, rfl, ?_⟩
      simp only [areEqual, Numeral.isEqual, Numeral.compare?, order, beq_self_eq_true]

/-- With an exponent behind its digits, and with zeros that are written out. -/
theorem text_converts_back_tenths :
    let forest : Forest := Session.start.forest
    let small : Value Unit := .number (.decimal ⟨-150, 12⟩)
    let large : Value Unit := .number (.decimal ⟨25, -3⟩)
    Converter.basic.convert? forest small .text .arbitraryPrecision =
        some (.text "-1.50E-10") ∧
      Converter.basic.convert? forest large .text .arbitraryPrecision =
        some (.text "25000") ∧
      ∀ value ∈ [small, large], ∃ text result,
        Converter.basic.convert? forest value .text .arbitraryPrecision =
            some (.text text) ∧
          Converter.basic.convert? forest (.text text) .number .arbitraryPrecision =
            some result ∧ result.areEqual forest value = true := by
  intro forest small large
  have smallHasText : small.HasText .arbitraryPrecision := .decimal _ rfl
  have largeHasText : large.HasText .arbitraryPrecision := .decimal _ rfl
  refine ⟨by rfl, by rfl, List.forall_mem_cons.mpr ⟨?_, List.forall_mem_singleton.mpr ?_⟩⟩
  · obtain ⟨text, result, converts, back, -, isEqual⟩ :=
      text_converts_back forest smallHasText
    exact ⟨text, result, converts, back, isEqual⟩
  · obtain ⟨text, result, converts, back, -, isEqual⟩ :=
      text_converts_back forest largeHasText
    exact ⟨text, result, converts, back, isEqual⟩

end Value

end FormulaEngine
