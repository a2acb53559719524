import FormulaEngine.Decimal.Text
import FormulaEngine.Proofs.Decimal.Value
import Mathlib.Data.List.TakeWhile

/-!
# Reading what was written

A decimal is written as digits, with a point among them or an exponent behind them.
All of these are read in one way: the digits on both sides of the point make the
coefficient, and the places behind the point less the exponent make the scale.  So
what is read has the value that was written, though perhaps at another scale.
-/

namespace FormulaEngine

namespace Text

/-- A list of characters consists of decimal digits. -/
def AreDigits (characters : List Char) : Prop :=
  ∀ character ∈ characters, character.isDigit = true

/-- The sign in front of a magnitude. -/
def signOf (negative : Bool) : List Char :=
  if negative then ['-'] else []

variable {digits more : List Char}

theorem areDigits_toDigits (value : ℕ) : AreDigits (Nat.toDigits 10 value) :=
  fun _ member => Nat.isDigit_of_mem_toDigits (by omega) (by omega) member

theorem areDigits_zeros (count : ℕ) : AreDigits (List.replicate count '0') := by
  intro character member
  rw [List.eq_of_mem_replicate member]
  rfl

theorem areDigits_nil : AreDigits [] :=
  List.forall_mem_nil _

theorem AreDigits.append (first : AreDigits digits) (second : AreDigits more) :
    AreDigits (digits ++ more) :=
  List.forall_mem_append.mpr ⟨first, second⟩

theorem ne_of_isDigit {character other : Char} (isDigit : character.isDigit = true)
    (isOther : other.isDigit = false) : character ≠ other := by
  rintro rfl
  rw [isDigit] at isOther
  cases isOther

theorem AreDigits.ne (areDigits : AreDigits digits) {other : Char}
    (isOther : other.isDigit = false) : ∀ character ∈ digits, character ≠ other :=
  fun character member => ne_of_isDigit (areDigits character member) isOther

theorem AreDigits.head?_ne (areDigits : AreDigits digits) (other : Char)
    (isOther : other.isDigit = false) : digits.head? ≠ some other :=
  fun first => areDigits.ne isOther other (List.mem_of_head? first) rfl

theorem splitSign_signOf (areDigits : AreDigits digits) (negative : Bool) :
    splitSign (signOf negative ++ digits) = (negative, digits) := by
  cases negative with
  | true => rfl
  | false =>
      have notMinus := areDigits.head?_ne '-' rfl
      have notPlus := areDigits.head?_ne '+' rfl
      cases digits with
      | nil => rfl
      | cons first rest =>
          simp only [List.head?_cons, ne_eq, Option.some.injEq] at notMinus notPlus
          simp [signOf, splitSign, notMinus, notPlus]

theorem withSign_mul (negative : Bool) (magnitude factor : ℕ) :
    withSign negative (magnitude * factor) = withSign negative magnitude * factor := by
  cases negative <;> simp [withSign]

/-- Digits behind a sign are read as the integer that they stand for. -/
theorem readGroupedInt?_signOf (areDigits : AreDigits digits) (nonempty : digits ≠ [])
    (negative : Bool) :
    readGroupedInt? (signOf negative ++ digits) =
      some (withSign negative (Nat.ofDigitChars 10 digits 0)) := by
  have ungrouped : digits.filter (· ≠ '_') = digits :=
    List.filter_eq_self.mpr fun character member =>
      decide_eq_true (areDigits.ne rfl character member)
  have allDigits : digits.all Char.isDigit = true := List.all_eq_true.mpr areDigits
  simp only [readGroupedInt?, splitSign_signOf areDigits, ungrouped, readDigits?,
    if_neg (areDigits.head?_ne '_' rfl), if_pos (And.intro nonempty allDigits)]
  rfl

theorem toList_writeInt_eq (value : ℤ) :
    (writeInt value).toList =
      signOf (decide (value < 0)) ++ Nat.toDigits 10 value.natAbs := by
  rw [toList_writeInt]
  simp only [signOf, decide_eq_true_eq]
  split <;> rfl

end Text

namespace Decimal

open Text

/-- The places behind a point.  Where there are none, there is no point. -/
def pointed (places : List Char) : List Char :=
  if places = [] then [] else '.' :: places

/-- Characters behind the digits of a decimal stand for an exponent. -/
inductive SpellsExponent : List Char → ℤ → Prop
  | absent : SpellsExponent [] 0
  | marked {mark : Char} {text : List Char} {exponent : ℤ}
      (isMark : mark = 'e' ∨ mark = 'E') (reads : readInt? text = some exponent) :
      SpellsExponent (mark :: text) exponent

/-- Characters without a sign stand for a magnitude with a scale. -/
inductive Spells (magnitude : ℕ) (scale : ℤ) : List Char → Prop
  | parts {whole places exponentText : List Char} {exponent : ℤ}
      (nonempty : whole ≠ []) (wholeDigits : AreDigits whole)
      (placesDigits : AreDigits places)
      (spellsExponent : SpellsExponent exponentText exponent)
      (isMagnitude : Nat.ofDigitChars 10 (whole ++ places) 0 = magnitude)
      (isScale : places.length - exponent = scale) :
      Spells magnitude scale (whole ++ pointed places ++ exponentText)

theorem splitPoint_pointed {whole places : List Char}
    (noPoint : ∀ character ∈ whole, character ≠ '.')
    (placesDigits : AreDigits places) :
    splitPoint (whole ++ pointed places) = (whole ++ places, places.length) := by
  have skipsWhole : ∀ character ∈ whole, decide (character ≠ '.') = true :=
    fun character member => decide_eq_true (noPoint character member)
  unfold pointed
  split
  next noPlaces =>
    simp only [noPlaces, List.append_nil, splitPoint,
      List.dropWhile_eq_nil_iff.mpr skipsWhole, List.length_nil]
  next =>
    have ungrouped : places.countP (· ≠ '_') = places.length :=
      List.countP_eq_length.mpr fun character member =>
        decide_eq_true (placesDigits.ne rfl character member)
    rw [splitPoint, List.dropWhile_append_of_pos skipsWhole,
      List.takeWhile_append_of_pos skipsWhole, ← ungrouped]
    simp

theorem mem_pointed {places : List Char} {character : Char}
    (member : character ∈ pointed places) : character = '.' ∨ character ∈ places := by
  unfold pointed at member
  split at member
  · cases member
  · exact List.mem_cons.mp member

/-- The characters in front of an exponent. -/
theorem mem_signed {whole places : List Char} (wholeDigits : AreDigits whole)
    (placesDigits : AreDigits places) {negative : Bool} {character : Char}
    (member : character ∈ signOf negative ++ (whole ++ pointed places)) :
    character = '-' ∨ character = '.' ∨ character.isDigit = true := by
  rcases List.mem_append.mp member with inSign | behind
  · cases negative with
    | true => exact .inl (List.mem_singleton.mp inSign)
    | false => cases inSign
  · rcases List.mem_append.mp behind with inWhole | inPlaces
    · exact .inr (.inr (wholeDigits character inWhole))
    · exact .inr ((mem_pointed inPlaces).imp_right (placesDigits character))

/-- An exponent is read apart from the digits in front of it. -/
theorem read?_append {signed exponentText digits : List Char} {places : ℕ}
    {coefficient exponent : ℤ}
    (unmarked : ∀ character ∈ signed, (!(character == 'e' || character == 'E')) = true)
    (splits : splitPoint signed = (digits, places))
    (reads : readGroupedInt? digits = some coefficient)
    (spellsExponent : SpellsExponent exponentText exponent)
    (fits : (⟨coefficient, places - exponent⟩ : ExactDecimal).Fits) :
    read? (signed ++ exponentText) =
      some (ExactDecimal.store ⟨coefficient, places - exponent⟩) := by
  cases spellsExponent with
  | absent =>
      simp only [read?, List.append_nil, List.dropWhile_eq_nil_iff.mpr unmarked,
        List.takeWhile_eq_self_iff.mpr unmarked, splits, reads, if_pos fits]
  | @marked mark text exponent isMark readsExponent =>
      have stops : (!(mark == 'e' || mark == 'E')) = false := by
        rcases isMark with rfl | rfl <;> rfl
      simp only [read?, List.dropWhile_append_of_pos unmarked,
        List.takeWhile_append_of_pos unmarked, List.dropWhile_cons,
        List.takeWhile_cons, stops, Bool.false_eq_true, ↓reduceIte,
        List.append_nil, splits, reads, readsExponent, if_pos fits]

/-- What stands for a magnitude with a scale is read as such, behind a sign. -/
theorem Spells.read? {characters : List Char} {magnitude : ℕ} {scale : ℤ}
    (spells : Spells magnitude scale characters) (negative : Bool)
    (fits : (⟨withSign negative magnitude, scale⟩ : ExactDecimal).Fits) :
    Decimal.read? (signOf negative ++ characters) =
      some (ExactDecimal.store ⟨withSign negative magnitude, scale⟩) := by
  cases spells with
  | @parts whole places exponentText exponent nonempty wholeDigits placesDigits
      spellsExponent isMagnitude isScale =>
    subst isMagnitude isScale
    have unmarked : ∀ character ∈ signOf negative ++ (whole ++ pointed places),
        (!(character == 'e' || character == 'E')) = true := by
      intro character member
      rcases mem_signed wholeDigits placesDigits member with rfl | rfl | isDigit
      · rfl
      · rfl
      · have notLower : character ≠ 'e' := ne_of_isDigit isDigit rfl
        have notUpper : character ≠ 'E' := ne_of_isDigit isDigit rfl
        simp [notLower, notUpper]
    have noPoint : ∀ character ∈ signOf negative ++ whole, character ≠ '.' := by
      refine List.forall_mem_append.mpr ⟨?_, wholeDigits.ne rfl⟩
      cases negative <;> simp [signOf]
    have splits := splitPoint_pointed noPoint placesDigits
    have reads := readGroupedInt?_signOf (wholeDigits.append placesDigits)
      (by simp [nonempty]) negative
    rw [List.append_assoc] at splits
    rw [← List.append_assoc] at reads ⊢
    exact read?_append unmarked splits reads spellsExponent fits

/-! ### Writing -/

/-- Digits and zeros behind them stand for an integer. -/
theorem spells_zeros (magnitude zeros : ℕ) :
    Spells (magnitude * 10 ^ zeros) 0
      (Nat.toDigits 10 magnitude ++ List.replicate zeros '0') := by
  have isMagnitude : Nat.ofDigitChars 10
      ((Nat.toDigits 10 magnitude ++ List.replicate zeros '0') ++ []) 0 =
        magnitude * 10 ^ zeros := by
    rw [List.append_nil, Nat.ofDigitChars_append, Nat.ofDigitChars_ten_toDigits,
      Nat.ofDigitChars_replicate_zero, Nat.mul_comm]
  have spells := Spells.parts (by simp [Nat.toDigits_ne_nil])
    ((areDigits_toDigits magnitude).append (areDigits_zeros zeros)) areDigits_nil
    .absent isMagnitude rfl
  simpa [pointed] using spells

theorem readInt?_plus {value : ℤ} (notNegative : 0 ≤ value) :
    readInt? ('+' :: (writeInt value).toList) = some value := by
  have digits : (writeInt value).toList = Nat.toDigits 10 value.natAbs := by
    rw [toList_writeInt, if_neg notNegative.not_gt]
  have isValue : withSign false value.natAbs = value :=
    Int.natAbs_of_nonneg notNegative
  simp only [readInt?, splitSign, digits, readDigits?_toDigits, Option.map_some, isValue]

section Digits

variable {digits : List Char} {magnitude : ℕ}

/-- Digits with a point among them, and perhaps an exponent behind. -/
theorem spells_split (areDigits : AreDigits digits)
    (isMagnitude : Nat.ofDigitChars 10 digits 0 = magnitude) (count : ℕ)
    (nonempty : digits.take count ≠ []) {exponentText : List Char} {exponent : ℤ}
    (spellsExponent : SpellsExponent exponentText exponent) :
    Spells magnitude ((digits.length - count : ℕ) - exponent)
      (digits.take count ++ pointed (digits.drop count) ++ exponentText) := by
  refine .parts nonempty (fun _ member => areDigits _ (List.mem_of_mem_take member))
    (fun _ member => areDigits _ (List.mem_of_mem_drop member)) spellsExponent ?_ ?_
  · rw [List.take_append_drop, isMagnitude]
  · rw [List.length_drop]

theorem spells_whole (areDigits : AreDigits digits)
    (isMagnitude : Nat.ofDigitChars 10 digits 0 = magnitude) (nonempty : digits ≠ [])
    {exponentText : List Char} {exponent : ℤ}
    (spellsExponent : SpellsExponent exponentText exponent) :
    Spells magnitude (-exponent) (digits ++ exponentText) := by
  have spells : Spells magnitude (-exponent) (digits ++ pointed [] ++ exponentText) :=
    .parts nonempty areDigits areDigits_nil spellsExponent
      (by rw [List.append_nil, isMagnitude]) (Int.zero_sub exponent)
  simpa [pointed] using spells

theorem spells_withPoint (areDigits : AreDigits digits)
    (isMagnitude : Nat.ofDigitChars 10 digits 0 = magnitude) (nonempty : digits ≠ [])
    (places : ℕ) : Spells magnitude places (withPoint digits places) := by
  unfold withPoint
  split
  next noPlaces =>
    subst noPlaces
    simpa using spells_whole areDigits isMagnitude nonempty .absent
  next somePlaces =>
    split
    next inside =>
      have spells := spells_split areDigits isMagnitude (digits.length - places)
        (by simp [nonempty]; omega) .absent
      have behind : digits.drop (digits.length - places) ≠ [] := by
        simp only [ne_eq, List.drop_eq_nil_iff]
        omega
      have scale : ((digits.length - (digits.length - places) : ℕ) : ℤ) - 0 = places := by
        omega
      rw [scale] at spells
      simpa [pointed, behind] using spells
    next outside =>
      have spells : Spells magnitude places (['0'] ++
          pointed (List.replicate (places - digits.length) '0' ++ digits) ++ []) := by
        refine .parts (by simp) (areDigits_zeros 1)
          ((areDigits_zeros _).append areDigits) .absent ?_ ?_
        · rw [← List.append_assoc, Nat.ofDigitChars_append, Nat.ofDigitChars_append,
            Nat.ofDigitChars_replicate_zero]
          simpa [Nat.ofDigitChars_cons] using isMagnitude
        · simp only [List.length_append, List.length_replicate]
          omega
      simpa [pointed, nonempty] using spells

/-- One digit in front of the point, and an exponent that makes up for the others. -/
theorem spells_scientific (areDigits : AreDigits digits)
    (isMagnitude : Nat.ofDigitChars 10 digits 0 = magnitude) (nonempty : digits ≠ [])
    (scale : ℤ) :
    Spells magnitude scale (digits.take 1 ++ pointed (digits.drop 1) ++
      'E' :: (writeInt ((digits.length : ℤ) - 1 - scale)).toList) := by
  have spells := spells_split areDigits isMagnitude 1 (by simp [nonempty])
    (.marked (.inr rfl) (readInt?_writeInt ((digits.length : ℤ) - 1 - scale)))
  have isScale : ((digits.length - 1 : ℕ) : ℤ) - (digits.length - 1 - scale) = scale := by
    have positive := List.length_pos_of_ne_nil nonempty
    omega
  rwa [isScale] at spells

/-- All digits without a point, and an exponent for the zeros behind them. -/
theorem spells_dotless (areDigits : AreDigits digits)
    (isMagnitude : Nat.ofDigitChars 10 digits 0 = magnitude) (nonempty : digits ≠ [])
    {scale : ℤ} (integral : 0 ≤ -scale) :
    Spells magnitude scale (digits ++ 'e' :: '+' :: (writeInt (-scale)).toList) := by
  have spells := spells_whole areDigits isMagnitude nonempty
    (.marked (.inl rfl) (readInt?_plus integral))
  rwa [neg_neg] at spells

end Digits

/-- What is written stands for the magnitude and its scale; an integral decimal may
have been written out, with zeros behind its digits. -/
theorem spells_writeMagnitude (magnitude : ℕ) (scale : ℤ) :
    ∃ zeros : ℕ, (zeros = 0 ∨ scale + zeros = 0) ∧
      Spells (magnitude * 10 ^ zeros) (scale + zeros) (writeMagnitude magnitude scale) := by
  have areDigits := areDigits_toDigits magnitude
  have isMagnitude : Nat.ofDigitChars 10 (Nat.toDigits 10 magnitude) 0 = magnitude :=
    Nat.ofDigitChars_ten_toDigits
  have nonempty : Nat.toDigits 10 magnitude ≠ [] := Nat.toDigits_ne_nil
  have keeps {characters : List Char} (spells : Spells magnitude scale characters) :
      ∃ zeros : ℕ, (zeros = 0 ∨ scale + zeros = 0) ∧
        Spells (magnitude * 10 ^ zeros) (scale + zeros) characters :=
    ⟨0, .inl rfl, by simpa using spells⟩
  simp only [writeMagnitude]
  split
  next small => exact keeps (spells_scientific areDigits isMagnitude nonempty scale)
  next =>
    split
    next large =>
      simp only [trailingZeroLimit] at large
      exact keeps (spells_dotless areDigits isMagnitude nonempty (by omega))
    next =>
      unfold positional
      split
      next integral =>
        refine ⟨(-scale).toNat, .inr (by omega), ?_⟩
        have isScale : scale + (-scale).toNat = 0 := by omega
        rw [isScale]
        exact spells_zeros magnitude _
      next fractional =>
        have spells := spells_withPoint areDigits isMagnitude nonempty (- -scale).toNat
        have isScale : ((- -scale).toNat : ℤ) = scale := by omega
        rw [isScale] at spells
        exact keeps spells

theorem toList_write {value : Decimal} (nonzero : value.isZero = false) :
    value.write.toList = signOf (decide (value.coefficient < 0)) ++
      writeMagnitude value.coefficient.natAbs value.scale := by
  simp only [write, nonzero, Bool.false_eq_true, ↓reduceIte, String.toList_ofList, signOf,
    decide_eq_true_eq]
  split <;> simp

/-- A decimal is read back with the value that it was written with. -/
theorem read?_write (value : Decimal) :
    ∃ result, read? value.write.toList = some result ∧
      result.toRat = value.toRat := by
  cases isZero : value.isZero with
  | true =>
      refine ⟨zero, ?_, ?_⟩
      · rw [write, if_pos isZero]
        rfl
      · rw [toRat_zero, isZero_iff.mp isZero]
  | false =>
      obtain ⟨zeros, unchanged, spells⟩ :=
        spells_writeMagnitude value.coefficient.natAbs value.scale
      have notSmall := value.le_scale
      have notLarge : value.scale + zeros < 2 ^ 63 := by
        have := value.scale_lt
        omega
      refine ⟨value.widen zeros, ?_, toRat_widen notLarge⟩
      rw [toList_write isZero,
        spells.read? _ (ExactDecimal.fits_iff.mpr ⟨by dsimp only; omega, notLarge⟩),
        withSign_mul, withSign_natAbs]
      push_cast
      rfl

end Decimal

end FormulaEngine
