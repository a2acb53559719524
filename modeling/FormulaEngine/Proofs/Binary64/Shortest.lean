import FormulaEngine.Decimal.Binary64
import FormulaEngine.Proofs.Binary64.Parts
import FormulaEngine.Proofs.Decimal.Order

/-!
# Shortest digits in order

The search for the shortest digits of a float always finds some, and they lie in
the neighbourhood of the float.  Neighbourhoods follow each other in the order of
the floats.  Two of them share an end at most, and a shared end belongs to one of
them only, since one of two adjacent mantissas is odd.  So shortest digits are
strictly in the order of the floats.
-/

namespace FormulaEngine

theorem zpow_eq_pow_div_pow {base : ℚ} (nonzero : base ≠ 0) (exponent : ℤ) :
    base ^ exponent = base ^ exponent.toNat / base ^ (-exponent).toNat := by
  rw [← zpow_natCast, ← zpow_natCast, ← zpow_sub₀ nonzero]
  congr 1
  omega

namespace Binary64

namespace Neighbourhood

variable {neighbourhood : Neighbourhood} {coefficient : ℕ} {exponent : ℤ} {x : ℚ}

/-- The unit in which a neighbourhood is given. -/
def unit (neighbourhood : Neighbourhood) : ℚ :=
  neighbourhood.numerator / neighbourhood.denominator

/-- A rational number lies in a neighbourhood. -/
def Covers (neighbourhood : Neighbourhood) (x : ℚ) : Prop :=
  if neighbourhood.closed = true then
    neighbourhood.lower * neighbourhood.unit ≤ x ∧
      x ≤ neighbourhood.upper * neighbourhood.unit
  else
    neighbourhood.lower * neighbourhood.unit < x ∧
      x < neighbourhood.upper * neighbourhood.unit

theorem Covers.le (covers : neighbourhood.Covers x) :
    neighbourhood.lower * neighbourhood.unit ≤ x ∧
      x ≤ neighbourhood.upper * neighbourhood.unit := by
  unfold Covers at covers
  split at covers
  · exact covers
  · exact ⟨covers.1.le, covers.2.le⟩

theorem Covers.lt_of_open (covers : neighbourhood.Covers x)
    (isOpen : neighbourhood.closed = false) :
    neighbourhood.lower * neighbourhood.unit < x ∧
      x < neighbourhood.upper * neighbourhood.unit := by
  rwa [Covers, isOpen, if_neg Bool.false_ne_true] at covers

theorem covers_of_between (above : neighbourhood.lower * neighbourhood.unit < x)
    (below : x < neighbourhood.upper * neighbourhood.unit) :
    neighbourhood.Covers x := by
  unfold Covers
  split
  · exact ⟨above.le, below.le⟩
  · exact ⟨above, below⟩

section Grid

variable (positive : 0 < neighbourhood.denominator)

include positive

theorem contains_iff :
    neighbourhood.contains coefficient exponent = true ↔
      neighbourhood.Covers (coefficient * 10 ^ exponent) := by
  have tenPos (places : ℕ) : (0 : ℚ) < 10 ^ places := by positivity
  have denominatorPos : (0 : ℚ) < neighbourhood.denominator := by exact_mod_cast positive
  have point : (coefficient * 10 ^ exponent : ℚ) =
      coefficient * 10 ^ exponent.toNat / 10 ^ (-exponent).toNat := by
    rw [zpow_eq_pow_div_pow (by norm_num), mul_div_assoc]
  have bound (count : ℕ) : (count * neighbourhood.unit : ℚ) =
      count * neighbourhood.numerator / neighbourhood.denominator := by
    rw [unit, mul_div_assoc]
  have left (count : ℕ) : (count : ℚ) * neighbourhood.unit ≤ coefficient * 10 ^ exponent ↔
      count * (neighbourhood.numerator * 10 ^ (-exponent).toNat) ≤
        coefficient * 10 ^ exponent.toNat * neighbourhood.denominator := by
    rw [point, bound, div_le_div_iff₀ denominatorPos (tenPos _), mul_assoc]
    exact_mod_cast Iff.rfl
  have right (count : ℕ) : (coefficient : ℚ) * 10 ^ exponent ≤ count * neighbourhood.unit ↔
      coefficient * 10 ^ exponent.toNat * neighbourhood.denominator ≤
        count * (neighbourhood.numerator * 10 ^ (-exponent).toNat) := by
    rw [point, bound, div_le_div_iff₀ (tenPos _) denominatorPos, mul_assoc (count : ℚ)]
    exact_mod_cast Iff.rfl
  unfold contains Covers
  dsimp only
  split
  · simp only [Bool.and_eq_true, decide_eq_true_eq, left, right]
  · simp only [Bool.and_eq_true, decide_eq_true_eq, ← not_le, left, right]

theorem gridPoint?_covers
    (isPoint : neighbourhood.gridPoint? exponent = some coefficient) :
    0 < coefficient ∧ neighbourhood.Covers (coefficient * 10 ^ exponent) := by
  unfold gridPoint? at isPoint
  dsimp only at isPoint
  split_ifs at isPoint with belowHit aboveHit
  · cases isPoint
    simp only [Bool.and_eq_true, decide_eq_true_eq] at belowHit
    exact ⟨belowHit.1.1, (contains_iff positive).mp belowHit.1.2⟩
  · cases isPoint
    exact ⟨Nat.succ_pos _, (contains_iff positive).mp aboveHit⟩

/-- A grid whose steps are shorter than the upper half of a neighbourhood has a
point there. -/
theorem gridPoint?_isSome (ordered : neighbourhood.lower ≤ neighbourhood.middle)
    (fine : 10 ^ exponent <
      ((neighbourhood.upper : ℚ) - neighbourhood.middle) * neighbourhood.unit) :
    (neighbourhood.gridPoint? exponent).isSome = true := by
  set value := neighbourhood.middle * neighbourhood.numerator * 10 ^ (-exponent).toNat
    with isValue
  set step := neighbourhood.denominator * 10 ^ exponent.toNat with isStep
  have denominatorPos : (0 : ℚ) < neighbourhood.denominator := by exact_mod_cast positive
  have unitNonneg : 0 ≤ neighbourhood.unit := by
    unfold unit
    positivity
  have common : (0 : ℚ) < neighbourhood.denominator * 10 ^ (-exponent).toNat := by
    positivity
  have middle : (neighbourhood.middle : ℚ) * neighbourhood.unit =
      value / (neighbourhood.denominator * 10 ^ (-exponent).toNat) := by
    rw [isValue, unit]
    push_cast
    field_simp
  have point (count : ℕ) : (count : ℚ) * 10 ^ exponent =
      (count * step : ℕ) / (neighbourhood.denominator * 10 ^ (-exponent).toNat) := by
    rw [isStep, zpow_eq_pow_div_pow (by norm_num)]
    push_cast
    field_simp
  have stepPos : 0 < step := Nat.mul_pos positive (Nat.pow_pos (by norm_num))
  have atMost : ((value / step : ℕ) : ℚ) * 10 ^ exponent ≤
      neighbourhood.middle * neighbourhood.unit := by
    rw [middle, point, div_le_div_iff_of_pos_right common]
    exact_mod_cast Nat.div_mul_le_self value step
  have beyond : neighbourhood.middle * neighbourhood.unit <
      ((value / step + 1 : ℕ) : ℚ) * 10 ^ exponent := by
    rw [middle, point, div_lt_div_iff_of_pos_right common]
    exact_mod_cast Nat.lt_mul_of_div_lt (Nat.lt_succ_self _) stepPos
  have aboveHit : neighbourhood.contains (value / step + 1) exponent = true := by
    refine (contains_iff positive).mpr (covers_of_between ?_ ?_)
    · refine lt_of_le_of_lt ?_ beyond
      exact mul_le_mul_of_nonneg_right (by exact_mod_cast ordered) unitNonneg
    · push_cast
      linarith
  unfold gridPoint?
  dsimp only
  rw [← isValue, ← isStep, aboveHit, if_pos rfl]
  split <;> rfl

/-- A search that comes to a fine enough grid ends with a point of the
neighbourhood. -/
theorem search_covers {grids : ℕ}
    (found : ∃ places < grids,
      (neighbourhood.gridPoint? (exponent - places)).isSome = true) :
    0 < (neighbourhood.search grids exponent).1 ∧
      neighbourhood.Covers ((neighbourhood.search grids exponent).1 *
        10 ^ (neighbourhood.search grids exponent).2) := by
  induction grids generalizing exponent with
  | zero =>
      obtain ⟨places, impossible, -⟩ := found
      omega
  | succ grids ih =>
      rw [search]
      split
      next coefficient isPoint => exact gridPoint?_covers positive isPoint
      next isNone =>
        obtain ⟨places, within, isPoint⟩ := found
        cases places with
        | zero => simp [isNone] at isPoint
        | succ places =>
            refine ih ⟨places, by omega, ?_⟩
            rw [← isPoint]
            congr 2
            push_cast
            ring

end Grid

/-- A search ends no further down than one grid below its last one. -/
theorem le_search (grids : ℕ) (exponent : ℤ) :
    exponent - grids ≤ (neighbourhood.search grids exponent).2 := by
  induction grids generalizing exponent with
  | zero => exact (sub_zero exponent).le
  | succ grids ih =>
      rw [search]
      split
      next => exact sub_le_self _ (Int.natCast_nonneg _)
      next =>
        have := ih (exponent - 1)
        push_cast
        omega

section Of

variable {mantissa larger : ℕ} {largerExponent : ℤ} {y : ℚ}

theorem denominator_of_pos : 0 < (of mantissa exponent).denominator :=
  Nat.pow_pos (by norm_num)

theorem unit_of : (of mantissa exponent).unit = 2 ^ (exponent - 2) := by
  have flipped : (2 - exponent).toNat = (-(exponent - 2)).toNat := by omega
  rw [zpow_eq_pow_div_pow (by norm_num), unit, of, flipped]
  push_cast
  rfl

theorem unit_pos : 0 < (of mantissa exponent).unit := by
  rw [unit_of]
  exact zpow_pos (by norm_num) _

theorem lower_le_middle (mantissa : ℕ) (exponent : ℤ) :
    (of mantissa exponent).lower ≤ (of mantissa exponent).middle := by
  dsimp only [of]
  split <;> omega

/-- Neighbourhoods that follow each other have no point in common if an end that
they share belongs to one of them only. -/
theorem Covers.lt_of_meet {next : Neighbourhood} (covers : neighbourhood.Covers x)
    (nextCovers : next.Covers y)
    (meet : neighbourhood.upper * neighbourhood.unit ≤ next.lower * next.unit)
    (apart : neighbourhood.closed = false ∨ next.closed = false ∨
      neighbourhood.upper * neighbourhood.unit < next.lower * next.unit) : x < y := by
  rcases apart with isOpen | nextOpen | gap
  · exact ((covers.lt_of_open isOpen).2.trans_le meet).trans_le nextCovers.le.1
  · exact (covers.le.2.trans meet).trans_lt (nextCovers.lt_of_open nextOpen).1
  · exact (covers.le.2.trans_lt gap).trans_le nextCovers.le.1

/-- Neighbourhoods follow each other as the floats of one exponent do. -/
theorem Covers.lt_of_mantissa (covers : (of mantissa exponent).Covers x)
    (largerCovers : (of larger exponent).Covers y) (before : mantissa < larger) :
    x < y := by
  have lower : 4 * larger - 2 ≤ (of larger exponent).lower := by
    dsimp only [of]
    split <;> omega
  have meet : (of mantissa exponent).upper ≤ (of larger exponent).lower :=
    (by omega : 4 * mantissa + 2 ≤ 4 * larger - 2).trans lower
  have sameUnit : (of larger exponent).unit = (of mantissa exponent).unit :=
    unit_of.trans unit_of.symm
  refine covers.lt_of_meet largerCovers ?_ ?_
  · rw [sameUnit]
    exact mul_le_mul_of_nonneg_right (by exact_mod_cast meet) unit_pos.le
  rcases Nat.mod_two_eq_zero_or_one mantissa with even | odd
  · by_cases adjacent : larger = mantissa + 1
    · refine .inr (.inl (beq_eq_false_iff_ne.mpr ?_))
      omega
    · have gap : (of mantissa exponent).upper < (of larger exponent).lower :=
        (by omega : 4 * mantissa + 2 < 4 * larger - 2).trans_le lower
      rw [sameUnit]
      exact .inr (.inr (mul_lt_mul_of_pos_right (by exact_mod_cast gap) unit_pos))
  · exact .inl (beq_eq_false_iff_ne.mpr (by omega))

/-- Neighbourhoods follow each other as the floats of different exponents do. -/
theorem Covers.lt_of_exponent (covers : (of mantissa exponent).Covers x)
    (largerCovers : (of larger largerExponent).Covers y)
    (isMagnitude : IsMagnitude mantissa exponent)
    (isLarger : IsMagnitude larger largerExponent)
    (before : exponent < largerExponent) : x < y := by
  have least := isMagnitude.atLeast
  have short := isMagnitude.short
  have full : leadingBit ≤ larger := isLarger.full.resolve_right (by omega)
  have lower : 4 * leadingBit - 1 ≤ (of larger largerExponent).lower := by
    dsimp only [of]
    split <;> omega
  have unitDoubles : 2 * (of mantissa exponent).unit ≤
      (of larger largerExponent).unit := by
    rw [unit_of, unit_of, ← zpow_one_add₀ (by norm_num)]
    exact zpow_le_zpow_right₀ (by norm_num) (by omega)
  have doubled : ((2 * (of larger largerExponent).lower : ℕ) : ℚ) *
      (of mantissa exponent).unit ≤
        (of larger largerExponent).lower * (of larger largerExponent).unit := by
    push_cast
    rw [mul_comm 2, mul_assoc]
    exact mul_le_mul_of_nonneg_left unitDoubles (Nat.cast_nonneg _)
  have upper : (of mantissa exponent).upper = 4 * mantissa + 2 := rfl
  refine covers.lt_of_meet largerCovers (le_trans ?_ doubled) ?_
  · refine mul_le_mul_of_nonneg_right (Nat.cast_le.mpr ?_) unit_pos.le
    omega
  rcases Nat.mod_two_eq_zero_or_one mantissa with even | odd
  · have : leadingBit % 2 = 0 := rfl
    refine .inr (.inr (lt_of_lt_of_le ?_ doubled))
    refine mul_lt_mul_of_pos_right (Nat.cast_lt.mpr ?_) unit_pos
    omega
  · exact .inl (beq_eq_false_iff_ne.mpr (by omega))

end Of

end Neighbourhood

/-- The logarithm of two that starts the search is accurate enough for floats. -/
theorem ten_zpow_le_two_zpow {bits : ℤ} (few : bits ≤ 100000) :
    (10 : ℚ) ^ (bits * 30103 / 100000) ≤ 2 ^ (bits + 1) := by
  have lower : (2 : ℚ) ^ 100000 ≤ 10 ^ 30103 := by
    exact_mod_cast (by decide +kernel : 2 ^ 100000 ≤ 10 ^ 30103)
  have upper : (10 : ℚ) ^ 30103 ≤ 2 ^ 100001 := by
    exact_mod_cast (by decide +kernel : 10 ^ 30103 ≤ 2 ^ 100001)
  have floor := Int.ediv_mul_le (bits * 30103) (by norm_num : (100000 : ℤ) ≠ 0)
  have powers : ((10 : ℚ) ^ 30103) ^ bits ≤ 2 ^ ((bits + 1) * 100000) := by
    obtain ⟨count, rfl | rfl⟩ := bits.eq_nat_or_neg
    · calc ((10 : ℚ) ^ 30103) ^ (count : ℤ) = (10 ^ 30103) ^ count := zpow_natCast _ _
        _ ≤ (2 ^ 100001) ^ count := pow_le_pow_left₀ (by positivity) upper count
        _ = 2 ^ (100001 * count : ℤ) := by
            rw [← pow_mul, ← zpow_natCast]
            push_cast
            rfl
        _ ≤ 2 ^ ((count + 1) * 100000 : ℤ) :=
            zpow_le_zpow_right₀ (by norm_num) (by omega)
    · calc ((10 : ℚ) ^ 30103) ^ (-count : ℤ) = ((10 ^ 30103) ^ count)⁻¹ := by
            rw [zpow_neg, zpow_natCast]
        _ ≤ ((2 ^ 100000) ^ count)⁻¹ :=
            inv_anti₀ (by positivity) (pow_le_pow_left₀ (by positivity) lower count)
        _ = 2 ^ (-(100000 * count) : ℤ) := by
            rw [← pow_mul, zpow_neg, ← zpow_natCast]
            push_cast
            rfl
        _ ≤ 2 ^ ((-count + 1) * 100000 : ℤ) :=
            zpow_le_zpow_right₀ (by norm_num) (by omega)
  have floor := Int.ediv_mul_le (bits * 30103) (by norm_num : (100000 : ℤ) ≠ 0)
  refine (pow_le_pow_iff_left₀ (Decimal.ten_zpow_pos _).le
    (zpow_nonneg (by norm_num) _) (by norm_num : 100000 ≠ 0)).mp ?_
  calc ((10 : ℚ) ^ (bits * 30103 / 100000)) ^ 100000
      = 10 ^ (bits * 30103 / 100000 * 100000) := by
        rw [← zpow_natCast, ← zpow_mul]
        rfl
    _ ≤ 10 ^ (30103 * bits) := zpow_le_zpow_right₀ (by norm_num) (by omega)
    _ = (10 ^ 30103) ^ bits := by
        rw [zpow_mul]
        rfl
    _ ≤ 2 ^ ((bits + 1) * 100000) := powers
    _ = (2 ^ (bits + 1)) ^ 100000 := by
        rw [zpow_mul]
        rfl

/-- The value of the shortest digits of a float. -/
def shortestValue (mantissa : ℕ) (exponent : ℤ) : ℚ :=
  (shortestDigits mantissa exponent).1 * 10 ^ (shortestDigits mantissa exponent).2

/-- The value of the shortest digits of a float with a sign. -/
def signedValue (negative : Bool) (mantissa : ℕ) (exponent : ℤ) : ℚ :=
  if negative then -shortestValue mantissa exponent
  else shortestValue mantissa exponent

theorem shortestValue_zero (exponent : ℤ) : shortestValue 0 exponent = 0 := by
  simp [shortestValue, shortestDigits]

section Value

variable {mantissa larger : ℕ} {exponent largerExponent : ℤ}

/-- The last grid of the search is finer than half of the distance between
floats. -/
theorem ten_zpow_lastGrid_lt {bits : ℤ} (few : bits ≤ 53 + exponent)
    (atMost : exponent ≤ 971) :
    (10 : ℚ) ^ (bits * 30103 / 100000 + 1 - 21) < 2 ^ (exponent - 1) :=
  calc (10 : ℚ) ^ (bits * 30103 / 100000 + 1 - 21)
      = 10 ^ (bits * 30103 / 100000) * 10 ^ (-20 : ℤ) := by
        rw [← zpow_add₀ (by norm_num)]
        congr 1
        ring
    _ ≤ 2 ^ (bits + 1) * 10 ^ (-20 : ℤ) :=
        mul_le_mul_of_nonneg_right (ten_zpow_le_two_zpow (by omega))
          (Decimal.ten_zpow_pos _).le
    _ ≤ 2 ^ (55 + (exponent - 1)) * 10 ^ (-20 : ℤ) :=
        mul_le_mul_of_nonneg_right
          (zpow_le_zpow_right₀ (by norm_num) (by omega)) (Decimal.ten_zpow_pos _).le
    _ = 2 ^ (55 : ℤ) * 10 ^ (-20 : ℤ) * 2 ^ (exponent - 1) := by
        rw [mul_right_comm, ← zpow_add₀ (by norm_num)]
    _ < 2 ^ (exponent - 1) :=
        mul_lt_of_lt_one_left (zpow_pos (by norm_num) _) (by norm_num)

/-- The search finds digits, and they stand for the float. -/
theorem covers_shortestValue (isMagnitude : IsMagnitude mantissa exponent)
    (positive : 0 < mantissa) :
    0 < shortestValue mantissa exponent ∧
      (Neighbourhood.of mantissa exponent).Covers
        (shortestValue mantissa exponent) := by
  have fewBits : (Nat.log2 mantissa + 1 + exponent : ℤ) ≤ 53 + exponent := by
    have : Nat.log2 mantissa < 53 :=
      (Nat.log2_lt positive.ne').mpr isMagnitude.short
    omega
  set start : ℤ := (Nat.log2 mantissa + 1 + exponent) * 30103 / 100000 + 1 with isStart
  have half : ((Neighbourhood.of mantissa exponent).upper -
      (Neighbourhood.of mantissa exponent).middle : ℚ) *
        (Neighbourhood.of mantissa exponent).unit = 2 ^ (exponent - 1) := by
    have sameExponent : 1 + (exponent - 2) = exponent - 1 := by ring
    rw [Neighbourhood.unit_of, ← sameExponent, zpow_one_add₀ (by norm_num)]
    simp [Neighbourhood.of]
  have fine := ten_zpow_lastGrid_lt fewBits isMagnitude.atMost
  rw [← half] at fine
  have found : ∃ places : ℕ, places < 22 ∧
      ((Neighbourhood.of mantissa exponent).gridPoint? (start - places)).isSome = true :=
    ⟨21, by norm_num, Neighbourhood.gridPoint?_isSome Neighbourhood.denominator_of_pos
      (Neighbourhood.lower_le_middle mantissa exponent) fine⟩
  obtain ⟨coefficientPos, covers⟩ :=
    Neighbourhood.search_covers Neighbourhood.denominator_of_pos found
  rw [shortestValue, shortestDigits, if_neg positive.ne']
  exact ⟨mul_pos (by exact_mod_cast coefficientPos) (Decimal.ten_zpow_pos _), covers⟩

theorem shortestValue_lt (isMagnitude : IsMagnitude mantissa exponent)
    (isLarger : IsMagnitude larger largerExponent)
    (before : exponent < largerExponent ∨
      exponent = largerExponent ∧ mantissa < larger) :
    shortestValue mantissa exponent < shortestValue larger largerExponent := by
  have largerPos : 0 < larger := by
    rcases before with shorter | ⟨-, less⟩
    · have least := isMagnitude.atLeast
      have full := isLarger.full.resolve_right (by omega)
      exact lt_of_lt_of_le (by decide) full
    · omega
  obtain ⟨valuePos, largerCovers⟩ := covers_shortestValue isLarger largerPos
  rcases mantissa.eq_zero_or_pos with rfl | positive
  · rwa [shortestValue_zero]
  obtain ⟨-, covers⟩ := covers_shortestValue isMagnitude positive
  rcases before with shorter | ⟨rfl, less⟩
  · exact covers.lt_of_exponent largerCovers isMagnitude isLarger shorter
  · exact covers.lt_of_mantissa largerCovers less

/-- Shortest digits are in the order of the floats, exponents first. -/
theorem compare_shortestValue (isMagnitude : IsMagnitude mantissa exponent)
    (isOther : IsMagnitude larger largerExponent) :
    compare (shortestValue mantissa exponent) (shortestValue larger largerExponent) =
      (compare exponent largerExponent).then (compare mantissa larger) := by
  rcases lt_trichotomy exponent largerExponent with shorter | rfl | longer
  · rw [compare_lt_iff_lt.mpr shorter,
      compare_lt_iff_lt.mpr (shortestValue_lt isMagnitude isOther (.inl shorter))]
    rfl
  · rw [compare_eq_iff_eq.mpr (rfl : exponent = exponent)]
    rcases lt_trichotomy mantissa larger with less | rfl | greater
    · rw [compare_lt_iff_lt.mpr less, compare_lt_iff_lt.mpr
        (shortestValue_lt isMagnitude isOther (.inr ⟨rfl, less⟩))]
      rfl
    · rw [compare_eq_iff_eq.mpr rfl, compare_eq_iff_eq.mpr rfl]
      rfl
    · rw [compare_gt_iff_gt.mpr greater, compare_gt_iff_gt.mpr
        (shortestValue_lt isOther isMagnitude (.inr ⟨rfl, greater⟩))]
      rfl
  · rw [compare_gt_iff_gt.mpr longer,
      compare_gt_iff_gt.mpr (shortestValue_lt isOther isMagnitude (.inl longer))]
    rfl

theorem signedValue_pos (isMagnitude : IsMagnitude mantissa exponent)
    (positive : 0 < mantissa) :
    0 < signedValue false mantissa exponent ∧
      signedValue true mantissa exponent < 0 := by
  have := (covers_shortestValue isMagnitude positive).1
  exact ⟨this, neg_lt_zero.mpr this⟩

theorem signedValue_zero (negative : Bool) (exponent : ℤ) :
    signedValue negative 0 exponent = 0 := by
  cases negative <;> simp [signedValue, shortestValue_zero]

/-- Signs come first, and below zero the order of the floats turns round. -/
theorem compare_signedValue {negative largerNegative : Bool}
    (isMagnitude : IsMagnitude mantissa exponent)
    (isOther : IsMagnitude larger largerExponent) (positive : 0 < mantissa)
    (otherPositive : 0 < larger) :
    compare (signedValue negative mantissa exponent)
        (signedValue largerNegative larger largerExponent) =
      match negative, largerNegative with
      | true, false => .lt
      | false, true => .gt
      | false, false => (compare exponent largerExponent).then (compare mantissa larger)
      | true, true =>
          ((compare exponent largerExponent).then (compare mantissa larger)).swap := by
  obtain ⟨above, below⟩ := signedValue_pos isMagnitude positive
  obtain ⟨otherAbove, otherBelow⟩ := signedValue_pos isOther otherPositive
  cases negative <;> cases largerNegative
  case false.false => exact compare_shortestValue isMagnitude isOther
  case false.true => exact compare_gt_iff_gt.mpr (otherBelow.trans above)
  case true.false => exact compare_lt_iff_lt.mpr (below.trans otherAbove)
  case true.true =>
    dsimp only
    rw [← compare_shortestValue isMagnitude isOther, ← Std.OrientedOrd.eq_swap]
    exact compare_congr neg_lt_neg_iff neg_lt_neg_iff

end Value

end Binary64

/-- Shortest digits reach less than four hundred places behind the point. -/
theorem Binary64.le_shortestDigits {mantissa : ℕ} {exponent : ℤ}
    (isMagnitude : IsMagnitude mantissa exponent) :
    -400 ≤ (shortestDigits mantissa exponent).2 := by
  unfold shortestDigits
  split
  next => decide
  next =>
    have := isMagnitude.atLeast
    refine le_trans ?_ (Neighbourhood.le_search _ _)
    push_cast
    omega

/-- A finite float becomes the decimal of its shortest digits. -/
theorem Decimal.ofFloat?_eq {value : Float} {negative : Bool} {mantissa : ℕ}
    {exponent : ℤ}
    (isFinite : Binary64.parts value = .finite negative mantissa exponent) :
    ∃ decimal, ofFloat? value = some decimal ∧
      decimal.toRat = Binary64.signedValue negative mantissa exponent := by
  have fewPlaces := Binary64.le_shortestDigits (Binary64.isMagnitude_of_parts isFinite)
  rcases isDigits : Binary64.shortestDigits mantissa exponent with ⟨coefficient, power⟩
  simp only [ofFloat?, Binary64.signedValue, Binary64.shortestValue, isFinite,
    isDigits] at fewPlaces ⊢
  have fits {signed : ℤ} : (⟨signed, (-power).toNat⟩ : ExactDecimal).Fits :=
    ExactDecimal.fits_iff.mpr (by dsimp only; omega)
  have scaled : (10 : ℚ) ^ power.toNat * 10 ^ (-((-power).toNat : ℤ)) = 10 ^ power := by
    rw [zpow_neg, zpow_natCast, zpow_eq_pow_div_pow (by norm_num) power, div_eq_mul_inv]
  refine ⟨_, rfl, ?_⟩
  rw [ExactDecimal.toRat_store fits, ExactDecimal.toRat, ← scaled]
  split <;>
    · push_cast
      ring

end FormulaEngine
