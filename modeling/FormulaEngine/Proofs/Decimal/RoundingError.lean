import FormulaEngine.Proofs.Decimal.Significant

/-!
# Errors of rounding

Around every number stand two numbers of a few digits, less than one unit of the
last digit away from it, and no rounding to so many digits or more leaves the
space between them.  A mode that rounds to a nearest number moves a number by
half a unit at most, and no further than to any number that fits.  Relative
errors are kept as factors, which multiply up along products and along further
rounding.
-/

namespace FormulaEngine

section LastUnit

variable {digits : ℕ} {x y : ℚ}

theorem lastUnit_le_mul_abs (digits : ℕ) (nonzero : x ≠ 0) :
    lastUnit digits x ≤ 10 ^ (1 - digits : ℤ) * |x| := by
  rw [lastUnit, add_sub_assoc, add_comm, zpow_add₀ (by norm_num)]
  exact mul_le_mul_of_nonneg_left (zpow_log_le_abs nonzero)
    (Decimal.ten_zpow_pos _).le

theorem abs_lt_mul_lastUnit (digits : ℕ) (x : ℚ) :
    |x| < 10 ^ digits * lastUnit digits x := by
  rw [lastUnit, ← zpow_natCast, ← zpow_add₀ (by norm_num), add_sub_cancel]
  exact abs_lt_zpow_log x

theorem lastUnit_mono (digits : ℕ) (noLonger : Int.log 10 |x| ≤ Int.log 10 |y|) :
    lastUnit digits x ≤ lastUnit digits y :=
  zpow_le_zpow_right₀ (by norm_num) (by omega)

theorem lastUnit_anti {more : ℕ} (noFewer : digits ≤ more) (x : ℚ) :
    lastUnit more x ≤ lastUnit digits x :=
  zpow_le_zpow_right₀ (by norm_num) (by omega)

/-- A coefficient that a carry has taken to the next power of ten still fits. -/
theorem fitsDigits_of_abs_le (limited : digits ≠ 0) {coefficient : ℤ}
    (few : |coefficient| ≤ 10 ^ digits) (exponent : ℤ) :
    FitsDigits digits (coefficient * 10 ^ exponent) := by
  rcases few.lt_or_eq with less | carried
  · exact ⟨coefficient, exponent, less, rfl⟩
  have power : FitsDigits digits (10 ^ ((digits : ℤ) + exponent)) :=
    (fitsDigits_ten_zpow _).of_single limited
  rw [zpow_add₀ (by norm_num), zpow_natCast] at power
  rcases eq_or_eq_neg_of_abs_eq carried with rfl | rfl
  · exact_mod_cast power
  · have := power.neg
    push_cast
    rwa [neg_mul]

/-- The two numbers of so many digits around a number are less than a unit of the
last digit away. -/
theorem exists_fits_around (limited : digits ≠ 0) (x : ℚ) :
    ∃ lower upper, FitsDigits digits lower ∧ FitsDigits digits upper ∧
      lower ≤ x ∧ x ≤ upper ∧ x - lastUnit digits x < lower ∧
      upper < x + lastUnit digits x := by
  have unitPos := lastUnit_pos digits x
  have bounds := abs_lt.mp (abs_lt_mul_lastUnit digits x)
  set unit := lastUnit digits x with isUnit
  have below : -(10 ^ digits : ℚ) < x / unit := by
    rw [lt_div_iff₀ unitPos, neg_mul]
    exact bounds.1
  have above : x / unit < (10 ^ digits : ℚ) := (div_lt_iff₀ unitPos).mpr bounds.2
  have cancel : x / unit * unit = x := div_mul_cancel₀ x unitPos.ne'
  have fits {count : ℤ} (atLeast : -(10 : ℤ) ^ digits ≤ count)
      (atMost : count ≤ 10 ^ digits) : FitsDigits digits (count * unit) := by
    rw [isUnit, lastUnit]
    exact fitsDigits_of_abs_le limited (abs_le.mpr ⟨atLeast, atMost⟩) _
  refine ⟨⌊x / unit⌋ * unit, ⌈x / unit⌉ * unit, fits ?_ ?_, fits ?_ ?_, ?_, ?_,
    ?_, ?_⟩
  · exact Int.le_floor.mpr (by exact_mod_cast below.le)
  · exact Int.floor_le_iff.mpr (by push_cast; linarith)
  · exact Int.le_ceil_iff.mpr (by push_cast; linarith)
  · exact Int.ceil_le.mpr (by exact_mod_cast above.le)
  · calc ⌊x / unit⌋ * unit ≤ x / unit * unit :=
          mul_le_mul_of_nonneg_right (Int.floor_le _) unitPos.le
      _ = x := cancel
  · calc x = x / unit * unit := cancel.symm
      _ ≤ ⌈x / unit⌉ * unit :=
          mul_le_mul_of_nonneg_right (Int.le_ceil _) unitPos.le
  · calc x - unit = (x / unit - 1) * unit := by rw [sub_mul, cancel, one_mul]
      _ < ⌊x / unit⌋ * unit :=
          mul_lt_mul_of_pos_right (Int.sub_one_lt_floor _) unitPos
  · calc ⌈x / unit⌉ * unit < (x / unit + 1) * unit :=
          mul_lt_mul_of_pos_right (Int.ceil_lt_add_one _) unitPos
      _ = x + unit := by rw [add_mul, cancel, one_mul]

end LastUnit

namespace RoundingMode

/-- The modes that take a number to a nearest integer. -/
def isNearest : RoundingMode → Bool
  | halfUp | halfDown | halfEven => true
  | up | down | ceiling | floor => false

/-- The part of a unit by which a mode may move a number. -/
def spread (mode : RoundingMode) : ℚ :=
  if mode.isNearest then 1 / 2 else 1

theorem spread_nonneg (mode : RoundingMode) : 0 ≤ mode.spread := by
  unfold spread
  split <;> norm_num

theorem abs_toInt_sub_le_half {mode : RoundingMode} (nearest : mode.isNearest)
    (x : ℚ) : |mode.toInt x - x| ≤ 1 / 2 := by
  have above : |(⌊x + 1 / 2⌋ : ℚ) - x| ≤ 1 / 2 := by
    have := Int.floor_le (x + 1 / 2)
    have := Int.lt_floor_add_one (x + 1 / 2)
    exact abs_le.mpr ⟨by linarith, by linarith⟩
  have below : |(⌈x - 1 / 2⌉ : ℚ) - x| ≤ 1 / 2 := by
    have := Int.le_ceil (x - 1 / 2)
    have := Int.ceil_lt_add_one (x - 1 / 2)
    exact abs_le.mpr ⟨by linarith, by linarith⟩
  cases mode with
  | halfUp | halfDown | halfEven =>
      simp only [toInt]
      split
      all_goals assumption
  | up | down | ceiling | floor => cases nearest

/-- No integer is nearer than the one that a nearest mode rounds to. -/
theorem abs_toInt_sub_le {mode : RoundingMode} (nearest : mode.isNearest) (x : ℚ)
    (other : ℤ) : |mode.toInt x - x| ≤ |other - x| := by
  have half := abs_toInt_sub_le_half nearest x
  rcases eq_or_ne other (mode.toInt x) with rfl | apart
  · exact le_rfl
  have step : (1 : ℚ) ≤ |(other : ℚ) - mode.toInt x| := by
    exact_mod_cast Int.one_le_abs (sub_ne_zero.mpr apart)
  have := abs_sub_le (other : ℚ) x (mode.toInt x)
  rw [abs_sub_comm x] at this
  linarith

end RoundingMode

section Rounded

variable {digits more : ℕ} {mode : RoundingMode} {x y : ℚ}

theorem roundSignificant_sub (limited : digits ≠ 0) (nonzero : x ≠ 0) :
    roundSignificant digits mode x - x =
      (mode.toInt (x / lastUnit digits x) - x / lastUnit digits x) *
        lastUnit digits x := by
  rw [roundSignificant, if_neg (by simp [limited, nonzero]), sub_mul,
    div_mul_cancel₀ _ (lastUnit_pos digits x).ne']

/-- On the way from `x` to `y` no number of so many digits is passed. -/
structure PassesNone (digits : ℕ) (x y : ℚ) : Prop where
  lower : ∀ {bound}, FitsDigits digits bound → bound ≤ x → bound ≤ y
  upper : ∀ {bound}, FitsDigits digits bound → x ≤ bound → y ≤ bound

theorem passesNone_self (digits : ℕ) (x : ℚ) : PassesNone digits x x :=
  ⟨fun _ => id, fun _ => id⟩

theorem PassesNone.round (none : PassesNone digits x y) (noFewer : digits ≤ more)
    (mode : RoundingMode) : PassesNone digits x (roundSignificant more mode y) where
  lower fits atMost :=
    le_roundSignificant (fun _ => fits.mono noFewer) (none.lower fits atMost)
  upper fits atLeast :=
    roundSignificant_le (fun _ => fits.mono noFewer) (none.upper fits atLeast)

theorem PassesNone.abs_sub_lt (none : PassesNone digits x y)
    (limited : digits ≠ 0) : |y - x| < lastUnit digits x := by
  obtain ⟨below, above, belowFits, aboveFits, belowLe, leAbove, belowNear,
    aboveNear⟩ := exists_fits_around limited x
  have := none.lower belowFits belowLe
  have := none.upper aboveFits leAbove
  exact abs_lt.mpr ⟨by linarith, by linarith⟩

theorem abs_roundSignificant_sub_lt (limited : digits ≠ 0) :
    |roundSignificant digits mode x - x| < lastUnit digits x :=
  ((passesNone_self digits x).round le_rfl mode).abs_sub_lt limited

theorem abs_roundSignificant_sub_le_half (limited : digits ≠ 0)
    (nearest : mode.isNearest) :
    |roundSignificant digits mode x - x| ≤ 1 / 2 * lastUnit digits x := by
  have unitPos := lastUnit_pos digits x
  rcases eq_or_ne x 0 with isZero | nonzero
  · rw [roundSignificant, if_pos (.inr isZero), sub_self, abs_zero]
    positivity
  rw [roundSignificant_sub limited nonzero, abs_mul, abs_of_pos unitPos]
  exact mul_le_mul_of_nonneg_right (mode.abs_toInt_sub_le_half nearest _)
    unitPos.le

theorem abs_roundSignificant_sub_le_spread (limited : digits ≠ 0) :
    |roundSignificant digits mode x - x| ≤ mode.spread * lastUnit digits x := by
  unfold RoundingMode.spread
  split
  next nearest => exact abs_roundSignificant_sub_le_half limited nearest
  next =>
    rw [one_mul]
    exact (abs_roundSignificant_sub_lt limited).le

/-- No number up to the power of ten at the leading digit is nearer than the one
that a nearest mode rounds to. -/
theorem abs_roundSignificant_sub_le_of_short (limited : digits ≠ 0)
    (nearest : mode.isNearest) (nonzero : x ≠ 0)
    (short : |y| ≤ 10 ^ Int.log 10 |x|) :
    |roundSignificant digits mode x - x| ≤ |y - x| := by
  have unitPos := lastUnit_pos digits x
  have toMultiple (count : ℤ) : |roundSignificant digits mode x - x| ≤
      |count * lastUnit digits x - x| := by
    have multiple : count * lastUnit digits x - x =
        (count - x / lastUnit digits x) * lastUnit digits x := by
      rw [sub_mul, div_mul_cancel₀ _ unitPos.ne']
    rw [roundSignificant_sub limited nonzero, multiple, abs_mul, abs_mul]
    exact mul_le_mul_of_nonneg_right (mode.abs_toInt_sub_le nearest _ _)
      (abs_nonneg _)
  obtain ⟨count, isCount⟩ := exists_zpow_log_eq_mul_lastUnit limited x
  have leadingLe := zpow_log_le_abs nonzero
  set leading : ℚ := 10 ^ Int.log 10 |x|
  have toLeading : |roundSignificant digits mode x - x| ≤ |x| - leading := by
    rcases nonzero.lt_or_gt with negative | positive
    · rw [abs_of_neg negative] at leadingLe ⊢
      have := toMultiple (-count)
      rwa [Int.cast_neg, neg_mul, ← isCount,
        abs_of_nonneg (by linarith : 0 ≤ -leading - x), neg_sub_left,
        add_comm, ← neg_sub_left] at this
    · rw [abs_of_pos positive] at leadingLe ⊢
      have := toMultiple count
      rwa [← isCount, abs_of_nonpos (by linarith : leading - x ≤ 0),
        neg_sub] at this
  calc |roundSignificant digits mode x - x| ≤ |x| - leading := toLeading
    _ ≤ |x| - |y| := sub_le_sub_left short _
    _ ≤ |x - y| := abs_sub_abs_le_abs_sub x y
    _ = |y - x| := abs_sub_comm x y

/-- A nearest mode takes a number that is less than half a unit away from `x` to
one that is less than a unit away. -/
theorem abs_roundSignificant_sub_lt_of_near (limited : digits ≠ 0)
    (nearest : mode.isNearest) (near : |y - x| < 1 / 2 * lastUnit digits x) :
    |roundSignificant digits mode y - x| < lastUnit digits x := by
  have moved : |roundSignificant digits mode y - x| ≤
      |roundSignificant digits mode y - y| + |y - x| := abs_sub_le _ _ _
  by_cases noLonger : Int.log 10 |y| ≤ Int.log 10 |x|
  · have half : |roundSignificant digits mode y - y| ≤ 1 / 2 * lastUnit digits y :=
      abs_roundSignificant_sub_le_half limited nearest
    have := lastUnit_mono digits noLonger
    linarith
  -- Otherwise a power of ten lies between `x` and `y`, and rounding stops there.
  have toShort : |roundSignificant digits mode y - y| ≤ |x - y| := by
    rcases eq_or_ne y 0 with isZero | nonzero
    · rw [roundSignificant, if_pos (.inr isZero), sub_self, abs_zero]
      exact abs_nonneg _
    refine abs_roundSignificant_sub_le_of_short limited nearest nonzero ?_
    calc |x| ≤ 10 ^ (Int.log 10 |x| + 1) := (abs_lt_zpow_log x).le
      _ ≤ 10 ^ Int.log 10 |y| := zpow_le_zpow_right₀ (by norm_num) (by omega)
  rw [abs_sub_comm x y] at toShort
  linarith

end Rounded

/-! ### Relative errors -/

/-- The number `y` is `x` up to a relative error.  The error is given as the factor
by which it may enlarge a number. -/
def Within (factor x y : ℚ) : Prop :=
  |y - x| ≤ (factor - 1) * |x|

section Within

variable {first second x y z w : ℚ}

theorem within_self (x : ℚ) : Within 1 x x := by
  simp [Within]

theorem Within.abs_le (within : Within first x y) : |y| ≤ first * |x| := by
  unfold Within at within
  have := abs_add_le (y - x) x
  rw [sub_add_cancel] at this
  linarith

theorem Within.trans (within : Within first x y) (further : Within second y z)
    (atLeast : 1 ≤ second) : Within (first * second) x z := by
  have enlarged : (second - 1) * |y| ≤ (second - 1) * (first * |x|) :=
    mul_le_mul_of_nonneg_left within.abs_le (by linarith)
  calc |z - x| ≤ |z - y| + |y - x| := abs_sub_le _ _ _
    _ ≤ (second - 1) * (first * |x|) + (first - 1) * |x| :=
        add_le_add (le_trans further enlarged) within
    _ = (first * second - 1) * |x| := by ring

theorem Within.mul_right (within : Within first x y) (z : ℚ) :
    Within first (x * z) (y * z) := by
  unfold Within at within ⊢
  rw [← sub_mul, abs_mul, abs_mul, ← mul_assoc]
  exact mul_le_mul_of_nonneg_right within (abs_nonneg z)

theorem Within.mul (within : Within first x y) (other : Within second z w)
    (atLeast : 1 ≤ second) : Within (first * second) (x * z) (y * w) := by
  have moved := other.mul_right y
  rw [mul_comm z, mul_comm w] at moved
  exact (within.mul_right z).trans moved atLeast

/-- Rounding to some digits is a relative error of a unit in the last of them. -/
theorem within_roundSignificant {digits : ℕ} (limited : digits ≠ 0)
    (mode : RoundingMode) (x : ℚ) :
    Within (1 + mode.spread * 10 ^ (1 - digits : ℤ)) x
      (roundSignificant digits mode x) := by
  unfold Within
  rw [add_sub_cancel_left]
  rcases eq_or_ne x 0 with rfl | nonzero
  · simp [roundSignificant]
  calc |roundSignificant digits mode x - x|
      ≤ mode.spread * lastUnit digits x :=
        abs_roundSignificant_sub_le_spread limited
    _ ≤ mode.spread * (10 ^ (1 - digits : ℤ) * |x|) :=
        mul_le_mul_of_nonneg_left (lastUnit_le_mul_abs digits nonzero)
          mode.spread_nonneg
    _ = mode.spread * 10 ^ (1 - digits : ℤ) * |x| := (mul_assoc _ _ _).symm

end Within

namespace MathContext

variable {context : MathContext}

theorem precision_ne_zero (limited : context.isUnlimited = false) :
    context.precision.toNat ≠ 0 := by
  intro isZero
  have : context.precision = 0 := UInt64.toNat_inj.mp isZero
  simp [isUnlimited, this] at limited

/-- A positive budget makes no difference between exact and inexact results. -/
theorem roundInexact_eq_round (limited : context.isUnlimited = false)
    (value : Decimal) : context.roundInexact value = context.round value := by
  rw [roundInexact, round, digits, limited]
  rfl

end MathContext

end FormulaEngine
