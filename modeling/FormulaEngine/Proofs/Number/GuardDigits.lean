import FormulaEngine.Context.Config
import FormulaEngine.Proofs.Attempt
import FormulaEngine.Proofs.Number.PowerError

/-!
# Guard digits

A power rounds every product on the way to it with four digits more than its
result keeps.  Their number is a sum of words: at the largest budgets it wraps
around, and the products keep all their digits or next to none.  The reciprocal
behind a negative power keeps the digits of a quotient, whatever the budget.
-/

namespace FormulaEngine

namespace Decimal

/-! ### Products of squaring -/

/-- The products that squaring forms, in the order in which `step` rounds them. -/
def products (step : Decimal → Decimal) (exponent : ℕ)
    (result square : Decimal) : List Decimal :=
  (factors step exponent result square).map fun pair => pair.1.multiply pair.2

theorem products_one (step : Decimal → Decimal) (result square : Decimal) :
    products step 1 result square = [result.multiply square] := by
  simp [products, factors]

/-- No product is missing: a power depends on rounding only through what becomes
of these. -/
theorem squaring_congr {step other : Decimal → Decimal} {exponent : ℕ}
    {result square : Decimal}
    (agree : ∀ product ∈ products step exponent result square,
      other product = step product) :
    squaring other exponent result square =
      squaring step exponent result square := by
  induction exponent using Nat.strong_induction_on
    generalizing result square with
  | _ exponent ih =>
      conv_lhs => rw [squaring]
      conv_rhs => rw [squaring]
      split
      next => rfl
      next goesOn =>
        rw [products, factors, if_neg goesOn] at agree
        simp only [List.map_append, List.mem_append] at agree
        have multiplied :
            (if exponent % 2 = 1 then other (result.multiply square)
              else result) =
            if exponent % 2 = 1 then step (result.multiply square)
              else result := by
          split
          next odd => exact agree _ (.inl (.inl (by simp [odd])))
          next => rfl
        have squared :
            (if exponent / 2 = 0 then square
              else other (square.multiply square)) =
            if exponent / 2 = 0 then square
              else step (square.multiply square) := by
          split
          next => rfl
          next more => exact agree _ (.inl (.inr (by simp [more])))
        rw [multiplied, squared]
        exact ih _ (by omega) fun product formed =>
          agree product (.inr formed)

end Decimal

namespace MathContext

variable {context : MathContext}

/-! ### Accepted contexts -/

/-- A context with a budget that a caller has chosen, or one of settings that have
been read. -/
inductive Accepted (context : MathContext) : Prop
  | created {precision : UInt64} {rounding : RoundingMode}
      (creates : create precision rounding = .ok context)
  | read {lookup : String → Option String} {config : ContextConfig}
      (reads : ContextConfig.read lookup = .ok config)
      (isMath : config.math = context)

theorem create_eq_ok_iff {precision : UInt64} {rounding : RoundingMode} :
    create precision rounding = .ok context ↔
      precision ≠ 0 ∧ context = ⟨precision, rounding⟩ := by
  unfold create
  split
  next isZero => simp [isZero]
  next nonzero => simp [nonzero, eq_comm]

theorem precision_of_readPrecision {text : String}
    (reads : ContextConfig.readPrecision text = .ok context) :
    context.precision ≠ 0 := by
  unfold ContextConfig.readPrecision at reads
  split at reads
  next digits _ =>
    split at reads
    next =>
      obtain ⟨nonzero, rfl⟩ :=
        create_eq_ok_iff.mp (Attempt.of_mapError reads)
      exact nonzero
    next => cases reads
  next => cases reads

/-- Settings that have been read have a context whose budget was named, or the
default one. -/
theorem math_of_read {lookup : String → Option String} {config : ContextConfig}
    (reads : ContextConfig.read lookup = .ok config) :
    config.math = decimal128 ∨
      ∃ text, ContextConfig.readPrecision text = .ok config.math := by
  simp only [ContextConfig.read] at reads
  split at reads
  all_goals
    obtain ⟨kind, -, rest⟩ := Attempt.of_bind reads
    split at rest
    next text _ =>
      obtain ⟨math, isMath, same⟩ := Attempt.of_bind rest
      cases same
      exact .inr ⟨text, isMath⟩
    next =>
      cases rest
      exact .inl rfl

/-- Every positive budget is accepted, and no other one. -/
theorem accepted_iff : context.Accepted ↔ context.precision ≠ 0 := by
  constructor
  · rintro (creates | @⟨lookup, config, reads, rfl⟩)
    · obtain ⟨nonzero, rfl⟩ := create_eq_ok_iff.mp creates
      exact nonzero
    · rcases math_of_read reads with isDefault | ⟨text, isMath⟩
      · rw [isDefault]
        decide
      · exact precision_of_readPrecision isMath
  · exact fun nonzero => .created (create_eq_ok_iff.mpr ⟨nonzero, rfl⟩)

/-! ### Digits of intermediate values -/

/-- Every product on the way to a power of an integral exponent is rounded by less
than a unit of its last digit, counted in so many digits, as long as the scale of the
rounded product fits. -/
def ProductsKeep (context : MathContext) (digits : ℕ) : Prop :=
  ∀ base exponent : Decimal, exponent.isIntegral = true →
    ∀ product ∈ Decimal.products context.roundProduct
        exponent.truncate.natAbs .one base,
      (product.roundExact context.productDigits context.rounding).Fits →
      |(context.roundProduct product).toRat - product.toRat| <
        lastUnit digits product.toRat

/-- The reciprocal behind every negative power is less than a unit of its last
digit away from the exact one, counted in so many digits, as long as its scale
fits. -/
def ReciprocalsKeep (context : MathContext) (digits : ℕ) : Prop :=
  ∀ base exponent : Decimal, exponent.isIntegral = true →
    exponent.truncate < 0 → base.isZero = false →
    let power := base.naturalPower exponent.truncate.natAbs context
    (Decimal.one.divideExact power).Fits →
    |(Decimal.one.divide power).toRat - 1 / power.toRat| <
      lastUnit digits (1 / power.toRat)

/-- What is left of the digits of a budget on the way to a power. -/
structure CarriedDigits (context : MathContext) (budget : ℕ) : Prop where
  complete : ∀ (other : Decimal → Decimal) (base : Decimal) (count : ℕ),
    (∀ product ∈ Decimal.products context.roundProduct count .one base,
      other product = context.roundProduct product) →
    Decimal.squaring other count .one base = base.naturalPower count context
  sum : context.working.precision.toNat = (budget + 4) % 2 ^ 64
  sum_iff : context.working.precision.toNat = budget + 4 ↔
    budget + 4 < 2 ^ 64
  kept : budget + 4 < 2 ^ 64 → context.ProductsKeep (budget + 4)
  unrounded : budget + 4 = 2 ^ 64 → ∀ (base : Decimal) (count : ℕ),
    base.ProductsFit count context →
    (base.naturalPower count context).toRat = base.toRat ^ count
  lost : 2 ^ 64 < budget + 4 →
    0 < context.working.precision.toNat ∧ context.working.precision.toNat ≤ 3
  products_iff : context.ProductsKeep budget ↔ budget + 4 ≤ 2 ^ 64
  reciprocals_iff : context.ReciprocalsKeep budget ↔
    budget ≤ Decimal.quotientDigits

theorem working_precision (limited : context.isUnlimited = false) :
    context.working.precision.toNat = context.productDigits :=
  (if_neg (by simp [limited])).symm

/-- Products keep the digits that they are rounded to, and fewer ones. -/
theorem productsKeep_of_le (rounded : context.productDigits ≠ 0) {digits : ℕ}
    (atMost : digits ≤ context.productDigits) : context.ProductsKeep digits := by
  intro base exponent _ product _ fits
  rw [roundProduct, Decimal.toRat_roundTo fits]
  exact (abs_roundSignificant_sub_lt rounded).trans_le (lastUnit_anti atMost _)

/-- Products that are not rounded keep all digits. -/
theorem productsKeep_of_unrounded (unrounded : context.productDigits = 0)
    (digits : ℕ) : context.ProductsKeep digits := by
  intro base exponent _ product _ fits
  rw [roundProduct, Decimal.toRat_roundTo fits, unrounded, roundSignificant,
    if_pos (.inl rfl), sub_self, abs_zero]
  exact lastUnit_pos _ _

/-- Rounded to three digits or fewer, a number of five digits is one of hundreds. -/
theorem exists_hundreds {value : Decimal} (long : value.digitCount = 5)
    (whole : value.scale = 0) {digits : ℕ} (rounded : digits ≠ 0)
    (few : digits ≤ 3) (mode : RoundingMode) :
    ∃ hundreds : ℤ, roundSignificant digits mode value.toRat = 100 * hundreds := by
  by_cases isZero : value.coefficient = 0
  · exact ⟨0, by simp [roundSignificant, Decimal.toRat_eq_zero.mpr isZero]⟩
  obtain ⟨places, isPlaces⟩ := Nat.exists_eq_add_of_le few
  have unit : lastUnit digits value.toRat = 100 * 10 ^ places := by
    have exponent : (value.digitCount : ℤ) - digits - value.scale =
        (2 : ℕ) + (places : ℕ) := by
      omega
    rw [Decimal.lastUnit_toRat isZero, exponent, zpow_add₀ (by norm_num),
      zpow_natCast, zpow_natCast]
    norm_num
  have nonzero : value.toRat ≠ 0 := mt Decimal.toRat_eq_zero.mp isZero
  rw [roundSignificant, if_neg (by simp [rounded, nonzero]), unit]
  refine ⟨mode.toInt (value.toRat / (100 * 10 ^ places)) * 10 ^ places, ?_⟩
  push_cast
  ring

/-- Products of at most three digits lose those of a longer budget. -/
theorem not_productsKeep_of_few (rounded : context.productDigits ≠ 0)
    (few : context.productDigits ≤ 3) {digits : ℕ} (more : 5 ≤ digits) :
    ¬ context.ProductsKeep digits := by
  intro keeps
  set base : Decimal := ⟨12345, 0⟩ with isBase
  have isProduct : base ∈ Decimal.products context.roundProduct 1 .one base := by
    rw [Decimal.products_one, List.mem_singleton]
    decide +kernel
  have spans : base.exact.Spans 5 0 := Decimal.spans_exact.mpr (by decide)
  have fits :
      (base.roundExact context.productDigits context.rounding).Fits :=
    (Decimal.spans_roundExact spans _ _).fits (by norm_num) (by norm_num)
  have kept := keeps base .one (by decide) base isProduct fits
  obtain ⟨hundreds, isRounded⟩ :=
    exists_hundreds (by decide : base.digitCount = 5) rfl rounded few
      context.rounding
  have isNumber : base.toRat = 12345 := by
    simp [isBase, Decimal.toRat, Decimal.scale]
  have unit : lastUnit 5 (12345 : ℚ) = 1 :=
    @Decimal.lastUnit_of_bounds 5 0 _ (by norm_num) (by norm_num) (by norm_num)
  have near : |100 * hundreds - 12345| < (1 : ℤ) := by
    have := kept.trans_le (lastUnit_anti more _)
    rw [roundProduct, Decimal.toRat_roundTo fits, isRounded, isNumber, unit] at this
    exact_mod_cast this
  have := abs_lt.mp near
  omega

/-- The reciprocal of a power keeps the digits of a quotient. -/
theorem reciprocalsKeep_of_le {digits : ℕ}
    (atMost : digits ≤ Decimal.quotientDigits) :
    context.ReciprocalsKeep digits := by
  intro base exponent _ _ nonzero power fits
  have powerNonzero : power.toRat ≠ 0 :=
    Decimal.naturalPower_ne_zero (by simpa [← Decimal.isZero_iff] using nonzero)
      _ _
  obtain ⟨cutDigits, many, isQuotient⟩ :=
    Decimal.toRat_divide fits powerNonzero
  have cut : cutDigits ≠ 0 := by
    have : 0 < Decimal.quotientDigits := by decide
    omega
  rw [isQuotient, Decimal.toRat_one]
  exact (abs_roundSignificant_sub_lt cut).trans_le
    (lastUnit_anti (atMost.trans many) _)

/-- No budget makes a power of three have a reciprocal of more digits. -/
theorem le_of_reciprocalsKeep {digits : ℕ}
    (keeps : context.ReciprocalsKeep digits) :
    digits ≤ Decimal.quotientDigits := by
  have isPower : Decimal.naturalPower ⟨3, 0⟩ 1 context = ⟨3, 0⟩ := by
    have single : context.productDigits = 0 ∨
        (⟨3, 0⟩ : Decimal).digitCount ≤ context.productDigits := by
      have : (⟨3, 0⟩ : Decimal).digitCount = 1 := by decide
      omega
    have isProduct : Decimal.one.multiply ⟨3, 0⟩ = ⟨3, 0⟩ := by
      decide +kernel
    rw [Decimal.naturalPower_eq]
    simp [Decimal.squaring, isProduct, roundProduct, Decimal.roundTo,
      Decimal.roundExact, single]
  have isCut : Decimal.one.divide ⟨3, 0⟩ = ⟨(10 ^ 100 - 1) / 3, 100⟩ := by
    decide +kernel
  have isThree : (⟨3, 0⟩ : Decimal).toRat = 3 := by
    simp [Decimal.toRat, Decimal.scale]
  have isOne : (Decimal.ofInt (-1)).truncate.natAbs = 1 := by decide
  have unit : lastUnit 101 (1 / 3 : ℚ) = 10 ^ (-101 : ℤ) :=
    @Decimal.lastUnit_of_bounds 101 101 _ (by norm_num) (by norm_num)
      (by norm_num)
  have kept := keeps ⟨3, 0⟩ (.ofInt (-1)) (by decide) (by decide) (by decide)
  simp only [isOne, isPower, isThree, isCut] at kept
  have fits : (Decimal.one.divideExact ⟨3, 0⟩).Fits := by decide +kernel
  have isScale : (⟨(10 ^ 100 - 1) / 3, 100⟩ : Decimal).scale = 100 := rfl
  by_contra more
  have many : 101 ≤ digits := not_le.mp more
  have near := (kept fits).trans_le (lastUnit_anti many _)
  -- Cut to one hundred digits, one third misses more than a unit of the next.
  rw [unit, Decimal.toRat, isScale] at near
  norm_num at near

/-- In every accepted context the products on the way to a power keep the guard
digits as long as the sum of budget and guard digits is a word.  They keep the
digits of the result exactly up to the first budget for which it is not: there
they are not rounded at all, and beyond they keep three digits or fewer. -/
theorem guard_digits_carried (accepted : context.Accepted) :
    context.CarriedDigits context.precision.toNat := by
  have nonzero := accepted_iff.mp accepted
  have limited : context.isUnlimited = false := beq_eq_false_iff_ne.mpr nonzero
  have below : context.precision.toNat < 2 ^ 64 := context.precision.toNat_lt
  have wrapped := productDigits_eq_mod limited
  have isWorking := working_precision limited
  set budget := context.precision.toNat
  have fits : budget + 4 < 2 ^ 64 → context.productDigits = budget + 4 := by omega
  have vanishes : budget + 4 = 2 ^ 64 → context.productDigits = 0 := by omega
  have few : 2 ^ 64 < budget + 4 →
      0 < context.productDigits ∧ context.productDigits ≤ 3 := by omega
  constructor
  case complete =>
    intro other base count agree
    rw [Decimal.naturalPower_eq]
    exact Decimal.squaring_congr agree
  case sum => rw [isWorking, wrapped]
  case sum_iff => omega
  case kept =>
    intro room
    exact productsKeep_of_le (by omega) (fits room).ge
  case unrounded =>
    intro full base count fits
    exact fits.toRat_naturalPower fun _ _ rounded =>
      absurd (vanishes full) rounded
  case lost =>
    intro wraps
    rw [isWorking]
    exact few wraps
  case products_iff =>
    constructor
    · intro keeps
      by_contra wraps
      obtain ⟨rounded, short⟩ := few (not_le.mp wraps)
      exact not_productsKeep_of_few rounded.ne' short (by omega) keeps
    · intro room
      rcases room.lt_or_eq with less | full
      · exact productsKeep_of_le (by omega) (by omega)
      · exact productsKeep_of_unrounded (vanishes full) budget
  case reciprocals_iff => exact ⟨le_of_reciprocalsKeep, reciprocalsKeep_of_le⟩

/-- Seven digits, chosen by a caller, are eleven on the way. -/
theorem guard_digits_carried_seven :
    let context : MathContext := ⟨7, .up⟩
    create 7 .up = .ok context ∧ context.Accepted ∧
      context.ProductsKeep 11 ∧ context.ReciprocalsKeep 7 := by
  intro context
  have creates : create 7 .up = .ok context := rfl
  have accepted : context.Accepted := .created creates
  have carried := guard_digits_carried accepted
  exact ⟨creates, accepted, carried.kept (by decide),
    carried.reciprocals_iff.mpr (by decide)⟩

/-- The largest budget, chosen by a caller or read from a text, leaves three digits
on the way, so that the first power of 12345 is 12300. -/
theorem guard_digits_lost_largest :
    let context : MathContext := ⟨18446744073709551615, .halfEven⟩
    let lookup := fun name =>
      if name = ContextConfig.precisionVariable then
        some "18446744073709551615"
      else none
    create 18446744073709551615 .halfEven = .ok context ∧
      ContextConfig.read lookup = .ok ⟨.floating, context⟩ ∧
      context.working.precision = 3 ∧
      ArithmeticOp.power.reduce (.bigDecimal (.ofInt 12345))
          (.bigDecimal .one) context =
        .ok (.bigDecimal ⟨123, -2⟩) := by
  decide +kernel

end MathContext

end FormulaEngine
