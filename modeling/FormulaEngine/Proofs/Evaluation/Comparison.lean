import FormulaEngine.Evaluation.Machine
import FormulaEngine.Proofs.Evaluation.Node
import FormulaEngine.Proofs.Expression.Session
import FormulaEngine.Proofs.Number.Exactness

/-!
# The order of numbers

Where decimals are the kind of numbers, floats become decimals before they are
compared, and all other numbers keep their representation.  Two of them may meet
in another representation than one of them and a third, yet every comparison is
that of the exact values, so the comparisons fit together as those of a total
order.
-/

namespace FormulaEngine

variable {Label : Type}

namespace Relation

/-- The relation of two rational numbers. -/
def Holds : Relation → ℚ → ℚ → Prop
  | eq, x, y => x = y
  | ne, x, y => x ≠ y
  | gt, x, y => x > y
  | ge, x, y => x ≥ y
  | lt, x, y => x < y
  | le, x, y => x ≤ y

instance (relation : Relation) (x y : ℚ) : Decidable (relation.Holds x y) := by
  cases relation <;> unfold Holds <;> infer_instance

theorem test_compare (relation : Relation) (x y : ℚ) :
    relation.test (some (compare x y)) = decide (relation.Holds x y) := by
  rcases lt_trichotomy x y with less | same | greater
  · rw [compare_lt_iff_lt.mpr less]
    cases relation <;> simp [test, Holds, less, less.le, less.ne, less.not_gt]
  · rw [compare_eq_iff_eq.mpr same]
    cases relation <;> simp [test, Holds, same]
  · rw [compare_gt_iff_gt.mpr greater]
    cases relation <;>
      simp [test, Holds, greater, greater.le, greater.ne', greater.not_gt,
        greater.not_ge]

/-- The operator that tests a relation. -/
def operator : Relation → BinaryOp
  | eq => .eq
  | ne => .ne
  | gt => .gt
  | ge => .ge
  | lt => .lt
  | le => .le

theorem group_operator (relation : Relation) :
    relation.operator.group = .comparison relation := by
  cases relation <;> rfl

end Relation

theorem OperandPair.StandsFor.relation {pair : OperandPair} {x y : ℚ}
    (stands : pair.StandsFor x y) (relation : Relation) :
    relation.combination.onPair pair = .ok (decide (relation.Holds x y)) := by
  rw [← Relation.test_compare]
  cases stands with
  | integers left right =>
      have sameOrder : compare left.toInt right.toInt =
          compare (left.toInt : ℚ) right.toInt :=
        compare_congr Int.cast_lt.symm Int.cast_lt.symm
      rw [← sameOrder]
      rfl
  | bigIntegers left right =>
      have sameOrder : compare left right = compare (left : ℚ) right :=
        compare_congr Int.cast_lt.symm Int.cast_lt.symm
      rw [← sameOrder]
      rfl
  | decimals left right =>
      rw [← left.order_eq]
      rfl

/-- Operands that meet exactly are compared by their values. -/
theorem Operand.MeetExactly.relation_holds {left right : Operand} {x y : ℚ}
    (meets : left.MeetExactly right x y) (relation : Relation) :
    relation.holds left right = .ok (decide (relation.Holds x y)) := by
  obtain ⟨pair, isPair, -, -, stands⟩ := meets.meet
  rw [Relation.holds, Combination.reduce, isPair]
  exact stands.relation relation

namespace Value

/-- The exact value of an integer or of a finite number. -/
def exactValue? (value : Value Label) : Option ℚ :=
  value.toOperand?.bind Operand.exactValue?

/-- Integers of both sorts are finite, and so are numbers other than the infinite
floats and the float that is no number. -/
def IsFiniteNumber : Value Label → Prop
  | number numeral => numeral.toOperand.IsFinite
  | integer _ | bigInteger _ => True
  | _ => False

theorem exactValue?_isSome_iff {value : Value Label} :
    value.exactValue?.isSome = true ↔ value.IsFiniteNumber := by
  cases value with
  | number numeral => exact Operand.exactValue?_isSome_iff
  | integer | bigInteger => exact iff_of_true rfl trivial
  | _ => exact iff_of_false Bool.false_ne_true id

theorem exactValue?_of_isFiniteNumber {value : Value Label}
    (finite : value.IsFiniteNumber) : ∃ x, value.exactValue? = some x :=
  Option.isSome_iff_exists.mp (exactValue?_isSome_iff.mpr finite)

/-- In the kind of decimals a value keeps its exact value and is no float. -/
theorem operandIn?_exact {value : Value Label} {x : ℚ}
    (exact : value.exactValue? = some x) :
    ∃ operand, value.operandIn? .arbitraryPrecision = .ok (some operand) ∧
      operand.exactValue? = some x ∧ operand.representation ≠ .float := by
  cases value with
  | number numeral =>
      cases numeral with
      | floating value =>
          have floatExact : (Operand.float value).exactValue? = some x := exact
          obtain ⟨decimal, isDecimal, isValue⟩ :=
            Operand.toDecimal_exact floatExact
          refine ⟨.bigDecimal decimal, ?_, congrArg some isValue, nofun⟩
          simp only [operandIn?, Numeral.setKind, Numeral.kind, Numeral.toOperand,
            NumberKind.create, isDecimal]
          rfl
      | decimal value => exact ⟨.bigDecimal value, rfl, exact, nofun⟩
  | integer value => exact ⟨.integer value, rfl, exact, nofun⟩
  | bigInteger value => exact ⟨.bigInteger value, rfl, exact, nofun⟩
  | _ => cases exact

theorem operandsIn?_exact {left right : Value Label} {x y : ℚ}
    (leftExact : left.exactValue? = some x) (rightExact : right.exactValue? = some y) :
    ∃ first second,
      left.operandsIn? .arbitraryPrecision right = .ok (some (first, second)) ∧
        first.MeetExactly second x y := by
  obtain ⟨first, isFirst, firstExact, firstKind⟩ := operandIn?_exact leftExact
  obtain ⟨second, isSecond, secondExact, secondKind⟩ := operandIn?_exact rightExact
  refine ⟨first, second, ?_, firstExact, secondExact, ?_⟩
  · rw [operandsIn?, isFirst, isSecond]
    rfl
  · unfold Operand.meeting
    revert firstKind secondKind
    cases first.representation <;> cases second.representation <;> decide

end Value

namespace Context

/-- Values with exact values are compared by these. -/
theorem binary_comparison {context : Context Label}
    (arbitrary : context.kind = .arbitraryPrecision) (forest : Forest)
    (machine : Machine Label) (relation : Relation) {left right : Value Label}
    {x y : ℚ} (leftExact : left.exactValue? = some x)
    (rightExact : right.exactValue? = some y) :
    context.binary forest machine relation.operator left right =
      pure (.bool (decide (relation.Holds x y))) := by
  obtain ⟨first, second, areOperands, meets⟩ :=
    Value.operandsIn?_exact leftExact rightExact
  have compared : context.comparison forest relation.operator relation left
      right = .ok (.bool (decide (relation.Holds x y))) := by
    rw [comparison, arbitrary, areOperands]
    change ((relation.holds first second).map Value.bool).mapError _ = _
    rw [meets.relation_holds]
    rfl
  simp only [binary, relation.group_operator, compared]
  rfl

end Context

/-- Comparisons fit together as those of a total order do, up to an equality of
their own. -/
structure OrdersTotally {Item : Type} (holds : Relation → Item → Item → Prop) :
    Prop where
  equivalence : Equivalence (holds .eq)
  irreflexive : ∀ item, ¬ holds .lt item item
  transitive : ∀ {first second third},
    holds .lt first second → holds .lt second third → holds .lt first third
  congruent : ∀ {first second third fourth},
    holds .eq first second → holds .eq third fourth →
      (holds .lt first third ↔ holds .lt second fourth)
  trichotomous : ∀ first second,
    (holds .lt first second ∧ ¬ holds .eq first second ∧
        ¬ holds .gt first second) ∨
      (¬ holds .lt first second ∧ holds .eq first second ∧
        ¬ holds .gt first second) ∨
      (¬ holds .lt first second ∧ ¬ holds .eq first second ∧
        holds .gt first second)
  converse : ∀ {first second}, holds .gt first second ↔ holds .lt second first
  ne_iff : ∀ {first second}, holds .ne first second ↔ ¬ holds .eq first second
  le_iff : ∀ {first second}, holds .le first second ↔ ¬ holds .gt first second
  ge_iff : ∀ {first second}, holds .ge first second ↔ ¬ holds .lt first second

/-- Comparisons by a rational value fit together. -/
theorem ordersTotally_of_value {Item : Type} (valueOf : Item → ℚ) :
    OrdersTotally fun relation first second =>
      relation.Holds (valueOf first) (valueOf second) where
  equivalence := ⟨fun _ => rfl, Eq.symm, Eq.trans⟩
  irreflexive := fun item => lt_irrefl (valueOf item)
  transitive := lt_trans
  congruent := fun {first second third fourth} same otherSame => by
    simp only [Relation.Holds] at same otherSame ⊢
    rw [same, otherSame]
  trichotomous := fun first second => by
    simp only [Relation.Holds, gt_iff_lt]
    rcases lt_trichotomy (valueOf first) (valueOf second) with less | same | greater
    · exact .inl ⟨less, less.ne, less.not_gt⟩
    · exact .inr (.inl ⟨same.not_lt, same, same.not_gt⟩)
    · exact .inr (.inr ⟨greater.not_gt, greater.ne', greater⟩)
  converse := Iff.rfl
  ne_iff := Iff.rfl
  le_iff := not_lt.symm
  ge_iff := not_lt.symm

namespace World

/-- Where decimals are the kind of numbers, comparisons of finite numbers succeed
and are those of the exact values, whatever the representations; so together they
are the comparisons of a total order. -/
theorem comparison_exact (world : World Label) (context : Context Label)
    (arbitrary : context.kind = .arbitraryPrecision) :
    (∀ (relation : Relation) (leftValue rightValue : Value Label),
      leftValue.IsFiniteNumber → rightValue.IsFiniteNumber →
        ∃ x y : ℚ, leftValue.exactValue? = some x ∧
          rightValue.exactValue? = some y ∧
          (∀ machine : Machine Label,
            context.binary world.forest machine relation.operator leftValue
              rightValue = pure (.bool (decide (relation.Holds x y)))) ∧
          ∀ (steps : Nat) (expression left right : Expression),
            world.forest.node expression =
              .binary relation.operator left right →
            (world.evaluate steps context left).outcome = .value leftValue →
            (world.evaluate steps context right).outcome = .value rightValue →
            (world.evaluate (steps + 1) context expression).outcome =
              .value (.bool (decide (relation.Holds x y)))) ∧
      ∀ machine : Machine Label,
        OrdersTotally fun relation
          (left right : {value : Value Label // value.IsFiniteNumber}) =>
          context.binary world.forest machine relation.operator left right =
            pure (.bool true) := by
  constructor
  · intro relation leftValue rightValue leftFinite rightFinite
    obtain ⟨x, leftExact⟩ := Value.exactValue?_of_isFiniteNumber leftFinite
    obtain ⟨y, rightExact⟩ := Value.exactValue?_of_isFiniteNumber rightFinite
    have compares (machine : Machine Label) :=
      Context.binary_comparison arbitrary world.forest machine relation leftExact
        rightExact
    refine ⟨x, y, leftExact, rightExact, compares, ?_⟩
    intro steps expression left right isNode isLeft isRight
    have evaluated : world.evaluate (steps + 1) context expression =
        world.evaluateNode context (world.machine steps context)
          (.binary relation.operator left right) := by
      rw [← isNode]
      rfl
    unfold evaluate at isLeft isRight
    rw [evaluated, evaluateNode, Run.outcome_bind_value isLeft,
      Run.outcome_bind_value isRight, compares]
    rfl
  · intro machine
    -- The order of the rational numbers is pulled back along the exact values.
    choose valueOf isValue using
      fun item : {value : Value Label // value.IsFiniteNumber} =>
        Value.exactValue?_of_isFiniteNumber item.2
    have byValue (relation : Relation)
        (left right : {value : Value Label // value.IsFiniteNumber}) :
        context.binary world.forest machine relation.operator left right =
            pure (.bool true) ↔ relation.Holds (valueOf left) (valueOf right) := by
      rw [Context.binary_comparison arbitrary _ machine relation (isValue left)
        (isValue right)]
      constructor
      · intro same
        have ended := congrArg Run.outcome same
        simpa [pure, Run.ofValue] using ended
      · intro holds
        rw [decide_eq_true holds]
    simp only [byValue]
    exact ordersTotally_of_value valueOf

end World

/-- A caller has built a comparison of two references. -/
def Session.comparedTenths : Session :=
  start
    |>.operate (.build 0 (.reference ⟨"ratio"⟩))
    |>.operate (.build 0 (.reference ⟨"share"⟩))
    |>.operate (.build 0 (.binary .eq (.atRoot 0 ⟨0⟩) (.atRoot 0 ⟨1⟩)))

/-- Tables for decimals that hold one tenth twice, as a float and as a decimal. -/
def tenthTables : BasicContext Unit where
  references := .ofList
    [(⟨"ratio"⟩, .number (.floating 0.1)),
      (⟨"share"⟩, .number (.decimal ⟨100, 3⟩))]
  config := { kind := .arbitraryPrecision }

theorem comparison_exact_tenths :
    let world : World Unit :=
      ⟨Session.comparedTenths.forest, .answering fun _ => .ok (.bool true)⟩
    let context : Context Unit := .basic tenthTables
    (world.evaluate 2 context (.atRoot 0 ⟨2⟩)).outcome = .value (.bool true) ∧
      context.binary world.forest .stopped .lt (.number (.floating 0.1))
        (.bigInteger (10 ^ 40)) = pure (.bool true) := by
  intro world context
  have float : (.number (.floating 0.1) : Value Unit).exactValue? =
      some (1 / 10) := by
    have digits : Decimal.ofFloat? 0.1 = some ⟨1, 1⟩ := rfl
    simp [Value.exactValue?, Value.toOperand?, Numeral.toOperand,
      Operand.exactValue?, digits, Decimal.toRat, Decimal.scale]
  have decimal : (.number (.decimal ⟨100, 3⟩) : Value Unit).exactValue? =
      some (1 / 10) := by
    simp [Value.exactValue?, Value.toOperand?, Numeral.toOperand,
      Operand.exactValue?, Decimal.toRat, Decimal.scale]
    norm_num
  have floatFinite : (.number (.floating 0.1) : Value Unit).IsFiniteNumber :=
    Value.exactValue?_isSome_iff.mp (by rw [float]; rfl)
  obtain ⟨compares, -⟩ := World.comparison_exact world context rfl
  constructor
  · let equation : Expression := .atRoot 0 ⟨2⟩
    obtain ⟨x, y, isX, isY, -, evaluates⟩ := compares .eq _
      (.number (.decimal ⟨100, 3⟩)) floatFinite trivial
    have tested := evaluates 1 equation (equation.below 0 ⟨0⟩)
      (equation.below 1 ⟨1⟩) rfl rfl rfl
    have equal : Relation.eq.Holds x y :=
      Option.some.inj ((isX.symm.trans float).trans (isY.symm.trans decimal).symm)
    rw [decide_eq_true equal] at tested
    exact tested
  · obtain ⟨x, y, isX, isY, tests, -⟩ := compares .lt _ (.bigInteger (10 ^ 40))
      floatFinite trivial
    obtain rfl : x = 1 / 10 := Option.some.inj (isX.symm.trans float)
    obtain rfl : y = (10 ^ 40 : ℤ) := Option.some.inj isY.symm
    have less : Relation.lt.Holds (1 / 10) ((10 ^ 40 : ℤ) : ℚ) := by
      norm_num [Relation.Holds]
    have tested := tests .stopped
    rw [decide_eq_true less] at tested
    exact tested

end FormulaEngine
