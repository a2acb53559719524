import FormulaEngine.Evaluation.Projection
import FormulaEngine.Proofs.Context.Table
import FormulaEngine.Proofs.Evaluation.Node
import FormulaEngine.Proofs.Expression.Session

/-!
# The kind of results

Operands reach an operator in either kind of numbers, as integers of 64 bits or
as big integers, through references, arguments and host code.  What literals and
operators yield is of one kind all the same, the kind of the context, and so is
every number that an expression is asked for.
-/

namespace FormulaEngine

variable {Label : Type}

/-! ### Numerals -/

theorem NumberKind.kind_create {kind : NumberKind} {operand : Operand}
    {numeral : Numeral} (succeeds : kind.create operand = .ok numeral) :
    numeral.kind = kind := by
  cases kind with
  | floating => cases succeeds; rfl
  | arbitraryPrecision =>
      obtain ⟨decimal, -, rfl⟩ := Attempt.of_map succeeds
      rfl

namespace Numeral

variable {numeral result : Numeral} {kind : NumberKind}

theorem kind_setKind (succeeds : numeral.setKind kind = .ok result) :
    result.kind = kind := by
  unfold setKind at succeeds
  split at succeeds
  next same => cases succeeds; exact same
  next => exact NumberKind.kind_create succeeds

theorem kind_negate (succeeds : numeral.negate kind = .ok result) :
    result.kind = kind := by
  cases numeral <;> exact kind_setKind succeeds

end Numeral

theorem ArithmeticOp.kind_apply {op : ArithmeticOp} {left right : Operand}
    {kind : NumberKind} {context : MathContext} {numeral : Numeral}
    (succeeds : op.apply left right kind context = .ok numeral) :
    numeral.kind = kind := by
  obtain ⟨operand, -, succeeds⟩ := Attempt.of_bind succeeds
  exact NumberKind.kind_create succeeds

namespace Value

/-- A value is no integer, be it of 64 bits or big, and if it is a number, it is of
a kind. -/
def IsOfKind (kind : NumberKind) : Value Label → Prop
  | .integer _ | .bigInteger _ => False
  | .number numeral => numeral.kind = kind
  | _ => True

theorem isOfKind_of_map {kind : NumberKind} {result : Value Label}
    {computation : Except NumberError Numeral}
    (isOfKind : ∀ numeral, computation = .ok numeral → numeral.kind = kind)
    (succeeds : computation.map .number = .ok result) : result.IsOfKind kind := by
  obtain ⟨numeral, computed, rfl⟩ := Attempt.of_map succeeds
  exact isOfKind numeral computed

theorem kind_convertToNumber? {value : Value Label} {kind : NumberKind}
    {numeral : Numeral} (converts : value.convertToNumber? kind = some numeral) :
    numeral.kind = kind := by
  have created {operand : Operand}
      (converts : numeralOf? kind operand = some numeral) : numeral.kind = kind :=
    NumberKind.kind_create (Attempt.of_toOption converts)
  cases value with
  | number held => exact Numeral.kind_setKind (Attempt.of_toOption converts)
  | integer held | bigInteger held | bool held => exact created converts
  | text written =>
      cases kind <;>
        · obtain ⟨read, -, rfl⟩ := Option.map_eq_some_iff.mp converts
          rfl
  | _ => cases converts

end Value

theorem Literal.isOfKind_toValue {literal : Literal} {kind : NumberKind}
    {value : Value Label} (succeeds : literal.toValue kind = .ok value) :
    value.IsOfKind kind := by
  cases literal with
  | bool | text => cases succeeds; trivial
  | number numeral =>
      exact Value.isOfKind_of_map (fun _ => Numeral.kind_setKind) succeeds

/-! ### Operators -/

namespace Context

variable {context : Context Label} {machine : Machine Label}
  {result : Value Label}

theorem isOfKind_combine {op : ArithmeticOp} {left right : Operand}
    (succeeds : context.combine op left right = .ok result) :
    result.IsOfKind context.kind :=
  Value.isOfKind_of_map (fun _ => ArithmeticOp.kind_apply)
    (Attempt.of_mapError succeeds)

theorem isOfKind_negate {operand : Value Label}
    (succeeds : context.negate operand = .ok result) :
    result.IsOfKind context.kind := by
  obtain ⟨raw, -, succeeds⟩ := Attempt.of_bind succeeds
  cases raw with
  | none => cases succeeds
  | some raw =>
      refine Value.isOfKind_of_map (fun numeral negated => ?_)
        (Attempt.of_mapError succeeds)
      obtain ⟨created, -, negated⟩ := Attempt.of_bind negated
      exact Numeral.kind_negate negated

theorem ensures_logical (op : ArithmeticOp) (left right : Value Label) :
    (context.logical machine op left right).Ensures
      (Value.IsOfKind context.kind) := by
  rw [logical_eq]
  refine (Run.ensures_trivially _).bind fun operands _ => ?_
  cases operands with
  | some operands => exact Run.ensures_ofExcept fun _ => isOfKind_combine
  | none =>
      exact (Run.ensures_trivially _).bind fun leftTruth _ =>
        (Run.ensures_trivially _).bind fun rightTruth _ =>
          Run.ensures_pure trivial

theorem ensures_binary {forest : Forest} (op : BinaryOp) (left right : Value Label) :
    (context.binary forest machine op left right).Ensures
      (Value.IsOfKind context.kind) := by
  unfold Context.binary
  cases op.group with
  | arithmetic grouped =>
      refine Run.ensures_ofExcept fun result succeeds => ?_
      obtain ⟨first, second, combined⟩ | ⟨joined, rfl⟩ :=
        arithmetic_eq_ok succeeds
      · exact isOfKind_combine combined
      · trivial
  | comparison relation =>
      refine Run.ensures_ofExcept fun result succeeds => ?_
      obtain ⟨truth, rfl⟩ := comparison_eq_ok succeeds
      trivial
  | logical grouped => exact ensures_logical grouped left right

theorem ensures_unary (op : UnaryOp) (operand : Value Label) :
    (context.unary machine op operand).Ensures
      (Value.IsOfKind context.kind) := by
  cases op with
  | negate => exact Run.ensures_ofExcept fun _ => isOfKind_negate
  | not =>
      exact (Run.ensures_trivially _).bind fun truth _ =>
        Run.ensures_pure trivial

end Context

/-! ### Expressions -/

/-- The shape of a literal or of an operator. -/
def Shape.IsComputed : Shape → Prop
  | .value _ | .unary _ | .binary _ => True
  | _ => False

namespace World

variable {world : World Label} {context : Context Label}

theorem ensures_evaluateNode {machine : Machine Label} {node : Node Expression}
    (computed : node.shape.IsComputed) :
    (world.evaluateNode context machine node).Ensures
      (Value.IsOfKind context.kind) := by
  cases node with
  | value literal => exact Run.ensures_ofNumeric fun _ => Literal.isOfKind_toValue
  | unary op operand =>
      exact (Run.ensures_trivially _).bind fun value _ =>
        Context.ensures_unary op value
  | binary op left right =>
      exact (Run.ensures_trivially _).bind fun leftValue _ =>
        (Run.ensures_trivially _).bind fun rightValue _ =>
          Context.ensures_binary op leftValue rightValue
  | _ => exact computed.elim

theorem kind_of_convert (converter : context.tables.converter = .basic)
    {value result : Value Label}
    (succeeds : context.convert world.forest value .number = .ok result) :
    ∃ numeral, result = .number numeral ∧ numeral.kind = context.kind := by
  simp only [Context.convert, converter, Converter.basic] at succeeds
  split at succeeds
  next converted isConverted =>
    cases succeeds
    obtain ⟨numeral, isNumber, rfl⟩ := Option.map_eq_some_iff.mp isConverted
    exact ⟨numeral, rfl, Value.kind_convertToNumber? isNumber⟩
  next => cases succeeds

/-- What a literal or an operator yields is never an integer, and a number only of
the kind of the context.  A number that any expression is asked for is of that
kind. -/
theorem result_of_kind (world : World Label) (context : Context Label)
    (converter : context.tables.converter = .basic) (expression : Expression)
    (steps : Nat) :
    ((world.forest.shape expression).IsComputed →
      (world.evaluate steps context expression).Ensures
        (Value.IsOfKind context.kind)) ∧
      (world.evaluateNumber steps context expression).Ensures
        fun numeral => numeral.kind = context.kind := by
  constructor
  · intro computed
    cases steps with
    | zero => exact nofun
    | succ steps =>
        rw [← Forest.shape_node] at computed
        exact ensures_evaluateNode computed
  · have converted : (world.project steps context .number expression).Ensures
        fun value => ∃ numeral,
          value = .number numeral ∧ numeral.kind = context.kind :=
      (Run.ensures_trivially _).bind fun value _ =>
        Run.ensures_ofExcept fun _ => kind_of_convert converter
    refine converted.bind ?_
    rintro value ⟨numeral, rfl, isOfKind⟩
    exact Run.ensures_pure isOfKind

end World

/-- A caller has built the negation of a sum of two references. -/
def Session.negatedSum : Session :=
  start
    |>.operate (.build 0 (.reference ⟨"count"⟩))
    |>.operate (.build 0 (.reference ⟨"half"⟩))
    |>.operate (.build 0 (.binary .add (.atRoot 0 ⟨0⟩) (.atRoot 0 ⟨1⟩)))
    |>.operate (.build 0 (.unary .negate (.atRoot 0 ⟨2⟩)))

/-- Tables for decimals that hold an integer of 64 bits and a float. -/
def mixedTables : BasicContext Unit where
  references := .ofList
    [(⟨"count"⟩, .integer 2), (⟨"half"⟩, .number (.floating 0.5))]
  config := { kind := .arbitraryPrecision }

theorem result_of_kind_negatedSum :
    let world : World Unit :=
      ⟨Session.negatedSum.forest, .answering fun _ => .ok (.bool true)⟩
    let result : Value Unit := .number (.decimal ⟨-25, 1⟩)
    (world.evaluate 4 (.basic mixedTables) (.atRoot 0 ⟨3⟩)).outcome =
        .value result ∧
      result.IsOfKind .arbitraryPrecision := by
  intro world result
  have outcome : (world.evaluate 4 (.basic mixedTables)
      (.atRoot 0 ⟨3⟩)).outcome = .value result := rfl
  have ofKind := World.result_of_kind world (.basic mixedTables) rfl
    (.atRoot 0 ⟨3⟩) 4
  exact ⟨outcome, ofKind.1 trivial result outcome⟩

end FormulaEngine
