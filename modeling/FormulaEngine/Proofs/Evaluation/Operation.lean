import FormulaEngine.Evaluation.Operation
import FormulaEngine.Proofs.Attempt
import FormulaEngine.Proofs.Evaluation.Run
import FormulaEngine.Proofs.Value.Sort

/-!
# What operators depend on

An operator sees of its context the kind of numbers, the math context, the
conversion to texts, the order of values, and the truth of its operands.  Where
two contexts agree on these, so do their operators.  Whatever the operands are,
an operator yields a truth value, a text or a number.
-/

namespace FormulaEngine

variable {Label : Type}

/-- The truth of two values combined. -/
def Machine.judgeBoth (machine : Machine Label) (op : ArithmeticOp)
    (left right : Value Label) : Run Label (Value Label) := do
  let left ← machine.judge left
  let right ← machine.judge right
  return .bool (op.onTruth left right)

namespace Context

/-- The operands that a logical operator takes bit by bit. -/
def bitOperands? (context : Context Label) (left right : Value Label) :
    Except NumberError (Option (Operand × Operand)) :=
  if left.type = .bool ∨ right.type = .bool then .ok none
  else left.operandsIn? context.kind right

theorem logical_eq (context : Context Label) (machine : Machine Label)
    (op : ArithmeticOp) (left right : Value Label) :
    context.logical machine op left right =
      Run.ofNumeric (context.bitOperands? left right) >>= fun
        | some (first, second) => .ofExcept (context.combine op first second)
        | none => machine.judgeBoth op left right := by
  simp only [logical, bitOperands?]
  split <;> rfl

section Scalar

variable {context : Context Label} {forest : Forest} {result : Value Label}

theorem isScalar_of_numeral {computation : Except NumberError Numeral}
    (succeeds : (computation.map (Value.number : Numeral → Value Label)).mapError
      NumberError.toEvalError = .ok result) : result.IsScalar := by
  obtain ⟨numeral, -, rfl⟩ := Attempt.of_map (Attempt.of_mapError succeeds)
  trivial

theorem isScalar_negate {operand : Value Label}
    (succeeds : context.negate operand = .ok result) : result.IsScalar := by
  obtain ⟨raw, -, succeeds⟩ := Attempt.of_bind succeeds
  cases raw with
  | none => cases succeeds
  | some raw => exact isScalar_of_numeral succeeds

/-- An arithmetic operator combines two operands or joins two texts. -/
theorem arithmetic_eq_ok {op : BinaryOp} {grouped : ArithmeticOp}
    {left right : Value Label}
    (succeeds : context.arithmetic forest op grouped left right = .ok result) :
    (∃ first second, context.combine grouped first second = .ok result) ∨
      ∃ joined, result = .text joined := by
  obtain ⟨operands, -, succeeds⟩ := Attempt.of_bind succeeds
  cases operands with
  | some operands => exact .inl ⟨_, _, succeeds⟩
  | none =>
      simp only at succeeds
      split at succeeds
      · have succeeds := Attempt.of_mapError succeeds
        obtain ⟨leftText, -, succeeds⟩ := Attempt.of_bind succeeds
        obtain ⟨rightText, -, succeeds⟩ := Attempt.of_bind succeeds
        cases succeeds
        exact .inr ⟨_, rfl⟩
      · cases succeeds

theorem isScalar_arithmetic {op : BinaryOp} {grouped : ArithmeticOp}
    {left right : Value Label}
    (succeeds : context.arithmetic forest op grouped left right = .ok result) :
    result.IsScalar := by
  obtain ⟨first, second, combined⟩ | ⟨joined, rfl⟩ := arithmetic_eq_ok succeeds
  · exact isScalar_of_numeral combined
  · trivial

/-- A comparison yields a truth value. -/
theorem comparison_eq_ok {op : BinaryOp} {relation : Relation}
    {left right : Value Label}
    (succeeds : context.comparison forest op relation left right =
      .ok result) : ∃ truth, result = .bool truth := by
  obtain ⟨operands, -, succeeds⟩ := Attempt.of_bind succeeds
  cases operands with
  | some operands =>
      obtain ⟨truth, -, rfl⟩ := Attempt.of_map (Attempt.of_mapError succeeds)
      exact ⟨truth, rfl⟩
  | none =>
      simp only at succeeds
      split at succeeds
      · cases succeeds
        exact ⟨_, rfl⟩
      · cases succeeds

theorem isScalar_comparison {op : BinaryOp} {relation : Relation}
    {left right : Value Label}
    (succeeds : context.comparison forest op relation left right =
      .ok result) : result.IsScalar := by
  obtain ⟨truth, rfl⟩ := comparison_eq_ok succeeds
  trivial

end Scalar

end Context

/-- Two contexts, each with its forest and its machine, treat operands of a
property alike. -/
structure OperateAlike (stops : Run.Stops) (good : Value Label → Prop)
    (forest : Forest) (context : Context Label) (machine : Machine Label)
    (otherForest : Forest) (other : Context Label)
    (otherMachine : Machine Label) : Prop where
  kind : context.kind = other.kind
  math : context.math = other.math
  concatenate : ∀ left right, good left → good right →
    context.concatenate forest left right =
      other.concatenate otherForest left right
  order : ∀ left right, good left → good right →
    context.order? forest left right = other.order? otherForest left right
  judge : ∀ value, good value → (machine.judge value).Agrees stops
    (fun _ => True) (otherMachine.judge value)

namespace OperateAlike

variable {stops : Run.Stops} {good : Value Label → Prop}
  {forest otherForest : Forest} {context other : Context Label}
  {machine otherMachine : Machine Label} {left right operand : Value Label}

/-- A context treats all operands as it does itself. -/
theorem itself (forest : Forest) (context : Context Label)
    (machine : Machine Label) :
    OperateAlike .together (fun _ => True) forest context machine forest context
      machine where
  kind := rfl
  math := rfl
  concatenate _ _ _ _ := rfl
  order _ _ _ _ := rfl
  judge value _ := Run.agrees_itself (machine.judge value)

theorem combine (alike : OperateAlike stops good forest context machine
    otherForest other otherMachine) (op : ArithmeticOp)
    (first second : Operand) :
    context.combine op first second = other.combine op first second := by
  simp only [Context.combine, alike.kind, alike.math]

theorem arithmetic (alike : OperateAlike stops good forest context machine
    otherForest other otherMachine) (op : BinaryOp) (grouped : ArithmeticOp)
    (isLeft : good left) (isRight : good right) :
    context.arithmetic forest op grouped left right =
      other.arithmetic otherForest op grouped left right := by
  simp only [Context.arithmetic, alike.kind, alike.combine,
    alike.concatenate left right isLeft isRight]

theorem comparison (alike : OperateAlike stops good forest context machine
    otherForest other otherMachine) (op : BinaryOp) (relation : Relation)
    (isLeft : good left) (isRight : good right) :
    context.comparison forest op relation left right =
      other.comparison otherForest op relation left right := by
  simp only [Context.comparison, alike.kind,
    alike.order left right isLeft isRight]

theorem logical (alike : OperateAlike stops good forest context machine
    otherForest other otherMachine) (op : ArithmeticOp) (isLeft : good left)
    (isRight : good right) :
    (context.logical machine op left right).Agrees stops Value.IsScalar
      (other.logical otherMachine op left right) := by
  have operandsAlike : context.bitOperands? left right =
      other.bitOperands? left right := by
    simp only [Context.bitOperands?, alike.kind]
  rw [Context.logical_eq, Context.logical_eq, operandsAlike]
  refine (Run.agrees_ofNumeric rfl fun _ _ => trivial).bind
    fun operands (_ : True) => ?_
  cases operands with
  | some operands =>
      exact Run.agrees_ofExcept (alike.combine op operands.1 operands.2)
        fun _ => Context.isScalar_of_numeral
  | none =>
      refine (alike.judge left isLeft).bind fun leftTruth _ => ?_
      refine (alike.judge right isRight).bind fun rightTruth _ => ?_
      exact Run.agrees_pure trivial

/-- Binary operators yield the same in contexts that treat their operands
alike. -/
theorem binary (alike : OperateAlike stops good forest context machine
    otherForest other otherMachine) (op : BinaryOp) (isLeft : good left)
    (isRight : good right) :
    (context.binary forest machine op left right).Agrees stops Value.IsScalar
      (other.binary otherForest otherMachine op left right) := by
  unfold Context.binary
  cases op.group with
  | arithmetic grouped =>
      exact Run.agrees_ofExcept (alike.arithmetic op grouped isLeft isRight)
        fun _ => Context.isScalar_arithmetic
  | comparison relation =>
      exact Run.agrees_ofExcept (alike.comparison op relation isLeft isRight)
        fun _ => Context.isScalar_comparison
  | logical grouped => exact alike.logical grouped isLeft isRight

/-- Unary operators yield the same in contexts that treat their operand
alike. -/
theorem unary (alike : OperateAlike stops good forest context machine
    otherForest other otherMachine) (op : UnaryOp) (isOperand : good operand) :
    (context.unary machine op operand).Agrees stops Value.IsScalar
      (other.unary otherMachine op operand) := by
  cases op with
  | negate =>
      refine Run.agrees_ofExcept ?_ fun _ => Context.isScalar_negate
      simp only [Context.negate, alike.kind]
  | not =>
      refine (alike.judge operand isOperand).bind fun truth _ => ?_
      exact Run.agrees_pure trivial

end OperateAlike

end FormulaEngine
