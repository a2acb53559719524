import FormulaEngine.Evaluation.Machine
import FormulaEngine.Proofs.Value.Sort

/-!
# What decides about truth

The truth of a value is decided by a rule, where a context has one, or by default.
A scope takes the rule of its parent for plain values, but references and
expressions are always judged by default there.
-/

namespace FormulaEngine

variable {Label : Type}

/-- A rule about the truth of values. -/
abbrev TruthRule (Label : Type) :=
  Forest → Value Label → Bool

/-- A way to judge the truth of values in a context with a machine. -/
abbrev Judgement (Label : Type) :=
  Context Label → Machine Label → Value Label → Run Label Bool

namespace World

variable {world : World Label} {context parent : Context Label}
  {machine other : Machine Label} {value : Value Label}

/-- Judge by the rule that is chosen for a value, or else by default. -/
def judgeBy (world : World Label)
    (choose : Context Label → Value Label → Option (TruthRule Label)) :
    Judgement Label := fun context machine value =>
  match choose context value with
  | some rule => pure (rule world.forest value)
  | none => judgeByDefault context machine value

/-- The rule that decides about a value.  There is none for references and
expressions in a scope. -/
def ruleFor (context : Context Label) (value : Value Label) :
    Option (TruthRule Label) :=
  match context, value with
  | .scope _ _, .reference _ | .scope _ _, .expression _ => none
  | _, _ => context.truthiness?

theorem judgeValue_eq (world : World Label) :
    world.judgeValue = world.judgeBy ruleFor := by
  funext context machine value
  cases context with
  | scope parent bindings =>
      cases value with
      | reference | expression => rfl
      | _ =>
          simp only [judgeValue, judgeBy, ruleFor]
          cases Context.truthiness? (.scope parent bindings) <;> rfl
  | _ =>
      simp only [judgeValue, judgeBy, ruleFor]
      split <;> simp_all

theorem ruleFor_of_isPlain (isPlain : value.IsPlain) :
    ruleFor context value = context.truthiness? := by
  cases value with
  | reference name => exact (isPlain.2 rfl).elim
  | expression placed => exact (isPlain.1 rfl).elim
  | _ => cases context <;> rfl

theorem judgeByDefault_of_isPlain (isPlain : value.IsPlain) :
    judgeByDefault context machine value = pure (plainTruth value) := by
  cases value with
  | reference name => exact (isPlain.2 rfl).elim
  | expression placed => exact (isPlain.1 rfl).elim
  | _ => rfl

/-- The truth of a plain value takes one step to judge, by the rule or by
default. -/
theorem judge_of_isPlain (world : World Label) (context : Context Label)
    (steps : Nat) (isPlain : value.IsPlain) :
    (world.machine (steps + 1) context).judge value =
      pure (match context.truthiness? with
        | some rule => rule world.forest value
        | none => plainTruth value) := by
  simp only [World.machine, judgeValue_eq, judgeBy, ruleFor_of_isPlain isPlain,
    judgeByDefault_of_isPlain isPlain]
  cases context.truthiness? <;> rfl

/-- Plain values have the same truth in a scope as in its parent. -/
theorem judge_scope (world : World Label) (parent : Context Label)
    (bindings : Table Reference (Value Label)) (steps : Nat)
    (isPlain : value.IsPlain) :
    (world.machine steps (.scope parent bindings)).judge value =
      (world.machine steps parent).judge value := by
  cases steps with
  | zero => rfl
  | succ steps =>
      rw [judge_of_isPlain world _ steps isPlain,
        judge_of_isPlain world _ steps isPlain]
      rfl

end World

end FormulaEngine
