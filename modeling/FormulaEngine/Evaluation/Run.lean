import FormulaEngine.Evaluation.Error
import FormulaEngine.Value.Basic

/-!
# Runs

A run is what an evaluation leaves behind: how it ended, and the calls of host
code that were entered on the way, in order.  It ends with a value or an error,
or it is cut off when its steps are used up.
-/

namespace FormulaEngine

/-- A call of host code: the declared name and the arguments it received. -/
structure HostCall (Label : Type) where
  name : FunctionName
  arguments : List (Value Label)

/-- How a run ends. -/
inductive Outcome (Result : Type)
  | value (result : Result)
  | error (error : EvalError)
  | cutOff
  deriving DecidableEq

/-- The end of a run and the host calls on the way to it. -/
structure Run (Label Result : Type) where
  outcome : Outcome Result
  calls : List (HostCall Label)

variable {Label Result Next : Type}

namespace Run

/-- The run that ends with a value at once. -/
def ofValue (result : Result) : Run Label Result :=
  ⟨.value result, []⟩

/-- The run that ends with an error at once. -/
def fail (error : EvalError) : Run Label Result :=
  ⟨.error error, []⟩

/-- The run that is cut off at once. -/
def cutOff : Run Label Result :=
  ⟨.cutOff, []⟩

/-- Put host calls in front of a run. -/
def after (calls : List (HostCall Label)) (run : Run Label Result) :
    Run Label Result :=
  ⟨run.outcome, calls ++ run.calls⟩

/-- Go on after a run that ends with a value. -/
def bind (run : Run Label Result) (next : Result → Run Label Next) :
    Run Label Next :=
  match run.outcome with
  | .value result => (next result).after run.calls
  | .error error => ⟨.error error, run.calls⟩
  | .cutOff => ⟨.cutOff, run.calls⟩

/-- Go on after a run that ends with a value or an error. -/
def resume (run : Run Label Result)
    (next : Except EvalError Result → Run Label Next) : Run Label Next :=
  match run.outcome with
  | .value result => (next (.ok result)).after run.calls
  | .error error => (next (.error error)).after run.calls
  | .cutOff => ⟨.cutOff, run.calls⟩

/-- Attach a note to the error of a run. -/
def noted (run : Run Label Result) (note : String) : Run Label Result :=
  match run.outcome with
  | .error error => ⟨.error (error.withNote note), run.calls⟩
  | _ => run

/-- The run of a computation without host calls. -/
def ofExcept : Except EvalError Result → Run Label Result
  | .ok result => ofValue result
  | .error error => fail error

/-- The run of a numeric computation. -/
def ofNumeric : Except NumberError Result → Run Label Result
  | .ok result => ofValue result
  | .error error => fail error.toEvalError

instance : Monad (Run Label) where
  pure := ofValue
  bind := bind

@[simp]
theorem after_nil (run : Run Label Result) : run.after [] = run :=
  rfl

@[simp]
theorem after_bind (calls : List (HostCall Label)) (run : Run Label Result)
    (next : Result → Run Label Next) :
    (run.after calls).bind next = (run.bind next).after calls := by
  cases run with
  | mk outcome runCalls => cases outcome <;> simp [bind, after]

theorem bind_assoc {Last : Type} (run : Run Label Result)
    (next : Result → Run Label Next) (last : Next → Run Label Last) :
    (run.bind next).bind last =
      run.bind fun result => (next result).bind last := by
  cases run with
  | mk outcome calls =>
      cases outcome with
      | value result => exact after_bind calls (next result) last
      | error error => rfl
      | cutOff => rfl

instance : LawfulMonad (Run Label) :=
  LawfulMonad.mk' _
    (fun run => by
      cases run with
      | mk outcome calls =>
          cases outcome <;>
            simp [Functor.map, bind, after, ofValue])
    (fun _ _ => rfl)
    bind_assoc

/-- Run over a list from left to right and collect the results. -/
def forEach {Item : Type} (step : Item → Run Label Result) :
    List Item → Run Label (List Result)
  | [] => pure []
  | item :: items => do
      let result ← step item
      let results ← forEach step items
      return result :: results

end Run

end FormulaEngine
