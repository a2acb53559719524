import FormulaEngine.Host.Routine
import FormulaEngine.Proofs.Evaluation.Ledger
import FormulaEngine.Proofs.Evaluation.Preparation

/-!
# The arguments that a host body receives

The arguments of a call are counted once, as they are written, before they are
prepared.  Mappers and filters around the function come afterwards: each of them
takes the list that the one around it has left, and the body receives what is left
at last.  So the count that has been accepted is that of the prepared arguments, and
it is the count of the received ones as far as the mappers and filters keep it.
-/

namespace FormulaEngine

variable {Label Result Next : Type}

/-- A declaration accepts a number of arguments. -/
def Declaration.Accepts (declaration : Declaration) (count : Nat) : Prop :=
  ∃ arity, Arity.of declaration.parameters = .ok arity ∧
    arity.accepts count = true

/-- Without required parameters fewer arguments than accepted are accepted too. -/
theorem Declaration.Accepts.of_le {declaration : Declaration} {count fewer : Nat}
    (accepts : declaration.Accepts count)
    (optional : ∀ parameter ∈ declaration.parameters,
      parameter.cardinality ≠ .required) (le : fewer ≤ count) :
    declaration.Accepts fewer := by
  obtain ⟨arity, isArity, accepted⟩ := accepts
  refine ⟨arity, isArity, ?_⟩
  have noneRequired : declaration.parameters.countP
      (·.cardinality == .required) = 0 := by
    rw [List.countP_eq_zero]
    simpa using optional
  unfold Arity.of at isArity
  split at isArity
  · cases isArity
  next =>
    cases isArity
    simp only [Arity.accepts, noneRequired, Nat.zero_le, decide_true,
      Bool.true_and] at accepted ⊢
    split at accepted
    · exact decide_eq_true (le.trans (of_decide_eq_true accepted))
    · rfl

namespace Callable

/-- There is nothing around a function but new names. -/
def isRenamed : Callable Label → Bool
  | named _ inner => isRenamed inner
  | mapped _ _ | filtered _ _ => false
  | _ => true

/-- There is nothing around a function but new names and filters. -/
def isFiltered : Callable Label → Bool
  | named _ inner => isFiltered inner
  | mapped _ _ => false
  | filtered _ inner => isFiltered inner
  | _ => true

theorem checkCount_core {callable : Callable Label} {declaration : Declaration}
    {label : Label} (isHost : callable.core = .host declaration label) (count : Nat) :
    callable.checkCount count = .ok () ↔ declaration.Accepts count := by
  have parameters : callable.parameters = declaration.parameters := by
    rw [← parameters_core, isHost, Callable.parameters]
  unfold Declaration.Accepts
  rw [← parameters]
  constructor
  · exact checkCount_eq_ok
  · rintro ⟨arity, isArity, accepted⟩
    simp [checkCount, isArity, accepted]

end Callable

namespace Run

theorem noted_bind (run : Run Label Result) (next : Result → Run Label Next)
    (note : String) :
    (run >>= next).noted note =
      run.noted note >>= fun result => (next result).noted note := by
  obtain ⟨outcome, calls⟩ := run
  cases outcome with
  | value result =>
      change ((next result).after calls).noted note =
        ((next result).noted note).after calls
      obtain ⟨outcome, calls⟩ := next result
      cases outcome <;> rfl
  | error error => rfl
  | cutOff => rfl

end Run

namespace World

variable {world : World Label} {context : Context Label} {machine : Machine Label}

/-! ### Mappers and filters -/

/-- The arguments that a filter keeps. -/
def keptBy (world : World Label) (context : Context Label) (machine : Machine Label)
    (label : Label) (arguments : List (Value Label)) :
    Run Label (List (Value Label)) :=
  keepArguments
    (fun value => (world.host.keeps label world.forest context value).run machine)
    arguments

/-- The arguments that a mapper answers with. -/
def mappedBy (world : World Label) (context : Context Label)
    (machine : Machine Label) (label : Label) (arguments : List (Value Label)) :
    Run Label (List (Value Label)) :=
  (world.host.rearrange label world.forest context arguments).run machine

/-- What all mappers and filters around a function make of its arguments, one after
the other from the outside. -/
def rearranged (world : World Label) (context : Context Label)
    (machine : Machine Label) :
    Callable Label → List (Value Label) → Run Label (List (Value Label))
  | .named _ inner, arguments => rearranged world context machine inner arguments
  | .mapped label inner, arguments =>
      world.mappedBy context machine label arguments >>=
        rearranged world context machine inner
  | .filtered label inner, arguments =>
      world.keptBy context machine label arguments >>=
        rearranged world context machine inner
  | _, arguments => pure arguments

/-- No mapper and no filter around a function answers a list of an accepted length
with one of a length that is not accepted. -/
def KeepsCounts (world : World Label) (context : Context Label)
    (machine : Machine Label) (accepts : Nat → Prop) : Callable Label → Prop
  | .named _ inner => KeepsCounts world context machine accepts inner
  | .mapped label inner =>
      (∀ arguments, accepts arguments.length →
        (world.mappedBy context machine label arguments).Ensures
          fun mapped => accepts mapped.length) ∧
      KeepsCounts world context machine accepts inner
  | .filtered label inner =>
      (∀ arguments, accepts arguments.length →
        (world.keptBy context machine label arguments).Ensures
          fun kept => accepts kept.length) ∧
      KeepsCounts world context machine accepts inner
  | _ => True

/-- Applying a function is applying what is below all names, mappers and filters to
what these have made of the arguments. -/
theorem applyCallable_eq (machineOf : Context Label → Machine Label) :
    ∀ (callable : Callable Label) (arguments : List (Value Label)),
      world.applyCallable machineOf context callable arguments =
        world.rearranged context (machineOf context) callable arguments >>=
          world.applyCallable machineOf context callable.core
  | .constantFalse, _ | .startsWith, _ | .lambda _ _, _ | .host _ _, _ =>
      (pure_bind _ _).symm
  | .named _ inner, arguments => applyCallable_eq machineOf inner arguments
  | .mapped label inner, arguments => by
      simp only [applyCallable, rearranged, bind_assoc, mappedBy]
      exact bind_congr fun mapped => applyCallable_eq machineOf inner mapped
  | .filtered label inner, arguments => by
      simp only [applyCallable, rearranged, bind_assoc, keptBy]
      exact bind_congr fun kept => applyCallable_eq machineOf inner kept

theorem ensures_keepArguments (test : Value Label → Run Label Bool)
    (arguments : List (Value Label)) :
    (keepArguments test arguments).Ensures fun kept =>
      kept.length ≤ arguments.length := by
  induction arguments with
  | nil => exact Run.ensures_pure (Nat.le_refl 0)
  | cons value values ih =>
      refine (Run.ensures_trivially (test value)).bind fun kept _ => ?_
      refine ih.bind fun rest shorter => Run.ensures_pure ?_
      split
      · exact Nat.succ_le_succ shorter
      · exact Nat.le_succ_of_le shorter

theorem ensures_rearranged {accepts : Nat → Prop} :
    ∀ (callable : Callable Label) (arguments : List (Value Label)),
      world.KeepsCounts context machine accepts callable →
        accepts arguments.length →
          (world.rearranged context machine callable arguments).Ensures
            fun values => accepts values.length
  | .constantFalse, _, _, accepted | .startsWith, _, _, accepted
  | .lambda _ _, _, _, accepted | .host _ _, _, _, accepted =>
      Run.ensures_pure accepted
  | .named _ inner, arguments, keeps, accepted =>
      ensures_rearranged inner arguments keeps accepted
  | .mapped _ inner, arguments, ⟨here, below⟩, accepted =>
      (here arguments accepted).bind fun mapped stillAccepted =>
        ensures_rearranged inner mapped below stillAccepted
  | .filtered _ inner, arguments, ⟨here, below⟩, accepted =>
      (here arguments accepted).bind fun kept stillAccepted =>
        ensures_rearranged inner kept below stillAccepted

/-- Filters keep all counts if fewer arguments than accepted are accepted too. -/
theorem keepsCounts_of_isFiltered {accepts : Nat → Prop}
    (downward : ∀ {count fewer}, accepts count → fewer ≤ count → accepts fewer) :
    ∀ callable : Callable Label, callable.isFiltered = true →
      world.KeepsCounts context machine accepts callable
  | .constantFalse, _ | .startsWith, _ | .lambda _ _, _ | .host _ _, _ => trivial
  | .named _ inner, only => keepsCounts_of_isFiltered downward inner only
  | .filtered _ inner, only =>
      ⟨fun arguments accepted => (ensures_keepArguments _ arguments).imp
          fun _ shorter => downward accepted shorter,
        keepsCounts_of_isFiltered downward inner only⟩

theorem rearranged_of_isRenamed (arguments : List (Value Label)) :
    ∀ callable : Callable Label, callable.isRenamed = true →
      world.rearranged context machine callable arguments = pure arguments
  | .constantFalse, _ | .startsWith, _ | .lambda _ _, _ | .host _ _, _ => rfl
  | .named _ inner, only => rearranged_of_isRenamed arguments inner only

/-! ### Calls -/

/-- The arguments that a call hands on to what is below all names, mappers and
filters.  The count is checked first, and what mappers and filters report counts as
a failure of the application. -/
def received (world : World Label) (steps : Nat) (context : Context Label)
    (name : FunctionName) (callable : Callable Label) (arguments : List Expression) :
    Run Label (List (Value Label)) := do
  Run.ofExcept (callable.checkCount arguments.length)
  let prepared ←
    context.prepare world.forest (world.machine (steps + 1) context) callable
      arguments
  (world.rearranged context (world.machine steps context) callable prepared).noted
    (callNote name)

/-- The run of a host body on the arguments that it has received. -/
def enter (world : World Label) (steps : Nat) (context : Context Label)
    (declaration : Declaration) (label : Label) (values : List (Value Label)) :
    Run Label (Value Label) :=
  ((world.host.body label world.forest context values).run
    (world.machine steps context)).after [⟨declaration.name, values⟩]

variable {name : FunctionName} {callable : Callable Label}
  {arguments : List Expression} {expression : Expression}
  {declaration : Declaration} {label : Label}

theorem evaluate_call_eq (isCall : world.forest.node expression = .call name arguments)
    (found : context.function name = .ok callable)
    (isHost : callable.core = .host declaration label) (steps : Nat) :
    world.evaluate (steps + 2) context expression =
      world.received steps context name callable arguments >>= fun values =>
        (world.enter steps context declaration label values).noted
          (callNote name) := by
  have applied (prepared : List (Value Label)) :
      ((world.machine (steps + 1) context).apply callable prepared).noted
          (callNote name) =
        (world.rearranged context (world.machine steps context) callable
            prepared).noted (callNote name) >>= fun values =>
          (world.enter steps context declaration label values).noted
            (callNote name) := by
    simp only [machine, applyCallable_eq (world.machine steps) callable, isHost]
    exact Run.noted_bind _ _ _
  have unfolded : world.evaluate (steps + 2) context expression =
      (Run.ofExcept (context.function name) >>= fun callable =>
        Run.ofExcept (callable.checkCount arguments.length) >>= fun _ =>
          context.prepare world.forest (world.machine (steps + 1) context) callable
            arguments >>= fun prepared =>
              ((world.machine (steps + 1) context).apply callable prepared).noted
                (callNote name)) := by
    change world.evaluateNode context _ (world.forest.node expression) = _
    rw [isCall]
    rfl
  rw [unfolded, found]
  simp only [received, bind_assoc, ← applied]
  exact Run.after_nil _

/-- The values that a call hands on are what mappers and filters make of the prepared
arguments, of which there are as many as have been counted and accepted. -/
theorem received_eq_value (isHost : callable.core = .host declaration label)
    (steps : Nat) {values : List (Value Label)}
    (ends : (world.received steps context name callable arguments).outcome =
      .value values) :
    ∃ prepared, (context.prepare world.forest (world.machine (steps + 1) context)
        callable arguments).outcome = .value prepared ∧
      prepared.length = arguments.length ∧ declaration.Accepts prepared.length ∧
      (world.rearranged context (world.machine steps context) callable
        prepared).outcome = .value values := by
  obtain ⟨⟨⟩, checked, ends⟩ := Run.exists_of_outcome_bind ends
  obtain ⟨prepared, isPrepared, ends⟩ := Run.exists_of_outcome_bind ends
  have accepted : declaration.Accepts arguments.length :=
    (Callable.checkCount_core isHost _).mp (Run.ok_of_outcome_ofExcept checked)
  have sameCount : prepared.length = arguments.length :=
    (Context.ensures_prepare _ _ _ _ _ prepared isPrepared).1
  exact ⟨prepared, isPrepared, sameCount, sameCount ▸ accepted,
    Run.outcome_noted_eq_value.mp ends⟩

/-- Evaluating a call of a host function that is wrapped in new names, mappers and
filters enters nothing and fails unless the function accepts the number of arguments
in the call.  Otherwise it prepares as many arguments, and the body is entered once,
if mappers and filters come to an end, with what they have made of these.  The body
receives an accepted number of values if every mapper and filter keeps accepted
counts; in particular if all filters, and no mappers, stand around a function without
required parameters.  If there are only new names, it receives the prepared arguments
themselves. -/
theorem call_enters_body
    (isCall : world.forest.node expression = .call name arguments)
    (found : context.function name = .ok callable)
    (isHost : callable.core = .host declaration label) (steps : Nat) :
    (¬ declaration.Accepts arguments.length →
        ∃ error, callable.checkCount arguments.length = .error error ∧
          world.evaluate (steps + 2) context expression = .fail error) ∧
      (world.evaluate (steps + 2) context expression =
        world.received steps context name callable arguments >>= fun values =>
          (world.enter steps context declaration label values).noted
            (callNote name)) ∧
      (world.received steps context name callable arguments).Ensures fun values =>
        ∃ prepared, (context.prepare world.forest (world.machine (steps + 1) context)
            callable arguments).outcome = .value prepared ∧
          prepared.length = arguments.length ∧
          declaration.Accepts prepared.length ∧
          (world.rearranged context (world.machine steps context) callable
            prepared).outcome = .value values ∧
          (world.KeepsCounts context (world.machine steps context)
            declaration.Accepts callable → declaration.Accepts values.length) ∧
          ((∀ parameter ∈ declaration.parameters,
              parameter.cardinality ≠ .required) →
            callable.isFiltered = true → declaration.Accepts values.length) ∧
          (callable.isRenamed = true → values = prepared) := by
  refine ⟨fun refused => ?_, evaluate_call_eq isCall found isHost steps, ?_⟩
  · rw [evaluate_call_eq isCall found isHost]
    cases checked : callable.checkCount arguments.length with
    | ok =>
        exact absurd ((Callable.checkCount_core isHost _).mp checked) refused
    | error error =>
        refine ⟨error, rfl, ?_⟩
        simp only [received, checked]
        rfl
  · intro values ends
    obtain ⟨prepared, isPrepared, sameCount, accepted, isRearranged⟩ :=
      received_eq_value isHost steps ends
    refine ⟨prepared, isPrepared, sameCount, accepted, isRearranged, ?_, ?_, ?_⟩
    · intro keeps
      exact ensures_rearranged callable prepared keeps accepted values isRearranged
    · intro optional only
      have keeps : world.KeepsCounts context (world.machine steps context)
          declaration.Accepts callable :=
        keepsCounts_of_isFiltered (fun accepts => accepts.of_le optional) callable only
      exact ensures_rearranged callable prepared keeps accepted values isRearranged
    · intro only
      rw [rearranged_of_isRenamed prepared callable only] at isRearranged
      exact (Outcome.value.inj isRearranged).symm

end World

/-! ### Wrapped functions -/

/-- A required parameter that takes values of all types. -/
def Parameter.item (name : String) : Parameter :=
  ⟨⟨name⟩, .any, .required, {}⟩

/-- A caller has built calls of the function `pick` with one argument and with
two. -/
def Session.pickingCalls : Session :=
  truthAndReference
    |>.operate (.build 0 (.call ⟨"pick"⟩ [.atRoot 0 ⟨0⟩]))
    |>.operate (.build 0 (.call ⟨"pick"⟩ [.atRoot 0 ⟨0⟩, .atRoot 0 ⟨1⟩]))

/-- A function of two parameters that writes its arguments, known as `pick` and with
its arguments reversed. -/
def reversedPick : Callable Routine :=
  .named ⟨"pick"⟩
    (.mapped (.rearrangement .reverse)
      (.host { name := ⟨"echo"⟩, parameters := [.item "x", .item "y"] } .echo))

theorem call_enters_body_reversed :
    let world : World Routine := ⟨Session.pickingCalls.forest, Routine.host⟩
    let context : Context Routine :=
      .basic { functions := .ofList [(⟨"pick"⟩, reversedPick)] }
    let arguments := (world.forest.node (.atRoot 0 ⟨3⟩)).children
    let values : List (Value Routine) := [.reference ⟨"x"⟩, .bool true]
    let declaration : Declaration :=
      { name := ⟨"echo"⟩, parameters := [.item "x", .item "y"] }
    world.forest.node (.atRoot 0 ⟨3⟩) = .call ⟨"pick"⟩ arguments ∧
      context.function ⟨"pick"⟩ = .ok reversedPick ∧
      (world.evaluate 3 context (.atRoot 0 ⟨3⟩)).calls = [⟨⟨"echo"⟩, values⟩] ∧
      declaration.Accepts values.length := by
  intro world context arguments values declaration
  have isCall : world.forest.node (.atRoot 0 ⟨3⟩) = .call ⟨"pick"⟩ arguments := rfl
  have found : context.function ⟨"pick"⟩ = .ok reversedPick := rfl
  obtain ⟨-, entered, ensures⟩ :=
    World.call_enters_body isCall found rfl 1
  have keeps : world.KeepsCounts context (world.machine 1 context)
      declaration.Accepts reversedPick := by
    refine ⟨fun arguments accepted => ?_, trivial⟩
    exact Run.ensures_ofExcept fun mapped isMapped => by
      obtain rfl : arguments.reverse = mapped := Except.ok.inj isMapped
      rwa [List.length_reverse]
  obtain ⟨prepared, -, -, -, -, accepted, -⟩ := ensures values rfl
  refine ⟨isCall, found, ?_, accepted keeps⟩
  rw [entered]
  rfl

/-- A function of one required parameter accepts the one argument of a call.  The
mapper around it drops this argument, and the body is entered without any. -/
theorem rearranged_count_not_accepted :
    let world : World Routine := ⟨Session.pickingCalls.forest, Routine.host⟩
    let declaration : Declaration := { name := ⟨"f"⟩, parameters := [.item "x"] }
    let callable : Callable Routine :=
      .mapped (.rearrangement .dropFirst) (.host declaration .count)
    let context : Context Routine :=
      .basic { functions := .ofList [(⟨"pick"⟩, callable)] }
    let arguments := (world.forest.node (.atRoot 0 ⟨2⟩)).children
    world.forest.node (.atRoot 0 ⟨2⟩) = .call ⟨"pick"⟩ arguments ∧
      context.function ⟨"pick"⟩ = .ok callable ∧
      (world.evaluate 3 context (.atRoot 0 ⟨2⟩)).outcome = .value (.integer 0) ∧
      (world.evaluate 3 context (.atRoot 0 ⟨2⟩)).calls = [⟨⟨"f"⟩, []⟩] ∧
      declaration.Accepts arguments.length ∧ ¬ declaration.Accepts 0 := by
  intro world declaration callable context arguments
  refine ⟨rfl, rfl, rfl, rfl, ⟨_, rfl, rfl⟩, ?_⟩
  rintro ⟨arity, isArity, accepted⟩
  obtain rfl : (⟨1, some 1⟩ : Arity) = arity := Except.ok.inj isArity
  cases accepted

end FormulaEngine
