import FormulaEngine.Proofs.Evaluation.Node
import FormulaEngine.Proofs.Evaluation.Truth

/-!
# The host code that an evaluation runs

A ledger lists the host code that an evaluation runs, in order: bodies of
functions, rearrangements and tests of arguments.  Each entry says how the code
ended, whether it asked for anything, and which calls were being applied at that
moment.  A call that is still preparing its arguments is not being applied, and
operators are not calls, so neither is in an entry.

Host code may itself ask for evaluations.  What is run on its behalf is not in the
ledger, since it decides what becomes of a failure there.
-/

namespace FormulaEngine

variable {Label Result Next Item : Type}

/-- A script neither evaluates nor applies anything, also not by asking for the
truth of a formula or of a reference to one. -/
inductive Script.Still : Script Label Result → Prop
  | done (result : Except EvalError Result) : Still (.done result)
  | judge {value : Value Label}
      {next : Except EvalError Bool → Script Label Result}
      (isPlain : value.IsPlain) (following : ∀ answer, Still (next answer)) :
      Still (.judge value next)

/-- Host code that was run: the call, if it is the body of a function; the error
that it ended with, if any; whether it was still; and the names in the calls that
were being applied, innermost first. -/
structure HostEntry (Label : Type) where
  call? : Option (HostCall Label)
  error? : Option EvalError
  isStill : Prop
  applied : List FunctionName := []

/-- The note that the application of a call puts on an error. -/
def callNote (name : FunctionName) : String :=
  "in call to `" ++ name.text ++ "`"

namespace Run

/-- The error that a run ends with. -/
def error? (run : Run Label Result) : Option EvalError :=
  match run.outcome with
  | .error error => some error
  | _ => none

/-- What there is after a run, if it ends with a value. -/
def follow (run : Run Label Result) (next : Result → List Item) : List Item :=
  match run.outcome with
  | .value result => next result
  | _ => []

@[simp]
theorem follow_nil (run : Run Label Result) :
    run.follow (fun _ => ([] : List Item)) = [] := by
  unfold follow
  split <;> rfl

theorem error?_eq_some_iff {run : Run Label Result} {error : EvalError} :
    run.error? = some error ↔ run.outcome = .error error := by
  unfold error?
  cases run.outcome <;> simp

theorem calls_resume_eq_nil {run : Run Label Result}
    {next : Except EvalError Result → Run Label Next} (first : run.calls = [])
    (following : ∀ answer, (next answer).calls = []) :
    (run.resume next).calls = [] := by
  obtain ⟨outcome, calls⟩ := run
  cases outcome <;> simp_all [resume, after]

end Run

theorem Script.Still.calls_eq_nil {machine : Machine Label}
    {script : Script Label Result} (still : script.Still)
    (silent : ∀ value, value.IsPlain → (machine.judge value).calls = []) :
    (script.run machine).calls = [] := by
  induction still with
  | done result => cases result <;> rfl
  | judge isPlain following ih =>
      exact Run.calls_resume_eq_nil (silent _ isPlain) ih

namespace HostEntry

/-- The entry of a script that a machine follows. -/
def ofScript (machine : Machine Label) (call? : Option (HostCall Label))
    (script : Script Label Result) : HostEntry Label where
  call? := call?
  error? := (script.run machine).error?
  isStill := script.Still

/-- An entry seen from a call that was being applied around it. -/
def under (entry : HostEntry Label) (name : FunctionName) : HostEntry Label :=
  { entry with applied := entry.applied ++ [name] }

/-- What becomes of an error of host code: its cause and its message stay as they
are, and there is one more note for every call that was being applied. -/
def report (entry : HostEntry Label) (error : EvalError) : EvalError :=
  ⟨error.cause, error.message, error.notes ++ entry.applied.map callNote⟩

@[simp]
theorem report_ofScript (machine : Machine Label)
    (call? : Option (HostCall Label)) (script : Script Label Result)
    (error : EvalError) : (ofScript machine call? script).report error = error := by
  simp [report, ofScript]

theorem report_under (entry : HostEntry Label) (name : FunctionName)
    (error : EvalError) :
    (entry.under name).report error =
      (entry.report error).withNote (callNote name) := by
  simp [report, under, EvalError.withNote]

/-- The bodies of functions among host code. -/
def calls (entries : List (HostEntry Label)) : List (HostCall Label) :=
  entries.filterMap call?

@[simp]
theorem calls_append (first second : List (HostEntry Label)) :
    calls (first ++ second) = calls first ++ calls second :=
  List.filterMap_append

@[simp]
theorem calls_map_under (entries : List (HostEntry Label)) (name : FunctionName) :
    calls (entries.map (·.under name)) = calls entries := by
  simp [calls, List.filterMap_map, under]

end HostEntry

namespace Run

/-- Entries account for a run.  The bodies among them were entered, and no others
were if the host code was still; and the run ends with the error of an entry. -/
structure Accounts (entries : List (HostEntry Label)) (run : Run Label Result) :
    Prop where
  entered : (HostEntry.calls entries).Sublist run.calls
  all : (∀ entry ∈ entries, entry.isStill) → HostEntry.calls entries = run.calls
  fails : ∀ entry ∈ entries, ∀ error, entry.error? = some error →
    run.outcome = .error (entry.report error)

section Accounts

variable {entries : List (HostEntry Label)} {run : Run Label Result}

theorem accounts_nil (silent : run.calls = []) : run.Accounts [] where
  entered := List.nil_sublist _
  all _ := silent.symm
  fails := nofun

theorem accounts_ofExcept (computation : Except EvalError Result) :
    (ofExcept computation : Run Label Result).Accounts [] :=
  accounts_nil (by cases computation <;> rfl)

theorem accounts_ofNumeric (computation : Except NumberError Result) :
    (ofNumeric computation : Run Label Result).Accounts [] :=
  accounts_nil (by cases computation <;> rfl)

theorem accounts_pure (result : Result) :
    (pure result : Run Label Result).Accounts [] :=
  accounts_nil rfl

/-- Runs that follow each other are accounted for one after the other. -/
theorem Accounts.bind (accounts : run.Accounts entries)
    {next : Result → Run Label Next} {entriesOf : Result → List (HostEntry Label)}
    (following : ∀ result, (next result).Accounts (entriesOf result)) :
    (run >>= next).Accounts (entries ++ run.follow entriesOf) := by
  have earlier (entry : HostEntry Label) (member : entry ∈ entries)
      (error : EvalError) (failed : entry.error? = some error) :
      (run >>= next).outcome = .error (entry.report error) :=
    outcome_bind_error (accounts.fails entry member error failed) next
  obtain ⟨outcome, calls⟩ := run
  cases outcome with
  | value result =>
      obtain ⟨entered, all, fails⟩ := following result
      refine ⟨?_, fun areStill => ?_, List.forall_mem_append.mpr ⟨earlier, fails⟩⟩
      · rw [HostEntry.calls_append]
        exact accounts.entered.append entered
      · obtain ⟨firstStill, restStill⟩ := List.forall_mem_append.mp areStill
        rw [HostEntry.calls_append, accounts.all firstStill]
        exact congrArg (calls ++ ·) (all restStill)
  -- Nothing follows, so nothing is entered after the first run.
  | error error =>
      simp only [follow, List.append_nil]
      exact ⟨accounts.entered, accounts.all, earlier⟩
  | cutOff =>
      simp only [follow, List.append_nil]
      exact ⟨accounts.entered, accounts.all, earlier⟩

theorem Accounts.nil_bind (accounts : run.Accounts [])
    {next : Result → Run Label Next} {entriesOf : Result → List (HostEntry Label)}
    (following : ∀ result, (next result).Accounts (entriesOf result)) :
    (run >>= next).Accounts (run.follow entriesOf) :=
  accounts.bind following

theorem Accounts.bind_nil (accounts : run.Accounts entries)
    {next : Result → Run Label Next}
    (following : ∀ result, (next result).Accounts []) :
    (run >>= next).Accounts entries := by
  simpa using accounts.bind following

/-- Only the application of a function puts a note on an error. -/
theorem Accounts.noted (accounts : run.Accounts entries) (name : FunctionName) :
    (run.noted (callNote name)).Accounts (entries.map (·.under name)) where
  entered := by
    rw [calls_noted, HostEntry.calls_map_under]
    exact accounts.entered
  all areStill := by
    rw [calls_noted, HostEntry.calls_map_under]
    refine accounts.all fun entry member => ?_
    exact areStill (entry.under name) (List.mem_map_of_mem member)
  fails := by
    simp only [List.forall_mem_map]
    intro entry member error failed
    have ends := accounts.fails entry member error failed
    simp only [Run.noted, ends, HostEntry.report_under]

theorem accounts_script {machine : Machine Label}
    (silent : ∀ value, value.IsPlain → (machine.judge value).calls = [])
    (call? : Option (HostCall Label)) (script : Script Label Result) :
    ((script.run machine).after call?.toList).Accounts
      [.ofScript machine call? script] := by
  have entry : HostEntry.calls [.ofScript machine call? script] = call?.toList := by
    cases call? <;> rfl
  refine ⟨?_, fun areStill => ?_, ?_⟩
  · rw [entry]
    exact List.sublist_append_left _ _
  · have isStill : script.Still := areStill _ (List.mem_singleton_self _)
    rw [entry, Run.after, isStill.calls_eq_nil silent, List.append_nil]
  · simp only [List.forall_mem_singleton, HostEntry.report_ofScript]
    exact fun error failed => error?_eq_some_iff.mp failed

end Accounts

def entriesOver (step : Item → Run Label Result)
    (entriesOf : Item → List (HostEntry Label)) :
    List Item → List (HostEntry Label)
  | [] => []
  | item :: items =>
      entriesOf item ++ (step item).follow fun _ =>
        entriesOver step entriesOf items

theorem accounts_forEach {step : Item → Run Label Result}
    {entriesOf : Item → List (HostEntry Label)}
    (each : ∀ item, (step item).Accounts (entriesOf item)) (items : List Item) :
    (forEach step items).Accounts (entriesOver step entriesOf items) := by
  induction items with
  | nil => exact accounts_pure []
  | cons item items ih =>
      exact (each item).bind fun result => ih.bind_nil fun _ => accounts_pure _

end Run

/-! ### Ledgers -/

/-- The entries for everything that a machine is asked.  What operators, judgements
and the preparation of arguments run is read off the ledger below them. -/
structure Ledger (Label : Type) where
  evaluate : Expression → List (HostEntry Label)
  judge : Value Label → List (HostEntry Label)
  apply : Callable Label → List (Value Label) → List (HostEntry Label)

def Ledger.blank : Ledger Label where
  evaluate _ := []
  judge _ := []
  apply _ _ := []

def Context.prepareAt (context : Context Label) (forest : Forest)
    (machine : Machine Label) (callable : Callable Label) :
    Nat × Expression → Run Label (Value Label)
  | (index, argument) =>
      match parameterAt? callable.core.parameters index with
      | some parameter =>
          context.prepareArgument forest machine callable.core.displayName
            parameter argument
      | none => machine.evaluate argument

theorem Context.prepare_eq (context : Context Label) (forest : Forest)
    (machine : Machine Label) (callable : Callable Label)
    (arguments : List Expression) :
    context.prepare forest machine callable arguments =
      Run.forEach (context.prepareAt forest machine callable)
        (arguments.mapIdx fun index argument => (index, argument)) :=
  rfl

namespace Ledger

variable (ledger : Ledger Label) (machine : Machine Label)
  (context : Context Label)

def unary (op : UnaryOp) (operand : Value Label) : List (HostEntry Label) :=
  match op with
  | .negate => []
  | .not => ledger.judge operand

def binary (op : BinaryOp) (left right : Value Label) : List (HostEntry Label) :=
  match op.group with
  | .arithmetic _ | .comparison _ => []
  | .logical _ =>
      (Run.ofNumeric (context.bitOperands? left right) : Run Label _).follow fun
        | some _ => []
        | none =>
            ledger.judge left ++ (machine.judge left).follow fun _ =>
              ledger.judge right

def truthOf (value : Value Label) : List (HostEntry Label) :=
  match World.ruleFor context value, value with
  | some _, _ => []
  | none, .reference name =>
      (Run.ofExcept (context.resolve name) : Run Label _).follow ledger.judge
  | none, .expression expression =>
      ledger.evaluate expression ++
        (machine.evaluate expression).follow ledger.judge
  | none, _ => []

def argument (forest : Forest) (callable : Callable Label) :
    Nat × Expression → List (HostEntry Label)
  | (index, argument) =>
      match parameterAt? callable.core.parameters index with
      | none => ledger.evaluate argument
      | some parameter =>
          if (forest.referenceName? argument).isSome ∨
            parameter.flags.unevaluated then []
          else ledger.evaluate argument

def prepare (forest : Forest) (callable : Callable Label)
    (arguments : List Expression) : List (HostEntry Label) :=
  Run.entriesOver (context.prepareAt forest machine callable)
    (ledger.argument forest callable)
    (arguments.mapIdx fun index argument => (index, argument))

end Ledger

namespace World

variable (world : World Label)

/-- The entries of the evaluation of a node.  The name in a call is put on what is
run while the function is applied, not on what is run for its arguments. -/
def nodeEntries (context : Context Label) (machine : Machine Label)
    (ledger : Ledger Label) : Node Expression → List (HostEntry Label)
  | .value _ | .lambda _ _ => []
  | .reference name =>
      (Run.ofExcept (context.resolve name) : Run Label _).follow fun
        | .expression stored => ledger.evaluate stored
        | _ => []
  | .unary op operand =>
      ledger.evaluate operand ++
        (machine.evaluate operand).follow (ledger.unary op)
  | .binary op left right =>
      ledger.evaluate left ++ (machine.evaluate left).follow fun leftValue =>
        ledger.evaluate right ++
          (machine.evaluate right).follow fun rightValue =>
            ledger.binary machine context op leftValue rightValue
  | .call name arguments =>
      (Run.ofExcept (lookUp context name arguments.length) :
          Run Label _).follow fun callable =>
        ledger.prepare machine context world.forest callable arguments ++
          (context.prepare world.forest machine callable arguments).follow
            fun values => (ledger.apply callable values).map (·.under name)

/-- The entries of the application of a function. -/
def applyEntries (machineOf : Context Label → Machine Label)
    (ledgerOf : Context Label → Ledger Label) (context : Context Label) :
    Callable Label → List (Value Label) → List (HostEntry Label)
  | .constantFalse, _ | .startsWith, _ => []
  | .lambda parameters body, arguments =>
      (Run.ofExcept ((Callable.lambda parameters body : Callable Label).checkCount
          arguments.length) : Run Label _).follow fun _ =>
        (ledgerOf (scopeOf context parameters arguments)).evaluate body
  | .host declaration label, arguments =>
      [.ofScript (machineOf context) (some ⟨declaration.name, arguments⟩)
        (world.host.body label world.forest context arguments)]
  | .named _ inner, arguments =>
      applyEntries machineOf ledgerOf context inner arguments
  | .mapped label inner, arguments =>
      let script := world.host.rearrange label world.forest context arguments
      .ofScript (machineOf context) none script ::
        (script.run (machineOf context)).follow fun rearranged =>
          applyEntries machineOf ledgerOf context inner rearranged
  | .filtered label inner, arguments =>
      let script := world.host.keeps label world.forest context
      let test := fun value => (script value).run (machineOf context)
      Run.entriesOver test
          (fun value => [.ofScript (machineOf context) none (script value)])
          arguments ++
        (keepArguments test arguments).follow fun kept =>
          applyEntries machineOf ledgerOf context inner kept

/-- The ledger of the machine of a context with a number of steps. -/
def ledger : (steps : Nat) → Context Label → Ledger Label
  | 0, _ => .blank
  | steps + 1, context =>
      { evaluate := fun expression =>
          world.nodeEntries context (world.machine steps context)
            (ledger steps context) (world.forest.node expression)
        judge := (ledger steps context).truthOf (world.machine steps context)
          context
        apply := fun callable arguments =>
          world.applyEntries (world.machine steps) (ledger steps) context callable
            arguments }

/-- The host code that the evaluation of an expression runs. -/
def entries (steps : Nat) (context : Context Label) (expression : Expression) :
    List (HostEntry Label) :=
  (world.ledger steps context).evaluate expression

end World

end FormulaEngine
