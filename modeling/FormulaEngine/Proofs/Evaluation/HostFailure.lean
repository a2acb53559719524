import FormulaEngine.Proofs.Evaluation.Ledger
import FormulaEngine.Proofs.Expression.Session

/-!
# Failures of host code

Where host code fails, the evaluation that entered it fails with the same cause
and the same message, which host code may choose apart from the cause.  Each call
that was being applied adds a note, the innermost first.  Neither calls that were
preparing their arguments nor operators add a note or replace the error, and neither
do conversions, which report failures of their own only.
-/

namespace FormulaEngine

variable {Label : Type}

/-- The entries of a ledger account for the runs of a machine. -/
structure Ledger.Accounts (ledger : Ledger Label) (machine : Machine Label) :
    Prop where
  evaluate : ∀ expression,
    (machine.evaluate expression).Accounts (ledger.evaluate expression)
  judge : ∀ value, (machine.judge value).Accounts (ledger.judge value)
  apply : ∀ callable arguments,
    (machine.apply callable arguments).Accounts (ledger.apply callable arguments)

/-! ### One step -/

namespace Ledger.Accounts

variable {ledger : Ledger Label} {machine : Machine Label}

theorem unary (accounts : ledger.Accounts machine)
    (context : Context Label) (op : UnaryOp) (operand : Value Label) :
    (context.unary machine op operand).Accounts
      (ledger.unary op operand) := by
  cases op with
  | negate => exact Run.accounts_ofExcept _
  | not => exact (accounts.judge operand).bind_nil fun _ => Run.accounts_pure _

theorem binary (accounts : ledger.Accounts machine)
    (context : Context Label) (forest : Forest) (op : BinaryOp)
    (left right : Value Label) :
    (context.binary forest machine op left right).Accounts
      (ledger.binary machine context op left right) := by
  unfold Context.binary Ledger.binary
  cases op.group with
  | arithmetic grouped => exact Run.accounts_ofExcept _
  | comparison relation => exact Run.accounts_ofExcept _
  | logical grouped =>
      change (context.logical machine grouped left right).Accounts _
      rw [Context.logical_eq]
      refine (Run.accounts_ofNumeric _).nil_bind fun operands => ?_
      cases operands with
      | some operands => exact Run.accounts_ofExcept _
      | none =>
          exact (accounts.judge left).bind fun leftTruth =>
            (accounts.judge right).bind_nil fun _ => Run.accounts_pure _

theorem truthOf (accounts : ledger.Accounts machine) (world : World Label)
    (context : Context Label) (value : Value Label) :
    (world.judgeValue context machine value).Accounts
      (ledger.truthOf machine context value) := by
  rw [World.judgeValue_eq]
  unfold World.judgeBy Ledger.truthOf
  cases World.ruleFor context value with
  | some rule => exact Run.accounts_pure _
  | none =>
      cases value with
      | reference name =>
          exact (Run.accounts_ofExcept _).nil_bind accounts.judge
      | expression expression =>
          exact (accounts.evaluate expression).bind accounts.judge
      | _ => exact Run.accounts_pure _

theorem argument (accounts : ledger.Accounts machine)
    (context : Context Label) (forest : Forest) (callable : Callable Label)
    (item : Nat × Expression) :
    (context.prepareAt forest machine callable item).Accounts
      (ledger.argument forest callable item) := by
  obtain ⟨index, argument⟩ := item
  simp only [Context.prepareAt, Ledger.argument]
  cases parameterAt? callable.core.parameters index with
  | none => exact accounts.evaluate argument
  | some parameter =>
      simp only [Context.prepareArgument]
      cases forest.referenceName? argument with
      | some name =>
          simp only [Option.isSome_some, true_or, ↓reduceIte]
          split
          · exact (Run.accounts_ofExcept _).bind_nil fun _ =>
              Run.accounts_ofExcept _
          · split
            · exact Run.accounts_pure _
            · exact Run.accounts_ofExcept _
      | none =>
          simp only [Option.isSome_none, Bool.false_eq_true, false_or]
          split
          · exact Run.accounts_pure _
          · exact (accounts.evaluate argument).bind_nil fun _ =>
              Run.accounts_ofExcept _

theorem prepare (accounts : ledger.Accounts machine)
    (context : Context Label) (forest : Forest) (callable : Callable Label)
    (arguments : List Expression) :
    (context.prepare forest machine callable arguments).Accounts
      (ledger.prepare machine context forest callable arguments) := by
  rw [Context.prepare_eq]
  exact Run.accounts_forEach (accounts.argument context forest callable) _

theorem evaluateNode (accounts : ledger.Accounts machine)
    (world : World Label) (context : Context Label) (node : Node Expression) :
    (world.evaluateNode context machine node).Accounts
      (world.nodeEntries context machine ledger node) := by
  cases node with
  | value literal => exact Run.accounts_ofNumeric _
  | reference name =>
      refine (Run.accounts_ofExcept _).nil_bind fun value => ?_
      cases value with
      | expression stored => exact accounts.evaluate stored
      | _ => exact Run.accounts_pure _
  | unary op operand =>
      exact (accounts.evaluate operand).bind (accounts.unary context op)
  | binary op left right =>
      exact (accounts.evaluate left).bind fun leftValue =>
        (accounts.evaluate right).bind fun rightValue =>
          accounts.binary context world.forest op leftValue rightValue
  | call name arguments =>
      rw [World.evaluateNode_call]
      -- Only the application of the function is noted, not the preparation.
      exact (Run.accounts_ofExcept _).nil_bind fun callable =>
        (accounts.prepare context world.forest callable arguments).bind
          fun values => (accounts.apply callable values).noted name
  | lambda parameters body => exact Run.accounts_pure _

end Ledger.Accounts

namespace World

variable {ledgerOf : Context Label → Ledger Label}
  {machineOf : Context Label → Machine Label}

theorem accounts_keepArguments {test : Value Label → Run Label Bool}
    {entriesOf : Value Label → List (HostEntry Label)}
    (each : ∀ value, (test value).Accounts (entriesOf value))
    (values : List (Value Label)) :
    (keepArguments test values).Accounts
      (Run.entriesOver test entriesOf values) := by
  induction values with
  | nil => exact Run.accounts_pure []
  | cons value values ih =>
      exact (each value).bind fun kept => ih.bind_nil fun rest =>
        Run.accounts_pure _

theorem accounts_applyCallable (world : World Label)
    (accounts : ∀ context, (ledgerOf context).Accounts (machineOf context))
    (context : Context Label)
    (silent : ∀ value, value.IsPlain →
      ((machineOf context).judge value).calls = []) :
    ∀ (callable : Callable Label) (arguments : List (Value Label)),
      (world.applyCallable machineOf context callable arguments).Accounts
        (world.applyEntries machineOf ledgerOf context callable arguments)
  | .constantFalse, _ => Run.accounts_pure _
  | .startsWith, _ => Run.accounts_ofExcept _
  | .lambda parameters body, arguments =>
      (Run.accounts_ofExcept _).nil_bind fun _ =>
        (accounts (scopeOf context parameters arguments)).evaluate body
  | .host _ _, _ => Run.accounts_script silent (some _) _
  | .named _ inner, arguments =>
      accounts_applyCallable world accounts context silent inner arguments
  | .mapped _ inner, _ =>
      (Run.accounts_script silent none _).bind
        (accounts_applyCallable world accounts context silent inner)
  | .filtered _ inner, arguments =>
      (accounts_keepArguments
        (fun _ => Run.accounts_script silent none _) arguments).bind
        (accounts_applyCallable world accounts context silent inner)

theorem judge_calls_eq_nil (world : World Label) (steps : Nat)
    (context : Context Label) {value : Value Label} (isPlain : value.IsPlain) :
    ((world.machine steps context).judge value).calls = [] := by
  cases steps with
  | zero => rfl
  | succ steps =>
      rw [judge_of_isPlain world context steps isPlain]
      rfl

/-! ### Whole runs -/

/-- The ledger of the machine of a context accounts for it. -/
theorem accounts_ledger (world : World Label) (steps : Nat)
    (context : Context Label) :
    (world.ledger steps context).Accounts (world.machine steps context) := by
  induction steps generalizing context with
  | zero =>
      exact ⟨fun _ => Run.accounts_nil rfl, fun _ => Run.accounts_nil rfl,
        fun _ _ => Run.accounts_nil rfl⟩
  | succ steps ih =>
      have silent (value : Value Label) (isPlain : value.IsPlain) :=
        world.judge_calls_eq_nil steps context isPlain
      exact ⟨fun expression => (ih context).evaluateNode world context _,
        (ih context).truthOf world context,
        world.accounts_applyCallable ih context silent⟩

/-- If host code fails that an evaluation has run, the evaluation fails with the
same cause and the same message.  Its notes are those of the host code's error and
then one for each call that was being applied, innermost first.  Where all this host
code was still, its bodies are all the bodies that were entered. -/
theorem host_failure_propagates (world : World Label) (steps : Nat)
    (context : Context Label) (expression : Expression) :
    let run := world.evaluate steps context expression
    let entries := world.entries steps context expression
    (HostEntry.calls entries).Sublist run.calls ∧
      ((∀ entry ∈ entries, entry.isStill) →
        HostEntry.calls entries = run.calls) ∧
      ∀ entry ∈ entries, ∀ error, entry.error? = some error →
        run.outcome = .error ⟨error.cause, error.message,
          error.notes ++ entry.applied.map callNote⟩ := by
  intro run entries
  have accounts : run.Accounts entries :=
    (world.accounts_ledger steps context).evaluate expression
  exact ⟨accounts.entered, accounts.all, accounts.fails⟩

end World

/-- A caller has built a check of a name, which is to be the body of a lambda, and
the negation of a check of what the lambda yields. -/
def Session.wrappedCheck : Session :=
  start
    |>.operate (.build 0 (.reference ⟨"x"⟩))
    |>.operate (.build 0 (.call ⟨"check"⟩ [.atRoot 0 ⟨0⟩]))
    |>.operate (.build 0 (.value (.bool true)))
    |>.operate (.build 0 (.call ⟨"wrap"⟩ [.atRoot 0 ⟨2⟩]))
    |>.operate (.build 0 (.call ⟨"check"⟩ [.atRoot 0 ⟨3⟩]))
    |>.operate (.build 0 (.unary .not (.atRoot 0 ⟨4⟩)))

/-- The failure of a host, with a message that is not the wording of its cause and
with a note of its own. -/
def denial : EvalError where
  cause := .custom "denied"
  message := "not today"
  notes := ["by the host"]

/-- Tables with a check in host code and with a lambda that calls it. -/
def wrapTables : BasicContext Unit where
  functions := .ofList
    [(⟨"check"⟩, .host
        { name := ⟨"check"⟩
          parameters := [⟨⟨"item"⟩, .any, .required, {}⟩] } ()),
      (⟨"wrap"⟩, .lambda [⟨⟨"x"⟩, .bool, .required, {}⟩] (.atRoot 0 ⟨1⟩))]

/-- A world in which host code fails whatever it is given. -/
def denyingWorld : World Unit :=
  ⟨Session.wrappedCheck.forest, .answering fun _ => .error denial⟩

/-- The check inside the lambda. -/
def deniedCheck : HostEntry Unit where
  call? := some ⟨⟨"check"⟩, [.reference ⟨"x"⟩]⟩
  error? := some denial
  isStill := (Script.done (.error denial) : Script Unit (Value Unit)).Still
  applied := [⟨"check"⟩, ⟨"wrap"⟩]

theorem entries_denyingWorld :
    denyingWorld.entries 8 (.basic wrapTables) (.atRoot 0 ⟨5⟩) = [deniedCheck] :=
  rfl

/-- The check fails inside the lambda.  The outer check is still preparing its
argument then, so it is not in the notes, and neither is the negation. -/
theorem host_failure_propagates_wrapped :
    let run := denyingWorld.evaluate 8 (.basic wrapTables) (.atRoot 0 ⟨5⟩)
    run.outcome = .error ⟨denial.cause, denial.message,
        denial.notes ++ [callNote ⟨"check"⟩, callNote ⟨"wrap"⟩]⟩ ∧
      HostEntry.calls [deniedCheck] = run.calls := by
  intro run
  obtain ⟨-, all, fails⟩ := denyingWorld.host_failure_propagates 8
    (.basic wrapTables) (.atRoot 0 ⟨5⟩)
  rw [entries_denyingWorld, List.forall_mem_singleton] at all fails
  exact ⟨fails denial rfl, all (.done _)⟩

end FormulaEngine
