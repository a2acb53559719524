import FormulaEngine.Proofs.Context.Table
import FormulaEngine.Proofs.Evaluation.Node
import FormulaEngine.Proofs.Evaluation.Truth
import FormulaEngine.Proofs.Expression.Session

/-!
# Termination

Evaluation follows more than the nodes of a formula.  A reference leads to a
stored formula, and the truth of a value leads through chains of references and
through the formulas stored at their ends.  All of it ends if the references in a
table are ranked: what is stored under a name refers to names of lower rank only.
The induction is on the rank of the current name, and for each name on the tree
that is stored under it.
-/

namespace FormulaEngine

variable {Label Result Next : Type}

/-! ### Runs that settle -/

namespace Run

/-- From some number of steps on a run is always the same.  It is not cut off, and
its result, if it has one, has a property. -/
def Settles (holds : Result → Prop) (run : Nat → Run Label Result) : Prop :=
  ∃ least final, final.outcome ≠ .cutOff ∧ final.Ensures holds ∧
    ∀ steps, least ≤ steps → run steps = final

variable {holds weaker : Result → Prop} {holdsNext : Next → Prop}
  {run : Nat → Run Label Result}

theorem settles_pure {result : Result} (isHeld : holds result) :
    Settles holds fun _ => (pure result : Run Label Result) :=
  ⟨0, pure result, nofun, ensures_pure isHeld, fun _ _ => rfl⟩

theorem settles_ofExcept {computation : Except EvalError Result}
    (isHeld : ∀ result, computation = .ok result → holds result) :
    Settles holds fun _ => (ofExcept computation : Run Label Result) := by
  cases computation with
  | ok result => exact settles_pure (isHeld result rfl)
  | error error => exact ⟨0, fail error, nofun, nofun, fun _ _ => rfl⟩

theorem settles_ofNumeric {computation : Except NumberError Result}
    (isHeld : ∀ result, computation = .ok result → holds result) :
    Settles holds fun _ => (ofNumeric computation : Run Label Result) := by
  cases computation with
  | ok result => exact settles_pure (isHeld result rfl)
  | error error =>
      exact ⟨0, fail error.toEvalError, nofun, nofun, fun _ _ => rfl⟩

theorem Settles.imp (settles : Settles holds run)
    (follows : ∀ result, holds result → weaker result) :
    Settles weaker run := by
  obtain ⟨least, final, ends, ensures, same⟩ := settles
  exact ⟨least, final, ends, ensures.imp follows, same⟩

/-- The first step does not matter. -/
theorem Settles.of_succ (settles : Settles holds fun steps => run (steps + 1)) :
    Settles holds run := by
  obtain ⟨least, final, ends, ensures, same⟩ := settles
  refine ⟨least + 1, final, ends, ensures, fun steps enough => ?_⟩
  obtain ⟨fewer, rfl⟩ := Nat.exists_eq_add_of_le' enough
  exact same (fewer + least) (by omega)

theorem Settles.after (settles : Settles holds run)
    (calls : List (HostCall Label)) :
    Settles holds fun steps => (run steps).after calls := by
  obtain ⟨least, final, ends, ensures, same⟩ := settles
  exact ⟨least, final.after calls, ends, ensures.after calls,
    fun steps enough => congrArg (Run.after calls) (same steps enough)⟩

theorem Settles.noted (settles : Settles holds run) (note : String) :
    Settles holds fun steps => (run steps).noted note := by
  obtain ⟨least, final, ends, ensures, same⟩ := settles
  exact ⟨least, final.noted note,
    fun cutOff => ends (outcome_noted_eq_cutOff.mp cutOff), ensures.noted note,
    fun steps enough => congrArg (Run.noted · note) (same steps enough)⟩

/-- A run settles if its first part does and, whatever the result of that, the
second part does. -/
theorem Settles.bind (settles : Settles holds run)
    {next : Nat → Result → Run Label Next}
    (following : ∀ result, holds result →
      Settles holdsNext fun steps => next steps result) :
    Settles holdsNext fun steps => run steps >>= next steps := by
  obtain ⟨least, ⟨outcome, calls⟩, ends, ensures, same⟩ := settles
  cases outcome with
  | value result =>
      obtain ⟨later, final, nextEnds, nextEnsures, nextSame⟩ :=
        (following result (ensures result rfl)).after calls
      refine ⟨max least later, final, nextEnds, nextEnsures, fun steps enough => ?_⟩
      calc
        run steps >>= next steps = ⟨.value result, calls⟩ >>= next steps :=
          congrArg (· >>= next steps) (same steps (by omega))
        _ = final := nextSame steps (by omega)
  | error error =>
      refine ⟨least, ⟨.error error, calls⟩, nofun, nofun,
        fun steps enough => ?_⟩
      exact congrArg (· >>= next steps) (same steps enough)
  | cutOff => exact (ends rfl).elim

theorem settles_forEach {Item : Type} {step : Nat → Item → Run Label Result}
    {items : List Item}
    (each : ∀ item ∈ items, Settles (fun _ => True) fun steps => step steps item) :
    Settles (fun _ => True) fun steps => forEach (step steps) items := by
  induction items with
  | nil => exact settles_pure trivial
  | cons item items ih =>
      have rest := ih fun other member => each other (List.mem_cons_of_mem _ member)
      exact (each item List.mem_cons_self).bind fun _ _ =>
        rest.bind fun _ _ => settles_pure trivial

end Run

/-! ### What is asked of tables and host code -/

/-- Every reference of a shape is to a name of a property. -/
def Shape.Names (used : Reference → Prop) (shape : Shape) : Prop :=
  ∀ name, shape = .reference name → used name

/-- Every function that a shape calls is host code that ends at once, without
asking its context anything, and yields neither a formula nor a reference. -/
def Shape.CallsHost (world : World Label) (tables : BasicContext Label) :
    Shape → Prop
  | .call name => ∀ callable, tables.function name = .ok callable →
      ∃ declaration label, callable = .host declaration label ∧
        ∀ arguments, ∃ result,
          world.host.body label world.forest (.basic tables) arguments =
            .done result ∧
          ∀ value, result = .ok value → value.IsPlain
  | _ => True

/-- References in tables are ranked: a name that is stored as a value or occurs in
a stored formula ranks below the name it is stored under. -/
structure BasicContext.Ranked {Rank : Type*} [LT Rank]
    (tables : BasicContext Label) (forest : Forest) (rank : Reference → Rank) :
    Prop where
  reference : ∀ name other,
    tables.references.find? name = some (.reference other) →
      rank other < rank name
  formula : ∀ name stored,
    tables.references.find? name = some (.expression stored) →
      (forest.tree stored).All (Shape.Names fun other => rank other < rank name)

/-- Every formula in tables calls nothing but host code that ends at once. -/
def BasicContext.StoresHostCalls (world : World Label)
    (tables : BasicContext Label) : Prop :=
  ∀ name stored, tables.references.find? name = some (.expression stored) →
    (world.forest.tree stored).All (Shape.CallsHost world tables)

namespace World

variable {world : World Label} {tables : BasicContext Label}

/-- The truth of a value is settled, and the value is no formula. -/
structure Judges (world : World Label) (tables : BasicContext Label)
    (value : Value Label) : Prop where
  isEvaluated : value.IsEvaluated
  truth : Run.Settles (fun _ => True) fun steps =>
    (world.machine steps (.basic tables)).judge value

/-- The truth of a reference to a name is settled, and so is its value. -/
structure Follows (world : World Label) (tables : BasicContext Label)
    (name : Reference) : Prop where
  truth : Run.Settles (fun _ => True) fun steps =>
    (world.machine steps (.basic tables)).judge (.reference name)
  value : Run.Settles (world.Judges tables) fun steps =>
    world.evaluateNode (.basic tables) (world.machine steps (.basic tables))
      (.reference name)

theorem Judges.of_isPlain {value : Value Label} (isPlain : value.IsPlain) :
    world.Judges tables value where
  isEvaluated := isPlain.isEvaluated
  truth := by
    refine .of_succ ?_
    simp only [judge_of_isPlain world _ _ isPlain]
    exact Run.settles_pure trivial

theorem Follows.judges {name : Reference} (follows : world.Follows tables name) :
    world.Judges tables (.reference name) :=
  ⟨by simp [Value.IsEvaluated, Value.type], follows.truth⟩

/-! ### One node -/

section Nodes

/-- Asking for the truth of a value settles, unless a rule decides, as soon as the
default judgement does. -/
theorem settles_judge {value : Value Label}
    (byDefault : Run.Settles (fun _ => True) fun steps =>
      judgeByDefault (.basic tables) (world.machine steps (.basic tables))
        value) :
    Run.Settles (fun _ => True) fun steps =>
      (world.machine steps (.basic tables)).judge value := by
  refine .of_succ ?_
  simp only [machine, judgeValue_eq, judgeBy]
  cases ruleFor (.basic tables) value with
  | some rule => exact Run.settles_pure trivial
  | none => exact byDefault

theorem settles_unary (op : UnaryOp) {operand : Value Label}
    (judges : world.Judges tables operand) :
    Run.Settles (world.Judges tables) fun steps =>
      (Context.basic tables).unary (world.machine steps (.basic tables)) op
        operand := by
  cases op with
  | negate =>
      exact Run.settles_ofExcept fun _ succeeds =>
        .of_isPlain (Context.isScalar_negate succeeds).isPlain
  | not =>
      exact judges.truth.bind fun truth _ =>
        Run.settles_pure (.of_isPlain (by simp [Value.IsPlain, Value.type]))

theorem settles_binary (op : BinaryOp) {left right : Value Label}
    (judgesLeft : world.Judges tables left)
    (judgesRight : world.Judges tables right) :
    Run.Settles (world.Judges tables) fun steps =>
      (Context.basic tables).binary world.forest
        (world.machine steps (.basic tables)) op left right := by
  unfold Context.binary
  cases op.group with
  | arithmetic grouped =>
      exact Run.settles_ofExcept fun _ succeeds =>
        .of_isPlain (Context.isScalar_arithmetic succeeds).isPlain
  | comparison relation =>
      exact Run.settles_ofExcept fun _ succeeds =>
        .of_isPlain (Context.isScalar_comparison succeeds).isPlain
  | logical grouped =>
      simp only [Context.logical_eq]
      refine (Run.settles_ofNumeric fun _ _ => trivial).bind
        fun operands (_ : True) => ?_
      cases operands with
      | some operands =>
          exact Run.settles_ofExcept fun _ succeeds =>
            .of_isPlain (Context.isScalar_of_numeral succeeds).isPlain
      | none =>
          exact judgesLeft.truth.bind fun leftTruth _ =>
            judgesRight.truth.bind fun rightTruth _ =>
              Run.settles_pure
                (.of_isPlain (by simp [Value.IsPlain, Value.type]))

theorem settles_prepare {callable : Callable Label}
    {arguments : List Expression}
    (below : ∀ argument ∈ arguments, Run.Settles (world.Judges tables)
      fun steps => world.evaluate steps (.basic tables) argument) :
    Run.Settles (fun _ => True) fun steps =>
      (Context.basic tables).prepare world.forest
        (world.machine steps (.basic tables)) callable arguments := by
  refine Run.settles_forEach fun ⟨index, argument⟩ member => ?_
  have isArgument : argument ∈ arguments := by
    obtain ⟨position, bound, same⟩ := List.mem_mapIdx.mp member
    cases same
    exact List.getElem_mem bound
  have evaluates : Run.Settles (fun _ => True) fun steps =>
      (world.machine steps (.basic tables)).evaluate argument :=
    (below argument isArgument).imp fun _ _ => trivial
  have finish (computation : Except EvalError (Value Label)) :
      Run.Settles (fun _ => True) fun _ =>
        (.ofExcept computation : Run Label (Value Label)) :=
    Run.settles_ofExcept fun _ _ => trivial
  simp only
  cases parameterAt? callable.core.parameters index with
  | none => exact evaluates
  | some parameter =>
      simp only [Context.prepareArgument]
      cases world.forest.referenceName? argument with
      | some name =>
          simp only
          split
          · exact (finish _).bind fun _ _ => finish _
          · split
            · exact Run.settles_pure trivial
            · exact finish _
      | none =>
          simp only
          split
          · exact Run.settles_pure trivial
          · exact evaluates.bind fun _ _ => finish _

/-- The value of a node is settled if the names that it refers to can be followed
and the values of its children are settled. -/
theorem settles_evaluateNode {node : Node Expression}
    (follows : node.shape.Names (world.Follows tables))
    (calls : node.shape.CallsHost world tables)
    (below : ∀ child ∈ node.children, Run.Settles (world.Judges tables)
      fun steps => world.evaluate steps (.basic tables) child) :
    Run.Settles (world.Judges tables) fun steps =>
      world.evaluateNode (.basic tables) (world.machine steps (.basic tables))
        node := by
  cases node with
  | value literal =>
      exact Run.settles_ofNumeric fun _ succeeds =>
        .of_isPlain (isScalar_literal succeeds).isPlain
  | reference name => exact (follows name rfl).value
  | unary op operand =>
      exact (below operand (by simp [Node.children])).bind fun _ =>
        settles_unary op
  | binary op left right =>
      exact (below left (by simp [Node.children])).bind fun _ judgesLeft =>
        (below right (by simp [Node.children])).bind fun _ =>
          settles_binary op judgesLeft
  | lambda parameters body =>
      exact Run.settles_pure (.of_isPlain (by simp [Value.IsPlain, Value.type]))
  | call name arguments =>
      simp only [evaluateNode_call]
      refine (Run.settles_ofExcept fun _ => function_of_lookUp).bind
        fun callable found => ?_
      obtain ⟨declaration, label, rfl, answers⟩ := calls callable found
      refine (settles_prepare below).bind fun values _ => ?_
      obtain ⟨result, ends, isPlain⟩ := answers values
      refine (Run.Settles.of_succ ?_).noted _
      simp only [machine, applyCallable, ends, Script.run]
      exact (Run.settles_ofExcept fun value succeeds =>
        .of_isPlain (isPlain value succeeds)).after _

end Nodes

/-! ### Formulas and names -/

/-- The value of a formula is settled if all names in it can be followed. -/
theorem settles_evaluate (wellFormed : world.forest.WellFormed)
    {expression : Expression}
    (all : (world.forest.tree expression).All fun shape =>
      shape.Names (world.Follows tables) ∧ shape.CallsHost world tables) :
    Run.Settles (world.Judges tables) fun steps =>
      world.evaluate steps (.basic tables) expression := by
  generalize same : world.forest.tree expression = tree at all
  induction all generalizing expression with
  | node root below ih =>
      rw [Forest.tree_eq wellFormed, ← Forest.children_node,
        ← Forest.shape_node] at same
      obtain ⟨rfl, rfl⟩ := Tree.node.inj same
      exact .of_succ (settles_evaluateNode root.1 root.2 fun child isChild =>
        ih _ (List.mem_map_of_mem isChild) rfl)

/-- The truth of a formula is settled if its value is. -/
theorem settles_judge_expression {placed : Expression}
    (evaluates : Run.Settles (world.Judges tables) fun steps =>
      world.evaluate steps (.basic tables) placed) :
    Run.Settles (fun _ => True) fun steps =>
      (world.machine steps (.basic tables)).judge (.expression placed) :=
  settles_judge (evaluates.bind fun _ judges => judges.truth)

/-- A name can be followed if what it stands for has a truth that is settled, or
is a formula with a value that is. -/
theorem Follows.of_resolve {name : Reference}
    (stands : ∀ value, (Context.basic tables).resolve name = .ok value →
      world.Judges tables value ∨ ∃ placed, value = .expression placed ∧
        Run.Settles (world.Judges tables) fun steps =>
          world.evaluate steps (.basic tables) placed) :
    world.Follows tables name where
  truth := by
    refine settles_judge ((Run.settles_ofExcept stands).bind ?_)
    rintro value (judges | ⟨placed, rfl, evaluates⟩)
    · exact judges.truth
    · exact settles_judge_expression evaluates
  value := by
    refine (Run.settles_ofExcept stands).bind ?_
    rintro value (judges | ⟨placed, rfl, evaluates⟩)
    · cases value with
      | expression placed => exact (judges.isEvaluated rfl).elim
      | _ => exact Run.settles_pure judges
    · exact evaluates

/-- In ranked tables every name can be followed. -/
theorem follows_of_ranked {Rank : Type*} [LT Rank] [WellFoundedLT Rank]
    {rank : Reference → Rank} (wellFormed : world.forest.WellFormed)
    (ranked : tables.Ranked world.forest rank)
    (stored : tables.StoresHostCalls world) (name : Reference) :
    world.Follows tables name := by
  induction ranks : rank name using WellFoundedLT.induction generalizing name with
  | _ bound ih =>
  subst ranks
  refine .of_resolve fun value resolved => ?_
  have found : tables.references.find? name = some value := by
    obtain ⟨held, isHeld, resolved⟩ := Attempt.of_bind resolved
    cases isHeld
    split at resolved
    next isFound => cases resolved; exact isFound
    next => cases resolved
  cases value with
  | reference other =>
      have lower := ranked.reference name other found
      exact .inl (ih _ lower other rfl).judges
  | expression placed =>
      refine .inr ⟨placed, rfl, settles_evaluate wellFormed ?_⟩
      refine ((ranked.formula name placed found).and
        (stored name placed found)).imp fun shape isStored => ?_
      exact ⟨fun other isReference => ih _ (isStored.1 other isReference) other rfl,
        isStored.2⟩
  | _ => exact .inl (.of_isPlain (by simp [Value.IsPlain, Value.type]))

/-- Over ranked tables every evaluation ends, and so does every question for the
truth of a value, provided that all functions that are called are host code that
ends at once and yields neither a formula nor a reference. -/
theorem evaluation_terminates {Rank : Type*} [LT Rank] [WellFoundedLT Rank]
    {rank : Reference → Rank} (wellFormed : world.forest.WellFormed)
    (ranked : tables.Ranked world.forest rank)
    (stored : tables.StoresHostCalls world) :
    (∀ expression,
      (world.forest.tree expression).All (Shape.CallsHost world tables) →
        Run.Settles Value.IsEvaluated fun steps =>
          world.evaluate steps (.basic tables) expression) ∧
      ∀ value : Value Label,
        (∀ placed, value = .expression placed →
          (world.forest.tree placed).All (Shape.CallsHost world tables)) →
          Run.Settles (fun _ => True) fun steps =>
            (world.machine steps (.basic tables)).judge value := by
  have follows := follows_of_ranked wellFormed ranked stored
  have evaluates (expression : Expression)
      (calls : (world.forest.tree expression).All
        (Shape.CallsHost world tables)) :
      Run.Settles (world.Judges tables) fun steps =>
        world.evaluate steps (.basic tables) expression :=
    settles_evaluate wellFormed (calls.imp fun shape call =>
      ⟨fun name _ => follows name, call⟩)
  constructor
  · exact fun expression calls =>
      (evaluates expression calls).imp fun _ judges => judges.isEvaluated
  · intro value calls
    cases value with
    | reference name => exact (follows name).truth
    | expression placed =>
        exact settles_judge_expression (evaluates placed (calls placed rfl))
    | _ => exact (Judges.of_isPlain (by simp [Value.IsPlain, Value.type])).truth

end World

/-! ### A chain of references -/

/-- A caller has built a formula that calls a function, and the negation of a
reference. -/
def Session.guardedCall : Session :=
  let flag := Expression.atRoot 0 ⟨0⟩
  start
    |>.operate (.build 0 (.reference ⟨"flag"⟩))
    |>.operate (.build 0 (.call ⟨"probe"⟩ [flag]))
    |>.operate (.build 0 (.binary .and flag (.atRoot 0 ⟨1⟩)))
    |>.operate (.build 0 (.reference ⟨"alias"⟩))
    |>.operate (.build 0 (.unary .not (.atRoot 0 ⟨3⟩)))

theorem Session.reachable_guardedCall : guardedCall.Reachable := by
  unfold guardedCall
  refine .move (.move (.move (.move (.move .start (.operate _ ?_))
    (.operate _ ?_)) (.operate _ ?_)) (.operate _ ?_)) (.operate _ ?_)
  all_goals decide +kernel

/-- Tables with a name for another name, under which a formula is stored that uses
a third one. -/
def chainTables : BasicContext Unit where
  functions := .ofList
    [(⟨"probe"⟩, .host
        { name := ⟨"probe"⟩
          parameters := [⟨⟨"item"⟩, .any, .required, {}⟩] } ())]
  references := .ofList
    [(⟨"alias"⟩, .reference ⟨"formula"⟩),
      (⟨"formula"⟩, .expression (.atRoot 0 ⟨2⟩)), (⟨"flag"⟩, .bool true)]

/-- The rank of the names in the chain. -/
def chainRank (name : Reference) : Nat :=
  if name = ⟨"alias"⟩ then 2 else if name = ⟨"formula"⟩ then 1 else 0

theorem evaluation_terminates_chain :
    let world : World Unit :=
      ⟨Session.guardedCall.forest, .answering fun _ => .ok (.bool true)⟩
    chainTables.Ranked world.forest chainRank ∧
      Run.Settles Value.IsEvaluated (fun steps =>
        world.evaluate steps (.basic chainTables) (.atRoot 0 ⟨4⟩)) ∧
      Run.Settles (fun _ => True) (fun steps =>
        (world.machine steps (.basic chainTables)).judge
          (.reference ⟨"alias"⟩)) := by
  intro world
  have wellFormed : world.forest.WellFormed :=
    Session.reachable_guardedCall.valid.wellFormed
  have stored : world.forest.tree (.atRoot 0 ⟨2⟩) =
      .node (.binary .and) [.node (.reference ⟨"flag"⟩) [],
        .node (.call ⟨"probe"⟩) [.node (.reference ⟨"flag"⟩) []]] := rfl
  have negation : world.forest.tree (.atRoot 0 ⟨4⟩) =
      .node (.unary .not) [.node (.reference ⟨"alias"⟩) []] := rfl
  have held {name : Reference} {value : Value Unit}
      (found : chainTables.references.find? name = some value) :
      (name = ⟨"alias"⟩ ∧ value = .reference ⟨"formula"⟩) ∨
        (name = ⟨"formula"⟩ ∧ value = .expression (.atRoot 0 ⟨2⟩)) ∨
          (name = ⟨"flag"⟩ ∧ value = .bool true) := by
    simpa using Table.mem_of_find?_ofList found
  have ranked : chainTables.Ranked world.forest chainRank := by
    constructor
    · intro name other found
      rcases held found with ⟨rfl, ⟨⟩⟩ | ⟨rfl, ⟨⟩⟩ | ⟨rfl, ⟨⟩⟩
      decide
    · intro name placed found
      rcases held found with ⟨rfl, ⟨⟩⟩ | ⟨rfl, ⟨⟩⟩ | ⟨rfl, ⟨⟩⟩
      rw [stored]
      simp [Tree.all_node, Shape.Names, chainRank]
  have calls (name : FunctionName) :
      (Shape.call name).CallsHost world chainTables := by
    intro callable found
    unfold BasicContext.function at found
    split at found
    next registered isRegistered =>
      cases found
      obtain ⟨-, rfl⟩ : name = ⟨"probe"⟩ ∧ _ := by
        simpa using Table.mem_of_find?_ofList isRegistered
      refine ⟨_, _, rfl, fun arguments => ⟨_, rfl, ?_⟩⟩
      rintro value ⟨rfl⟩
      simp [Value.IsPlain, Value.type]
    next =>
      split at found
      next tag callable isHeld =>
        rcases held isHeld with ⟨-, ⟨⟩⟩ | ⟨-, ⟨⟩⟩ | ⟨-, ⟨⟩⟩
      next => cases found
  have storesCalls : chainTables.StoresHostCalls world := by
    intro name placed found
    rcases held found with ⟨rfl, ⟨⟩⟩ | ⟨rfl, ⟨⟩⟩ | ⟨rfl, ⟨⟩⟩
    rw [stored]
    simpa [Tree.all_node, Shape.CallsHost] using calls ⟨"probe"⟩
  have callsHost : (world.forest.tree (.atRoot 0 ⟨4⟩)).All
      (Shape.CallsHost world chainTables) := by
    rw [negation]
    simp [Tree.all_node, Shape.CallsHost]
  obtain ⟨evaluates, judges⟩ :=
    World.evaluation_terminates wellFormed ranked storesCalls
  refine ⟨ranked, evaluates _ callsHost, judges _ ?_⟩
  intro placed isExpression
  cases isExpression

end FormulaEngine
