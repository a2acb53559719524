import FormulaEngine.Expression.Visitor
import FormulaEngine.Proofs.Expression.Correspondence
import FormulaEngine.Proofs.Expression.Recursion

/-!
# Recorded walks

A visitor can be made to keep a record of its reactions beside its state.  The
recorded walk does what the walk does, and its record is one that the visitor
plays through again, reaction by reaction.  Both levels of a node come to one
rule: an event that starts a pair is followed by what lies inside, unless the
visitor skips it, and then by the event that finishes the pair.
-/

namespace FormulaEngine

namespace VisitEvent

/-- The event that finishes what an event starts. -/
def closing? : VisitEvent → Option VisitEvent
  | start => some finish
  | startUnary op => some (finishUnary op)
  | startBinary op => some (finishBinary op)
  | startCall function => some (finishCall function)
  | startLambda parameters => some (finishLambda parameters)
  | _ => none

/-- Test whether an event stands by itself. -/
def isLeaf : VisitEvent → Bool
  | value _ | reference _ => true
  | _ => false

theorem closing?_eq_none {opening closing : VisitEvent}
    (closes : opening.closing? = some closing) : closing.closing? = none := by
  cases opening <;> simp [closing?] at closes <;> subst closes <;> rfl

theorem closing_ne_start {opening closing : VisitEvent}
    (closes : opening.closing? = some closing) : closing ≠ .start := by
  rintro rfl
  exact nomatch closing?_eq_none closes

theorem closing?_of_isLeaf {event : VisitEvent}
    (leaf : event.isLeaf = true) : event.closing? = none := by
  cases event with
  | value | reference => rfl
  | _ => exact nomatch leaf

theorem ne_start_of_isLeaf {event : VisitEvent}
    (leaf : event.isLeaf = true) : event ≠ .start := by
  rintro rfl
  exact nomatch leaf

end VisitEvent

/-- The event of a shape within the pair that every node has. -/
def Shape.event : Shape → VisitEvent
  | value literal => .value literal
  | reference name => .reference name
  | unary op => .startUnary op
  | binary op => .startBinary op
  | call function => .startCall function
  | lambda parameters => .startLambda parameters

/-- An event at an expression. -/
structure Occasion where
  event : VisitEvent
  expression : Expression
  deriving DecidableEq

/-- An occasion and what the visitor has answered. -/
structure Reaction extends Occasion where
  answer : Visiting
  deriving DecidableEq

namespace Shape

theorem event_ne_start (shape : Shape) : shape.event ≠ .start := by
  cases shape <;> simp [event]

theorem isLeaf_event {shape : Shape} (single : shape.event.closing? = none) :
    shape.event.isLeaf = true := by
  cases shape <;> simp_all [event, VisitEvent.closing?, VisitEvent.isLeaf]

end Shape

namespace Forest

/-- The occasions inside a pair of events: the node itself, or its children. -/
def inside (forest : Forest) (opening : Occasion) : List Occasion :=
  if opening.event = .start then
    [⟨(forest.shape opening.expression).event, opening.expression⟩]
  else (forest.children opening.expression).map (⟨.start, ·⟩)

/-- The occasions that a visitor comes to after its answer to a start. -/
def following (forest : Forest) (opening : Occasion) : Visiting → List Occasion
  | .continue => forest.inside opening
  | .skip => []

/-- The records of walks through some occasions, one after the other. -/
inductive Walks (forest : Forest) : List Occasion → List Reaction → Prop
  | nil : Walks forest [] []
  | single (occasion : Occasion) (answer : Visiting)
      {occasions : List Occasion} {rest : List Reaction}
      (leaf : occasion.event.isLeaf = true)
      (empty : forest.inside occasion = [])
      (goesOn : Walks forest occasions rest) :
      Walks forest (occasion :: occasions) (⟨occasion, answer⟩ :: rest)
  | paired (opening : Occasion) (closing : VisitEvent)
      (answer lastAnswer : Visiting)
      {occasions : List Occasion} {inner rest : List Reaction}
      (closes : opening.event.closing? = some closing)
      (within : Walks forest (forest.following opening answer) inner)
      (goesOn : Walks forest occasions rest) :
      Walks forest (opening :: occasions)
        (⟨opening, answer⟩ ::
          (inner ++ ⟨⟨closing, opening.expression⟩, lastAnswer⟩ :: rest))

theorem inside_event_of_leaf (forest : Forest) {expression : Expression}
    (leaf : (forest.shape expression).event.isLeaf = true) :
    forest.inside ⟨(forest.shape expression).event, expression⟩ = [] := by
  rw [inside, if_neg (Shape.event_ne_start _), List.map_eq_nil_iff,
    ← forest.children_node]
  rw [← forest.shape_node] at leaf
  cases node : forest.node expression with
  | value | reference => rfl
  | _ => simp [node, Node.shape, Shape.event, VisitEvent.isLeaf] at leaf

theorem Walks.append {forest : Forest} {first second : List Occasion}
    {firstLog secondLog : List Reaction} (walks : forest.Walks first firstLog)
    (goesOn : forest.Walks second secondLog) :
    forest.Walks (first ++ second) (firstLog ++ secondLog) := by
  induction walks with
  | nil => exact goesOn
  | single occasion answer leaf empty _ ih =>
      exact .single occasion answer leaf empty ih
  | paired opening closing answer lastAnswer closes within _ _ ih =>
      rw [List.cons_append, List.cons_append, List.append_assoc,
        List.cons_append]
      exact .paired opening closing answer lastAnswer closes within ih

end Forest

namespace Visitor

variable {State : Type} {forest : Forest}

/-- The visitor has every expression walked. -/
def KeepsWalking (visitor : Visitor State) : Prop :=
  ∀ expression state, visitor.intercept expression state = none

/-- The visitor reacts in this way, one event after the other, and comes to the
final state. -/
def Replays (visitor : Visitor State) :
    State → (log : List Reaction) → (final : State) → Prop
  | state, [], final => state = final
  | state, reaction :: log, final =>
      ∃ next, visitor.react reaction.event reaction.expression state =
          (reaction.answer, next) ∧
        visitor.Replays next log final

/-- The visitor that adds each reaction to a record. -/
def recording (visitor : Visitor State) : Visitor (State × List Reaction) where
  react event expression state :=
    let reacted := visitor.react event expression state.1
    (reacted.1,
      (reacted.2, state.2 ++ [⟨⟨event, expression⟩, reacted.1⟩]))
  intercept expression state :=
    (visitor.intercept expression state.1).map (·, state.2)

/-- The reactions of a visitor while it walks an expression. -/
def trace (visitor : Visitor State) (forest : Forest) (expression : Expression)
    (state : State) : List Reaction :=
  (visitor.recording.walk forest expression (state, [])).2

theorem Replays.append {visitor : Visitor State} {state middle final : State}
    {first second : List Reaction} (replays : visitor.Replays state first middle)
    (goesOn : visitor.Replays middle second final) :
    visitor.Replays state (first ++ second) final := by
  induction first generalizing state with
  | nil =>
      have here : state = middle := replays
      rwa [here]
  | cons reaction first ih =>
      obtain ⟨next, react, rest⟩ := replays
      exact ⟨next, react, ih rest⟩

theorem KeepsWalking.recording {visitor : Visitor State}
    (keeps : visitor.KeepsWalking) : visitor.recording.KeepsWalking := by
  intro expression state
  simp only [Visitor.recording, keeps expression state.1, Option.map_none]

/-- React to an occasion, with what lies inside the pair that it may start. -/
def turn (visitor : Visitor State) (occasion : Occasion)
    (inside : State → State) : State → State :=
  match occasion.event.closing? with
  | none => visitor.notice occasion.event occasion.expression
  | some closing =>
      visitor.around occasion.event closing occasion.expression inside

/-- A node is two turns, one inside the other, around the walks of its
children. -/
theorem walkNode_eq_turn {visitor : Visitor State} (keeps : visitor.KeepsWalking)
    (walkChild : Expression → State → State) (expression : Expression) :
    visitor.walkNode forest walkChild expression =
      visitor.turn ⟨.start, expression⟩
        (visitor.turn ⟨(forest.shape expression).event, expression⟩
          fun state => (forest.children expression).foldl
            (fun state child => walkChild child state) state) := by
  funext state
  rw [← forest.children_node, ← forest.shape_node, walkNode, keeps]
  cases forest.node expression <;> rfl

/-- A recorded run does what the run does, and adds to the record one of a walk
through the occasions. -/
def Records (visitor : Visitor State) (forest : Forest)
    (occasions : List Occasion) (run : State → State)
    (recorded : State × List Reaction → State × List Reaction) : Prop :=
  ∀ state before, ∃ log,
    recorded (state, before) = (run state, before ++ log) ∧
      forest.Walks occasions log ∧ visitor.Replays state log (run state)

namespace Records

variable {visitor : Visitor State}

theorem nil : visitor.Records forest [] id id :=
  fun state before => ⟨[], by simp, .nil, rfl⟩

theorem append {first second : List Occasion} {run next : State → State}
    {recorded nextRecorded : State × List Reaction → State × List Reaction}
    (records : visitor.Records forest first run recorded)
    (goesOn : visitor.Records forest second next nextRecorded) :
    visitor.Records forest (first ++ second) (next ∘ run)
      (nextRecorded ∘ recorded) := by
  intro state before
  obtain ⟨firstLog, isFirst, walks, replays⟩ := records state before
  obtain ⟨secondLog, isSecond, walksOn, replaysOn⟩ :=
    goesOn (run state) (before ++ firstLog)
  refine ⟨firstLog ++ secondLog, ?_, walks.append walksOn,
    replays.append replaysOn⟩
  rw [Function.comp_apply, isFirst, isSecond, List.append_assoc]
  rfl

/-- What is recorded inside a pair is recorded if the visitor goes inside. -/
theorem unlessSkipped {opening : Occasion} {run : State → State}
    {recorded : State × List Reaction → State × List Reaction}
    (records : visitor.Records forest (forest.inside opening) run recorded)
    (answer : Visiting) :
    visitor.Records forest (forest.following opening answer)
      (match answer with | .continue => run | .skip => id)
      (match answer with | .continue => recorded | .skip => id) := by
  cases answer with
  | «continue» => exact records
  | skip => exact nil

theorem leaf {event : VisitEvent} {expression : Expression}
    (leaf : event.isLeaf = true) (empty : forest.inside ⟨event, expression⟩ = []) :
    visitor.Records forest [⟨event, expression⟩]
      (visitor.notice event expression)
      (visitor.recording.notice event expression) := by
  intro state before
  rcases react : visitor.react event expression state with ⟨answer, next⟩
  refine ⟨[⟨⟨event, expression⟩, answer⟩], ?_, .single _ _ leaf empty .nil,
    next, react, ?_⟩
  · simp [notice, recording, react]
  · simp [notice, react, Replays]

theorem pair {event closing : VisitEvent} {expression : Expression}
    {run : State → State}
    {recorded : State × List Reaction → State × List Reaction}
    (closes : event.closing? = some closing)
    (records : visitor.Records forest (forest.inside ⟨event, expression⟩) run
      recorded) :
    visitor.Records forest [⟨event, expression⟩]
      (visitor.around event closing expression run)
      (visitor.recording.around event closing expression recorded) := by
  intro state before
  rcases react : visitor.react event expression state with ⟨answer, next⟩
  let reaction : Reaction := ⟨⟨event, expression⟩, answer⟩
  obtain ⟨log, isLog, walks, replays⟩ :=
    records.unlessSkipped answer next (before ++ [reaction])
  rcases last : visitor.react closing expression
    ((match answer with | .continue => run | .skip => id) next) with
    ⟨lastAnswer, final⟩
  let lastReaction : Reaction := ⟨⟨closing, expression⟩, lastAnswer⟩
  have isFinal : visitor.around event closing expression run state = final := by
    simp only [around, react, notice]
    cases answer <;> exact congrArg Prod.snd last
  have isRecorded : visitor.recording.around event closing expression recorded
      (state, before) = visitor.recording.notice closing expression
        ((match answer with | .continue => recorded | .skip => id)
          (next, before ++ [reaction])) := by
    simp only [around, recording, react]
    cases answer <;> rfl
  refine ⟨reaction :: (log ++ [lastReaction]), ?_,
    .paired _ _ _ _ closes walks .nil,
    next, react, replays.append ⟨final, last, isFinal.symm⟩⟩
  rw [isFinal, isRecorded, isLog, notice, recording]
  simp only [last]
  simp [lastReaction]

theorem turn {occasion : Occasion} {run : State → State}
    {recorded : State × List Reaction → State × List Reaction}
    (single : occasion.event.closing? = none →
      occasion.event.isLeaf = true ∧ forest.inside occasion = [])
    (records : visitor.Records forest (forest.inside occasion) run recorded) :
    visitor.Records forest [occasion] (visitor.turn occasion run)
      (visitor.recording.turn occasion recorded) := by
  unfold Visitor.turn
  split
  next noPair =>
    obtain ⟨isLeaf, empty⟩ := single noPair
    exact .leaf isLeaf empty
  next closing closes => exact .pair closes records

end Records

/-- The recorded walks of siblings make one record. -/
theorem records_siblings {visitor : Visitor State} {siblings : List Expression}
    {walkChild : Expression → State → State}
    {recordedChild : Expression → State × List Reaction → State × List Reaction}
    (records : ∀ child ∈ siblings, visitor.Records forest [⟨.start, child⟩]
      (walkChild child) (recordedChild child)) :
    visitor.Records forest (siblings.map (⟨.start, ·⟩))
      (fun state => siblings.foldl
        (fun state child => walkChild child state) state)
      (fun state => siblings.foldl
        (fun state child => recordedChild child state) state) := by
  induction siblings with
  | nil => exact .nil
  | cons child siblings ih =>
      obtain ⟨first, others⟩ := List.forall_mem_cons.mp records
      exact first.append (ih others)

/-- Walking an expression is recorded. -/
theorem records_walk {visitor : Visitor State} (keeps : visitor.KeepsWalking)
    (wellFormed : forest.WellFormed) (expression : Expression) :
    visitor.Records forest [⟨.start, expression⟩]
      (visitor.walk forest expression)
      (visitor.recording.walk forest expression) := by
  -- Children are older, so the induction is on the index of the node.
  induction index : expression.node.index using Nat.strong_induction_on
    generalizing expression with
  | _ index ih =>
      subst index
      have children : visitor.Records forest
          ((forest.children expression).map (⟨.start, ·⟩)) _ _ :=
        records_siblings fun child isChild =>
          ih _ (wellFormed.older_child isChild) child rfl
      have isTurn : visitor.walk forest expression = _ :=
        (funext (visitor.walk_eq wellFormed expression)).trans
          (walkNode_eq_turn keeps _ expression)
      have isRecordedTurn : visitor.recording.walk forest expression = _ :=
        (funext (visitor.recording.walk_eq wellFormed expression)).trans
          (walkNode_eq_turn keeps.recording _ expression)
      rw [isTurn, isRecordedTurn]
      refine .turn (fun single => nomatch single) ?_
      rw [Forest.inside, if_pos rfl]
      refine .turn (fun single => ?_) ?_
      · have leaf := Shape.isLeaf_event single
        exact ⟨leaf, forest.inside_event_of_leaf leaf⟩
      · rwa [Forest.inside, if_neg (Shape.event_ne_start _)]

section Trace

variable {visitor : Visitor State} (keeps : visitor.KeepsWalking)
  (wellFormed : forest.WellFormed) (expression : Expression) (state : State)

include keeps wellFormed

theorem walks_trace :
    forest.Walks [⟨.start, expression⟩] (visitor.trace forest expression state) := by
  obtain ⟨log, isLog, walks, -⟩ :=
    records_walk keeps wellFormed expression state []
  rw [trace, isLog]
  exact walks

/-- The trace is what the visitor does on its walk. -/
theorem replays_trace :
    visitor.Replays state (visitor.trace forest expression state)
      (visitor.walk forest expression state) := by
  obtain ⟨log, isLog, -, replays⟩ :=
    records_walk keeps wellFormed expression state []
  rw [trace, isLog]
  exact replays

end Trace

end Visitor

end FormulaEngine
