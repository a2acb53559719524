import FormulaEngine.Proofs.Expression.Navigation
import FormulaEngine.Proofs.Expression.Recording

/-!
# The order of a walk

The reactions at an expression and below it stand together in the record of a
walk, and siblings stand in their order.  So the record falls into pairs, each
expression shows all its events between its start and its finish, and the
expressions are started in the order of their index paths.
-/

namespace FormulaEngine

namespace Forest

variable {forest : Forest} {start expression : Expression}

theorem mem_following {opening occasion : Occasion} {answer : Visiting}
    (isNext : occasion ∈ forest.following opening answer) :
    answer = .continue ∧
      (opening.event = .start ∧
          occasion = ⟨(forest.shape opening.expression).event, opening.expression⟩ ∨
        opening.event ≠ .start ∧
          ∃ child ∈ forest.children opening.expression,
            occasion = ⟨.start, child⟩) := by
  cases answer with
  | skip => simp [following] at isNext
  | «continue» =>
      rw [following, inside] at isNext
      split at isNext
      next isStart =>
        exact ⟨rfl, .inl ⟨isStart, List.mem_singleton.mp isNext⟩⟩
      next notStart =>
        obtain ⟨child, isChild, rfl⟩ := List.mem_map.mp isNext
        exact ⟨rfl, .inr ⟨notStart, child, isChild, rfl⟩⟩

/-- The expressions of the occasions lie apart, from left to right. -/
def Separate (occasions : List Occasion) : Prop :=
  occasions.Pairwise fun left right => left.expression.Precedes right.expression

/-- What is reached from an occasion precedes what is reached from a later one. -/
theorem Separate.precedes {opening other : Occasion} {occasions : List Occasion}
    (separate : Separate (opening :: occasions)) (isOther : other ∈ occasions)
    {position otherPosition : List Nat}
    (found : forest.descend? opening.expression position = some start)
    (otherFound : forest.descend? other.expression otherPosition =
      some expression) : start.Precedes expression := by
  have precedes := (List.pairwise_cons.mp separate).1 other isOther
  exact precedes.below
    ⟨position, (indexPath_of_descend? found).symm⟩
    ⟨otherPosition, (indexPath_of_descend? otherFound).symm⟩

theorem separate_following (forest : Forest) (opening : Occasion)
    (answer : Visiting) : Separate (forest.following opening answer) := by
  cases answer with
  | skip => exact .nil
  | «continue» =>
      rw [following, inside]
      split
      · exact List.pairwise_singleton _ _
      · exact List.pairwise_map.mpr (forest.pairwise_precedes_children _)

/-- A reaction is at or below an occasion, and a start at the occasion is that
occasion. -/
def Covers (forest : Forest) (occasion : Occasion) (reaction : Reaction) :
    Prop :=
  ∃ position,
    forest.descend? occasion.expression position = some reaction.expression ∧
      (reaction.event = .start → occasion.event = .start ∨ position ≠ [])

theorem covers_inside {opening occasion : Occasion} {answer : Visiting}
    {reaction : Reaction} (isNext : occasion ∈ forest.following opening answer)
    (covers : forest.Covers occasion reaction) :
    ∃ position,
      forest.descend? opening.expression position = some reaction.expression ∧
        (position = [] → opening.event = .start ∧ reaction.event ≠ .start) := by
  obtain ⟨position, found, isStart⟩ := covers
  obtain ⟨-, ⟨opens, rfl⟩ | ⟨-, child, isChild, rfl⟩⟩ := mem_following isNext
  · refine ⟨position, found, fun here => ⟨opens, fun startsHere => ?_⟩⟩
    rcases isStart startsHere with ownStart | strict
    · exact Shape.event_ne_start _ ownStart
    · exact strict here
  · obtain ⟨index, isIndex⟩ := List.mem_iff_getElem?.mp isChild
    refine ⟨index :: position, ?_, fun impossible => nomatch impossible⟩
    rw [descend?_cons, isIndex]
    exact found

end Forest

namespace Forest.Walks

variable {forest : Forest} {occasions : List Occasion} {log : List Reaction}

theorem under (walks : forest.Walks occasions log) {reaction : Reaction}
    (member : reaction ∈ log) :
    ∃ occasion ∈ occasions, forest.Covers occasion reaction := by
  induction walks with
  | nil => cases member
  | single occasion answer leaf empty goesOn ih =>
      rcases List.mem_cons.mp member with rfl | isRest
      · exact ⟨occasion, List.mem_cons_self, [], rfl, .inl⟩
      · obtain ⟨other, isOther, covers⟩ := ih isRest
        exact ⟨other, List.mem_cons_of_mem _ isOther, covers⟩
  | paired opening closing answer lastAnswer closes within goesOn ihWithin ih =>
      rcases List.mem_cons.mp member with rfl | member
      · exact ⟨opening, List.mem_cons_self, [], rfl, .inl⟩
      rcases List.mem_append.mp member with isInner | member
      · obtain ⟨next, isNext, covers⟩ := ihWithin isInner
        obtain ⟨position, found, here⟩ := covers_inside isNext covers
        exact ⟨opening, List.mem_cons_self, position, found,
          fun starts => .inr fun isHere => (here isHere).2 starts⟩
      rcases List.mem_cons.mp member with rfl | isRest
      · exact ⟨opening, List.mem_cons_self, [], rfl,
          fun starts => absurd starts (VisitEvent.closing_ne_start closes)⟩
      · obtain ⟨other, isOther, covers⟩ := ih isRest
        exact ⟨other, List.mem_cons_of_mem _ isOther, covers⟩

/-- What happens inside a pair happens below its expression, or is not a
start. -/
theorem inside {opening : Occasion} {answer : Visiting} {inner : List Reaction}
    (within : forest.Walks (forest.following opening answer) inner)
    {reaction : Reaction} (member : reaction ∈ inner) :
    ∃ position,
      forest.descend? opening.expression position = some reaction.expression ∧
        (position = [] → opening.event = .start ∧ reaction.event ≠ .start) := by
  obtain ⟨next, isNext, covers⟩ := within.under member
  exact covers_inside isNext covers

/-- Inside the pair of its own shape nothing happens at the expression itself. -/
theorem inside_ne {opening : Occasion} {answer : Visiting}
    {inner : List Reaction}
    (within : forest.Walks (forest.following opening answer) inner)
    (notStart : opening.event ≠ .start) {reaction : Reaction}
    (member : reaction ∈ inner) :
    reaction.expression ≠ opening.expression := by
  obtain ⟨position, found, here⟩ := within.inside member
  have strict : position ≠ [] := fun isNil => notStart (here isNil).1
  exact (ne_of_descend? found strict).symm

/-- What happens at later occasions happens to the right. -/
theorem apart {opening : Occasion} (goesOn : forest.Walks occasions log)
    (separate : Separate (opening :: occasions)) {position : List Nat}
    {expression : Expression}
    (found : forest.descend? opening.expression position = some expression)
    {reaction : Reaction} (member : reaction ∈ log) :
    expression.Precedes reaction.expression := by
  obtain ⟨other, isOther, otherPosition, otherFound, -⟩ := goesOn.under member
  exact separate.precedes isOther found otherFound

end Forest.Walks

/-! ### Pairs -/

/-- Every start is closed by the finish that belongs to it, at the same
expression. -/
inductive Bracketed : List Reaction → Prop
  | nil : Bracketed []
  | single {reaction : Reaction} {rest : List Reaction}
      (leaf : reaction.event.isLeaf = true) (goesOn : Bracketed rest) :
      Bracketed (reaction :: rest)
  | paired {opening closing : Reaction} {inner rest : List Reaction}
      (closes : opening.event.closing? = some closing.event)
      (same : closing.expression = opening.expression)
      (within : Bracketed inner) (goesOn : Bracketed rest) :
      Bracketed (opening :: (inner ++ closing :: rest))

theorem Forest.Walks.bracketed {forest : Forest} {occasions : List Occasion}
    {log : List Reaction} (walks : forest.Walks occasions log) :
    Bracketed log := by
  induction walks with
  | nil => exact .nil
  | single _ _ leaf _ _ ih => exact .single leaf ih
  | paired _ _ _ _ closes _ _ ihWithin ih => exact .paired closes rfl ihWithin ih

/-! ### The order of visits -/

/-- The expressions that have been started, in turn. -/
def visited (log : List Reaction) : List Expression :=
  (log.filter (·.event = .start)).map (·.expression)

section Visited

variable {log inner rest : List Reaction} {reaction opening closing : Reaction}
  {expression : Expression}

theorem mem_visited : expression ∈ visited log ↔
    ∃ reaction ∈ log, reaction.event = .start ∧
      reaction.expression = expression := by
  simp [visited, and_assoc]

theorem visited_cons_of_ne (notStart : reaction.event ≠ .start) :
    visited (reaction :: rest) = visited rest := by
  simp [visited, notStart]

theorem visited_paired (notStart : closing.event ≠ .start) :
    visited (opening :: (inner ++ closing :: rest)) =
      visited [opening] ++ (visited inner ++ visited rest) := by
  simp only [visited, List.filter_cons, List.filter_append, notStart,
    List.filter_nil, decide_false]
  split <;> simp

theorem mem_visited_singleton : expression ∈ visited [reaction] ↔
    reaction.event = .start ∧ reaction.expression = expression := by
  simp [mem_visited]

end Visited

/-- Expressions are visited in the order of their index paths. -/
theorem Forest.Walks.pairwise_visited {forest : Forest}
    {occasions : List Occasion} {log : List Reaction}
    (walks : forest.Walks occasions log) (separate : Separate occasions) :
    (visited log).Pairwise fun left right => left.indexPath < right.indexPath := by
  induction walks with
  | nil => exact .nil
  | single occasion answer leaf empty goesOn ih =>
      rw [visited_cons_of_ne (VisitEvent.ne_start_of_isLeaf leaf)]
      exact ih separate.of_cons
  | @paired opening closing answer lastAnswer occasions inner rest closes within
      goesOn ihWithin ih =>
      rw [visited_paired (VisitEvent.closing_ne_start closes),
        List.pairwise_append, List.pairwise_append]
      refine ⟨?_, ⟨ihWithin (separate_following ..), ih separate.of_cons, ?_⟩, ?_⟩
      · exact ((List.pairwise_singleton _ _).filter _).map _ fun _ _ less => less
      · intro left isLeft right isRight
        obtain ⟨leftStart, isInner, -, rfl⟩ := mem_visited.mp isLeft
        obtain ⟨rightStart, isRest, -, rfl⟩ := mem_visited.mp isRight
        obtain ⟨position, found, -⟩ := within.inside isInner
        exact (goesOn.apart separate found isRest).indexPath_lt
      · intro left isLeft right isRight
        obtain ⟨-, rfl⟩ := mem_visited_singleton.mp isLeft
        rcases List.mem_append.mp isRight with innerVisit | restVisit
        · obtain ⟨starts, isInner, isStart, rfl⟩ := mem_visited.mp innerVisit
          obtain ⟨position, found, here⟩ := within.inside isInner
          exact indexPath_lt_of_descend? found
            fun isHere => (here isHere).2 isStart
        · obtain ⟨starts, isRest, -, rfl⟩ := mem_visited.mp restVisit
          exact (goesOn.apart separate (forest.descend?_nil _)
            isRest).indexPath_lt

/-! ### The events at an expression -/

/-- The events at an expression, in turn. -/
def eventsAt (log : List Reaction) (expression : Expression) :
    List VisitEvent :=
  (log.filter (·.expression = expression)).map (·.event)

/-- The events of a node of some shape, by the answer to its start. -/
def Shape.events (shape : Shape) : Visiting → List VisitEvent
  | .continue => .start :: shape.event :: (shape.event.closing?.toList ++ [.finish])
  | .skip => [.start, .finish]

/-- An expression has been started and shows all its events. -/
def Forest.Completes (forest : Forest) (log : List Reaction)
    (expression : Expression) : Prop :=
  ∃ answer, ⟨⟨.start, expression⟩, answer⟩ ∈ log ∧
    eventsAt log expression = (forest.shape expression).events answer

section EventsAt

variable {log inner rest : List Reaction} {reaction : Reaction}
  {opening : Occasion} {closing : VisitEvent} {answer lastAnswer : Visiting}
  {expression : Expression}

theorem eventsAt_eq_nil
    (elsewhere : ∀ reaction ∈ log, reaction.expression ≠ expression) :
    eventsAt log expression = [] := by
  rw [eventsAt, List.map_eq_nil_iff, List.filter_eq_nil_iff]
  intro reaction member
  simp [elsewhere reaction member]

theorem eventsAt_cons_of_ne (elsewhere : reaction.expression ≠ expression) :
    eventsAt (reaction :: rest) expression = eventsAt rest expression := by
  simp [eventsAt, elsewhere]

theorem eventsAt_paired_of_ne (elsewhere : opening.expression ≠ expression) :
    eventsAt (⟨opening, answer⟩ ::
        (inner ++ ⟨⟨closing, opening.expression⟩, lastAnswer⟩ :: rest))
        expression =
      eventsAt inner expression ++ eventsAt rest expression := by
  simp [eventsAt, elsewhere]

theorem eventsAt_paired_self :
    eventsAt (⟨opening, answer⟩ ::
        (inner ++ ⟨⟨closing, opening.expression⟩, lastAnswer⟩ :: rest))
        opening.expression =
      opening.event :: (eventsAt inner opening.expression ++
        closing :: eventsAt rest opening.expression) := by
  simp [eventsAt]

end EventsAt

namespace Forest.Walks

variable {forest : Forest} {occasions : List Occasion}
  {log inner rest : List Reaction} {opening : Occasion} {answer : Visiting}
  {expression : Expression}

theorem eventsAt_apart (goesOn : forest.Walks occasions rest)
    (separate : Separate (opening :: occasions)) {position : List Nat}
    (found : forest.descend? opening.expression position = some expression) :
    eventsAt rest expression = [] :=
  eventsAt_eq_nil fun _ member =>
    (goesOn.apart separate found member).ne.symm

/-- A node that is not skipped at its start shows the events of its shape. -/
theorem eventsAt_own
    (walks : forest.Walks
      [⟨(forest.shape expression).event, expression⟩] log) :
    eventsAt log expression = (forest.shape expression).event ::
      (forest.shape expression).event.closing?.toList := by
  cases walks with
  | single _ answer leaf empty goesOn =>
      cases goesOn
      rw [VisitEvent.closing?_of_isLeaf leaf]
      simp [eventsAt]
  | paired _ closing answer lastAnswer closes within goesOn =>
      cases goesOn
      have quiet : eventsAt _ expression = [] := eventsAt_eq_nil fun _ member =>
        within.inside_ne (Shape.event_ne_start _) member
      rw [closes]
      refine eventsAt_paired_self.trans ?_
      rw [quiet]
      rfl

/-- Where a walk starts a node, the node shows all its events. -/
theorem completes_start {closing : VisitEvent} {lastAnswer : Visiting}
    (starts : opening.event = .start)
    (closes : opening.event.closing? = some closing)
    (within : forest.Walks (forest.following opening answer) inner)
    (goesOn : forest.Walks occasions rest)
    (separate : Separate (opening :: occasions)) :
    forest.Completes (⟨opening, answer⟩ ::
      (inner ++ ⟨⟨closing, opening.expression⟩, lastAnswer⟩ :: rest))
      opening.expression := by
  obtain ⟨event, expression⟩ := opening
  obtain rfl : event = .start := starts
  obtain rfl : VisitEvent.finish = closing := Option.some.inj closes
  have quiet := goesOn.eventsAt_apart separate (forest.descend?_nil expression)
  refine ⟨answer, List.mem_cons_self, eventsAt_paired_self.trans ?_⟩
  rw [quiet]
  cases answer with
  | skip =>
      cases within
      rfl
  | «continue» =>
      rw [following, Forest.inside, if_pos rfl] at within
      rw [within.eventsAt_own]
      rfl

theorem completes_inside {closing : VisitEvent} {lastAnswer : Visiting}
    (within : forest.Walks (forest.following opening answer) inner)
    (goesOn : forest.Walks occasions rest)
    (separate : Separate (opening :: occasions))
    (completes : forest.Completes inner expression) :
    forest.Completes (⟨opening, answer⟩ ::
      (inner ++ ⟨⟨closing, opening.expression⟩, lastAnswer⟩ :: rest))
      expression := by
  obtain ⟨startAnswer, starts, events⟩ := completes
  obtain ⟨position, found, here⟩ := within.inside starts
  have strict : position ≠ [] := fun isNil => (here isNil).2 rfl
  have elsewhere := ne_of_descend? found strict
  have quiet := goesOn.eventsAt_apart separate found
  refine ⟨startAnswer, by simp [starts], ?_⟩
  rw [eventsAt_paired_of_ne elsewhere, quiet, List.append_nil, events]

theorem completes_apart {closing : VisitEvent} {lastAnswer : Visiting}
    (within : forest.Walks (forest.following opening answer) inner)
    (goesOn : forest.Walks occasions rest)
    (separate : Separate (opening :: occasions))
    (completes : forest.Completes rest expression) :
    forest.Completes (⟨opening, answer⟩ ::
      (inner ++ ⟨⟨closing, opening.expression⟩, lastAnswer⟩ :: rest))
      expression := by
  obtain ⟨startAnswer, starts, events⟩ := completes
  have elsewhere : opening.expression ≠ expression :=
    (goesOn.apart separate (forest.descend?_nil _) starts).ne
  have quiet : eventsAt inner expression = [] := by
    apply eventsAt_eq_nil
    intro reaction isInner
    obtain ⟨position, found, -⟩ := within.inside isInner
    exact (goesOn.apart separate found starts).ne
  refine ⟨startAnswer, by simp [starts], ?_⟩
  rw [eventsAt_paired_of_ne elsewhere, quiet, List.nil_append, events]

/-- Whatever happens, happens at an expression that shows all its events, unless
the walk has begun inside its pair. -/
theorem completes (walks : forest.Walks occasions log)
    (separate : Separate occasions) {reaction : Reaction}
    (member : reaction ∈ log) :
    (∃ occasion ∈ occasions, occasion.event ≠ .start ∧
      occasion.expression = reaction.expression) ∨
      forest.Completes log reaction.expression := by
  induction walks with
  | nil => cases member
  | @single occasion answer occasions rest leaf empty goesOn ih =>
      rcases List.mem_cons.mp member with rfl | isRest
      · exact .inl ⟨occasion, List.mem_cons_self,
          VisitEvent.ne_start_of_isLeaf leaf, rfl⟩
      rcases ih separate.of_cons isRest with ⟨other, isOther, found⟩ | completes
      · exact .inl ⟨other, List.mem_cons_of_mem _ isOther, found⟩
      · obtain ⟨answer, starts, events⟩ := completes
        have elsewhere :=
          (goesOn.apart separate (forest.descend?_nil _) isRest).ne
        exact .inr ⟨answer, List.mem_cons_of_mem _ starts,
          (eventsAt_cons_of_ne elsewhere).trans events⟩
  | @paired opening closing answer lastAnswer occasions inner rest closes within
      goesOn ihWithin ih =>
      have own : (∃ occasion ∈ opening :: occasions, occasion.event ≠ .start ∧
          occasion.expression = opening.expression) ∨
          forest.Completes (⟨opening, answer⟩ ::
            (inner ++ ⟨⟨closing, opening.expression⟩, lastAnswer⟩ :: rest))
            opening.expression := by
        by_cases starts : opening.event = .start
        · exact .inr (completes_start starts closes within goesOn separate)
        · exact .inl ⟨opening, List.mem_cons_self, starts, rfl⟩
      rcases List.mem_cons.mp member with rfl | member
      · exact own
      rcases List.mem_append.mp member with isInner | member
      · rcases ihWithin (separate_following ..) isInner with
          ⟨next, isNext, notStart, same⟩ | completes
        · obtain ⟨-, ⟨-, rfl⟩ | ⟨-, child, -, rfl⟩⟩ := mem_following isNext
          · exact same ▸ own
          · exact absurd rfl notStart
        · exact .inr (completes_inside within goesOn separate completes)
      rcases List.mem_cons.mp member with rfl | isRest
      · exact own
      rcases ih separate.of_cons isRest with ⟨other, isOther, found⟩ | completes
      · exact .inl ⟨other, List.mem_cons_of_mem _ isOther, found⟩
      · exact .inr (completes_apart within goesOn separate completes)

end Forest.Walks

end FormulaEngine
