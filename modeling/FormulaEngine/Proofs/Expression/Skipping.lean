import FormulaEngine.Proofs.Expression.Walk

/-!
# What a walk visits

An expression is started just when nothing above it, from the start of the walk
on, has been skipped.  Together with the pairs, the order and the events of a
walk this says all about the walk of a held expression, whatever the visitor
answers.
-/

namespace FormulaEngine

/-- The visitor has skipped what lies inside a pair at an expression. -/
def Skips (log : List Reaction) (expression : Expression) : Prop :=
  ∃ reaction ∈ log, reaction.expression = expression ∧
    reaction.answer = .skip ∧ reaction.event.closing? ≠ none

namespace Forest

/-- Nothing is skipped above a position. -/
def Open (forest : Forest) (skips : Expression → Prop) (start : Expression)
    (position : List Nat) : Prop :=
  ∀ above ancestor, above <+: position → above ≠ position →
    forest.descend? start above = some ancestor → ¬ skips ancestor

/-- An expression is reached from an occasion, and nothing above it is
skipped. -/
def Reaches (forest : Forest) (skips : Expression → Prop) (occasion : Occasion)
    (expression : Expression) : Prop :=
  ∃ position,
    forest.descend? occasion.expression position = some expression ∧
      (occasion.event = .start ∨ position ≠ []) ∧
      forest.Open skips occasion.expression position

section Reaches

variable {forest : Forest} {skips others : Expression → Prop}
  {start child expression : Expression} {occasion opening : Occasion}
  {index : Nat} {position : List Nat}

theorem open_nil : forest.Open skips start [] :=
  fun _ _ isPrefix strict => absurd (List.prefix_nil.mp isPrefix) strict

theorem open_cons (isChild : (forest.children start)[index]? = some child) :
    forest.Open skips start (index :: position) ↔
      ¬ skips start ∧ forest.Open skips child position := by
  constructor
  · intro isOpen
    refine ⟨isOpen [] start (List.nil_prefix) (List.cons_ne_nil _ _).symm rfl,
      fun above ancestor isPrefix strict found => ?_⟩
    refine isOpen (index :: above) ancestor
      (List.cons_prefix_cons.mpr ⟨rfl, isPrefix⟩) (by simpa using strict) ?_
    rw [descend?_cons, isChild]
    exact found
  · rintro ⟨goesOn, isOpen⟩ above ancestor isPrefix strict found
    cases above with
    | nil => exact Option.some.inj found ▸ goesOn
    | cons first above =>
        obtain ⟨rfl, restPrefix⟩ := List.cons_prefix_cons.mp isPrefix
        rw [descend?_cons, isChild] at found
        exact isOpen above ancestor restPrefix (by simpa using strict) found

theorem reaches_congr (same : ∀ position ancestor,
      forest.descend? occasion.expression position = some ancestor →
        (skips ancestor ↔ others ancestor)) :
    forest.Reaches skips occasion expression ↔
      forest.Reaches others occasion expression := by
  have opens (position : List Nat) :
      forest.Open skips occasion.expression position ↔
        forest.Open others occasion.expression position :=
    forall₄_congr fun above ancestor _ _ => forall_congr' fun found =>
      not_congr (same above ancestor found)
  simp only [Reaches, opens]

/-- From what is skipped itself, nothing below is reached. -/
theorem reaches_of_skips (skipped : skips opening.expression) :
    forest.Reaches skips opening expression ↔
      opening.event = .start ∧ opening.expression = expression := by
  constructor
  · rintro ⟨position, found, isStart, isOpen⟩
    cases position with
    | nil => exact ⟨isStart.resolve_right (not_not_intro rfl), Option.some.inj found⟩
    | cons index position =>
        exact absurd skipped (isOpen [] _ List.nil_prefix
          (List.cons_ne_nil _ _).symm rfl)
  · rintro ⟨starts, rfl⟩
    exact ⟨[], rfl, .inl starts, open_nil⟩

/-- From what is not skipped, all is reached that is reached from inside. -/
theorem reaches_inside
    (goesOn : opening.event ≠ .start → ¬ skips opening.expression) :
    forest.Reaches skips opening expression ↔
      opening.event = .start ∧ opening.expression = expression ∨
        ∃ next ∈ forest.inside opening, forest.Reaches skips next expression := by
  rw [inside]
  split
  next starts =>
    simp only [List.mem_singleton, exists_eq_left]
    constructor
    · rintro ⟨position, found, -, isOpen⟩
      by_cases here : position = []
      · subst here
        exact .inl ⟨starts, Option.some.inj found⟩
      · exact .inr ⟨position, found, .inr here, isOpen⟩
    · rintro (⟨-, rfl⟩ | ⟨position, found, -, isOpen⟩)
      · exact ⟨[], rfl, .inl starts, open_nil⟩
      · exact ⟨position, found, .inl starts, isOpen⟩
  next notStart =>
    constructor
    · rintro ⟨position, found, isStart, isOpen⟩
      obtain ⟨index, rest, rfl⟩ :=
        List.exists_cons_of_ne_nil (isStart.resolve_left notStart)
      rw [descend?_cons] at found
      obtain ⟨child, isChild, below⟩ := Option.bind_eq_some_iff.mp found
      exact .inr ⟨⟨.start, child⟩,
        List.mem_map_of_mem (List.mem_of_getElem? isChild),
        rest, below, .inl rfl, ((open_cons isChild).mp isOpen).2⟩
    · rintro (⟨starts, -⟩ | ⟨next, isNext, position, found, -, isOpen⟩)
      · exact absurd starts notStart
      obtain ⟨child, member, rfl⟩ := List.mem_map.mp isNext
      obtain ⟨index, isChild⟩ := List.mem_iff_getElem?.mp member
      refine ⟨index :: position, ?_, .inr (List.cons_ne_nil _ _),
        (open_cons isChild).mpr ⟨goesOn notStart, isOpen⟩⟩
      rw [descend?_cons, isChild]
      exact found

end Reaches

end Forest

section Skips

variable {log inner rest : List Reaction} {reaction : Reaction}
  {opening : Occasion} {closing : VisitEvent} {answer lastAnswer : Visiting}
  {expression : Expression}

theorem not_skips
    (elsewhere : ∀ reaction ∈ log, reaction.expression ≠ expression) :
    ¬ Skips log expression := by
  rintro ⟨reaction, member, same, -⟩
  exact elsewhere reaction member same

theorem skips_cons_of_leaf (leaf : reaction.event.isLeaf = true) :
    Skips (reaction :: rest) expression ↔ Skips rest expression := by
  simp [Skips, VisitEvent.closing?_of_isLeaf leaf]

theorem skips_paired (closes : opening.event.closing? = some closing) :
    Skips (⟨opening, answer⟩ ::
        (inner ++ ⟨⟨closing, opening.expression⟩, lastAnswer⟩ :: rest))
        expression ↔
      (opening.expression = expression ∧ answer = .skip) ∨
        Skips inner expression ∨ Skips rest expression := by
  simp [Skips, closes, VisitEvent.closing?_eq_none closes, or_and_right,
    exists_or]

end Skips

namespace Forest.Walks

variable {forest : Forest} {occasions : List Occasion}
  {log inner rest : List Reaction} {opening : Occasion} {answer : Visiting}
  {expression : Expression}

theorem not_skips_apart (goesOn : forest.Walks occasions rest)
    (separate : Separate (opening :: occasions)) {position : List Nat}
    (found : forest.descend? opening.expression position = some expression) :
    ¬ Skips rest expression :=
  not_skips fun _ member => (goesOn.apart separate found member).ne.symm

/-- What is reached by a pair: its own expression, and what is reached inside if
the visitor goes there. -/
theorem reaches_paired {closing : VisitEvent} {lastAnswer : Visiting}
    (closes : opening.event.closing? = some closing)
    (within : forest.Walks (forest.following opening answer) inner)
    (goesOn : forest.Walks occasions rest)
    (separate : Separate (opening :: occasions)) :
    forest.Reaches (Skips (⟨opening, answer⟩ ::
        (inner ++ ⟨⟨closing, opening.expression⟩, lastAnswer⟩ :: rest)))
        opening expression ↔
      opening.event = .start ∧ opening.expression = expression ∨
        ∃ next ∈ forest.following opening answer,
          forest.Reaches (Skips inner) next expression := by
  cases answer with
  | skip =>
      rw [reaches_of_skips ((skips_paired closes).mpr (.inl ⟨rfl, rfl⟩))]
      simp [following]
  | «continue» =>
      have same : ∀ position ancestor,
          forest.descend? opening.expression position = some ancestor →
            (Skips (⟨opening, .continue⟩ ::
              (inner ++ ⟨⟨closing, opening.expression⟩, lastAnswer⟩ :: rest))
              ancestor ↔ Skips inner ancestor) := by
        intro position ancestor found
        have noSkip := goesOn.not_skips_apart separate found
        simp [skips_paired closes, noSkip]
      have noSkip (notStart : opening.event ≠ .start) :
          ¬ Skips inner opening.expression :=
        not_skips fun _ member => within.inside_ne notStart member
      rw [reaches_congr same, reaches_inside noSkip]
      rfl

/-- What is reached from a later occasion does not depend on the pair. -/
theorem reaches_apart {closing : VisitEvent} {lastAnswer : Visiting}
    (closes : opening.event.closing? = some closing)
    (within : forest.Walks (forest.following opening answer) inner)
    (separate : Separate (opening :: occasions)) {other : Occasion}
    (isOther : other ∈ occasions) :
    forest.Reaches (Skips (⟨opening, answer⟩ ::
        (inner ++ ⟨⟨closing, opening.expression⟩, lastAnswer⟩ :: rest)))
        other expression ↔
      forest.Reaches (Skips rest) other expression := by
  apply reaches_congr
  intro position ancestor found
  have elsewhere : opening.expression ≠ ancestor :=
    (separate.precedes isOther (forest.descend?_nil _) found).ne
  have noSkip : ¬ Skips inner ancestor := by
    refine not_skips fun reaction member => ?_
    obtain ⟨_, below, -⟩ := within.inside member
    exact (separate.precedes isOther below found).ne
  simp [skips_paired closes, noSkip, elsewhere]

/-- The expressions visited are those that are reached. -/
theorem mem_visited_iff (walks : forest.Walks occasions log)
    (separate : Separate occasions) :
    expression ∈ visited log ↔ ∃ occasion ∈ occasions,
      forest.Reaches (Skips log) occasion expression := by
  induction walks with
  | nil => simp [visited]
  | @single occasion answer occasions rest leaf empty goesOn ih =>
      have notStart := VisitEvent.ne_start_of_isLeaf leaf
      have same (ancestor : Expression) :
          Skips (⟨occasion, answer⟩ :: rest) ancestor ↔ Skips rest ancestor :=
        skips_cons_of_leaf leaf
      have noSkip : ¬ Skips rest occasion.expression :=
        goesOn.not_skips_apart separate (forest.descend?_nil _)
      have noneInside :
          ¬ forest.Reaches (Skips rest) occasion expression := by
        rw [reaches_inside fun _ => noSkip]
        simp [notStart, empty]
      rw [visited_cons_of_ne notStart, ih separate.of_cons]
      simp only [List.exists_mem_cons_iff, reaches_congr fun _ ancestor _ =>
        same ancestor, noneInside, false_or]
  | @paired opening closing answer lastAnswer occasions inner rest closes within
      goesOn ihWithin ih =>
      rw [visited_paired (VisitEvent.closing_ne_start closes), List.mem_append,
        List.mem_append, mem_visited_singleton,
        ihWithin (separate_following ..), ih separate.of_cons, ← or_assoc,
        ← reaches_paired closes within goesOn separate, List.exists_mem_cons_iff]
      exact or_congr_right (exists_congr fun other => and_congr_right
        fun isOther => (reaches_apart closes within separate isOther).symm)

end Forest.Walks

/-! ### Walks from held expressions -/

/-- What a walk from an expression does: what lies inside a pair stands between
its events; every start is closed at its expression; an expression at which
anything happens is started once and shows all its events; the expressions
started are those above which nothing is skipped, in the order of their index
paths; and all paths extend that of the start. -/
structure Forest.WalkedFrom (forest : Forest) (start : Expression)
    (log : List Reaction) : Prop where
  walks : forest.Walks [⟨.start, start⟩] log
  bracketed : Bracketed log
  completes : ∀ reaction ∈ log, forest.Completes log reaction.expression
  visited_iff : ∀ expression, expression ∈ visited log ↔
    ∃ position, forest.descend? start position = some expression ∧
      forest.Open (Skips log) start position
  ordered : (visited log).Pairwise fun left right =>
    left.indexPath < right.indexPath
  placed : ∀ reaction ∈ log, forest.Places reaction.expression ∧
    ∃ steps, reaction.expression.path = steps ++ start.path ∧
      forest.descend? start (positionOf steps) = some reaction.expression ∧
      reaction.expression.indexPath = start.indexPath ++ positionOf steps

theorem Forest.Walks.walkedFrom {forest : Forest} {start : Expression}
    {log : List Reaction} (walks : forest.Walks [⟨.start, start⟩] log)
    (places : forest.Places start) : forest.WalkedFrom start log := by
  have separate : Separate [⟨.start, start⟩] := List.pairwise_singleton _ _
  refine ⟨walks, walks.bracketed, fun reaction member => ?_, fun expression => ?_,
    walks.pairwise_visited separate, fun reaction member => ?_⟩
  · refine (walks.completes separate member).resolve_left ?_
    simp
  · rw [walks.mem_visited_iff separate]
    simp [Reaches]
  · obtain ⟨occasion, isOccasion, position, found, -⟩ := walks.under member
    obtain rfl := List.mem_singleton.mp isOccasion
    obtain ⟨steps, isPath, rfl⟩ := path_of_descend? found
    exact ⟨(places.descend? found).1, steps, isPath, found,
      indexPath_of_descend? found⟩

namespace Session

/-- Walking a held expression with a visitor that leaves the walking to the
library: the trace is what the visitor does, and it is that of a walk from the
expression. -/
theorem Reachable.walk_traces {session : Session}
    (reachable : session.Reachable) {start : Expression}
    (held : start ∈ session.held) {State : Type} {visitor : Visitor State}
    (keeps : visitor.KeepsWalking) (state : State) :
    visitor.Replays state (visitor.trace session.forest start state)
        (visitor.walk session.forest start state) ∧
      session.forest.WalkedFrom start
        (visitor.trace session.forest start state) := by
  have valid := reachable.valid
  have walks := Visitor.walks_trace keeps valid.wellFormed start state
  exact ⟨Visitor.replays_trace keeps valid.wellFormed start state,
    walks.walkedFrom (valid.places start held)⟩

/-- The second argument of the call is skipped, though it is the node of the first
one. -/
theorem walk_traces_nestedCall :
    let top := Expression.atRoot 0 ⟨2⟩
    let visitor : Visitor Nat :=
      { react := fun event expression count =>
          (if event = .start ∧ expression.index? = some 1 then .skip
            else .continue, count + 1) }
    nestedCall.Reachable ∧ top ∈ nestedCall.held ∧ visitor.KeepsWalking ∧
      nestedCall.forest.WalkedFrom top (visitor.trace nestedCall.forest top 0) := by
  intro top visitor
  have held : top ∈ nestedCall.held := by decide +kernel
  have keeps : visitor.KeepsWalking := fun _ _ => rfl
  exact ⟨reachable_nestedCall, held, keeps,
    (Reachable.walk_traces reachable_nestedCall held keeps 0).2⟩

/-- A node that is shared is visited at each of its places. -/
example :
    let visitor : Visitor Unit := { react := fun _ _ state => (.continue, state) }
    (visited (visitor.trace nestedCall.forest (.atRoot 0 ⟨2⟩) ())).map
      Expression.indexPath = [[], [0], [0, 0], [0, 1]] := by
  decide +kernel

end Session

end FormulaEngine
