import FormulaEngine.Proofs.Context.Purity
import FormulaEngine.Proofs.Context.Table
import Mathlib.Data.Finset.Card
import Mathlib.Logic.Relation

/-!
# Which questions about purity are answered

To judge a lambda the names that its body calls are asked about, one after the other,
until one of them is not pure.  Each of these questions may lead to others, and so on
through the registered lambdas.  If the questions run into a circle there is never an
answer.  Otherwise there is one, and no chain of questions is longer than the list of
registered functions.
-/

open Relation

namespace FormulaEngine

variable {Label : Type}

/-- To judge a function, a name is asked about: the function is a lambda whose body
calls the name, and all names that are called before it have been judged pure. -/
def Callable.AsksAbout (callable : Callable Label) (forest : Forest)
    (context : Context Label) (name : FunctionName) : Prop :=
  ∃ parameters body, callable.core = .lambda parameters body ∧
    ∃ before after, forest.calledNames body = before ++ name :: after ∧
      ∀ earlier ∈ before, context.JudgesPure forest earlier

namespace BasicContext

/-- To judge a name, another one is asked about. -/
def AsksAbout (tables : BasicContext Label) (forest : Forest)
    (name next : FunctionName) : Prop :=
  ∃ callable, tables.functions.find? name = some callable ∧
    callable.AsksAbout forest (.basic tables) next

/-- To judge a name, one is asked about in the end that leads back to itself. -/
def AsksInCircle (tables : BasicContext Label) (forest : Forest)
    (name : FunctionName) : Prop :=
  ∃ circular, ReflTransGen (tables.AsksAbout forest) name circular ∧
    TransGen (tables.AsksAbout forest) circular circular

/-- The function under a name is judged within a number of steps. -/
def Answers (tables : BasicContext Label) (forest : Forest) (steps : Nat)
    (name : FunctionName) : Prop :=
  ((Context.basic tables).isPure forest steps name).isSome = true

end BasicContext

/-! ### One question -/

section Question

variable {forest : Forest} {context : Context Label} {steps : Nat}

/-- What is asked about in an answered question is answered too. -/
theorem isSome_of_allWithin {name : FunctionName} {before after : List FunctionName}
    (answered : (allWithin (context.isPure forest steps)
      (before ++ name :: after)).isSome = true)
    (pure : ∀ earlier ∈ before, context.JudgesPure forest earlier) :
    (context.isPure forest steps name).isSome = true := by
  induction before with
  | nil =>
      by_contra unanswered
      rw [Option.not_isSome_iff_eq_none] at unanswered
      simp [allWithin, unanswered] at answered
  | cons earlier before ih =>
      obtain ⟨⟨others, isPure⟩, pure⟩ := List.forall_mem_cons.mp pure
      rw [List.cons_append, allWithin] at answered
      cases judged : context.isPure forest steps earlier with
      | none => simp [judged] at answered
      | some answer =>
          obtain rfl := Context.isPure_unique judged isPure
          exact ih (by simpa [judged] using answered) pure

theorem allWithin_isSome {names : List FunctionName}
    (answers : ∀ before name after, names = before ++ name :: after →
      (∀ earlier ∈ before, context.JudgesPure forest earlier) →
        (context.isPure forest steps name).isSome = true) :
    (allWithin (context.isPure forest steps) names).isSome = true := by
  induction names with
  | nil => rfl
  | cons name names ih =>
      obtain ⟨answer, judged⟩ :=
        Option.isSome_iff_exists.mp (answers [] name names rfl nofun)
      cases answer with
      | false => simp [allWithin, judged]
      | true =>
          simp only [allWithin, judged]
          refine ih fun before other after split pure => ?_
          refine answers (name :: before) other after (congrArg _ split) ?_
          exact List.forall_mem_cons.mpr ⟨⟨steps, judged⟩, pure⟩

/-- A function is judged within some steps just if every name that is asked about
is. -/
theorem Callable.isSome_isPure_iff {callable : Callable Label} :
    (callable.isPure forest steps context).isSome = true ↔
      ∀ name, callable.AsksAbout forest context name →
        (context.isPure forest steps name).isSome = true := by
  unfold Callable.isPure isPureBy
  constructor
  · rintro answered name ⟨parameters, body, isLambda, before, after, split, pure⟩
    simp only [isLambda, split] at answered
    exact isSome_of_allWithin answered pure
  · intro answers
    split
    next parameters body isLambda =>
      exact allWithin_isSome fun before name after split pure =>
        answers name ⟨parameters, body, isLambda, before, after, split, pure⟩
    next => rfl
    next => rfl

end Question

namespace BasicContext

variable {tables : BasicContext Label} {forest : Forest} {steps : Nat}
  {name next : FunctionName}

theorem answers_succ_iff : tables.Answers forest (steps + 1) name ↔
    ∀ next, tables.AsksAbout forest name next → tables.Answers forest steps next := by
  unfold Answers AsksAbout
  simp only [Context.isPure, Context.judged?]
  cases found : tables.functions.find? name with
  | none => simp
  | some callable =>
      simp only [Option.map_some, Option.some.injEq, exists_eq_left']
      exact Callable.isSome_isPure_iff

theorem Answers.mono {more : Nat} (answered : tables.Answers forest steps name)
    (le : steps ≤ more) : tables.Answers forest more name :=
  Context.isSome_isPure_mono le answered

/-! ### Circles -/

theorem Answers.of_asks (answered : tables.Answers forest steps name)
    (asks : tables.AsksAbout forest name next) : tables.Answers forest steps next := by
  cases steps with
  | zero => cases answered
  | succ steps => exact (answers_succ_iff.mp answered next asks).mono (Nat.le_succ _)

theorem Answers.of_leads {other : FunctionName}
    (answered : tables.Answers forest steps name)
    (leads : ReflTransGen (tables.AsksAbout forest) name other) :
    tables.Answers forest steps other := by
  induction leads with
  | refl => exact answered
  | tail _ asks ih => exact ih.of_asks asks

/-- A question that leads back to itself would have to be answered with fewer steps
than it takes. -/
theorem not_answers_of_transGen
    (circular : TransGen (tables.AsksAbout forest) name name) :
    ¬ tables.Answers forest steps name := by
  induction steps generalizing name with
  | zero => exact nofun
  | succ steps ih =>
      intro answered
      obtain ⟨next, asks, goesBack⟩ := TransGen.head'_iff.mp circular
      exact ih (TransGen.tail' goesBack asks) (answers_succ_iff.mp answered next asks)

theorem AsksInCircle.not_answers (circle : tables.AsksInCircle forest name)
    (steps : Nat) : ¬ tables.Answers forest steps name := by
  obtain ⟨circular, leads, goesBack⟩ := circle
  exact fun answered => not_answers_of_transGen goesBack (answered.of_leads leads)

theorem AsksInCircle.head (asks : tables.AsksAbout forest name next)
    (circle : tables.AsksInCircle forest next) : tables.AsksInCircle forest name :=
  let ⟨circular, leads, goesBack⟩ := circle
  ⟨circular, .head asks leads, goesBack⟩

/-! ### Chains -/

open Classical in
/-- The registered names that a question leads to, the name itself among them. -/
noncomputable def reached (tables : BasicContext Label) (forest : Forest)
    (name : FunctionName) : Finset FunctionName :=
  (tables.functions.entries.map Prod.fst).toFinset.filter
    (ReflTransGen (tables.AsksAbout forest) name)

theorem mem_reached {other : FunctionName} : other ∈ tables.reached forest name ↔
    other ∈ tables.functions.entries.map Prod.fst ∧
      ReflTransGen (tables.AsksAbout forest) name other := by
  simp [reached]

open Classical in
theorem card_reached_le : (tables.reached forest name).card ≤ tables.functions.size :=
  calc (tables.reached forest name).card
      ≤ (tables.functions.entries.map Prod.fst).toFinset.card :=
        Finset.card_filter_le _ _
    _ ≤ (tables.functions.entries.map Prod.fst).length := List.toFinset_card_le _
    _ = tables.functions.size := List.length_map _

/-- A name outside all circles leads to more names than the next one. -/
theorem card_reached_lt (asks : tables.AsksAbout forest name next)
    (noCircle : ¬ tables.AsksInCircle forest name) :
    (tables.reached forest next).card < (tables.reached forest name).card := by
  have registered : name ∈ tables.functions.entries.map Prod.fst := by
    obtain ⟨callable, found, -⟩ := asks
    exact List.mem_map_of_mem (f := Prod.fst) (Table.mem_of_find? found)
  refine Finset.card_lt_card (Finset.ssubset_iff.mpr ⟨name, ?_, ?_⟩)
  · intro isReached
    exact noCircle ⟨name, .refl, TransGen.head' asks (mem_reached.mp isReached).2⟩
  · rw [Finset.insert_subset_iff]
    refine ⟨mem_reached.mpr ⟨registered, .refl⟩, fun other isReached => ?_⟩
    obtain ⟨isRegistered, leads⟩ := mem_reached.mp isReached
    exact mem_reached.mpr ⟨isRegistered, .head asks leads⟩

theorem answers_of_card_reached_le (noCircle : ¬ tables.AsksInCircle forest name)
    (few : (tables.reached forest name).card ≤ steps) :
    tables.Answers forest (steps + 1) name := by
  induction steps generalizing name with
  | zero =>
      refine answers_succ_iff.mpr fun next asks => ?_
      have fewer := card_reached_lt asks noCircle
      omega
  | succ steps ih =>
      refine answers_succ_iff.mpr fun next asks => ?_
      have fewer := card_reached_lt asks noCircle
      exact ih (fun circle => noCircle (circle.head asks)) (by omega)

theorem answers_iff (tables : BasicContext Label) (forest : Forest)
    (name : FunctionName) :
    (tables.Answers forest (tables.functions.size + 1) name ↔
        ¬ tables.AsksInCircle forest name) ∧
      ((∃ steps, tables.Answers forest steps name) ↔
        ¬ tables.AsksInCircle forest name) := by
  have bounded (noCircle : ¬ tables.AsksInCircle forest name) :
      tables.Answers forest (tables.functions.size + 1) name :=
    answers_of_card_reached_le noCircle card_reached_le
  have never (steps : Nat) (answered : tables.Answers forest steps name) :
      ¬ tables.AsksInCircle forest name := fun circle =>
    circle.not_answers steps answered
  exact ⟨⟨never _, bounded⟩, fun ⟨steps, answered⟩ => never steps answered,
    fun noCircle => ⟨_, bounded noCircle⟩⟩

/-- A question about the purity of a name or of a function is answered just if it
does not run into a circle of names that ask about each other.  If it is answered at
all, as many steps as there are registered functions, and one more, are enough. -/
theorem purity_answered_iff (tables : BasicContext Label) (forest : Forest) :
    (∀ name,
      (((Context.basic tables).isPure forest (tables.functions.size + 1)
          name).isSome = true ↔ ¬ tables.AsksInCircle forest name) ∧
      ((∃ steps, ((Context.basic tables).isPure forest steps name).isSome = true) ↔
        ¬ tables.AsksInCircle forest name)) ∧
    ∀ callable : Callable Label,
      ((callable.isPure forest (tables.functions.size + 1)
          (.basic tables)).isSome = true ↔
        ∀ name, callable.AsksAbout forest (.basic tables) name →
          ¬ tables.AsksInCircle forest name) ∧
      ((∃ steps, (callable.isPure forest steps (.basic tables)).isSome = true) ↔
        ∀ name, callable.AsksAbout forest (.basic tables) name →
          ¬ tables.AsksInCircle forest name) := by
  refine ⟨fun name => answers_iff tables forest name, fun callable => ?_⟩
  have bounded (noCircle : ∀ name, callable.AsksAbout forest (.basic tables) name →
      ¬ tables.AsksInCircle forest name) :
      (callable.isPure forest (tables.functions.size + 1)
        (.basic tables)).isSome = true :=
    Callable.isSome_isPure_iff.mpr fun name asks =>
      (answers_iff tables forest name).1.mpr (noCircle name asks)
  have never (steps : Nat)
      (answered : (callable.isPure forest steps (.basic tables)).isSome = true)
      (name : FunctionName) (asks : callable.AsksAbout forest (.basic tables) name) :
      ¬ tables.AsksInCircle forest name :=
    (answers_iff tables forest name).2.mp
      ⟨steps, Callable.isSome_isPure_iff.mp answered name asks⟩
  exact ⟨⟨never _, bounded⟩, fun ⟨steps, answered⟩ => never steps answered,
    fun noCircle => ⟨_, bounded noCircle⟩⟩

end BasicContext

/-! ### A lambda that calls itself -/

/-- A caller has built the sum of calls of `f` and `random`. -/
def Session.selfCall : Session :=
  start
    |>.operate (.build 0 (.call ⟨"f"⟩ []))
    |>.operate (.build 0 (.call ⟨"random"⟩ []))
    |>.operate (.build 0 (.binary .add (.atRoot 0 ⟨0⟩) (.atRoot 0 ⟨1⟩)))

/-- The sum as the body of a lambda under the name of `f`, beside `random`, which is
not pure. -/
def circularTables : BasicContext Unit where
  functions := .ofList
    [(⟨"random"⟩, .host { name := ⟨"random"⟩, parameters := [], isPure := false } ()),
      (⟨"f"⟩, .lambda [] (.atRoot 0 ⟨2⟩))]

/-- A question about a name that calls itself is never answered, although the body
also calls a name that is judged not to be pure. -/
theorem purity_of_circle_unanswered :
    let forest := Session.selfCall.forest
    let context : Context Unit := .basic circularTables
    forest.calledNames (.atRoot 0 ⟨2⟩) = [⟨"f"⟩, ⟨"random"⟩] ∧
      context.isPure forest 1 ⟨"random"⟩ = some false ∧
      ∀ steps, context.isPure forest steps ⟨"f"⟩ = none ∧
        (Callable.lambda [] (.atRoot 0 ⟨2⟩) : Callable Unit).isPure forest steps
          context = none := by
  intro forest context
  have calls : forest.calledNames (.atRoot 0 ⟨2⟩) = [⟨"f"⟩, ⟨"random"⟩] := by
    decide +kernel
  have asks : (Callable.lambda [] (.atRoot 0 ⟨2⟩) : Callable Unit).AsksAbout forest
      context ⟨"f"⟩ :=
    ⟨[], .atRoot 0 ⟨2⟩, rfl, [], [⟨"random"⟩], calls, nofun⟩
  have circle : circularTables.AsksInCircle forest ⟨"f"⟩ :=
    ⟨⟨"f"⟩, .refl, .single ⟨_, rfl, asks⟩⟩
  refine ⟨calls, rfl, fun steps => ⟨?_, ?_⟩⟩
  · exact Option.not_isSome_iff_eq_none.mp (circle.not_answers steps)
  · refine Option.not_isSome_iff_eq_none.mp fun answered => ?_
    exact circle.not_answers steps (Callable.isSome_isPure_iff.mp answered _ asks)

end FormulaEngine
