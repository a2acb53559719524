import FormulaEngine.Formula.Parameter

/-!
# Required parameters and accepted argument counts

An arity counts the parameters of each cardinality, and arguments go to parameters
by position.  An accepted count is never below the number of required parameters,
but the arguments may be used up by optional parameters that stand in front.  So
every required parameter is sure of an argument exactly when none of them stands
behind an optional one.
-/

namespace FormulaEngine

/-- The number of required parameters of a list. -/
def requiredCount (parameters : List Parameter) : Nat :=
  parameters.countP (·.cardinality == .required)

/-- No required parameter stands behind an optional one. -/
def RequiredFirst (parameters : List Parameter) : Prop :=
  parameters.Pairwise fun earlier later =>
    earlier.cardinality = .optional → later.cardinality ≠ .required

/-- Every required parameter of a list has its position below the number of
required parameters. -/
def RequiredCompact (parameters : List Parameter) : Prop :=
  ∀ index parameter, parameters[index]? = some parameter →
    parameter.cardinality = .required → index < requiredCount parameters

section Positions

variable {parameters : List Parameter} {index : Nat} {parameter : Parameter}

/-- A position up to which all parameters are required is below their number. -/
theorem lt_requiredCount (within : index < parameters.length)
    (allRequired : ∀ earlier ∈ parameters.take (index + 1),
      earlier.cardinality = .required) :
    index < requiredCount parameters := by
  have counted : (parameters.take (index + 1)).countP
      (·.cardinality == .required) = index + 1 := by
    rw [List.countP_eq_length.mpr (by simpa using allRequired), List.length_take]
    omega
  have atMost := (List.take_sublist (index + 1) parameters).countP_le
    (p := (·.cardinality == .required))
  unfold requiredCount
  omega

/-- If the required parameters have their positions below their number, then they
are the first ones. -/
theorem RequiredCompact.required_of_lt (compact : RequiredCompact parameters)
    (stands : parameters[index]? = some parameter)
    (bound : index < requiredCount parameters) :
    parameter.cardinality = .required := by
  have noneBehind : (parameters.drop (requiredCount parameters)).countP
      (·.cardinality == .required) = 0 := by
    rw [List.countP_eq_zero]
    intro later member required
    obtain ⟨distance, found⟩ := List.mem_iff_getElem?.mp member
    rw [List.getElem?_drop] at found
    have := compact _ later found (by simpa using required)
    omega
  have counted : requiredCount parameters =
      (parameters.take (requiredCount parameters)).countP
        (·.cardinality == .required) :=
    calc requiredCount parameters
        = (parameters.take (requiredCount parameters) ++
            parameters.drop (requiredCount parameters)).countP
              (·.cardinality == .required) := by
          rw [List.take_append_drop]
          rfl
      _ = _ := by rw [List.countP_append, noneBehind, Nat.add_zero]
  -- The first ones are as many as are required among them.
  have allRequired : (parameters.take (requiredCount parameters)).countP
      (·.cardinality == .required) =
        (parameters.take (requiredCount parameters)).length := by
    refine Nat.le_antisymm List.countP_le_length ?_
    rw [← counted, List.length_take]
    exact Nat.min_le_left _ _
  have member : parameter ∈ parameters.take (requiredCount parameters) := by
    refine List.mem_of_getElem? (i := index) ?_
    rwa [List.getElem?_take_of_lt bound]
  simpa using List.countP_eq_length.mp allRequired parameter member

end Positions

namespace Arity

variable {parameters : List Parameter} {arity : Arity} {count : Nat}

theorem least_of (isArity : Arity.of parameters = .ok arity) :
    arity.least = requiredCount parameters := by
  unfold Arity.of at isArity
  split at isArity
  · cases isArity
  · cases isArity
    rfl

theorem requiredCount_le (isArity : Arity.of parameters = .ok arity)
    (accepted : arity.accepts count = true) : requiredCount parameters ≤ count := by
  rw [← least_of isArity]
  simp only [accepts, Bool.and_eq_true, decide_eq_true_eq] at accepted
  exact accepted.1

/-- As many arguments as there are required parameters are accepted. -/
theorem accepts_requiredCount (isArity : Arity.of parameters = .ok arity) :
    arity.accepts (requiredCount parameters) = true := by
  unfold Arity.of at isArity
  split at isArity
  · cases isArity
  · cases isArity
    cases parameters.any Parameter.isVariadic <;>
      simp [accepts, requiredCount, List.countP_le_length]

/-- Only the last parameter may be a variable one. -/
theorem not_variadic_of_lt (isArity : Arity.of parameters = .ok arity)
    {earlier later : Nat} (order : earlier < later)
    (within : later < parameters.length) :
    parameters[earlier].cardinality ≠ .variadic := by
  unfold Arity.of at isArity
  split at isArity
  · cases isArity
  next noneEarlier =>
    intro variadic
    have member : parameters[earlier] ∈ parameters.dropLast :=
      List.mem_of_getElem? (i := earlier) (by
        rw [List.getElem?_dropLast, if_pos (by omega), List.getElem?_eq_getElem])
    exact List.find?_eq_none.mp noneEarlier _ member
      (by simp [Parameter.isVariadic, variadic])

theorem requiredCompact_iff (isArity : Arity.of parameters = .ok arity) :
    RequiredCompact parameters ↔ RequiredFirst parameters := by
  constructor
  · intro compact
    refine List.pairwise_iff_getElem.mpr ?_
    intro earlier later earlierBound laterBound order optional required
    have bound := compact later _ (List.getElem?_eq_getElem laterBound) required
    have alsoRequired := compact.required_of_lt
      (List.getElem?_eq_getElem earlierBound) (Nat.lt_trans order bound)
    rw [optional] at alsoRequired
    cases alsoRequired
  · intro inFront index parameter stands required
    obtain ⟨within, rfl⟩ := List.getElem?_eq_some_iff.mp stands
    refine lt_requiredCount within fun other member => ?_
    obtain ⟨earlier, found⟩ := List.mem_iff_getElem?.mp member
    have order : earlier < index + 1 := by
      have := (List.getElem?_eq_some_iff.mp found).1
      rw [List.length_take] at this
      omega
    rw [List.getElem?_take_of_lt order] at found
    obtain ⟨earlierBound, rfl⟩ := List.getElem?_eq_some_iff.mp found
    rcases Nat.lt_succ_iff_lt_or_eq.mp order with before | rfl
    · cases cardinality : parameters[earlier].cardinality with
      | required => rfl
      | optional =>
          exact absurd required (List.pairwise_iff_getElem.mp inFront earlier index
            earlierBound within before cardinality)
      | variadic =>
          exact absurd cardinality (not_variadic_of_lt isArity before within)
    · exact required

/-- An accepted count has as many arguments as there are required parameters.  A
required parameter is assigned an argument by every accepted count if and only if
its position is below that number, and all of them are if and only if none stands
behind an optional parameter. -/
theorem required_assigned_iff (isArity : Arity.of parameters = .ok arity) :
    (∀ count, arity.accepts count = true → requiredCount parameters ≤ count) ∧
      (∀ index parameter, parameters[index]? = some parameter →
        parameter.cardinality = .required →
          ((∀ count, arity.accepts count = true → index < count) ↔
            index < requiredCount parameters)) ∧
      ((∀ count, arity.accepts count = true → ∀ index parameter,
          parameters[index]? = some parameter →
            parameter.cardinality = .required → index < count) ↔
        RequiredFirst parameters) := by
  have least (count : Nat) (accepted : arity.accepts count = true) :=
    requiredCount_le isArity accepted
  refine ⟨least, fun index parameter _ _ => ?_, ?_⟩
  · constructor
    · exact fun always => always _ (accepts_requiredCount isArity)
    · exact fun bound count accepted =>
        Nat.lt_of_lt_of_le bound (least count accepted)
  · rw [← requiredCompact_iff isArity]
    constructor
    · exact fun always => always _ (accepts_requiredCount isArity)
    · intro compact count accepted index parameter stands required
      exact Nat.lt_of_lt_of_le (compact index parameter stands required)
        (least count accepted)

/-- A required parameter in front of an optional one and any number of others. -/
theorem required_assigned_iff_front :
    let parameters : List Parameter :=
      [⟨⟨"text"⟩, .text, .required, {}⟩, ⟨⟨"from"⟩, .integer, .optional, {}⟩,
        ⟨⟨"rest"⟩, .any, .variadic, {}⟩]
    Arity.of parameters = .ok ⟨1, none⟩ ∧ RequiredFirst parameters ∧
      ∀ count, (⟨1, none⟩ : Arity).accepts count = true → 0 < count := by
  intro parameters
  have isArity : Arity.of parameters = .ok ⟨1, none⟩ := rfl
  obtain ⟨-, -, all⟩ := required_assigned_iff isArity
  have inFront : RequiredFirst parameters := by
    simp [RequiredFirst, parameters]
  exact ⟨isArity, inFront,
    fun count accepted => all.mpr inFront count accepted 0 _ rfl rfl⟩

/-- An optional parameter in front takes the argument that a required one needs. -/
theorem required_unassigned :
    ¬ ∀ (parameters : List Parameter) (arity : Arity),
      Arity.of parameters = .ok arity → ∀ count, arity.accepts count = true →
        ∀ index parameter, parameters[index]? = some parameter →
          parameter.cardinality = .required → index < count := by
  intro assigned
  let optionalFirst : List Parameter :=
    [⟨⟨"x"⟩, .any, .optional, {}⟩, ⟨⟨"y"⟩, .any, .required, {}⟩]
  have impossible : 1 < 1 :=
    assigned optionalFirst ⟨1, some 2⟩ rfl 1 rfl 1 ⟨⟨"y"⟩, .any, .required, {}⟩ rfl rfl
  omega

end Arity

end FormulaEngine
