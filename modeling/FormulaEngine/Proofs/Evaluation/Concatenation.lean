import FormulaEngine.Proofs.Evaluation.ResultKind
import FormulaEngine.Proofs.Number.Exactness

/-!
# Texts that are added

An operator tries its operands as numbers before it turns to their texts, their
order or their truth.  Where decimals are the kind of numbers, a float that is
infinite or no number has no counterpart, and the operator fails with it even beside
an operand that is no number.  In every other case an addition with a text on a side
joins the text with that of the other operand, and an operator whose operands are
not both numbers fails for want of a rule only.
-/

namespace FormulaEngine

variable {Label : Type}

/-! ### Numbers without a counterpart -/

/-- A numeral has no counterpart in a kind: decimals are wanted, and it is an
infinite float or the float that is no number. -/
def Numeral.IsStranded (kind : NumberKind) (numeral : Numeral) : Prop :=
  kind = .arbitraryPrecision ∧ ¬ numeral.toOperand.IsFinite

/-- A value is a number that has no counterpart in a kind. -/
def Value.IsStranded (kind : NumberKind) : Value Label → Prop
  | .number numeral => numeral.IsStranded kind
  | _ => False

/-- The failure of an operator whose operand has no counterpart. -/
def Value.strandedFailure (forest : Forest) (value : Value Label) : EvalError :=
  NumberError.toEvalError
    (.notRepresentable (value.write forest) Representation.bigDecimal.name)

theorem Operand.toDecimal_of_isFinite {operand : Operand}
    (finite : operand.IsFinite) : ∃ decimal, operand.toDecimal = .ok decimal := by
  obtain ⟨x, exact⟩ := Option.isSome_iff_exists.mp (exactValue?_isSome_iff.mpr finite)
  obtain ⟨decimal, isDecimal, -⟩ := toDecimal_exact exact
  exact ⟨decimal, isDecimal⟩

namespace Numeral

variable {numeral : Numeral} {kind : NumberKind}

theorem setKind_of_not_stranded (settled : ¬ numeral.IsStranded kind) :
    ∃ result, numeral.setKind kind = .ok result := by
  unfold setKind
  split
  next => exact ⟨numeral, rfl⟩
  next =>
    cases kind with
    | floating => exact ⟨_, rfl⟩
    | arbitraryPrecision =>
        have finite : numeral.toOperand.IsFinite :=
          Classical.not_not.mp fun infinite => settled ⟨rfl, infinite⟩
        obtain ⟨decimal, isDecimal⟩ := Operand.toDecimal_of_isFinite finite
        exact ⟨.decimal decimal, by rw [NumberKind.create, isDecimal]; rfl⟩

theorem setKind_of_stranded (stranded : numeral.IsStranded kind) :
    numeral.setKind kind =
      .error (.notRepresentable numeral.write Representation.bigDecimal.name) := by
  obtain ⟨rfl, infinite⟩ := stranded
  cases numeral with
  | decimal value => exact absurd trivial infinite
  | floating value =>
      have none : Decimal.ofFloat? value = none := by
        rw [← Operand.exactValue?_isSome_iff] at infinite
        simpa [toOperand, Operand.exactValue?] using infinite
      simp only [setKind, kind, toOperand, NumberKind.create, Operand.toDecimal,
        Operand.decimalOfFloat, none]
      rfl

end Numeral

namespace Value

variable {kind : NumberKind} {value left right : Value Label}

theorem operandIn?_of_stranded (stranded : value.IsStranded kind)
    (forest : Forest) :
    value.operandIn? kind = .error (.notRepresentable (value.write forest)
      Representation.bigDecimal.name) := by
  cases value with
  | number numeral =>
      rw [operandIn?, Numeral.setKind_of_stranded stranded]
      rfl
  | _ => exact stranded.elim

theorem operandIn?_of_not_stranded (settled : ¬ value.IsStranded kind) :
    ∃ operand, value.operandIn? kind = .ok operand ∧
      operand.isSome = value.isNumeric := by
  cases value with
  | number numeral =>
      obtain ⟨result, isResult⟩ := Numeral.setKind_of_not_stranded settled
      refine ⟨some result.toOperand, ?_, rfl⟩
      rw [operandIn?, isResult]
      rfl
  | _ => exact ⟨_, rfl, rfl⟩

/-- Two values that are not both numbers bring no operands. -/
theorem operandsIn?_of_not_stranded (leftSettled : ¬ left.IsStranded kind)
    (rightSettled : ¬ right.IsStranded kind)
    (unpaired : ¬ (left.isNumeric = true ∧ right.isNumeric = true)) :
    left.operandsIn? kind right = .ok none := by
  obtain ⟨first, isFirst, firstNumeric⟩ := operandIn?_of_not_stranded leftSettled
  obtain ⟨second, isSecond, secondNumeric⟩ :=
    operandIn?_of_not_stranded rightSettled
  rw [operandsIn?, isFirst, isSecond]
  rw [← firstNumeric, ← secondNumeric] at unpaired
  cases first <;> cases second <;> first | rfl | exact absurd ⟨rfl, rfl⟩ unpaired

/-- A value without a counterpart makes the conversion of operands fail. -/
theorem operandsIn?_of_stranded (forest : Forest)
    (stranded : left.IsStranded kind ∨ right.IsStranded kind) :
    ∃ value ∈ [left, right], value.IsStranded kind ∧
      left.operandsIn? kind right = .error (.notRepresentable (value.write forest)
        Representation.bigDecimal.name) := by
  by_cases leftStranded : left.IsStranded kind
  · refine ⟨left, by simp, leftStranded, ?_⟩
    rw [operandsIn?, operandIn?_of_stranded leftStranded forest]
    rfl
  · have rightStranded := stranded.resolve_left leftStranded
    obtain ⟨first, isFirst, -⟩ := operandIn?_of_not_stranded leftStranded
    refine ⟨right, by simp, rightStranded, ?_⟩
    rw [operandsIn?, isFirst, operandIn?_of_stranded rightStranded forest]
    rfl

/-- The operand of a value has a numeral in the kind that it was converted to. -/
theorem create_of_operandIn? {raw : Operand}
    (isRaw : value.operandIn? kind = .ok (some raw)) :
    ∃ numeral, kind.create raw = .ok numeral ∧ numeral.kind = kind := by
  have finite (arbitrary : kind = .arbitraryPrecision) : raw.IsFinite := by
    subst arbitrary
    cases value with
    | number numeral =>
        obtain ⟨result, converts, isRaw⟩ := Attempt.of_bind isRaw
        have ofKind := Numeral.kind_setKind converts
        cases isRaw
        cases result with
        | floating => cases ofKind
        | decimal => trivial
    | integer | bigInteger => cases isRaw; trivial
    | _ => cases isRaw
  cases kind with
  | floating => exact ⟨_, rfl, rfl⟩
  | arbitraryPrecision =>
      obtain ⟨decimal, isDecimal⟩ := Operand.toDecimal_of_isFinite (finite rfl)
      exact ⟨.decimal decimal, by rw [NumberKind.create, isDecimal]; rfl, rfl⟩

end Value

/-! ### Operators on values that are not both numbers -/

/-- An operator tries two values as numbers: all but the logical ones do, and these
do unless a truth value stands on a side. -/
def BinaryOp.TriesNumbers (op : BinaryOp) (left right : Value Label) : Prop :=
  match op.group with
  | .logical _ => left.type ≠ .bool ∧ right.type ≠ .bool
  | _ => True

namespace Context

variable {context : Context Label} {forest : Forest} {machine : Machine Label}
  {left right : Value Label}

/-- An operator that tries its operands as numbers fails as their conversion does. -/
theorem binary_of_operands_error {op : BinaryOp} {error : NumberError}
    (tries : op.TriesNumbers left right)
    (fails : left.operandsIn? context.kind right = .error error) :
    context.binary forest machine op left right = .fail error.toEvalError := by
  unfold BinaryOp.TriesNumbers at tries
  unfold binary
  cases isGroup : op.group with
  | arithmetic grouped =>
      simp only [arithmetic, fails]
      rfl
  | comparison relation =>
      simp only [comparison, fails]
      rfl
  | logical grouped =>
      rw [isGroup] at tries
      simp only [logical_eq, bitOperands?, if_neg (not_or.mpr tries), fails]
      rfl

/-- Without operands arithmetic joins texts, or there is no rule. -/
theorem arithmetic_of_no_operands
    (noOperands : left.operandsIn? context.kind right = .ok none) (op : BinaryOp)
    (grouped : ArithmeticOp) :
    context.arithmetic forest op grouped left right =
      if op = .add ∧ (left.type = .text ∨ right.type = .text) then
        (context.concatenate forest left right).mapError fun _ =>
          mismatch op.symbol left right
      else .error (mismatch op.symbol left right) := by
  rw [arithmetic, noOperands]
  rfl

/-- Without operands a comparison is by the order of the context. -/
theorem comparison_of_no_operands
    (noOperands : left.operandsIn? context.kind right = .ok none) (op : BinaryOp)
    (relation : Relation) :
    context.comparison forest op relation left right =
      match context.order? forest left right with
      | some order => .ok (.bool (relation.test (some order)))
      | none => .error (mismatch op.symbol left right) := by
  rw [comparison, noOperands]
  rfl

/-- Without operands an operator fails for want of a rule, or because the truth of a
value cannot be judged. -/
theorem error_of_no_operands {op : BinaryOp} {error : EvalError}
    (noOperands : op.TriesNumbers left right →
      left.operandsIn? context.kind right = .ok none)
    (fails : (context.binary forest machine op left right).outcome =
      .error error) :
    error = mismatch op.symbol left right ∨
      (machine.judge left).outcome = .error error ∨
      (machine.judge right).outcome = .error error := by
  unfold binary at fails
  unfold BinaryOp.TriesNumbers at noOperands
  cases isGroup : op.group with
  | arithmetic grouped =>
      rw [isGroup] at fails noOperands
      have failed := Run.error_of_outcome_ofExcept fails
      rw [arithmetic_of_no_operands (noOperands trivial)] at failed
      left
      split at failed
      · revert failed
        cases context.concatenate forest left right with
        | ok joined => exact nofun
        | error reason => exact fun same => (Except.error.inj same).symm
      · exact (Except.error.inj failed).symm
  | comparison relation =>
      rw [isGroup] at fails noOperands
      have failed := Run.error_of_outcome_ofExcept fails
      rw [comparison_of_no_operands (noOperands trivial)] at failed
      left
      split at failed
      · cases failed
      · exact (Except.error.inj failed).symm
  | logical grouped =>
      rw [isGroup] at fails noOperands
      have noBits : context.bitOperands? left right = .ok none := by
        unfold bitOperands?
        split
        next => rfl
        next notBool => exact noOperands (not_or.mp notBool)
      simp only [logical_eq, noBits] at fails
      change (machine.judgeBoth grouped left right).outcome = _ at fails
      rcases Run.error_of_outcome_bind fails with leftFails | ⟨_, -, fails⟩
      · exact .inr (.inl leftFails)
      · rcases Run.error_of_outcome_bind fails with rightFails | ⟨_, -, fails⟩
        · exact .inr (.inr rightFails)
        · cases fails

/-- The text of a value that converts to a text. -/
theorem textOf_of_convert {value : Value Label} {written : String}
    (converts : context.convert forest value .text = .ok (.text written)) :
    context.textOf forest value = .ok written := by
  rw [textOf, converts]
  rfl

theorem convert_text_own (converter : context.tables.converter = .basic)
    (forest : Forest) (text : String) :
    context.convert forest (.text text) .text = .ok (.text text) := by
  simp only [convert, converter]
  rfl

/-- An addition without operands and with a text on a side joins the texts of both
sides. -/
theorem binary_add_of_texts
    (noOperands : left.operandsIn? context.kind right = .ok none)
    (isText : left.type = .text ∨ right.type = .text) {first second : String}
    (leftText : context.textOf forest left = .ok first)
    (rightText : context.textOf forest right = .ok second) :
    context.binary forest machine .add left right =
      pure (.text (first ++ second)) := by
  have joined : context.concatenate forest left right =
      .ok (.text (first ++ second)) := by
    rw [concatenate_eq, leftText, rightText]
    rfl
  change Run.ofExcept (context.arithmetic forest .add .add left right) = _
  rw [arithmetic_of_no_operands noOperands, if_pos ⟨rfl, isText⟩, joined]
  rfl

/-! ### Negation -/

theorem negate_of_stranded {operand : Value Label} (forest : Forest)
    (stranded : operand.IsStranded context.kind) :
    context.negate operand = .error (operand.strandedFailure forest) := by
  simp only [negate, Value.operandIn?_of_stranded stranded forest]
  rfl

/-- A number has a negative in the kind of a context, unless it has no counterpart
there. -/
theorem negate_of_not_stranded {operand : Value Label}
    (settled : ¬ operand.IsStranded context.kind) {error : EvalError}
    (fails : context.negate operand = .error error) :
    error = unaryMismatch UnaryOp.negate.symbol operand := by
  obtain ⟨raw, isRaw, -⟩ := Value.operandIn?_of_not_stranded settled
  cases raw with
  | none =>
      simp only [negate, isRaw] at fails
      exact (Except.error.inj fails).symm
  | some raw =>
      obtain ⟨created, isCreated, ofKind⟩ := Value.create_of_operandIn? isRaw
      have negated : ∃ negative, created.negate context.kind = .ok negative := by
        rw [← ofKind]
        cases created <;> exact ⟨_, Numeral.setKind_of_kind rfl⟩
      obtain ⟨negative, isNegative⟩ := negated
      have succeeds : context.negate operand = .ok (.number negative) := by
        simp only [negate, isRaw]
        change (((context.kind.create raw).bind (·.negate context.kind)).map
          Value.number).mapError _ = _
        rw [isCreated]
        change ((created.negate context.kind).map Value.number).mapError _ = _
        rw [isNegative]
        rfl
      rw [succeeds] at fails
      cases fails

end Context

namespace World

/-- An operator has an outcome for two values, and so has an expression whose
operands evaluate to them. -/
structure Computes (world : World Label) (context : Context Label) (op : BinaryOp)
    (left right : Value Label) (outcome : Outcome (Value Label)) : Prop where
  binary : ∀ machine : Machine Label,
    (context.binary world.forest machine op left right).outcome = outcome
  evaluate : ∀ (steps : Nat) (expression leftChild rightChild : Expression),
    world.forest.node expression = .binary op leftChild rightChild →
    (world.evaluate steps context leftChild).outcome = .value left →
    (world.evaluate steps context rightChild).outcome = .value right →
    (world.evaluate (steps + 1) context expression).outcome = outcome

theorem computes_of_binary {world : World Label} {context : Context Label}
    {op : BinaryOp} {left right : Value Label} {outcome : Outcome (Value Label)}
    (binary : ∀ machine : Machine Label,
      (context.binary world.forest machine op left right).outcome = outcome) :
    world.Computes context op left right outcome where
  binary := binary
  evaluate steps expression leftChild rightChild isNode isLeft isRight := by
    have evaluated : world.evaluate (steps + 1) context expression =
        world.evaluateNode context (world.machine steps context)
          (.binary op leftChild rightChild) := by
      rw [← isNode]
      rfl
    unfold World.evaluate at isLeft isRight
    rw [evaluated, evaluateNode, Run.outcome_bind_value isLeft,
      Run.outcome_bind_value isRight, binary]

/-- With the basic converter an addition with a text on a side joins the text with
the one that the other value converts to, on the side where it stands, unless that
value is a number without a counterpart in the kind of the context.  Then the
addition fails to convert the number, and so does every operator that tries it as a
number.  All other failures of operators whose operands are not both numbers, and of
operators on one operand, are for want of a rule, or come from judging the truth of
an operand. -/
theorem addition_joins_texts (world : World Label) (context : Context Label)
    (converter : context.tables.converter = .basic) :
    (∀ (text : String) (value : Value Label) (written : String),
      context.convert world.forest value .text = .ok (.text written) →
        ¬ value.IsStranded context.kind →
          world.Computes context .add (.text text) value
              (.value (.text (text ++ written))) ∧
            world.Computes context .add value (.text text)
              (.value (.text (written ++ text)))) ∧
      (∀ (op : BinaryOp) (left right : Value Label),
        ¬ (left.isNumeric = true ∧ right.isNumeric = true) →
          (op.TriesNumbers left right →
            left.IsStranded context.kind ∨ right.IsStranded context.kind →
              ∃ value ∈ [left, right], value.IsStranded context.kind ∧
                world.Computes context op left right
                  (.error (value.strandedFailure world.forest))) ∧
            (¬ (op.TriesNumbers left right ∧
                (left.IsStranded context.kind ∨ right.IsStranded context.kind)) →
              ∀ (machine : Machine Label) (error : EvalError),
                (context.binary world.forest machine op left right).outcome =
                    .error error →
                  error = mismatch op.symbol left right ∨
                    (machine.judge left).outcome = .error error ∨
                    (machine.judge right).outcome = .error error)) ∧
      ∀ operand : Value Label,
        (operand.IsStranded context.kind →
            context.negate operand =
              .error (operand.strandedFailure world.forest)) ∧
          ∀ (op : UnaryOp) (machine : Machine Label) (error : EvalError),
            ¬ (op = .negate ∧ operand.IsStranded context.kind) →
              (context.unary machine op operand).outcome = .error error →
                error = unaryMismatch op.symbol operand ∨
                  (machine.judge operand).outcome = .error error := by
  refine ⟨fun text value written converts settled => ?_,
    fun op left right unpaired => ⟨fun tries stranded => ?_,
      fun unstranded machine error fails => ?_⟩,
    fun operand => ⟨Context.negate_of_stranded world.forest,
      fun op machine error unstranded fails => ?_⟩⟩
  · have isText : (Value.text text : Value Label).type = .text := rfl
    have textSettled : ¬ (Value.text text : Value Label).IsStranded context.kind := id
    have ownText := Context.textOf_of_convert
      (Context.convert_text_own converter world.forest text)
    have otherText := Context.textOf_of_convert converts
    constructor
    · refine computes_of_binary fun machine => ?_
      rw [Context.binary_add_of_texts (Value.operandsIn?_of_not_stranded textSettled
        settled (fun both => nomatch both.1)) (.inl isText) ownText otherText]
      rfl
    · refine computes_of_binary fun machine => ?_
      rw [Context.binary_add_of_texts (Value.operandsIn?_of_not_stranded settled
        textSettled (fun both => nomatch both.2)) (.inr isText) otherText ownText]
      rfl
  · obtain ⟨value, member, isStranded, fails⟩ :=
      Value.operandsIn?_of_stranded world.forest stranded
    refine ⟨value, member, isStranded, computes_of_binary fun machine => ?_⟩
    rw [Context.binary_of_operands_error tries fails]
    rfl
  · refine Context.error_of_no_operands (fun tries => ?_) fails
    have settled := not_or.mp fun stranded => unstranded ⟨tries, stranded⟩
    exact Value.operandsIn?_of_not_stranded settled.1 settled.2 unpaired
  · cases op with
    | negate =>
        have settled := fun stranded => unstranded ⟨rfl, stranded⟩
        exact .inl (Context.negate_of_not_stranded settled
          (Run.error_of_outcome_ofExcept fails))
    | not =>
        rcases Run.error_of_outcome_bind fails with judged | ⟨_, -, fails⟩
        · exact .inr judged
        · cases fails

end World

/-- A caller has built additions to a text, of a decimal and of a float. -/
def Session.labelledNumbers : Session :=
  start
    |>.operate (.build 0 (.value (.text "x=")))
    |>.operate (.build 0 (.reference ⟨"share"⟩))
    |>.operate (.build 0 (.reference ⟨"limit"⟩))
    |>.operate (.build 0 (.binary .add (.atRoot 0 ⟨0⟩) (.atRoot 0 ⟨1⟩)))
    |>.operate (.build 0 (.binary .add (.atRoot 0 ⟨0⟩) (.atRoot 0 ⟨2⟩)))

/-- Tables for decimals that hold a decimal and an infinite float. -/
def limitTables : BasicContext Unit where
  references := .ofList
    [(⟨"share"⟩, .number (.decimal ⟨25, 2⟩)),
      (⟨"limit"⟩, .number (.floating Binary64.infinity))]
  config := { kind := .arbitraryPrecision }

theorem addition_joins_texts_share :
    let world : World Unit :=
      ⟨Session.labelledNumbers.forest, .answering fun _ => .ok (.bool true)⟩
    let context : Context Unit := .basic limitTables
    let label : Value Unit := .text "x="
    (world.evaluate 2 context (.atRoot 0 ⟨3⟩)).outcome = .value (.text "x=0.25") ∧
      (world.evaluate 2 context (.atRoot 0 ⟨4⟩)).outcome =
        .error (.of (.conversion "inf" "big decimal")) ∧
      context.negate label = .error (unaryMismatch UnaryOp.negate.symbol label) := by
  intro world context label
  let share : Value Unit := .number (.decimal ⟨25, 2⟩)
  let limit : Value Unit := .number (.floating Binary64.infinity)
  have settled : ¬ share.IsStranded context.kind := fun stranded => stranded.2 trivial
  have stranded : limit.IsStranded context.kind := by
    have isInfinite : Binary64.parts Binary64.infinity = .infinite false := rfl
    refine ⟨rfl, ?_⟩
    rintro ⟨negative, mantissa, exponent, isFinite⟩
    cases isInfinite.symm.trans isFinite
  obtain ⟨joins, operates, negates⟩ := World.addition_joins_texts world context rfl
  refine ⟨?_, ?_, ?_⟩
  · exact (joins "x=" share "0.25" rfl settled).1.evaluate 1 (.atRoot 0 ⟨3⟩) _ _
      rfl rfl rfl
  · obtain ⟨value, member, isStranded, fails⟩ :=
      (operates .add label limit (fun both => nomatch both.1)).1 trivial
        (.inr stranded)
    have isLimit : value = limit := by
      rcases List.mem_pair.mp member with rfl | rfl
      · exact isStranded.elim
      · rfl
    subst isLimit
    exact fails.evaluate 1 (.atRoot 0 ⟨4⟩) _ _ rfl rfl rfl
  · have fails : ∃ error, context.negate label = .error error := ⟨_, rfl⟩
    obtain ⟨error, isError⟩ := fails
    have unstranded : ¬ (UnaryOp.negate = .negate ∧ label.IsStranded context.kind) :=
      fun both => both.2
    rcases (negates label).2 .negate .stopped error unstranded
      (congrArg (Run.outcome ∘ Run.ofExcept) isError) with rfl | judged
    · exact isError
    · cases judged

/-- A text is added to an infinite float, which has a text.  Where decimals are the
kind of numbers, the addition fails to convert the float. -/
theorem addition_of_infinity_fails :
    let world : World Unit :=
      ⟨Session.labelledNumbers.forest, .answering fun _ => .ok (.bool true)⟩
    let context : Context Unit := .basic limitTables
    let limit : Value Unit := .number (.floating Binary64.infinity)
    context.tables.converter = .basic ∧
      context.convert world.forest limit .text = .ok (.text "inf") ∧
      (world.evaluate 1 context (.atRoot 0 ⟨0⟩)).outcome = .value (.text "x=") ∧
      (world.evaluate 1 context (.atRoot 0 ⟨2⟩)).outcome = .value limit ∧
      (world.evaluate 2 context (.atRoot 0 ⟨4⟩)).outcome =
        .error (.of (.conversion "inf" "big decimal")) :=
  ⟨rfl, rfl, rfl, rfl, rfl⟩

end FormulaEngine
