import FormulaEngine.Proofs.Context.Table
import FormulaEngine.Proofs.Evaluation.Simulation

/-!
# Evaluation in another forest

A forest may change as long as known expressions read the same.  A context is
steady under the change if it holds values of known expressions only and its own
rules treat those alike, and host code is steady if its scripts are the same.
Known expressions then evaluate after the change as they did before.
-/

namespace FormulaEngine

variable {Label : Type} {known : Expression → Prop} {before after : Forest}

/-- A converter treats known values alike, and what they convert to is known. -/
structure Converter.Steady (known : Expression → Prop) (before after : Forest)
    (converter : Converter Label) : Prop where
  same : ∀ value target kind, value.Within known →
    converter.convert? after value target kind =
      converter.convert? before value target kind
  within : ∀ value target kind result, value.Within known →
    converter.convert? before value target kind = some result →
      result.Within known

/-- Tables hold known values, and their rules treat known values alike. -/
structure BasicContext.Steady (known : Expression → Prop)
    (before after : Forest) (tables : BasicContext Label) : Prop where
  functions : ∀ name callable, tables.functions.find? name = some callable →
    callable.Within known
  references : ∀ name value, tables.references.find? name = some value →
    value.Within known
  converter : tables.converter.Steady known before after
  truthiness : ∀ rule, tables.truthiness = some rule →
    ∀ value, value.Within known → rule after value = rule before value

/-- A context holds known values, and its rules treat known values alike. -/
def Context.Steady (known : Expression → Prop) (before after : Forest) :
    Context Label → Prop
  | basic tables => tables.Steady known before after
  | hosted rules tables => tables.Steady known before after ∧
      ∀ left right, left.Within known → right.Within known →
        rules.order? after left right = rules.order? before left right
  | scope parent bindings => Steady known before after parent ∧
      ∀ name value, bindings.find? name = some value → value.Within known

/-- Host code is given the same scripts for known values in steady contexts, and
the scripts keep to what is known. -/
structure Host.Steady (known : Expression → Prop) (before after : Forest)
    (host : Host Label) : Prop where
  body : ∀ label (context : Context Label) arguments,
    context.Steady known before after →
      (∀ argument ∈ arguments, argument.Within known) →
        Script.AlikeWithin known (Value.Within known)
          (host.body label before context arguments)
          (host.body label after context arguments)
  rearrange : ∀ label (context : Context Label) arguments,
    context.Steady known before after →
      (∀ argument ∈ arguments, argument.Within known) →
        Script.AlikeWithin known (fun results =>
            ∀ result ∈ results, Value.Within known result)
          (host.rearrange label before context arguments)
          (host.rearrange label after context arguments)
  keeps : ∀ label (context : Context Label) (value : Value Label),
    context.Steady known before after → value.Within known →
      Script.AlikeWithin known (fun _ => True)
        (host.keeps label before context value)
        (host.keeps label after context value)

theorem Forest.ReadsAlike.write (reads : before.ReadsAlike known after)
    {value : Value Label} (isWithin : value.Within known) :
    value.write after = value.write before := by
  cases value with
  | expression placed =>
      simp only [Value.write, ← shape_node, reads.node placed isWithin]
  | _ => rfl

theorem Converter.steady_basic :
    (basic : Converter Label).Steady known before after where
  same value target kind _ := by
    cases target with
    | text => cases value <;> rfl
    | _ => rfl
  within value target kind result isWithin succeeds := by
    rcases Value.convert?_eq_or succeeds with rfl | ⟨isEvaluated, isNoFunction⟩
    · exact isWithin
    · cases result with
      | expression placed => exact (isEvaluated rfl).elim
      | function tag callable => exact (isNoFunction rfl).elim
      | _ => trivial

namespace Context.Steady

variable {context : Context Label}

theorem tables (steady : context.Steady known before after) :
    context.tables.Steady known before after := by
  induction context with
  | basic tables => exact steady
  | hosted rules tables => exact steady.1
  | scope parent bindings ih => exact ih steady.1

theorem order (steady : context.Steady known before after)
    {left right : Value Label} (isLeft : left.Within known)
    (isRight : right.Within known) :
    context.order? before left right = context.order? after left right := by
  induction context with
  | basic tables => rfl
  | hosted rules tables => exact (steady.2 left right isLeft isRight).symm
  | scope parent bindings ih => exact ih steady.1

theorem function_of_tables {tables : BasicContext Label}
    (steady : tables.Steady known before after) {name : FunctionName}
    {callable : Callable Label} (found : tables.function name = .ok callable) :
    callable.Within known := by
  unfold BasicContext.function at found
  split at found
  next registered isRegistered =>
    cases found
    exact steady.functions name _ isRegistered
  next =>
    split at found
    next tag held isHeld =>
      cases found
      exact steady.references _ _ isHeld
    next => cases found

theorem function (steady : context.Steady known before after)
    {name : FunctionName} {callable : Callable Label}
    (found : context.function name = .ok callable) : callable.Within known := by
  induction context with
  | basic tables => exact function_of_tables steady found
  | hosted rules tables => exact function_of_tables steady.1 found
  | scope parent bindings ih =>
      unfold Context.function at found
      split at found
      next tag held isBound =>
        cases found
        exact steady.2 _ _ isBound
      next => exact ih steady.1 found

theorem reference (steady : context.Steady known before after)
    {name : Reference} {value : Value Label}
    (found : context.reference name = .ok (some value)) :
    value.Within known := by
  induction context generalizing name with
  | basic tables => exact steady.references name value (Except.ok.inj found)
  | hosted rules tables =>
      unfold Context.reference at found
      split at found
      next => cases found
      next => exact steady.1.references name value (Except.ok.inj found)
  | scope parent bindings ih =>
      unfold Context.reference at found
      split at found
      next outer _ => exact ih steady.1 found
      next bound _ isBound =>
        cases found
        exact steady.2 name _ isBound
      next => exact ih steady.1 found

theorem resolve (steady : context.Steady known before after)
    {name : Reference} {value : Value Label}
    (found : context.resolve name = .ok value) : value.Within known := by
  obtain ⟨held, isHeld, found⟩ := Attempt.of_bind found
  cases held with
  | none => cases found
  | some held =>
      cases found
      exact steady.reference isHeld

theorem bind (steady : context.Steady known before after)
    {bindings : List (Reference × Value Label)}
    (areWithin : ∀ binding ∈ bindings, binding.2.Within known) :
    (context.bind bindings).Steady known before after :=
  ⟨steady, fun _ _ found => areWithin _ (Table.mem_of_find?_ofList found)⟩

theorem convertAlike (steady : context.Steady known before after)
    (reads : before.ReadsAlike known after) :
    ConvertAlike (Value.Within known) (Value.Within known) before context after
      context where
  kind := rfl
  math := rfl
  isFit _ isWithin := isWithin
  convert value target isWithin := by
    simp only [convert, reads.write isWithin,
      steady.tables.converter.same value target context.kind isWithin]
  converted value target result isWithin succeeds := by
    unfold convert at succeeds
    split at succeeds
    next converted isConverted =>
      cases succeeds
      exact steady.tables.converter.within _ _ _ _ isWithin isConverted
    next => cases succeeds
  write value isWithin := (reads.write isWithin).symm
  order _ _ := steady.order

theorem truthiness (steady : context.Steady known before after)
    {rule : Forest → Value Label → Bool}
    (found : context.truthiness? = some rule) {value : Value Label}
    (isWithin : value.Within known) : rule after value = rule before value := by
  induction context with
  | basic tables => exact BasicContext.Steady.truthiness steady rule found value isWithin
  | hosted rules tables => cases found
  | scope parent bindings ih => exact ih steady.1 found

theorem ruleFor (steady : context.Steady known before after)
    {value : Value Label} (isWithin : value.Within known) :
    (World.ruleFor context value).map (· before value) =
      (World.ruleFor context value).map (· after value) := by
  apply Option.map_congr
  intro rule found
  refine (steady.truthiness ?_ isWithin).symm
  unfold World.ruleFor at found
  split at found
  · cases found
  · cases found
  · exact found

end Context.Steady

theorem Host.steady_answering
    {answer : List (Value Label) → Except EvalError (Value Label)}
    (keeps : ∀ arguments value, (∀ argument ∈ arguments,
      Value.Within known argument) → answer arguments = .ok value →
        value.Within known) : (Host.answering answer).Steady known before after where
  body _ _ arguments _ areWithin :=
    ⟨.done fun value => keeps arguments value areWithin, rfl⟩
  rearrange _ _ _ _ areWithin :=
    ⟨.done (by rintro _ ⟨rfl⟩; exact areWithin), rfl⟩
  keeps _ _ _ _ _ := ⟨.done fun _ _ => trivial, rfl⟩

/-- A world in which known expressions read the same simulates the one before. -/
theorem Host.Steady.simulates {host : Host Label}
    (steady : host.Steady known before after)
    (reads : before.ReadsAlike known after) :
    Simulates known
      (fun context other => context = other ∧ context.Steady known before after)
      ⟨before, host⟩ ⟨after, host⟩ where
  reads := reads
  answers := by
    rintro context _ ⟨rfl, isSteady⟩
    exact
      { isSteady.convertAlike reads with
        function := fun _ => rfl
        functionWithin := fun _ _ => isSteady.function
        resolve := fun _ => ⟨rfl, fun _ => isSteady.resolve⟩ }
  bind := by
    rintro context _ bindings ⟨rfl, isSteady⟩ areWithin
    exact ⟨rfl, isSteady.bind areWithin⟩
  body := by
    rintro label context _ arguments ⟨rfl, isSteady⟩ areWithin
    exact steady.body label context arguments isSteady areWithin
  rearrange := by
    rintro label context _ arguments ⟨rfl, isSteady⟩ areWithin
    exact steady.rearrange label context arguments isSteady areWithin
  keeps := by
    rintro label context _ value ⟨rfl, isSteady⟩ isWithin
    exact steady.keeps label context value isSteady isWithin

/-- Known expressions evaluate in steady contexts as they did before. -/
theorem World.evaluate_of_steady {host : Host Label}
    (steady : host.Steady known before after)
    (reads : before.ReadsAlike known after) {context : Context Label}
    (contextSteady : context.Steady known before after)
    {expression : Expression} (isKnown : known expression) (steps : Nat) :
    (World.mk after host).evaluate steps context expression =
      (World.mk before host).evaluate steps context expression := by
  have agree : ((World.mk before host).machine steps context).Agree .together known
      ((World.mk after host).machine steps context) := by
    refine (steady.simulates reads).machine_agree ?_ (.inl ⟨rfl, nofun⟩)
      ⟨rfl, contextSteady⟩
    rintro context _ ⟨rfl, isSteady⟩ value isWithin
    exact isSteady.ruleFor isWithin
  exact ((agree.evaluate expression isKnown).eq nofun).symm

end FormulaEngine
