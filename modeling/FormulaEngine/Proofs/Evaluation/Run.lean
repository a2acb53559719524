import FormulaEngine.Evaluation.Run
import Mathlib.Data.List.Forall2

/-!
# Comparing runs

Two runs agree when they are one and the same, and their result has a property
that the rest of the computation relies on.  Runs that agree may have to end, or
may be cut off at the same point, or the first of them may be cut off earlier.
Agreement is kept by everything that runs are put together with, so two
evaluations agree as soon as their steps do.
-/

namespace FormulaEngine

variable {Label Result Next : Type}

namespace Run

/-- The result of a run, if it has one, has a property. -/
def Ensures (holds : Result → Prop) (run : Run Label Result) : Prop :=
  ∀ result, run.outcome = .value result → holds result

/-- Where runs that are compared may be cut off: nowhere, only where both are, or
the first one earlier than the second. -/
inductive Stops
  | never | together | earlier

/-- Two runs are the same, with a result of a property; or the first one has been
cut off, where it may be, after some of the calls of the second. -/
inductive Agrees (stops : Stops) (holds : Result → Prop)
    (first second : Run Label Result) : Prop
  | same (equal : first = second) (ensures : first.Ensures holds)
      (ends : stops = .never → first.outcome ≠ .cutOff)
  | stopped (allowed : stops = .earlier) (cutOff : first.outcome = .cutOff)
      (entered : first.calls <+: second.calls)

section Calls

variable (run : Run Label Result)

theorem calls_le_bind (next : Result → Run Label Next) :
    run.calls <+: (run >>= next).calls := by
  obtain ⟨outcome, calls⟩ := run
  cases outcome <;> simp [Bind.bind, Run.bind, after]

theorem calls_le_resume (next : Except EvalError Result → Run Label Next) :
    run.calls <+: (run.resume next).calls := by
  obtain ⟨outcome, calls⟩ := run
  cases outcome <;> simp [Run.resume, after]

@[simp]
theorem calls_noted (note : String) : (run.noted note).calls = run.calls := by
  obtain ⟨outcome, calls⟩ := run
  cases outcome <;> rfl

end Calls

theorem ofExcept_bind (computation : Except EvalError Result)
    (next : Result → Except EvalError Next) :
    (ofExcept (computation >>= next) : Run Label Next) =
      ofExcept computation >>= fun result => ofExcept (next result) := by
  cases computation with
  | error error => rfl
  | ok result => exact (after_nil _).symm

section Ensures

variable {holds weaker : Result → Prop} {run : Run Label Result}

theorem ensures_pure {result : Result} (isHeld : holds result) :
    (pure result : Run Label Result).Ensures holds := by
  rintro other ⟨rfl⟩
  exact isHeld

theorem ensures_ofExcept {computation : Except EvalError Result}
    (isHeld : ∀ result, computation = .ok result → holds result) :
    (ofExcept computation : Run Label Result).Ensures holds := by
  cases computation with
  | ok result => exact ensures_pure (isHeld result rfl)
  | error error => exact nofun

theorem ensures_ofNumeric {computation : Except NumberError Result}
    (isHeld : ∀ result, computation = .ok result → holds result) :
    (ofNumeric computation : Run Label Result).Ensures holds := by
  cases computation with
  | ok result => exact ensures_pure (isHeld result rfl)
  | error error => exact nofun

theorem Ensures.imp (ensures : run.Ensures holds)
    (follows : ∀ result, holds result → weaker result) :
    run.Ensures weaker :=
  fun result ends => follows result (ensures result ends)

theorem ensures_trivially (run : Run Label Result) :
    run.Ensures fun _ => True :=
  fun _ _ => trivial

theorem Ensures.after (ensures : run.Ensures holds)
    (calls : List (HostCall Label)) : (run.after calls).Ensures holds :=
  ensures

theorem Ensures.bind {holdsNext : Next → Prop} (ensures : run.Ensures holds)
    {next : Result → Run Label Next}
    (following : ∀ result, holds result → (next result).Ensures holdsNext) :
    (run >>= next).Ensures holdsNext := by
  obtain ⟨outcome, calls⟩ := run
  cases outcome with
  | value result => exact (following result (ensures result rfl)).after calls
  | error error => exact nofun
  | cutOff => exact nofun

/-- A run over a list ends with one result for each item, in order. -/
theorem ensures_forEach {Item : Type} {step : Item → Run Label Result}
    {holds : Item → Result → Prop} {items : List Item}
    (each : ∀ item ∈ items, (step item).Ensures (holds item)) :
    (forEach step items).Ensures (List.Forall₂ holds items) := by
  induction items with
  | nil => exact ensures_pure .nil
  | cons item items ih =>
      have rest := ih fun other member => each other (List.mem_cons_of_mem _ member)
      refine (each item List.mem_cons_self).bind fun result isHeld => ?_
      refine rest.bind fun results areHeld => ?_
      exact ensures_pure (.cons isHeld areHeld)

theorem outcome_bind_value {result : Result} (ends : run.outcome = .value result)
    (next : Result → Run Label Next) :
    (run >>= next).outcome = (next result).outcome := by
  obtain ⟨outcome, calls⟩ := run
  cases ends
  rfl

theorem outcome_bind_error {error : EvalError}
    (ends : run.outcome = .error error) (next : Result → Run Label Next) :
    (run >>= next).outcome = .error error := by
  obtain ⟨outcome, calls⟩ := run
  cases ends
  rfl

theorem outcome_bind_congr {other : Run Label Result}
    (same : run.outcome = other.outcome) (next : Result → Run Label Next) :
    (run >>= next).outcome = (other >>= next).outcome := by
  obtain ⟨outcome, calls⟩ := run
  obtain ⟨otherOutcome, otherCalls⟩ := other
  cases same
  cases outcome <;> rfl

theorem exists_of_outcome_bind {next : Result → Run Label Next} {result : Next}
    (ends : (run >>= next).outcome = .value result) :
    ∃ between, run.outcome = .value between ∧
      (next between).outcome = .value result := by
  obtain ⟨outcome, calls⟩ := run
  cases outcome with
  | value between => exact ⟨between, rfl, ends⟩
  | error error => cases ends
  | cutOff => cases ends

theorem ok_of_outcome_ofExcept {computation : Except EvalError Result}
    {result : Result}
    (ends : (ofExcept computation : Run Label Result).outcome = .value result) :
    computation = .ok result := by
  cases computation with
  | ok other => cases ends; rfl
  | error error => cases ends

theorem ok_of_outcome_ofNumeric {computation : Except NumberError Result}
    {result : Result}
    (ends : (ofNumeric computation : Run Label Result).outcome = .value result) :
    computation = .ok result := by
  cases computation with
  | ok other => cases ends; rfl
  | error error => cases ends

theorem error_of_outcome_bind {next : Result → Run Label Next} {error : EvalError}
    (fails : (run >>= next).outcome = .error error) :
    run.outcome = .error error ∨
      ∃ between, run.outcome = .value between ∧
        (next between).outcome = .error error := by
  obtain ⟨outcome, calls⟩ := run
  cases outcome with
  | value between => exact .inr ⟨between, rfl, fails⟩
  | error other => cases fails; exact .inl rfl
  | cutOff => cases fails

theorem error_of_outcome_ofExcept {computation : Except EvalError Result}
    {error : EvalError}
    (fails : (ofExcept computation : Run Label Result).outcome = .error error) :
    computation = .error error := by
  cases computation with
  | ok result => cases fails
  | error other => cases fails; rfl

theorem outcome_noted_eq_value {note : String} {result : Result} :
    (run.noted note).outcome = .value result ↔
      run.outcome = .value result := by
  obtain ⟨outcome, calls⟩ := run
  cases outcome <;> simp [noted]

theorem outcome_noted_eq_cutOff {note : String} :
    (run.noted note).outcome = .cutOff ↔ run.outcome = .cutOff := by
  obtain ⟨outcome, calls⟩ := run
  cases outcome <;> simp [noted]

theorem Ensures.noted (ensures : run.Ensures holds) (note : String) :
    (run.noted note).Ensures holds :=
  fun result ends => ensures result (outcome_noted_eq_value.mp ends)

end Ensures

/-- A run that goes on in the same way with the result that it has is the same. -/
theorem bind_congr {run other : Run Label Result} (same : run = other)
    {next following : Result → Run Label Next}
    (nextSame : ∀ result, run.outcome = .value result →
      next result = following result) :
    run >>= next = other >>= following := by
  subst same
  obtain ⟨outcome, calls⟩ := run
  cases outcome with
  | value result => exact congrArg (Run.after calls) (nextSame result rfl)
  | error error => rfl
  | cutOff => rfl

/-- A run over a list is the same if each step is that is reached: one is only
reached if all before it have results. -/
theorem forEach_congr {Item : Type} {step following : Item → Run Label Result}
    {items : List Item}
    (each : ∀ front item back, items = front ++ item :: back →
      ∀ results, (forEach step front).outcome = .value results →
        step item = following item) :
    forEach step items = forEach following items := by
  induction items generalizing step following with
  | nil => rfl
  | cons item items ih =>
      refine bind_congr (each [] item items rfl [] rfl) fun result isResult => ?_
      have rest : forEach step items = forEach following items := by
        refine ih fun front other back isItems results areResults => ?_
        refine each (item :: front) other back (congrArg _ isItems)
          (result :: results) ?_
        rw [forEach, outcome_bind_value isResult, outcome_bind_value areResults]
        rfl
      rw [rest]

section Agrees

variable {stops : Stops} {holds weaker : Result → Prop}
  {holdsNext : Next → Prop} {first second : Run Label Result}

theorem agrees_cutOff (mayStop : stops ≠ .never) :
    (cutOff : Run Label Result).Agrees stops holds cutOff :=
  .same rfl (by rintro result ⟨⟩) fun never => (mayStop never).elim

theorem agrees_stopped (allowed : stops = .earlier) (run : Run Label Result) :
    (cutOff : Run Label Result).Agrees stops holds run :=
  .stopped allowed rfl List.nil_prefix

theorem agrees_pure {result : Result} (isHeld : holds result) :
    (pure result : Run Label Result).Agrees stops holds (pure result) :=
  .same rfl (ensures_pure isHeld) fun _ => nofun

theorem agrees_ofExcept {computation other : Except EvalError Result}
    (equal : computation = other)
    (isHeld : ∀ result, computation = .ok result → holds result) :
    (ofExcept computation : Run Label Result).Agrees stops holds
      (ofExcept other) := by
  subst equal
  cases computation with
  | ok result => exact agrees_pure (isHeld result rfl)
  | error error => exact .same rfl (by rintro result ⟨⟩) fun _ => nofun

theorem agrees_ofNumeric {computation other : Except NumberError Result}
    (equal : computation = other)
    (isHeld : ∀ result, computation = .ok result → holds result) :
    (ofNumeric computation : Run Label Result).Agrees stops holds
      (ofNumeric other) := by
  subst equal
  cases computation with
  | ok result => exact agrees_pure (isHeld result rfl)
  | error error => exact .same rfl (by rintro result ⟨⟩) fun _ => nofun

/-- Runs that agree are equal unless the first was cut off. -/
theorem Agrees.eq_of_finished (agrees : first.Agrees stops holds second)
    (finished : first.outcome ≠ .cutOff) : first = second := by
  cases agrees with
  | same equal ensures ends => exact equal
  | stopped allowed cutOff entered => exact (finished cutOff).elim

theorem Agrees.eq (agrees : first.Agrees stops holds second)
    (together : stops ≠ .earlier) : first = second := by
  cases agrees with
  | same equal ensures ends => exact equal
  | stopped allowed cutOff entered => exact (together allowed).elim

theorem Agrees.ends (agrees : first.Agrees .never holds second) :
    first.outcome ≠ .cutOff := by
  cases agrees with
  | same equal ensures ends => exact ends rfl
  | stopped allowed cutOff entered => cases allowed

theorem Agrees.ensures (agrees : first.Agrees stops holds second) :
    first.Ensures holds := by
  cases agrees with
  | same equal ensures ends => exact ensures
  | stopped allowed cutOff entered =>
      intro result ends
      rw [cutOff] at ends
      cases ends

theorem agrees_itself (run : Run Label Result) :
    run.Agrees .together (fun _ => True) run :=
  .same rfl (ensures_trivially run) nofun

theorem Agrees.imp (agrees : first.Agrees stops holds second)
    (follows : ∀ result, holds result → weaker result) :
    first.Agrees stops weaker second := by
  cases agrees with
  | same equal ensures ends => exact .same equal (ensures.imp follows) ends
  | stopped allowed cutOff entered => exact .stopped allowed cutOff entered

theorem Agrees.after (agrees : first.Agrees stops holds second)
    (calls : List (HostCall Label)) :
    (first.after calls).Agrees stops holds (second.after calls) := by
  cases agrees with
  | same equal ensures ends =>
      subst equal
      exact .same rfl (ensures.after calls) ends
  | stopped allowed cutOff entered =>
      exact .stopped allowed cutOff ((List.prefix_append_right_inj calls).mpr entered)

theorem Agrees.noted (agrees : first.Agrees stops holds second)
    (note : String) :
    (first.noted note).Agrees stops holds (second.noted note) := by
  cases agrees with
  | same equal ensures ends =>
      subst equal
      exact .same rfl (ensures.noted note) fun never cutOff =>
        ends never (outcome_noted_eq_cutOff.mp cutOff)
  | stopped allowed cutOff entered =>
      refine .stopped allowed ?_ (by simpa using entered)
      simp only [Run.noted, cutOff]

theorem Agrees.bind (agrees : first.Agrees stops holds second)
    {next following : Result → Run Label Next}
    (nextAgrees : ∀ result, holds result →
      (next result).Agrees stops holdsNext (following result)) :
    (first >>= next).Agrees stops holdsNext (second >>= following) := by
  cases agrees with
  | same equal ensures ends =>
      subst equal
      obtain ⟨outcome, calls⟩ := first
      cases outcome with
      | value result => exact (nextAgrees result (ensures result rfl)).after calls
      | error error => exact .same rfl (by rintro result ⟨⟩) fun _ => nofun
      | cutOff =>
          exact .same rfl (by rintro result ⟨⟩) fun never => (ends never rfl).elim
  | stopped allowed cutOff entered =>
      have ends : first >>= next = ⟨.cutOff, first.calls⟩ := by
        simp only [Bind.bind, Run.bind, cutOff]
      rw [ends]
      exact .stopped allowed rfl (entered.trans (calls_le_bind second following))

/-- A computation that goes on after errors as well sees results of the
property. -/
theorem Agrees.resume (agrees : first.Agrees stops holds second)
    {next following : Except EvalError Result → Run Label Next}
    (nextAgrees : ∀ answer, (∀ result, answer = .ok result → holds result) →
      (next answer).Agrees stops holdsNext (following answer)) :
    (first.resume next).Agrees stops holdsNext (second.resume following) := by
  cases agrees with
  | same equal ensures ends =>
      subst equal
      obtain ⟨outcome, calls⟩ := first
      cases outcome with
      | value result =>
          have held : ∀ other, (.ok result : Except EvalError Result) = .ok other →
              holds other := by
            rintro other ⟨rfl⟩
            exact ensures result rfl
          exact (nextAgrees (.ok result) held).after calls
      | error error =>
          exact (nextAgrees (.error error) (by rintro other ⟨⟩)).after calls
      | cutOff =>
          exact .same rfl (by rintro result ⟨⟩) fun never => (ends never rfl).elim
  | stopped allowed cutOff entered =>
      have ends : first.resume next = ⟨.cutOff, first.calls⟩ := by
        simp only [Run.resume, cutOff]
      rw [ends]
      exact .stopped allowed rfl
        (entered.trans (calls_le_resume second following))

/-- Runs over two lists agree when they do item by item. -/
theorem agrees_forEach {Item : Type} {step following : Item → Run Label Result}
    {items others : List Item}
    (each : List.Forall₂ (fun item other =>
      (step item).Agrees stops holds (following other)) items others) :
    (forEach step items).Agrees stops
      (fun results => ∀ result ∈ results, holds result)
      (forEach following others) := by
  induction each with
  | nil => exact agrees_pure (by simp)
  | cons head tail ih =>
      refine head.bind fun result isHeld => ih.bind fun results areHeld => ?_
      refine agrees_pure fun other member => ?_
      rcases List.mem_cons.mp member with rfl | member
      · exact isHeld
      · exact areHeld other member

end Agrees

end Run

end FormulaEngine
