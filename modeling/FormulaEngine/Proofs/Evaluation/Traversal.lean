import FormulaEngine.Evaluation.Run
import Mathlib.Data.List.Forall2

/-!
# Runs that enter sites in order

A run traverses a list of sites when it enters host code once for each of them,
in their order.  A run that fails, or that is cut off, stops somewhere on the way.
Runs that follow each other traverse their sites one list after the other.
-/

namespace FormulaEngine

variable {Label Result Next Site : Type}

namespace Run

/-- A run that ends with a value has entered all sites, and the value has a
property; any other run has entered the first ones. -/
inductive Traverses (enters : Site → HostCall Label → Prop)
    (holds : Result → Prop) (sites : List Site) (run : Run Label Result) : Prop
  | finished {result : Result} (ends : run.outcome = .value result)
      (isHeld : holds result) (all : List.Forall₂ enters sites run.calls)
  | stopped (stops : ∀ result, run.outcome ≠ .value result) {entered : List Site}
      (first : entered <+: sites) (each : List.Forall₂ enters entered run.calls)

section Traverses

variable {enters : Site → HostCall Label → Prop} {holds weaker : Result → Prop}
  {holdsNext : Next → Prop} {sites rest : List Site} {run : Run Label Result}

theorem traverses_pure {result : Result} (isHeld : holds result) :
    (pure result : Run Label Result).Traverses enters holds [] :=
  .finished rfl isHeld .nil

theorem traverses_fail (error : EvalError) :
    (fail error : Run Label Result).Traverses enters holds sites :=
  .stopped (by simp [fail]) List.nil_prefix .nil

theorem traverses_cutOff :
    (cutOff : Run Label Result).Traverses enters holds sites :=
  .stopped (by simp [cutOff]) List.nil_prefix .nil

theorem traverses_ofExcept {computation : Except EvalError Result}
    (isHeld : ∀ result, computation = .ok result → holds result) :
    (ofExcept computation : Run Label Result).Traverses enters holds [] := by
  cases computation with
  | ok result => exact traverses_pure (isHeld result rfl)
  | error error => exact traverses_fail error

theorem traverses_ofNumeric {computation : Except NumberError Result}
    (isHeld : ∀ result, computation = .ok result → holds result) :
    (ofNumeric computation : Run Label Result).Traverses enters holds [] := by
  cases computation with
  | ok result => exact traverses_pure (isHeld result rfl)
  | error error => exact traverses_fail error.toEvalError

/-- Whatever the outcome, the sites that have been entered come first. -/
theorem Traverses.entered (traverses : run.Traverses enters holds sites) :
    ∃ entered, entered <+: sites ∧ List.Forall₂ enters entered run.calls := by
  cases traverses with
  | finished ends isHeld all => exact ⟨sites, List.prefix_refl _, all⟩
  | stopped stops first each => exact ⟨_, first, each⟩

theorem Traverses.all (traverses : run.Traverses enters holds sites)
    {result : Result} (ends : run.outcome = .value result) :
    List.Forall₂ enters sites run.calls := by
  cases traverses with
  | finished _ _ all => exact all
  | stopped stops _ _ => exact (stops result ends).elim

theorem Traverses.holds_of_value (traverses : run.Traverses enters holds sites)
    {result : Result} (ends : run.outcome = .value result) : holds result := by
  cases traverses with
  | finished ends' isHeld _ =>
      rw [ends] at ends'
      cases ends'
      exact isHeld
  | stopped stops _ _ => exact (stops result ends).elim

theorem Traverses.calls_eq_nil (traverses : run.Traverses enters holds []) :
    run.calls = [] := by
  obtain ⟨entered, first, each⟩ := traverses.entered
  obtain rfl := List.prefix_nil.mp first
  exact List.forall₂_nil_left_iff.mp each

theorem Traverses.imp (traverses : run.Traverses enters holds sites)
    (follows : ∀ result, holds result → weaker result) :
    run.Traverses enters weaker sites := by
  cases traverses with
  | finished ends isHeld all => exact .finished ends (follows _ isHeld) all
  | stopped stops first each => exact .stopped stops first each

theorem Traverses.after {calls : List (HostCall Label)} {earlier : List Site}
    (each : List.Forall₂ enters earlier calls)
    (traverses : run.Traverses enters holds sites) :
    (run.after calls).Traverses enters holds (earlier ++ sites) := by
  cases traverses with
  | finished ends isHeld all =>
      exact .finished ends isHeld (List.rel_append each all)
  | stopped stops first later =>
      exact .stopped stops ((List.prefix_append_right_inj earlier).mpr first)
        (List.rel_append each later)

theorem Traverses.bind (traverses : run.Traverses enters holds sites)
    {next : Result → Run Label Next}
    (following : ∀ result, holds result →
      (next result).Traverses enters holdsNext rest) :
    (run >>= next).Traverses enters holdsNext (sites ++ rest) := by
  obtain ⟨outcome, calls⟩ := run
  cases traverses with
  | finished ends isHeld all =>
      cases ends
      exact (following _ isHeld).after all
  | stopped stops first each =>
      have early := first.trans (List.prefix_append sites rest)
      cases outcome with
      | value result => exact (stops result rfl).elim
      | error error =>
          exact .stopped (by simp [Bind.bind, Run.bind]) early each
      | cutOff => exact .stopped (by simp [Bind.bind, Run.bind]) early each

theorem Traverses.noted (traverses : run.Traverses enters holds sites)
    (note : String) : (run.noted note).Traverses enters holds sites := by
  obtain ⟨outcome, calls⟩ := run
  cases traverses with
  | finished ends isHeld all => cases ends; exact .finished rfl isHeld all
  | stopped stops first each =>
      cases outcome with
      | value result => exact (stops result rfl).elim
      | error error => exact .stopped (by simp [Run.noted]) first each
      | cutOff => exact .stopped (by simp [Run.noted]) first each

/-- A computation that goes on after errors as well traverses no site if its parts
do not. -/
theorem Traverses.resume (traverses : run.Traverses enters holds [])
    {next : Except EvalError Result → Run Label Next}
    (following : ∀ answer, (next answer).Traverses enters holdsNext []) :
    (run.resume next).Traverses enters holdsNext [] := by
  obtain ⟨outcome, calls⟩ := run
  obtain ⟨entered, first, each⟩ := traverses.entered
  obtain rfl := List.prefix_nil.mp first
  cases outcome with
  | value result => exact (following (.ok result)).after each
  | error error => exact (following (.error error)).after each
  | cutOff => exact .stopped (by simp [Run.resume]) List.nil_prefix each

/-- Runs over a list traverse the sites of its items one after the other. -/
theorem traverses_forEach {Item : Type} {step : Item → Run Label Result}
    {items : List Item} {sitesOf : List (List Site)}
    (each : List.Forall₂ (fun item sites =>
      (step item).Traverses enters holds sites) items sitesOf) :
    (forEach step items).Traverses enters
      (fun results => (∀ result ∈ results, holds result) ∧
        results.length = items.length) sitesOf.flatten := by
  induction each with
  | nil => exact traverses_pure (by simp)
  | cons head tail ih =>
      refine head.bind fun result isHeld => ?_
      rw [← List.append_nil (List.flatten _)]
      refine ih.bind fun results areHeld => traverses_pure ⟨?_, ?_⟩
      · exact List.forall_mem_cons.mpr ⟨isHeld, areHeld.1⟩
      · simp [areHeld.2]

end Traverses

end Run

end FormulaEngine
