import Mathlib.Order.Defs.Unbundled

/-!
# Computations with a state

A computation that fails keeps the state it has reached.  Two kinds of facts are
proved about such computations.  The first relates the states before and after
every run, failed ones included.  The second describes the run from one state:
what it returns if it succeeds, and how it fails if it does not.
-/

namespace FormulaEngine

namespace Stateful

variable {Error State First Second : Type}

/-- The state that a run ends in, whether it succeeds or fails. -/
def finalState : EStateM.Result Error State First → State
  | .ok _ state | .error _ state => state

theorem bind_of_ok {first : EStateM Error State First}
    {next : First → EStateM Error State Second} {before middle : State}
    {value : First} (succeeds : first before = .ok value middle) :
    (first >>= next) before = next value middle := by
  simp only [bind, EStateM.bind, succeeds]

/-- Every run of a computation takes a state to a related one. -/
def Along (relation : State → State → Prop)
    (computation : EStateM Error State First) : Prop :=
  ∀ before, relation before (finalState (computation before))

theorem along_get_bind {relation : State → State → Prop}
    {next : State → EStateM Error State Second}
    (nextAlong : ∀ state, Along relation (next state)) :
    Along relation (get >>= next) :=
  fun before => nextAlong before before

section Preorder

variable {relation : State → State → Prop} [IsPreorder State relation]

theorem along_pure (value : First) :
    Along relation (pure value : EStateM Error State First) :=
  fun before => refl_of relation before

theorem along_throw (cause : Error) :
    Along relation (throw cause : EStateM Error State First) :=
  fun before => refl_of relation before

theorem along_bind {first : EStateM Error State First}
    {next : First → EStateM Error State Second}
    (firstAlong : Along relation first)
    (nextAlong : ∀ value, Along relation (next value)) :
    Along relation (first >>= next) := by
  intro before
  have toMiddle := firstAlong before
  cases run : first before with
  | ok value middle =>
      rw [bind_of_ok run]
      rw [run] at toMiddle
      exact trans_of relation toMiddle (nextAlong value middle)
  | error cause middle =>
      rw [run] at toMiddle
      simpa [bind, EStateM.bind, run, finalState] using toMiddle

end Preorder

/-- The run from one state returns a described result or fails in a described
way. -/
def Leads (computation : EStateM Error State First) (before : State)
    (returns : First → State → Prop) (fails : Error → State → Prop) : Prop :=
  match computation before with
  | .ok value after => returns value after
  | .error cause after => fails cause after

section Leads

variable {before after : State} {fails : Error → State → Prop}
  {returns : First → State → Prop} {returnsNext : Second → State → Prop}
  {first : EStateM Error State First}
  {next : First → EStateM Error State Second}

theorem Leads.of_ok (leads : Leads first before returns fails) {value : First}
    (run : first before = .ok value after) : returns value after := by
  simpa only [Leads, run] using leads

theorem Leads.of_error (leads : Leads first before returns fails)
    {cause : Error} (run : first before = .error cause after) :
    fails cause after := by
  simpa only [Leads, run] using leads

/-- A computation that cannot fail from a state succeeds. -/
theorem Leads.succeeds (leads : Leads first before returns fails)
    (never : ∀ cause after, ¬ fails cause after) :
    ∃ value after, first before = .ok value after ∧ returns value after := by
  cases run : first before with
  | ok value after => exact ⟨value, after, rfl, leads.of_ok run⟩
  | error cause after => exact (never cause after (leads.of_error run)).elim

theorem leads_pure {value : First} (holds : returns value before) :
    Leads (pure value) before returns fails :=
  holds

theorem leads_throw {cause : Error} (holds : fails cause before) :
    Leads (throw cause) before returns fails :=
  holds

theorem leads_get_bind {next : State → EStateM Error State Second}
    (leads : Leads (next before) before returnsNext fails) :
    Leads (get >>= next) before returnsNext fails :=
  leads

theorem leads_bind_of_ok {middle : State} {value : First}
    (succeeds : first before = .ok value middle)
    (leads : Leads (next value) middle returnsNext fails) :
    Leads (first >>= next) before returnsNext fails := by
  simpa only [Leads, bind_of_ok succeeds] using leads

theorem leads_bind (firstLeads : Leads first before returns fails)
    (nextLeads : ∀ value middle, returns value middle →
      Leads (next value) middle returnsNext fails) :
    Leads (first >>= next) before returnsNext fails := by
  cases run : first before with
  | ok value middle =>
      exact leads_bind_of_ok run (nextLeads value middle (firstLeads.of_ok run))
  | error cause middle =>
      have failed := firstLeads.of_error run
      simpa [Leads, bind, EStateM.bind, run] using failed

theorem Leads.imp {weaker : First → State → Prop}
    (leads : Leads first before returns fails)
    (follows : ∀ value after, returns value after → weaker value after) :
    Leads first before weaker fails := by
  cases run : first before with
  | ok value after =>
      simpa only [Leads, run] using follows value after (leads.of_ok run)
  | error cause after => simpa only [Leads, run] using leads.of_error run

/-- What every run does, the run that returns does as well. -/
theorem Leads.along {relation : State → State → Prop}
    (leads : Leads first before returns fails)
    (every : Along relation first) :
    Leads first before
      (fun value after => relation before after ∧ returns value after)
      fails := by
  have related := every before
  cases run : first before with
  | ok value after =>
      rw [run] at related
      simp only [Leads, run]
      exact ⟨related, leads.of_ok run⟩
  | error cause after => simpa only [Leads, run] using leads.of_error run

theorem Leads.imp_error {weaker : Error → State → Prop}
    (leads : Leads first before returns fails)
    (follows : ∀ cause after, fails cause after → weaker cause after) :
    Leads first before returns weaker := by
  cases run : first before with
  | ok value after => simpa only [Leads, run] using leads.of_ok run
  | error cause after =>
      simpa only [Leads, run] using follows cause after (leads.of_error run)

end Leads

end Stateful

end FormulaEngine
