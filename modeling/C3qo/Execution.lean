import Mathlib.Logic.Relation

/-!
# Labelled executions of a partial step function

A system is a partial step function on its states, one label for each operation. An execution is
a list of labels. A property of single steps becomes a property of all executions through the
rules below, and a property that one operation can break is matched against the exact guard on
that operation.
-/

namespace Execution

variable {ι σ : Type*}

/-- Take the labelled steps in order, failing with the first step that has no result. -/
def run (step : ι → σ → Option σ) : List ι → σ → Option σ
  | [], state => some state
  | label :: labels, state => step label state >>= run step labels

/-- The property holds in every state the execution passes through, its start included. -/
def Throughout (step : ι → σ → Option σ) (Holds : σ → Prop) : List ι → σ → Prop
  | [], state => Holds state
  | label :: labels, state =>
      Holds state ∧ ∀ next, step label state = some next → Throughout step Holds labels next

/-- Every step that the execution takes is allowed in the state it is taken from. -/
def Guarded (step : ι → σ → Option σ) (Allowed : ι → σ → Prop) : List ι → σ → Prop
  | [], _ => True
  | label :: labels, state =>
      ∀ next, step label state = some next →
        Allowed label state ∧ Guarded step Allowed labels next

variable {step : ι → σ → Option σ} {Invariant Holds : σ → Prop} {Allowed : ι → σ → Prop}

@[simp] theorem run_cons (label : ι) (labels : List ι) (state : σ) :
    run step (label :: labels) state = step label state >>= run step labels := rfl

theorem run_append (left right : List ι) (state : σ) :
    run step (left ++ right) state = run step left state >>= run step right := by
  induction left generalizing state with
  | nil => rfl
  | cons label left ih =>
      simp only [List.cons_append, run_cons]
      cases step label state with
      | none => rfl
      | some next => exact ih next

/-- A property that no step loses holds at the end of every execution. -/
theorem invariant_of_run
    (preserved : ∀ label state next, Invariant state → step label state = some next →
      Invariant next)
    {labels : List ι} {state final : σ} (start : Invariant state)
    (execution : run step labels state = some final) : Invariant final := by
  induction labels generalizing state with
  | nil =>
      obtain rfl := Option.some.inj execution
      exact start
  | cons label labels ih =>
      obtain ⟨next, taken, rest⟩ := Option.bind_eq_some_iff.mp execution
      exact ih (preserved label state next start taken) rest

theorem throughout_start {labels : List ι} {state : σ}
    (throughout : Throughout step Holds labels state) : Holds state := by
  cases labels with
  | nil => exact throughout
  | cons label labels => exact throughout.1

theorem throughout_final {labels : List ι} {state final : σ}
    (throughout : Throughout step Holds labels state)
    (execution : run step labels state = some final) : Holds final := by
  induction labels generalizing state with
  | nil =>
      obtain rfl := Option.some.inj execution
      exact throughout
  | cons label labels ih =>
      obtain ⟨next, taken, rest⟩ := Option.bind_eq_some_iff.mp execution
      exact ih (throughout.2 next taken) rest

/-- A property that allowed steps keep holds throughout every execution made of allowed steps. -/
theorem throughout_of_guarded
    (preserved : ∀ label state next, Holds state → Allowed label state →
      step label state = some next → Holds next)
    {labels : List ι} {state : σ} (start : Holds state)
    (guarded : Guarded step Allowed labels state) : Throughout step Holds labels state := by
  induction labels generalizing state with
  | nil => exact start
  | cons label labels ih =>
      refine ⟨start, fun next taken => ?_⟩
      obtain ⟨allowed, rest⟩ := guarded next taken
      exact ih (preserved label state next start allowed taken) rest

/-- When a step keeps the property exactly if it is allowed, an execution keeps the property
throughout exactly if all its steps are allowed. -/
theorem throughout_iff_guarded
    (exact_step : ∀ label state next, Holds state → step label state = some next →
      (Holds next ↔ Allowed label state))
    {labels : List ι} {state : σ} (start : Holds state) :
    Throughout step Holds labels state ↔ Guarded step Allowed labels state := by
  constructor
  · intro throughout
    induction labels generalizing state with
    | nil => trivial
    | cons label labels ih =>
        intro next taken
        have later := throughout.2 next taken
        have holds := throughout_start later
        exact ⟨(exact_step label state next start taken).mp holds, ih holds later⟩
  · exact throughout_of_guarded (fun label state next holds allowed taken =>
      (exact_step label state next holds taken).mpr allowed) start

theorem guarded_of_forall (allowed : ∀ label state, Allowed label state) (labels : List ι)
    (state : σ) : Guarded step Allowed labels state := by
  induction labels generalizing state with
  | nil => trivial
  | cons label labels ih => exact fun next _ => ⟨allowed label state, ih next⟩

/-- The same with an invariant that says more than the property: allowed steps keep the invariant,
and a step that keeps the property is allowed. -/
theorem throughout_iff_guarded_of_invariant (Invariant : σ → Prop)
    (sound : ∀ state, Invariant state → Holds state)
    (kept : ∀ label state next, Invariant state → Allowed label state →
      step label state = some next → Invariant next)
    (needed : ∀ label state next, Invariant state → step label state = some next →
      Holds next → Allowed label state)
    {labels : List ι} {state : σ} (start : Invariant state) :
    Throughout step Holds labels state ↔ Guarded step Allowed labels state := by
  induction labels generalizing state with
  | nil => exact iff_of_true (sound state start) trivial
  | cons label labels ih =>
      constructor
      · intro throughout next taken
        have later := throughout.2 next taken
        have allowed := needed label state next start taken (throughout_start later)
        exact ⟨allowed, (ih (kept label state next start allowed taken)).mp later⟩
      · intro guarded
        refine ⟨sound state start, fun next taken => ?_⟩
        obtain ⟨allowed, rest⟩ := guarded next taken
        exact (ih (kept label state next start allowed taken)).mpr rest

end Execution
