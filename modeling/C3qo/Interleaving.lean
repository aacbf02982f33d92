import C3qo.Execution
import Mathlib.Logic.Function.Basic
import Mathlib.Tactic.SplitIfs

/-!
# Interleavings

Components with a state of their own take their steps in any order. An execution of all of them
comes to an execution of each, by the steps that are its own: no component sees when the others
take theirs.
-/

/-- A component whose part of each step is a step of its own, or none, executes these steps. -/
theorem Execution.run_filterMap {ι κ σ τ : Type*} {step : ι → σ → Option σ}
    {own_step : κ → τ → Option τ} {view : σ → τ} {own : ι → Option κ}
    (shows : ∀ label state next, step label state = some next →
      run own_step (own label).toList (view state) = some (view next))
    {labels : List ι} {state final : σ} (execution : run step labels state = some final) :
    run own_step (labels.filterMap own) (view state) = some (view final) := by
  induction labels generalizing state with
  | nil =>
      obtain rfl := Option.some.inj execution
      rfl
  | cons label labels ih =>
      obtain ⟨next, taken, rest⟩ := Option.bind_eq_some_iff.mp execution
      have split : (label :: labels).filterMap own =
          (own label).toList ++ labels.filterMap own := by
        cases found : own label <;> simp [found]
      rw [split, run_append, shows label state next taken]
      exact ih rest

namespace Interleaving

variable {ι α σ : Type*} [DecidableEq ι] {perform : ι → α → σ → Option σ}

/-- A step of one component, with its label. -/
def step (perform : ι → α → σ → Option σ) (label : ι × α) (states : ι → σ) : Option (ι → σ) :=
  (perform label.1 label.2 (states label.1)).map (Function.update states label.1)

/-- The labels of a component. -/
def labelsOf (component : ι) (labels : List (ι × α)) : List α :=
  (labels.filter fun label => label.1 = component).map Prod.snd

theorem labelsOf_own (component : ι) (label : α) (labels : List (ι × α)) :
    labelsOf component ((component, label) :: labels) = label :: labelsOf component labels := by
  simp [labelsOf]

theorem labelsOf_other {component other : ι} (different : other ≠ component) (label : α)
    (labels : List (ι × α)) :
    labelsOf component ((other, label) :: labels) = labelsOf component labels := by
  simp [labelsOf, different]

theorem mem_labelsOf {component : ι} {label : α} {labels : List (ι × α)} :
    label ∈ labelsOf component labels ↔ (component, label) ∈ labels := by
  simp [labelsOf]

/-- An execution is one of each component. -/
theorem run_iff {labels : List (ι × α)} {states final : ι → σ} :
    Execution.run (step perform) labels states = some final ↔
      ∀ component, Execution.run (perform component) (labelsOf component labels)
        (states component) = some (final component) := by
  induction labels generalizing states with
  | nil =>
      constructor
      · intro done component
        rw [← Option.some.inj done]
        rfl
      · exact fun done => congrArg some (funext fun component => Option.some.inj (done component))
  | cons label labels ih =>
      obtain ⟨own, label⟩ := label
      constructor
      · intro execution component
        obtain ⟨next, taken, rest⟩ := Option.bind_eq_some_iff.mp execution
        obtain ⟨state, performed, rfl⟩ := Option.map_eq_some_iff.mp taken
        have later := ih.mp rest component
        by_cases same : component = own
        · subst same
          rw [Function.update_self] at later
          rw [labelsOf_own, Execution.run_cons, performed]
          exact later
        · rw [Function.update_of_ne same] at later
          rwa [labelsOf_other (Ne.symm same)]
      · intro executions
        have first := executions own
        rw [labelsOf_own] at first
        obtain ⟨state, performed, later⟩ := Option.bind_eq_some_iff.mp first
        refine Option.bind_eq_some_iff.mpr ⟨Function.update states own state, ?_, ih.mpr ?_⟩
        · exact Option.map_eq_some_iff.mpr ⟨state, performed, rfl⟩
        · intro component
          by_cases same : component = own
          · subst same
            rw [Function.update_self]
            exact later
          · have untouched := executions component
            rw [labelsOf_other (Ne.symm same)] at untouched
            rwa [Function.update_of_ne same]

end Interleaving
