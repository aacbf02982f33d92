import C3qo.Execution

/-!
# Forward simulations

A system is simulated by another if each of its steps is matched there by a number of steps, such
that related states stay related. Whole executions are then matched as well.
-/

namespace Execution

variable {ι κ σ τ : Type*}

/-- Every step from related states is matched by an execution of the second system. -/
def Simulated (step : ι → σ → Option σ) (step' : κ → τ → Option τ) (Related : σ → τ → Prop) :
    Prop :=
  ∀ label state next other, Related state other → step label state = some next →
    ∃ labels final, run step' labels other = some final ∧ Related next final

namespace Simulated

variable {step : ι → σ → Option σ} {step' : κ → τ → Option τ} {Related : σ → τ → Prop}

/-- Every execution from related states is matched. -/
theorem run (simulated : Simulated step step' Related) {labels : List ι} {state final : σ}
    {other : τ} (related : Related state other)
    (execution : Execution.run step labels state = some final) :
    ∃ labels' final', Execution.run step' labels' other = some final' ∧ Related final final' := by
  induction labels generalizing state other with
  | nil =>
      obtain rfl := Option.some.inj execution
      exact ⟨[], other, rfl, related⟩
  | cons label labels ih =>
      obtain ⟨next, taken, rest⟩ := Option.bind_eq_some_iff.mp execution
      obtain ⟨first, middle, matched, related'⟩ := simulated label state next other related taken
      obtain ⟨later, final', matched', related''⟩ := ih related' rest
      refine ⟨first ++ later, final', ?_, related''⟩
      rw [run_append, matched]
      exact matched'

end Simulated

end Execution
