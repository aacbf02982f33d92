import Mathlib.Data.List.Basic
import Mathlib.Logic.Relation

/-!
# Journals

A system executes commands on a part of its state, and keeps a journal of the commands and of
their results. If every step of the system comes to the execution of some commands, then a whole
run does, and all that there is to know about that part of its state can be found by replaying the
journal.
-/

namespace Journal

variable {κ ρ σ τ : Type*}

/-- Execute commands one after the other. -/
def replay (execute : κ → σ → ρ × σ) : List κ → σ → List ρ × σ
  | [], state => ([], state)
  | command :: commands, state =>
      let (result, state) := execute command state
      let (results, state) := replay execute commands state
      (result :: results, state)

@[simp] theorem replay_nil (execute : κ → σ → ρ × σ) (state : σ) :
    replay execute [] state = ([], state) := rfl

theorem replay_append (execute : κ → σ → ρ × σ) (first second : List κ) (state : σ) :
    replay execute (first ++ second) state =
      ((replay execute first state).1 ++ (replay execute second (replay execute first state).2).1,
        (replay execute second (replay execute first state).2).2) := by
  induction first generalizing state with
  | nil => rfl
  | cons command first ih => simp only [List.cons_append, replay, ih]

/-- A system with a journal. -/
structure Journaled (κ ρ σ τ : Type*) where
  /-- What a command does. -/
  execute : κ → σ → ρ × σ
  /-- The commands that have been executed. -/
  journal : τ → List κ
  /-- Their results. -/
  results : τ → List ρ
  /-- The part of the state that they are executed on. -/
  view : τ → σ

/-- Between two states, the commands that have been added to the journal have been executed, and
nothing else. -/
def Journaled.Replays (system : Journaled κ ρ σ τ) (before after : τ) : Prop :=
  ∃ commands, system.journal after = system.journal before ++ commands ∧
    system.results after =
      system.results before ++ (replay system.execute commands (system.view before)).1 ∧
    system.view after = (replay system.execute commands (system.view before)).2

namespace Journaled.Replays

variable {system : Journaled κ ρ σ τ} {first second third : τ}

/-- Nothing has been executed. -/
theorem silent (journal : system.journal second = system.journal first)
    (results : system.results second = system.results first)
    (view : system.view second = system.view first) : system.Replays first second :=
  ⟨[], by simp [journal], by simp [results], view⟩

theorem refl (state : τ) : system.Replays state state := silent rfl rfl rfl

/-- One command has been executed. -/
theorem single (command : κ) (journal : system.journal second = system.journal first ++ [command])
    (results : system.results second =
      system.results first ++ [(system.execute command (system.view first)).1])
    (view : system.view second = (system.execute command (system.view first)).2) :
    system.Replays first second :=
  ⟨[command], journal, results, view⟩

theorem trans (left : system.Replays first second) (right : system.Replays second third) :
    system.Replays first third := by
  obtain ⟨commands, journal, results, view⟩ := left
  obtain ⟨commands', journal', results', view'⟩ := right
  refine ⟨commands ++ commands', ?_, ?_, ?_⟩
  · rw [journal', journal, List.append_assoc]
  · rw [replay_append, results', results, view, List.append_assoc]
  · rw [replay_append, view', view]

/-- If every step executes what it adds to the journal, as long as an invariant holds that it
keeps, then every run does. -/
theorem of_steps {Step : τ → τ → Prop} {Holds : τ → Prop}
    (kept : ∀ before after, Holds before → Step before after → Holds after)
    (replays : ∀ before after, Holds before → Step before after → system.Replays before after)
    (start : Holds first) (steps : Relation.ReflTransGen Step first second) :
    system.Replays first second ∧ Holds second := by
  induction steps with
  | refl => exact ⟨refl first, start⟩
  | tail _ step ih =>
      obtain ⟨before, holds⟩ := ih
      exact ⟨before.trans (replays _ _ holds step), kept _ _ holds step⟩

/-- A journal that was empty holds all that has been executed. -/
theorem whole (replays : system.Replays first second) (fresh : system.journal first = [])
    (none_yet : system.results first = []) :
    replay system.execute (system.journal second) (system.view first) =
      (system.results second, system.view second) := by
  obtain ⟨commands, journal, results, view⟩ := replays
  rw [fresh, List.nil_append] at journal
  rw [none_yet, List.nil_append] at results
  rw [journal, results, view]

end Journaled.Replays

end Journal
