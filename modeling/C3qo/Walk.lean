import Mathlib.Data.Finset.Card
import Mathlib.Data.Fintype.Basic

/-!
# Following pointers

`follow` walks along a partial successor function. A walk ends when it meets an element without
a successor. When only finitely many elements are ever reached, the walk ends exactly if it meets
no cycle.
-/

namespace Walk

variable {α : Type*} {next other : α → Option α}

/-- The element reached after a number of steps, or `none` once the walk has ended. -/
def follow (next : α → Option α) : Nat → α → Option α
  | 0, start => some start
  | steps + 1, start => next start >>= follow next steps

/-- The walk comes to an element that has no successor. -/
def Ends (next : α → Option α) (start : α) : Prop :=
  ∃ steps, follow next steps start = none

/-- The walk comes back to an element it has already passed. -/
def Cycles (next : α → Option α) (start : α) : Prop :=
  ∃ before period entry, 0 < period ∧
    follow next before start = some entry ∧ follow next period entry = some entry

@[simp] theorem follow_zero (start : α) : follow next 0 start = some start := rfl

theorem follow_succ (steps : Nat) (start : α) :
    follow next (steps + 1) start = next start >>= follow next steps := rfl

@[simp] theorem follow_one (start : α) : follow next 1 start = next start := by
  cases link : next start <;> simp [follow_succ, link]

theorem follow_add (m n : Nat) (start : α) :
    follow next (m + n) start = follow next m start >>= follow next n := by
  induction m generalizing start with
  | zero => simp
  | succ m ih =>
      rw [Nat.succ_add]
      simp only [follow_succ]
      cases next start with
      | none => rfl
      | some middle => exact ih middle

/-- A walk that ends has a last element. -/
theorem exists_last_of_ends {start : α} (ends : Ends next start) :
    ∃ steps last, follow next steps start = some last ∧ next last = none := by
  obtain ⟨steps, ended⟩ := ends
  induction steps generalizing start with
  | zero => cases ended
  | succ steps ih =>
      rcases link : next start with _ | middle
      · exact ⟨0, start, rfl, link⟩
      · obtain ⟨steps, last, reached, stop⟩ := ih (by simpa [follow_succ, link] using ended)
        exact ⟨steps + 1, last, by rw [follow_succ, link]; exact reached, stop⟩

/-- A walk that has not ended has not ended before either. -/
theorem follow_some_of_le {m n : Nat} {start last : α} (reached : follow next n start = some last)
    (le : m ≤ n) : ∃ middle, follow next m start = some middle := by
  obtain ⟨rest, rfl⟩ := Nat.exists_eq_add_of_le le
  rw [follow_add] at reached
  obtain ⟨middle, here, -⟩ := Option.bind_eq_some_iff.mp reached
  exact ⟨middle, here⟩

/-- A walk that has ended stays ended. -/
theorem follow_none_of_le {m n : Nat} {start : α} (ended : follow next m start = none)
    (le : m ≤ n) : follow next n start = none := by
  obtain ⟨rest, rfl⟩ := Nat.exists_eq_add_of_le le
  rw [follow_add, ended]
  rfl

theorem le_of_last {m n : Nat} {start a b : α} (reached : follow next m start = some a)
    (stop : next a = none) (reached' : follow next n start = some b) : n ≤ m := by
  by_contra longer
  have ended : follow next (m + 1) start = none := by
    rw [follow_add, reached]
    exact (follow_one a).trans stop
  rw [follow_none_of_le ended (by omega)] at reached'
  cases reached'

/-- A walk has one last element. -/
theorem last_unique {m n : Nat} {start a b : α} (reached : follow next m start = some a)
    (stop : next a = none) (reached' : follow next n start = some b) (stop' : next b = none) :
    a = b := by
  obtain rfl : m = n :=
    Nat.le_antisymm (le_of_last reached' stop' reached) (le_of_last reached stop reached')
  exact Option.some.inj (reached.symm.trans reached')

theorem follow_period_mul {period : Nat} {entry : α}
    (back : follow next period entry = some entry) (times : Nat) :
    follow next (times * period) entry = some entry := by
  induction times with
  | zero => simp
  | succ times ih =>
      rw [Nat.succ_mul, follow_add, ih]
      exact back

theorem not_ends_of_cycles {start : α} (cycles : Cycles next start) : ¬Ends next start := by
  rintro ⟨steps, ended⟩
  obtain ⟨before, period, entry, period_pos, reached, back⟩ := cycles
  have around : follow next (before + steps * period) start = some entry := by
    rw [follow_add, reached]
    exact follow_period_mul back steps
  have long : steps ≤ before + steps * period := by
    have : steps * 1 ≤ steps * period := Nat.mul_le_mul_left steps period_pos
    omega
  rw [follow_none_of_le ended long] at around
  cases around

/-- Inside a finite set a walk that never ends closes on itself, by the pigeonhole principle. -/
theorem cycles_of_not_ends (reached : Finset α)
    (closed : ∀ a b, next a = some b → b ∈ reached) {start : α} (endless : ¬Ends next start) :
    Cycles next start := by
  classical
  have defined : ∀ steps, ∃ element, follow next steps start = some element := by
    intro steps
    exact Option.ne_none_iff_exists'.mp fun ended => endless ⟨steps, ended⟩
  choose position position_eq using defined
  have inside : ∀ steps, position (steps + 1) ∈ reached := by
    intro steps
    have last := position_eq (steps + 1)
    rw [follow_add, position_eq steps] at last
    exact closed _ _ ((follow_one (position steps)).symm.trans last)
  obtain ⟨i, _, j, _, i_ne, same⟩ :=
    Finset.exists_ne_map_eq_of_card_lt_of_maps_to
      (s := Finset.range (reached.card + 1)) (t := reached) (by simp)
      (f := fun steps => position (steps + 1)) (fun steps _ => inside steps)
  wlog order : i < j generalizing i j
  · exact this j ‹_› i ‹_› i_ne.symm same.symm (by omega)
  refine ⟨i + 1, j - i, position (i + 1), by omega, position_eq (i + 1), ?_⟩
  have whole := position_eq (j + 1)
  rw [show j + 1 = (i + 1) + (j - i) by omega, follow_add, position_eq (i + 1)] at whole
  have same' : position (i + 1) = position (j + 1) := same
  rw [show (i + 1) + (j - i) = j + 1 by omega, ← same'] at whole
  exact whole

/-- A walk inside a finite set ends exactly if it meets no cycle. -/
theorem ends_iff_not_cycles (reached : Finset α)
    (closed : ∀ a b, next a = some b → b ∈ reached) (start : α) :
    Ends next start ↔ ¬Cycles next start := by
  constructor
  · exact fun ends cycles => not_ends_of_cycles cycles ends
  · intro acyclic
    by_contra endless
    exact acyclic (cycles_of_not_ends reached closed endless)

/-! ## The path of a walk that ends -/

/-- The path lists what is met after the start, up to an element without a successor. -/
def Trail (next : α → Option α) : α → List α → Prop
  | start, [] => next start = none
  | start, step :: path => next start = some step ∧ Trail next step path

theorem Trail.congr (same : ∀ element, other element = next element) {start : α} {path : List α}
    (trail : Trail next start path) : Trail other start path := by
  induction path generalizing start with
  | nil => exact (same start).trans trail
  | cons step path ih => exact ⟨(same start).trans trail.1, ih trail.2⟩

/-- A walk has one path. -/
theorem Trail.unique {start : α} {path path' : List α} (trail : Trail next start path)
    (trail' : Trail next start path') : path = path' := by
  induction path generalizing start path' with
  | nil =>
      cases path' with
      | nil => rfl
      | cons step' path' => cases trail.symm.trans trail'.1
  | cons step path ih =>
      cases path' with
      | nil => cases trail.1.symm.trans trail'
      | cons step' path' =>
          obtain rfl := Option.some.inj (trail.1.symm.trans trail'.1)
          rw [ih trail.2 trail'.2]

/-- What comes after an element of the path is the path of that element. -/
theorem Trail.split {start element : α} {path : List α} (trail : Trail next start path)
    (member : element ∈ path) :
    ∃ before after, path = before ++ element :: after ∧ Trail next element after := by
  induction path generalizing start with
  | nil => cases member
  | cons step path ih =>
      rcases List.mem_cons.mp member with rfl | member
      · exact ⟨[], path, rfl, trail.2⟩
      · obtain ⟨before, after, rfl, rest⟩ := ih trail.2 member
        exact ⟨step :: before, after, rfl, rest⟩

/-- A walk that ends does not come back to its start. -/
theorem Trail.start_not_mem {start : α} {path : List α} (trail : Trail next start path) :
    start ∉ path := by
  intro member
  obtain ⟨before, after, split, again⟩ := trail.split member
  have lengths := congrArg List.length ((trail.unique again).symm.trans split)
  simp only [List.length_append, List.length_cons] at lengths
  omega

/-- A walk that ends meets nothing twice. -/
theorem Trail.nodup {start : α} {path : List α} (trail : Trail next start path) : path.Nodup := by
  induction path generalizing start with
  | nil => exact .nil
  | cons step path ih => exact List.nodup_cons.mpr ⟨trail.2.start_not_mem, ih trail.2⟩

end Walk
