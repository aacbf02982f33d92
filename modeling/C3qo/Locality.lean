import Mathlib.Data.Set.Lattice
import Mathlib.Logic.Function.Basic
import Mathlib.Order.CompletePartialOrder

/-!
# Operations that know a few keys only

An operation on a store is local to some keys if it changes nothing else, and if its result and
what it leaves at these keys depend on nothing else. Operations that are local to disjoint sets of
keys commute: neither can tell whether the other has run before.
-/

namespace Locality

variable {κ ν ρ σ : Type*}

/-- An operation on a store: its result, and the store after it. -/
abbrev Op (κ ν ρ : Type*) := (κ → ν) → ρ × (κ → ν)

/-- The operation knows no other keys. -/
structure LocalTo (keys : Set κ) (op : Op κ ν ρ) : Prop where
  /-- Values at other keys are left alone. -/
  frame : ∀ store, ∀ key ∉ keys, (op store).2 key = store key
  /-- Values at other keys are not looked at. -/
  congr : ∀ store other, (∀ key ∈ keys, store key = other key) →
    (op store).1 = (op other).1 ∧ ∀ key ∈ keys, (op store).2 key = (op other).2 key

/-- An operation that only returns a result knows no keys. -/
theorem localTo_pure (result : ρ) : LocalTo ∅ (fun store : κ → ν => (result, store)) :=
  ⟨fun _ _ _ => rfl, fun _ _ _ => ⟨rfl, fun _ member => absurd member (Set.notMem_empty _)⟩⟩

section Commute

variable {keys keys' : Set κ} {op : Op κ ν ρ} {op' : Op κ ν σ}

/-- An operation does not notice another one that knows none of its keys. -/
theorem LocalTo.unnoticed (left : LocalTo keys op) (right : LocalTo keys' op')
    (apart : Disjoint keys keys') (store : κ → ν) :
    (op (op' store).2).1 = (op store).1 ∧
      ∀ key ∈ keys, (op (op' store).2).2 key = (op store).2 key :=
  left.congr _ _ fun key member =>
    right.frame store key fun member' => Set.disjoint_left.mp apart member member'

/-- Operations that know different keys have the same results in both orders, and lead to the same
store. -/
theorem LocalTo.commute (left : LocalTo keys op) (right : LocalTo keys' op')
    (apart : Disjoint keys keys') (store : κ → ν) :
    (op (op' store).2).1 = (op store).1 ∧ (op' (op store).2).1 = (op' store).1 ∧
      (op' (op store).2).2 = (op (op' store).2).2 := by
  obtain ⟨result, kept⟩ := left.unnoticed right apart store
  obtain ⟨result', kept'⟩ := right.unnoticed left apart.symm store
  refine ⟨result, result', funext fun key => ?_⟩
  by_cases member : key ∈ keys
  · have other : key ∉ keys' := fun member' => Set.disjoint_left.mp apart member member'
    rw [right.frame _ key other, kept key member]
  · rw [left.frame _ key member]
    by_cases member' : key ∈ keys'
    · exact kept' key member'
    · rw [right.frame _ key member', left.frame _ key member, right.frame _ key member']

end Commute

section Act

variable [DecidableEq κ]

/-- Look at the values of two keys, and rewrite the first one or refuse. -/
def act (key read : κ) (revise : ν → ν → Option ν) : Op κ ν Bool := fun store =>
  match revise (store key) (store read) with
  | none => (false, store)
  | some value => (true, Function.update store key value)

theorem act_of_some {key read : κ} {revise : ν → ν → Option ν} {store : κ → ν} {value : ν}
    (done : revise (store key) (store read) = some value) :
    act key read revise store = (true, Function.update store key value) := by
  unfold act
  rw [done]

theorem act_of_none {key read : κ} {revise : ν → ν → Option ν} {store : κ → ν}
    (refused : revise (store key) (store read) = none) :
    act key read revise store = (false, store) := by
  unfold act
  rw [refused]

theorem localTo_act (key read : κ) (revise : ν → ν → Option ν) :
    LocalTo {key, read} (act key read revise) := by
  constructor
  · intro store other absent
    have different : other ≠ key := fun same => absent (Set.mem_insert_iff.mpr (.inl same))
    cases done : revise (store key) (store read) with
    | none => rw [act_of_none done]
    | some value =>
        rw [act_of_some done]
        exact Function.update_of_ne different value store
  · intro store other same
    have at_key : store key = other key := same key (Set.mem_insert key {read})
    have at_read : store read = other read := same read (Set.mem_insert_of_mem key rfl)
    cases done : revise (store key) (store read) with
    | none =>
        rw [act_of_none done, act_of_none (by rw [← at_key, ← at_read, done])]
        exact ⟨rfl, same⟩
    | some value =>
        rw [act_of_some done, act_of_some (by rw [← at_key, ← at_read, done])]
        refine ⟨rfl, fun there member => ?_⟩
        change Function.update store key value there = Function.update other key value there
        by_cases own : there = key
        · rw [own, Function.update_self, Function.update_self]
        · rw [Function.update_of_ne own, Function.update_of_ne own]
          exact same there member

end Act

end Locality
