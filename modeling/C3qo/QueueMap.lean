import C3qo.DeadlineQueue
import Mathlib.Data.Finmap

/-!
# Queues as finite maps

A queue with at most one entry for each name stands for the finite map from names to entries. The
operations on queues are then insertion and erasure in that map, and taking the first entry off
erases its name.
-/

namespace DeadlineQueue

variable {α κ ι : Type*} [LinearOrder κ] [DecidableEq ι] {deadline : α → κ} {name : α → ι}

/-- The queue holds exactly the entries of the map, each of them once and under its name. -/
structure Represents (name : α → ι) (queue : List α) (map : Finmap fun _ : ι => α) : Prop where
  /-- No name occurs twice. -/
  distinct : (queue.map name).Nodup
  /-- The map finds the entries of the queue. -/
  entries : ∀ target entry,
    map.lookup target = some entry ↔ entry ∈ queue ∧ name entry = target

namespace Represents

variable {queue : List α} {map : Finmap fun _ : ι => α}

theorem nil : Represents name ([] : List α) ∅ := ⟨.nil, by simp⟩

/-- Putting an entry sets the value of its name. -/
theorem put (represents : Represents name queue map)
    (ordered : Ordered deadline name queue) (entry : α) :
    Represents name (DeadlineQueue.put deadline name entry queue)
      (map.insert (name entry) entry) := by
  refine ⟨(ordered.put entry).distinct, fun target other => ?_⟩
  rw [mem_put]
  by_cases same : target = name entry
  · subst same
    rw [Finmap.lookup_insert, Option.some.injEq]
    constructor
    · rintro rfl
      exact ⟨.inl rfl, rfl⟩
    · rintro ⟨rfl | ⟨-, different⟩, named⟩
      · rfl
      · exact absurd named different
  · rw [Finmap.lookup_insert_of_ne _ same, represents.entries]
    constructor
    · rintro ⟨member, rfl⟩
      exact ⟨.inr ⟨member, same⟩, rfl⟩
    · rintro ⟨rfl | ⟨member, -⟩, rfl⟩
      · exact absurd rfl same
      · exact ⟨member, rfl⟩

/-- Removing a name erases it. -/
theorem drop (represents : Represents name queue map) (target : ι) :
    Represents name (DeadlineQueue.drop name target queue) (map.erase target) := by
  refine ⟨represents.distinct.sublist (List.filter_sublist.map name), fun other entry => ?_⟩
  rw [mem_drop]
  by_cases same : other = target
  · subst same
    rw [Finmap.lookup_erase]
    exact iff_of_false (by simp) fun ⟨⟨_, different⟩, named⟩ => different named
  · rw [Finmap.lookup_erase_ne same, represents.entries]
    constructor
    · rintro ⟨member, rfl⟩
      exact ⟨⟨member, same⟩, rfl⟩
    · rintro ⟨⟨member, -⟩, named⟩
      exact ⟨member, named⟩

/-- The first entry is the only one with its name. -/
theorem drop_head {entry : α} (distinct : ((entry :: queue).map name).Nodup) :
    DeadlineQueue.drop name (name entry) (entry :: queue) = queue := by
  obtain ⟨new, -⟩ := List.nodup_cons.mp distinct
  rw [DeadlineQueue.drop, List.filter_cons_of_neg (by simp), List.filter_eq_self]
  intro other member
  exact decide_eq_true fun same => new (same ▸ List.mem_map_of_mem member)

/-- Taking the first entry off erases its name. -/
theorem tail {entry : α} (represents : Represents name (entry :: queue) map) :
    Represents name queue (map.erase (name entry)) := by
  have dropped := represents.drop (name entry)
  rwa [drop_head represents.distinct] at dropped

end Represents

/-- Where the new entry itself is not looked at, putting it only removes the entry with its
name. -/
theorem filter_put {queue : List α} (ordered : Ordered deadline name queue) (entry : α)
    {looked : α → Bool} (other : looked entry = false) :
    (put deadline name entry queue).filter looked =
      drop name (name entry) (queue.filter looked) := by
  have kept := (ordered.drop (name entry)).sorted
  have inserted : put deadline name entry queue =
      (drop name (name entry) queue).orderedInsert
        (fun left right => deadline left ≤ deadline right) entry := by
    rw [put, List.insertionSort_cons, ← drop, kept.insertionSort_eq]
  rw [inserted, List.orderedInsert_eq_take_drop, List.filter_append,
    List.filter_cons_of_neg (by simp [other]), ← List.filter_append,
    List.takeWhile_append_dropWhile, drop, drop]
  exact List.filter_comm _ _ _

end DeadlineQueue
