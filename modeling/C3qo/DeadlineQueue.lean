import Mathlib.Data.List.Sort
import Mathlib.Order.Lattice

/-!
# Queues ordered by deadline

A queue of entries sorted by deadline, at most one for each name. Putting an entry replaces the
one of its name. `drain` takes expired entries off the front, each followed by the calls its
handler makes, and the calls may edit the queue. When every call is tame (it keeps the order, and
among the expired entries it removes exactly those it names and adds none), the handlers can
neither prolong the drain nor disturb its order.
-/

namespace DeadlineQueue

variable {α κ ι σ γ : Type*} [LinearOrder κ]

section Operations

variable [DecidableEq ι] (deadline : α → κ) (name : α → ι)

/-- Insert an entry in front of the entries that are not earlier, replacing the one with its
name. -/
def put (entry : α) (queue : List α) : List α :=
  (entry :: queue.filter fun other => name other ≠ name entry).insertionSort
    fun left right => deadline left ≤ deadline right

/-- Remove the entry with the given name. -/
def drop (target : ι) (queue : List α) : List α :=
  queue.filter fun other => name other ≠ target

end Operations

/-- Make the calls of one handler in order. The first component is what the calls read and change
besides the queue. -/
def performAll (perform : γ → σ × List α → σ × List α) (calls : List γ) (start : σ × List α) :
    σ × List α :=
  calls.foldl (fun current call => perform call current) start

/-- Take entries off the front while they are expired, letting the handler of each act before the
next one is looked at. Handlers are given how many entries were taken before theirs. -/
def drain (deadline : α → κ) (limit : κ) (perform : γ → σ × List α → σ × List α)
    (react : Nat → α → List γ) :
    Nat → Nat → σ × List α → Option (List (α × List γ) × σ × List α)
  | 0, _, _ => none
  | _ + 1, _, (state, []) => some ([], state, [])
  | fuel + 1, taken, (state, entry :: queue) =>
      if deadline entry < limit then
        (drain deadline limit perform react fuel (taken + 1)
          (performAll perform (react taken entry) (state, queue))).map
            fun (log, final) => ((entry, react taken entry) :: log, final)
      else
        some ([], state, entry :: queue)

/-- Sorted by deadline, with at most one entry for each name. -/
structure Ordered (deadline : α → κ) (name : α → ι) (queue : List α) : Prop where
  /-- The deadlines never decrease. -/
  sorted : queue.Pairwise fun left right => deadline left ≤ deadline right
  /-- No name occurs twice. -/
  distinct : (queue.map name).Nodup

/-- The call keeps the queue ordered, and of the expired entries it removes those of the names it
touches and no other, and adds none. -/
def Tame (deadline : α → κ) (name : α → ι) (limit : κ)
    (perform : γ → σ × List α → σ × List α) (Touches : γ → ι → Prop) (call : γ) : Prop :=
  ∀ state queue, Ordered deadline name queue →
    Ordered deadline name (perform call (state, queue)).2 ∧
      ∀ entry, deadline entry < limit →
        (entry ∈ (perform call (state, queue)).2 ↔ entry ∈ queue ∧ ¬Touches call (name entry))

/-- A handler that ran before the given entry was reached has touched its name. -/
def Displaced (name : α → ι) (Touches : γ → ι → Prop) (entry : α) : List (α × List γ) → Prop
  | [] => False
  | (fired, calls) :: log =>
      fired ≠ entry ∧
        ((∃ call ∈ calls, Touches call (name entry)) ∨ Displaced name Touches entry log)

instance instDecidableDisplaced [DecidableEq α] {name : α → ι} {Touches : γ → ι → Prop}
    [∀ call target, Decidable (Touches call target)] (entry : α) :
    (log : List (α × List γ)) → Decidable (Displaced name Touches entry log)
  | [] => inferInstanceAs (Decidable False)
  | (fired, calls) :: log =>
      have : Decidable (Displaced name Touches entry log) := instDecidableDisplaced entry log
      inferInstanceAs (Decidable (fired ≠ entry ∧
        ((∃ call ∈ calls, Touches call (name entry)) ∨ Displaced name Touches entry log)))

/-- What a finished drain has done. -/
structure Drained (deadline : α → κ) (name : α → ι) (limit : κ) (Touches : γ → ι → Prop)
    (queue : List α) (log : List (α × List γ)) (final : List α) : Prop where
  /-- The remaining queue is still ordered. -/
  ordered : Ordered deadline name final
  /-- Nothing expired remains. -/
  pending : ∀ entry ∈ final, limit ≤ deadline entry
  /-- The entries were taken in the order of their deadlines. -/
  inOrder : (log.map Prod.fst).Pairwise fun left right => deadline left ≤ deadline right
  /-- No entry was taken twice. -/
  once : (log.map Prod.fst).Nodup
  /-- Only expired entries of the initial queue were taken. -/
  initial : ∀ entry ∈ log.map Prod.fst, entry ∈ queue ∧ deadline entry < limit
  /-- An expired entry was taken exactly if no earlier handler displaced it. -/
  complete : ∀ entry ∈ queue, deadline entry < limit →
    (entry ∈ log.map Prod.fst ↔ ¬Displaced name Touches entry log)

variable {deadline : α → κ} {name : α → ι} {limit : κ}

instance deadline_total : Std.Total fun left right : α => deadline left ≤ deadline right :=
  ⟨fun left right => le_total (deadline left) (deadline right)⟩

instance deadline_isTrans : IsTrans α fun left right : α => deadline left ≤ deadline right :=
  ⟨fun _ _ _ => le_trans⟩

section Membership

variable [DecidableEq ι]

theorem mem_put {entry other : α} {queue : List α} :
    other ∈ put deadline name entry queue ↔
      other = entry ∨ (other ∈ queue ∧ name other ≠ name entry) := by
  simp [put]

/-- After it has been put, an entry is the only one of its name. -/
theorem filter_put_self (entry : α) (queue : List α) :
    (put deadline name entry queue).filter (fun other => name other = name entry) = [entry] := by
  have sorted := List.perm_insertionSort (fun left right => deadline left ≤ deadline right)
    (entry :: queue.filter fun other => name other ≠ name entry)
  refine List.perm_singleton.mp ((sorted.filter _).trans ?_)
  rw [List.filter_cons_of_pos (by simp), List.filter_filter]
  simp

theorem mem_drop {target : ι} {other : α} {queue : List α} :
    other ∈ drop name target queue ↔ other ∈ queue ∧ name other ≠ target := by
  simp [drop]

end Membership

namespace Ordered

theorem nil : Ordered deadline name ([] : List α) := ⟨.nil, by simp⟩

theorem nodup {queue : List α} (ordered : Ordered deadline name queue) : queue.Nodup :=
  ordered.distinct.of_map

theorem sublist {queue part : List α} (ordered : Ordered deadline name queue)
    (inside : part.Sublist queue) : Ordered deadline name part :=
  ⟨ordered.sorted.sublist inside, ordered.distinct.sublist (inside.map name)⟩

theorem tail {entry : α} {queue : List α} (ordered : Ordered deadline name (entry :: queue)) :
    Ordered deadline name queue :=
  ordered.sublist (List.sublist_cons_self entry queue)

theorem head_le {entry other : α} {queue : List α}
    (ordered : Ordered deadline name (entry :: queue)) (member : other ∈ queue) :
    deadline entry ≤ deadline other :=
  List.rel_of_pairwise_cons ordered.sorted member

variable [DecidableEq ι]

theorem drop {queue : List α} (ordered : Ordered deadline name queue) (target : ι) :
    Ordered deadline name (DeadlineQueue.drop name target queue) :=
  ordered.sublist List.filter_sublist

theorem put {queue : List α} (ordered : Ordered deadline name queue) (entry : α) :
    Ordered deadline name (DeadlineQueue.put deadline name entry queue) := by
  have kept := ordered.drop (name entry)
  refine ⟨List.pairwise_insertionSort _ _, ?_⟩
  have permuted := List.perm_insertionSort (fun left right => deadline left ≤ deadline right)
    (entry :: DeadlineQueue.drop name (name entry) queue)
  apply (permuted.map name).nodup_iff.mpr
  refine List.nodup_cons.mpr ⟨?_, kept.distinct⟩
  intro member
  obtain ⟨other, inside, same⟩ := List.mem_map.mp member
  exact (mem_drop.mp inside).2 same

end Ordered

section Tame

variable {perform : γ → σ × List α → σ × List α} {Touches : γ → ι → Prop} {calls : List γ}

theorem performAll_ordered
    (tame : ∀ call ∈ calls, Tame deadline name limit perform Touches call)
    (start : σ × List α) (ordered : Ordered deadline name start.2) :
    Ordered deadline name (performAll perform calls start).2 := by
  induction calls generalizing start with
  | nil => exact ordered
  | cons call calls ih =>
      have first := tame call List.mem_cons_self start.1 start.2 ordered
      exact ih (fun later member => tame later (List.mem_cons_of_mem _ member))
        (perform call start) first.1

/-- Tame calls leave exactly the expired entries that none of them touches. -/
theorem mem_performAll_of_expired
    (tame : ∀ call ∈ calls, Tame deadline name limit perform Touches call)
    (start : σ × List α) (ordered : Ordered deadline name start.2)
    {entry : α} (expired : deadline entry < limit) :
    entry ∈ (performAll perform calls start).2 ↔
      entry ∈ start.2 ∧ ∀ call ∈ calls, ¬Touches call (name entry) := by
  induction calls generalizing start with
  | nil => simp [performAll]
  | cons call calls ih =>
      have first := tame call List.mem_cons_self start.1 start.2 ordered
      have rest := ih (fun later member => tame later (List.mem_cons_of_mem _ member))
        (perform call start) first.1
      rw [show performAll perform (call :: calls) start =
        performAll perform calls (perform call start) from rfl, rest, first.2 entry expired]
      simp [and_assoc]

/-- The entries that a drain up to `limit` still has to take. -/
def expiredIn (deadline : α → κ) (limit : κ) (queue : List α) : List α :=
  queue.filter fun entry => deadline entry < limit

/-- Tame calls never add to the work of a drain. -/
theorem expiredIn_performAll_le
    (tame : ∀ call ∈ calls, Tame deadline name limit perform Touches call)
    (start : σ × List α) (ordered : Ordered deadline name start.2) :
    (expiredIn deadline limit (performAll perform calls start).2).length ≤
      (expiredIn deadline limit start.2).length := by
  have nodup := (performAll_ordered tame start ordered).nodup.filter
    fun entry => decide (deadline entry < limit)
  apply (List.subperm_of_subset nodup ?_).length_le
  intro entry member
  simp only [List.mem_filter, decide_eq_true_eq] at member
  have kept := (mem_performAll_of_expired tame start ordered member.2).mp member.1
  simp [expiredIn, kept.1, member.2]

/-- A drain with tame handlers ends, whatever the handlers remove or replace. -/
theorem drain_correct {react : Nat → α → List γ}
    (tame : ∀ taken entry, ∀ call ∈ react taken entry,
      Tame deadline name limit perform Touches call)
    (fuel taken : Nat) (start : σ × List α) (ordered : Ordered deadline name start.2)
    (enough : (expiredIn deadline limit start.2).length < fuel) :
    ∃ log final, drain deadline limit perform react fuel taken start = some (log, final) ∧
      Drained deadline name limit Touches start.2 log final.2 := by
  induction fuel generalizing taken start with
  | zero => exact absurd enough (Nat.not_lt_zero _)
  | succ fuel ih =>
      obtain ⟨state, queue⟩ := start
      cases queue with
      | nil => exact ⟨[], (state, []), rfl, ordered, by simp, .nil, .nil, by simp, by simp⟩
      | cons entry queue =>
          by_cases expired : deadline entry < limit
          · have tame_calls := tame taken entry
            have ordered_queue : Ordered deadline name queue := ordered.tail
            have fewer := expiredIn_performAll_le tame_calls (state, queue) ordered_queue
            have enough_next : (expiredIn deadline limit
                (performAll perform (react taken entry) (state, queue)).2).length < fuel := by
              simp only [expiredIn, List.filter_cons, expired, decide_true, if_true,
                List.length_cons] at enough fewer ⊢
              omega
            obtain ⟨log, final, drained, correct⟩ := ih (taken + 1) _
              (performAll_ordered tame_calls (state, queue) ordered_queue) enough_next
            have rest_initial : ∀ other ∈ log.map Prod.fst, other ∈ queue ∧
                deadline other < limit ∧
                  ∀ call ∈ react taken entry, ¬Touches call (name other) := by
              intro other member
              obtain ⟨inside, other_expired⟩ := correct.initial other member
              have kept :=
                (mem_performAll_of_expired tame_calls (state, queue) ordered_queue
                  other_expired).mp inside
              exact ⟨kept.1, other_expired, kept.2⟩
            have entry_new : entry ∉ log.map Prod.fst := fun member =>
              (List.nodup_cons.mp ordered.nodup).1 (rest_initial entry member).1
            refine ⟨(entry, react taken entry) :: log, final, ?_, correct.ordered,
              correct.pending, ?_, ?_, ?_, ?_⟩
            · simp only [drain, if_pos expired, drained, Option.map_some]
            · refine List.pairwise_cons.mpr ⟨fun other member => ?_, correct.inOrder⟩
              exact ordered.head_le (rest_initial other member).1
            · exact List.nodup_cons.mpr ⟨entry_new, correct.once⟩
            · intro other member
              rcases List.mem_cons.mp member with rfl | member
              · exact ⟨List.mem_cons_self, expired⟩
              · exact ⟨List.mem_cons_of_mem _ (rest_initial other member).1,
                  (rest_initial other member).2.1⟩
            · intro other member other_expired
              by_cases same : entry = other
              · subst same
                simp [Displaced]
              · have inside := (List.mem_cons.mp member).resolve_left (Ne.symm same)
                simp only [List.map_cons, List.mem_cons, Ne.symm same, false_or, Displaced, ne_eq,
                  same, not_false_eq_true, true_and, not_or, not_exists, not_and]
                constructor
                · intro taken_later
                  have kept := (rest_initial other taken_later).2.2
                  have there := (correct.initial other taken_later).1
                  exact ⟨kept, (correct.complete other there other_expired).mp taken_later⟩
                · rintro ⟨untouched, undisplaced⟩
                  have there := (mem_performAll_of_expired tame_calls (state, queue)
                    ordered_queue other_expired).mpr ⟨inside, untouched⟩
                  exact (correct.complete other there other_expired).mpr undisplaced
          · refine ⟨[], (state, entry :: queue), by simp [drain, expired], ordered, ?_, .nil, .nil,
              by simp, ?_⟩
            · intro other member
              rcases List.mem_cons.mp member with rfl | member
              · exact not_lt.mp expired
              · exact (not_lt.mp expired).trans (ordered.head_le member)
            · intro other member other_expired
              rcases List.mem_cons.mp member with rfl | member
              · exact absurd other_expired expired
              · exact absurd (other_expired.trans_le (not_lt.mp expired))
                  (not_lt.mpr (ordered.head_le member))

end Tame

end DeadlineQueue
