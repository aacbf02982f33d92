import C3qo.Execution
import C3qo.QueueMap
import C3qo.TimerExpiry

/-!
# The timer list as a map

The timer list stands for the map from timer identifiers to pending timers, and it is sorted by
expiration date. Every change of it, those made by callbacks in the middle of `timer_check_exp`
included, sets or erases one identifier of that map. Blocks share the identifiers: what one of
them adds or deletes can reach the timers of another only under an identifier of its own.
-/

namespace C3qo

open DeadlineQueue

/-- A change of the timer list. -/
inductive TimerStep
  /-- `timer_add`, with the clock it reads. -/
  | timerAdd (now : Timespec) (tm : Timer)
  /-- `timer_del`. -/
  | timerDel (tm : Timer)
  /-- `timer_clear`. -/
  | timerClear
  /-- `timer_check_exp` takes an expired timer off the front to run its callback. -/
  | fire (time : Timespec) (tm : Timer)
  deriving DecidableEq

/-- Pending timers by identifier. -/
abbrev Timers := Finmap fun _ : Int => Timer

namespace TimerStep

/-- Make the change. Only the first timer can be taken off, and only if it has expired. -/
def perform : TimerStep → List Timer → Option (List Timer)
  | .timerAdd now tm, tm_list_ => some (C3qo.timerAdd now tm tm_list_).2
  | .timerDel tm, tm_list_ => some (C3qo.timerDel tm tm_list_)
  | .timerClear, _ => some []
  | .fire _ _, [] => none
  | .fire time tm, timer :: tm_list_ =>
      if timer = tm ∧ timer.time.before time then some tm_list_ else none

/-- What the change means for the map of pending timers. -/
def effect (timers : Timers) : TimerStep → Timers
  | .timerAdd now tm =>
      if tm.bk = none then
        timers
      else
        timers.insert tm.tid { tm with time := deadline now tm.time }
  | .timerDel tm => timers.erase tm.tid
  | .timerClear => ∅
  | .fire _ tm => timers.erase tm.tid

end TimerStep

/-- The pending timers after some changes. -/
def timersAfter (steps : List TimerStep) : Timers := steps.foldl TimerStep.effect ∅

/-- The changes that the calls of one callback make, given the readings of the clock so far. -/
def callSteps (clock : Nat → Timespec) : List TimerCall → Nat → List TimerStep
  | [], _ => []
  | .timerAdd tm :: calls, readings =>
      .timerAdd (clock readings) tm ::
        callSteps clock calls (if tm.bk = none then readings else readings + 1)
  | .timerDel tm :: calls, readings => .timerDel tm :: callSteps clock calls readings

/-- The changes that the loop of `timer_check_exp` makes in a number of rounds, whether or not it
ends in them. -/
def timerCheckSteps (clock : Nat → Timespec) (onTimer : Nat → Timer → List TimerCall)
    (time : Timespec) : Nat → Nat → Nat × List Timer → List TimerStep
  | 0, _, _ => []
  | _ + 1, _, (_, []) => []
  | rounds + 1, fired, (readings, timer :: tm_list_) =>
      if timer.time.before time then
        .fire time timer :: (callSteps clock (onTimer fired timer) readings ++
          timerCheckSteps clock onTimer time rounds (fired + 1)
            ((onTimer fired timer).foldl (fun current call => call.perform clock current)
              (readings, tm_list_)))
      else
        []

/-- A call of the timer API from the main loop. -/
inductive TimerApi
  /-- `timer_add`, with the clock it reads. -/
  | timerAdd (now : Timespec) (tm : Timer)
  /-- `timer_del`. -/
  | timerDel (tm : Timer)
  /-- `timer_clear`. -/
  | timerClear
  /-- `timer_check_exp`, with what the clock shows and what the callbacks call. -/
  | timerCheckExp (clock : Nat → Timespec) (onTimer : Nat → Timer → List TimerCall) (rounds : Nat)

namespace TimerApi

/-- Make the call. `timer_check_exp` has no result in fewer rounds than it takes. -/
def perform : TimerApi → List Timer → Option (List Timer)
  | .timerAdd now tm, tm_list_ => some (C3qo.timerAdd now tm tm_list_).2
  | .timerDel tm, tm_list_ => some (C3qo.timerDel tm tm_list_)
  | .timerClear, _ => some []
  | .timerCheckExp clock onTimer rounds, tm_list_ =>
      (C3qo.timerCheckExp clock onTimer rounds tm_list_).map Prod.snd

/-- The changes that the call makes. -/
def steps : TimerApi → List Timer → List TimerStep
  | .timerAdd now tm, _ => [.timerAdd now tm]
  | .timerDel tm, _ => [.timerDel tm]
  | .timerClear, _ => [.timerClear]
  | .timerCheckExp clock onTimer rounds, tm_list_ =>
      timerCheckSteps clock onTimer (clock 0) rounds 0 (1, tm_list_)

/-- The changes that a sequence of calls makes. -/
def stepsOf : List TimerApi → List Timer → List TimerStep
  | [], _ => []
  | call :: calls, tm_list_ =>
      call.steps tm_list_ ++
        match call.perform tm_list_ with
        | none => []
        | some next => stepsOf calls next

end TimerApi

/-- The list is in the order of the expiration dates, and holds exactly the pending timers, one
for each identifier. -/
structure SortedMap (tm_list_ : List Timer) (timers : Timers) : Prop where
  /-- No timer expires before one that comes earlier in the list. -/
  inOrder : tm_list_.Pairwise fun earlier later => later.before earlier = false
  /-- The timers of the list are those of the map. -/
  represents : Represents Timer.tid tm_list_ timers

theorem Timer.before_eq_false_iff (a b : Timer) : b.before a = false ↔ a.time ≤ b.time := by
  rw [← Bool.not_eq_true, Timer.before, Timespec.before_iff, not_lt]

namespace SortedMap

variable {tm_list_ next : List Timer} {timers : Timers}

theorem nil : SortedMap [] ∅ := ⟨.nil, .nil⟩

theorem ordered (sorted : SortedMap tm_list_ timers) : TimerOrdered tm_list_ :=
  ⟨sorted.inOrder.imp (Timer.before_eq_false_iff _ _).mp, sorted.represents.distinct⟩

theorem of_ordered (ordered : TimerOrdered tm_list_)
    (represents : Represents Timer.tid tm_list_ timers) : SortedMap tm_list_ timers :=
  ⟨ordered.sorted.imp (Timer.before_eq_false_iff _ _).mpr, represents⟩

/-- Every change of the list changes the map in the same way. -/
theorem step {step : TimerStep} (sorted : SortedMap tm_list_ timers)
    (taken : step.perform tm_list_ = some next) : SortedMap next (step.effect timers) := by
  have ordered := sorted.ordered
  cases step with
  | timerAdd now tm =>
      obtain rfl := Option.some.inj taken
      refine of_ordered (timerAdd_ordered ordered now tm) ?_
      by_cases null : tm.bk = none
      · simpa only [timerAdd_null null, TimerStep.effect, if_pos null] using sorted.represents
      · simpa only [timerAdd_eq_put null, TimerStep.effect, if_neg null] using
          sorted.represents.put ordered { tm with time := deadline now tm.time }
  | timerDel tm =>
      obtain rfl := Option.some.inj taken
      refine of_ordered (timerDel_ordered ordered tm) ?_
      rw [timerDel_eq_drop]
      exact sorted.represents.drop tm.tid
  | timerClear =>
      obtain rfl := Option.some.inj taken
      exact .nil
  | fire time tm =>
      cases tm_list_ with
      | nil => cases taken
      | cons timer tm_list_ =>
          obtain ⟨⟨rfl, -⟩, taken'⟩ := Option.ite_none_right_eq_some.mp taken
          obtain rfl := Option.some.inj taken'
          exact of_ordered ordered.tail sorted.represents.tail

theorem run {steps : List TimerStep} (sorted : SortedMap tm_list_ timers)
    (execution : Execution.run TimerStep.perform steps tm_list_ = some next) :
    SortedMap next (steps.foldl TimerStep.effect timers) := by
  induction steps generalizing tm_list_ timers with
  | nil =>
      obtain rfl := Option.some.inj execution
      exact sorted
  | cons step steps ih =>
      obtain ⟨middle, taken, rest⟩ := Option.bind_eq_some_iff.mp execution
      exact ih (sorted.step taken) rest

end SortedMap

/-! ## Calls as sequences of changes -/

/-- The calls of a callback make their changes one after the other. -/
theorem run_callSteps (clock : Nat → Timespec) (calls : List TimerCall) (readings : Nat)
    (tm_list_ : List Timer) :
    Execution.run TimerStep.perform (callSteps clock calls readings) tm_list_ =
      some (calls.foldl (fun current call => call.perform clock current)
        (readings, tm_list_)).2 := by
  induction calls generalizing readings tm_list_ with
  | nil => rfl
  | cons call calls ih =>
      rw [List.foldl_cons]
      cases call with
      | timerAdd tm =>
          by_cases null : tm.bk = none
          · have ignored : (TimerCall.timerAdd tm).perform clock (readings, tm_list_) =
                (readings, tm_list_) := if_pos null
            rw [ignored, callSteps, if_pos null, ← ih readings, Execution.run_cons,
              TimerStep.perform, timerAdd_null null]
            rfl
          · have added : (TimerCall.timerAdd tm).perform clock (readings, tm_list_) =
                (readings + 1, (timerAdd (clock readings) tm tm_list_).2) := if_neg null
            rw [added, callSteps, if_neg null, ← ih (readings + 1)]
            rfl
      | timerDel tm => exact ih readings (timerDel tm tm_list_)

/-- However many rounds the loop has taken, it has made its changes one after the other; if it has
come to its end, they lead to the list that it leaves. -/
theorem run_timerCheckSteps (clock : Nat → Timespec) (onTimer : Nat → Timer → List TimerCall)
    (time : Timespec) (rounds fired : Nat) (start : Nat × List Timer) :
    ∃ left, Execution.run TimerStep.perform
        (timerCheckSteps clock onTimer time rounds fired start) start.2 = some left ∧
      ∀ log final, timerCheckLoop clock onTimer time rounds fired start = some (log, final) →
        left = final.2 := by
  induction rounds generalizing fired start with
  | zero => exact ⟨start.2, rfl, fun _ _ ended => by cases ended⟩
  | succ rounds ih =>
      obtain ⟨readings, tm_list_⟩ := start
      cases tm_list_ with
      | nil =>
          refine ⟨[], rfl, fun log final ended => ?_⟩
          obtain ⟨-, rfl⟩ := Prod.mk.inj (Option.some.inj ended)
          rfl
      | cons timer tm_list_ =>
          by_cases expired : timer.time.before time = true
          · obtain ⟨left, execution, ends⟩ := ih (fired + 1)
              ((onTimer fired timer).foldl (fun current call => call.perform clock current)
                (readings, tm_list_))
            refine ⟨left, ?_, fun log final ended => ?_⟩
            · have fires : (TimerStep.fire time timer).perform (timer :: tm_list_) =
                  some tm_list_ := if_pos ⟨rfl, expired⟩
              rw [timerCheckSteps, if_pos expired, Execution.run_cons, fires, Option.bind_eq_bind,
                Option.bind_some, Execution.run_append, run_callSteps]
              exact execution
            · rw [timerCheckLoop, if_pos expired] at ended
              obtain ⟨⟨log', final'⟩, ended', same⟩ := Option.map_eq_some_iff.mp ended
              obtain ⟨-, rfl⟩ := Prod.mk.inj same
              exact ends log' final' ended'
          · refine ⟨timer :: tm_list_, ?_, fun log final ended => ?_⟩
            · rw [timerCheckSteps, if_neg expired]
              rfl
            · rw [timerCheckLoop, if_neg expired] at ended
              obtain ⟨-, rfl⟩ := Prod.mk.inj (Option.some.inj ended)
              rfl

theorem TimerApi.run_steps {call : TimerApi} {tm_list_ next : List Timer}
    (made : call.perform tm_list_ = some next) :
    Execution.run TimerStep.perform (call.steps tm_list_) tm_list_ = some next := by
  cases call with
  | timerAdd now tm => exact made
  | timerDel tm => exact made
  | timerClear => exact made
  | timerCheckExp clock onTimer rounds =>
      obtain ⟨⟨log, final⟩, ended, rfl⟩ := Option.map_eq_some_iff.mp made
      obtain ⟨⟨log', final'⟩, looped, same⟩ := Option.map_eq_some_iff.mp ended
      obtain ⟨-, rfl⟩ := Prod.mk.inj same
      obtain ⟨left, execution, ends⟩ :=
        run_timerCheckSteps clock onTimer (clock 0) rounds 0 (1, tm_list_)
      obtain rfl := ends log' final' looped
      exact execution

theorem TimerApi.run_stepsOf {calls : List TimerApi} {tm_list_ final : List Timer}
    (execution : Execution.run TimerApi.perform calls tm_list_ = some final) :
    Execution.run TimerStep.perform (TimerApi.stepsOf calls tm_list_) tm_list_ = some final := by
  induction calls generalizing tm_list_ with
  | nil => exact execution
  | cons call calls ih =>
      obtain ⟨next, made, rest⟩ := Option.bind_eq_some_iff.mp execution
      rw [TimerApi.stepsOf, made, Execution.run_append, TimerApi.run_steps made]
      exact ih rest

/-- In every run of the timer API the list is sorted by expiration date and represents the map
that the changes lead to: after the run, and also after any part of its changes and of those of
one more `timer_check_exp`, which need not end. -/
theorem timerList_sortedMap (calls : List TimerApi) (tm_list_ : List Timer)
    (execution : Execution.run TimerApi.perform calls [] = some tm_list_) :
    SortedMap tm_list_ (timersAfter (TimerApi.stepsOf calls [])) ∧
      ∀ clock onTimer rounds steps,
        steps <+: TimerApi.stepsOf calls [] ++
          timerCheckSteps clock onTimer (clock 0) rounds 0 (1, tm_list_) →
        ∃ reached, Execution.run TimerStep.perform steps [] = some reached ∧
          SortedMap reached (timersAfter steps) := by
  have whole := TimerApi.run_stepsOf execution
  refine ⟨SortedMap.nil.run whole, fun clock onTimer rounds steps part => ?_⟩
  obtain ⟨later, together⟩ := part
  obtain ⟨left, pass, -⟩ :=
    run_timerCheckSteps clock onTimer (clock 0) rounds 0 (1, tm_list_)
  have joined : Execution.run TimerStep.perform (steps ++ later) [] = some left := by
    rw [together, Execution.run_append, whole]
    exact pass
  rw [Execution.run_append] at joined
  obtain ⟨reached, first, -⟩ := Option.bind_eq_some_iff.mp joined
  exact ⟨reached, first, SortedMap.nil.run first⟩

/-- Two timers, the callback of the first of which replaces the second before it expires. -/
theorem timerList_sortedMap_pass :
    let later : Timer := ⟨some 1, ⟨5, 0⟩, none, 2⟩
    let soon : Timer := ⟨some 0, ⟨0, 10⟩, none, 1⟩
    let calls : List TimerApi := [.timerAdd ⟨1, 0⟩ later, .timerAdd ⟨1, 0⟩ soon,
      .timerCheckExp (fun _ => ⟨3, 0⟩) (fun _ _ => [.timerAdd later]) 2]
    SortedMap [{ later with time := ⟨8, 0⟩ }] (timersAfter (TimerApi.stepsOf calls [])) := by
  intro later soon calls
  exact (timerList_sortedMap calls [{ later with time := ⟨8, 0⟩ }] (by decide +kernel)).1

/-! ## Timers of different blocks -/

/-- The pending timers of a block. -/
def timersOf (bk : BlockRef) (tm_list_ : List Timer) : List Timer :=
  tm_list_.filter fun tm => tm.bk = some bk

/-- What a block adds or deletes leaves the timers of another block as they were, except that one
with the same identifier is removed. -/
theorem timersOf_other {tm_list_ : List Timer} (reachable : TimerReachable tm_list_)
    {a b : BlockRef} (different : a ≠ b) {tm : Timer} (owner : tm.bk = some b) (now : Timespec) :
    timersOf a (timerAdd now tm tm_list_).2 =
        (timersOf a tm_list_).filter (fun other => other.tid ≠ tm.tid) ∧
      timersOf a (timerDel tm tm_list_) =
        (timersOf a tm_list_).filter fun other => other.tid ≠ tm.tid := by
  constructor
  · have valid : tm.bk ≠ none := by simp [owner]
    have foreign : tm.bk ≠ some a := by
      rw [owner]
      exact fun same => different (Option.some.inj same).symm
    rw [timerAdd_eq_put valid]
    exact filter_put reachable.ordered { tm with time := deadline now tm.time }
      (decide_eq_false foreign)
  · rw [timerDel_eq_drop]
    exact List.filter_comm _ _ _

/-- Two blocks with timers of their own identifiers. -/
theorem timersOf_other_apart :
    let armed := (timerAdd ⟨1, 0⟩ ⟨some 0, ⟨1, 0⟩, none, 1⟩ []).2
    let tm : Timer := ⟨some 1, ⟨0, 5⟩, none, 2⟩
    timersOf 0 (timerAdd ⟨1, 0⟩ tm armed).2 = timersOf 0 armed := by
  intro armed tm
  have reachable : TimerReachable armed := .timerAdd ⟨1, 0⟩ _ .empty
  have other : (0 : BlockRef) ≠ 1 := by decide
  have owner : tm.bk = some 1 := rfl
  exact (timersOf_other reachable other owner ⟨1, 0⟩).1.trans (by decide +kernel)

/-- Two blocks that choose the same identifier, as every `ncli` does: what the second adds or
deletes removes the timer of the first. -/
theorem timersOf_same_tid :
    let armed := (timerAdd ⟨1, 0⟩ ⟨some 0, ⟨1, 0⟩, none, 1⟩ []).2
    let tm : Timer := ⟨some 1, ⟨1, 0⟩, none, 1⟩
    TimerReachable armed ∧ (0 : BlockRef) ≠ 1 ∧
      timersOf 0 armed = [⟨some 0, ⟨2, 0⟩, none, 1⟩] ∧
      timersOf 0 (timerAdd ⟨1, 0⟩ tm armed).2 = [] ∧ timersOf 0 (timerDel tm armed) = [] := by
  intro armed tm
  exact ⟨.timerAdd ⟨1, 0⟩ _ .empty, by decide, by decide +kernel, by decide +kernel,
    by decide +kernel⟩

end C3qo
