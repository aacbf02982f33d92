import C3qo.Timer

/-!
# Timer expiration passes

The timer list is a deadline queue, with the identifier as the name: `timer_add` puts, `timer_del`
drops and `timer_check_exp` drains. Callbacks whose delays are not negative are tame, since a
date computed from a clock that never goes back is not before the date of the pass.
-/

namespace C3qo

open DeadlineQueue

/-- A delay as the callers of `timer_add` give it. -/
def Timespec.IsDelay (delay : Timespec) : Prop :=
  0 ≤ delay.tv_sec ∧ delay.Normalized

/-- A date computed from a delay is not before the clock it was computed with. -/
theorem le_deadline {now delay : Timespec} (normal : now.Normalized) (positive : delay.IsDelay) :
    now ≤ deadline now delay := by
  obtain ⟨now_low, now_high⟩ := normal
  obtain ⟨sec_low, nsec_low, nsec_high⟩ := positive
  have sum_low : 0 ≤ now.tv_nsec + delay.tv_nsec := by omega
  rw [Timespec.le_iff]
  simp only [deadline, NSEC_MAX] at now_high nsec_high ⊢
  rw [Int.tdiv_eq_ediv_of_nonneg sum_low, Int.tmod_eq_emod_of_nonneg sum_low]
  omega

theorem timerAdd_null {tm : Timer} (null : tm.bk = none) (now : Timespec) (tm_list_ : List Timer) :
    timerAdd now tm tm_list_ = (false, tm_list_) := if_pos null

/-- Adding a timer puts it under its identifier. -/
theorem timerAdd_eq_put {tm : Timer} (valid : tm.bk ≠ none) (now : Timespec)
    (tm_list_ : List Timer) :
    timerAdd now tm tm_list_ =
      (true, put Timer.time Timer.tid { tm with time := deadline now tm.time } tm_list_) := by
  have order : (fun a b : Timer => b.before a = false) = fun a b => a.time ≤ b.time := by
    funext a b
    rw [← Bool.not_eq_true, Timer.before, Timespec.before_iff, not_lt]
  simp only [timerAdd, if_neg valid, put, Timer.same, order, Prod.mk.injEq, true_and]
  congr 2
  simp

theorem timerDel_eq_drop (tm : Timer) (tm_list_ : List Timer) :
    timerDel tm tm_list_ = drop Timer.tid tm.tid tm_list_ := by
  simp [timerDel, drop, Timer.same]

/-- The loop of `timer_check_exp` is a drain of the timer list. -/
theorem timerCheckLoop_eq_drain (clock : Nat → Timespec)
    (onTimer : Nat → Timer → List TimerCall) (time : Timespec) (fuel fired : Nat)
    (start : Nat × List Timer) :
    timerCheckLoop clock onTimer time fuel fired start =
      drain Timer.time time (TimerCall.perform clock) onTimer fuel fired start := by
  induction fuel generalizing fired start with
  | zero => rfl
  | succ fuel ih =>
      obtain ⟨readings, tm_list_⟩ := start
      cases tm_list_ with
      | nil => rfl
      | cons timer tm_list_ =>
          simp only [timerCheckLoop, drain, performAll, Timespec.before_iff, ih]

/-- A timer list is sorted by date and holds at most one timer for each identifier. -/
abbrev TimerOrdered (tm_list_ : List Timer) : Prop := Ordered Timer.time Timer.tid tm_list_

theorem timerAdd_ordered {tm_list_ : List Timer} (ordered : TimerOrdered tm_list_)
    (now : Timespec) (tm : Timer) : TimerOrdered (timerAdd now tm tm_list_).2 := by
  by_cases null : tm.bk = none
  · simpa only [timerAdd_null null] using ordered
  · simpa only [timerAdd_eq_put null] using ordered.put { tm with time := deadline now tm.time }

theorem timerDel_ordered {tm_list_ : List Timer} (ordered : TimerOrdered tm_list_) (tm : Timer) :
    TimerOrdered (timerDel tm tm_list_) := by
  simpa only [timerDel_eq_drop] using ordered.drop tm.tid

theorem perform_timerAdd {tm : Timer} (valid : tm.bk ≠ none) (clock : Nat → Timespec)
    (readings : Nat) (tm_list_ : List Timer) :
    (TimerCall.timerAdd tm).perform clock (readings, tm_list_) =
      (readings + 1,
        put Timer.time Timer.tid { tm with time := deadline (clock readings) tm.time }
          tm_list_) := by
  simp only [TimerCall.perform, if_neg valid, timerAdd_eq_put valid]

theorem perform_ordered (clock : Nat → Timespec) (call : TimerCall) (start : Nat × List Timer)
    (ordered : TimerOrdered start.2) : TimerOrdered (call.perform clock start).2 := by
  obtain ⟨readings, tm_list_⟩ := start
  cases call with
  | timerAdd tm =>
      simp only [TimerCall.perform]
      split_ifs with null
      · exact ordered
      · exact timerAdd_ordered ordered (clock readings) tm
  | timerDel tm => exact timerDel_ordered ordered tm

theorem performAll_calls_ordered (clock : Nat → Timespec) (calls : List TimerCall)
    (start : Nat × List Timer) (ordered : TimerOrdered start.2) :
    TimerOrdered (performAll (TimerCall.perform clock) calls start).2 := by
  induction calls generalizing start with
  | nil => exact ordered
  | cons call calls ih => exact ih _ (perform_ordered clock call start ordered)

/-- A finished loop leaves the list ordered, whatever the callbacks did. -/
theorem timerCheckLoop_ordered {clock : Nat → Timespec} {onTimer : Nat → Timer → List TimerCall}
    {time : Timespec} {fuel fired : Nat} {start final : Nat × List Timer}
    {log : List (Timer × List TimerCall)} (ordered : TimerOrdered start.2)
    (finished : timerCheckLoop clock onTimer time fuel fired start = some (log, final)) :
    TimerOrdered final.2 := by
  induction fuel generalizing fired start log with
  | zero => cases finished
  | succ fuel ih =>
      obtain ⟨readings, tm_list_⟩ := start
      cases tm_list_ with
      | nil =>
          obtain ⟨-, rfl⟩ := Prod.mk.inj (Option.some.inj finished)
          exact ordered
      | cons timer tm_list_ =>
          simp only [timerCheckLoop] at finished
          split_ifs at finished with expired
          · obtain ⟨⟨later, last⟩, rest, same⟩ := Option.map_eq_some_iff.mp finished
            obtain ⟨-, rfl⟩ := Prod.mk.inj same
            exact ih (performAll_calls_ordered clock _ (readings, tm_list_) ordered.tail) rest
          · obtain ⟨-, rfl⟩ := Prod.mk.inj (Option.some.inj finished)
            exact ordered

theorem TimerReachable.ordered {tm_list_ : List Timer} (reachable : TimerReachable tm_list_) :
    TimerOrdered tm_list_ := by
  induction reachable with
  | empty => exact .nil
  | timerAdd now tm _ ih => exact timerAdd_ordered ih now tm
  | timerDel tm _ ih => exact timerDel_ordered ih tm
  | timerClear => exact .nil
  | timerCheckExp clock onTimer fuel _ finished ih =>
      obtain ⟨⟨log, last⟩, looped, same⟩ := Option.map_eq_some_iff.mp finished
      obtain ⟨-, rfl⟩ := Prod.mk.inj same
      exact timerCheckLoop_ordered ih looped

/-- Calls with delays that are not negative, made under a clock that never goes back, disturb no
expired timer but those they name. -/
theorem tame_call {clock : Nat → Timespec} (steady : Monotone clock)
    (normal : ∀ reading, (clock reading).Normalized) {call : TimerCall}
    (delay : ∀ tm, call = .timerAdd tm → tm.time.IsDelay) :
    Tame Timer.time Timer.tid (clock 0) (TimerCall.perform clock) TimerCall.Touches call := by
  intro readings tm_list_ ordered
  refine ⟨perform_ordered clock call (readings, tm_list_) ordered, fun entry expired => ?_⟩
  cases call with
  | timerDel tm =>
      simp only [TimerCall.perform, timerDel_eq_drop, mem_drop, TimerCall.Touches]
      exact and_congr_right fun _ => ne_comm
  | timerAdd tm =>
      by_cases null : tm.bk = none
      · simp [TimerCall.perform, TimerCall.Touches, null]
      · have late : clock 0 ≤ deadline (clock readings) tm.time :=
          (steady (Nat.zero_le readings)).trans (le_deadline (normal readings) (delay tm rfl))
        have other : entry ≠ { tm with time := deadline (clock readings) tm.time } := by
          rintro rfl
          exact not_lt.mpr late expired
        rw [perform_timerAdd null, mem_put]
        simp only [other, false_or, TimerCall.Touches, ne_eq, null, not_false_eq_true, true_and]
        exact and_congr_right fun _ => ne_comm

/-- One pass of `timer_check_exp` ends, and it runs the callback of every timer that was expired
when the clock was read exactly once, earliest deadline first, save those that an earlier
callback of the pass deleted or replaced. No timer added in the pass runs in it, and no expired
timer is left. -/
theorem timerCheckExp_fires_expired {tm_list_ : List Timer} (reachable : TimerReachable tm_list_)
    {clock : Nat → Timespec} (steady : Monotone clock)
    (normal : ∀ reading, (clock reading).Normalized) {onTimer : Nat → Timer → List TimerCall}
    (delays : ∀ fired timer tm, .timerAdd tm ∈ onTimer fired timer → tm.time.IsDelay) :
    ∃ fuel log final, timerCheckExp clock onTimer fuel tm_list_ = some (log, final) ∧
      (∀ tm ∈ tm_list_, tm.time.before (clock 0) = true →
        (log.map Prod.fst).count tm =
          if Displaced Timer.tid TimerCall.Touches tm log then 0 else 1) ∧
      (log.map Prod.fst).Pairwise (fun earlier later => later.time.before earlier.time = false) ∧
      (∀ tm ∈ log.map Prod.fst, tm ∈ tm_list_ ∧ tm.time.before (clock 0) = true) ∧
      (∀ fired timer tm, .timerAdd tm ∈ onTimer fired timer → ∀ reading,
        { tm with time := deadline (clock reading) tm.time } ∉ log.map Prod.fst) ∧
      (∀ tm ∈ final, tm.time.before (clock 0) = false) := by
  have ordered := reachable.ordered
  have tame : ∀ fired timer, ∀ call ∈ onTimer fired timer,
      Tame Timer.time Timer.tid (clock 0) (TimerCall.perform clock) TimerCall.Touches call := by
    intro fired timer call member
    exact tame_call steady normal fun tm same => delays fired timer tm (same ▸ member)
  let fuel := (expiredIn Timer.time (clock 0) tm_list_).length + 1
  obtain ⟨log, final, drained, correct⟩ :=
    drain_correct tame fuel 0 (1, tm_list_) ordered (Nat.lt_succ_self _)
  have not_before : ∀ a b : Timespec, a.before b = false ↔ b ≤ a := by
    intro a b
    rw [← Bool.not_eq_true, Timespec.before_iff, not_lt]
  refine ⟨fuel, log, final.2, ?_, ?_, ?_, ?_, ?_, ?_⟩
  · rw [timerCheckExp, timerCheckLoop_eq_drain, drained]
    rfl
  · intro tm member expired
    have complete := correct.complete tm member ((Timespec.before_iff _ _).mp expired)
    split_ifs with displaced
    · exact List.count_eq_zero.mpr fun taken => complete.mp taken displaced
    · exact List.count_eq_one_of_mem correct.once (complete.mpr displaced)
  · exact correct.inOrder.imp fun le => (not_before _ _).mpr le
  · intro tm member
    obtain ⟨initial, expired⟩ := correct.initial tm member
    exact ⟨initial, (Timespec.before_iff _ _).mpr expired⟩
  · intro fired timer tm added reading member
    have expired := (correct.initial _ member).2
    have late : clock 0 ≤ deadline (clock reading) tm.time :=
      (steady (Nat.zero_le reading)).trans
        (le_deadline (normal reading) (delays fired timer tm added))
    exact not_lt.mpr late expired
  · intro tm member
    exact (not_before _ _).mpr (correct.pending tm member)

/-- A pass over two expired timers, the callback of the first of which arms itself again and
deletes the second. -/
theorem timerCheckExp_fires_expired_rearmed :
    let first : Timer := ⟨some 0, ⟨0, 10⟩, none, 1⟩
    let second : Timer := ⟨some 1, ⟨0, 20⟩, none, 2⟩
    let armed := (timerAdd ⟨1, 0⟩ second (timerAdd ⟨1, 0⟩ first []).2).2
    ∃ fuel log final,
      timerCheckExp (fun _ => ⟨2, 0⟩) (fun _ _ => [.timerAdd first, .timerDel second]) fuel armed =
        some (log, final) ∧
      ∀ tm ∈ final, tm.time.before ⟨2, 0⟩ = false := by
  intro first second armed
  have reachable : TimerReachable armed :=
    .timerAdd ⟨1, 0⟩ second (.timerAdd ⟨1, 0⟩ first .empty)
  obtain ⟨fuel, log, final, finished, -, -, -, -, pending⟩ :=
    @timerCheckExp_fires_expired armed reachable (fun _ => ⟨2, 0⟩) (fun _ _ _ => le_refl _)
      (fun _ => by unfold Timespec.Normalized NSEC_MAX; decide)
      (fun _ _ => [.timerAdd first, .timerDel second])
      (fun _ _ tm added => by
        simp only [List.mem_cons, TimerCall.timerAdd.injEq, reduceCtorEq, List.not_mem_nil,
          or_self, or_false] at added
        subst added
        unfold Timespec.IsDelay Timespec.Normalized NSEC_MAX
        decide)
  exact ⟨fuel, log, final, finished, pending⟩

end C3qo
