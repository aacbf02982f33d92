import C3qo.MixedRadix
import C3qo.TimerMap

/-!
# The instants of deadlines

A `timespec` is a number of two digits in base one billion, and a deadline is the sum of the clock
and the delay with its excess nanoseconds carried over. The sum is always exact. The division of
the carry truncates, so that nanoseconds of the sum that are negative stay negative; such a
deadline is out of range and is put in the wrong place among the others.
-/

namespace C3qo

open DeadlineQueue

namespace Timespec

/-- The total number of nanoseconds. -/
def instant (time : Timespec) : Int := time.tv_sec * NSEC_MAX + time.tv_nsec

theorem value_toPair (time : Timespec) : MixedRadix.value NSEC_MAX time.toPair = time.instant :=
  rfl

theorem inRange_toPair {time : Timespec} :
    MixedRadix.InRange NSEC_MAX time.toPair ↔ time.Normalized := Iff.rfl

/-- `operator<` is the order of the instants of normalised times. -/
theorem before_iff_instant_lt {a b : Timespec} (normal : a.Normalized) (normal' : b.Normalized) :
    a.before b = true ↔ a.instant < b.instant :=
  (before_iff a b).trans (MixedRadix.lt_iff_value_lt normal normal')

end Timespec

/-- The nanoseconds of clock and delay together need not be borrowed from the seconds. -/
def NoBorrow (now delay : Timespec) : Prop :=
  0 ≤ now.tv_nsec + delay.tv_nsec ∨ NSEC_MAX ∣ now.tv_nsec + delay.tv_nsec

instance (now delay : Timespec) : Decidable (NoBorrow now delay) :=
  inferInstanceAs (Decidable (_ ∨ _))

/-- A stored deadline is the time at which the delay has passed, and compares so with all times. -/
structure AbsoluteTime (now delay stored : Timespec) : Prop where
  /-- Its nanoseconds are in range and positive. -/
  inRange : stored.Normalized
  /-- It is the instant of the clock, later by the delay. -/
  exact_ : stored.instant = now.instant + delay.instant
  /-- It is before the times that come after that instant. -/
  expired : ∀ time : Timespec, time.Normalized →
    (stored.before time = true ↔ now.instant + delay.instant < time.instant)
  /-- The times that come before that instant are before it. -/
  pending : ∀ time : Timespec, time.Normalized →
    (time.before stored = true ↔ time.instant < now.instant + delay.instant)

/-- The two terms of a deadline, digit by digit. -/
def digitSum (now delay : Timespec) : ℤ ×ₗ ℤ :=
  toLex (now.tv_sec + delay.tv_sec, now.tv_nsec + delay.tv_nsec)

theorem toPair_deadline (now delay : Timespec) :
    (deadline now delay).toPair = MixedRadix.carry NSEC_MAX (digitSum now delay) := rfl

/-- Nothing is lost in the conversion. -/
theorem instant_deadline (now delay : Timespec) :
    (deadline now delay).instant = now.instant + delay.instant := by
  have sum : MixedRadix.value NSEC_MAX (digitSum now delay) = now.instant + delay.instant := by
    simp only [MixedRadix.value, digitSum, ofLex_toLex, Timespec.instant, add_mul]
    omega
  rw [← Timespec.value_toPair, toPair_deadline, MixedRadix.value_carry, sum]

theorem normalized_deadline_iff (now delay : Timespec) :
    (deadline now delay).Normalized ↔ NoBorrow now delay := by
  have positive : 0 < NSEC_MAX := by decide
  rw [← Timespec.inRange_toPair, toPair_deadline]
  exact MixedRadix.inRange_carry_iff positive

/-- A deadline compares with all times as it should exactly if no nanoseconds are borrowed. -/
theorem deadline_compares_iff (now delay : Timespec) :
    (∀ time : Timespec, time.Normalized →
        ((deadline now delay).before time = true ↔ now.instant + delay.instant < time.instant) ∧
          (time.before (deadline now delay) = true ↔
            time.instant < now.instant + delay.instant)) ↔
      NoBorrow now delay := by
  have positive : 0 < NSEC_MAX := by decide
  have above : -NSEC_MAX < (ofLex (deadline now delay).toPair).2 :=
    Int.lt_tmod_of_pos _ positive
  have below : (ofLex (deadline now delay).toPair).2 < NSEC_MAX := Int.tmod_lt_of_pos _ positive
  rw [← normalized_deadline_iff, ← Timespec.inRange_toPair,
    ← MixedRadix.compares_iff_inRange above below, ← instant_deadline]
  constructor
  · intro compares digits inRange
    let time : Timespec := ⟨(ofLex digits).1, (ofLex digits).2⟩
    obtain ⟨expired, pending⟩ := compares time inRange
    exact ⟨(Timespec.before_iff _ time).symm.trans expired,
      (Timespec.before_iff time _).symm.trans pending⟩
  · intro compares time normal
    obtain ⟨expired, pending⟩ := compares time.toPair normal
    exact ⟨(Timespec.before_iff _ _).trans expired, (Timespec.before_iff _ _).trans pending⟩

theorem absoluteTime_deadline_iff (now delay : Timespec) :
    AbsoluteTime now delay (deadline now delay) ↔ NoBorrow now delay := by
  constructor
  · exact fun absolute => (normalized_deadline_iff now delay).mp absolute.inRange
  · intro exact_sum
    have compares := (deadline_compares_iff now delay).mpr exact_sum
    exact ⟨(normalized_deadline_iff now delay).mpr exact_sum, instant_deadline now delay,
      fun time normal => (compares time normal).1, fun time normal => (compares time normal).2⟩

/-! ## Runs of the timer API -/

/-- All pending timers have nanoseconds in range. -/
def AllNormalized (tm_list_ : List Timer) : Prop := ∀ tm ∈ tm_list_, tm.time.Normalized

/-- A change that stores only a deadline in range leaves all of them in range. -/
theorem AllNormalized.step {step : TimerStep} {tm_list_ next : List Timer}
    (normal : AllNormalized tm_list_)
    (sound : ∀ now tm, step = .timerAdd now tm → NoBorrow now tm.time)
    (taken : step.perform tm_list_ = some next) : AllNormalized next := by
  cases step with
  | timerAdd now tm =>
      obtain rfl := Option.some.inj taken
      by_cases null : tm.bk = none
      · rw [timerAdd_null null]
        exact normal
      · rw [timerAdd_eq_put null]
        intro other member
        rcases mem_put.mp member with rfl | ⟨old, -⟩
        · exact (normalized_deadline_iff now tm.time).mpr (sound now tm rfl)
        · exact normal other old
  | timerDel tm =>
      obtain rfl := Option.some.inj taken
      exact fun other member => normal other (List.mem_of_mem_filter member)
  | timerClear =>
      obtain rfl := Option.some.inj taken
      exact fun other member => by cases member
  | fire time tm =>
      cases tm_list_ with
      | nil => cases taken
      | cons timer tm_list_ =>
          obtain ⟨-, taken'⟩ := Option.ite_none_right_eq_some.mp taken
          obtain rfl := Option.some.inj taken'
          exact fun other member => normal other (List.mem_cons_of_mem timer member)

theorem AllNormalized.run {steps : List TimerStep} {tm_list_ final : List Timer}
    (normal : AllNormalized tm_list_)
    (sound : ∀ now tm, .timerAdd now tm ∈ steps → NoBorrow now tm.time)
    (execution : Execution.run TimerStep.perform steps tm_list_ = some final) :
    AllNormalized final := by
  induction steps generalizing tm_list_ with
  | nil =>
      obtain rfl := Option.some.inj execution
      exact normal
  | cons step steps ih =>
      obtain ⟨next, taken, rest⟩ := Option.bind_eq_some_iff.mp execution
      have here : ∀ now tm, step = .timerAdd now tm → NoBorrow now tm.time :=
        fun now tm same => sound now tm (same ▸ List.mem_cons_self)
      exact ih (normal.step here taken)
        (fun now tm member => sound now tm (List.mem_cons_of_mem step member)) rest

/-- The deadline that `timer_add` stores is the time at which the delay has passed exactly if no
nanoseconds have to be borrowed for it. Where none ever are, the list is in the order of the
instants, and a timer is found expired exactly if its instant has passed. -/
theorem timerAdd_absolute_iff (now : Timespec) (tm : Timer) (tm_list_ : List Timer)
    (_ : now.Normalized) (valid : tm.bk ≠ none) :
    (∃ stored, (timerAdd now tm tm_list_).2.filter (fun other => other.tid = tm.tid) = [stored] ∧
      (AbsoluteTime now tm.time stored.time ↔ NoBorrow now tm.time)) ∧
    ∀ (calls : List TimerApi) (final : List Timer),
      Execution.run TimerApi.perform calls [] = some final →
      (∀ now tm, .timerAdd now tm ∈ TimerApi.stepsOf calls [] → NoBorrow now tm.time) →
      final.Pairwise (fun earlier later => earlier.time.instant ≤ later.time.instant) ∧
        ∀ tm ∈ final, ∀ time : Timespec, time.Normalized →
          (tm.time.before time = true ↔ tm.time.instant < time.instant) := by
  refine ⟨?_, fun calls final execution sound => ?_⟩
  · refine ⟨{ tm with time := deadline now tm.time }, ?_, absoluteTime_deadline_iff now tm.time⟩
    let stored : Timer := { tm with time := deadline now tm.time }
    have alone : (put Timer.time Timer.tid stored tm_list_).filter
        (fun other => other.tid = tm.tid) = [stored] := filter_put_self stored tm_list_
    rw [timerAdd_eq_put valid]
    exact alone
  · have whole := TimerApi.run_stepsOf execution
    have start : AllNormalized [] := by simp [AllNormalized]
    have normal := start.run sound whole
    refine ⟨(SortedMap.nil.run whole).inOrder.imp_of_mem ?_, fun tm member time normal' =>
      Timespec.before_iff_instant_lt (normal tm member) normal'⟩
    intro earlier later member member' order
    have not_less := (Timespec.before_iff_instant_lt (normal later member')
      (normal earlier member)).not.mp (Bool.eq_false_iff.mp order)
    exact not_lt.mp not_less

/-- A clock and a delay whose nanoseconds add up to more than a second. -/
theorem timerAdd_absolute_carried :
    let tm : Timer := ⟨some 0, ⟨1, 600000000⟩, none, 1⟩
    ∃ stored, (timerAdd ⟨5, 700000000⟩ tm []).2.filter (fun other => other.tid = tm.tid) =
        [stored] ∧ AbsoluteTime ⟨5, 700000000⟩ tm.time stored.time := by
  intro tm
  have normal : Timespec.Normalized ⟨5, 700000000⟩ := by
    unfold Timespec.Normalized
    decide
  obtain ⟨stored, alone, absolute⟩ :=
    (timerAdd_absolute_iff ⟨5, 700000000⟩ tm [] normal (by decide)).1
  exact ⟨stored, alone, absolute.mpr (by decide)⟩

/-- A delay of minus two nanoseconds at the beginning of a second: the stored nanoseconds are
negative, and the deadline comes after the last nanosecond of the second before. -/
theorem timerAdd_not_absolute_borrowed :
    let now : Timespec := ⟨5, 0⟩
    let tm : Timer := ⟨some 0, ⟨0, -2⟩, none, 1⟩
    let stored : Timer := { tm with time := ⟨5, -2⟩ }
    let last : Timespec := ⟨4, 999999999⟩
    now.Normalized ∧ last.Normalized ∧ (timerAdd now tm []).2 = [stored] ∧
      ¬ AbsoluteTime now tm.time stored.time ∧
      stored.time.instant < last.instant ∧ stored.time.before last = false := by
  intro now tm stored last
  have negative : ¬ stored.time.Normalized := by
    unfold Timespec.Normalized
    decide
  refine ⟨by unfold Timespec.Normalized; decide, by unfold Timespec.Normalized; decide,
    by decide +kernel, fun absolute => negative absolute.inRange, by decide, by decide⟩

end C3qo
