import C3qo.DeadlineQueue
import C3qo.Memory
import Mathlib.Data.Prod.Lex
import Mathlib.Order.Lattice

/-!
# The timer list

`manager_tm.cpp`: a list of timers sorted by expiration date, where a timer identifier occurs at
most once. Every reading of `CLOCK_REALTIME` is an input. `timer_check_exp` takes expired timers
off the front of the list and runs their callbacks, which may add and delete timers.
-/

namespace C3qo

/-- `struct timespec`. -/
structure Timespec where
  /-- Seconds. -/
  tv_sec : Int
  /-- Nanoseconds. -/
  tv_nsec : Int
  deriving DecidableEq

/-- Maximum number of nsec + 1. -/
def NSEC_MAX : Int := 1000 * 1000 * 1000

namespace Timespec

/-- `operator<` on `struct timespec`. -/
def before (a b : Timespec) : Bool :=
  if a.tv_sec < b.tv_sec then
    true
  else if a.tv_sec = b.tv_sec then
    decide (a.tv_nsec < b.tv_nsec)
  else
    false

/-- Nanoseconds in range and positive, as the system clock returns them. -/
def Normalized (time : Timespec) : Prop :=
  0 ≤ time.tv_nsec ∧ time.tv_nsec < NSEC_MAX

/-- The lexicographic pair that `operator<` compares. -/
def toPair (time : Timespec) : ℤ ×ₗ ℤ := toLex (time.tv_sec, time.tv_nsec)

theorem toPair_injective : Function.Injective toPair := by
  rintro ⟨sec, nsec⟩ ⟨sec', nsec'⟩ same
  simpa [toPair] using same

instance : LinearOrder Timespec := LinearOrder.lift' toPair toPair_injective

theorem lt_iff (a b : Timespec) :
    a < b ↔ a.tv_sec < b.tv_sec ∨ a.tv_sec = b.tv_sec ∧ a.tv_nsec < b.tv_nsec :=
  Prod.Lex.lt_iff

theorem le_iff (a b : Timespec) :
    a ≤ b ↔ a.tv_sec < b.tv_sec ∨ a.tv_sec = b.tv_sec ∧ a.tv_nsec ≤ b.tv_nsec :=
  Prod.Lex.le_iff

/-- `operator<` is the order of the lexicographic pairs. -/
@[simp] theorem before_iff (a b : Timespec) : a.before b = true ↔ a < b := by
  rw [lt_iff]
  unfold before
  split_ifs with less same <;> simp_all

end Timespec

/-- `struct timer`. -/
structure Timer where
  /-- Block to be notified on expiration. -/
  bk : Option BlockRef
  /-- Expiration date; users specify a delay and it is converted to a date. -/
  time : Timespec
  /-- Generic argument to forward on expiration. -/
  arg : Pointer
  /-- Timer identifier. -/
  tid : Int
  deriving DecidableEq

namespace Timer

/-- `operator==` on `struct timer`, necessary for the remove method. -/
def same (a b : Timer) : Bool := decide (a.tid = b.tid)

/-- `operator<` on `struct timer`, necessary for the sort method. -/
def before (a b : Timer) : Bool := a.time.before b.time

end Timer

/-- The conversion of a relative time to an absolute one. Sums are exact: the callers keep them
inside the 64 bits of `time_t`. -/
def deadline (now delay : Timespec) : Timespec :=
  let tv_sec := now.tv_sec + delay.tv_sec
  let tv_nsec := now.tv_nsec + delay.tv_nsec
  { tv_sec := tv_sec + tv_nsec.tdiv NSEC_MAX
    tv_nsec := tv_nsec.tmod NSEC_MAX }

/-- `manager::timer_add`, where `now` is what the clock shows. `forward_list::sort` is stable, so
any stable sort gives the list it gives. -/
def timerAdd (now : Timespec) (tm : Timer) (tm_list_ : List Timer) : Bool × List Timer :=
  if tm.bk = none then
    (false, tm_list_)
  else
    let tmr := { tm with time := deadline now tm.time }
    let removed := tm_list_.filter fun other => !other.same tmr
    (true, (tmr :: removed).insertionSort fun a b => b.before a = false)

/-- `manager::timer_del`. -/
def timerDel (tm : Timer) (tm_list_ : List Timer) : List Timer :=
  tm_list_.filter fun other => !other.same tm

/-- A call of the timer API that a callback makes. -/
inductive TimerCall
  /-- `timer_add`. -/
  | timerAdd (tm : Timer)
  /-- `timer_del`. -/
  | timerDel (tm : Timer)
  deriving DecidableEq

namespace TimerCall

/-- Make one call. The first component counts the readings of the clock; `timer_add` reads it
after it has verified its input. -/
def perform (clock : Nat → Timespec) : TimerCall → Nat × List Timer → Nat × List Timer
  | .timerAdd tm, (readings, tm_list_) =>
      if tm.bk = none then
        (readings, tm_list_)
      else
        (readings + 1, (C3qo.timerAdd (clock readings) tm tm_list_).2)
  | .timerDel tm, (readings, tm_list_) => (readings, C3qo.timerDel tm tm_list_)

/-- The call deletes or replaces the timer with this identifier. -/
def Touches : TimerCall → Int → Prop
  | .timerAdd tm, tid => tm.bk ≠ none ∧ tm.tid = tid
  | .timerDel tm, tid => tm.tid = tid

instance (call : TimerCall) (tid : Int) : Decidable (call.Touches tid) :=
  match call with
  | .timerAdd tm => inferInstanceAs (Decidable (tm.bk ≠ none ∧ tm.tid = tid))
  | .timerDel tm => inferInstanceAs (Decidable (tm.tid = tid))

end TimerCall

/-- The loop of `timer_check_exp` after its reading of the clock. `onTimer` gives the calls that
the callback of each expired timer makes, from the number of callbacks run before it. -/
def timerCheckLoop (clock : Nat → Timespec) (onTimer : Nat → Timer → List TimerCall)
    (time : Timespec) :
    Nat → Nat → Nat × List Timer → Option (List (Timer × List TimerCall) × Nat × List Timer)
  | 0, _, _ => none
  | _ + 1, _, (readings, []) => some ([], readings, [])
  | fuel + 1, fired, (readings, timer :: tm_list_) =>
      if timer.time.before time then
        (timerCheckLoop clock onTimer time fuel (fired + 1)
          ((onTimer fired timer).foldl (fun current call => call.perform clock current)
            (readings, tm_list_))).map
              fun (log, final) => ((timer, onTimer fired timer) :: log, final)
      else
        some ([], readings, timer :: tm_list_)

/-- `manager::timer_check_exp`: read the clock once, then loop. The result lists the timers whose
callbacks ran with the calls each made, and the timers left. -/
def timerCheckExp (clock : Nat → Timespec) (onTimer : Nat → Timer → List TimerCall) (fuel : Nat)
    (tm_list_ : List Timer) : Option (List (Timer × List TimerCall) × List Timer) :=
  (timerCheckLoop clock onTimer (clock 0) fuel 0 (1, tm_list_)).map
    fun (log, final) => (log, final.2)

/-- The timer lists that the timer API produces. -/
inductive TimerReachable : List Timer → Prop
  | empty : TimerReachable []
  | timerAdd {tm_list_ : List Timer} (now : Timespec) (tm : Timer) :
      TimerReachable tm_list_ → TimerReachable (C3qo.timerAdd now tm tm_list_).2
  | timerDel {tm_list_ : List Timer} (tm : Timer) :
      TimerReachable tm_list_ → TimerReachable (C3qo.timerDel tm tm_list_)
  | timerClear {tm_list_ : List Timer} : TimerReachable tm_list_ → TimerReachable []
  | timerCheckExp {tm_list_ final : List Timer} {log : List (Timer × List TimerCall)}
      (clock : Nat → Timespec) (onTimer : Nat → Timer → List TimerCall) (fuel : Nat) :
      TimerReachable tm_list_ → C3qo.timerCheckExp clock onTimer fuel tm_list_ = some (log, final) →
      TimerReachable final

end C3qo
