import C3qo.Configuration
import C3qo.PollCalls
import C3qo.Simulation

/-!
# The main loop

The loop of `main` in `c3qo.cpp`: `fd_poll` dispatches events to the blocks, whose callbacks change
the polling set that the pass is walking over, and `timer_check_exp` runs the timers that have
expired. A round comes to nothing else than the arrival of messages and the callbacks of polled
descriptors, one after the other.
-/

namespace C3qo

/-- What a pass of `fd_poll` has done. -/
structure Pass where
  /-- The descriptors whose callbacks have been called. -/
  dispatched : List FileDesc
  /-- The position outside the tables that has been read, if any. The program has no defined
  behaviour from there. -/
  outside : Option Nat
  /-- The tables have been moved, to make room for new entries, before the pass was over. The
  program has no defined behaviour from there: its iterators lead into the old tables. -/
  moved : Bool
  /-- The manager in the end. -/
  manager : BlockManager

/-- The pass with one more callback before it. -/
def Pass.after (pass : Pass) (desc : FileDesc) : Pass :=
  { pass with dispatched := desc :: pass.dispatched }

@[simp] theorem Pass.dispatched_after (pass : Pass) (desc : FileDesc) :
    (pass.after desc).dispatched = desc :: pass.dispatched := rfl

@[simp] theorem Pass.manager_after (pass : Pass) (desc : FileDesc) :
    (pass.after desc).manager = pass.manager := rfl

@[simp] theorem Pass.outside_after (pass : Pass) (desc : FileDesc) :
    (pass.after desc).outside = pass.outside := rfl

@[simp] theorem Pass.moved_after (pass : Pass) (desc : FileDesc) :
    (pass.after desc).moved = pass.moved := rfl

namespace BlockManager

/-- The loop of `manager::fd_poll` over the blocks, with the number of positions left, the position
and the count of ready entries so far. The tables hold up to `capacity` entries where they are; one
call of `on_fd_` executes one command at most, which adds or removes one entry at most. -/
def fdPollLoop (platform : Platform) (fuel ret capacity : Nat) :
    Nat → Nat → Nat → BlockManager → Except Fault Pass
  | 0, _, _, manager => .ok ⟨[], none, false, manager⟩
  | left + 1, position, count, manager =>
      match manager.world.polling.fd_[position]?, manager.world.polling.callback_[position]? with
      | some item, some desc =>
          if item.ready then
            match onFd platform fuel desc manager with
            | .error fault => .error fault
            | .ok manager =>
                if count + 1 = ret then
                  .ok ⟨[desc], none, false, manager⟩
                else if capacity < manager.world.polling.callback_.length then
                  .ok ⟨[desc], none, true, manager⟩
                else
                  (fdPollLoop platform fuel ret capacity left (position + 1) (count + 1)
                    manager).map fun pass => pass.after desc
          else if count = ret then
            .ok ⟨[], none, false, manager⟩
          else
            fdPollLoop platform fuel ret capacity left (position + 1) count manager
      | _, _ => .ok ⟨[], some position, false, manager⟩

/-- `manager::fd_poll` over the blocks. The result of `zmq_poll` is a failure, or the returned
events of each entry; `spare` is how many more entries both tables hold where they are. -/
def fdPoll (platform : Platform) (fuel spare : Nat) (polled : Option (PollKey → Nat))
    (manager : BlockManager) : Except Fault (Int × Pass) :=
  match polled with
  | none => .ok (-1, ⟨[], none, false, manager⟩)
  | some revents =>
      let manager := manager.withPolling (manager.world.polling.setRevents revents)
      let fd_ := manager.world.polling.fd_
      let ret := fd_.countP fun item => item.revents != 0
      if ret = 0 then
        .ok (0, ⟨[], none, false, manager⟩)
      else
        (fdPollLoop platform fuel ret (fd_.length + spare) fd_.length 0 0 manager).map
          fun pass => (ret, pass)

/-- `manager::timer_check_exp`. The blocks of the repository do nothing in `on_timer_`. -/
def timerCheckExp (clock : Nat → Timespec) (manager : BlockManager) : BlockManager :=
  let tm_list_ := manager.world.tm_list_
  match C3qo.timerCheckExp clock (fun _ _ => []) (tm_list_.length + 1) tm_list_ with
  | none => manager
  | some (_, tm_list_) => { manager with world := { manager.world with tm_list_ := tm_list_ } }

/-- A message has arrived at a socket. -/
def arrive (manager : BlockManager) (message : Pointer × List BufferPart) : BlockManager :=
  { manager with world := { manager.world with
    zmq := manager.world.zmq.arrive message.1 (framesOf message.2) } }

end BlockManager

/-- What is decided outside of the program in a round of the main loop. -/
structure Round where
  /-- The messages that arrive until `zmq_poll` returns, each at a socket. -/
  arrivals : List (Pointer × List BufferPart)
  /-- How many more entries the tables of the polling set hold without being moved. -/
  spare : Nat
  /-- The result of `zmq_poll`. -/
  polled : Option (PollKey → Nat)
  /-- What the clock shows when it is read. -/
  clock : Nat → Timespec
  /-- SIGINT or SIGTERM is received. -/
  signal : Bool
  /-- Fuel for the data flows. -/
  fuel : Nat

/-- The state of the main loop. -/
structure LoopState where
  /-- The signal handler has been called. -/
  end_signal_received : Bool
  /-- The manager. -/
  manager : BlockManager

/-- The condition of the main loop. -/
def LoopState.goesOn (state : LoopState) : Bool :=
  state.end_signal_received == false && state.manager.is_term_ == false

/-- One round of the main loop. There is none once the loop has ended, or after undefined
behaviour. -/
def Round.perform (platform : Platform) (round : Round) (state : LoopState) : Option LoopState :=
  if state.goesOn then
    let manager := round.arrivals.foldl BlockManager.arrive state.manager
    match manager.fdPoll platform round.fuel round.spare round.polled with
    | .ok (_, ⟨_, none, false, manager⟩) =>
        some ⟨state.end_signal_received || round.signal,
          BlockManager.timerCheckExp round.clock manager⟩
    | _ => none
  else
    none

/-- The main loop when it is entered. -/
def LoopState.entered (platform : Platform) (identity : String) : LoopState :=
  ⟨false, c3qoMain platform identity⟩

/-- Managers that are the same but for the events in the items of the polling set. -/
def SamePolled (left right : BlockManager) : Prop :=
  ∃ polling : Polling, polling.callback_ = left.world.polling.callback_ ∧
    right = left.withPolling polling

/-! ## Returned events do not matter -/

namespace Polling

variable {left right : Polling}

theorem keys_congr (same : left.callback_ = right.callback_) : left.keys = right.keys := by
  rw [keys_eq_callback, keys_eq_callback, same]

theorem callback_fdAdd_congr (same : left.callback_ = right.callback_) (uninit uninit' : Nat)
    (desc : FileDesc) :
    (left.fdAdd uninit desc).2.callback_ = (right.fdAdd uninit' desc).2.callback_ := by
  by_cases checked : desc.bk ≠ none ∧ (0 ≤ desc.fd ∨ desc.socket ≠ none)
  · by_cases known : desc.key ∈ left.keys
    · have known' : desc.key ∈ right.keys := keys_congr same ▸ known
      obtain ⟨index, found⟩ :=
        Option.ne_none_iff_exists'.mp (mt fdFind_eq_none.mp (not_not.mpr known))
      obtain ⟨index', found'⟩ :=
        Option.ne_none_iff_exists'.mp (mt fdFind_eq_none.mp (not_not.mpr known'))
      rw [fdAdd_known uninit checked found, fdAdd_known uninit' checked found']
      exact same
    · have new' : desc.key ∉ right.keys := keys_congr same ▸ known
      rw [fdAdd_new left uninit checked known, fdAdd_new right uninit' checked new', same]
  · rw [fdAdd_refused uninit checked, fdAdd_refused uninit' checked]
    exact same

theorem callback_fdRemove_congr (same : left.callback_ = right.callback_) (desc : FileDesc) :
    (left.fdRemove desc).callback_ = (right.fdRemove desc).callback_ := by
  rw [(left.fdRemove_eq_filter desc).1, (right.fdRemove_eq_filter desc).1, same]

theorem callback_performFdCalls_congr (same : left.callback_ = right.callback_)
    (uninit : Nat → Nat) (calls : List FdCall) :
    (performFdCalls uninit calls left).2.callback_ =
      (performFdCalls uninit calls right).2.callback_ := by
  induction calls generalizing left right uninit with
  | nil => exact same
  | cons call calls ih =>
      cases call with
      | fdAdd desc => exact ih (callback_fdAdd_congr same (uninit 0) (uninit 0) desc) _
      | fdRemove desc => exact ih (callback_fdRemove_congr same desc) _

end Polling

namespace SamePolled

variable {platform : Platform} {left right : BlockManager}

theorem refl (manager : BlockManager) : SamePolled manager manager :=
  ⟨manager.world.polling, rfl, rfl⟩

theorem callback (same : SamePolled left right) :
    right.world.polling.callback_ = left.world.polling.callback_ := by
  obtain ⟨polling, callbacks, rfl⟩ := same
  exact callbacks

theorem untimed (same : SamePolled left right) (untimed : left.world.tm_list_ = []) :
    right.world.tm_list_ = [] := by
  obtain ⟨polling, -, rfl⟩ := same
  exact untimed

theorem symm (same : SamePolled left right) : SamePolled right left := by
  obtain ⟨polling, callbacks, rfl⟩ := same
  exact ⟨left.world.polling, callbacks.symm, rfl⟩

theorem trans {third : BlockManager} (first : SamePolled left right)
    (second : SamePolled right third) : SamePolled left third := by
  obtain ⟨polling, callbacks, rfl⟩ := first
  obtain ⟨polling', callbacks', rfl⟩ := second
  exact ⟨polling', callbacks'.trans callbacks, rfl⟩

theorem setRevents (manager : BlockManager) (revents : PollKey → Nat) :
    SamePolled manager (manager.withPolling (manager.world.polling.setRevents revents)) :=
  ⟨manager.world.polling.setRevents revents, rfl, rfl⟩

theorem arrive (same : SamePolled left right) (message : Pointer × List BufferPart) :
    SamePolled (left.arrive message) (right.arrive message) := by
  obtain ⟨polling, callbacks, rfl⟩ := same
  exact ⟨polling, callbacks, rfl⟩

/-- The callbacks of a descriptor have results that are the same in this sense. -/
theorem onFd (same : SamePolled left right) {fuel : Nat} {desc : FileDesc} {after : BlockManager}
    (done : onFd platform fuel desc left = .ok after) :
    ∃ after', C3qo.onFd platform fuel desc right = .ok after' ∧ SamePolled after after' := by
  obtain ⟨polling, callbacks, rfl⟩ := same
  obtain ⟨made, result, later⟩ := onFd_calls platform fuel desc left
  refine ⟨after.withPolling (made.perform polling), ?_, made.perform polling, ?_, rfl⟩
  · rw [result polling, done]
    rfl
  · rw [(later after done).1]
    exact Polling.callback_performFdCalls_congr callbacks made.uninit made.calls

end SamePolled

/-! ## One position of a pass -/

theorem map_eq_ok {ε α β : Type*} {f : α → β} {result : Except ε α} {value : β}
    (mapped : result.map f = .ok value) : ∃ source, result = .ok source ∧ f source = value := by
  cases result with
  | error => cases mapped
  | ok source => exact ⟨source, rfl, Except.ok.inj mapped⟩

namespace BlockManager

variable {platform : Platform} {fuel ret capacity left position count : Nat}
  {manager next : BlockManager} {item : PollItem} {desc : FileDesc}

theorem fdPollLoop_outside (missing : manager.world.polling.fd_[position]? = none) :
    manager.fdPollLoop platform fuel ret capacity (left + 1) position count =
      .ok ⟨[], some position, false, manager⟩ := by
  simp only [fdPollLoop, missing]

theorem fdPollLoop_idle (polled : manager.world.polling.fd_[position]? = some item)
    (callback : manager.world.polling.callback_[position]? = some desc)
    (idle : item.ready = false) :
    manager.fdPollLoop platform fuel ret capacity (left + 1) position count =
      if count = ret then .ok ⟨[], none, false, manager⟩
      else manager.fdPollLoop platform fuel ret capacity left (position + 1) count := by
  simp only [fdPollLoop, polled, callback]
  rw [if_neg (by simp [idle])]

theorem fdPollLoop_ready (polled : manager.world.polling.fd_[position]? = some item)
    (callback : manager.world.polling.callback_[position]? = some desc)
    (ready : item.ready = true) (called : onFd platform fuel desc manager = .ok next) :
    manager.fdPollLoop platform fuel ret capacity (left + 1) position count =
      if count + 1 = ret then .ok ⟨[desc], none, false, next⟩
      else if capacity < next.world.polling.callback_.length then .ok ⟨[desc], none, true, next⟩
      else (next.fdPollLoop platform fuel ret capacity left (position + 1) (count + 1)).map
        fun pass => pass.after desc := by
  simp only [fdPollLoop, polled, callback]
  rw [if_pos ready, called]

theorem fdPollLoop_fault {fault : Fault}
    (polled : manager.world.polling.fd_[position]? = some item)
    (callback : manager.world.polling.callback_[position]? = some desc)
    (ready : item.ready = true) (called : onFd platform fuel desc manager = .error fault) :
    manager.fdPollLoop platform fuel ret capacity (left + 1) position count = .error fault := by
  simp only [fdPollLoop, polled, callback]
  rw [if_pos ready, called]

/-- A pass in which nothing is ready ends with the poll. -/
theorem fdPoll_of_idle (platform : Platform) (fuel spare : Nat) {revents : PollKey → Nat}
    (idle : manager.world.polling.returned revents = 0) :
    manager.fdPoll platform fuel spare (some revents) = .ok (0, ⟨[], none, false,
      manager.withPolling (manager.world.polling.setRevents revents)⟩) := if_pos idle

/-- Unless `zmq_poll` returned zero, a pass is its loop. -/
theorem fdPoll_of_returned (platform : Platform) (fuel spare : Nat) {revents : PollKey → Nat}
    (busy : manager.world.polling.returned revents ≠ 0) :
    manager.fdPoll platform fuel spare (some revents) =
      ((manager.withPolling (manager.world.polling.setRevents revents)).fdPollLoop platform fuel
        (manager.world.polling.returned revents) (manager.world.polling.callback_.length + spare)
        manager.world.polling.callback_.length 0 0).map
          fun pass => ((manager.world.polling.returned revents : Int), pass) := by
  have length : manager.world.polling.callback_.length =
      (manager.world.polling.setRevents revents).fd_.length :=
    (manager.world.polling.setRevents revents).length_callback
  rw [length]
  exact if_neg busy

/-- What a position of a pass can be: outside the tables, an entry that is not ready, or one that
is, whose callback is called. -/
theorem fdPollLoop_cases (platform : Platform) (fuel position : Nat) (manager : BlockManager) :
    manager.world.polling.fd_[position]? = none ∨
    ∃ item desc, manager.world.polling.fd_[position]? = some item ∧
      manager.world.polling.callback_[position]? = some desc ∧
      (item.ready = false ∨ item.ready = true ∧
        ((∃ fault, onFd platform fuel desc manager = .error fault) ∨
          ∃ next, onFd platform fuel desc manager = .ok next)) := by
  rcases polled : manager.world.polling.fd_[position]? with _ | item
  · exact .inl rfl
  · obtain ⟨desc, callback, -⟩ := Polling.exists_callback polled
    refine .inr ⟨item, desc, rfl, callback, ?_⟩
    rcases item.ready with _ | _
    · exact .inl rfl
    · refine .inr ⟨rfl, ?_⟩
      rcases onFd platform fuel desc manager with fault | next
      · exact .inl ⟨fault, rfl⟩
      · exact .inr ⟨next, rfl⟩

end BlockManager

/-! ## Rounds are sequences of activities -/

/-- Taking an event is calling the callback of a polled descriptor. -/
theorem perform_onFd_iff {platform : Platform} {desc : FileDesc} {fuel : Nat}
    {manager next : BlockManager} :
    (Activity.onFd desc fuel).perform platform manager = some next ↔
      desc ∈ manager.world.polling.callback_ ∧ onFd platform fuel desc manager = .ok next := by
  dsimp only [Activity.perform]
  rcases onFd platform fuel desc manager with fault | after <;>
    split_ifs with polled <;> simp [polled, Except.toOption]

section

variable {platform : Platform} {fuel : Nat} {manager other : BlockManager} {pass : Pass}

/-- The callbacks of a pass are activities. -/
theorem activities_of_fdPollLoop {ret capacity left position count : Nat}
    (same : SamePolled manager other)
    (done : manager.fdPollLoop platform fuel ret capacity left position count = .ok pass) :
    ∃ final, Execution.run (Activity.perform platform)
        (pass.dispatched.map fun desc => .onFd desc fuel) other = some final ∧
      SamePolled pass.manager final := by
  induction left generalizing position count manager other pass with
  | zero =>
      cases done
      exact ⟨other, rfl, same⟩
  | succ left ih =>
      rcases BlockManager.fdPollLoop_cases platform fuel position manager with
        missing | ⟨item, desc, polled, callback, idle | ⟨ready, ⟨fault, called⟩ | ⟨next, called⟩⟩⟩
      · rw [BlockManager.fdPollLoop_outside missing] at done
        cases done
        exact ⟨other, rfl, same⟩
      · rw [BlockManager.fdPollLoop_idle polled callback idle] at done
        split_ifs at done
        · cases done
          exact ⟨other, rfl, same⟩
        · exact ih same done
      · rw [BlockManager.fdPollLoop_fault polled callback ready called] at done
        cases done
      · obtain ⟨next', called', same'⟩ := same.onFd called
        have member : desc ∈ other.world.polling.callback_ :=
          same.callback ▸ List.mem_of_getElem? callback
        have taken : Activity.perform platform (.onFd desc fuel) other = some next' :=
          perform_onFd_iff.mpr ⟨member, called'⟩
        rw [BlockManager.fdPollLoop_ready polled callback ready called] at done
        split_ifs at done
        · cases done
          exact ⟨next', by simp [Execution.run, taken], same'⟩
        · cases done
          exact ⟨next', by simp [Execution.run, taken], same'⟩
        · obtain ⟨rest, walked, rfl⟩ := map_eq_ok done
          obtain ⟨final, run, same''⟩ := ih same' walked
          refine ⟨final, ?_, same''⟩
          rw [Pass.dispatched_after, List.map_cons, Execution.run_cons, taken]
          exact run

theorem activities_of_fdPoll {spare : Nat} {polled : Option (PollKey → Nat)} {ret : Int}
    (same : SamePolled manager other)
    (done : manager.fdPoll platform fuel spare polled = .ok (ret, pass)) :
    ∃ final, Execution.run (Activity.perform platform)
        (pass.dispatched.map fun desc => .onFd desc fuel) other = some final ∧
      SamePolled pass.manager final := by
  cases polled with
  | none =>
      cases done
      exact ⟨other, rfl, same⟩
  | some revents =>
      have same' : SamePolled
          (manager.withPolling (manager.world.polling.setRevents revents)) other :=
        (SamePolled.setRevents manager revents).symm.trans same
      dsimp only [BlockManager.fdPoll] at done
      split_ifs at done
      · cases done
        exact ⟨other, rfl, same'⟩
      · obtain ⟨walked, loop, rest⟩ := map_eq_ok done
        cases rest
        exact activities_of_fdPollLoop same' loop

/-- The arrival of messages is a sequence of activities. -/
theorem run_arrivals (platform : Platform) (arrivals : List (Pointer × List BufferPart))
    (manager : BlockManager) :
    Execution.run (Activity.perform platform)
      (arrivals.map fun message => Activity.arrive message.1 message.2) manager =
        some (arrivals.foldl BlockManager.arrive manager) := by
  induction arrivals generalizing manager with
  | nil => rfl
  | cons message arrivals ih => exact ih (manager.arrive message)

theorem SamePolled.arrivals (same : SamePolled manager other)
    (arrivals : List (Pointer × List BufferPart)) :
    SamePolled (arrivals.foldl BlockManager.arrive manager)
      (arrivals.foldl BlockManager.arrive other) := by
  induction arrivals generalizing manager other with
  | nil => exact same
  | cons message arrivals ih => exact ih (same.arrive message)

end

/-! ## Timers -/

/-- No block of the repository adds a timer. -/
theorem stable_untimed (platform : Platform) :
    Stable platform fun manager => manager.world.tm_list_ = [] where
  record _ _ untimed := untimed
  counted _ _ _ _ _ _ untimed := untimed
  hook _ _ _ _ _ _ _ untimed := untimed
  zmq _ _ untimed := untimed
  operation manager operation untimed := by
    refine Operation.perform_preserves (virtual platform) manager
      (fun after => after.world.tm_list_ = []) (fun after change => ?_)
      (fun id ref block _ _ _ => (stop_frame ref manager.world).1.trans untimed)
      fun _ _ _ _ _ _ => untimed
    cases change with
    | same after blocks world trace => exact (congrArg World.tm_list_ world).trans untimed
    | refused factory world answer => exact (World.constructor_frame answer).1.trans untimed
    | built id type_ factory free registered world answer =>
        exact (World.constructor_frame answer).1.trans untimed
    | started ref block object idle =>
        exact (start_frame platform ref manager.world).1.trans untimed
    | bound src port dst live_src live_dst => exact untimed
  stop_ _ untimed := untimed

/-- Without timers, `timer_check_exp` does nothing. -/
theorem BlockManager.timerCheckExp_of_untimed {manager : BlockManager}
    (untimed : manager.world.tm_list_ = []) (clock : Nat → Timespec) :
    manager.timerCheckExp clock = manager := by
  unfold timerCheckExp
  rw [untimed]
  obtain ⟨is_term_, factories, blocks, ⟨derived, tm_list_, polling, zmq, log⟩, trace⟩ := manager
  cases untimed
  rfl

/-- The state of the main loop is one that activities lead to, up to returned events. -/
structure Matches (platform : Platform) (state : LoopState) (manager : BlockManager) : Prop where
  /-- The manager differs in returned events at most. -/
  same : SamePolled state.manager manager
  /-- There are no timers. -/
  untimed : manager.world.tm_list_ = []

/-- What blocks do not lose, activities do not lose. -/
theorem Steady.activity {platform : Platform} {Holds : BlockManager → Prop}
    (steady : Steady platform Holds) {activity : Activity} {manager next : BlockManager}
    (start : Holds manager) (taken : activity.perform platform manager = some next) :
    Holds next := by
  cases activity with
  | arrive address parts =>
      obtain rfl := Option.some.inj taken
      exact steady.zmq _ _ (.arrive address _ _) start
  | onFd desc fuel => exact steady.onFd start (perform_onFd_iff.mp taken).2

theorem Steady.activities {platform : Platform} {Holds : BlockManager → Prop}
    (steady : Steady platform Holds) {activities : List Activity} {manager final : BlockManager}
    (start : Holds manager)
    (execution : Execution.run (Activity.perform platform) activities manager = some final) :
    Holds final :=
  Execution.invariant_of_run (fun _ _ _ holds taken => steady.activity holds taken) start execution

/-- What a round comes to: messages arrive, and callbacks are called. -/
def Round.activities (round : Round) (dispatched : List FileDesc) : List Activity :=
  round.arrivals.map (fun message => .arrive message.1 message.2) ++
    dispatched.map fun desc => .onFd desc round.fuel

/-- A round that is taken is a pass that stays inside the tables, which are not moved under it. -/
theorem Round.perform_eq_some {platform : Platform} {round : Round} {state next : LoopState}
    (taken : round.perform platform state = some next) :
    state.goesOn = true ∧ ∃ ret pass,
      (round.arrivals.foldl BlockManager.arrive state.manager).fdPoll platform round.fuel
        round.spare round.polled = .ok (ret, pass) ∧ pass.outside = none ∧ pass.moved = false ∧
      next = ⟨state.end_signal_received || round.signal,
        pass.manager.timerCheckExp round.clock⟩ := by
  unfold perform at taken
  split_ifs at taken with going
  refine ⟨going, ?_⟩
  dsimp only at taken
  split at taken
  · rename_i ret dispatched after done
    exact ⟨ret, _, done, rfl, rfl, (Option.some.inj taken).symm⟩
  · cases taken

/-- A round is a sequence of activities. -/
theorem simulated_round (platform : Platform) :
    Execution.Simulated (Round.perform platform) (Activity.perform platform)
      (Matches platform) := by
  intro round state next manager related taken
  obtain ⟨-, ret, pass, done, -, -, rfl⟩ := Round.perform_eq_some taken
  obtain ⟨final, callbacks, same'⟩ :=
    activities_of_fdPoll (related.same.arrivals round.arrivals) done
  have whole : Execution.run (Activity.perform platform) (round.activities pass.dispatched)
      manager = some final := by
    rw [Round.activities, Execution.run_append, run_arrivals]
    exact callbacks
  have untimed : final.world.tm_list_ = [] :=
    (stable_untimed platform).steady.activities related.untimed whole
  have untimed' : pass.manager.world.tm_list_ = [] := same'.symm.untimed untimed
  refine ⟨_, final, whole, ?_, untimed⟩
  rw [BlockManager.timerCheckExp_of_untimed untimed']
  exact same'

/-! ## Activities are sequences of rounds -/

/-- Returned events for one entry alone. -/
def only (key other : PollKey) : Nat := if other = key then ZMQ_POLLIN else 0

theorem returned_only {polling : Polling} {desc : FileDesc} (member : desc ∈ polling.callback_) :
    polling.returned (only desc.key) = 1 := by
  have there : desc.key ∈ polling.keys :=
    polling.keys_eq_callback ▸ List.mem_map_of_mem (f := FileDesc.key) member
  rw [polling.returned_eq, ← List.count_eq_one_of_mem polling.keys_nodup there, List.count]
  refine List.countP_congr fun key _ => ?_
  by_cases same : key = desc.key
  · simp [only, same, ZMQ_POLLIN]
  · simp [only, same]

section

variable {platform : Platform} {fuel : Nat} {manager : BlockManager} {desc : FileDesc}
  {capacity target : Nat}

/-- The items that a pass finds after one entry alone has become ready. -/
theorem ready_only {polling : Polling} {position : Nat} {item : PollItem} {other : FileDesc}
    (callback : polling.callback_[target]? = some desc)
    (polled : (polling.setRevents (only desc.key)).fd_[position]? = some item)
    (there : polling.callback_[position]? = some other) :
    item.ready = decide (position = target) := by
  have there' : (polling.setRevents (only desc.key)).callback_[position]? = some other := there
  have key : other.key = item.key := Polling.callback_key there' polled
  have stamp : item.stamp ∈ (polling.setRevents (only desc.key)).stamps :=
    List.mem_map_of_mem (List.mem_of_getElem? polled)
  have ready : item.ready = readyEvents (only desc.key item.key) := by
    rw [PollItem.ready_eq, polling.polled_setRevents _ _ stamp]
    rfl
  rw [ready, ← key]
  by_cases same : position = target
  · obtain rfl : other = desc := by
      rw [same, callback] at there
      exact (Option.some.inj there).symm
    simp [only, same, readyEvents, ZMQ_POLLIN, ZMQ_POLLOUT]
  · have different : other.key ≠ desc.key := by
      intro clash
      obtain rfl := Polling.callback_unique (List.mem_of_getElem? there)
        (List.mem_of_getElem? callback) clash
      obtain ⟨bound, -⟩ := List.getElem?_eq_some_iff.mp there
      exact same ((List.getElem?_inj bound polling.callback_nodup).mp (there.trans callback.symm))
    simp [only, same, different, readyEvents]

/-- A pass in which one entry alone is ready calls its callback, and ends. -/
theorem fdPollLoop_only {polling : Polling} (callback : polling.callback_[target]? = some desc)
    (left position : Nat) (range : position + left = polling.callback_.length)
    (before : position ≤ target) :
    (manager.withPolling (polling.setRevents (only desc.key))).fdPollLoop platform fuel 1 capacity
        left position 0 =
      (onFd platform fuel desc (manager.withPolling (polling.setRevents (only desc.key)))).map
        fun next => ⟨[desc], none, false, next⟩ := by
  obtain ⟨bound, -⟩ := List.getElem?_eq_some_iff.mp callback
  induction left generalizing position with
  | zero => omega
  | succ left ih =>
      let polled := polling.setRevents (only desc.key)
      have inside : position < polled.fd_.length := by
        rw [← polled.length_callback]
        exact Nat.lt_of_le_of_lt before bound
      have item_there : polled.fd_[position]? = some polled.fd_[position] :=
        List.getElem?_eq_getElem inside
      obtain ⟨other, there, -⟩ := Polling.exists_callback item_there
      have ready := ready_only callback item_there there
      by_cases arrived : position = target
      · subst arrived
        obtain rfl : other = desc := Option.some.inj (there.symm.trans callback)
        rcases called : onFd platform fuel other (manager.withPolling polled) with fault | next
        · rw [BlockManager.fdPollLoop_fault item_there there (by simp [ready]) called]
          rfl
        · rw [BlockManager.fdPollLoop_ready item_there there (by simp [ready]) called, if_pos rfl]
          rfl
      · rw [BlockManager.fdPollLoop_idle item_there there (by simp [ready, arrived]),
          if_neg (by simp)]
        exact ih (position + 1) (by omega) (by omega)

end

/-- The operations of the manager do not touch the flag of the main loop. -/
theorem is_term_perform {F W : Type} (virtual : Virtual F W) (manager : Manager F W)
    (operation : Operation F) :
    (operation.perform virtual manager).is_term_ = manager.is_term_ := by
  cases operation with
  | blockAdd id type_ =>
      simp only [Operation.perform, Manager.blockAdd]
      split
      · rfl
      · split
        · rfl
        · split <;> rfl
  | blockStart id =>
      simp only [Operation.perform, Manager.blockStart]
      split
      · rfl
      · split_ifs <;> rfl
  | blockStop id =>
      rcases manager.blockStop_cases virtual id with same | ⟨ref, block, -, -, stopped⟩
      · rw [Operation.perform, same]
      · rw [Operation.perform, stopped]
        rfl
  | blockDel id =>
      rcases manager.blockDel_cases virtual id with
        ⟨-, same⟩ | ⟨ref, block, factory, -, -, -, gone⟩
      · rw [Operation.perform, same]
      · rw [Operation.perform, gone]
        rfl
  | blockBind idSrc port idDst =>
      simp only [Operation.perform, Manager.blockBind]
      split <;> rfl
  | blockFactoryRegister type_ factory =>
      simp only [Operation.perform, Manager.blockFactoryRegister]
      split <;> rfl
  | blockFactoryUnregister type_ => rfl
  | blockFactoryClear => rfl

/-- The end of the main loop is for good. -/
theorem steady_terminated (platform : Platform) :
    Steady platform fun manager => manager.is_term_ = true where
  record _ _ terminated := terminated
  counted _ _ _ _ _ _ terminated := terminated
  hook _ _ _ _ _ _ _ _ _ terminated := terminated
  zmq _ _ _ terminated := terminated
  operation manager operation terminated :=
    (is_term_perform (virtual platform) manager operation).trans terminated
  stop_ _ _ := rfl

section

variable {platform : Platform} {manager next final : BlockManager} {state : LoopState}

theorem untimed_of_activity {activity : Activity} (untimed : manager.world.tm_list_ = [])
    (taken : activity.perform platform manager = some next) : next.world.tm_list_ = [] := by
  have alone : Execution.run (Activity.perform platform) [activity] manager = some next := by
    simp [Execution.run, taken]
  exact (stable_untimed platform).steady.activities untimed alone

/-- An activity is a round of the main loop, as long as that goes on. -/
theorem round_of_activity {activity : Activity} (same : SamePolled manager state.manager)
    (untimed : manager.world.tm_list_ = []) (going : state.goesOn = true)
    (taken : activity.perform platform manager = some next) :
    ∃ round next', Round.perform platform round state = some next' ∧
      SamePolled next next'.manager ∧ next'.end_signal_received = state.end_signal_received := by
  cases activity with
  | arrive address parts =>
      obtain rfl := Option.some.inj taken
      let round : Round := ⟨[(address, parts)], 0, none, fun _ => ⟨0, 0⟩, false, 0⟩
      have same' := same.arrive (address, parts)
      have untimed' : (state.manager.arrive (address, parts)).world.tm_list_ = [] :=
        same.untimed untimed
      have performed : round.perform platform state = some
          ⟨state.end_signal_received || false,
            (state.manager.arrive (address, parts)).timerCheckExp round.clock⟩ := if_pos going
      refine ⟨round, _, performed, ?_, Bool.or_false _⟩
      rw [BlockManager.timerCheckExp_of_untimed untimed']
      exact same'
  | onFd desc fuel =>
      have untimed' : next.world.tm_list_ = [] := untimed_of_activity untimed taken
      obtain ⟨member, called⟩ := perform_onFd_iff.mp taken
      rw [← same.callback] at member
      obtain ⟨target, callback⟩ := List.mem_iff_getElem?.mp member
      let round : Round := ⟨[], 0, some (only desc.key), fun _ => ⟨0, 0⟩, false, fuel⟩
      obtain ⟨next', called', same'⟩ :=
        (same.trans (.setRevents state.manager (only desc.key))).onFd called
      have ret : state.manager.world.polling.returned (only desc.key) = 1 := returned_only member
      have pass : state.manager.fdPoll platform fuel 0 (some (only desc.key)) =
          .ok (1, ⟨[desc], none, false, next'⟩) := by
        rw [BlockManager.fdPoll_of_returned platform fuel 0 (by omega), ret,
          fdPollLoop_only callback _ 0 (Nat.zero_add _) (Nat.zero_le _), called']
        rfl
      have performed : round.perform platform state = some
          ⟨state.end_signal_received || false, next'.timerCheckExp round.clock⟩ := by
        unfold Round.perform
        rw [if_pos going]
        dsimp only [round, List.foldl_nil]
        rw [pass]
      refine ⟨round, _, performed, ?_, Bool.or_false _⟩
      rw [BlockManager.timerCheckExp_of_untimed (same'.untimed untimed')]
      exact same'

/-- Activities that do not end the main loop are rounds of it. -/
theorem rounds_of_activities {activities : List Activity}
    (same : SamePolled manager state.manager) (untimed : manager.world.tm_list_ = [])
    (quiet : state.end_signal_received = false)
    (execution : Execution.run (Activity.perform platform) activities manager = some final)
    (going : final.is_term_ = false) :
    ∃ rounds state', Execution.run (Round.perform platform) rounds state = some state' ∧
      SamePolled final state'.manager := by
  induction activities generalizing manager state with
  | nil =>
      obtain rfl := Option.some.inj execution
      exact ⟨[], state, rfl, same⟩
  | cons activity activities ih =>
      obtain ⟨next, taken, rest⟩ := Option.bind_eq_some_iff.mp execution
      have running : state.manager.is_term_ = false := by
        rw [← Bool.not_eq_true]
        intro ended
        obtain ⟨polling, -, there⟩ := same
        have ended' : manager.is_term_ = true := by
          rw [there] at ended
          exact ended
        rw [(steady_terminated platform).activities ended' execution] at going
        cases going
      obtain ⟨round, next', performed, same', signal⟩ :=
        round_of_activity same untimed (by simp [LoopState.goesOn, quiet, running]) taken
      have untimed' := untimed_of_activity untimed taken
      obtain ⟨rounds, state', run, same''⟩ := ih same' untimed' (signal.trans quiet) rest
      exact ⟨round :: rounds, state', by rw [Execution.run_cons, performed]; exact run, same''⟩

end

/-- In no state of the main loop of `c3qo` is there a timer. The states in which it waits are, up to
the returned events that `zmq_poll` has left, those that the arrival of messages and the callbacks
of polled descriptors lead to. -/
theorem mainLoop_reaches_iff (platform : Platform) (identity : String) :
    (∀ rounds state, Execution.run (Round.perform platform) rounds
      (.entered platform identity) = some state → state.manager.world.tm_list_ = []) ∧
    ∀ manager : BlockManager, manager.is_term_ = false →
      ((∃ rounds state, Execution.run (Round.perform platform) rounds
          (.entered platform identity) = some state ∧ SamePolled manager state.manager) ↔
        ∃ activities final, Execution.run (Activity.perform platform) activities
          (c3qoMain platform identity) = some final ∧ SamePolled manager final) := by
  have untimed : (c3qoMain platform identity).world.tm_list_ = [] :=
    (stable_untimed platform).steady.c3qoMain rfl (fun _ untimed => untimed) identity
  have start : Matches platform (.entered platform identity) (c3qoMain platform identity) :=
    ⟨SamePolled.refl (c3qoMain platform identity), untimed⟩
  refine ⟨fun rounds state execution => ?_, fun manager going => ⟨?_, ?_⟩⟩
  · obtain ⟨_, final, -, matches_⟩ := (simulated_round platform).run start execution
    exact matches_.same.symm.untimed matches_.untimed
  · rintro ⟨rounds, state, execution, same⟩
    obtain ⟨activities, final, run, matches_⟩ := (simulated_round platform).run start execution
    exact ⟨activities, final, run, same.trans matches_.same⟩
  · rintro ⟨activities, final, execution, same⟩
    have running : final.is_term_ = false := by
      obtain ⟨polling, -, rfl⟩ := same
      exact going
    have quiet : (LoopState.entered platform identity).end_signal_received = false := rfl
    obtain ⟨rounds, state, run, same'⟩ :=
      rounds_of_activities start.same.symm untimed quiet execution running
    exact ⟨rounds, state, run, same.trans same'⟩

/-- `c3qo` executes a command. -/
theorem mainLoop_reaches_command : ∃ manager,
    Execution.run (Activity.perform twoCommands) [commandArrives [1], .onFd clientDesc 2]
      (c3qoMain twoCommands "c3qo") = some manager ∧
    ∃ rounds state, Execution.run (Round.perform twoCommands) rounds
      (.entered twoCommands "c3qo") = some state ∧ SamePolled manager state.manager ∧
      state.manager.world.tm_list_ = [] := by
  have outcome : (Execution.run (Activity.perform twoCommands)
      [commandArrives [1], .onFd clientDesc 2] (c3qoMain twoCommands "c3qo")).map
        Manager.is_term_ = some false := by decide +kernel
  obtain ⟨manager, execution, going⟩ := Option.map_eq_some_iff.mp outcome
  obtain ⟨untimed, reaches⟩ := mainLoop_reaches_iff twoCommands "c3qo"
  obtain ⟨rounds, state, run, same⟩ := (reaches manager going).mpr ⟨_, manager, execution, .refl _⟩
  exact ⟨manager, execution, rounds, state, run, same, untimed rounds state run⟩

end C3qo
