import C3qo.ExpectedAnswer
import C3qo.Network
import C3qo.Teardown

/-!
# A run of `ncli`

`main` of `ncli.cpp` sends the command of its command line once. It looks at the messages that come
in until one of them is the answer that it expects or a second has gone by, and its status tells
which it was. It leaves nothing behind that it has registered.
-/

namespace C3qo

namespace Ncli

/-- What `main` runs on. Its hook is the block 0 and its `ncli` the block 1, whose `start_` sends
its buffer over the hook. -/
def host (platform : Platform) (interrupted : Nat → Bool) (clock : Nat → Timespec)
    (client : Ncli) : Host where
  platform := platform
  interrupted := interrupted
  clock := clock
  flow _ _ world :=
    match world.derived.lookup 0 with
    | some (.hookZmq hook) =>
        let (_, hook, zmq) := hook.data_ platform (some client.start_) world.zmq
        world.withHook 0 hook world.polling zmq
    | _ => world

/-- The hook that `main` configures, before it is started. -/
def hook (platform : Platform) : HookZmq :=
  { HookZmq.new (platform.hookMemory 0) with
    client_ := true, type_ := ZMQ_PAIR, addr_ := "tcp://127.0.0.1:1665" }

/-- `main` up to its loop. The options have been parsed into the `ncli`. -/
def entered (platform : Platform) (interrupted : Nat → Bool) (clock : Nat → Timespec)
    (client : Ncli) : HostManager :=
  let virtual := hostVirtual (client.host platform interrupted clock)
  let manager := (Manager.new HostWorld.empty).blockFactoryRegister "hook_zmq" (.block .hookZmq)
  let (_, manager) := manager.blockAdd virtual 1 "hook_zmq"
  let manager := manager.blockFactoryRegister "ncli" .ncli
  let (_, manager) := manager.blockAdd virtual 2 "ncli"
  let manager := HostManager.setWorld manager { manager.world.world with
    derived := manager.world.world.derived.insert 0 (.hookZmq (hook platform)) }
  let (_, manager) := manager.blockBind virtual 1 0 2
  let (_, manager) := manager.blockBind virtual 2 0 1
  let (_, manager) := manager.blockStart virtual 1
  let (_, manager) := manager.blockStart virtual 2
  manager

end Ncli

/-- The state of the loop of `main`. -/
structure NcliState where
  /-- The manager. -/
  manager : HostManager
  /-- An expected answer has been received. -/
  received_answer_ : Bool
  /-- The timer has expired. -/
  timeout_expired_ : Bool

namespace NcliState

/-- The condition of the loop. -/
def goesOn (state : NcliState) : Bool :=
  state.received_answer_ == false && state.timeout_expired_ == false

/-- The state with another world. -/
def withWorld (state : NcliState) (world : World) : NcliState :=
  { state with manager := HostManager.setWorld state.manager world }

/-- `block::process_data_`. Neither block of this program forwards what it is handed. -/
def processData (platform : Platform) (client : Ncli) (buf : Buffer) (source : BlockRef)
    (state : NcliState) : NcliState :=
  match state.manager.blocks.deref source >>= Block.sink_ with
  | none => state
  | some sink =>
      match HostManager.hook state.manager sink with
      | some hook =>
          let world := state.manager.world.world
          let (_, hook, zmq) := hook.data_ platform (some buf) world.zmq
          state.withWorld (world.withHook sink hook world.polling zmq)
      | none =>
          if sink ∈ state.manager.world.nclis then
            { state with
              received_answer_ := client.receive platform buf state.received_answer_ }
          else
            state

/-- `hook_zmq::on_fd_`, called through the descriptor of a polling entry. -/
def onFd (platform : Platform) (client : Ncli) (state : NcliState) (desc : FileDesc) :
    NcliState :=
  match desc.bk with
  | none => state
  | some ref =>
      match HostManager.hook state.manager ref with
      | none => state
      | some hook =>
          if desc.socket = hook.zmq_sock_.socket then
            let world := state.manager.world.world
            let (ok, buf, zmq) := hook.recv_ Buffer.empty world.zmq
            if ok then
              let hook := { hook with rx_pkt_ := hook.rx_pkt_ + 1 }
              (state.withWorld (world.withHook ref hook world.polling zmq)).processData platform
                client buf ref
            else
              state.withWorld { world with zmq := zmq }
          else
            state

/-- `manager::timer_check_exp`, with `ncli::on_timer_`. -/
def timerCheckExp (clock : Nat → Timespec) (state : NcliState) : NcliState :=
  let world := state.manager.world.world
  match C3qo.timerCheckExp clock (fun _ _ => []) (world.tm_list_.length + 1) world.tm_list_ with
  | none => state
  | some (expired, tm_list_) =>
      { state.withWorld { world with tm_list_ := tm_list_ } with
        timeout_expired_ := state.timeout_expired_ || expired.any fun fired =>
          fired.1.bk.any fun ref => ref ∈ state.manager.world.nclis }

/-- A message has arrived at a socket. -/
def arrive (state : NcliState) (message : Pointer × List BufferPart) : NcliState :=
  state.withWorld { state.manager.world.world with
    zmq := state.manager.world.world.zmq.arrive message.1 (framesOf message.2) }

/-- `manager::fd_poll`. No callback of this program adds or removes a descriptor. -/
def fdPoll (platform : Platform) (client : Ncli) (polled : Option (PollKey → Nat))
    (state : NcliState) : NcliState :=
  let world := state.manager.world.world
  let (_, events, polling) := C3qo.fdPoll polled (fun _ _ => []) (fun _ _ => 0) world.polling
  (dispatched events).foldl (NcliState.onFd platform client)
    (state.withWorld { world with polling := polling })

end NcliState

/-- One round of the loop of `ncli`, of which there is none once it has ended. -/
def Round.wait (platform : Platform) (client : Ncli) (round : Round) (state : NcliState) :
    Option NcliState :=
  if state.goesOn then
    some (((round.arrivals.foldl NcliState.arrive state).fdPoll platform client
      round.polled).timerCheckExp round.clock)
  else
    none

/-- The end of a run of `ncli`. -/
structure NcliOutcome where
  /-- The state in which the loop ends. -/
  state : NcliState
  /-- The manager in the end. -/
  manager : HostManager

/-- The status that `main` returns. -/
def NcliOutcome.return_status (outcome : NcliOutcome) : Int :=
  if outcome.state.received_answer_ then 0 else 1

namespace Ncli

/-- What `main` does after its loop. -/
def destroy (host : Host) (manager : HostManager) : HostManager :=
  let virtual := hostVirtual host
  let (_, manager) := manager.blockStop virtual 1
  let (_, manager) := manager.blockStop virtual 2
  let (_, manager) := manager.blockDel virtual 1
  let (_, manager) := manager.blockDel virtual 2
  (manager.blockFactoryUnregister "ncli").blockFactoryUnregister "hook_zmq"

/-- `main` of `ncli.cpp`, if its loop ends after these rounds. -/
def main (platform : Platform) (interrupted : Nat → Bool) (clock : Nat → Timespec) (client : Ncli)
    (rounds : List Round) : Option NcliOutcome :=
  Execution.run (Round.wait platform client) rounds
      ⟨client.entered platform interrupted clock, false, false⟩ >>= fun state =>
    if state.goesOn then
      none
    else
      some ⟨state, destroy (client.host platform interrupted clock) state.manager⟩

end Ncli

/-! ## Waiting for something -/

/-- The flag tells whether one of these is accepted. None but the last of them is. -/
structure Waited {α : Type*} (accept : α → Bool) (seen : List α) (flag : Bool) : Prop where
  /-- The flag. -/
  flag_eq : flag = seen.any accept
  /-- Nothing has come after one that is accepted. -/
  last : ∀ element ∈ seen.dropLast, accept element = false

/-- As long as the flag is not set, one more may come. -/
theorem Waited.push {α : Type*} {accept : α → Bool} {seen now : List α}
    (waited : Waited accept seen false) (short : now.length ≤ 1) :
    Waited accept (seen ++ now) (now.any accept) := by
  have none_yet : ∀ element ∈ seen, accept element = false := by
    simpa using waited.flag_eq
  have any_seen : seen.any accept = false := waited.flag_eq.symm
  rcases now with _ | ⟨element, now⟩
  · rw [List.append_nil]
    exact ⟨any_seen.symm, waited.last⟩
  · obtain rfl : now = [] :=
      List.length_eq_zero_iff.mp (Nat.le_zero.mp (Nat.le_of_succ_le_succ short))
    refine ⟨by rw [List.any_append, any_seen, Bool.false_or], ?_⟩
    rw [List.dropLast_concat]
    exact none_yet

/-! ## Tables -/

/-- A hook that keeps its context and its descriptor changes no tables. -/
theorem sameTables_withHook {world : World} {ref : BlockRef} {hook hook' : HookZmq} {zmq : Zmq}
    (kind : world.derived.lookup ref = some (.hookZmq hook)) (same : hook'.claim = hook.claim)
    (keeps : world.zmq.Keeps zmq) :
    SameTables world (world.withHook ref hook' world.polling zmq) := by
  refine ⟨rfl, rfl, keeps, fun other => ?_, fun other => ?_⟩
  · by_cases here : other = ref
    · subst here
      dsimp only [World.withHook]
      rw [Finmap.lookup_insert, kind]
      rfl
    · exact congrArg (Option.map Derived.factory) (Finmap.lookup_insert_of_ne _ here)
  · by_cases here : other = ref
    · subst here
      dsimp only [World.withHook]
      rw [Finmap.lookup_insert, kind]
      exact congrArg some same
    · exact congrArg (fun found => found >>= Derived.claim) (Finmap.lookup_insert_of_ne _ here)

/-- Neither does what the library does by itself. -/
theorem sameTables_zmq (world : World) {zmq : Zmq} (keeps : world.zmq.Keeps zmq) :
    SameTables world { world with zmq := zmq } :=
  ⟨rfl, rfl, keeps, fun _ => rfl, fun _ => rfl⟩

theorem HostManager.setWorld_self (manager : HostManager) :
    HostManager.setWorld manager manager.world.world = manager := rfl

/-- The hook behind a pointer is known from its claim. -/
theorem HostManager.hook_iff {manager : HostManager} {ref : BlockRef} {claim : Claim} :
    (∃ hook, manager.hook ref = some hook ∧ hook.claim = claim) ↔
      manager.world.world.derived.lookup ref >>= Derived.claim = some claim := by
  constructor
  · rintro ⟨hook, found, rfl⟩
    rw [hook_eq_some_iff.mp found]
    rfl
  · intro held
    obtain ⟨derived, kind, claimed⟩ := Option.bind_eq_some_iff.mp held
    cases derived with
    | hookZmq hook => exact ⟨hook, hook_eq_some_iff.mpr kind, Option.some.inj claimed⟩
    | _ => cases claimed

theorem HostManager.hook_eq_none {manager : HostManager} {ref : BlockRef}
    (unclaimed : manager.world.world.derived.lookup ref >>= Derived.claim = none) :
    manager.hook ref = none := by
  refine Option.eq_none_iff_forall_ne_some.mpr fun hook found => ?_
  cases unclaimed.symm.trans (hook_iff.mp ⟨hook, found, rfl⟩)

/-- A single hook is found behind its own pointer only. -/
theorem HostManager.eq_zero_of_hook {manager : HostManager} {ref : BlockRef} {hook : HookZmq}
    (others : ∀ ref, ref ≠ 0 → manager.world.world.derived.lookup ref >>= Derived.claim = none)
    (found : manager.hook ref = some hook) : ref = 0 := by
  by_contra other
  cases (hook_eq_none (others ref other)).symm.trans found

/-! ## A pass without changes -/

/-- Callbacks that add and remove no descriptors leave the polling set alone, and there is at most
one of them for each position. -/
theorem fdPollLoop_idle (uninit : Nat → Nat → Nat) (ret left position count : Nat)
    (polling : Polling) :
    (fdPollLoop (fun _ _ => []) uninit ret left position count polling).2 = polling ∧
      (dispatched (fdPollLoop (fun _ _ => []) uninit ret left position count polling).1).length ≤
        left := by
  induction left generalizing position count with
  | zero => exact ⟨rfl, Nat.le_refl 0⟩
  | succ left ih =>
      unfold fdPollLoop
      split
      · rename_i item desc _ _
        split_ifs with ready last none_left
        · exact ⟨rfl, by simp [performFdCalls]⟩
        · obtain ⟨same, short⟩ := ih (position + 1) (count + 1)
          exact ⟨same, by simpa [performFdCalls] using short⟩
        · exact ⟨rfl, Nat.zero_le _⟩
        · obtain ⟨same, short⟩ := ih (position + 1) count
          exact ⟨same, Nat.le_succ_of_le short⟩
      · exact ⟨rfl, Nat.zero_le _⟩

theorem fdPoll_idle (polled : Option (PollKey → Nat)) (uninit : Nat → Nat → Nat)
    (polling : Polling) :
    (fdPoll polled (fun _ _ => []) uninit polling).2.2.callback_ = polling.callback_ ∧
      (dispatched (fdPoll polled (fun _ _ => []) uninit polling).2.1).length ≤
        polling.callback_.length := by
  cases polled with
  | none => exact ⟨rfl, Nat.zero_le _⟩
  | some revents =>
      unfold fdPoll
      dsimp only
      split_ifs
      · exact ⟨rfl, Nat.zero_le _⟩
      · obtain ⟨same, short⟩ := fdPollLoop_idle uninit
          ((polling.setRevents revents).fd_.countP fun item => item.revents != 0)
          (polling.setRevents revents).fd_.length 0 0 (polling.setRevents revents)
        refine ⟨?_, short.trans (polling.setRevents revents).length_callback.symm.le⟩
        dsimp only
        rw [same]
        rfl

/-- A single timer expires if it is due. -/
theorem timerCheckExp_single (clock : Nat → Timespec) (timer : Timer) :
    timerCheckExp clock (fun _ _ => []) ([timer].length + 1) [timer] =
      if timer.time.before (clock 0) then some ([(timer, [])], []) else some ([], [timer]) := by
  by_cases due : timer.time.before (clock 0) = true <;> simp [timerCheckExp, timerCheckLoop, due]

/-! ## Rounds -/

section

variable (platform : Platform) (interrupted : Nat → Bool) (clock : Nat → Timespec)
  (client : Ncli) (address : Nat)

/-- The timer of the answer. -/
def Ncli.timer : Timer := { ncliTimer 1 with time := deadline (clock 0) ⟨1, 0⟩ }

/-- `ncli` has looked at some messages, and others wait. -/
structure Asking (handled waiting : List (List BufferPart)) (past : List Round)
    (state : NcliState) : Prop where
  /-- Of the manager, what it had before the loop has changed inside of the blocks only. -/
  manager : ∃ world, state.manager =
    HostManager.setWorld (client.entered platform interrupted clock) world
  /-- The socket is claimed by the first block. -/
  socket : ∃ claim, state.manager.world.world.derived.lookup 0 >>= Derived.claim = some claim ∧
    claim.socket = some address
  /-- There is no other hook. -/
  others : ∀ ref, ref ≠ 0 → state.manager.world.world.derived.lookup ref >>= Derived.claim = none
  /-- At most this socket is polled. -/
  polled : state.manager.world.world.polling.callback_.length ≤ 1
  /-- The socket holds the messages that wait, and has sent the command. -/
  receiving : Receiving address waiting (framesOf client.start_.parts_)
    state.manager.world.world.zmq
  /-- The timer waits until it has expired. -/
  timers : state.manager.world.world.tm_list_ =
    if state.timeout_expired_ then [] else [Ncli.timer clock]
  /-- The answer is waited for. -/
  answers : Waited (fun parts => client.data_ platform (receivedBuffer parts)) handled
    state.received_answer_
  /-- So is the deadline. -/
  deadlines : Waited (fun round => (Ncli.timer clock).time.before (round.clock 0)) past
    state.timeout_expired_
  /-- What is registered is settled. -/
  settled : Settled state.manager.blocks state.manager.world

end

section

variable {platform : Platform} {interrupted : Nat → Bool} {clock : Nat → Timespec}
  {client : Ncli} {address : Nat} {handled waiting : List (List BufferPart)} {past : List Round}
  {state next : NcliState}

/-- The worlds of the loop are put into the manager that entered it. -/
theorem withWorld_manager {entered : HostManager} {world : World}
    (manager : state.manager = HostManager.setWorld entered world) (world' : World) :
    (state.withWorld world').manager = HostManager.setWorld entered world' := by
  unfold NcliState.withWorld
  rw [manager]
  rfl

namespace Asking

/-- What keeps the tables keeps `ncli` waiting. -/
theorem flow (asking : Asking platform interrupted clock client address handled waiting past state)
    {world : World} (same : SameTables state.manager.world.world world)
    {waiting' : List (List BufferPart)}
    (receiving : Receiving address waiting' (framesOf client.start_.parts_) world.zmq) :
    Asking platform interrupted clock client address handled waiting' past
      (state.withWorld world) := by
  obtain ⟨⟨world', manager⟩, ⟨claim, held, named⟩, others, polled, -, timers, answers, deadlines,
    settled⟩ := asking
  exact ⟨⟨_, withWorld_manager manager world⟩, ⟨claim, (same.claims 0).trans held, named⟩,
    fun ref other => (same.claims ref).trans (others ref other),
    (congrArg (fun polling => polling.callback_.length) same.polling).le.trans polled, receiving,
    same.tm_list_.trans timers, answers, deadlines, settled.flow same⟩

/-- Messages that arrive wait. -/
theorem arrive (asking : Asking platform interrupted clock client address handled waiting past
    state) (arrivals : List (Pointer × List BufferPart)) :
    Asking platform interrupted clock client address handled
      (waiting ++ (arrivals.filter fun message => message.1 = some address).map Prod.snd) past
      (arrivals.foldl NcliState.arrive state) := by
  induction arrivals generalizing state waiting with
  | nil => simpa using asking
  | cons message arrivals ih =>
      have arrived := ih (asking.flow
        (sameTables_zmq _ (Zmq.Keeps.arrive message.1 (framesOf message.2) _))
        (asking.receiving.arrive message.1 message.2))
      have first : ((message :: arrivals).filter fun message =>
          message.1 = some address).map Prod.snd =
            Activity.arrivalsAt address (.arrive message.1 message.2) ++
              (arrivals.filter fun message => message.1 = some address).map Prod.snd := by
        by_cases here : message.1 = some address <;> simp [Activity.arrivalsAt, here]
      rw [first, ← List.append_assoc]
      exact arrived

/-- A message that is handed on reaches `ncli`. -/
theorem processData (asking : Asking platform interrupted clock client address handled waiting past
    state) (buf : Buffer) :
    state.processData platform client buf 0 =
      { state with received_answer_ := client.receive platform buf state.received_answer_ } := by
  obtain ⟨⟨world, manager⟩, -, others, -⟩ := asking
  have no_hook := HostManager.hook_eq_none (others 1 Nat.one_ne_zero)
  have sink : state.manager.blocks.deref 0 >>= Block.sink_ = some 1 := by
    rw [manager]
    rfl
  have ncli : 1 ∈ state.manager.world.nclis := by
    rw [manager]
    exact Finset.mem_singleton_self 1
  unfold NcliState.processData
  simp only [sink, no_hook, if_pos ncli]

/-- What is handed on has been looked at. -/
theorem answered (asking : Asking platform interrupted clock client address handled waiting past
    state) (going : state.received_answer_ = false) (parts : List BufferPart) :
    Asking platform interrupted clock client address (handled ++ [parts]) waiting past
      { state with received_answer_ :=
          client.receive platform (receivedBuffer parts) state.received_answer_ } := by
  obtain ⟨manager, socket, others, polled, receiving, timers, answers, deadlines, settled⟩ := asking
  refine ⟨manager, socket, others, polled, receiving, timers, ?_, deadlines, settled⟩
  rw [going] at answers ⊢
  have same : client.receive platform (receivedBuffer parts) false =
      [parts].any fun parts => client.data_ platform (receivedBuffer parts) := by
    simp [Ncli.receive]
  rw [same]
  exact answers.push (Nat.le_refl 1)

/-- A callback looks at the first message that waits, if it is called and there is one. -/
theorem onFd (asking : Asking platform interrupted clock client address handled waiting past state)
    (going : state.received_answer_ = false) (filled : ∀ parts ∈ waiting, Filled parts)
    (desc : FileDesc) : ∃ now later, now ++ later = waiting ∧ now.length ≤ 1 ∧
      Asking platform interrupted clock client address (handled ++ now) later past
        (state.onFd platform client desc) := by
  have unchanged : ∃ now later, now ++ later = waiting ∧ now.length ≤ 1 ∧
      Asking platform interrupted clock client address (handled ++ now) later past state :=
    ⟨[], waiting, rfl, Nat.zero_le 1, by rwa [List.append_nil]⟩
  unfold NcliState.onFd
  split
  · exact unchanged
  · rename_i ref _
    split
    · exact unchanged
    · rename_i hook found
      split_ifs with own
      · have held := HostManager.hook_iff.mp ⟨hook, found, rfl⟩
        obtain rfl := HostManager.eq_zero_of_hook asking.others found
        have named : hook.zmq_sock_.socket = some address := by
          obtain ⟨claim, held', named⟩ := asking.socket
          obtain rfl := Option.some.inj (held.symm.trans held')
          exact named
        have keeps := hook.keeps_recv Buffer.empty state.manager.world.world.zmq
        rcases waiting with _ | ⟨parts, later⟩
        · obtain ⟨buf, zmq, received, receiving⟩ := asking.receiving.recv_nil named
          rw [received] at keeps
          simp only [received, Bool.false_eq_true, if_false]
          exact ⟨[], [], rfl, Nat.zero_le 1, by
            simpa using asking.flow (sameTables_zmq _ keeps) receiving⟩
        · obtain ⟨zmq, received, receiving⟩ :=
            asking.receiving.recv (filled parts List.mem_cons_self) named
          rw [received] at keeps
          simp only [received, if_true]
          have counted : ({ hook with rx_pkt_ := hook.rx_pkt_ + 1 } : HookZmq).claim =
            hook.claim := rfl
          have fetched := asking.flow (sameTables_withHook
            (HostManager.hook_eq_some_iff.mp found) counted keeps) receiving
          refine ⟨[parts], later, rfl, Nat.le_refl 1, ?_⟩
          rw [fetched.processData]
          exact fetched.answered going parts
      · exact unchanged

/-- So it does when `zmq_poll` has returned. -/
theorem polling (asking : Asking platform interrupted clock client address handled waiting past
    state) {polling : Polling}
    (kept : polling.callback_ = state.manager.world.world.polling.callback_) :
    Asking platform interrupted clock client address handled waiting past
      (state.withWorld { state.manager.world.world with polling := polling }) := by
  obtain ⟨⟨world, manager⟩, socket, others, polled, receiving, timers, answers, deadlines,
    settled⟩ := asking
  exact ⟨⟨_, withWorld_manager manager _⟩, socket, others,
    (congrArg List.length kept).le.trans polled, receiving, timers, answers, deadlines,
    settled.congr rfl (.refl _) kept rfl (fun _ member => member)
      fun _ running ncli kind => ⟨running, ncli, kind⟩⟩

/-- A pass looks at one message at most. -/
theorem fdPoll (asking : Asking platform interrupted clock client address handled waiting past
    state) (going : state.received_answer_ = false) (filled : ∀ parts ∈ waiting, Filled parts)
    (polled : Option (PollKey → Nat)) : ∃ now later, now ++ later = waiting ∧ now.length ≤ 1 ∧
      Asking platform interrupted clock client address (handled ++ now) later past
        (state.fdPoll platform client polled) := by
  obtain ⟨kept, short⟩ :=
    fdPoll_idle polled (fun _ _ => 0) state.manager.world.world.polling
  unfold NcliState.fdPoll
  dsimp only
  have polling := asking.polling kept
  rcases calls : dispatched (C3qo.fdPoll polled (fun _ _ => []) (fun _ _ => 0)
    state.manager.world.world.polling).2.1 with _ | ⟨desc, _ | ⟨desc', rest⟩⟩
  · exact ⟨[], waiting, rfl, Nat.zero_le 1, by rwa [List.append_nil]⟩
  · exact polling.onFd going filled desc
  · rw [calls] at short
    have single := short.trans asking.polled
    simp at single

/-- The timer expires when the clock shows a later time. -/
theorem timerCheckExp (asking : Asking platform interrupted clock client address handled waiting
    past state) (going : state.timeout_expired_ = false) (round : Round) :
    Asking platform interrupted clock client address handled waiting (past ++ [round])
      (state.timerCheckExp round.clock) := by
  obtain ⟨⟨world, manager⟩, socket, others, polled, receiving, timers, answers, deadlines,
    settled⟩ := asking
  have ncli : 1 ∈ state.manager.world.nclis := by
    rw [manager]
    exact Finset.mem_singleton_self 1
  have list : state.manager.world.world.tm_list_ = [Ncli.timer clock] := by
    rw [timers, going]
    rfl
  have owner : (Ncli.timer clock).bk = some 1 := rfl
  have looked : state.timerCheckExp round.clock =
      { state.withWorld { state.manager.world.world with
          tm_list_ := if (Ncli.timer clock).time.before (round.clock 0) then []
            else [Ncli.timer clock] } with
        timeout_expired_ := (Ncli.timer clock).time.before (round.clock 0) } := by
    unfold NcliState.timerCheckExp
    simp only [list, timerCheckExp_single]
    cases (Ncli.timer clock).time.before (round.clock 0) <;> simp [going, owner, ncli]
  rw [looked]
  rw [going] at deadlines
  refine ⟨⟨_, withWorld_manager manager _⟩, socket, others, polled, receiving, rfl, answers, ?_,
    settled.drop_timers fun timer member => ?_⟩
  · have same : (Ncli.timer clock).time.before (round.clock 0) =
        [round].any fun round => (Ncli.timer clock).time.before (round.clock 0) := by
      simp
    rw [same]
    exact deadlines.push (Nat.le_refl 1)
  · rw [list]
    split_ifs at member
    · cases member
    · exact member

/-- A round looks at one message at most and at the clock. -/
theorem wait (asking : Asking platform interrupted clock client address handled waiting past
    state) {round : Round} (filled : ∀ parts ∈ waiting ++ round.arrivalsAt address, Filled parts)
    (taken : round.wait platform client state = some next) :
    ∃ now later, now ++ later = waiting ++ round.arrivalsAt address ∧ now.length ≤ 1 ∧
      Asking platform interrupted clock client address (handled ++ now) later (past ++ [round])
        next := by
  unfold Round.wait at taken
  split_ifs at taken with going
  obtain rfl := Option.some.inj taken
  obtain ⟨unanswered, unexpired⟩ : state.received_answer_ = false ∧
      state.timeout_expired_ = false := by
    simpa [NcliState.goesOn] using going
  have arrived := asking.arrive round.arrivals
  obtain ⟨now, later, order, paced, polled⟩ := arrived.fdPoll
    ((arrived.answers.flag_eq.trans asking.answers.flag_eq.symm).trans unanswered) filled
    round.polled
  exact ⟨now, later, order, paced, polled.timerCheckExp
    ((polled.deadlines.flag_eq.trans asking.deadlines.flag_eq.symm).trans unexpired) round⟩

/-- So do all rounds, one after the other. -/
theorem waits (asking : Asking platform interrupted clock client address handled waiting past
    state) {rounds : List Round}
    (filled : ∀ parts ∈ waiting ++ rounds.flatMap (Round.arrivalsAt address), Filled parts)
    (execution : Execution.run (Round.wait platform client) rounds state = some next) :
    ∃ now later, now ++ later = waiting ++ rounds.flatMap (Round.arrivalsAt address) ∧
      now.length ≤ rounds.length ∧
      Asking platform interrupted clock client address (handled ++ now) later (past ++ rounds)
        next := by
  induction rounds generalizing state handled waiting past with
  | nil =>
      obtain rfl := Option.some.inj execution
      exact ⟨[], waiting, by simp, Nat.le_refl 0, by simpa using asking⟩
  | cons round rounds ih =>
      obtain ⟨middle, taken, rest⟩ := Option.bind_eq_some_iff.mp execution
      rw [List.flatMap_cons, ← List.append_assoc] at filled ⊢
      obtain ⟨now, later, order, paced, asking'⟩ :=
        asking.wait (List.forall_mem_append.mp filled).1 taken
      rw [← order, List.append_assoc] at filled
      obtain ⟨now', later', order', paced', final⟩ :=
        ih asking' (List.forall_mem_append.mp filled).2 rest
      refine ⟨now ++ now', later', ?_, ?_, ?_⟩
      · rw [List.append_assoc, order', ← List.append_assoc, order]
      · rw [List.length_append, List.length_cons]
        omega
      · simpa only [List.append_assoc, List.singleton_append] using final

/-- What `ncli` has looked at tells whether it has received its answer. -/
theorem received_iff
    (asking : Asking platform interrupted clock client address handled waiting past state) :
    state.received_answer_ = true ↔
      ∃ parts ∈ handled, client.data_ platform (receivedBuffer parts) = true := by
  rw [asking.answers.flag_eq, List.any_eq_true]

end Asking

end

/-! ## Before the loop -/

/-- Sending the command changes no tables. -/
theorem Ncli.keepsTables_host (platform : Platform) (interrupted : Nat → Bool)
    (clock : Nat → Timespec) (client : Ncli) :
    (client.host platform interrupted clock).KeepsTables := by
  intro number ref world
  unfold Ncli.host
  dsimp only
  split
  · rename_i hook kind
    have ctx := hook.zmq_ctx_data platform (some client.start_) world.zmq
    have sock := hook.zmq_sock_data platform (some client.start_) world.zmq
    exact sameTables_withHook kind (congrArg₂ Claim.mk ctx sock)
      (hook.keeps_data platform (some client.start_) world.zmq)
  · exact sameTables_zmq world (.refl _)

/-- The steps of `main` up to its loop. -/
theorem Ncli.run_entered (platform : Platform) (interrupted : Nat → Bool)
    (clock : Nat → Timespec) (client : Ncli) :
    Execution.run (HostStep.perform (client.host platform interrupted clock)) (ncliMain.take 9)
      (Manager.new HostWorld.empty) = some (client.entered platform interrupted clock) := by
  exact rfl

/-- What `main` has registered when it enters its loop is settled. -/
theorem Ncli.settled_entered (platform : Platform) (interrupted : Nat → Bool)
    (clock : Nat → Timespec) (client : Ncli) :
    Settled (client.entered platform interrupted clock).blocks
      (client.entered platform interrupted clock).world := by
  refine settled_new.run (keepsTables_host platform interrupted clock client) ?_
    (run_entered platform interrupted clock client)
  simp [ncliMain, Uninterrupted]

/-- The world when `main` enters its loop. -/
theorem Ncli.world_entered (platform : Platform) (interrupted : Nat → Bool)
    (clock : Nat → Timespec) (client : Ncli) :
    let started := (hook platform).start_ platform 0 .empty .empty
    let sent := started.1.data_ platform (some client.start_) started.2.2
    (client.entered platform interrupted clock).world.world =
      ⟨((((∅ : Finmap fun _ : BlockRef => Derived).insert 0
        (.hookZmq (.new (platform.hookMemory 0)))).insert 0
        (.hookZmq (hook platform))).insert 0 (.hookZmq started.1)).insert 0 (.hookZmq sent.2.1),
        [timer clock], started.2.1, sent.2.2, []⟩ := by
  exact rfl

/-- Starting a hook registers one descriptor at most. -/
theorem HookZmq.length_start (platform : Platform) (ref : BlockRef) (hook : HookZmq) (zmq : Zmq) :
    (hook.start_ platform ref .empty zmq).2.1.callback_.length ≤ 1 := by
  rcases (hook.start_registers platform ref .empty zmq).polling with same | ⟨uninit, -, added⟩
  · rw [same]
    exact Nat.zero_le 1
  · rw [added]
    rcases Polling.fdAdd_cases .empty uninit (hook.start_ platform ref .empty zmq).1.zmq_sock_ with
      ⟨same, -⟩ | ⟨-, same, -⟩
    · rw [same]
      exact Nat.zero_le 1
    · rw [same]
      exact Nat.le_refl 1

/-- The ZeroMQ library lets the hook of `ncli` join with a socket at the address, and accepts all
frames. -/
structure Ncli.Connected (platform : Platform) (address : Nat) : Prop where
  /-- `start_` succeeds. -/
  joined : (hook platform).joins platform .empty = true
  /-- The socket is at the address. -/
  socket : ((hook platform).start_ platform 0 .empty .empty).1.zmq_sock_.socket = some address
  /-- All frames are accepted. -/
  accepts : ∀ call, platform.accepts call = true

/-- `ncli` enters its loop with its command sent. -/
theorem asking_entered {platform : Platform} {address : Nat}
    (connected : Ncli.Connected platform address) (interrupted : Nat → Bool)
    (clock : Nat → Timespec) (client : Ncli) :
    Asking platform interrupted clock client address [] [] []
      ⟨client.entered platform interrupted clock, false, false⟩ := by
  have world := client.world_entered platform interrupted clock
  dsimp only at world
  obtain ⟨socket, there, inbox, sent⟩ :=
    HookZmq.start_greeting connected.accepts 0 .empty connected.joined
  have named := connected.socket
  have short := (Ncli.hook platform).length_start platform 0 .empty
  have greeting : (Ncli.hook platform).greeting = [] := rfl
  rw [greeting] at sent
  generalize (Ncli.hook platform).start_ platform 0 .empty .empty = started at *
  obtain ⟨zmq, done, there'⟩ := HookZmq.sendLoop_of_accepts connected.accepts
    started.1.zmq_sock_.socket client.start_.parts_ there
  have same : (started.1.data_ platform (some client.start_) started.2.2).2.2 = zmq := by
    simp only [HookZmq.data_, HookZmq.send_, done]
  have sock := started.1.zmq_sock_data platform (some client.start_) started.2.2
  refine ⟨⟨_, (HostManager.setWorld_self _).symm⟩, ?_, fun ref other => ?_, ?_, ?_, ?_,
    ⟨rfl, by simp⟩, ⟨rfl, by simp⟩, client.settled_entered platform interrupted clock⟩
  · rw [world, Finmap.lookup_insert]
    exact ⟨_, rfl, (congrArg FileDesc.socket sock).trans named⟩
  · rw [world, Finmap.lookup_insert_of_ne _ other, Finmap.lookup_insert_of_ne _ other,
      Finmap.lookup_insert_of_ne _ other, Finmap.lookup_insert_of_ne _ other, Finmap.lookup_empty]
    rfl
  · rw [world]
    exact short
  · rw [world, same]
    rw [named] at there'
    exact ⟨_, there', inbox, by rw [sent]; rfl⟩
  · rw [world]
    rfl

/-! ## What `ncli` sends -/

/-- `ncli` has sent these frames, and nothing in its loop sends any more: its block is no hook. -/
structure NcliState.Silent (address : Nat) (sent : List Frame) (state : NcliState) : Prop where
  /-- The hook is bound to the block of `ncli`. -/
  sink : state.manager.blocks.deref 0 >>= Block.sink_ = some 1
  /-- There is no other hook. -/
  others : ∀ ref, ref ≠ 0 → state.manager.world.world.derived.lookup ref >>= Derived.claim = none
  /-- These frames have been sent. -/
  sent : (state.manager.world.world.zmq.lookup (some address)).map Socket.sent = some sent

/-- Receiving sends nothing. -/
theorem HookZmq.sent_recv (hook : HookZmq) (buf : Buffer) (zmq : Zmq) (address : Pointer) :
    ((hook.recv_ buf zmq).2.2.lookup address).map Socket.sent =
      (zmq.lookup address).map Socket.sent := by
  unfold recv_
  split
  · rfl
  · rename_i socket there
    dsimp only
    rw [Zmq.lookup_modify]
    split_ifs with same
    · rw [same, there]
      rfl
    · rfl

namespace NcliState.Silent

variable {platform : Platform} {client : Ncli} {address : Nat} {sent : List Frame}
  {state next : NcliState}

theorem withWorld (silent : state.Silent address sent) {world : World}
    (others : ∀ ref, ref ≠ 0 → world.derived.lookup ref >>= Derived.claim = none)
    (same : (world.zmq.lookup (some address)).map Socket.sent =
      (state.manager.world.world.zmq.lookup (some address)).map Socket.sent) :
    (state.withWorld world).Silent address sent :=
  ⟨silent.sink, others, same.trans silent.sent⟩

/-- Data that the hook hands on does not come to a hook. -/
theorem processData (silent : state.Silent address sent) (buf : Buffer) :
    (state.processData platform client buf 0).Silent address sent := by
  have no_hook := HostManager.hook_eq_none (silent.others 1 Nat.one_ne_zero)
  unfold NcliState.processData
  simp only [silent.sink, no_hook]
  split_ifs
  · exact ⟨silent.sink, silent.others, silent.sent⟩
  · exact silent

theorem onFd (silent : state.Silent address sent) (desc : FileDesc) :
    (state.onFd platform client desc).Silent address sent := by
  unfold NcliState.onFd
  split
  · exact silent
  · rename_i ref _
    split
    · exact silent
    · rename_i hook found
      split_ifs
      · obtain rfl := HostManager.eq_zero_of_hook silent.others found
        have same := hook.sent_recv Buffer.empty state.manager.world.world.zmq (some address)
        have others (ref : BlockRef) (other : ref ≠ 0) (derived : Derived) :
            (state.manager.world.world.derived.insert 0 derived).lookup ref >>= Derived.claim =
              none := by
          rw [Finmap.lookup_insert_of_ne _ other]
          exact silent.others ref other
        dsimp only
        split_ifs
        · exact (silent.withWorld (fun ref other => others ref other _) same).processData _
        · exact silent.withWorld silent.others same
      · exact silent

theorem arrive (silent : state.Silent address sent) (message : Pointer × List BufferPart) :
    (state.arrive message).Silent address sent := by
  refine silent.withWorld silent.others ?_
  dsimp only [Zmq.arrive]
  rw [Zmq.lookup_modify]
  split_ifs with same
  · rw [Option.map_map, ← same]
    rfl
  · rfl

theorem fdPoll (silent : state.Silent address sent) (polled : Option (PollKey → Nat)) :
    (state.fdPoll platform client polled).Silent address sent :=
  List.foldlRecOn _ _ (silent.withWorld silent.others rfl) fun _ silent desc _ => silent.onFd desc

theorem timerCheckExp (silent : state.Silent address sent) (clock : Nat → Timespec) :
    (state.timerCheckExp clock).Silent address sent := by
  unfold NcliState.timerCheckExp
  dsimp only
  split
  · exact silent
  · exact ⟨silent.sink, silent.others, silent.sent⟩

/-- Nothing that happens in a round sends anything. -/
theorem wait (silent : state.Silent address sent) {round : Round}
    (taken : round.wait platform client state = some next) : next.Silent address sent := by
  unfold Round.wait at taken
  split_ifs at taken
  obtain rfl := Option.some.inj taken
  refine timerCheckExp (fdPoll ?_ _) _
  exact List.foldlRecOn _ _ silent fun _ silent message _ => silent.arrive message

end NcliState.Silent

/-- When `ncli` enters its loop, it has sent its command and nothing else. -/
theorem Asking.silent {platform : Platform} {interrupted : Nat → Bool} {clock : Nat → Timespec}
    {client : Ncli} {address : Nat} {handled waiting : List (List BufferPart)} {past : List Round}
    {state : NcliState} (asking : Asking platform interrupted clock client address handled waiting
      past state) : state.Silent address (framesOf client.start_.parts_) := by
  obtain ⟨⟨world, manager⟩, -, others, -, ⟨socket, there, -, sent⟩, -⟩ := asking
  refine ⟨?_, others, ?_⟩
  · rw [manager]
    rfl
  · rw [there, Option.map_some, sent]

/-- What has been sent makes one message. -/
theorem NcliState.Silent.messagesAt {address : Nat} {state : NcliState} {buf : Buffer}
    (silent : state.Silent address (framesOf buf.parts_)) (some_part : buf.parts_ ≠ []) :
    state.manager.world.world.zmq.messagesAt address = [buf.contents] := by
  have contents : buf.contents ≠ [] := fun none => some_part (List.map_eq_nil_iff.mp none)
  unfold Zmq.messagesAt
  rw [silent.sent, Option.getD_some, map_part_framesOf]
  exact (Reassembly.messagesAfter_marked [] contents).1

/-! ## After the loop -/

/-- The blocks that `main` has added are deleted in the end, whatever has become of them. -/
theorem Ncli.blocks_destroy (platform : Platform) (interrupted : Nat → Bool)
    (clock : Nat → Timespec) (client : Ncli) (world : World) :
    (destroy (client.host platform interrupted clock)
      (HostManager.setWorld (client.entered platform interrupted clock) world)).blocks.objects =
        ∅ := by
  exact rfl

/-- The steps of `main` after its loop. -/
theorem Ncli.run_destroy (host : Host) (manager : HostManager) :
    Execution.run (HostStep.perform host) (ncliMain.drop 9 ++
      [.operation (.blockFactoryUnregister "ncli"),
        .operation (.blockFactoryUnregister "hook_zmq")]) manager =
      some (destroy host manager) := by
  exact rfl

/-- A run of `ncli` that has ended. It has looked at some messages and left others. -/
structure Ncli.Ended (platform : Platform) (interrupted : Nat → Bool) (clock : Nat → Timespec)
    (client : Ncli) (address : Nat) (rounds : List Round)
    (handled waiting : List (List BufferPart)) (outcome : NcliOutcome) : Prop where
  /-- It has looked at the messages in the order in which they have arrived. -/
  order : rounds.flatMap (Round.arrivalsAt address) = handled ++ waiting
  /-- It has looked at no more messages than it has taken rounds. -/
  paced : handled.length ≤ rounds.length
  /-- It ends with the first message that it takes for its answer. -/
  answers : Waited (fun parts => client.data_ platform (receivedBuffer parts)) handled
    outcome.state.received_answer_
  /-- It ends with the first round after its deadline. -/
  deadlines : Waited (fun round => (deadline (clock 0) ⟨1, 0⟩).before (round.clock 0)) rounds
    outcome.state.timeout_expired_
  /-- One of both has come. -/
  reason : outcome.state.received_answer_ = true ∨ outcome.state.timeout_expired_ = true
  /-- The status tells whether it has taken a message for its answer. -/
  status : outcome.return_status = 0 ↔
    ∃ parts ∈ handled, client.data_ platform (receivedBuffer parts) = true
  /-- It has sent its command, once, and nothing else. -/
  sent : outcome.state.manager.world.world.zmq.messagesAt address = [client.start_.contents]
  /-- It leaves nothing behind, unless `zmq_ctx_term` is interrupted. -/
  bare : (∀ call, interrupted call = false) → outcome.manager.Bare

theorem Ncli.main_eq_some {platform : Platform} {interrupted : Nat → Bool}
    {clock : Nat → Timespec} {client : Ncli} {rounds : List Round} {outcome : NcliOutcome}
    (ended : client.main platform interrupted clock rounds = some outcome) : ∃ state,
      Execution.run (Round.wait platform client) rounds
        ⟨client.entered platform interrupted clock, false, false⟩ = some state ∧
      (state.received_answer_ = true ∨ state.timeout_expired_ = true) ∧
      outcome = ⟨state, destroy (client.host platform interrupted clock) state.manager⟩ := by
  obtain ⟨state, execution, rest⟩ := Option.bind_eq_some_iff.mp ended
  split_ifs at rest with going
  refine ⟨state, execution, ?_, (Option.some.inj rest).symm⟩
  cases answered : state.received_answer_ <;> cases expired : state.timeout_expired_ <;>
    simp [NcliState.goesOn, answered, expired] at going ⊢

/-- A run of `ncli` looks at the messages that arrive in their order, no more of them than there
are rounds, until one is the answer that it expects or the clock shows a time after its deadline.
Its status is 0 exactly if it has found an answer. It sends its command once and nothing else, and
leaves nothing behind. -/
theorem ncli_main_ended (platform : Platform) (interrupted : Nat → Bool) (clock : Nat → Timespec)
    (client : Ncli) (address : Nat) (connected : Ncli.Connected platform address)
    (rounds : List Round) (outcome : NcliOutcome)
    (filled : ∀ parts ∈ rounds.flatMap (Round.arrivalsAt address), Filled parts)
    (ended : client.main platform interrupted clock rounds = some outcome) :
    ∃ handled waiting,
      client.Ended platform interrupted clock address rounds handled waiting outcome := by
  obtain ⟨state, execution, reason, rfl⟩ := Ncli.main_eq_some ended
  obtain ⟨handled, waiting, order, paced, asking⟩ :=
    (asking_entered connected interrupted clock client).waits filled execution
  refine ⟨handled, waiting, ⟨order.symm, paced, asking.answers, asking.deadlines, reason, ?_,
    asking.silent.messagesAt (List.cons_ne_nil _ _), fun calm => ?_⟩⟩
  · refine Iff.trans ?_ asking.received_iff
    cases answered : state.received_answer_ <;> simp [NcliOutcome.return_status, answered]
  · have settled := asking.settled.run (Ncli.keepsTables_host platform interrupted clock client)
      (fun step _ manager => uninterrupted_of_calm calm step manager) (Ncli.run_destroy _ _)
    obtain ⟨world, manager⟩ := asking.manager
    refine settled.bare fun ref => ?_
    unfold Registry.deref
    rw [manager, Ncli.blocks_destroy]
    exact Finmap.lookup_empty ref

/-- The hook of `ncli` joins the proxy of the example. -/
theorem ncli_connected_addOrTerm : Ncli.Connected addOrTerm 1 :=
  ⟨rfl, rfl, fun _ => rfl⟩

/-- A round in which a message arrives. -/
def messageRound (parts : List Bytes) : Round where
  arrivals := [(some 1, parts.map .ofBytes)]
  spare := 0
  polled := some fun _ => ZMQ_POLLIN
  clock _ := ⟨0, 0⟩
  signal := false
  fuel := 0

/-- The dummy message of a peer is discarded, and its reply is taken for the answer. -/
def ncliRounds : List Round :=
  [messageRound [ascii "c3qo" ++ [0], ascii "dummy"],
    messageRound [ascii "c3qo" ++ [0], ascii "PROTO.CMD.REP", ascii "OK"]]

theorem ncli_main_ended_ok : ∃ outcome,
    (ncliRun [1]).main addOrTerm (fun _ => false) (fun _ => ⟨0, 0⟩) ncliRounds = some outcome ∧
    outcome.return_status = 0 ∧ ∃ handled waiting, (ncliRun [1]).Ended addOrTerm (fun _ => false)
      (fun _ => ⟨0, 0⟩) 1 ncliRounds handled waiting outcome := by
  have run : ((ncliRun [1]).main addOrTerm (fun _ => false) (fun _ => ⟨0, 0⟩) ncliRounds).map
      NcliOutcome.return_status = some 0 := by
    decide +kernel
  obtain ⟨outcome, ended, status⟩ := Option.map_eq_some_iff.mp run
  refine ⟨outcome, ended, status, ncli_main_ended addOrTerm (fun _ => false) (fun _ => ⟨0, 0⟩)
    (ncliRun [1]) 1 ncli_connected_addOrTerm ncliRounds outcome ?_ ended⟩
  unfold Filled
  decide

end C3qo
