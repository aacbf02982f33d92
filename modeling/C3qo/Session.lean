import C3qo.NcliRun

/-!
# A session of `ncli`

A run of `ncli`, the proxy and the `c3qo` processes behind it, each of which takes its steps when
it likes. The command of `ncli` is executed once at most, and only by the process that it
addresses. When `ncli` ends with the answer that it expects, the command has been executed, and
when nothing is on its way any more, `ncli` has received its answer.
-/

namespace C3qo

/-- The parts of a buffer that is made of parts. -/
theorem Buffer.parts_ofParts (parts : List Bytes) :
    (Buffer.ofParts parts).parts_ = parts.map .ofBytes := by
  have pushed (buf : Buffer) :
      (parts.foldl Buffer.pushBack buf).parts_ = buf.parts_ ++ parts.map .ofBytes := by
    induction parts generalizing buf with
    | nil => exact (List.append_nil _).symm
    | cons part parts ih => rw [List.foldl_cons, ih]; simp [Buffer.pushBack]
  exact pushed .empty

/-- A run of `ncli`, and the processes behind the proxy. -/
structure Session (ι : Type*) where
  /-- The processes. -/
  nodes : ι → Node
  /-- What `ncli` is linked against. -/
  platform : Platform
  /-- A signal interrupts `zmq_ctx_term`. -/
  interrupted : Nat → Bool
  /-- What the clock shows before the loop. -/
  clock : Nat → Timespec
  /-- The options of `ncli`. -/
  client : Ncli
  /-- The address of its socket. -/
  address : Nat
  /-- It joins the proxy. -/
  connected : Ncli.Connected platform address

/-- The state of the processes, of `ncli` and of what is on its way between them. -/
structure SessionState (ι : Type*) where
  /-- The processes. -/
  nodes : ι → NodeState
  /-- The number of messages of `ncli` that the frontend has routed. -/
  routed : Nat
  /-- The messages that are on their way to `ncli`. -/
  inFlight : List (List BufferPart)
  /-- The loop of `ncli`. -/
  client : NcliState

/-- What can happen in a session. -/
inductive SessionLabel (ι : Type*)
  /-- The next message of `ncli` is routed to a process. -/
  | request (peer : ι) (message : Message)
  /-- A process takes a round of its main loop. -/
  | round (peer : ι) (round : Round)
  /-- The next message of a process reaches the proxy, which sends it on. -/
  | answer (peer : ι)
  /-- `ncli` takes a round of its loop, in which some of the messages on their way arrive. -/
  | client (round : Round)

namespace SessionLabel

variable {ι : Type*}

/-- What happens to the processes. -/
def network : SessionLabel ι → Option (ι × NodeLabel)
  | .request peer message => some (peer, .request message)
  | .round peer taken => some (peer, .round taken)
  | .answer peer => some (peer, .answer)
  | .client _ => none

/-- The round of `ncli`. -/
def clientRound : SessionLabel ι → Option Round
  | .client taken => some taken
  | _ => none

end SessionLabel

namespace Session

variable {ι : Type*}

/-- A message of a process as `ncli` gets it, the identity in front. -/
def delivered (session : Session ι) (peer : ι) (answer : List Bytes) : List BufferPart :=
  (routerRecv (session.nodes peer).peer.identity (.ofParts answer)).parts_

/-- A message that is delivered is received as it was sent. -/
theorem receivedBuffer_delivered (session : Session ι) (peer : ι) (answer : List Bytes) :
    receivedBuffer (session.delivered peer answer) =
      routerRecv (session.nodes peer).peer.identity (.ofParts answer) := by
  simp [receivedBuffer, delivered, routerRecv, Buffer.parts_ofParts, Function.comp_def]

/-- The only message of `ncli` is its command. -/
theorem request_of_silent {session : Session ι} {state : SessionState ι}
    (silent : state.client.Silent session.address (framesOf session.client.start_.parts_))
    {contents : List Bytes}
    (there : (state.client.manager.world.world.zmq.messagesAt session.address)[state.routed]? =
      some contents) :
    state.routed = 0 ∧ Buffer.ofParts contents = session.client.start_ := by
  rw [silent.messagesAt (List.cons_ne_nil _ _)] at there
  rcases routed : state.routed with _ | more <;> rw [routed] at there
  · obtain rfl := Option.some.inj there
    exact ⟨rfl, by simp [Ncli.start_, Buffer.contents, Buffer.parts_ofParts]⟩
  · cases there

/-- Everybody enters the loop. -/
def entered (session : Session ι) : SessionState ι where
  nodes peer := (session.nodes peer).entered
  routed := 0
  inFlight := []
  client :=
    ⟨session.client.entered session.platform session.interrupted session.clock, false, false⟩

/-- The processes have sent a message that `ncli` gets so. -/
def Backed (session : Session ι) (parts : List BufferPart) (nodes : ι → NodeState) : Prop :=
  ∃ peer, ∃ answer ∈ (nodes peer).answers, parts = session.delivered peer answer

/-- The messages that have arrived at `ncli` or are on their way to it are those that have come
back from the processes. -/
def Conserves (session : Session ι) (arrived : List (List BufferPart)) (state : SessionState ι) :
    Prop :=
  ∀ parts, parts ∈ arrived ++ state.inFlight ↔ session.Backed parts state.nodes

/-- In the beginning there are no messages. -/
theorem conserves_entered (session : Session ι) : session.Conserves [] session.entered := by
  refine fun parts => iff_of_false List.not_mem_nil ?_
  rintro ⟨peer, answer, member, -⟩
  cases member

variable [DecidableEq ι]

/-- Something happens to a process. The proxy sends on what comes back from it. -/
def move (session : Session ι) (peer : ι) (label : NodeLabel) (state : SessionState ι) :
    Option (SessionState ι) :=
  (networkStep session.nodes (peer, label) state.nodes).map fun nodes =>
    let answers := (nodes peer).answers.drop (state.nodes peer).answers.length
    { state with
      nodes := nodes, inFlight := state.inFlight ++ answers.map (session.delivered peer) }

/-- One step of the session. -/
def step (session : Session ι) : SessionLabel ι → SessionState ι → Option (SessionState ι)
  | .request peer message, state =>
      (state.client.manager.world.world.zmq.messagesAt session.address)[state.routed]?.bind
        fun contents =>
          if routerSend (.ofParts contents) =
              some ((session.nodes peer).peer.identity, ⟨message.parts⟩) then
            (session.move peer (.request message) state).map fun next =>
              { next with routed := state.routed + 1 }
          else
            none
  | .round peer round, state => session.move peer (.round round) state
  | .answer peer, state => session.move peer .answer state
  | .client round, state =>
      let arrivals := round.arrivalsAt session.address
      if arrivals = state.inFlight.take arrivals.length then
        (round.wait session.platform session.client state.client).map fun client =>
          { state with client := client, inFlight := state.inFlight.drop arrivals.length }
      else
        none

/-! ## The parties -/

section

variable {session : Session ι} {labels : List (SessionLabel ι)} {state next final : SessionState ι}

/-- A round of `ncli` leaves the processes alone. -/
theorem step_client {round : Round} (taken : session.step (.client round) state = some next) :
    let arrivals := round.arrivalsAt session.address
    arrivals = state.inFlight.take arrivals.length ∧
      ∃ client, round.wait session.platform session.client state.client = some client ∧
        next = { state with
          client := client, inFlight := state.inFlight.drop arrivals.length } := by
  unfold step at taken
  dsimp only at taken
  split_ifs at taken with arrive
  obtain ⟨client, waited, rfl⟩ := Option.map_eq_some_iff.mp taken
  exact ⟨arrive, client, waited, rfl⟩

/-- A message of `ncli` is routed to the process that it names. -/
theorem step_request {peer : ι} {message : Message}
    (taken : session.step (.request peer message) state = some next) :
    ∃ contents,
      (state.client.manager.world.world.zmq.messagesAt session.address)[state.routed]? =
        some contents ∧
      routerSend (.ofParts contents) =
        some ((session.nodes peer).peer.identity, ⟨message.parts⟩) ∧
      ∃ moved, session.move peer (.request message) state = some moved ∧
        next = { moved with routed := state.routed + 1 } := by
  obtain ⟨contents, there, rest⟩ := Option.bind_eq_some_iff.mp taken
  split_ifs at rest with routes
  obtain ⟨moved, done, rfl⟩ := Option.map_eq_some_iff.mp rest
  exact ⟨contents, there, routes, moved, done, rfl⟩

/-- What happens to a process leaves `ncli` alone. -/
structure Moved (session : Session ι) (peer : ι) (label : NodeLabel)
    (state next : SessionState ι) : Prop where
  /-- The processes take a step. -/
  network : networkStep session.nodes (peer, label) state.nodes = some next.nodes
  /-- The requests are counted elsewhere. -/
  routed : next.routed = state.routed
  /-- `ncli` does nothing. -/
  client : next.client = state.client
  /-- Messages come back. -/
  answers : ∃ more, (next.nodes peer).answers = (state.nodes peer).answers ++ more ∧
    next.inFlight = state.inFlight ++ more.map (session.delivered peer)
  /-- They do not come from others. -/
  others : ∀ other, other ≠ peer → next.nodes other = state.nodes other

theorem Moved.of_move {peer : ι} {label : NodeLabel}
    (taken : session.move peer label state = some next) :
    session.Moved peer label state next := by
  obtain ⟨nodes, network, rfl⟩ := Option.map_eq_some_iff.mp taken
  obtain ⟨own, performed, rfl⟩ := Option.map_eq_some_iff.mp network
  obtain ⟨more, same⟩ := Node.answers_of_perform performed
  dsimp only at same ⊢
  refine ⟨network, rfl, rfl, ⟨more, ?_, ?_⟩, fun other different => ?_⟩
  · exact (congrArg NodeState.answers (Function.update_self ..)).trans same.symm
  · rw [Function.update_self, ← same, List.drop_left]
  · exact Function.update_of_ne different _ _

/-- What happens to the processes in a session is a run of the network. -/
theorem run_network
    (execution : Execution.run session.step labels state = some final) :
    Execution.run (networkStep session.nodes) (labels.filterMap SessionLabel.network)
      state.nodes = some final.nodes := by
  refine @Execution.run_filterMap _ _ _ _ _ _ SessionState.nodes _
    (fun label state next taken => ?_) _ _ _ execution
  cases label with
  | request peer message =>
      obtain ⟨-, -, -, middle, done, rfl⟩ := step_request taken
      exact Option.bind_eq_some_iff.mpr ⟨_, (Moved.of_move done).network, rfl⟩
  | round peer round => exact Option.bind_eq_some_iff.mpr ⟨_, (Moved.of_move taken).network, rfl⟩
  | answer peer => exact Option.bind_eq_some_iff.mpr ⟨_, (Moved.of_move taken).network, rfl⟩
  | client round =>
      obtain ⟨-, client, -, rfl⟩ := step_client taken
      rfl

/-- What `ncli` does in a session is a run of its loop. -/
theorem run_client
    (execution : Execution.run session.step labels state = some final) :
    Execution.run (Round.wait session.platform session.client)
      (labels.filterMap SessionLabel.clientRound) state.client = some final.client := by
  refine @Execution.run_filterMap _ _ _ _ _ _ SessionState.client _
    (fun label state next taken => ?_) _ _ _ execution
  cases label with
  | request peer message =>
      obtain ⟨-, -, -, middle, done, rfl⟩ := step_request taken
      exact congrArg some (Moved.of_move done).client.symm
  | round peer round => exact congrArg some (Moved.of_move taken).client.symm
  | answer peer => exact congrArg some (Moved.of_move taken).client.symm
  | client round =>
      obtain ⟨-, client, waited, rfl⟩ := step_client taken
      exact Option.bind_eq_some_iff.mpr ⟨client, waited, rfl⟩

/-! ## Messages on their way -/

/-- What comes back is on its way. -/
theorem Moved.backed_iff {peer : ι} {label : NodeLabel}
    (moved : session.Moved peer label state next) (parts : List BufferPart) :
    session.Backed parts next.nodes ↔ session.Backed parts state.nodes ∨
      ∃ more, next.inFlight = state.inFlight ++ more ∧ parts ∈ more := by
  obtain ⟨more, answers, inFlight⟩ := moved.answers
  constructor
  · rintro ⟨other, answer, member, rfl⟩
    by_cases same : other = peer
    · subst same
      rw [answers] at member
      rcases List.mem_append.mp member with before | new
      · exact .inl ⟨other, answer, before, rfl⟩
      · exact .inr ⟨_, inFlight, List.mem_map_of_mem new⟩
    · rw [moved.others other same] at member
      exact .inl ⟨other, answer, member, rfl⟩
  · rintro (⟨other, answer, member, rfl⟩ | ⟨new, same, among⟩)
    · refine ⟨other, answer, ?_, rfl⟩
      by_cases same : other = peer
      · subst same
        rw [answers]
        exact List.mem_append_left _ member
      · rwa [moved.others other same]
    · obtain rfl := List.append_cancel_left (same.symm.trans inFlight)
      obtain ⟨answer, there, rfl⟩ := List.mem_map.mp among
      exact ⟨peer, answer, answers ▸ List.mem_append_right _ there, rfl⟩

theorem Conserves.moved {arrived : List (List BufferPart)} {peer : ι} {label : NodeLabel}
    (conserves : session.Conserves arrived state) (moved : session.Moved peer label state next) :
    session.Conserves arrived next := by
  intro parts
  obtain ⟨more, -, inFlight⟩ := moved.answers
  rw [moved.backed_iff, ← conserves parts, inFlight, ← List.append_assoc, List.mem_append]
  constructor
  · rintro (before | new)
    · exact .inl before
    · exact .inr ⟨_, rfl, new⟩
  · rintro (before | ⟨new, same, among⟩)
    · exact .inl before
    · obtain rfl := List.append_cancel_left same
      exact .inr among

/-- No message is lost between the processes and `ncli`, and none comes from elsewhere. -/
theorem Conserves.run {arrived : List (List BufferPart)}
    (conserves : session.Conserves arrived state)
    (execution : Execution.run session.step labels state = some final) :
    session.Conserves (arrived ++ (labels.filterMap SessionLabel.clientRound).flatMap
      (Round.arrivalsAt session.address)) final := by
  induction labels generalizing state arrived with
  | nil =>
      obtain rfl := Option.some.inj execution
      rwa [List.filterMap_nil, List.flatMap_nil, List.append_nil]
  | cons label labels ih =>
      obtain ⟨next, taken, rest⟩ := Option.bind_eq_some_iff.mp execution
      cases label with
      | request peer message =>
          obtain ⟨-, -, -, middle, done, rfl⟩ := step_request taken
          have moved := conserves.moved (Moved.of_move done)
          have later : session.Conserves arrived { middle with routed := state.routed + 1 } := moved
          exact ih later rest
      | round peer round => exact ih (conserves.moved (Moved.of_move taken)) rest
      | answer peer => exact ih (conserves.moved (Moved.of_move taken)) rest
      | client round =>
          obtain ⟨arrive, client, -, rfl⟩ := step_client taken
          have later : session.Conserves (arrived ++ round.arrivalsAt session.address)
              { state with
                client := client
                inFlight := state.inFlight.drop (round.arrivalsAt session.address).length } := by
            intro parts
            have split := List.take_append_drop
              (round.arrivalsAt session.address).length state.inFlight
            rw [← arrive] at split
            rw [List.append_assoc, split]
            exact conserves parts
          have final := ih later rest
          rw [List.append_assoc] at final
          exact final

/-- The requests of a session are those of `ncli`, of which there is one at most. -/
theorem requests_of_run
    (silent : state.client.Silent session.address (framesOf session.client.start_.parts_))
    (few : state.routed ≤ 1)
    (execution : Execution.run session.step labels state = some final) :
    (∀ peer message, (peer, .request message) ∈ labels.filterMap SessionLabel.network →
      routerSend session.client.start_ =
        some ((session.nodes peer).peer.identity, ⟨message.parts⟩)) ∧
    (requestsOf ((labels.filterMap SessionLabel.network).map Prod.snd)).length +
      state.routed = final.routed ∧ final.routed ≤ 1 := by
  induction labels generalizing state with
  | nil =>
      obtain rfl := Option.some.inj execution
      exact ⟨fun peer message member => (by cases member), Nat.zero_add _, few⟩
  | cons label labels ih =>
      obtain ⟨next, taken, rest⟩ := Option.bind_eq_some_iff.mp execution
      cases label with
      | request peer message =>
          obtain ⟨contents, there, routes, middle, done, rfl⟩ := step_request taken
          obtain ⟨first, command⟩ := request_of_silent silent there
          rw [command] at routes
          rw [← (Moved.of_move done).client] at silent
          obtain ⟨sent, counted, few'⟩ := ih (by exact silent) (by simp [first]) rest
          refine ⟨fun peer' message' member => ?_, ?_, few'⟩
          · rcases List.mem_cons.mp member with same | later
            · cases same
              exact routes
            · exact sent peer' message' later
          · rw [← counted]
            exact Nat.add_right_comm ..
      | round peer round =>
          have moved := Moved.of_move taken
          rw [← moved.client] at silent
          rw [← moved.routed] at few ⊢
          obtain ⟨sent, counted⟩ := ih silent few rest
          refine ⟨fun peer' message' member => ?_, counted⟩
          rcases List.mem_cons.mp member with same | later
          · cases same
          · exact sent peer' message' later
      | answer peer =>
          have moved := Moved.of_move taken
          rw [← moved.client] at silent
          rw [← moved.routed] at few ⊢
          obtain ⟨sent, counted⟩ := ih silent few rest
          refine ⟨fun peer' message' member => ?_, counted⟩
          rcases List.mem_cons.mp member with same | later
          · cases same
          · exact sent peer' message' later
      | client round =>
          obtain ⟨-, client, waited, rfl⟩ := step_client taken
          obtain ⟨sent, counted⟩ := ih (by exact silent.wait waited) (by exact few) rest
          exact ⟨sent, counted⟩

/-- What happens to the processes is one request at most. -/
theorem oneRequest_of_run {p : ι}
    (different : Function.Injective fun q => (session.nodes q).peer.name)
    (addressed : session.client.ncli_peer_ = (session.nodes p).peer.name)
    (execution : Execution.run session.step labels session.entered = some final)
    (spares : ((session.nodes p).platform.command session.client.cmd_).Spares) :
    OneRequest session.nodes session.client p (labels.filterMap SessionLabel.network)
      final.nodes := by
  have silent := (asking_entered session.connected session.interrupted session.clock
    session.client).silent
  obtain ⟨sent, counted, few⟩ := requests_of_run silent (Nat.zero_le 1) execution
  exact ⟨different, addressed, run_network execution, sent, counted.le.trans few, spares⟩

/-- What has been routed is a request. -/
theorem asked_of_run (execution : Execution.run session.step labels session.entered = some final)
    (routed : final.routed ≠ 0) :
    requestsOf ((labels.filterMap SessionLabel.network).map Prod.snd) ≠ [] := by
  have silent := (asking_entered session.connected session.interrupted session.clock
    session.client).silent
  obtain ⟨-, counted, -⟩ := requests_of_run silent (Nat.zero_le 1) execution
  intro none_yet
  rw [none_yet] at counted
  exact routed counted.symm

/-- The messages that are delivered are filled. -/
theorem Backed.filled {p : ι} {network : List (ι × NodeLabel)} {nodes : ι → NodeState}
    {parts : List BufferPart} (backed : session.Backed parts nodes)
    (one : OneRequest session.nodes session.client p network nodes) : Filled parts := by
  obtain ⟨peer, answer, member, rfl⟩ := backed
  obtain ⟨transactions, -, answers, -⟩ := one.transactions peer
  have some_bytes : ∀ bytes ∈ answer, bytes ≠ [] := by
    rcases List.mem_cons.mp (answers.subset member) with rfl | reply
    · decide
    · obtain ⟨transaction, -, rfl⟩ := List.mem_map.mp reply
      unfold Transaction.answer
      cases transaction.is_ok <;> decide
  refine ⟨List.cons_ne_nil _ _, fun part among => ?_⟩
  rcases List.mem_cons.mp among with rfl | rest
  · rw [BufferPart.bytes_ofBytes, Peer.identity_eq]
    exact List.concat_ne_nil _ _
  · rw [Buffer.parts_ofParts] at rest
    obtain ⟨bytes, there, rfl⟩ := List.mem_map.mp rest
    rw [BufferPart.bytes_ofBytes]
    exact some_bytes bytes there

/-- What has arrived at `ncli` has been looked at or waits. -/
theorem asking_of_run {p : ι} {network : List (ι × NodeLabel)}
    (one : OneRequest session.nodes session.client p network final.nodes)
    (execution : Execution.run session.step labels session.entered = some final) :
    ∃ handled waiting, session.Conserves (handled ++ waiting) final ∧
      (∀ parts ∈ waiting, Filled parts) ∧
      Asking session.platform session.interrupted session.clock session.client session.address
        handled waiting (labels.filterMap SessionLabel.clientRound) final.client := by
  have conserves := session.conserves_entered.run execution
  rw [List.nil_append] at conserves
  have filled (parts : List BufferPart) (member : parts ∈
      (labels.filterMap SessionLabel.clientRound).flatMap (Round.arrivalsAt session.address)) :
        Filled parts :=
    ((conserves parts).mp (List.mem_append_left _ member)).filled one
  obtain ⟨handled, waiting, order, -, asking⟩ :=
    (asking_entered session.connected session.interrupted session.clock session.client).waits
      filled (run_client execution)
  rw [List.nil_append] at order
  refine ⟨handled, waiting, ?_, fun parts member => ?_, asking⟩
  · rwa [order]
  · exact filled parts (order ▸ List.mem_append_right _ member)

/-- When `ncli` has received its answer, its command has been executed with the expected result. -/
theorem executed_of_received {p : ι} {network : List (ι × NodeLabel)}
    (one : OneRequest session.nodes session.client p network final.nodes)
    (noNul : ∀ q, 0 ∉ (session.nodes q).peer.name)
    (execution : Execution.run session.step labels session.entered = some final)
    (received : final.client.received_answer_ = true) : ∃ is_ok,
      ascii (if is_ok then "OK" else "KO") <+: session.client.ncli_cmd_ret_ ∧
        ExecutedOnce session.nodes final.nodes session.client p is_ok := by
  obtain ⟨handled, waiting, conserves, -, asking⟩ := asking_of_run one execution
  obtain ⟨parts, member, taken⟩ := asking.received_iff.mp received
  obtain ⟨peer, answer, back, rfl⟩ := (conserves parts).mp
    (List.mem_append_left _ (List.mem_append_left _ member))
  rw [receivedBuffer_delivered] at taken
  obtain ⟨-, is_ok, -, expected, executed⟩ :=
    (one.data_iff noNul session.platform back).mp taken
  exact ⟨is_ok, expected, executed⟩

end

/-- What a session comes to: the command of `ncli` has been executed by one process at most, and
at most once. If `ncli` has received its answer, the command has been executed. -/
structure Safe (session : Session ι) (p : ι) (final : SessionState ι) : Prop where
  /-- The command has been executed once at most, by the process that it addresses. -/
  atMostOnce : ∀ q, Replayed (session.nodes q) (final.nodes q) [] ∨
    q = p ∧ ∃ is_ok,
      Replayed (session.nodes q) (final.nodes q) [⟨1, session.client.cmd_, is_ok⟩]
  /-- If the answer has been received, it has been executed with the expected result. -/
  answered : final.client.received_answer_ = true → ∃ is_ok,
    ascii (if is_ok then "OK" else "KO") <+: session.client.ncli_cmd_ret_ ∧
      ExecutedOnce session.nodes final.nodes session.client p is_ok

/-- Nothing is on its way between `ncli` and the process that it addresses. -/
structure Quiescent (session : Session ι) (p : ι) (state : SessionState ι) : Prop where
  /-- The command has been routed. -/
  routed : state.routed ≠ 0
  /-- It has arrived at the process. -/
  arrived : (state.nodes p).inFlight = []
  /-- The process has received what has arrived. -/
  received : ((state.nodes p).loop.manager.world.zmq.lookup
    (some (session.nodes p).address)).map Socket.inbox = some []
  /-- What it has sent has come back. -/
  answers : (state.nodes p).answers =
    (state.nodes p).loop.manager.world.zmq.messagesAt (session.nodes p).address
  /-- That has arrived at `ncli`. -/
  inFlight : state.inFlight = []
  /-- `ncli` has received what has arrived. -/
  read : (state.client.manager.world.world.zmq.lookup (some session.address)).map Socket.inbox =
    some []

section

variable {session : Session ι} {labels : List (SessionLabel ι)} {final : SessionState ι}

/-- When nothing is on its way any more, the one request has been executed, and its answer has been
received if the result is the expected one. -/
theorem executed_of_quiescent {p : ι}
    (one : OneRequest session.nodes session.client p (labels.filterMap SessionLabel.network)
      final.nodes)
    (noNul : ∀ q, 0 ∉ (session.nodes q).peer.name)
    (execution : Execution.run session.step labels session.entered = some final)
    (quiescent : session.Quiescent p final) :
    ∃ is_ok, ExecutedOnce session.nodes final.nodes session.client p is_ok ∧
      (final.client.received_answer_ = true ↔
        ascii (if is_ok then "OK" else "KO") <+: session.client.ncli_cmd_ret_) := by
  obtain ⟨is_ok, executed, messages⟩ :=
    one.executed (asked_of_run execution quiescent.routed) quiescent.arrived
      quiescent.received
  refine ⟨is_ok, executed, fun received => ?_, fun expected => ?_⟩
  · obtain ⟨is_ok', expected, executed'⟩ :=
      executed_of_received one noNul execution received
    rwa [executed.unique executed']
  · obtain ⟨handled, waiting, conserves, filled, asking⟩ := asking_of_run one execution
    have back : (replyBuffer is_ok).contents ∈ (final.nodes p).answers := by
      rw [quiescent.answers, messages]
      exact List.mem_cons_of_mem _ (List.mem_singleton_self _)
    have delivered := (conserves _).mpr ⟨p, _, back, rfl⟩
    rw [quiescent.inFlight, List.append_nil,
      asking.receiving.waiting_eq_nil filled quiescent.read, List.append_nil] at delivered
    refine asking.received_iff.mpr ⟨_, delivered, ?_⟩
    rw [receivedBuffer_delivered]
    exact (one.data_iff noNul session.platform back).mpr ⟨rfl, is_ok, rfl, expected, executed⟩

end

end Session

/-- In every session, in which the processes and `ncli` take their steps in any order, the command
of `ncli` is executed once at most, and only by the process that it addresses, if it spares the
monitoring blocks of this process. When `ncli` has received the answer that it expects, its command
has been executed once, with the expected result. -/
theorem session_safe {ι : Type*} [DecidableEq ι] (session : Session ι)
    (different : Function.Injective fun q => (session.nodes q).peer.name)
    (noNul : ∀ q, 0 ∉ (session.nodes q).peer.name) (p : ι)
    (addressed : session.client.ncli_peer_ = (session.nodes p).peer.name)
    (labels : List (SessionLabel ι)) (final : SessionState ι)
    (execution : Execution.run session.step labels session.entered = some final)
    (spares : ((session.nodes p).platform.command session.client.cmd_).Spares) :
    session.Safe p final := by
  have one := Session.oneRequest_of_run different addressed execution spares
  refine ⟨fun q => ?_, Session.executed_of_received one noNul execution⟩
  obtain ⟨transactions, replayed, -, rfl | ⟨same, is_ok, rfl⟩⟩ := one.transactions q
  · exact .inl replayed
  · exact .inr ⟨same, is_ok, replayed⟩

/-- A run of `ncli` that asks the second one of two processes to add a block. -/
def addSession : Session Bool where
  nodes := twoNodes
  platform := addOrTerm
  interrupted _ := false
  clock _ := ⟨0, 0⟩
  client := ncliRun [1]
  address := 1
  connected := ncli_connected_addOrTerm

/-- The process executes the command, and `ncli` looks at the two messages that it has sent. -/
def addLabels : List (SessionLabel Bool) :=
  [.request true (commandMessage 1), .answer true, .round true (commandRound [1]), .answer true]
    ++ ncliRounds.map .client

/-- Then nothing is on its way any more, and `ncli` has received its answer. -/
theorem addSession_ends : ∃ final,
    Execution.run addSession.step addLabels addSession.entered = some final ∧
      final.client.received_answer_ = true ∧ addSession.Quiescent true final := by
  have outcome : (Execution.run addSession.step addLabels addSession.entered).any (fun final =>
      final.client.received_answer_ ∧ final.routed ≠ 0 ∧ (final.nodes true).inFlight.length = 0 ∧
      ((final.nodes true).loop.manager.world.zmq.lookup (some 1)).map Socket.inbox = some [] ∧
      (final.nodes true).answers = (final.nodes true).loop.manager.world.zmq.messagesAt 1 ∧
      final.inFlight = [] ∧
      (final.client.manager.world.world.zmq.lookup (some 1)).map Socket.inbox = some []) =
        true := by
    decide +kernel
  obtain ⟨final, execution, seen⟩ := (Option.any_eq_true _ _).mp outcome
  obtain ⟨answered, routed, arrived, received, answers, inFlight, read⟩ := of_decide_eq_true seen
  exact ⟨final, execution, answered, routed, List.length_eq_zero_iff.mp arrived, received, answers,
    inFlight, read⟩

theorem session_safe_add : ∃ final,
    Execution.run addSession.step addLabels addSession.entered = some final ∧
      final.client.received_answer_ = true ∧ addSession.Safe true final := by
  obtain ⟨final, execution, answered, -⟩ := addSession_ends
  exact ⟨final, execution, answered, session_safe addSession twoNodes_different twoNodes_noNul true
    rfl addLabels final execution (by decide)⟩

/-- When nothing is on its way any more in such a session, the command of `ncli` has been executed,
and `ncli` has received its answer if and only if the result is the one that it expects. -/
theorem session_complete {ι : Type*} [DecidableEq ι] (session : Session ι)
    (different : Function.Injective fun q => (session.nodes q).peer.name)
    (noNul : ∀ q, 0 ∉ (session.nodes q).peer.name) (p : ι)
    (addressed : session.client.ncli_peer_ = (session.nodes p).peer.name)
    (labels : List (SessionLabel ι)) (final : SessionState ι)
    (execution : Execution.run session.step labels session.entered = some final)
    (spares : ((session.nodes p).platform.command session.client.cmd_).Spares)
    (quiescent : session.Quiescent p final) :
    ∃ is_ok, ExecutedOnce session.nodes final.nodes session.client p is_ok ∧
      (final.client.received_answer_ = true ↔
        ascii (if is_ok then "OK" else "KO") <+: session.client.ncli_cmd_ret_) := by
  have one := Session.oneRequest_of_run different addressed execution spares
  exact Session.executed_of_quiescent one noNul execution quiescent

theorem session_complete_add : ∃ final,
    Execution.run addSession.step addLabels addSession.entered = some final ∧
      ∃ is_ok, ExecutedOnce addSession.nodes final.nodes addSession.client true is_ok ∧
        (final.client.received_answer_ = true ↔
          ascii (if is_ok then "OK" else "KO") <+: addSession.client.ncli_cmd_ret_) := by
  obtain ⟨final, execution, -, quiescent⟩ := addSession_ends
  exact ⟨final, execution, session_complete addSession twoNodes_different twoNodes_noNul true rfl
    addLabels final execution (by decide) quiescent⟩

end C3qo
