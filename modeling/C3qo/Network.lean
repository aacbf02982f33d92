import C3qo.Interleaving
import C3qo.OwnCommands
import C3qo.PartialSend
import C3qo.PeerIdentity

/-!
# Peers behind the proxy

`proxy.cpp`: the `c3qo` processes are connected to its frontend, a `ROUTER`, and the program that
controls them is connected to its backend. What the latter sends goes to the peer that the first
part names, and what the peers send comes back with the identity of the sender in front. Processes
take their rounds in any order, and messages stay on their way as long as they like.
-/

namespace C3qo

open Journal Reassembly

/-- A `c3qo` process that has joined the frontend. -/
structure Node where
  /-- What the process is linked against. -/
  platform : Platform
  /-- The identity of its command line. -/
  identity : String
  /-- The address of its monitoring socket. -/
  address : Nat
  /-- It has joined. -/
  connected : Connected platform identity address

/-- A message without the identity in front, none of its parts being empty. -/
structure Message where
  /-- The parts. -/
  parts : List BufferPart
  /-- They are filled. -/
  filled : Filled parts

/-- A process and its connection to the frontend. -/
structure NodeState where
  /-- The main loop. -/
  loop : LoopState
  /-- All messages that have been routed to the process. -/
  requests : List Message
  /-- Those of them that are on their way. -/
  inFlight : List Message
  /-- The messages that have come back from the process. -/
  answers : List (List Bytes)

/-- What can happen to a process. -/
inductive NodeLabel
  /-- A message is routed to it. -/
  | request (message : Message)
  /-- It takes a round of its main loop, in which some of the messages on their way arrive. -/
  | round (round : Round)
  /-- The next one of the messages that it has sent comes back. -/
  | answer

/-- The message with which a transaction is replied to. -/
def Transaction.answer (transaction : Transaction) : List Bytes :=
  (replyBuffer transaction.is_ok).contents

/-- The messages that have gone out on the socket at an address. -/
def Zmq.messagesAt (zmq : Zmq) (address : Nat) : List (List Bytes) :=
  messagesAfter [] ((((zmq.lookup (some address)).map Socket.sent).getD []).map Frame.part)

namespace Node

/-- The process when it enters its loop: nothing has come back yet. -/
def entered (node : Node) : NodeState := ⟨.entered node.platform node.identity, [], [], []⟩

/-- One step of a process or of its connection. -/
def perform (node : Node) : NodeLabel → NodeState → Option NodeState
  | .request message, state =>
      some { state with
        requests := state.requests ++ [message], inFlight := state.inFlight ++ [message] }
  | .round round, state =>
      let arrivals := round.arrivalsAt node.address
      if arrivals = (state.inFlight.take arrivals.length).map Message.parts then
        (round.perform node.platform state.loop).map fun loop =>
          { state with loop := loop, inFlight := state.inFlight.drop arrivals.length }
      else
        none
  | .answer, state =>
      (state.loop.manager.world.zmq.messagesAt node.address)[state.answers.length]?.map
        fun message => { state with answers := state.answers ++ [message] }

/-- What a round of a process needs and does. -/
theorem perform_round {node : Node} {round : Round} {state next : NodeState}
    (taken : node.perform (.round round) state = some next) :
    let arrivals := round.arrivalsAt node.address
    arrivals = (state.inFlight.take arrivals.length).map Message.parts ∧
      ∃ loop, round.perform node.platform state.loop = some loop ∧
        next = { state with loop := loop, inFlight := state.inFlight.drop arrivals.length } := by
  unfold perform at taken
  dsimp only at taken
  split_ifs at taken with arrive
  obtain ⟨loop, performed, rfl⟩ := Option.map_eq_some_iff.mp taken
  exact ⟨arrive, loop, performed, rfl⟩

/-- What has come back from a process stays. -/
theorem answers_of_perform {node : Node} {label : NodeLabel} {state next : NodeState}
    (taken : node.perform label state = some next) : state.answers <+: next.answers := by
  cases label with
  | request message =>
      obtain rfl := Option.some.inj taken
      exact List.prefix_rfl
  | round round =>
      obtain ⟨-, loop, -, rfl⟩ := perform_round taken
      exact List.prefix_rfl
  | answer =>
      obtain ⟨message, -, rfl⟩ := Option.map_eq_some_iff.mp taken
      exact List.prefix_append ..

end Node

/-- A step of one of several processes behind the proxy. -/
def networkStep {ι : Type*} [DecidableEq ι] (nodes : ι → Node) :
    ι × NodeLabel → (ι → NodeState) → Option (ι → NodeState) :=
  Interleaving.step fun peer => (nodes peer).perform

/-! ## Transactions and what has been sent -/

/-- Lists are compared element by element, by what tells the elements apart. -/
theorem prefix_of_maps {α β γ : Type*} {f : α → β} {g : α → γ}
    (apart : ∀ left right, f left = f right → g left = g right → left = right)
    {left right : List α} (first : left.map f <+: right.map f)
    (second : left.map g <+: right.map g) : left <+: right := by
  induction left generalizing right with
  | nil => exact List.nil_prefix
  | cons element left ih =>
      cases right with
      | nil => exact absurd (List.prefix_nil.mp first) (by simp)
      | cons element' right =>
          obtain ⟨same, first⟩ := List.cons_prefix_cons.mp first
          obtain ⟨same', second⟩ := List.cons_prefix_cons.mp second
          exact List.cons_prefix_cons.mpr ⟨apart _ _ same same', ih first second⟩

/-- As the record grows, transactions are added to those that it has. -/
theorem Records.isPrefix {log log' : List Handled} {transactions transactions' : List Transaction}
    (before : Records log transactions) (after : Records log' transactions')
    (grown : log <+: log') : transactions <+: transactions' := by
  refine prefix_of_maps ?_ (before.commands ▸ after.commands ▸ grown.filterMap _)
    (before.replies ▸ after.replies ▸ grown.filterMap _)
  rintro ⟨ref, data, is_ok⟩ ⟨ref', data', is_ok'⟩ command reply
  obtain ⟨rfl, rfl⟩ := Prod.mk.inj command
  obtain ⟨-, rfl⟩ := Prod.mk.inj reply
  rfl

theorem messagesAfter_replyFrames (transactions : List Transaction) :
    messagesAfter [] ((replyFrames transactions).map Frame.part) =
      transactions.map Transaction.answer := by
  induction transactions with
  | nil => rfl
  | cons transaction transactions ih =>
      have some_part : (replyBuffer transaction.is_ok).contents ≠ [] := by
        cases transaction.is_ok <;> decide
      obtain ⟨message, rest⟩ := messagesAfter_marked [] some_part
      have frames : (replyFrames (transaction :: transactions)).map Frame.part =
          marked (replyBuffer transaction.is_ok).contents ++
            (replyFrames transactions).map Frame.part := by
        rw [replyFrames, List.flatMap_cons, List.map_append, map_part_framesOf]
        rfl
      rw [frames, messagesAfter_append, message, rest, ih]
      rfl

/-- The messages on the monitoring socket are the dummy message and the replies. -/
theorem Queued.messagesAt {address : Nat} {waiting : List (List BufferPart)}
    {transactions : List Transaction} {zmq : Zmq}
    (queued : Queued address waiting transactions zmq) :
    zmq.messagesAt address =
      [ascii "dummy"] :: (ownTransactions transactions).map Transaction.answer := by
  obtain ⟨socket, there, -, sent⟩ := queued
  have dummy : dummyFrames.map Frame.part = marked [ascii "dummy"] := by decide
  obtain ⟨message, rest⟩ :=
    messagesAfter_marked [] (List.cons_ne_nil (ascii "dummy") [])
  unfold Zmq.messagesAt
  rw [there, Option.map_some, Option.getD_some, sent, List.map_append, dummy,
    messagesAfter_append, message, rest, messagesAfter_replyFrames]
  rfl

/-! ## One process -/

/-- What has been routed to a process has been handled, waits in its socket or is on its way, in
this order, and what has come back are first replies to what has been handled. -/
structure Orderly (node : Node) (state : NodeState) (handled waiting : List (List BufferPart))
    (transactions : List Transaction) : Prop where
  /-- No message is lost, doubled or overtaken. -/
  order : state.requests.map Message.parts =
    handled ++ waiting ++ state.inFlight.map Message.parts
  /-- The blocks are as they should be. -/
  monitored : Monitored node.address state.loop.manager
  /-- The handled messages have been served. -/
  served : Served node.platform node.address handled waiting transactions state.loop.manager
  /-- What has come back. -/
  answers : state.answers <+:
    [ascii "dummy"] :: (ownTransactions transactions).map Transaction.answer

section

variable {node : Node} {state next : NodeState} {handled waiting : List (List BufferPart)}
  {transactions : List Transaction}

theorem orderly_entered (node : Node) : ∃ transactions,
    Orderly node node.entered [] [] transactions := by
  obtain ⟨monitored, transactions, served⟩ := serving_c3qoMain node.connected
  exact ⟨transactions, rfl, monitored, served, List.nil_prefix⟩

/-- The messages that have not been handled are filled. -/
theorem Orderly.filled (orderly : Orderly node state handled waiting transactions) :
    ∀ parts ∈ waiting ++ state.inFlight.map Message.parts, Filled parts := by
  intro parts member
  have among : parts ∈ state.requests.map Message.parts := by
    rw [orderly.order, List.append_assoc]
    exact List.mem_append_right _ member
  obtain ⟨message, -, rfl⟩ := List.mem_map.mp among
  exact message.filled

/-- A round leaves what has been routed in order. -/
theorem Orderly.round (orderly : Orderly node state handled waiting transactions) {round : Round}
    (taken : node.perform (.round round) state = some next) :
    Spoilt node.platform next.loop.manager ∨
      ∃ handled waiting transactions, Orderly node next handled waiting transactions := by
  obtain ⟨arrive, loop, performed, rfl⟩ := Node.perform_round taken
  have inFlight : state.inFlight.map Message.parts = round.arrivalsAt node.address ++
      (state.inFlight.drop (round.arrivalsAt node.address).length).map Message.parts := by
    conv_lhs => rw [← List.take_append_drop (round.arrivalsAt node.address).length state.inFlight]
    rw [List.map_append, ← arrive]
  have filled := orderly.filled
  rw [inFlight, ← List.append_assoc] at filled
  have serving : Serving node.platform node.address handled waiting state.loop.manager :=
    ⟨orderly.monitored, transactions, orderly.served⟩
  rcases serving.round node.connected.accepts node.connected.memory
    (List.forall_mem_append.mp filled).1 performed with
    spoilt | ⟨now, later, order, monitored, transactions', served⟩
  · exact .inl spoilt
  · refine .inr ⟨handled ++ now, later, transactions', ?_, monitored, served, ?_⟩
    · rw [orderly.order, inFlight, ← List.append_assoc, List.append_assoc handled, ← order,
        ← List.append_assoc handled]
    · have grown := orderly.served.records.isPrefix served.records (log_of_round performed)
      exact orderly.answers.trans (List.cons_prefix_cons.mpr
        ⟨rfl, (grown.filter _).map _⟩)

/-- So does every step. -/
theorem Orderly.step (orderly : Orderly node state handled waiting transactions)
    {label : NodeLabel} (taken : node.perform label state = some next) :
    Spoilt node.platform next.loop.manager ∨
      ∃ handled waiting transactions, Orderly node next handled waiting transactions := by
  cases label with
  | request message =>
      obtain rfl := Option.some.inj taken
      refine .inr ⟨handled, waiting, transactions, ?_, orderly.monitored, orderly.served,
        orderly.answers⟩
      rw [List.map_append, orderly.order, List.map_append, List.append_assoc]
  | round round => exact orderly.round taken
  | answer =>
      obtain ⟨message, found, rfl⟩ := Option.map_eq_some_iff.mp taken
      refine .inr ⟨handled, waiting, transactions, orderly.order, orderly.monitored,
        orderly.served, ?_⟩
      obtain ⟨later, whole⟩ := orderly.answers
      rw [orderly.served.queued.messagesAt, ← whole, List.getElem?_append_right (Nat.le_refl _),
        Nat.sub_self, ← List.head?_eq_getElem?] at found
      obtain ⟨rest, rfl⟩ := List.head?_eq_some_iff.mp found
      exact ⟨rest, by rw [← whole, List.append_assoc]; rfl⟩

/-- The rounds among what happens to a process. -/
def roundsOf (labels : List NodeLabel) : List Round :=
  labels.filterMap fun
    | .round round => some round
    | _ => none

/-- What happens to a process is a run of its main loop. -/
theorem rounds_of_run {labels : List NodeLabel} {final : NodeState}
    (execution : Execution.run node.perform labels state = some final) :
    Execution.run (Round.perform node.platform) (roundsOf labels) state.loop =
      some final.loop := by
  refine Execution.run_filterMap (fun label state next taken => ?_) execution
  cases label with
  | request message =>
      obtain rfl := Option.some.inj taken
      rfl
  | round round =>
      obtain ⟨-, loop, performed, rfl⟩ := Node.perform_round taken
      exact Option.bind_eq_some_iff.mpr ⟨loop, performed, rfl⟩
  | answer =>
      obtain ⟨message, -, rfl⟩ := Option.map_eq_some_iff.mp taken
      rfl

/-- The messages among what happens to a process are those that have been routed to it. -/
def requestsOf (labels : List NodeLabel) : List Message :=
  labels.filterMap fun
    | .request message => some message
    | _ => none

theorem requests_of_run {labels : List NodeLabel} {final : NodeState}
    (execution : Execution.run node.perform labels state = some final) :
    final.requests = state.requests ++ requestsOf labels := by
  induction labels generalizing state with
  | nil =>
      obtain rfl := Option.some.inj execution
      exact (List.append_nil _).symm
  | cons label labels ih =>
      obtain ⟨next, taken, rest⟩ := Option.bind_eq_some_iff.mp execution
      rw [ih rest]
      cases label with
      | request message =>
          obtain rfl := Option.some.inj taken
          exact List.append_assoc ..
      | round round =>
          obtain ⟨-, loop, -, rfl⟩ := Node.perform_round taken
          rfl
      | answer =>
          obtain ⟨message, -, rfl⟩ := Option.map_eq_some_iff.mp taken
          rfl

/-- What has been routed to a process has arrived in its rounds or is on its way. -/
theorem arrivals_of_run {labels : List NodeLabel} {final : NodeState}
    (execution : Execution.run node.perform labels state = some final) :
    (roundsOf labels).flatMap (Round.arrivalsAt node.address) ++
        final.inFlight.map Message.parts =
      state.inFlight.map Message.parts ++ (requestsOf labels).map Message.parts := by
  induction labels generalizing state with
  | nil =>
      obtain rfl := Option.some.inj execution
      exact (List.append_nil _).symm
  | cons label labels ih =>
      obtain ⟨next, taken, rest⟩ := Option.bind_eq_some_iff.mp execution
      cases label with
      | request message =>
          obtain rfl := Option.some.inj taken
          refine (ih rest).trans ?_
          simp [requestsOf]
      | round round =>
          obtain ⟨arrive, loop, -, rfl⟩ := Node.perform_round taken
          have later := ih rest
          dsimp only at later
          change (round :: roundsOf labels).flatMap _ ++ _ = _ ++ (requestsOf labels).map _
          rw [List.flatMap_cons, List.append_assoc, later, ← List.append_assoc]
          congr 1
          conv_rhs => rw [← List.take_append_drop (round.arrivalsAt node.address).length
            state.inFlight, List.map_append, ← arrive]
      | answer =>
          obtain ⟨message, -, rfl⟩ := Option.map_eq_some_iff.mp taken
          have later := ih rest
          exact later

/-- Whatever happens to a process, what has been routed to it stays in order. -/
theorem Orderly.run (orderly : Orderly node state handled waiting transactions)
    {labels : List NodeLabel} {final : NodeState}
    (execution : Execution.run node.perform labels state = some final) :
    Spoilt node.platform final.loop.manager ∨
      ∃ handled waiting transactions, Orderly node final handled waiting transactions := by
  induction labels generalizing state handled waiting transactions with
  | nil =>
      obtain rfl := Option.some.inj execution
      exact .inr ⟨handled, waiting, transactions, orderly⟩
  | cons label labels ih =>
      obtain ⟨next, taken, rest⟩ := Option.bind_eq_some_iff.mp execution
      rcases orderly.step taken with spoilt | ⟨handled, waiting, transactions, orderly⟩
      · exact .inl (spoilt.of_log (log_of_rounds (rounds_of_run rest)))
      · exact ih orderly rest

/-- The transactions of the process are those of its record, and come from replaying it. -/
structure Replayed (node : Node) (state : NodeState) (transactions : List Transaction) : Prop where
  /-- They are on record. -/
  records : Records state.loop.manager.world.log transactions
  /-- Each reply is the result of its command on the store that the commands before have left. -/
  replayed : replay Store.execute
      (transactions.map fun transaction => node.platform.command transaction.data)
      (.entered node.identity) =
    (transactions.map Transaction.is_ok, BlockManager.store state.loop.manager)

/-- The messages that are routed to a process that no command disturbs are handled in their order,
and the replies come back in this order. -/
theorem orderly_of_run {labels : List NodeLabel} {final : NodeState}
    (execution : Execution.run node.perform labels node.entered = some final)
    (spares : ∀ command ∈ final.loop.manager.commands node.platform, command.Spares) :
    ∃ handled waiting transactions, final.requests = requestsOf labels ∧
      Orderly node final handled waiting transactions ∧ Replayed node final transactions := by
  obtain ⟨transactions, start⟩ := orderly_entered node
  rcases start.run execution with spoilt | ⟨handled, waiting, transactions, orderly⟩
  · exact absurd spoilt (not_spoilt spares)
  · have records := orderly.served.records
    have replayed := replay_of_rounds (rounds_of_run execution)
    rw [records.commands_eq, records.replies_eq] at replayed
    exact ⟨handled, waiting, transactions, requests_of_run execution, orderly, records, replayed⟩

end

/-! ## Several processes -/

/-- In every run of the processes behind the proxy, in which they take their rounds in any order,
what has been routed to a process has been handled, waits in its socket or is on its way, in this
order, as long as no command that it has executed disturbs its monitoring blocks. Each command
among the handled messages has been executed once, and what has come back from the process are the
dummy message and then the replies to first ones of these commands, in this order. -/
theorem network_orderly {ι : Type*} [DecidableEq ι] (nodes : ι → Node)
    (labels : List (ι × NodeLabel)) (final : ι → NodeState)
    (execution : Execution.run (networkStep nodes) labels (fun peer => (nodes peer).entered) =
      some final) (peer : ι)
    (spares : ∀ command ∈ (final peer).loop.manager.commands (nodes peer).platform,
      command.Spares) :
    ∃ handled waiting transactions,
      (final peer).requests = requestsOf (Interleaving.labelsOf peer labels) ∧
      Orderly (nodes peer) (final peer) handled waiting transactions ∧
      Replayed (nodes peer) (final peer) transactions :=
  orderly_of_run (Interleaving.run_iff.mp execution peer) spares

/-- A process that adds a block or ends on command. -/
def addOrTermNode (identity : String) : Node where
  platform := addOrTerm
  identity := identity
  address := 1
  connected := connected_addOrTerm identity

/-- The message that brings a command. -/
def commandMessage (code : UInt8) : Message :=
  ⟨[.ofBytes (ascii "PROTO.CMD"), .ofBytes [code]], by
    refine ⟨by simp, fun part member => ?_⟩
    rcases List.mem_pair.mp member with rfl | rfl <;> rw [BufferPart.bytes_ofBytes]
    · decide
    · simp⟩

/-- The two processes of the example: they add a block or end on command. -/
def twoNodes (long : Bool) : Node := addOrTermNode (if long then "c3qo" else "c3")

/-- Both processes are asked to add a block, and the second one answers first. -/
def twoRequests : List (Bool × NodeLabel) :=
  [(false, .request (commandMessage 1)), (true, .request (commandMessage 1)),
    (true, .round (commandRound [1])), (true, .answer), (false, .answer), (true, .answer),
    (false, .round (commandRound [1])), (false, .answer)]

theorem network_orderly_add : ∃ final, Execution.run (networkStep twoNodes) twoRequests
      (fun peer => (twoNodes peer).entered) = some final ∧
    ∃ handled waiting transactions,
      (final true).requests = requestsOf (Interleaving.labelsOf true twoRequests) ∧
      Orderly (twoNodes true) (final true) handled waiting transactions ∧
      Replayed (twoNodes true) (final true) transactions := by
  have outcome : (Execution.run (networkStep twoNodes) twoRequests
      (fun peer => (twoNodes peer).entered)).map
        (fun final => (final true).loop.manager.commands addOrTerm) = some [.add 7 "hello"] := by
    decide +kernel
  obtain ⟨final, execution, commands⟩ := Option.map_eq_some_iff.mp outcome
  refine ⟨final, execution, network_orderly twoNodes twoRequests final execution true ?_⟩
  rw [show (twoNodes true).platform = addOrTerm from rfl, commands]
  decide

/-! ## One client -/

/-- The process as a peer of the `ROUTER`. -/
def Node.peer (node : Node) : Peer :=
  .ofMain node.platform node.identity node.connected.joined

/-- The command of a client has been executed by one process, once, with a result, and nothing
else has been executed by any process. -/
structure ExecutedOnce {ι : Type*} (nodes : ι → Node) (final : ι → NodeState) (client : Ncli)
    (p : ι) (is_ok : Bool) : Prop where
  /-- It is the only command that the process has executed. -/
  once : Replayed (nodes p) (final p) [⟨1, client.cmd_, is_ok⟩]
  /-- The others have executed none. -/
  others : ∀ q, q ≠ p → Replayed (nodes q) (final q) []

/-- The result of the command is determined. -/
theorem ExecutedOnce.unique {ι : Type*} {nodes : ι → Node} {final : ι → NodeState} {client : Ncli}
    {p : ι} {is_ok is_ok' : Bool} (executed : ExecutedOnce nodes final client p is_ok)
    (executed' : ExecutedOnce nodes final client p is_ok') : is_ok = is_ok' := by
  have same := (executed.once.records.isPrefix executed'.once.records List.prefix_rfl).eq_of_length
    rfl
  simpa using same

/-- A process to which nothing has been routed has no transaction of its own. -/
theorem Orderly.idle {node : Node} {state : NodeState} {handled waiting : List (List BufferPart)}
    {transactions : List Transaction} (orderly : Orderly node state handled waiting transactions)
    (unasked : state.requests = []) : ownTransactions transactions = [] := by
  have order := orderly.order
  rw [unasked, List.map_nil] at order
  have unhandled : handled = [] :=
    (List.append_eq_nil_iff.mp (List.append_eq_nil_iff.mp order.symm).1).1
  have commands := orderly.served.commands
  rw [unhandled] at commands
  exact List.map_eq_nil_iff.mp commands

/-- A process to which one command has been routed has no other transaction of its own. -/
theorem Orderly.single {node : Node} {state : NodeState} {handled waiting : List (List BufferPart)}
    {transactions : List Transaction} (orderly : Orderly node state handled waiting transactions)
    {message : Message} (asked : state.requests = [message]) {data : Bytes}
    (brings : commandIn node.platform message.parts = some data) {transaction : Transaction}
    (member : transaction ∈ ownTransactions transactions) :
    ownTransactions transactions = [transaction] ∧ transaction.ref = 1 ∧
      transaction.data = data := by
  have order := orderly.order
  have commands := orderly.served.commands
  rw [asked, List.map_singleton] at order
  have own : transaction.ref = 1 := by simpa using (List.mem_filter.mp member).2
  rcases handled with _ | ⟨first, handled⟩
  · rw [List.map_eq_nil_iff.mp commands] at member
    cases member
  · obtain ⟨rfl, rest⟩ := List.cons.inj order
    have last : handled = [] :=
      (List.append_eq_nil_iff.mp (List.append_eq_nil_iff.mp rest.symm).1).1
    rw [last, List.filterMap_cons, brings] at commands
    obtain ⟨only, single, same⟩ := List.map_eq_singleton_iff.mp commands
    rw [single, List.mem_singleton] at member
    subst member
    exact ⟨single, own, same⟩

theorem contents_replyBuffer (is_ok : Bool) :
    (replyBuffer is_ok).contents = [replyTopic, ascii (if is_ok then "OK" else "KO")] := by
  simp [replyBuffer, Buffer.contents, Buffer.pushBack, Buffer.empty, replyTopic]

section

variable {ι : Type*} {nodes : ι → Node} {client : Ncli} {platform : Platform} {p : ι}

/-- The client takes a reply of the process for its answer exactly if it has the expected status. -/
theorem data_reply_peer_iff (addressed : client.ncli_peer_ = (nodes p).peer.name) (is_ok : Bool) :
    client.data_ platform
        (routerRecv (nodes p).peer.identity (.ofParts (replyBuffer is_ok).contents)) = true ↔
      ascii (if is_ok then "OK" else "KO") <+: client.ncli_cmd_ret_ := by
  have own : memcmpEq (cString client.ncli_peer_ client.peerMemory) (nodes p).peer.identity =
      true := by
    rw [Peer.identity_eq, addressed, memcmpEq_cString]
    exact .inr ⟨[], rfl, rfl⟩
  rw [contents_replyBuffer]
  exact Ncli.data_reply_iff is_ok own

/-- It takes nothing but replies. -/
theorem transaction_of_data {transactions : List Transaction} {answer : List Bytes}
    (back : answer ∈ [ascii "dummy"] :: transactions.map Transaction.answer)
    (taken : client.data_ platform (routerRecv (nodes p).peer.identity (.ofParts answer)) = true) :
    ∃ transaction ∈ transactions, transaction.answer = answer := by
  rcases List.mem_cons.mp back with rfl | member
  · -- The dummy message makes two parts with the identity in front.
    cases taken
  · exact List.mem_map.mp member

/-- The request of the client goes to the process that it addresses, and brings the command. -/
theorem request_routed (different : Function.Injective fun q => (nodes q).peer.name)
    (addressed : client.ncli_peer_ = (nodes p).peer.name) {q : ι} {message : Message}
    (sent : routerSend client.start_ = some ((nodes q).peer.identity, ⟨message.parts⟩)) :
    q = p ∧ message.parts = [.ofBytes (ascii "PROTO.CMD"), .ofBytes client.cmd_] := by
  have request : routerSend client.start_ = some ((nodes p).peer.identity,
      ⟨[.ofBytes (ascii "PROTO.CMD"), .ofBytes client.cmd_]⟩) := by
    rw [Peer.identity_eq, ← addressed, ← BufferPart.bytes_ofBytes (client.ncli_peer_ ++ [0])]
    rfl
  obtain ⟨same, parts⟩ := Prod.mk.inj (Option.some.inj (sent.symm.trans request))
  obtain rfl : q = p :=
    (@identity_injective ι (fun q => (nodes q).peer) different q p).mp same
  exact ⟨rfl, Buffer.mk.inj parts⟩

theorem commandIn_request (platform : Platform) (data : Bytes) :
    commandIn platform [.ofBytes (ascii "PROTO.CMD"), .ofBytes data] = some data := by
  have topic : isCommandTopic platform (.ofBytes (ascii "PROTO.CMD")) = true := by
    rw [isCommandTopic, BufferPart.bytes_ofBytes]
    exact takenForTopic_self platform
  simp [commandIn, topic]

/-- The requests of a process are among those of all of them. -/
theorem requestsOf_sublist [DecidableEq ι] (peer : ι) (labels : List (ι × NodeLabel)) :
    (requestsOf (Interleaving.labelsOf peer labels)).Sublist
      (requestsOf (labels.map Prod.snd)) :=
  (List.filter_sublist.map Prod.snd).filterMap _

theorem mem_requestsOf {labels : List NodeLabel} {message : Message} :
    message ∈ requestsOf labels ↔ .request message ∈ labels := by
  unfold requestsOf
  rw [List.mem_filterMap]
  constructor
  · rintro ⟨label, member, same⟩
    cases label with
    | request other =>
        obtain rfl := Option.some.inj same
        exact member
    | round => cases same
    | answer => cases same
  · exact fun member => ⟨_, member, rfl⟩

end

/-- What has happened to the processes is that the request of a client, who addresses one of them,
has been routed once at most. -/
structure OneRequest {ι : Type*} [DecidableEq ι] (nodes : ι → Node) (client : Ncli) (p : ι)
    (labels : List (ι × NodeLabel)) (final : ι → NodeState) : Prop where
  /-- The processes have different names. -/
  different : Function.Injective fun q => (nodes q).peer.name
  /-- The process is addressed by its name. -/
  addressed : client.ncli_peer_ = (nodes p).peer.name
  /-- This is what has happened. -/
  execution : Execution.run (networkStep nodes) labels (fun peer => (nodes peer).entered) =
    some final
  /-- The request is the one of the client. -/
  sent : ∀ q message, (q, .request message) ∈ labels →
    routerSend client.start_ = some ((nodes q).peer.identity, ⟨message.parts⟩)
  /-- There is one at most. -/
  once : (requestsOf (labels.map Prod.snd)).length ≤ 1
  /-- Its command spares the monitoring blocks of the process. -/
  spares : ((nodes p).platform.command client.cmd_).Spares

namespace OneRequest

variable {ι : Type*} [DecidableEq ι] {nodes : ι → Node} {client : Ncli} {p : ι}
  {labels : List (ι × NodeLabel)} {final : ι → NodeState}

/-- At most this request has been routed to a process. -/
theorem requests (one : OneRequest nodes client p labels final) (q : ι) :
    requestsOf (Interleaving.labelsOf q labels) = [] ∨
      q = p ∧ ∃ message, requestsOf (Interleaving.labelsOf q labels) = [message] ∧
        message.parts = [.ofBytes (ascii "PROTO.CMD"), .ofBytes client.cmd_] := by
  rcases asked : requestsOf (Interleaving.labelsOf q labels) with _ | ⟨message, others⟩
  · exact .inl rfl
  · have short := (requestsOf_sublist q labels).length_le.trans one.once
    have routed : (q, .request message) ∈ labels := by
      rw [← Interleaving.mem_labelsOf, ← mem_requestsOf, asked]
      exact List.mem_cons_self
    obtain ⟨rfl, parts⟩ :=
      request_routed one.different one.addressed (one.sent q message routed)
    rw [asked] at short
    obtain rfl : others = [] :=
      List.length_eq_zero_iff.mp (Nat.le_zero.mp (Nat.le_of_succ_le_succ short))
    exact .inr ⟨rfl, message, rfl, parts⟩

/-- What arrives at the monitoring socket of a process is modest. -/
theorem modest (one : OneRequest nodes client p labels final) (q : ι) :
    Modest (nodes q).platform ((roundsOf (Interleaving.labelsOf q labels)).flatMap
      (Round.arrivalsAt (nodes q).address)) := by
  have routed := arrivals_of_run (Interleaving.run_iff.mp one.execution q)
  refine Modest.of_sublist ?_ (routed ▸ List.sublist_append_left ..)
  change Modest _ ((requestsOf (Interleaving.labelsOf q labels)).map Message.parts)
  rcases one.requests q with unasked | ⟨rfl, message, asked, parts⟩
  · rw [unasked]
    exact ⟨by simp, by simp, by simp [Disturbing]⟩
  · have brings := commandIn_request (nodes q).platform client.cmd_
    rw [asked, List.map_singleton]
    refine ⟨?_, ?_, ?_⟩
    · intro parts' member
      rw [List.mem_singleton.mp member]
      exact message.filled
    · exact List.length_filterMap_le ..
    · rintro ⟨parts', member, data, brings', disturbing⟩
      rw [List.mem_singleton.mp member, parts, brings] at brings'
      obtain rfl := Option.some.inj brings'
      exact disturbing one.spares

/-- Each process has handled what has been routed to it, and has executed nothing else. -/
theorem orderly (one : OneRequest nodes client p labels final) (q : ι) :
    ∃ handled waiting transactions,
      (final q).requests = requestsOf (Interleaving.labelsOf q labels) ∧
      Orderly (nodes q) (final q) handled waiting transactions ∧
      Replayed (nodes q) (final q) transactions ∧ ownTransactions transactions = transactions := by
  have execution := Interleaving.run_iff.mp one.execution q
  have rounds := rounds_of_run execution
  obtain ⟨handled, waiting, transactions, requests, orderly, replayed⟩ :=
    orderly_of_run execution (spares_of_modest (nodes q).connected rounds (one.modest q))
  refine ⟨handled, waiting, transactions, requests, orderly, replayed, ?_⟩
  refine (own_of_rounds rounds).1.own_of_few replayed.records ?_
  have short := (requestsOf_sublist q labels).length_le.trans one.once
  have lengths := congrArg List.length orderly.order
  rw [requests, List.append_assoc, List.length_append, List.length_map] at lengths
  rw [← List.length_map Transaction.data, orderly.served.commands]
  exact (List.length_filterMap_le ..).trans (by omega)

/-- The command of the client is executed once at most, and by the process that it addresses. -/
theorem transactions (one : OneRequest nodes client p labels final) (q : ι) : ∃ transactions,
    Replayed (nodes q) (final q) transactions ∧
      (final q).answers <+: [ascii "dummy"] :: transactions.map Transaction.answer ∧
      (transactions = [] ∨ q = p ∧ ∃ is_ok, transactions = [⟨1, client.cmd_, is_ok⟩]) := by
  obtain ⟨handled, waiting, transactions, requests, orderly, replayed, own⟩ := one.orderly q
  have answers := orderly.answers
  rw [own] at answers
  refine ⟨transactions, replayed, answers, ?_⟩
  rcases one.requests q with unasked | ⟨rfl, message, asked, parts⟩
  · exact .inl (own.symm.trans (orderly.idle (requests.trans unasked)))
  · rcases some_transaction : transactions with _ | ⟨transaction, rest⟩
    · exact .inl rfl
    · have member : transaction ∈ ownTransactions transactions := by
        rw [own, some_transaction]
        exact List.mem_cons_self
      obtain ⟨single, ref, data⟩ := orderly.single (requests.trans asked)
        (parts ▸ commandIn_request _ client.cmd_) member
      refine .inr ⟨rfl, transaction.is_ok, ?_⟩
      rw [← some_transaction, ← own, single, ← ref, ← data]

/-- So it has been executed once if the process has a transaction. -/
theorem executedOnce (one : OneRequest nodes client p labels final) {is_ok : Bool}
    (once : Replayed (nodes p) (final p) [⟨1, client.cmd_, is_ok⟩]) :
    ExecutedOnce nodes final client p is_ok := by
  refine ⟨once, fun other elsewhere => ?_⟩
  obtain ⟨transactions, replayed, -, rfl | ⟨same, -⟩⟩ := one.transactions other
  · exact replayed
  · exact absurd same elsewhere

/-- When the request has been routed, and the process has handled what has been routed to it, the
command has been executed and replied to. -/
theorem executed (one : OneRequest nodes client p labels final)
    (asked : requestsOf (labels.map Prod.snd) ≠ []) (arrived : (final p).inFlight = [])
    (received : ((final p).loop.manager.world.zmq.lookup (some (nodes p).address)).map
      Socket.inbox = some []) :
    ∃ is_ok, ExecutedOnce nodes final client p is_ok ∧
      (final p).loop.manager.world.zmq.messagesAt (nodes p).address =
        [[ascii "dummy"], (replyBuffer is_ok).contents] := by
  obtain ⟨handled, waiting, transactions, requests, orderly, replayed, own⟩ := one.orderly p
  obtain ⟨message, only, parts⟩ : ∃ message, (final p).requests = [message] ∧
      message.parts = [.ofBytes (ascii "PROTO.CMD"), .ofBytes client.cmd_] := by
    rcases one.requests p with unasked | ⟨-, message, there, parts⟩
    · obtain ⟨message, member⟩ := List.exists_mem_of_ne_nil _ asked
      obtain ⟨⟨q, label⟩, routed, rfl⟩ := List.mem_map.mp (mem_requestsOf.mp member)
      obtain ⟨rfl, -⟩ := request_routed one.different one.addressed (one.sent q message routed)
      have there := mem_requestsOf.mpr (Interleaving.mem_labelsOf.mpr routed)
      rw [unasked] at there
      cases there
    · exact ⟨message, requests.trans there, parts⟩
  have read : waiting = [] := Receiving.waiting_eq_nil orderly.served.queued
    (List.forall_mem_append.mp orderly.filled).1 received
  have order := orderly.order
  rw [only, arrived, read, List.map_singleton, List.map_nil, List.append_nil,
    List.append_nil] at order
  have commands := orderly.served.commands
  rw [← order, parts, List.filterMap_cons, commandIn_request] at commands
  obtain ⟨transaction, single, data⟩ := List.map_eq_singleton_iff.mp commands
  have ref : transaction.ref = 1 := by
    have own : transaction ∈ ownTransactions transactions := single ▸ List.mem_singleton_self _
    simpa using (List.mem_filter.mp own).2
  have whole : transactions = [⟨1, client.cmd_, transaction.is_ok⟩] := by
    rw [← own, single, ← ref, ← data]
  refine ⟨transaction.is_ok, one.executedOnce (whole ▸ replayed), ?_⟩
  rw [orderly.served.queued.messagesAt, single]
  rfl

/-- What the client takes for its answer is the reply to its command. -/
theorem data_iff (one : OneRequest nodes client p labels final)
    (noNul : ∀ q, 0 ∉ (nodes q).peer.name) (platform : Platform) {q : ι} {answer : List Bytes}
    (back : answer ∈ (final q).answers) :
    client.data_ platform (routerRecv (nodes q).peer.identity (.ofParts answer)) = true ↔
      q = p ∧ ∃ is_ok, answer = (replyBuffer is_ok).contents ∧
        ascii (if is_ok then "OK" else "KO") <+: client.ncli_cmd_ret_ ∧
        ExecutedOnce nodes final client p is_ok := by
  constructor
  · intro taken
    obtain rfl : q = p := by
      by_contra other
      have refused := @data_of_other ι (fun q => (nodes q).peer) one.different noNul p q client
        one.addressed other platform (.ofParts answer)
      cases refused.symm.trans taken
    obtain ⟨transactions, replayed, answers, rfl | ⟨-, is_ok, rfl⟩⟩ := one.transactions q
    · obtain ⟨transaction, among, -⟩ := transaction_of_data (answers.subset back) taken
      cases among
    · obtain ⟨transaction, among, rfl⟩ := transaction_of_data (answers.subset back) taken
      obtain rfl := List.mem_singleton.mp among
      exact ⟨rfl, is_ok, rfl, (data_reply_peer_iff one.addressed is_ok).mp taken,
        one.executedOnce replayed⟩
  · rintro ⟨rfl, is_ok, rfl, expected, -⟩
    exact (data_reply_peer_iff one.addressed is_ok).mpr expected

end OneRequest

/-- A client whose request is the only one that has been sent, at most once, and spares the
monitoring blocks of the process that it addresses, takes a message for its answer exactly if that
is a reply of this process, with the status that the client expects. Its command has then been
executed by this process, once, with the result that the status tells, and nothing else by any. -/
theorem client_answered_iff {ι : Type*} [DecidableEq ι] (nodes : ι → Node)
    (different : Function.Injective fun q => (nodes q).peer.name)
    (noNul : ∀ q, 0 ∉ (nodes q).peer.name) (platform : Platform) (client : Ncli) (p : ι)
    (addressed : client.ncli_peer_ = (nodes p).peer.name) (labels : List (ι × NodeLabel))
    (final : ι → NodeState)
    (execution : Execution.run (networkStep nodes) labels (fun peer => (nodes peer).entered) =
      some final)
    (sent : ∀ q message, (q, .request message) ∈ labels →
      routerSend client.start_ = some ((nodes q).peer.identity, ⟨message.parts⟩))
    (once : (requestsOf (labels.map Prod.snd)).length ≤ 1)
    (spares : ((nodes p).platform.command client.cmd_).Spares)
    (q : ι) (answer : List Bytes) (back : answer ∈ (final q).answers) :
    client.data_ platform (routerRecv (nodes q).peer.identity (.ofParts answer)) = true ↔
      q = p ∧ ∃ is_ok, answer = (replyBuffer is_ok).contents ∧
        ascii (if is_ok then "OK" else "KO") <+: client.ncli_cmd_ret_ ∧
        ExecutedOnce nodes final client p is_ok :=
  OneRequest.data_iff ⟨different, addressed, execution, sent, once, spares⟩ noNul platform back

theorem twoNodes_different : Function.Injective fun long => (twoNodes long).peer.name := by
  intro long long' same
  cases long <;> cases long' <;> first | rfl | exact absurd same (by decide)

theorem twoNodes_noNul (long : Bool) : 0 ∉ (twoNodes long).peer.name := by
  cases long <;> decide

/-- One of the two processes is asked to add a block, and both messages that it sends come back. -/
def oneRequest : List (Bool × NodeLabel) :=
  [(true, .request (commandMessage 1)), (false, .answer), (true, .round (commandRound [1])),
    (true, .answer), (true, .answer)]

theorem client_answered_add : ∃ final, Execution.run (networkStep twoNodes) oneRequest
      (fun peer => (twoNodes peer).entered) = some final ∧
    ((ncliRun [1]).data_ addOrTerm
        (routerRecv (twoNodes true).peer.identity (.ofParts (replyBuffer true).contents)) = true ↔
      true = true ∧ ∃ is_ok, (replyBuffer true).contents = (replyBuffer is_ok).contents ∧
        ascii (if is_ok then "OK" else "KO") <+: (ncliRun [1]).ncli_cmd_ret_ ∧
        ExecutedOnce twoNodes final (ncliRun [1]) true is_ok) := by
  have outcome : (Execution.run (networkStep twoNodes) oneRequest
      (fun peer => (twoNodes peer).entered)).map (fun final => (final true).answers) =
        some [[ascii "dummy"], (replyBuffer true).contents] := by
    decide +kernel
  obtain ⟨final, execution, answers⟩ := Option.map_eq_some_iff.mp outcome
  refine ⟨final, execution, client_answered_iff twoNodes twoNodes_different twoNodes_noNul
    addOrTerm (ncliRun [1]) true rfl oneRequest final execution ?_ (by decide) (by decide) true _
    ?_⟩
  · intro q message member
    simp only [oneRequest, List.mem_cons, Prod.mk.injEq, NodeLabel.request.injEq, reduceCtorEq,
      and_false, List.not_mem_nil, or_false] at member
    obtain ⟨rfl, rfl⟩ := member
    decide
  · rw [answers]
    simp

end C3qo
