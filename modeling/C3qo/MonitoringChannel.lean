import C3qo.CommandStore
import C3qo.Framing
import C3qo.Monitoring

/-!
# The monitoring channel

What arrives at the socket that `main` opens is handled message by message, in the order of
arrival. Each command among these messages is executed once, and its reply is sent before the next
message is handled. Whatever else happens on the other sockets and blocks does not get in between,
as long as no command stops or rebinds the two blocks themselves.
-/

namespace C3qo

open Journal Relation

/-! ## Transactions -/

/-- A command that an interpreter has executed and replied to. -/
structure Transaction where
  /-- The interpreter. -/
  ref : BlockRef
  /-- The packed command. -/
  data : Bytes
  /-- The reply. -/
  is_ok : Bool

/-- The transactions of the interpreter that `main` adds. -/
def ownTransactions (transactions : List Transaction) : List Transaction :=
  transactions.filter fun transaction => transaction.ref = 1

/-- The record is of these transactions, in this order. -/
structure Records (log : List Handled) (transactions : List Transaction) : Prop where
  /-- The commands that were executed. -/
  commands : (log.filterMap fun
    | .command ref data => some (ref, data)
    | _ => none) = transactions.map fun transaction => (transaction.ref, transaction.data)
  /-- The replies that were sent. -/
  replies : (log.filterMap fun
    | .reply ref is_ok => some (ref, is_ok)
    | _ => none) = transactions.map fun transaction => (transaction.ref, transaction.is_ok)

namespace Records

variable {log : List Handled} {transactions : List Transaction}

/-- Data that is handed to a block is no transaction. -/
theorem handed (records : Records log transactions) (ref : BlockRef) (vdata : Option Buffer)
    (started : Bool) : Records (log ++ [.data_ ref vdata started]) transactions :=
  ⟨by simpa using records.commands, by simpa using records.replies⟩

/-- A command and its reply are one. -/
theorem executed (records : Records log transactions) (ref : BlockRef) (data : Bytes)
    (is_ok : Bool) : Records (log ++ [.command ref data, .reply ref is_ok])
      (transactions ++ [⟨ref, data, is_ok⟩]) :=
  ⟨by simp [records.commands], by simp [records.replies]⟩

end Records

/-! ## Messages -/

/-- The command that a message brings, if it brings one. -/
def commandIn (platform : Platform) : List BufferPart → Option Bytes
  | [topic, payload] => if isCommandTopic platform topic then some payload.bytes else none
  | _ => none

/-- The buffer in which a message is received. -/
def receivedBuffer (parts : List BufferPart) : Buffer :=
  ⟨parts.map fun part => .ofBytes part.bytes⟩

theorem isCommand_receivedBuffer {platform : Platform} {parts : List BufferPart}
    {payload : Bytes} : IsCommand platform (some (receivedBuffer parts)) payload ↔
      commandIn platform parts = some payload := by
  have topic (part : BufferPart) : isCommandTopic platform (.ofBytes part.bytes) =
      isCommandTopic platform part := by
    simp [isCommandTopic]
  constructor
  · rintro ⟨first, second, same, accepted, rfl⟩
    rcases parts with _ | ⟨part, _ | ⟨part', _ | _⟩⟩ <;> simp [receivedBuffer] at same
    obtain ⟨rfl, rfl⟩ := same
    rw [topic] at accepted
    simp [commandIn, accepted]
  · intro brings
    rcases parts with _ | ⟨part, _ | ⟨part', _ | _⟩⟩ <;> simp [commandIn] at brings
    obtain ⟨accepted, rfl⟩ := brings
    exact ⟨_, _, rfl, (topic part).trans accepted, BufferPart.bytes_ofBytes _⟩

/-- A message that `recv_` receives: there are parts, none of them empty. -/
def Filled (parts : List BufferPart) : Prop := parts ≠ [] ∧ ∀ part ∈ parts, part.bytes ≠ []

/-- The frames of replies. -/
def replyFrames (transactions : List Transaction) : List Frame :=
  transactions.flatMap fun transaction => framesOf (replyBuffer transaction.is_ok).parts_

/-- What a dealer makes itself known with. -/
def dummyFrames : List Frame := framesOf (Buffer.empty.pushBack (ascii "dummy")).parts_

/-- The socket at the address holds the messages that wait and has sent these frames. -/
def Receiving (address : Nat) (waiting : List (List BufferPart)) (sent : List Frame) (zmq : Zmq) :
    Prop :=
  ∃ socket, zmq.lookup (some address) = some socket ∧ socket.inbox = waiting.flatMap framesOf ∧
    socket.sent = sent

/-- The socket at the address holds the messages that wait and has sent the replies. -/
def Queued (address : Nat) (waiting : List (List BufferPart)) (transactions : List Transaction)
    (zmq : Zmq) : Prop :=
  ∃ socket, zmq.lookup (some address) = some socket ∧ socket.inbox = waiting.flatMap framesOf ∧
    socket.sent = dummyFrames ++ replyFrames (ownTransactions transactions)

/-- Some messages have been handled and others wait. -/
structure Served (platform : Platform) (address : Nat) (handled waiting : List (List BufferPart))
    (transactions : List Transaction) (manager : BlockManager) : Prop where
  /-- The transactions are on record. -/
  records : Records manager.world.log transactions
  /-- The socket holds the messages that wait, and has sent the replies. -/
  queued : Queued address waiting transactions manager.world.zmq
  /-- The commands are those that the handled messages have brought. -/
  commands : (ownTransactions transactions).map Transaction.data =
    handled.filterMap (commandIn platform)

/-- A command that does not spare the monitoring blocks has been executed. -/
def Spoilt (platform : Platform) (manager : BlockManager) : Prop :=
  ∃ ref data, .command ref data ∈ manager.world.log ∧ ¬ (platform.command data).Spares

/-- One of these messages brings a command that does not spare the monitoring blocks. -/
def Disturbing (platform : Platform) (messages : List (List BufferPart)) : Prop :=
  ∃ parts ∈ messages, ∃ data, commandIn platform parts = some data ∧
    ¬ (platform.command data).Spares

/-- The monitoring blocks are as they should be, and have handled these messages. -/
def Serving (platform : Platform) (address : Nat) (handled waiting : List (List BufferPart))
    (manager : BlockManager) : Prop :=
  Monitored address manager ∧
    ∃ transactions, Served platform address handled waiting transactions manager

/-- Of these messages, first ones have been handled too, and the others wait. -/
def Advancing (platform : Platform) (address : Nat) (handled messages : List (List BufferPart))
    (manager : BlockManager) : Prop :=
  ∃ now later, now ++ later = messages ∧
    Serving platform address (handled ++ now) later manager

section

variable {platform : Platform} {address : Nat} {handled waiting : List (List BufferPart)}
  {transactions : List Transaction} {before after manager : BlockManager} {ref : BlockRef}

/-- Nothing more has been handled. -/
theorem Serving.advancing (serving : Serving platform address handled waiting manager) :
    Advancing platform address handled waiting manager :=
  ⟨[], waiting, rfl, by rwa [List.append_nil]⟩

theorem Spoilt.of_log (spoilt : Spoilt platform before)
    (log : before.world.log <+: after.world.log) : Spoilt platform after := by
  obtain ⟨ref, data, member, disturbing⟩ := spoilt
  exact ⟨ref, data, log.subset member, disturbing⟩

theorem Spoilt.step (spoilt : Spoilt platform before) (step : BlockStep platform before ref after) :
    Spoilt platform after :=
  spoilt.of_log (log_of_step (.inl ⟨ref, step⟩))

theorem Disturbing.mono {messages messages' : List (List BufferPart)}
    (disturbing : Disturbing platform messages) (among : messages ⊆ messages') :
    Disturbing platform messages' := by
  obtain ⟨parts, member, brings⟩ := disturbing
  exact ⟨parts, among member, brings⟩

/-- It has not, if all commands on record spare them. -/
theorem not_spoilt (spares : ∀ command ∈ manager.commands platform, command.Spares) :
    ¬ Spoilt platform manager := by
  rintro ⟨ref, data, member, disturbing⟩
  exact disturbing (spares _ (List.mem_filterMap.mpr ⟨_, member, rfl⟩))

/-- Flows do not undo it. -/
theorem carried_spoilt (platform : Platform) :
    Carried platform (fun _ _ => True) (Spoilt platform) :=
  ⟨fun _ _ _ _ _ _ _ _ => trivial, fun _ _ _ spoilt _ step => spoilt.step step,
    fun _ _ _ _ _ _ _ _ => trivial⟩

/-! ## Events of other blocks -/

theorem ownTransactions_foreign {data : Bytes} {is_ok : Bool} (foreign : ref ≠ 1) :
    ownTransactions (transactions ++ [⟨ref, data, is_ok⟩]) = ownTransactions transactions := by
  simp [ownTransactions, foreign]

theorem Served.foreign_step (served : Served platform address handled waiting transactions before)
    (foreign : ref ≠ 1) (step : BlockStep platform before ref after)
    (socket : after.world.zmq.lookup (some address) = before.world.zmq.lookup (some address)) :
    ∃ transactions, Served platform address handled waiting transactions after := by
  have queued : Queued address waiting transactions after.world.zmq := by
    unfold Queued
    rw [socket]
    exact served.queued
  rcases step.records with same | ⟨vdata, started, log⟩ | ⟨vdata, started, payload, is_ok, log⟩
  · exact ⟨transactions, same ▸ served.records, queued, served.commands⟩
  · exact ⟨transactions, log ▸ served.records.handed ref vdata started, queued, served.commands⟩
  · have own := @ownTransactions_foreign transactions ref payload is_ok foreign
    refine ⟨transactions ++ [⟨ref, payload, is_ok⟩],
      log ▸ (served.records.handed ref vdata started).executed ref payload is_ok, ?_, ?_⟩
    · unfold Queued
      rw [own]
      exact queued
    · rw [own]
      exact served.commands

theorem Serving.foreign_step (memory : ∀ ref, (platform.hookMemory ref).2.socket ≠ some address)
    (serving : Serving platform address handled waiting before) (foreign : ref ≠ 0 ∧ ref ≠ 1)
    (step : BlockStep platform before ref after) :
    Spoilt platform after ∨ Serving platform address handled waiting after := by
  by_cases spoilt : Spoilt platform after
  · exact .inl spoilt
  · obtain ⟨monitored, transactions, served⟩ := serving
    obtain ⟨socket, there, -⟩ := served.queued
    have undisturbed := monitored.foreign_step (by rw [there]; rfl) memory foreign step
      fun data member => by_contra fun disturbing => spoilt ⟨ref, data, member, disturbing⟩
    exact .inr ⟨undisturbed.monitored, served.foreign_step foreign.2 step undisturbed.socket⟩

/-- What other blocks do with their data leaves the channel alone. -/
theorem carried_serving (memory : ∀ ref, (platform.hookMemory ref).2.socket ≠ some address)
    (handled waiting : List (List BufferPart)) :
    Carried platform (fun manager ref => Spoilt platform manager ∨ ref ≠ 0 ∧ ref ≠ 1)
      fun manager => Spoilt platform manager ∨
        Serving platform address handled waiting manager where
  closed manager holds ref block sink among object bound := by
    rcases holds with spoilt | ⟨monitored, -⟩
    · exact .inl spoilt
    · rcases among with spoilt | foreign
      · exact .inl spoilt
      · have others := monitored.sinks ref block foreign.1 foreign.2 object
        rw [bound] at others
        exact .inr ⟨fun same => others.1 (congrArg some same),
          fun same => others.2 (congrArg some same)⟩
  step before ref after holds among step := by
    rcases holds with spoilt | serving
    · exact .inl (spoilt.step step)
    · rcases among with spoilt | foreign
      · exact .inl (spoilt.step step)
      · exact serving.foreign_step memory foreign step
  kept before ref after _ _ step other among := among.imp_left fun spoilt => spoilt.step step

/-! ## Events of the hook -/

/-- A flow to a block that does not forward. -/
theorem handed_of_flow {depth fuel : Nat} {running : List BlockRef} {vdata : Option Buffer}
    {source sink : BlockRef} {block target : Block}
    (object : manager.blocks.deref source = some block) (bound : block.sink_ = some sink)
    (live : manager.blocks.deref sink = some target) (other : manager.isHello sink = false)
    (done : processData (blockData platform depth running vdata) fuel source manager = .ok after) :
    blockData platform depth running vdata sink manager = .ok (false, after) := by
  cases fuel with
  | zero => cases done
  | succ fuel =>
      rw [processData_of_bound object bound live] at done
      split at done
      · cases done
      · rename_i next forwarded
        rw [blockData_forward forwarded] at other
        cases other
      · rename_i next handed
        cases done
        exact handed

/-- The first message that waits is received, as long as its parts are filled. -/
theorem Receiving.recv {sent : List Frame} {hook : HookZmq} {zmq : Zmq} {parts : List BufferPart}
    (receiving : Receiving address (parts :: waiting) sent zmq) (filled : Filled parts)
    (own : hook.zmq_sock_.socket = some address) :
    ∃ zmq', hook.recv_ Buffer.empty zmq = (true, receivedBuffer parts, zmq') ∧
      Receiving address waiting sent zmq' := by
  obtain ⟨socket, there, inbox, same⟩ := receiving
  rw [← own] at there
  obtain ⟨zmq', received, there'⟩ := HookZmq.recv_of_lookup there Buffer.empty
  have looped := (HookZmq.recvLoop_framesOf parts filled.1 Buffer.empty
    (waiting.flatMap framesOf)).1 filled.2
  rw [inbox, List.flatMap_cons, looped] at received there'
  rw [own] at there'
  exact ⟨zmq', received, _, there', rfl, same⟩

/-- Without a message nothing is received. -/
theorem Receiving.recv_nil {sent : List Frame} {hook : HookZmq} {zmq : Zmq}
    (receiving : Receiving address [] sent zmq) (own : hook.zmq_sock_.socket = some address) :
    ∃ buf zmq', hook.recv_ Buffer.empty zmq = (false, buf, zmq') ∧
      Receiving address [] sent zmq' := by
  obtain ⟨socket, there, inbox, same⟩ := receiving
  rw [← own] at there
  obtain ⟨zmq', received, there'⟩ := HookZmq.recv_of_lookup there Buffer.empty
  rw [inbox] at received there'
  rw [own] at there'
  exact ⟨Buffer.empty, zmq', received, _, there', rfl, same⟩

/-- When nothing is left in the socket, no message waits. -/
theorem Receiving.waiting_eq_nil {sent : List Frame} {zmq : Zmq}
    (receiving : Receiving address waiting sent zmq) (filled : ∀ parts ∈ waiting, Filled parts)
    (read : (zmq.lookup (some address)).map Socket.inbox = some []) : waiting = [] := by
  obtain ⟨socket, there, inbox, -⟩ := receiving
  rw [there, Option.map_some, inbox, Option.some.injEq, List.flatMap_eq_nil_iff] at read
  refine List.eq_nil_iff_forall_not_mem.mpr fun parts member => ?_
  have none_left := read parts member
  rcases parts with _ | ⟨part, parts⟩
  · exact (filled [] member).1 rfl
  · cases none_left

theorem Queued.recv {hook : HookZmq} {zmq : Zmq} {parts : List BufferPart}
    (queued : Queued address (parts :: waiting) transactions zmq) (filled : Filled parts)
    (own : hook.zmq_sock_.socket = some address) :
    ∃ zmq', hook.recv_ Buffer.empty zmq = (true, receivedBuffer parts, zmq') ∧
      Queued address waiting transactions zmq' :=
  Receiving.recv queued filled own

theorem Queued.recv_nil {hook : HookZmq} {zmq : Zmq} (queued : Queued address [] transactions zmq)
    (own : hook.zmq_sock_.socket = some address) :
    ∃ buf zmq', hook.recv_ Buffer.empty zmq = (false, buf, zmq') ∧
      Queued address [] transactions zmq' :=
  Receiving.recv_nil queued own

/-- A reply is sent on the socket of the hook. -/
theorem Queued.sent (accepts : ∀ call, platform.accepts call = true) {hook : HookZmq} {zmq : Zmq}
    (queued : Queued address waiting transactions zmq)
    (own : hook.zmq_sock_.socket = some address) (data : Bytes) (is_ok : Bool) :
    Queued address waiting (transactions ++ [⟨1, data, is_ok⟩])
      (hook.data_ platform (some (replyBuffer is_ok)) zmq).2.2 := by
  obtain ⟨socket, there, inbox, sent⟩ := queued
  rw [← own] at there
  obtain ⟨zmq', done, there'⟩ :=
    HookZmq.sendLoop_of_accepts accepts hook.zmq_sock_.socket (replyBuffer is_ok).parts_ there
  have result : (hook.data_ platform (some (replyBuffer is_ok)) zmq).2.2 = zmq' := by
    simp only [HookZmq.data_, HookZmq.send_, done]
  rw [own] at there'
  rw [result]
  refine ⟨_, there', inbox, ?_⟩
  simp [sent, replyFrames, ownTransactions]

theorem Monitored.exists_hook (monitored : Monitored address manager) :
    ∃ hook, manager.kind 0 = some (.hookZmq hook) ∧ hook.zmq_sock_.socket = some address :=
  wire_eq_hookZmq.mp monitored.socket

theorem Monitored.kind_interpreter (monitored : Monitored address manager) :
    manager.kind 1 = some .transPb :=
  wire_eq_transPb.mp monitored.transPb

theorem not_isHello {derived : Derived} (kind : manager.kind ref = some derived)
    (other : ∀ name_ count_, derived ≠ .hello name_ count_) : manager.isHello ref = false := by
  refine Bool.eq_false_iff.mpr fun hello => ?_
  obtain ⟨name_, count_, kind'⟩ := BlockManager.isHello_iff.mp hello
  exact other name_ count_ (Option.some.inj (kind.symm.trans kind'))

/-- The flow of a reply ends at the hook, which sends it. -/
theorem Monitored.reply (monitored : Monitored address manager) {depth fuel : Nat}
    {running : List BlockRef} {vdata : Option Buffer}
    (done : processData (blockData platform depth running vdata) fuel 1 manager = .ok after) :
    ∃ hook, manager.kind 0 = some (.hookZmq hook) ∧ hook.zmq_sock_.socket = some address ∧
      after = hookSent platform (received manager 0 vdata) 0 hook vdata := by
  obtain ⟨hook, kind, own⟩ := monitored.exists_hook
  have handed := handed_of_flow monitored.interpreter rfl monitored.hook
    (not_isHello kind (by simp)) done
  refine ⟨hook, kind, own, ?_⟩
  cases depth with
  | zero => cases handed
  | succ depth =>
      rw [blockData_hook kind] at handed
      cases handed
      rfl

/-- What a hook has sent leaves the monitoring blocks as they should be. -/
theorem Monitored.hookSent (monitored : Monitored address manager) {hook : HookZmq}
    (kind : manager.kind ref = some (.hookZmq hook)) (vdata : Option Buffer) :
    Monitored address (hookSent platform (received manager ref vdata) ref hook vdata) := by
  have recorded : Monitored address (received manager ref vdata) :=
    monitored.rewired rfl fun _ => rfl
  have configured := recorded.configured kind
    (hook.zmq_sock_data platform vdata manager.world.zmq)
  exact configured.rewired rfl fun _ => rfl

/-- The interpreter handles the message that the hook has received, and the hook sends the reply
if there is one. -/
theorem Served.handle (accepts : ∀ call, platform.accepts call = true)
    (memory : ∀ ref, (platform.hookMemory ref).2.socket ≠ some address)
    {parts : List BufferPart} (monitored : Monitored address before)
    (served : Served platform address handled waiting transactions before) {fuel : Nat}
    {running : List BlockRef}
    (done : blockData platform fuel running (some (receivedBuffer parts)) 1 before =
      .ok (false, after)) :
    Spoilt platform after ∧ Disturbing platform [parts] ∨
      Serving platform address (handled ++ [parts]) waiting after := by
  have kind := monitored.kind_interpreter
  cases fuel with
  | zero => cases done
  | succ fuel =>
      by_cases command : ∃ payload, IsCommand platform (some (receivedBuffer parts)) payload
      · obtain ⟨payload, command⟩ := command
        have brings := isCommand_receivedBuffer.mp command
        rw [blockData_command kind command] at done
        split at done
        · cases done
        · rename_i is_ok next executed
          split at done
          · cases done
          · unfold replied at done
            split at done <;> cases done
            rename_i replying
            have log : (next.record (.reply 1 is_ok)).world.log = before.world.log ++
                [.data_ 1 (some (receivedBuffer parts)) (before.isStarted 1)] ++
                  [.command 1 payload, .reply 1 is_ok] := by
              simp [BlockManager.record, log_executed executed, commanded, received]
            by_cases spares : (platform.command payload).Spares
            · obtain ⟨socket, there, -⟩ := served.queued
              have state : Monitored address
                  (commanded before 1 (some (receivedBuffer parts)) payload) :=
                monitored.rewired rfl fun _ => rfl
              obtain ⟨monitored', same⟩ := state.executed
                (Option.isSome_iff_exists.mpr ⟨socket, there⟩) memory spares executed
              have recorded : Monitored address (next.record (.reply 1 is_ok)) :=
                monitored'.rewired rfl fun _ => rfl
              have queued : Queued address waiting transactions next.world.zmq := by
                unfold Queued
                rw [same]
                exact served.queued
              obtain ⟨hook, kind', own, rfl⟩ := recorded.reply replying
              refine .inr ⟨recorded.hookSent kind' _,
                transactions ++ [⟨1, payload, is_ok⟩], ?_, ?_, ?_⟩
              · have records := (served.records.handed 1 (some (receivedBuffer parts))
                  (before.isStarted 1)).executed 1 payload is_ok
                rw [← log] at records
                exact records.handed 0 _ _
              · exact queued.sent accepts own payload is_ok
              · simpa [ownTransactions, brings] using served.commands
            · refine .inl ⟨?_, parts, List.mem_singleton_self _, payload, brings, spares⟩
              have spoilt : Spoilt platform (next.record (.reply 1 is_ok)) :=
                ⟨1, payload, by rw [log]; simp, spares⟩
              exact ((carried_spoilt platform).processData (fun _ _ _ _ holds _ live =>
                (carried_spoilt platform).blockData holds trivial live) spoilt trivial replying).1
      · have deaf := not_exists.mp command
        have brings : commandIn platform parts = none :=
          Option.eq_none_iff_forall_ne_some.mpr fun payload brings =>
            deaf payload (isCommand_receivedBuffer.mpr brings)
        rw [blockData_transPb kind deaf] at done
        cases done
        refine .inr ⟨monitored.rewired rfl fun _ => rfl, transactions,
          served.records.handed 1 _ _, served.queued, ?_⟩
        simpa [brings] using served.commands

/-- An event of the socket handles the first message that waits. -/
theorem Serving.onFd_own (accepts : ∀ call, platform.accepts call = true)
    (memory : ∀ ref, (platform.hookMemory ref).2.socket ≠ some address)
    {parts : List BufferPart}
    (serving : Serving platform address handled (parts :: waiting) before)
    (filled : Filled parts) {fuel : Nat} {desc : FileDesc} (owner : desc.bk = some 0)
    (own : desc.socket = some address) (done : onFd platform fuel desc before = .ok after) :
    Spoilt platform after ∧ Disturbing platform [parts] ∨
      Serving platform address (handled ++ [parts]) waiting after := by
  obtain ⟨monitored, transactions, served⟩ := serving
  obtain ⟨hook, kind, own'⟩ := monitored.exists_hook
  obtain ⟨zmq, fetched, queued⟩ := served.queued.recv filled own'
  simp only [onFd, owner, monitored.hook, kind, own, own', if_true, fetched] at done
  have counted : Monitored address (before.setDerived 0
      (.hookZmq { hook with rx_pkt_ := hook.rx_pkt_ + 1 })) := monitored.configured kind rfl
  have monitored' : Monitored address (receipt before 0 hook zmq) :=
    counted.rewired rfl fun _ => rfl
  have served' : Served platform address handled waiting transactions
      (receipt before 0 hook zmq) := ⟨served.records, queued, served.commands⟩
  have handed := handed_of_flow monitored'.hook rfl monitored'.interpreter
    (not_isHello monitored'.kind_interpreter (by simp)) done
  exact Served.handle accepts memory monitored' served' handed

/-- An event of the hook handles the first message that waits, or none if there is none. -/
theorem Serving.onFd_hook (accepts : ∀ call, platform.accepts call = true)
    (memory : ∀ ref, (platform.hookMemory ref).2.socket ≠ some address)
    (serving : Serving platform address handled waiting before)
    (filled : ∀ parts ∈ waiting, Filled parts) {fuel : Nat} {desc : FileDesc}
    (owner : desc.bk = some 0) (done : onFd platform fuel desc before = .ok after) :
    Spoilt platform after ∧ Disturbing platform waiting ∨
      Advancing platform address handled waiting after := by
  by_cases own : desc.socket = some address
  · cases waiting with
    | nil =>
        obtain ⟨monitored, transactions, served⟩ := serving
        obtain ⟨hook, kind, own'⟩ := monitored.exists_hook
        obtain ⟨buf, zmq, missed, queued⟩ := served.queued.recv_nil own'
        simp only [onFd, owner, monitored.hook, kind, own, own', if_true, missed] at done
        cases done
        have served' : Serving platform address handled []
            { before with world := { before.world with zmq := zmq } } :=
          ⟨monitored.rewired rfl fun _ => rfl, transactions, served.records, queued,
            served.commands⟩
        exact .inr served'.advancing
    | cons parts waiting =>
        have filled_first := filled parts List.mem_cons_self
        rcases serving.onFd_own accepts memory filled_first owner own done with
          ⟨spoilt, disturbing⟩ | serving
        · exact .inl ⟨spoilt, disturbing.mono (by simp)⟩
        · exact .inr ⟨[parts], waiting, rfl, serving⟩
  · obtain ⟨hook, kind, own'⟩ := serving.1.exists_hook
    simp only [onFd, owner, serving.1.hook, kind, own', if_neg own] at done
    cases done
    exact .inr serving.advancing

/-- An event of a block that `main` adds handles the first message that waits, or none. -/
theorem Serving.onFd_near (accepts : ∀ call, platform.accepts call = true)
    (memory : ∀ ref, (platform.hookMemory ref).2.socket ≠ some address)
    (serving : Serving platform address handled waiting before)
    (filled : ∀ parts ∈ waiting, Filled parts) {fuel : Nat} {desc : FileDesc}
    (near : ∀ ref, desc.bk = some ref → ref ≤ 1)
    (done : C3qo.onFd platform fuel desc before = .ok after) :
    Spoilt platform after ∧ Disturbing platform waiting ∨
      Advancing platform address handled waiting after := by
  rcases owner : desc.bk with _ | ref
  · simp only [C3qo.onFd, owner] at done
    cases done
    exact .inr serving.advancing
  · rcases Nat.le_one_iff_eq_zero_or_eq_one.mp (near ref owner) with rfl | rfl
    · exact serving.onFd_hook accepts memory filled owner done
    · simp only [C3qo.onFd, owner, serving.1.interpreter, serving.1.kind_interpreter] at done
      cases done
      exact .inr serving.advancing

/-- Whatever event it is, messages are handled in order. -/
theorem Serving.onFd (accepts : ∀ call, platform.accepts call = true)
    (memory : ∀ ref, (platform.hookMemory ref).2.socket ≠ some address)
    (serving : Serving platform address handled waiting before)
    (filled : ∀ parts ∈ waiting, Filled parts) {fuel : Nat} {desc : FileDesc}
    (done : C3qo.onFd platform fuel desc before = .ok after) :
    Spoilt platform after ∨ Advancing platform address handled waiting after := by
  by_cases near : ∀ ref, desc.bk = some ref → ref ≤ 1
  · exact (serving.onFd_near accepts memory filled near done).imp_left And.left
  · push Not at near
    obtain ⟨ref, owner, far⟩ := near
    have among : ∀ other, desc.bk = some other →
        Spoilt platform before ∨ other ≠ 0 ∧ other ≠ 1 := by
      intro other own
      obtain rfl := Option.some.inj (owner.symm.trans own)
      exact .inr ⟨Nat.ne_zero_of_lt far, Nat.ne_of_gt far⟩
    exact ((carried_serving memory handled waiting).onFd (.inr serving) among done).imp_right
      Serving.advancing

/-! ## Whole runs -/

/-- The message that arrives at an address, if one does. -/
def Activity.arrivalsAt (address : Nat) : Activity → List (List BufferPart)
  | .arrive target parts => if target = some address then [parts] else []
  | .onFd _ _ => []

/-- A message that arrives waits, behind those that wait already. -/
theorem Receiving.arrive {sent : List Frame} {zmq : Zmq}
    (receiving : Receiving address waiting sent zmq) (target : Pointer)
    (parts : List BufferPart) :
    Receiving address (waiting ++ Activity.arrivalsAt address (.arrive target parts)) sent
      (zmq.arrive target (framesOf parts)) := by
  obtain ⟨socket, there, inbox, same⟩ := receiving
  unfold Receiving Activity.arrivalsAt Zmq.arrive
  by_cases here : target = some address
  · subst here
    refine ⟨{ socket with inbox := socket.inbox ++ framesOf parts }, ?_, by simp [inbox], same⟩
    rw [Zmq.lookup_modify, if_pos rfl, there]
    rfl
  · refine ⟨socket, ?_, by simp [here, inbox], same⟩
    rw [Zmq.lookup_modify_of_ne _ _ here, there]

theorem Queued.arrive {zmq : Zmq} (queued : Queued address waiting transactions zmq)
    (target : Pointer) (parts : List BufferPart) :
    Queued address (waiting ++ Activity.arrivalsAt address (.arrive target parts)) transactions
      (zmq.arrive target (framesOf parts)) :=
  Receiving.arrive queued target parts

theorem Serving.arrive (serving : Serving platform address handled waiting manager)
    (message : Pointer × List BufferPart) :
    Serving platform address handled
      (waiting ++ Activity.arrivalsAt address (.arrive message.1 message.2))
      (manager.arrive message) := by
  obtain ⟨monitored, transactions, served⟩ := serving
  exact ⟨monitored.rewired rfl fun _ => rfl, transactions, served.records,
    served.queued.arrive message.1 message.2, served.commands⟩

/-- What has been handled so far, and what is handled later. -/
theorem Advancing.trans {now later arrivals : List (List BufferPart)}
    (order : now ++ later = waiting)
    (rest : Advancing platform address (handled ++ now) (later ++ arrivals) after) :
    Advancing platform address handled (waiting ++ arrivals) after := by
  obtain ⟨now', later', order', serving⟩ := rest
  refine ⟨now ++ now', later', ?_, by rwa [← List.append_assoc]⟩
  rw [List.append_assoc, order', ← List.append_assoc, order]

/-- One thing that happens. -/
theorem Serving.activity (accepts : ∀ call, platform.accepts call = true)
    (memory : ∀ ref, (platform.hookMemory ref).2.socket ≠ some address) {activity : Activity}
    (serving : Serving platform address handled waiting before)
    (filled : ∀ parts ∈ waiting, Filled parts)
    (taken : activity.perform platform before = some after) :
    Spoilt platform after ∨
      Advancing platform address handled (waiting ++ activity.arrivalsAt address) after := by
  cases activity with
  | arrive target parts =>
      obtain rfl := Option.some.inj taken
      exact .inr (serving.arrive (target, parts)).advancing
  | onFd desc fuel =>
      simpa only [Activity.arrivalsAt, List.append_nil] using
        serving.onFd accepts memory filled (perform_onFd_iff.mp taken).2

/-- Whatever happens, messages are handled in the order in which they arrive. -/
theorem Serving.activities (accepts : ∀ call, platform.accepts call = true)
    (memory : ∀ ref, (platform.hookMemory ref).2.socket ≠ some address)
    {activities : List Activity} (serving : Serving platform address handled waiting before)
    (filled : ∀ parts ∈ waiting ++ activities.flatMap (Activity.arrivalsAt address), Filled parts)
    (execution : Execution.run (Activity.perform platform) activities before = some after) :
    Spoilt platform after ∨ Advancing platform address handled
      (waiting ++ activities.flatMap (Activity.arrivalsAt address)) after := by
  induction activities generalizing before handled waiting with
  | nil =>
      obtain rfl := Option.some.inj execution
      rw [List.flatMap_nil, List.append_nil]
      exact .inr serving.advancing
  | cons activity activities ih =>
      obtain ⟨next, taken, rest⟩ := Option.bind_eq_some_iff.mp execution
      rw [List.flatMap_cons, ← List.append_assoc] at filled ⊢
      have filled_now := (List.forall_mem_append.mp (List.forall_mem_append.mp filled).1).1
      rcases serving.activity accepts memory filled_now taken with
        spoilt | ⟨now, later, order, serving'⟩
      · exact .inl (spoilt.of_log (log_of_run rest))
      · rw [← order, List.append_assoc] at filled
        exact (ih serving' (List.forall_mem_append.mp filled).2 rest).imp_right
          (Advancing.trans order)

/-- The messages that arrive at an address in a round. -/
def Round.arrivalsAt (address : Nat) (round : Round) : List (List BufferPart) :=
  (round.arrivals.filter fun message => message.1 = some address).map Prod.snd

/-- Callbacks bring no messages. -/
theorem arrivalsAt_callbacks (address fuel : Nat) (dispatched : List FileDesc) :
    (dispatched.map fun desc => Activity.onFd desc fuel).flatMap
      (Activity.arrivalsAt address) = [] := by
  simp [Activity.arrivalsAt]

theorem Round.arrivalsAt_activities (address : Nat) (round : Round) (dispatched : List FileDesc) :
    (round.activities dispatched).flatMap (Activity.arrivalsAt address) =
      round.arrivalsAt address := by
  unfold Round.activities Round.arrivalsAt
  rw [List.flatMap_append, arrivalsAt_callbacks, List.append_nil]
  induction round.arrivals with
  | nil => rfl
  | cons message arrivals ih =>
      rw [List.map_cons, List.flatMap_cons, ih]
      by_cases here : message.1 = some address <;> simp [Activity.arrivalsAt, here]

/-- Managers that are the same but for returned events and timers. -/
structure Resembles (left right : BlockManager) : Prop where
  /-- The blocks are the same. -/
  blocks : right.blocks = left.blocks
  /-- The fields are the same. -/
  derived : right.world.derived = left.world.derived
  /-- The sockets are the same. -/
  zmq : right.world.zmq = left.world.zmq
  /-- The record is the same. -/
  log : right.world.log = left.world.log
  /-- The polled descriptors are the same. -/
  callback : right.world.polling.callback_ = left.world.polling.callback_

/-- Neither returned events nor timers matter. -/
theorem Serving.congr (serving : Serving platform address handled waiting before)
    (same : Resembles before after) : Serving platform address handled waiting after := by
  obtain ⟨monitored, transactions, records, queued, commands⟩ := serving
  refine ⟨monitored.rewired same.blocks fun ref => ?_, transactions, same.log ▸ records,
    same.zmq ▸ queued, commands⟩
  unfold BlockManager.kind
  rw [same.derived]

theorem resembles_timerCheckExp (clock : Nat → Timespec) (manager : BlockManager) :
    Resembles manager (manager.timerCheckExp clock) := by
  unfold BlockManager.timerCheckExp
  dsimp only
  split <;> exact ⟨rfl, rfl, rfl, rfl, rfl⟩

/-- What a round comes to, returned events and timers apart. -/
theorem activities_of_round {round : Round} {state next : LoopState}
    (taken : round.perform platform state = some next) : ∃ ret pass final,
      (round.arrivals.foldl BlockManager.arrive state.manager).fdPoll platform round.fuel
        round.spare round.polled = .ok (ret, pass) ∧
      Execution.run (Activity.perform platform) (round.activities pass.dispatched) state.manager =
        some final ∧ Resembles final next.manager := by
  obtain ⟨-, ret, pass, done, -, -, rfl⟩ := Round.perform_eq_some taken
  obtain ⟨final, callbacks, polling, polled, rfl⟩ := activities_of_fdPoll (.refl _) done
  have whole : Execution.run (Activity.perform platform) (round.activities pass.dispatched)
      state.manager = some (pass.manager.withPolling polling) := by
    rw [Round.activities, Execution.run_append, run_arrivals]
    exact callbacks
  obtain ⟨blocks, derived, zmq, log, callback⟩ :=
    resembles_timerCheckExp round.clock pass.manager
  exact ⟨ret, pass, _, done, whole, blocks, derived, zmq, log, callback.trans polled.symm⟩

theorem log_of_round {round : Round} {state next : LoopState}
    (taken : round.perform platform state = some next) :
    state.manager.world.log <+: next.manager.world.log := by
  obtain ⟨_, _, final, -, run, same⟩ := activities_of_round taken
  rw [same.log]
  exact log_of_run run

theorem log_of_rounds {rounds : List Round} {state final : LoopState}
    (execution : Execution.run (Round.perform platform) rounds state = some final) :
    state.manager.world.log <+: final.manager.world.log := by
  induction rounds generalizing state with
  | nil =>
      obtain rfl := Option.some.inj execution
      exact List.prefix_rfl
  | cons round rounds ih =>
      obtain ⟨next, taken, rest⟩ := Option.bind_eq_some_iff.mp execution
      exact (log_of_round taken).trans (ih rest)

/-- A round handles messages in the order in which they arrive. -/
theorem Serving.round (accepts : ∀ call, platform.accepts call = true)
    (memory : ∀ ref, (platform.hookMemory ref).2.socket ≠ some address) {round : Round}
    {state next : LoopState} (serving : Serving platform address handled waiting state.manager)
    (filled : ∀ parts ∈ waiting ++ round.arrivalsAt address, Filled parts)
    (taken : round.perform platform state = some next) :
    Spoilt platform next.manager ∨ Advancing platform address handled
      (waiting ++ round.arrivalsAt address) next.manager := by
  obtain ⟨_, pass, last, -, run, same⟩ := activities_of_round taken
  rw [← round.arrivalsAt_activities address pass.dispatched] at filled ⊢
  rcases serving.activities accepts memory filled run with
    spoilt | ⟨now, later, order, serving'⟩
  · exact .inl (spoilt.of_log (same.log ▸ List.prefix_rfl))
  · exact .inr ⟨now, later, order, serving'.congr same⟩

/-- The rounds of the main loop handle messages in the order in which they arrive. -/
theorem Serving.rounds (accepts : ∀ call, platform.accepts call = true)
    (memory : ∀ ref, (platform.hookMemory ref).2.socket ≠ some address) {rounds : List Round}
    {state final : LoopState} (serving : Serving platform address handled waiting state.manager)
    (filled : ∀ parts ∈ waiting ++ rounds.flatMap (Round.arrivalsAt address), Filled parts)
    (execution : Execution.run (Round.perform platform) rounds state = some final) :
    Spoilt platform final.manager ∨ Advancing platform address handled
      (waiting ++ rounds.flatMap (Round.arrivalsAt address)) final.manager := by
  induction rounds generalizing state handled waiting with
  | nil =>
      obtain rfl := Option.some.inj execution
      rw [List.flatMap_nil, List.append_nil]
      exact .inr serving.advancing
  | cons round rounds ih =>
      obtain ⟨next, taken, rest⟩ := Option.bind_eq_some_iff.mp execution
      rw [List.flatMap_cons, ← List.append_assoc] at filled ⊢
      rcases serving.round accepts memory (List.forall_mem_append.mp filled).1 taken with
        spoilt | ⟨now, later, order, serving'⟩
      · exact .inl (spoilt.of_log (log_of_rounds rest))
      · rw [← order, List.append_assoc] at filled
        exact (ih serving' (List.forall_mem_append.mp filled).2 rest).imp_right
          (Advancing.trans order)

end

/-! ## The start -/

/-- The hook that `main` configures, before it is started. -/
def monitoringHook (platform : Platform) (identity : String) : HookZmq :=
  { HookZmq.new (platform.hookMemory 0) with
    type_ := ZMQ_DEALER, name_ := identity, addr_ := "tcp://127.0.0.1:1664", client_ := true }

/-- The ZeroMQ library lets the hook of `main` join with a socket at the address, and accepts all
frames. -/
structure Connected (platform : Platform) (identity : String) (address : Nat) : Prop where
  /-- `start_` succeeds. -/
  joined : (monitoringHook platform identity).joins platform .empty = true
  /-- The socket is at the address. -/
  socket : ((monitoringHook platform identity).start_ platform 0 .empty
    .empty).1.zmq_sock_.socket = some address
  /-- All frames are accepted. -/
  accepts : ∀ call, platform.accepts call = true
  /-- No hook that has never been started holds the address by accident. -/
  memory : ∀ ref, (platform.hookMemory ref).2.socket ≠ some address

/-- A new socket has neither sent nor received anything. -/
theorem Zmq.lookup_socket_new {platform : Platform} {zmq : Zmq} {ctx address : Nat}
    (given : (zmq.socket platform ctx).1 = some address) :
    (zmq.socket platform ctx).2.lookup (some address) = some ⟨ctx, [], [], []⟩ := by
  unfold Zmq.socket at given ⊢
  rcases answer : platform.socket zmq.calls with _ | fresh <;> simp only [answer] at given ⊢
  · cases given
  · split_ifs at given ⊢
    obtain rfl := Option.some.inj given
    exact Finmap.lookup_insert _

/-- Naming a socket changes its identity only. -/
theorem Zmq.lookup_setIdentity {platform : Platform} {zmq : Zmq} {address : Pointer}
    {socket : Socket} (there : zmq.lookup address = some socket) {identity : Bytes}
    (named : (zmq.setIdentity platform address identity).1 = true) :
    (zmq.setIdentity platform address identity).2.lookup address =
      some { socket with identity := identity } := by
  unfold Zmq.setIdentity at named ⊢
  split_ifs at named ⊢
  rw [lookup_modify, if_pos rfl, lookup_tick, there]
  rfl

/-- What a hook sends when it has joined its peers. -/
def HookZmq.greeting (hook : HookZmq) : List Frame :=
  if hook.type_ = ZMQ_DEALER then dummyFrames else []

/-- A dealer that joins its peers sends its dummy message, and other hooks send nothing. -/
theorem HookZmq.join_greeting {platform : Platform}
    (accepts : ∀ call, platform.accepts call = true) (ref : BlockRef) {hook : HookZmq}
    (polling : Polling) {zmq : Zmq} (attached : (hook.attach platform zmq).1 = true)
    {socket : Socket} (there : zmq.lookup hook.zmq_sock_.socket = some socket) :
    (hook.join platform ref polling zmq).2.2.lookup hook.zmq_sock_.socket =
      some { socket with sent := socket.sent ++ hook.greeting } := by
  have there' := (hook.lookup_attach platform zmq hook.zmq_sock_.socket).trans there
  obtain ⟨after, done, sent⟩ := sendLoop_of_accepts accepts hook.zmq_sock_.socket
    (Buffer.empty.pushBack (ascii "dummy")).parts_ there'
  unfold join send_ greeting
  dsimp only
  rw [if_pos attached]
  split_ifs
  · rw [done]
    exact sent
  · rw [List.append_nil]
    exact there'

/-- A hook that has joined its peers has sent its greeting only. -/
theorem HookZmq.start_greeting {platform : Platform}
    (accepts : ∀ call, platform.accepts call = true) (ref : BlockRef) {hook : HookZmq}
    (polling : Polling) {zmq : Zmq} (joined : hook.joins platform zmq = true) :
    ∃ socket, (hook.start_ platform ref polling zmq).2.2.lookup
        (hook.start_ platform ref polling zmq).1.zmq_sock_.socket = some socket ∧
      socket.inbox = [] ∧ socket.sent = hook.greeting := by
  unfold joins at joined
  unfold start_
  dsimp only at joined ⊢
  simp only [Bool.and_eq_true] at joined
  obtain ⟨⟨created, named⟩, attached⟩ := joined
  obtain ⟨address, given⟩ := Option.isSome_iff_exists.mp created
  have new := Zmq.lookup_socket_new given
  rw [given] at named attached ⊢
  have identified := Zmq.lookup_setIdentity new named
  rw [if_neg (Option.some_ne_none address), if_pos named, socket_join]
  have sent := join_greeting accepts ref polling attached identified
  exact ⟨_, sent, rfl, rfl⟩

/-- The blocks, their fields and the ZeroMQ library when `main` enters its loop. -/
theorem c3qoMain_state (platform : Platform) (identity : String) :
    (c3qoMain platform identity).blocks.deref 0 = some ⟨-1, "hook_zmq", true, some 1⟩ ∧
      (c3qoMain platform identity).blocks.deref 1 = some ⟨-2, "trans_pb", true, some 0⟩ ∧
      let started := (monitoringHook platform identity).start_ platform 0 .empty .empty
      (c3qoMain platform identity).world = ⟨((((∅ : Finmap fun _ : BlockRef => Derived).insert 0
        (.hookZmq (.new (platform.hookMemory 0)))).insert 0
        (.hookZmq (monitoringHook platform identity))).insert 0
        (.hookZmq started.1)).insert 1 .transPb, [], started.2.1, started.2.2, []⟩ :=
  ⟨rfl, rfl, rfl⟩

/-- What `main` has set up when it enters its loop. -/
theorem serving_c3qoMain {platform : Platform} {identity : String} {address : Nat}
    (connected : Connected platform identity address) :
    Serving platform address [] [] (c3qoMain platform identity) := by
  obtain ⟨hook, interpreter, world⟩ := c3qoMain_state platform identity
  have older : ∀ ref block, (c3qoMain platform identity).blocks.deref ref = some block →
      ref < 2 := (c3qoMain platform identity).blocks.fresh
  obtain ⟨socket, there, inbox, sent⟩ :=
    HookZmq.start_greeting connected.accepts 0 .empty connected.joined
  rw [connected.socket] at there
  unfold Serving
  generalize c3qoMain platform identity = manager at *
  have kind (ref : BlockRef) : manager.kind ref = manager.world.derived.lookup ref := rfl
  have other (ref : BlockRef) (not_hook : ref ≠ 0) :
      (manager.kind ref).map Derived.wire ≠ some (.hookZmq, some (some address)) := by
    rw [kind, world]
    by_cases same : ref = 1
    · rw [same, Finmap.lookup_insert]
      exact fun wire => by cases wire
    · rw [Finmap.lookup_insert_of_ne _ same, Finmap.lookup_insert_of_ne _ not_hook,
        Finmap.lookup_insert_of_ne _ not_hook, Finmap.lookup_insert_of_ne _ not_hook,
        Finmap.lookup_empty]
      exact fun wire => by cases wire
  refine ⟨⟨hook, interpreter, ?_, ?_, ?_, other⟩, [], ⟨?_, ?_⟩, ?_, rfl⟩
  · rw [kind, world, Finmap.lookup_insert_of_ne _ Nat.zero_ne_one, Finmap.lookup_insert,
      Option.map_some, Derived.wire_hookZmq, connected.socket]
  · rw [kind, world, Finmap.lookup_insert]
    rfl
  · intro ref block not_hook not_interpreter object
    have old := older ref block object
    rcases ref with _ | _ | ref
    · exact absurd rfl not_hook
    · exact absurd rfl not_interpreter
    · exact absurd old (by simp)
  · rw [world]
    rfl
  · rw [world]
    rfl
  · rw [world]
    exact ⟨socket, there, inbox, by rw [sent]; rfl⟩

/-- The commands in the record are those of the transactions. -/
theorem Records.commands_eq {platform : Platform} {manager : BlockManager}
    {transactions : List Transaction} (records : Records manager.world.log transactions) :
    manager.commands platform =
      transactions.map fun transaction => platform.command transaction.data := by
  have same := congrArg (List.map fun command => platform.command command.2) records.commands
  rw [List.map_map, List.map_filterMap] at same
  refine Eq.trans ?_ same
  unfold BlockManager.commands
  congr 1
  funext handled
  cases handled <;> rfl

theorem Records.replies_eq {manager : BlockManager} {transactions : List Transaction}
    (records : Records manager.world.log transactions) :
    manager.replies = transactions.map Transaction.is_ok := by
  have same := congrArg (List.map Prod.snd) records.replies
  rw [List.map_map, List.map_filterMap] at same
  refine Eq.trans ?_ same
  unfold BlockManager.replies
  congr 1
  funext handled
  cases handled <;> rfl

/-- In every run of the main loop of `c3qo` in which no command stops or binds the monitoring
blocks, the messages that have arrived at the monitoring socket have been handled in their order,
but for the last of them, which wait. Each command among them has been executed once, in that
order, and the replies have been sent in that order, each the result of its command on the store
that all the commands executed before it have left. -/
theorem mainLoop_serves (platform : Platform) (identity : String) (address : Nat)
    (connected : Connected platform identity address) (rounds : List Round) (state : LoopState)
    (execution : Execution.run (Round.perform platform) rounds
      (.entered platform identity) = some state)
    (spares : ∀ command ∈ state.manager.commands platform, command.Spares)
    (filled : ∀ parts ∈ rounds.flatMap (Round.arrivalsAt address), Filled parts) :
    ∃ handled waiting transactions,
      rounds.flatMap (Round.arrivalsAt address) = handled ++ waiting ∧
      Served platform address handled waiting transactions state.manager ∧
      replay Store.execute
          (transactions.map fun transaction => platform.command transaction.data)
          (Store.entered identity) =
        (transactions.map Transaction.is_ok, BlockManager.store state.manager) := by
  have start : Serving platform address [] [] (LoopState.entered platform identity).manager :=
    serving_c3qoMain connected
  rcases start.rounds connected.accepts connected.memory filled execution with
    spoilt | ⟨handled, waiting, order, -, transactions, served⟩
  · exact absurd spoilt (not_spoilt spares)
  · refine ⟨handled, waiting, transactions, order.symm, served, ?_⟩
    rw [← served.records.commands_eq, ← served.records.replies_eq]
    exact replay_of_rounds execution

theorem connected_addOrTerm (identity : String) : Connected addOrTerm identity 1 :=
  ⟨rfl, rfl, fun _ => rfl, fun _ => Option.some_ne_none 1 ∘ Eq.symm⟩

/-- A round in which a command arrives and `zmq_poll` fails. -/
def commandWaits (payload : Bytes) : Round :=
  { commandRound payload with polled := none }

/-- Two commands have been handled and a third one waits. -/
theorem mainLoop_serves_add : ∃ state, Execution.run (Round.perform addOrTerm)
      [commandRound [1], commandRound [1], commandWaits [1]] (.entered addOrTerm "c3qo") =
        some state ∧
    ∃ handled waiting transactions,
      [commandRound [1], commandRound [1], commandWaits [1]].flatMap (Round.arrivalsAt 1) =
        handled ++ waiting ∧
      Served addOrTerm 1 handled waiting transactions state.manager ∧
      replay Store.execute
          (transactions.map fun transaction => addOrTerm.command transaction.data)
          (Store.entered "c3qo") =
        (transactions.map Transaction.is_ok, BlockManager.store state.manager) := by
  have outcome : (Execution.run (Round.perform addOrTerm)
      [commandRound [1], commandRound [1], commandWaits [1]] (.entered addOrTerm "c3qo")).map
        (fun state => state.manager.commands addOrTerm) =
          some [.add 7 "hello", .add 7 "hello"] := by
    decide +kernel
  obtain ⟨state, execution, commands⟩ := Option.map_eq_some_iff.mp outcome
  refine ⟨state, execution, mainLoop_serves addOrTerm "c3qo" 1 (connected_addOrTerm "c3qo") _ state
    execution ?_ ?_⟩
  · rw [commands]
    decide
  · unfold Filled
    decide

end C3qo
