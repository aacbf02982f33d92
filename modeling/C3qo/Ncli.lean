import C3qo.Exchange
import C3qo.RemoteControl

/-!
# Runs of the command line client

`ncli.cpp` and `proxy.cpp`: each run of `ncli` sends one command to `c3qo` through the proxy and
waits for a reply with the peer, topic and status that it expects, for one second at most. Nothing
in a reply tells which command it answers, so a run can take the late reply to the command of an
earlier run for its answer, but only after some run has timed out.
-/

namespace C3qo

/-- `struct ncli`, with its options as C strings in memory. -/
structure Ncli where
  /-- The peer to control. -/
  ncli_peer_ : Bytes
  /-- The packed command. -/
  cmd_ : Bytes
  /-- The expected return. -/
  ncli_cmd_ret_ : Bytes
  /-- The memory after the peer. -/
  peerMemory : Nat → UInt8
  /-- The memory after the expected return. -/
  retMemory : Nat → UInt8

namespace Ncli

/-- The buffer that `ncli::start_` sends; the peer is sent with its NUL. -/
def start_ (ncli : Ncli) : Buffer :=
  .ofParts [ncli.ncli_peer_ ++ [0], ascii "PROTO.CMD", ncli.cmd_]

/-- `ncli::data_`: whether it sets `received_answer_`. -/
def data_ (platform : Platform) (ncli : Ncli) (buf : Buffer) : Bool :=
  match buf.parts_ with
  | [peer, topic, status] =>
      memcmpEq (cString ncli.ncli_peer_ ncli.peerMemory) peer.bytes &&
        memcmpEq (cString (ascii "PROTO.CMD.REP") platform.literal) topic.bytes &&
        memcmpEq (cString ncli.ncli_cmd_ret_ ncli.retMemory) status.bytes
  | _ => false

end Ncli

/-- The message that a hook has sent between two states of the ZeroMQ library, if any. -/
def HookZmq.sentSince (hook : HookZmq) (before after : Zmq) : Option Buffer :=
  match (hook.accepted after).drop (hook.accepted before).length with
  | [] => none
  | frames => some (.ofParts (frames.map Frame.data))

/-- What comes back from `c3qo` through the proxy for a message that `ncli` has sent. The frontend
of the proxy takes the first part for the identity of the peer, and puts it in front of what the
peer sends. The peer is a hook of `c3qo`, as long as the main loop runs. -/
def c3qoRespond (platform : Platform) (fuel : Nat) (ref : BlockRef) (identity : Bytes)
    (request : Buffer) (peer : Option BlockManager) : Option Buffer × Option BlockManager :=
  match peer, request.parts_ with
  | some manager, address :: parts =>
      if address.bytes = identity ∧ manager.is_term_ = false then
        match manager.kind ref with
        | some (.hookZmq hook) =>
            let activities : List Activity :=
              [.arrive hook.zmq_sock_.socket parts, .onFd hook.zmq_sock_ fuel]
            match Execution.run (Activity.perform platform) activities manager with
            | some after =>
                let sent := hook.sentSince manager.world.zmq after.world.zmq
                (sent.map fun buf => ⟨address :: buf.parts_⟩, some after)
            | none => (none, none)
        | _ => (none, peer)
      else
        (none, peer)
  | _, _ => (none, peer)

/-- Runs of `ncli` against one proxy and one peer. -/
def ncliSystem (platform : Platform) (fuel : Nat) (ref : BlockRef) (identity : Bytes) :
    Exchange.System Ncli (Option BlockManager) Buffer Buffer where
  request := Ncli.start_
  accepts := Ncli.data_ platform
  respond := c3qoRespond platform fuel ref identity

/-- A run of `ncli` that ends with an answer has accepted the reply of `c3qo` to its own command,
or else the reply to the command of an earlier run. The latter takes something that was still in
flight when the run began, and an earlier run that has timed out. -/
theorem ncli_accepts_own (platform : Platform) (fuel : Nat) (ref : BlockRef) (identity : Bytes)
    (manager : BlockManager) (labels : List (Exchange.Label Ncli))
    (final : Exchange.State Ncli (Option BlockManager) Buffer Buffer)
    (execution : Execution.run (Exchange.step (ncliSystem platform fuel ref identity)) labels
      (.idle (some manager)) = some final) :
    ∀ acceptance ∈ final.accepted, acceptance.Sound final.expired :=
  fun _ member => Exchange.sound_of_run execution member

/-- A platform with two commands: 1 adds a block, 2 starts a block that does not exist. -/
def addOrStart : Platform :=
  Platform.plain fun payload =>
    if payload = [1] then some (.add 1 "hello") else if payload = [2] then some (.start 7) else none

/-- A run of `ncli` with a command for `c3qo`, which is expected to succeed. -/
def ncliRun (payload : Bytes) : Ncli :=
  ⟨ascii "c3qo", payload, ascii "OK", fun _ => 0, fun _ => 0⟩

/-- `c3qo` as the peer of `ncli`. -/
def c3qoPeer : Exchange.System Ncli (Option BlockManager) Buffer Buffer :=
  ncliSystem addOrStart 3 0 (ascii "c3qo" ++ [0])

/-- The initial state, with `c3qo` waiting for commands. -/
def peerReady : Exchange.State Ncli (Option BlockManager) Buffer Buffer :=
  .idle (some (c3qoMain addOrStart "c3qo"))

theorem ncli_accepts_own_add :
    ∃ final, Execution.run (Exchange.step c3qoPeer) [.start (ncliRun [1]), .serve, .deliver 0]
        peerReady = some final ∧
      final.accepted = [⟨0, 0, true⟩] ∧
      ∀ acceptance ∈ final.accepted, acceptance.Sound final.expired := by
  have outcome : (Execution.run (Exchange.step c3qoPeer)
      [.start (ncliRun [1]), .serve, .deliver 0] peerReady).map Exchange.State.accepted =
        some [⟨0, 0, true⟩] := by
    decide +kernel
  obtain ⟨final, execution, accepted⟩ := Option.map_eq_some_iff.mp outcome
  exact ⟨final, execution, accepted, ncli_accepts_own addOrStart 3 0 _ _ _ final execution⟩

/-- The first run times out. The second one, whose own command fails, accepts the late reply to
the first. -/
theorem ncli_accepts_late :
    ∃ labels final, Execution.run (Exchange.step c3qoPeer) labels peerReady = some final ∧
      ∃ acceptance ∈ final.accepted, acceptance.client = 1 ∧ acceptance.answered = 0 := by
  let labels : List (Exchange.Label Ncli) :=
    [.start (ncliRun [1]), .expire 0, .start (ncliRun [2]), .serve, .deliver 0]
  have outcome : (Execution.run (Exchange.step c3qoPeer) labels peerReady).map
      Exchange.State.accepted = some [⟨1, 0, false⟩] := by
    decide +kernel
  obtain ⟨final, execution, accepted⟩ := Option.map_eq_some_iff.mp outcome
  exact ⟨labels, final, execution, ⟨1, 0, false⟩, by simp [accepted], rfl, rfl⟩

end C3qo
