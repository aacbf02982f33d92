import C3qo.Session

/-!
# Command lines as operations on stores

What a user of `ncli` sees: the words of a command line name a process, a command and a status. The
whole system, from the parsers of `ncli` over the proxy to the interpreter of the process and back,
comes to one execution of this command on the store of blocks of this process.
-/

namespace C3qo

open Getopt

/-- The store of blocks of a process. -/
def NodeState.store (state : NodeState) : Store := BlockManager.store state.loop.manager

section

variable {ι : Type*} {nodes : ι → Node} {client : Ncli} {p : ι} {final : ι → NodeState}

/-- A process that has executed no command has the store that `main` sets up, and the one that has
executed the command of the client has the store that it leaves. -/
theorem OneRequest.store [DecidableEq ι] {labels : List (ι × NodeLabel)}
    (one : OneRequest nodes client p labels final) (q : ι) :
    (final q).store = .entered (nodes q).identity ∨ q = p ∧
      (final q).store = (Store.execute ((nodes q).platform.command client.cmd_)
        (.entered (nodes q).identity)).2 := by
  obtain ⟨transactions, replayed, -, rfl | ⟨rfl, is_ok, rfl⟩⟩ := one.transactions q
  · exact .inl (congrArg Prod.snd replayed.replayed).symm
  · exact .inr ⟨rfl, (congrArg Prod.snd replayed.replayed).symm⟩

theorem ExecutedOnce.outcome {is_ok : Bool}
    (executed : ExecutedOnce nodes final client p is_ok) :
    Store.execute ((nodes p).platform.command client.cmd_) (.entered (nodes p).identity) =
      (is_ok, (final p).store) := by
  have results := congrArg Prod.fst executed.once.replayed
  have left := congrArg Prod.snd executed.once.replayed
  exact Prod.ext (List.singleton_inj.mp results) left

end

/-- The command of a client comes to one operation on the store of a process, with a status that
the client expects or not. -/
structure Session.RemoteCall {ι : Type*} (session : Session ι) (p : ι) (command : Command)
    (ret : String) (final : SessionState ι) : Prop where
  /-- The stores of the other processes are as they were. -/
  others : ∀ q, q ≠ p → (final.nodes q).store = .entered (session.nodes q).identity
  /-- The command has been executed on the store of the process, or it has not. -/
  atomic : (final.nodes p).store = .entered (session.nodes p).identity ∨
    (final.nodes p).store = (Store.execute command (.entered (session.nodes p).identity)).2
  /-- When the client has received its answer, it has been executed, with the status expected. -/
  answered : final.client.received_answer_ = true → ∃ is_ok,
    Store.execute command (.entered (session.nodes p).identity) =
      (is_ok, (final.nodes p).store) ∧ ascii (if is_ok then "OK" else "KO") <+: ascii ret
  /-- When nothing is on its way any more, it has been executed, and the client has received its
  answer if the status is the expected one. -/
  complete : session.Quiescent p final → ∃ is_ok,
    Store.execute command (.entered (session.nodes p).identity) =
      (is_ok, (final.nodes p).store) ∧
    (final.client.received_answer_ = true ↔ ascii (if is_ok then "OK" else "KO") <+: ascii ret)

/-- The words of every command line that `ncli` accepts come to one operation on the store of the
process whose identity they name, if the command spares the monitoring blocks of this process. In
every session this operation takes place once or not at all, and none in other processes. When
`ncli` has received its answer, it has taken place with the status that `ncli` expects, and when
nothing is on its way any more, it has taken place. -/
theorem remote_call {ι : Type*} [DecidableEq ι] (session : Session ι)
    (different : Function.Injective fun q => (session.nodes q).peer.name)
    (noNul : ∀ q, 0 ∉ (session.nodes q).peer.name) (p : ι)
    {pack : CommandStruct → Bytes} (codec : Codec (session.nodes p).platform.unpack pack)
    (wordexp : String → Option (List String)) (argv : List String) {options : Ncli.Options}
    (accepted : Ncli.Options.optionsParse wordexp argv .new = .ok options)
    (peerMemory retMemory : Nat → UInt8)
    (client : session.client = options.client pack peerMemory retMemory)
    (addressed : lastArgument 'i' (getopt "i:o:t:r:" argv) = some (session.nodes p).identity) :
    ∃ args ret words, ∃ type_ : CommandType,
      lastArgument 't' (getopt "i:o:t:r:" argv) = some type_.word ∧
      lastArgument 'o' (getopt "i:o:t:r:" argv) = some args ∧
      lastArgument 'r' (getopt "i:o:t:r:" argv) = some ret ∧ wordexp args = some words ∧
      let command := type_.command (getopt type_.options words)
      (command.Spares → ∀ labels final,
        Execution.run session.step labels session.entered = some final →
          session.RemoteCall p command ret final) := by
  obtain ⟨peer, args, ret, words, type_, given_peer, given_type, given_args, given_ret, expanded,
    header, read⟩ := Ncli.Options.optionsParse_asks accepted
  refine ⟨args, ret, words, type_, given_type, given_args, given_ret, expanded, ?_⟩
  intro command spares labels final execution
  obtain rfl : peer = (session.nodes p).identity :=
    Option.some.inj (given_peer.symm.trans addressed)
  have named : session.client.ncli_peer_ = (session.nodes p).peer.name := by
    have same : options.ncli_peer_ = some (session.nodes p).identity := congrArg Prod.fst header
    rw [client, Ncli.Options.client, same]
    rfl
  have expects : session.client.ncli_cmd_ret_ = ascii ret := by
    have same : options.ncli_cmd_ret_ = some ret := congrArg Prod.snd header
    rw [client, Ncli.Options.client, same]
    rfl
  have sent : (session.nodes p).platform.command session.client.cmd_ = command := by
    rw [client, Ncli.Options.client, Platform.command, codec.unpack_pack, read]
    rfl
  have one := Session.oneRequest_of_run different named execution (sent.symm ▸ spares)
  refine ⟨fun q other => ?_, ?_, fun received => ?_, fun quiescent => ?_⟩
  · exact (one.store q).resolve_right fun same => other same.1
  · exact (one.store p).imp_right fun same => sent ▸ same.2
  · obtain ⟨is_ok, expected, executed⟩ :=
      Session.executed_of_received one noNul execution received
    exact ⟨is_ok, sent ▸ executed.outcome, expects ▸ expected⟩
  · obtain ⟨is_ok, executed, answered⟩ :=
      Session.executed_of_quiescent one noNul execution quiescent
    exact ⟨is_ok, sent ▸ executed.outcome, expects ▸ answered⟩

/-- The `ncli` that is started with the command line of the example. -/
def addClient : Ncli :=
  ((Ncli.Options.optionsParse (fun _ => some addWords) addArgv .new).toOption.getD .new).client
    ConfProto.pack (fun _ => 0) fun _ => 0

/-- A process whose commands are those of `conf.proto`. -/
def protoNode (identity : String) : Node where
  platform := .plain ConfProto.unpack
  identity := identity
  address := 1
  connected := ⟨rfl, rfl, fun _ => rfl, fun _ => Option.some_ne_none 1 ∘ Eq.symm⟩

/-- A run of this `ncli` with two processes. -/
def addCall : Session Bool where
  nodes long := protoNode (if long then "c3qo" else "c3")
  platform := .plain ConfProto.unpack
  interrupted _ := false
  clock _ := ⟨0, 0⟩
  client := addClient
  address := 1
  connected := ⟨rfl, rfl, fun _ => rfl⟩

/-- The command arrives, is executed and replied to, and `ncli` receives the reply. -/
def addCallLabels : List (SessionLabel Bool) :=
  [.request true ⟨[.ofBytes (ascii "PROTO.CMD"), .ofBytes addClient.cmd_],
      by unfold Filled; decide +kernel⟩, .answer true, .round true (commandRound addClient.cmd_),
    .answer true] ++ ncliRounds.map .client

theorem remote_call_add : ∃ final,
    Execution.run addCall.step addCallLabels addCall.entered = some final ∧
      final.client.received_answer_ = true ∧
      addCall.RemoteCall true (.add 4 "hello") "OK" final := by
  have outcome : (Execution.run addCall.step addCallLabels addCall.entered).map
      (fun final => final.client.received_answer_) = some true := by
    decide +kernel
  obtain ⟨final, execution, received⟩ := Option.map_eq_some_iff.mp outcome
  have parsed : (Ncli.Options.optionsParse (fun _ => some addWords) addArgv .new).toOption.isSome =
      true := by
    decide +kernel
  rcases accepted : Ncli.Options.optionsParse (fun _ => some addWords) addArgv .new with
    error | options
  · rw [accepted] at parsed
    cases parsed
  · have different : Function.Injective fun long => (addCall.nodes long).peer.name := by
      intro long long' same
      cases long <;> cases long' <;> first | rfl | exact absurd same (by decide)
    have client : addCall.client = options.client ConfProto.pack (fun _ => 0) fun _ => 0 := by
      rw [addCall, addClient, accepted]
      rfl
    obtain ⟨args, ret, words, type_, given_type, -, given_ret, expanded, calls⟩ :=
      remote_call addCall different (fun long => by cases long <;> decide) true ConfProto.codec _ _
        accepted _ _ client (by decide +kernel)
    have last_type : lastArgument 't' (getopt "i:o:t:r:" addArgv) = some "add" := by
      decide +kernel
    have last_ret : lastArgument 'r' (getopt "i:o:t:r:" addArgv) = some "OK" := by
      decide +kernel
    obtain rfl := Option.some.inj (last_ret.symm.trans given_ret)
    obtain rfl := Option.some.inj expanded
    have word := Option.some.inj (last_type.symm.trans given_type)
    obtain rfl : type_ = .add := by
      cases type_ <;> first | rfl | exact absurd word (by decide)
    have last_id : lastInt 'i' (getopt "i:t:" addWords) = 4 := by decide +kernel
    have last_text : lastText 't' (getopt "i:t:" addWords) = "hello" := by decide +kernel
    have call := calls trivial addCallLabels final execution
    simp only [CommandType.command, CommandType.options, last_id, last_text] at call
    exact ⟨final, execution, received, call⟩

end C3qo
