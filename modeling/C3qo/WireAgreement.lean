import C3qo.CommandTopic
import C3qo.ConfProto
import C3qo.Framing
import C3qo.Ncli

/-!
# Agreement on the wire

`ncli` and `c3qo` encode and decode commands with code of their own: seven parsers of options
against one `switch`, and parts and lengths that both count by hand. Whatever command line `ncli`
accepts, `c3qo` performs the operation that it asks for, and `ncli` looks at the status in the
reply.
-/

namespace C3qo

open Getopt

/-- The client after `options_parse`, which asserts that peer and expected return are set. -/
def Ncli.Options.client (pack : CommandStruct → Bytes) (peerMemory retMemory : Nat → UInt8)
    (options : Options) : Ncli :=
  ⟨ascii (options.ncli_peer_.getD ""), pack options.cmd_, ascii (options.ncli_cmd_ret_.getD ""),
    peerMemory, retMemory⟩

/-- What a `ROUTER` does with a message that it is to send: its first part is the identity of the
peer that gets the others. -/
def routerSend (message : Buffer) : Option (Bytes × Buffer) :=
  match message.parts_ with
  | [] => none
  | address :: parts => some (address.bytes, ⟨parts⟩)

/-- What a `ROUTER` does with a message that it receives: it prepends the identity of the peer. -/
def routerRecv (identity : Bytes) (message : Buffer) : Buffer :=
  ⟨.ofBytes identity :: message.parts_⟩

/-- The manager operation that a type of commands names, with the last values of its options. -/
def CommandType.perform (platform : Platform) (given : List Opt) (manager : BlockManager) :
    CommandType → Except Fault (Bool × BlockManager)
  | add => .ok (manager.blockAdd (virtual platform) (lastInt 'i' given) (lastText 't' given))
  | start => .ok (manager.blockStart (virtual platform) (lastInt 'i' given))
  | stop => .ok (manager.blockStop (virtual platform) (lastInt 'i' given))
  | del => .ok (manager.blockDel (virtual platform) (lastInt 'i' given))
  | bind => .ok (manager.blockBind (virtual platform) (lastInt 'i' given) (lastInt 'p' given)
      (lastInt 'd' given))
  | hookZmq =>
      match manager.blockGet (lastInt 'i' given) with
      | none => .ok (false, manager)
      | some ref =>
          match BlockManager.kind manager ref with
          | some (.hookZmq hook) =>
              .ok (true, BlockManager.setDerived manager ref (.hookZmq
                { hook with
                  client_ := occurs 'c' given
                  type_ := lastInt 't' given
                  name_ := lastText 'n' given
                  addr_ := lastText 'a' given }))
          | _ => .error (.badCast ref)
  | term => .ok (true, manager.stop_)

/-- Any hook whose socket holds the frames of the message receives it, and nothing else. -/
def Receivable (message : Buffer) : Prop :=
  ∀ (hook : HookZmq) (zmq : Zmq) (socket : Socket) (later : List Frame),
    zmq.lookup hook.zmq_sock_.socket = some socket →
    socket.inbox = framesOf message.parts_ ++ later →
    ∃ after, hook.recv_ Buffer.empty zmq = (true, message, after) ∧ hook.waiting after = later

/-- A `trans_pb` behind a hook takes the message for a command that performs an operation. -/
structure Understood (platform : Platform) (message : Buffer)
    (operation : BlockManager → Except Fault (Bool × BlockManager)) : Prop where
  /-- There are two parts. -/
  two_parts : message.parts_.length = 2
  /-- None of them is empty. -/
  filled : ∀ part ∈ message.parts_, part.bytes ≠ []
  /-- `hook_zmq::recv_` accepts the message. -/
  received : Receivable message
  /-- `trans_pb::data_` answers it. -/
  answered : ∀ fuel running ref manager, BlockManager.kind manager ref = some .transPb →
    AnswersCommand platform running ref manager (some message)
      (blockDataCalls platform (fuel + 1) running (some message) ref manager).1
  /-- `trans_pb::proto_command_parse` performs the operation. -/
  performed : ∀ payload, message.parts_[1]? = some payload →
    ∀ manager, protoCommandParse platform payload.bytes manager = operation manager

/-- The client discards the message for its status only. -/
structure Recognised (platform : Platform) (client : Ncli) (message : Buffer) : Prop where
  /-- `hook_zmq::recv_` accepts the message. -/
  received : Receivable message
  /-- There are three parts, with the peer and the topic that the client expects. -/
  parts : ∃ peer topic status, message.parts_ = [peer, topic, status] ∧
    memcmpEq (cString client.ncli_peer_ client.peerMemory) peer.bytes = true ∧
    memcmpEq (cString (ascii "PROTO.CMD.REP") platform.literal) topic.bytes = true ∧
    client.data_ platform message =
      memcmpEq (cString client.ncli_cmd_ret_ client.retMemory) status.bytes

/-- A message whose parts have been pushed to a buffer is received if none of them is empty. -/
theorem receivable_of_filled (parts : List Bytes) (some_part : parts ≠ [])
    (filled : ∀ part ∈ parts, part ≠ []) : Receivable ⟨parts.map .ofBytes⟩ := by
  intro hook zmq socket later opened inbox
  obtain ⟨after, received, reached⟩ := HookZmq.recv_of_lookup opened Buffer.empty
  have full : ∀ part ∈ parts.map BufferPart.ofBytes, part.bytes ≠ [] := by
    simpa using filled
  have looped := (HookZmq.recvLoop_framesOf (parts.map .ofBytes) (by simpa using some_part)
    Buffer.empty later).1 full
  rw [← inbox] at looped
  refine ⟨after, ?_, ?_⟩
  · rw [received, looped]
    simp [Buffer.empty, Function.comp_def]
  · rw [looped] at reached
    simp [HookZmq.waiting, reached]

theorem protoCommandParse_command {platform : Platform} {data : Bytes} {given : List Opt}
    {type_ : CommandType} (unpacked : platform.unpack data = some (type_.command given))
    (manager : BlockManager) :
    protoCommandParse platform data manager = type_.perform platform given manager := by
  unfold protoCommandParse
  rw [unpacked]
  cases type_ <;> rfl

/-- A packed command under the topic of commands performs its operation. -/
theorem understood_command {platform : Platform} {payload : Bytes} {given : List Opt}
    {type_ : CommandType} (filled : payload ≠ [])
    (unpacked : platform.unpack payload = some (type_.command given)) :
    Understood platform ⟨[.ofBytes (ascii "PROTO.CMD"), .ofBytes payload]⟩
      (type_.perform platform given) where
  two_parts := rfl
  filled := by
    simpa using ⟨by decide, filled⟩
  received := receivable_of_filled [ascii "PROTO.CMD", payload] (by simp)
    (by simpa using ⟨by decide, filled⟩)
  answered fuel running ref manager kind :=
    answersCommand_of_isCommand kind
      (isCommand_iff_taken.mpr ⟨_, _, rfl, takenForTopic_self platform, rfl⟩)
  performed part second manager := by
    obtain rfl := Option.some.inj second
    rw [BufferPart.bytes_ofBytes]
    exact protoCommandParse_command unpacked manager

/-- A reply from the peer with its identity in front is discarded for its status only. -/
theorem recognised_reply (platform : Platform) (client : Ncli) (is_ok : Bool) :
    Recognised platform client (routerRecv (client.ncli_peer_ ++ [0]) (replyBuffer is_ok)) := by
  have peer : memcmpEq (cString client.ncli_peer_ client.peerMemory)
      (BufferPart.ofBytes (client.ncli_peer_ ++ [0])).bytes = true := by
    rw [BufferPart.bytes_ofBytes]
    exact (memcmpEq_cString _ _ _).mpr (.inr ⟨[], rfl, rfl⟩)
  have topic : memcmpEq (cString (ascii "PROTO.CMD.REP") platform.literal)
      (BufferPart.ofBytes (ascii "PROTO.CMD.REP")).bytes = true := by
    rw [BufferPart.bytes_ofBytes]
    exact (memcmpEq_cString _ _ _).mpr (.inl (List.prefix_refl _))
  refine ⟨?_, _, _, _, rfl, peer, topic, ?_⟩
  · refine receivable_of_filled [client.ncli_peer_ ++ [0], ascii "PROTO.CMD.REP",
      ascii (if is_ok then "OK" else "KO")] (by simp) ?_
    have status : ascii (if is_ok then "OK" else "KO") ≠ [] := by
      cases is_ok <;> decide
    simpa using ⟨by decide, status⟩
  · simp only [Ncli.data_, routerRecv, replyBuffer, Buffer.pushBack, Buffer.empty,
      List.nil_append, List.cons_append, peer, topic, Bool.true_and]

/-- The client and `c3qo` agree on the wire. Of every command line that `ncli` accepts, the
request has two filled parts once the `ROUTER` has removed the identity, and performs the operation
of the command type with the last values of the options; and no reply is discarded for its shape,
its peer or its topic. -/
theorem wire_agreement (platform : Platform) {pack : CommandStruct → Bytes}
    (codec : Codec platform.unpack pack) (wordexp : String → Option (List String))
    (argv : List String) {options : Ncli.Options}
    (accepted : Ncli.Options.optionsParse wordexp argv .new = .ok options)
    (peerMemory retMemory : Nat → UInt8) :
    ∃ peer args words, ∃ type_ : CommandType,
      lastArgument 'i' (getopt "i:o:t:r:" argv) = some peer ∧
      lastArgument 't' (getopt "i:o:t:r:" argv) = some type_.word ∧
      lastArgument 'o' (getopt "i:o:t:r:" argv) = some args ∧ wordexp args = some words ∧
      let client := options.client pack peerMemory retMemory
      let identity := ascii peer ++ [0]
      (∃ message, routerSend client.start_ = some (identity, message) ∧
        Understood platform message (type_.perform platform (getopt type_.options words))) ∧
      ∀ is_ok, Recognised platform client (routerRecv identity (replyBuffer is_ok)) := by
  obtain ⟨peer, args, ret, words, type_, given_peer, given_type, given_args, -, expanded, header,
    read⟩ := Ncli.Options.optionsParse_asks accepted
  have there : options.ncli_peer_ = some peer := congrArg Prod.fst header
  have same_peer : (options.client pack peerMemory retMemory).ncli_peer_ = ascii peer := by
    rw [Ncli.Options.client, there, Option.getD_some]
  have set : options.cmd_ ≠ .notSet := by
    intro unset
    rw [unset] at read
    cases type_ <;> cases read
  have filled : pack options.cmd_ ≠ [] := codec.pack_ne_nil options.cmd_ set
  have unpacked : platform.unpack (pack options.cmd_) =
      some (type_.command (getopt type_.options words)) := by
    rw [codec.unpack_pack, read]
  refine ⟨peer, args, words, type_, given_peer, given_type, given_args, expanded,
    ⟨_, ?_, understood_command filled unpacked⟩, fun is_ok => ?_⟩
  · rw [← same_peer, ← BufferPart.bytes_ofBytes (Ncli.ncli_peer_ _ ++ [0])]
    rfl
  · rw [← same_peer]
    exact recognised_reply platform _ is_ok

/-- Words for an `add` command, with an option that is given twice. -/
def addWords : List String := ["dummy", "-i", "3", "-thello", "-i4"]

/-- The command line of `ncli` for that command. -/
def addArgv : List String :=
  ["ncli", "-i", "c3qo", "-t", "add", "-r", "OK", "-o", "dummy -i 3 -thello -i4"]

theorem wire_agreement_add :
    let platform := Platform.plain ConfProto.unpack
    ∃ options, Ncli.Options.optionsParse (fun _ => some addWords) addArgv .new = .ok options ∧
      ∃ message, routerSend (options.client ConfProto.pack (fun _ => 0) fun _ => 0).start_ =
          some (ascii "c3qo" ++ [0], message) ∧
        Understood platform message
          fun manager => .ok (manager.blockAdd (virtual platform) 4 "hello") := by
  intro platform
  have outcome : (Ncli.Options.optionsParse (fun _ => some addWords) addArgv .new).toOption.isSome =
      true := by
    decide +kernel
  rcases accepted : Ncli.Options.optionsParse (fun _ => some addWords) addArgv .new with
    error | options
  · rw [accepted] at outcome
    cases outcome
  · obtain ⟨peer, args, words, type_, given_peer, given_type, -, expanded,
        ⟨message, sent, understood⟩, -⟩ :=
      wire_agreement platform ConfProto.codec _ _ accepted (fun _ => 0) fun _ => 0
    have last_peer : lastArgument 'i' (getopt "i:o:t:r:" addArgv) = some "c3qo" := by
      decide +kernel
    have last_type : lastArgument 't' (getopt "i:o:t:r:" addArgv) = some "add" := by
      decide +kernel
    obtain rfl := Option.some.inj (last_peer.symm.trans given_peer)
    obtain rfl := Option.some.inj expanded
    have word := Option.some.inj (last_type.symm.trans given_type)
    obtain rfl : type_ = .add := by
      cases type_ <;> first | rfl | exact absurd word (by decide)
    have last_id : lastInt 'i' (getopt "i:t:" addWords) = 4 := by decide +kernel
    have last_text : lastText 't' (getopt "i:t:" addWords) = "hello" := by decide +kernel
    refine ⟨options, rfl, message, sent, ?_⟩
    simpa only [CommandType.perform, CommandType.options, last_id, last_text] using understood

end C3qo
