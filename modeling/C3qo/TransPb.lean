import C3qo.Blocks

/-!
# The command interpreter

`trans_pb.cpp`, and with it the `data_` callbacks of all blocks: a `trans_pb` runs a command
inside the data flow that brought it, and sends its reply down a flow of its own. The blocks whose
functions are running are carried along, since a command can destroy them.
-/

namespace C3qo

/-- `trans_pb::proto_command_parse`: parse and execute a configuration command. Configuring a
block that is not a `hook_zmq` as one has no defined behaviour. -/
def protoCommandParse (platform : Platform) (data : Bytes) (manager : BlockManager) :
    Except Fault (Bool × BlockManager) :=
  match platform.unpack data with
  | none => .ok (false, manager)
  | some (.add id type_) => .ok (manager.blockAdd (virtual platform) id type_)
  | some (.start id) => .ok (manager.blockStart (virtual platform) id)
  | some (.stop id) => .ok (manager.blockStop (virtual platform) id)
  | some (.del id) => .ok (manager.blockDel (virtual platform) id)
  | some (.bind id port dest) => .ok (manager.blockBind (virtual platform) id port dest)
  | some (.hookZmq id client type_ name addr) =>
      match manager.blockGet id with
      | none => .ok (false, manager)
      | some ref =>
          match BlockManager.kind manager ref with
          | some (.hookZmq hook) =>
              .ok (true, BlockManager.setDerived manager ref (.hookZmq
                { hook with client_ := client, type_ := type_, name_ := name, addr_ := addr }))
          | _ => .error (.badCast ref)
  | some .term => .ok (true, manager.stop_)
  | some .notSet => .ok (false, manager)

/-- What a command that is executed can do: an operation of the manager, which is a deletion only
if the command is one, other settings of a hook, the end of the main loop, or nothing. -/
theorem protoCommandParse_cases {platform : Platform} {payload : Bytes} {is_ok : Bool}
    {before after : BlockManager}
    (executed : protoCommandParse platform payload before = .ok (is_ok, after)) :
    after = before ∨
      (∃ operation, (∀ id, operation = .blockDel id → platform.unpack payload = some (.del id)) ∧
        after = Operation.perform (virtual platform) before operation) ∨
      (∃ ref hook hook', BlockManager.kind before ref = some (.hookZmq hook) ∧
        hook'.zmq_ctx_ = hook.zmq_ctx_ ∧ hook'.zmq_sock_ = hook.zmq_sock_ ∧
        after = before.setDerived ref (.hookZmq hook')) ∨
      after = before.stop_ := by
  unfold protoCommandParse at executed
  rcases unpacked : platform.unpack payload with _ | command <;> rw [unpacked] at executed
  · exact .inl (congrArg Prod.snd (Except.ok.inj executed)).symm
  · cases command with
    | add id type_ =>
        exact .inr (.inl ⟨.blockAdd id type_, by simp,
          (congrArg Prod.snd (Except.ok.inj executed)).symm⟩)
    | start id =>
        exact .inr (.inl ⟨.blockStart id, by simp,
          (congrArg Prod.snd (Except.ok.inj executed)).symm⟩)
    | stop id =>
        exact .inr (.inl ⟨.blockStop id, by simp,
          (congrArg Prod.snd (Except.ok.inj executed)).symm⟩)
    | del id =>
        refine .inr (.inl ⟨.blockDel id, fun id' same => ?_,
          (congrArg Prod.snd (Except.ok.inj executed)).symm⟩)
        cases same
        rfl
    | bind id port dest =>
        exact .inr (.inl ⟨.blockBind id port dest, by simp,
          (congrArg Prod.snd (Except.ok.inj executed)).symm⟩)
    | hookZmq id client type_ name addr =>
        dsimp only at executed
        split at executed
        · exact .inl (congrArg Prod.snd (Except.ok.inj executed)).symm
        · rename_i ref _
          split at executed
          · rename_i hook kind
            exact .inr (.inr (.inl ⟨ref, hook,
              { hook with client_ := client, type_ := type_, name_ := name, addr_ := addr }, kind,
              rfl, rfl, (congrArg Prod.snd (Except.ok.inj executed)).symm⟩))
          · cases executed
    | term => exact .inr (.inr (.inr (congrArg Prod.snd (Except.ok.inj executed)).symm))
    | notSet => exact .inl (congrArg Prod.snd (Except.ok.inj executed)).symm

/-- The one fault of the interpreter itself is to configure as a hook what is none. -/
theorem fault_of_protoCommandParse {platform : Platform} {payload : Bytes} {fault : Fault}
    {manager : BlockManager}
    (failed : protoCommandParse platform payload manager = .error fault) :
    ∃ ref, fault = .badCast ref := by
  unfold protoCommandParse at failed
  split at failed <;> try cases failed
  split at failed
  · cases failed
  · split at failed <;> cases failed
    exact ⟨_, rfl⟩

theorem log_perform (platform : Platform) (manager : BlockManager)
    (operation : Operation Factory) :
    (operation.perform (virtual platform) manager).world.log = manager.world.log := by
  refine Operation.perform_preserves (virtual platform) manager
    (fun after => after.world.log = manager.world.log) (fun after change => ?_)
    (fun _ _ _ _ _ _ => World.log_stop ..) fun _ _ _ _ _ _ => rfl
  cases change with
  | same after blocks world trace => exact congrArg World.log world
  | refused factory world answer =>
      obtain rfl := World.constructor_false answer
      rfl
  | built id type_ factory free registered world answer =>
      have built : ((virtual platform).constructor factory manager.blocks.next
        manager.world).2.log = manager.world.log := World.log_constructor ..
      rw [answer] at built
      exact built
  | started ref block object idle => exact World.log_start ..
  | bound src port dst live_src live_dst => rfl

/-- Commands do not touch the record. -/
theorem log_executed {platform : Platform} {payload : Bytes} {is_ok : Bool}
    {before after : BlockManager}
    (executed : protoCommandParse platform payload before = .ok (is_ok, after)) :
    after.world.log = before.world.log := by
  rcases protoCommandParse_cases executed with
    rfl | ⟨operation, -, rfl⟩ | ⟨_, _, _, _, _, _, rfl⟩ | rfl
  · rfl
  · exact log_perform platform before operation
  · rfl
  · rfl

/-- The buffer that `trans_pb::proto_command_reply` sends. -/
def replyBuffer (is_ok : Bool) : Buffer :=
  (Buffer.empty.pushBack (ascii "PROTO.CMD.REP")).pushBack (ascii (if is_ok then "OK" else "KO"))

/-- The topic compares equal to `PROTO.CMD`. -/
def isCommandTopic (platform : Platform) (topic : BufferPart) : Bool :=
  memcmpEq (cString (ascii "PROTO.CMD") platform.literal) topic.bytes

/-- The first running block that has been destroyed. -/
def destroyedOf (manager : BlockManager) (running : List BlockRef) : Option BlockRef :=
  running.find? fun ref => (manager.blocks.deref ref).isNone

/-- `data_`, by the kind of the block. The running blocks are those whose functions have not
returned; nested flows use up fuel. -/
def blockData (platform : Platform) : Nat → List BlockRef → Option Buffer → BlockRef →
    BlockManager → Except Fault (Bool × BlockManager)
  | 0, _, _, _, _ => .error .outOfFuel
  | fuel + 1, running, vdata, ref, manager =>
      let manager := BlockManager.record manager (.data_ ref vdata (manager.isStarted ref))
      match BlockManager.kind manager ref with
      | some (.hello name_ count_) => .ok (true, manager.setDerived ref (.hello name_ (count_ + 1)))
      | some (.hookZmq hook) =>
          let (forward, hook, zmq) := hook.data_ platform vdata manager.world.zmq
          .ok (forward,
            { manager with world := manager.world.withHook ref hook manager.world.polling zmq })
      | some .transPb =>
          match vdata with
          | some ⟨[topic, payload]⟩ =>
              if isCommandTopic platform topic then
                let manager := BlockManager.record manager (.command ref payload.bytes)
                match protoCommandParse platform payload.bytes manager with
                | .error fault => .error fault
                | .ok (is_ok, manager) =>
                    match destroyedOf manager (ref :: running) with
                    | some destroyed => .error (.underFoot destroyed)
                    | none =>
                        let manager := BlockManager.record manager (.reply ref is_ok)
                        match processData
                            (blockData platform fuel (ref :: running) (some (replyBuffer is_ok)))
                            fuel ref manager with
                        | .error fault => .error fault
                        | .ok manager => .ok (false, manager)
              else
                .ok (false, manager)
          | _ => .ok (false, manager)
      | none => .ok (false, manager)

/-- `process_data_` of a block, with the blocks whose functions are running. -/
def flow (platform : Platform) (fuel : Nat) (running : List BlockRef) (vdata : Option Buffer)
    (source : BlockRef) (manager : BlockManager) : Except Fault BlockManager :=
  processData (blockData platform fuel (source :: running) vdata) fuel source manager

/-- `hook_zmq::on_fd_`, called through the descriptor of a polling entry. -/
def onFd (platform : Platform) (fuel : Nat) (desc : FileDesc) (manager : BlockManager) :
    Except Fault BlockManager :=
  match desc.bk with
  | none => .ok manager
  | some ref =>
      match manager.blocks.deref ref with
      | none => .error (.dangling ref)
      | some _ =>
          match BlockManager.kind manager ref with
          | some (.hookZmq hook) =>
              if desc.socket = hook.zmq_sock_.socket then
                let (ok, buf, zmq) := hook.recv_ Buffer.empty manager.world.zmq
                if ok then
                  let hook := { hook with rx_pkt_ := hook.rx_pkt_ + 1 }
                  let world := manager.world.withHook ref hook manager.world.polling zmq
                  flow platform fuel [ref] (some buf) ref { manager with world := world }
                else
                  .ok { manager with world := { manager.world with zmq := zmq } }
              else
                .ok manager
          | _ => .ok manager

end C3qo
