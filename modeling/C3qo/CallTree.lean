import C3qo.RemoteControl

/-!
# The calls of a data flow

The functions of `TransPb` once more, with the calls they make nested in each other and the state
in which each of them is made, in order, also where a flow does not come to its end. One event at
a hook leads to one command and one reply at most, whatever the graph of blocks.
-/

namespace C3qo

/-- A call in a data flow, with the state in which it is made. -/
inductive FlowCall
  /-- `data_` of a block. -/
  | data_ (ref : BlockRef) (vdata : Option Buffer) (manager : BlockManager)
  /-- `trans_pb::proto_command_parse`. -/
  | command (ref : BlockRef) (data : Bytes) (manager : BlockManager)
  /-- `trans_pb::proto_command_reply`. -/
  | reply (ref : BlockRef) (is_ok : Bool) (manager : BlockManager)

namespace FlowCall

/-- The state in which the call is made. -/
def manager : FlowCall → BlockManager
  | .data_ _ _ manager => manager
  | .command _ _ manager => manager
  | .reply _ _ manager => manager

/-- The record of the call. -/
def handled : FlowCall → Handled
  | .data_ ref vdata manager => .data_ ref vdata (manager.isStarted ref)
  | .command ref data _ => .command ref data
  | .reply ref is_ok _ => .reply ref is_ok

/-- The call parses a command. -/
def isCommand : FlowCall → Bool
  | .command _ _ _ => true
  | _ => false

/-- The call sends a reply. -/
def isReply : FlowCall → Bool
  | .reply _ _ _ => true
  | _ => false

end FlowCall

/-- `processData`, with the calls that are made. -/
def processDataCalls {F W γ : Type}
    (data_ : BlockRef → Manager F W → List γ × Except Fault (Bool × Manager F W)) :
    Nat → BlockRef → Manager F W → List γ × Except Fault (Manager F W)
  | 0, _, _ => ([], .error .outOfFuel)
  | fuel + 1, current, manager =>
      match manager.blocks.deref current with
      | none => ([], .error (.dangling current))
      | some block =>
          match block.sink_ with
          | none => ([], .ok manager)
          | some sink =>
              match manager.blocks.deref sink with
              | none => ([], .error (.dangling sink))
              | some _ =>
                  match data_ sink manager with
                  | (calls, .error fault) => (calls, .error fault)
                  | (calls, .ok (true, manager)) =>
                      let (later, result) := processDataCalls data_ fuel sink manager
                      (calls ++ later, result)
                  | (calls, .ok (false, manager)) => (calls, .ok manager)

/-- `blockData`, with the calls that are made. Only a `trans_pb` that takes a command makes any
besides its own. -/
def blockDataCalls (platform : Platform) : Nat → List BlockRef → Option Buffer → BlockRef →
    BlockManager → List FlowCall × Except Fault (Bool × BlockManager)
  | 0, _, _, _, _ => ([], .error .outOfFuel)
  | fuel + 1, running, vdata, ref, manager =>
      let call := FlowCall.data_ ref vdata manager
      match BlockManager.kind manager ref, vdata with
      | some .transPb, some ⟨[topic, payload]⟩ =>
          if isCommandTopic platform topic then
            let manager := commanded manager ref vdata payload.bytes
            let parse := FlowCall.command ref payload.bytes manager
            match protoCommandParse platform payload.bytes manager with
            | .error fault => ([call, parse], .error fault)
            | .ok (is_ok, manager) =>
                match destroyedOf manager (ref :: running) with
                | some destroyed => ([call, parse], .error (.underFoot destroyed))
                | none =>
                    let (later, result) := processDataCalls
                      (blockDataCalls platform fuel (ref :: running) (some (replyBuffer is_ok)))
                      fuel ref (BlockManager.record manager (.reply ref is_ok))
                    (call :: parse :: .reply ref is_ok manager :: later,
                      result.map fun manager => (false, manager))
          else
            ([call], blockData platform (fuel + 1) running vdata ref manager)
      | _, _ => ([call], blockData platform (fuel + 1) running vdata ref manager)

/-- `onFd`, with the calls that are made. -/
def onFdCalls (platform : Platform) (fuel : Nat) (desc : FileDesc) (manager : BlockManager) :
    List FlowCall × Except Fault BlockManager :=
  match desc.bk with
  | none => ([], .ok manager)
  | some ref =>
      match manager.blocks.deref ref with
      | none => ([], .error (.dangling ref))
      | some _ =>
          match BlockManager.kind manager ref with
          | some (.hookZmq hook) =>
              if desc.socket = hook.zmq_sock_.socket then
                let (ok, buf, zmq) := hook.recv_ Buffer.empty manager.world.zmq
                if ok then
                  let hook := { hook with rx_pkt_ := hook.rx_pkt_ + 1 }
                  let world := manager.world.withHook ref hook manager.world.polling zmq
                  processDataCalls (blockDataCalls platform fuel [ref, ref] (some buf)) fuel ref
                    { manager with world := world }
                else
                  ([], .ok { manager with world := { manager.world with zmq := zmq } })
              else
                ([], .ok manager)
          | _ => ([], .ok manager)

/-! ## Flows with their calls -/

section

variable {F W γ : Type}
  {data_ : BlockRef → Manager F W → List γ × Except Fault (Bool × Manager F W)}
  {fuel : Nat} {current : BlockRef} {manager : Manager F W}

/-- The calls are those of `processData`. -/
theorem snd_processDataCalls (fuel : Nat) (current : BlockRef) (manager : Manager F W) :
    (processDataCalls data_ fuel current manager).2 =
      processData (fun sink manager => (data_ sink manager).2) fuel current manager := by
  induction fuel generalizing current manager with
  | zero => rfl
  | succ fuel ih =>
      unfold processDataCalls processData
      cases object : manager.blocks.deref current with
      | none => rfl
      | some block =>
          dsimp only
          cases bound : block.sink_ with
          | none => rfl
          | some sink =>
              dsimp only
              cases live : manager.blocks.deref sink with
              | none => rfl
              | some target =>
                  dsimp only
                  rcases data_ sink manager with ⟨calls, fault | ⟨_ | _, after⟩⟩
                  · rfl
                  · rfl
                  · exact ih sink after

/-- Every call of a flow is made by a block that is handed the data in a state that holds. -/
theorem mem_processDataCalls (Holds : Manager F W → Prop) (Good : γ → Prop)
    (good : ∀ sink before, Holds before → ∀ call ∈ (data_ sink before).1, Good call)
    (kept : ∀ sink before after, Holds before → (data_ sink before).2 = .ok (true, after) →
      Holds after)
    (start : Holds manager) : ∀ call ∈ (processDataCalls data_ fuel current manager).1,
      Good call := by
  induction fuel generalizing current manager with
  | zero => exact fun call member => absurd member (List.not_mem_nil)
  | succ fuel ih =>
      intro call member
      unfold processDataCalls at member
      split at member
      · cases member
      · split at member
        · cases member
        · split at member
          · cases member
          · rename_i sink _ _ _ _
            have here := good sink manager start
            have next := kept sink manager
            split at member <;> rename_i result <;> rw [result] at here next
            · exact here call member
            · rcases List.mem_append.mp member with now | later
              · exact here call now
              · exact ih (next _ start rfl) call later
            · exact here call member

/-- Where the blocks that forward make no call of a kind and the others make one at most, so does
the whole flow. -/
theorem countP_processDataCalls_le_one {counted : γ → Bool}
    (one : ∀ sink before, (data_ sink before).1.countP counted ≤ 1)
    (forwarded : ∀ sink before after, (data_ sink before).2 = .ok (true, after) →
      (data_ sink before).1.countP counted = 0) :
    (processDataCalls data_ fuel current manager).1.countP counted ≤ 1 := by
  induction fuel generalizing current manager with
  | zero => exact Nat.zero_le 1
  | succ fuel ih =>
      unfold processDataCalls
      split
      · exact Nat.zero_le 1
      · split
        · exact Nat.zero_le 1
        · split
          · exact Nat.zero_le 1
          · rename_i sink _ _ _ _
            have here := one sink manager
            have none := forwarded sink manager
            split <;> rename_i result <;> rw [result] at here none
            · exact here
            · dsimp only
              rw [List.countP_append, none _ rfl, Nat.zero_add]
              exact ih
            · exact here

/-- A flow that ends leaves a record of its calls if every block does. -/
theorem log_processDataCalls {record : γ → Handled}
    {data_ : BlockRef → BlockManager → List γ × Except Fault (Bool × BlockManager)}
    (logged : ∀ sink before forward after, (data_ sink before).2 = .ok (forward, after) →
      after.world.log = before.world.log ++ (data_ sink before).1.map record)
    {current : BlockRef} {manager after : BlockManager}
    (done : (processDataCalls data_ fuel current manager).2 = .ok after) :
    after.world.log =
      manager.world.log ++ (processDataCalls data_ fuel current manager).1.map record := by
  induction fuel generalizing current manager with
  | zero => cases done
  | succ fuel ih =>
      unfold processDataCalls at done ⊢
      split at done
      · cases done
      · split at done
        · obtain rfl := Except.ok.inj done
          exact (List.append_nil _).symm
        · split at done
          · cases done
          · rename_i sink _ _ _ _
            have here := logged sink manager
            split at done <;> rename_i result <;> rw [result] at here
            · cases done
            · dsimp only at done ⊢
              rw [List.map_append, ← List.append_assoc, ← here _ _ rfl]
              exact ih done
            · obtain rfl := Except.ok.inj done
              exact here _ _ rfl

end

/-! ## The calls of one block -/

section

variable {platform : Platform} {fuel : Nat} {running : List BlockRef} {vdata : Option Buffer}
  {ref : BlockRef} {manager : BlockManager}

/-- A block that does not take a command calls nothing else. -/
theorem blockDataCalls_plain
    (plain : ∀ payload, manager.kind ref = some .transPb → ¬ IsCommand platform vdata payload) :
    blockDataCalls platform (fuel + 1) running vdata ref manager =
      ([.data_ ref vdata manager], blockData platform (fuel + 1) running vdata ref manager) := by
  unfold blockDataCalls
  split
  · rename_i topic payload kind
    exact if_neg fun accepted => plain payload.bytes kind ⟨topic, payload, rfl, accepted, rfl⟩
  · rfl

/-- A `trans_pb` that takes a command parses it, and replies if it is still there. -/
theorem blockDataCalls_command (kind : manager.kind ref = some .transPb) {payload : Bytes}
    (command : IsCommand platform vdata payload) :
    blockDataCalls platform (fuel + 1) running vdata ref manager =
      let start := commanded manager ref vdata payload
      let calls := [.data_ ref vdata manager, .command ref payload start]
      match protoCommandParse platform payload start with
      | .error fault => (calls, .error fault)
      | .ok (is_ok, after) =>
          match destroyedOf after (ref :: running) with
          | some destroyed => (calls, .error (.underFoot destroyed))
          | none =>
              let (later, result) := processDataCalls
                (blockDataCalls platform fuel (ref :: running) (some (replyBuffer is_ok)))
                fuel ref (after.record (.reply ref is_ok))
              (calls ++ .reply ref is_ok after :: later,
                result.map fun manager => (false, manager)) := by
  obtain ⟨topic, part, rfl, accepted, rfl⟩ := command
  simp only [blockDataCalls, kind]
  rw [if_pos accepted]
  rfl

theorem snd_of_map_ok {ε α β : Type} {tag forward : β} {result : Except ε α} {value : α}
    (done : result.map (fun value => (tag, value)) = .ok (forward, value)) :
    result = .ok value := by
  cases result with
  | error fault => cases done
  | ok value' => exact congrArg Except.ok (congrArg Prod.snd (Except.ok.inj done))

/-- The calls are those of `blockData`. -/
theorem snd_blockDataCalls (platform : Platform) (fuel : Nat) (running : List BlockRef)
    (vdata : Option Buffer) (ref : BlockRef) (manager : BlockManager) :
    (blockDataCalls platform fuel running vdata ref manager).2 =
      blockData platform fuel running vdata ref manager := by
  induction fuel generalizing running vdata ref manager with
  | zero => rfl
  | succ fuel ih =>
      by_cases command : ∃ payload, manager.kind ref = some .transPb ∧
        IsCommand platform vdata payload
      · obtain ⟨payload, kind, command⟩ := command
        rw [blockDataCalls_command kind command, blockData_command kind command]
        dsimp only
        cases protoCommandParse platform payload (commanded manager ref vdata payload) with
        | error fault => rfl
        | ok executed =>
            obtain ⟨is_ok, after⟩ := executed
            dsimp only
            cases destroyedOf after (ref :: running) with
            | some destroyed => rfl
            | none =>
                dsimp only [replied]
                rw [snd_processDataCalls]
                simp only [ih]
                split <;> rename_i result <;> rw [result] <;> rfl
      · rw [blockDataCalls_plain fun payload kind taken => command ⟨payload, kind, taken⟩]

/-- A reply makes nothing but calls of `data_`, whatever it passes. -/
theorem mem_replyCalls {is_ok : Bool} {rounds : Nat} {call : FlowCall}
    (member : call ∈ (processDataCalls (blockDataCalls platform fuel running
      (some (replyBuffer is_ok))) rounds ref manager).1) :
    call.isCommand = false ∧ call.isReply = false := by
  refine mem_processDataCalls (fun _ => True)
    (fun call => call.isCommand = false ∧ call.isReply = false)
    (fun sink before _ call member => ?_) (fun _ _ _ _ _ => trivial) trivial call member
  cases fuel with
  | zero => cases member
  | succ fuel =>
      rw [blockDataCalls_plain fun payload _ =>
        not_isCommand_replyBuffer platform is_ok payload] at member
      obtain rfl := List.mem_singleton.mp member
      exact ⟨rfl, rfl⟩

/-- A block parses one command and sends one reply at most, the flow of its reply included. -/
theorem countP_blockDataCalls_le_one {counted : FlowCall → Bool}
    (kind : counted = FlowCall.isCommand ∨ counted = FlowCall.isReply) :
    (blockDataCalls platform fuel running vdata ref manager).1.countP counted ≤ 1 := by
  cases fuel with
  | zero => exact Nat.zero_le 1
  | succ fuel =>
      by_cases command : ∃ payload, manager.kind ref = some .transPb ∧
        IsCommand platform vdata payload
      · obtain ⟨payload, transPb, command⟩ := command
        rw [blockDataCalls_command transPb command]
        dsimp only
        split
        · rcases kind with rfl | rfl <;> simp [FlowCall.isCommand, FlowCall.isReply]
        · rename_i is_ok after _
          split
          · rcases kind with rfl | rfl <;> simp [FlowCall.isCommand, FlowCall.isReply]
          · -- The calls of the reply's own flow do not count.
            have none : List.countP counted (processDataCalls
                (blockDataCalls platform fuel (ref :: running) (some (replyBuffer is_ok)))
                fuel ref (BlockManager.record after (.reply ref is_ok))).1 = 0 := by
              refine List.countP_eq_zero.mpr fun call member => ?_
              obtain ⟨parses, replies⟩ := mem_replyCalls member
              rcases kind with rfl | rfl
              · simp [parses]
              · simp [replies]
            dsimp only
            rw [List.countP_append]
            rcases kind with rfl | rfl <;>
              simp [List.countP_cons, FlowCall.isCommand, FlowCall.isReply, none]
      · rw [blockDataCalls_plain fun payload kind taken => command ⟨payload, kind, taken⟩]
        rcases kind with rfl | rfl <;> simp [FlowCall.isCommand, FlowCall.isReply]

/-- A block that forwards its data calls nothing else. -/
theorem blockDataCalls_forward {after : BlockManager}
    (forwarded : (blockDataCalls platform fuel running vdata ref manager).2 =
      .ok (true, after)) :
    (blockDataCalls platform fuel running vdata ref manager).1 = [.data_ ref vdata manager] := by
  rw [snd_blockDataCalls] at forwarded
  have hello := blockData_forward forwarded
  cases fuel with
  | zero => cases forwarded
  | succ fuel =>
      rw [blockDataCalls_plain fun payload kind => ?_]
      obtain ⟨name_, count_, kind'⟩ := BlockManager.isHello_iff.mp hello
      rw [kind'] at kind
      cases kind

/-- A block that comes to an end leaves a record of its calls. -/
theorem log_blockDataCalls {forward : Bool} {after : BlockManager}
    (done : (blockDataCalls platform fuel running vdata ref manager).2 = .ok (forward, after)) :
    after.world.log = manager.world.log ++
      (blockDataCalls platform fuel running vdata ref manager).1.map FlowCall.handled := by
  induction fuel generalizing running vdata ref manager forward after with
  | zero => cases done
  | succ fuel ih =>
      by_cases command : ∃ payload, manager.kind ref = some .transPb ∧
        IsCommand platform vdata payload
      · obtain ⟨payload, kind, command⟩ := command
        rw [blockDataCalls_command kind command] at done ⊢
        dsimp only at done ⊢
        split at done
        · cases done
        · rename_i is_ok executed parsed
          split at done
          · cases done
          · dsimp only at done ⊢
            have replies := snd_of_map_ok done
            rw [log_processDataCalls (fun sink before forward after => ih) replies]
            have kept := log_executed parsed
            simp only [BlockManager.record, kept, commanded, received, List.map_cons,
              FlowCall.handled, List.append_assoc, List.cons_append, List.nil_append]
      · have plain : ∀ payload, manager.kind ref = some .transPb →
            ¬ IsCommand platform vdata payload :=
          fun payload kind taken => command ⟨payload, kind, taken⟩
        rw [blockDataCalls_plain plain] at done ⊢
        exact log_blockData_plain plain done

end

/-! ## The calls of one event -/

/-- The calls are those of `onFd`. -/
theorem snd_onFdCalls (platform : Platform) (fuel : Nat) (desc : FileDesc)
    (manager : BlockManager) :
    (onFdCalls platform fuel desc manager).2 = onFd platform fuel desc manager := by
  have flows : ∀ running vdata source start,
      (processDataCalls (blockDataCalls platform fuel running vdata) fuel source start).2 =
        processData (blockData platform fuel running vdata) fuel source start := by
    intro running vdata source start
    rw [snd_processDataCalls]
    simp only [snd_blockDataCalls]
  unfold onFdCalls onFd flow
  cases desc.bk with
  | none => rfl
  | some ref =>
      dsimp only
      cases manager.blocks.deref ref with
      | none => rfl
      | some block =>
          dsimp only
          rcases manager.kind ref with _ | ⟨_ | _ | hook⟩
          · rfl
          · rfl
          · rfl
          · dsimp only
            split_ifs
            · exact flows _ _ _ _
            · rfl
            · rfl

/-- An event makes no calls, or those of the flow that brings on what the hook has received. -/
theorem onFdCalls_cases (platform : Platform) (fuel : Nat) (desc : FileDesc)
    (manager : BlockManager) :
    ((onFdCalls platform fuel desc manager).1 = [] ∧
        ∀ after, (onFdCalls platform fuel desc manager).2 = .ok after →
          after.world.log = manager.world.log) ∨
      ∃ ref hook buf zmq, manager.kind ref = some (.hookZmq hook) ∧
        hook.recv_ Buffer.empty manager.world.zmq = (true, buf, zmq) ∧
        onFdCalls platform fuel desc manager =
          processDataCalls (blockDataCalls platform fuel [ref, ref] (some buf)) fuel ref
            (receipt manager ref hook zmq) := by
  unfold onFdCalls
  cases desc.bk with
  | none => exact .inl ⟨rfl, fun _ done => by cases done; rfl⟩
  | some ref =>
      dsimp only
      cases manager.blocks.deref ref with
      | none => exact .inl ⟨rfl, fun _ done => by cases done⟩
      | some block =>
          dsimp only
          rcases kind : manager.kind ref with _ | ⟨_ | _ | hook⟩
          · exact .inl ⟨rfl, fun _ done => by cases done; rfl⟩
          · exact .inl ⟨rfl, fun _ done => by cases done; rfl⟩
          · exact .inl ⟨rfl, fun _ done => by cases done; rfl⟩
          · dsimp only
            by_cases own : desc.socket = hook.zmq_sock_.socket
            · rw [if_pos own]
              rcases received : hook.recv_ Buffer.empty manager.world.zmq with ⟨_ | _, buf, zmq⟩
              · exact .inl ⟨rfl, fun _ done => by cases done; rfl⟩
              · exact .inr ⟨ref, hook, buf, zmq, kind, received, rfl⟩
            · rw [if_neg own]
              exact .inl ⟨rfl, fun _ done => by cases done; rfl⟩

theorem countP_onFdCalls_le_one {platform : Platform} {fuel : Nat} {desc : FileDesc}
    {manager : BlockManager} {counted : FlowCall → Bool}
    (kind : counted = FlowCall.isCommand ∨ counted = FlowCall.isReply) :
    (onFdCalls platform fuel desc manager).1.countP counted ≤ 1 := by
  rcases onFdCalls_cases platform fuel desc manager with ⟨none, -⟩ | ⟨_, _, _, _, -, -, flow⟩
  · rw [none]
    exact Nat.zero_le 1
  · rw [flow]
    refine countP_processDataCalls_le_one (fun _ _ => countP_blockDataCalls_le_one kind) ?_
    intro sink before after forwarded
    rw [blockDataCalls_forward forwarded]
    rcases kind with rfl | rfl <;> rfl

/-- One message, at most one command: the whole tree of calls that one `on_fd_` leads to holds at
most one call of `proto_command_parse` and sends at most one reply, whatever the graph of blocks
is, whether or not the calls return, and no reply is taken for a command. The calls are those of
the program, and those that its record shows. -/
theorem onFd_one_command (platform : Platform) (fuel : Nat) (desc : FileDesc)
    (manager : BlockManager) :
    (onFdCalls platform fuel desc manager).2 = onFd platform fuel desc manager ∧
      (∀ after, onFd platform fuel desc manager = .ok after → after.world.log =
        manager.world.log ++ (onFdCalls platform fuel desc manager).1.map FlowCall.handled) ∧
      (onFdCalls platform fuel desc manager).1.countP FlowCall.isCommand ≤ 1 ∧
      (onFdCalls platform fuel desc manager).1.countP FlowCall.isReply ≤ 1 ∧
      ∀ is_ok payload, ¬ IsCommand platform (some (replyBuffer is_ok)) payload := by
  refine ⟨snd_onFdCalls platform fuel desc manager, ?_, ?_, ?_,
    not_isCommand_replyBuffer platform⟩
  · intro after done
    rw [← snd_onFdCalls] at done
    rcases onFdCalls_cases platform fuel desc manager with ⟨none, log⟩ | ⟨_, _, _, _, -, -, flow⟩
    · rw [none, log after done]
      exact (List.append_nil _).symm
    · rw [flow] at done ⊢
      exact log_processDataCalls (fun _ _ _ _ => log_blockDataCalls) done
  · exact countP_onFdCalls_le_one (.inl rfl)
  · exact countP_onFdCalls_le_one (.inr rfl)

end C3qo
