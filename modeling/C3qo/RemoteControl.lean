import C3qo.CommandResult
import C3qo.Dispatch
import C3qo.Execution
import C3qo.Framing
import C3qo.Stability

/-!
# Remote control

`c3qo.cpp`: a hook and a `trans_pb` that are bound to each other, so that what the hook receives
is executed. Every polled descriptor belongs to a hook that is started, whatever commands there
have been, and a block that is started cannot be deleted. The only block that can be destroyed
while it is running is therefore a stopped `trans_pb` that executes its own deletion.
-/

namespace C3qo

/-- The part of `main` that sets up the monitoring client. -/
def monitoringClient (identity : String) (manager : BlockManager) : BlockManager :=
  match manager.blockGet (-1) with
  | none => manager
  | some ref =>
      match BlockManager.kind manager ref with
      | some (.hookZmq hook) => BlockManager.setDerived manager ref (.hookZmq { hook with
          type_ := ZMQ_DEALER, name_ := identity, addr_ := "tcp://127.0.0.1:1664",
          client_ := true })
      | _ => manager

/-- `main` of `c3qo.cpp` up to its loop. -/
def c3qoMain (platform : Platform) (identity : String) : BlockManager :=
  let manager := (repository.blockAdd (virtual platform) (-1) "hook_zmq").2
  let manager := monitoringClient identity manager
  let manager := (manager.blockStart (virtual platform) (-1)).2
  let manager := (manager.blockAdd (virtual platform) (-2) "trans_pb").2
  let manager := (manager.blockStart (virtual platform) (-2)).2
  let manager := (manager.blockBind (virtual platform) (-1) 0 (-2)).2
  let manager := (manager.blockBind (virtual platform) (-2) 0 (-1)).2
  manager.start_

/-- What happens in the main loop. -/
inductive Activity
  /-- A message arrives at a socket. -/
  | arrive (address : Pointer) (parts : List BufferPart)
  /-- `on_fd_` of a polled descriptor, with fuel for the data flows. -/
  | onFd (desc : FileDesc) (fuel : Nat)

/-- Take an activity. There is no result if the fuel is used up, or after undefined behaviour. -/
def Activity.perform (platform : Platform) (activity : Activity) (manager : BlockManager) :
    Option BlockManager :=
  match activity with
  | .arrive address parts =>
      some { manager with world := { manager.world with
        zmq := manager.world.zmq.arrive address (framesOf parts) } }
  | .onFd desc fuel =>
      if desc ∈ manager.world.polling.callback_ then
        (C3qo.onFd platform fuel desc manager).toOption
      else
        none

namespace Steady

variable {platform : Platform} {Holds : BlockManager → Prop} (steady : Steady platform Holds)
  {manager : BlockManager}

include steady

theorem monitoringClient (identity : String) (start : Holds manager) :
    Holds (monitoringClient identity manager) := by
  unfold C3qo.monitoringClient
  split
  · exact start
  · rename_i ref _
    split
    · rename_i hook kind
      exact steady.hook manager ref hook _ manager.world.zmq kind rfl rfl (.refl _) start
    · exact start

/-- `main` establishes it up to its loop. -/
theorem c3qoMain (fresh : Holds (Manager.new World.empty))
    (resumed : ∀ manager, Holds manager → Holds manager.start_) (identity : String) :
    Holds (c3qoMain platform identity) := by
  have hello := steady.operation _ (.blockFactoryRegister "hello" .hello) fresh
  have transPb := steady.operation _ (.blockFactoryRegister "trans_pb" .transPb) hello
  have hookZmq := steady.operation _ (.blockFactoryRegister "hook_zmq" .hookZmq) transPb
  have hook := steady.operation _ (.blockAdd (-1) "hook_zmq") hookZmq
  have hook_started :=
    steady.operation _ (.blockStart (-1)) (steady.monitoringClient identity hook)
  have interpreter := steady.operation _ (.blockAdd (-2) "trans_pb") hook_started
  have interpreter_started := steady.operation _ (.blockStart (-2)) interpreter
  have asked := steady.operation _ (.blockBind (-1) 0 (-2)) interpreter_started
  exact resumed _ (steady.operation _ (.blockBind (-2) 0 (-1)) asked)

/-- It holds in every state that the main loop reaches. -/
theorem of_run (fresh : Holds (Manager.new World.empty))
    (resumed : ∀ manager, Holds manager → Holds manager.start_) {identity : String}
    {activities : List Activity}
    (execution : Execution.run (Activity.perform platform) activities
      (C3qo.c3qoMain platform identity) = some manager) : Holds manager := by
  refine Execution.invariant_of_run (fun activity state next holds taken => ?_)
    (steady.c3qoMain fresh resumed identity) execution
  cases activity with
  | arrive address parts =>
      obtain rfl := Option.some.inj taken
      exact steady.zmq _ _ (.arrive address _ _) holds
  | onFd desc fuel =>
      simp only [Activity.perform] at taken
      split_ifs at taken with polled
      rcases done : C3qo.onFd platform fuel desc state with fault | after
      · rw [done] at taken
        cases taken
      · rw [done] at taken
        obtain rfl := Option.some.inj taken
        exact steady.onFd holds done

end Steady

/-! ## Polled descriptors -/

/-- Starting a block adds at most a descriptor that it holds afterwards. -/
theorem World.mem_polling_start {platform : Platform} {ref : BlockRef} {world : World}
    {desc : FileDesc} (member : desc ∈ (world.start_ platform ref).polling.callback_) :
    desc ∈ world.polling.callback_ ∨ desc.bk = some ref ∧
      ∃ hook, (world.start_ platform ref).derived.lookup ref = some (.hookZmq hook) ∧
        hook.zmq_sock_.key = desc.key := by
  unfold start_ at member ⊢
  split
  · rename_i hook there
    rw [there] at member
    have registers := hook.start_registers platform ref world.polling world.zmq
    dsimp only at member ⊢
    rcases registers.polling with same | ⟨uninit, own, added⟩
    · rw [withHook, same] at member
      exact .inl member
    · rw [withHook, added] at member
      dsimp only at member
      rcases world.polling.fdAdd_cases uninit (hook.start_ platform ref world.polling
        world.zmq).1.zmq_sock_ with ⟨same, -⟩ | ⟨-, stored, -⟩
      · rw [same] at member
        exact .inl member
      · rw [stored, List.mem_append, List.mem_singleton] at member
        refine member.imp id ?_
        rintro rfl
        exact ⟨own, _, Finmap.lookup_insert _, rfl⟩
  · rename_i other
    split at member
    · rename_i hook there
      exact absurd there (other hook)
    · exact .inl member

/-- Stopping a hook removes its descriptor. -/
theorem World.mem_polling_stop {ref : BlockRef} {world : World} {desc : FileDesc}
    (member : desc ∈ (world.stop_ ref).polling.callback_) :
    desc ∈ world.polling.callback_ ∧ ∀ hook, world.derived.lookup ref = some (.hookZmq hook) →
      hook.zmq_sock_.key ≠ desc.key := by
  unfold stop_ at member
  split at member
  · rename_i hook there
    dsimp only [HookZmq.stop_] at member
    rw [(world.polling.fdRemove_eq_filter hook.zmq_sock_).1, List.mem_filter] at member
    refine ⟨member.1, fun hook' there' => ?_⟩
    rw [there, Option.some.injEq, Derived.hookZmq.injEq] at there'
    subst there'
    exact Ne.symm (of_decide_eq_true member.2)
  · rename_i other
    exact ⟨member, fun hook there => absurd there (other hook)⟩

/-- The descriptor is the one that a started hook has registered. -/
structure Attends (manager : BlockManager) (desc : FileDesc) (ref : BlockRef) : Prop where
  /-- The descriptor leads to the block. -/
  owner : desc.bk = some ref
  /-- The block is started. -/
  started : manager.isStarted ref = true
  /-- It is a hook with a descriptor of the same key. -/
  registered : ∃ hook, manager.kind ref = some (.hookZmq hook) ∧ hook.zmq_sock_.key = desc.key

/-- Every polled descriptor is attended. -/
def Attended (manager : BlockManager) : Prop :=
  ∀ desc ∈ manager.world.polling.callback_, ∃ ref, Attends manager desc ref

theorem Attends.live {manager : BlockManager} {desc : FileDesc} {ref : BlockRef}
    (attends : Attends manager desc ref) : manager.blocks.Live ref := by
  obtain ⟨block, object, -⟩ := BlockManager.isStarted_iff.mp attends.started
  exact Registry.live_iff.mpr ⟨block, object⟩

namespace Attended

variable {platform : Platform} {before after : BlockManager}

theorem attends (attended : Attended before) {desc : FileDesc} {ref : BlockRef}
    (member : desc ∈ before.world.polling.callback_) (owner : desc.bk = some ref) :
    Attends before desc ref := by
  obtain ⟨ref', attends⟩ := attended desc member
  obtain rfl := Option.some.inj (attends.owner.symm.trans owner)
  exact attends

/-- One block may change, if its own descriptors are attended afterwards. -/
theorem of_frame (attended : Attended before) (named : BlockRef)
    (started : ∀ ref, ref ≠ named → after.isStarted ref = before.isStarted ref)
    (kinds : ∀ ref, ref ≠ named → after.kind ref = before.kind ref)
    (polled : ∀ desc ∈ after.world.polling.callback_,
      desc ∈ before.world.polling.callback_ ∧ desc.bk ≠ some named ∨ Attends after desc named) :
    Attended after := by
  intro desc member
  rcases polled desc member with ⟨old, foreign⟩ | attends
  · obtain ⟨ref, attends⟩ := attended desc old
    have other : ref ≠ named := fun same => foreign (same ▸ attends.owner)
    refine ⟨ref, attends.owner, (started ref other).trans attends.started, ?_⟩
    rw [kinds ref other]
    exact attends.registered
  · exact ⟨named, attends⟩

/-- Only the started blocks, the kinds of blocks and the callbacks matter. -/
theorem congr (attended : Attended before)
    (started : ∀ ref, after.isStarted ref = before.isStarted ref)
    (kinds : ∀ ref, after.kind ref = before.kind ref)
    (polled : after.world.polling.callback_ = before.world.polling.callback_) :
    Attended after := by
  intro desc member
  rw [polled] at member
  obtain ⟨ref, owner, running, registered⟩ := attended desc member
  exact ⟨ref, owner, (started ref).trans running, by rw [kinds]; exact registered⟩

/-- A block may get other fields, if a hook keeps its descriptor. -/
theorem setDerived (attended : Attended before) {ref : BlockRef} {derived : Derived}
    (kept : ∀ hook, before.kind ref = some (.hookZmq hook) →
      ∃ hook', derived = .hookZmq hook' ∧ hook'.zmq_sock_ = hook.zmq_sock_) :
    Attended (before.setDerived ref derived) := by
  refine attended.of_frame ref (fun _ _ => rfl)
    (fun other different => before.kind_setDerived_of_ne derived different) fun desc member => ?_
  by_cases owner : desc.bk = some ref
  · obtain ⟨-, started, hook, kind, key⟩ := attended.attends member owner
    obtain ⟨hook', rfl, same⟩ := kept hook kind
    exact .inr ⟨owner, started, hook', before.kind_setDerived ref _, by rw [same]; exact key⟩
  · exact .inl ⟨member, owner⟩

theorem changed (attended : Attended before) (change : Change (virtual platform) before after) :
    Attended after := by
  cases change with
  | same after blocks world trace =>
      refine attended.congr (fun ref => congrArg (fun blocks => blocks.started ref) blocks)
        (fun ref => ?_) (congrArg (fun world => world.polling.callback_) world)
      exact congrArg (fun world => world.derived.lookup ref) world
  | refused factory world answer =>
      obtain rfl := World.constructor_false answer
      exact attended
  | built id type_ factory free registered world answer =>
      obtain ⟨-, polled, -, kinds⟩ := World.constructor_frame answer
      refine attended.of_frame before.blocks.next
        (fun ref _ => before.blocks.started_insert id type_ free ref) kinds fun desc member => ?_
      have old : desc ∈ before.world.polling.callback_ := polled ▸ member
      refine .inl ⟨old, fun owner => ?_⟩
      exact Registry.ne_next_of_started (attended.attends old owner).started rfl
  | started ref block object idle =>
      have running := Registry.started_setStarted object true
      refine attended.of_frame ref (fun other different => (running other).trans (if_neg different))
        (start_frame platform ref before.world).2.1 fun desc member => ?_
      rcases World.mem_polling_start member with old | ⟨owner, hook, kind, key⟩
      · refine .inl ⟨old, fun owner => ?_⟩
        exact Registry.ne_of_started object idle (attended.attends old owner).started rfl
      · exact .inr ⟨owner, (running ref).trans (if_pos rfl), hook, kind, key⟩
  | bound src port dst live_src live_dst =>
      exact attended.congr (before.blocks.started_setSink src dst) (fun _ => rfl) rfl

theorem stopped (attended : Attended before) {ref : BlockRef} {block : Block}
    (object : before.blocks.deref ref = some block) :
    Attended ((before.setStarted ref false).called (.stop_ ref)
      ((virtual platform).stop_ ref (before.setStarted ref false))) := by
  have running := Registry.started_setStarted object false
  refine attended.of_frame ref (fun other different => (running other).trans (if_neg different))
    (fun other _ => ?_) fun desc member => ?_
  · exact congrArg (fun derived => derived.lookup other) (stop_frame ref before.world).2.1
  · obtain ⟨old, released⟩ := World.mem_polling_stop member
    refine .inl ⟨old, fun owner => ?_⟩
    obtain ⟨-, -, hook, kind, key⟩ := attended.attends old owner
    exact released hook kind key

theorem destroyed (attended : Attended before) {ref : BlockRef} {block : Block}
    (factory : Factory) (object : before.blocks.deref ref = some block)
    (idle : block.is_started_ = false) :
    Attended { before.called (.destructor ref factory)
        ((virtual platform).destructor factory ref before.world) with
      blocks := before.blocks.remove block.id_ } := by
  refine attended.of_frame ref (fun other _ => Registry.started_remove object idle other)
    (fun other different => Finmap.lookup_erase_ne different) fun desc member => ?_
  refine .inl ⟨member, fun owner => ?_⟩
  exact Registry.ne_of_started object idle (attended.attends member owner).started rfl

theorem start_ (attended : Attended before) : Attended before.start_ :=
  attended.congr (fun _ => rfl) (fun _ => rfl) rfl

end Attended

/-- Polled descriptors stay attended, whatever blocks do. -/
theorem stable_attended (platform : Platform) : Stable platform Attended where
  record _ _ attended := attended.congr (fun _ => rfl) (fun _ => rfl) rfl
  counted _ _ _ _ _ kind attended := attended.setDerived fun hook kind' => by
    rw [kind] at kind'
    cases kind'
  hook manager ref hook hook' zmq kind same attended := by
    have configured : Attended (BlockManager.setDerived manager ref (.hookZmq hook')) :=
      attended.setDerived fun hook'' kind' => by
        rw [kind, Option.some.injEq, Derived.hookZmq.injEq] at kind'
        exact ⟨hook', rfl, kind' ▸ same⟩
    exact configured.congr (fun _ => rfl) (fun _ => rfl) rfl
  zmq _ _ attended := attended.congr (fun _ => rfl) (fun _ => rfl) rfl
  operation manager operation attended :=
    Operation.perform_preserves (virtual platform) manager Attended (fun _ => attended.changed)
      (fun _ _ _ _ found _ => attended.stopped (Registry.find_eq_some_iff.mp found).1)
      fun _ _ factory object idle _ => attended.destroyed factory object idle
  stop_ _ attended := attended.congr (fun _ => rfl) (fun _ => rfl) rfl

/-- In every reachable state, polled descriptors are attended. -/
theorem attended_of_run {platform : Platform} {identity : String} {activities : List Activity}
    {manager : BlockManager}
    (execution : Execution.run (Activity.perform platform) activities
      (c3qoMain platform identity) = some manager) : Attended manager :=
  (stable_attended platform).steady.of_run (fun _ member => by cases member)
    (fun _ attended => attended.start_) execution

/-! ## Blocks that are destroyed while they run -/

/-- A command destroys no block but the one that it deletes. -/
theorem live_of_executed {platform : Platform} {payload : Bytes} {is_ok : Bool}
    {before after : BlockManager} {ref : BlockRef} (live : before.blocks.Live ref)
    (kept : ∀ id, platform.unpack payload = some (.del id) → ¬ before.Deletes id ref)
    (executed : protoCommandParse platform payload before = .ok (is_ok, after)) :
    after.blocks.Live ref := by
  rcases protoCommandParse_cases executed with
    rfl | ⟨operation, only, rfl⟩ | ⟨_, _, _, _, _, _, rfl⟩ | rfl
  · exact live
  · by_cases deletion : ∃ id, operation = .blockDel id
    · obtain ⟨id, rfl⟩ := deletion
      have spared := kept id (only id rfl)
      change (before.blockDel (virtual platform) id).2.blocks.Live ref
      rcases before.blockDel_cases (virtual platform) id with
        ⟨-, same⟩ | ⟨other, block, factory, found, idle, registered, destroyed⟩
      · rw [same]
        exact live
      · rw [destroyed]
        refine (Registry.live_remove (Registry.get_of_find found) ref).mpr ⟨live, ?_⟩
        rintro rfl
        exact spared ⟨block, factory, found, idle, registered⟩
    · exact (Operation.perform_kept _ _ (not_exists.mp deletion)).live live
  · exact live
  · exact live

/-- What a deletion needs is a matter of the blocks and the factories. -/
theorem deletes_congr {left right : BlockManager} (blocks : left.blocks = right.blocks)
    (factories : left.bk_factory_ = right.bk_factory_) {id : Int} {ref : BlockRef}
    (deletes : left.Deletes id ref) : right.Deletes id ref := by
  unfold Manager.Deletes at deletes ⊢
  rwa [← blocks, ← factories]

/-- A block that is started is not deleted. -/
theorem not_deletes_of_started {manager : BlockManager} {ref : BlockRef}
    (started : manager.isStarted ref = true) (id : Int) : ¬ manager.Deletes id ref := by
  rintro ⟨block, factory, found, idle, -⟩
  obtain ⟨block', object, running⟩ := BlockManager.isStarted_iff.mp started
  obtain ⟨object', -⟩ := Registry.find_eq_some_iff.mp found
  obtain rfl := Option.some.inj (object.symm.trans object')
  rw [idle] at running
  cases running

/-- The flow of a reply finds no running block destroyed. -/
theorem replied_ne_underFoot {platform : Platform} {fuel : Nat} {running : List BlockRef}
    {ref : BlockRef} {is_ok : Bool} {manager : BlockManager} (destroyed : BlockRef) :
    replied platform fuel running ref is_ok manager ≠ .error (.underFoot destroyed) := by
  unfold replied
  rcases flow_cases platform (ref :: running) (some (replyBuffer is_ok)) ref
    (manager.record (.reply ref is_ok)) fuel fuel with
    spent | ⟨dead, dangling⟩ | ⟨after, alike, -, done | ⟨target, leads, result⟩⟩
  · rw [spent]
    simp
  · rw [dangling]
    simp
  · rw [done]
    simp
  · rw [result]
    cases fuel with
    | zero => simp [blockData, Except.map]
    | succ fuel =>
        obtain ⟨final, taken⟩ := blockData_reply platform fuel (ref :: running) is_ok
          ((alike.isHello target).symm.trans leads.not_hello)
        rw [taken]
        simp [Except.map]

/-- `on_fd_` of the descriptor receives a message, and the flow of it leads to the target. -/
structure Brings (manager : BlockManager) (desc : FileDesc) (source target : BlockRef)
    (buf : Buffer) : Prop where
  /-- The descriptor leads to the source. -/
  owner : desc.bk = some source
  /-- The source is a hook that receives the message. -/
  received : ∃ hook zmq, manager.kind source = some (.hookZmq hook) ∧
    desc.socket = hook.zmq_sock_.socket ∧
    hook.recv_ Buffer.empty manager.world.zmq = (true, buf, zmq)
  /-- The target is where the flow ends. -/
  leads : manager.LeadsTo source target

/-- The message that `on_fd_` of the descriptor receives comes to a `trans_pb` and is a command to
delete that same `trans_pb`, which is stopped. -/
def DestroysItself (platform : Platform) (manager : BlockManager) (desc : FileDesc) : Prop :=
  ∃ source target buf payload id, Brings manager desc source target buf ∧
    manager.kind target = some .transPb ∧ IsCommand platform (some buf) payload ∧
    platform.unpack payload = some (.del id) ∧ manager.Deletes id target

/-- The manager once a hook has received a message. -/
def receipt (manager : BlockManager) (source : BlockRef) (hook : HookZmq) (zmq : Zmq) :
    BlockManager :=
  let hook := { hook with rx_pkt_ := hook.rx_pkt_ + 1 }
  { manager with world := manager.world.withHook source hook manager.world.polling zmq }

section

variable {platform : Platform} {manager : BlockManager} {desc : FileDesc} {source : BlockRef}
  {hook : HookZmq} {zmq : Zmq} {buf : Buffer}

theorem onFd_of_received (owner : desc.bk = some source) (live : manager.blocks.Live source)
    (kind : manager.kind source = some (.hookZmq hook))
    (own : desc.socket = hook.zmq_sock_.socket)
    (received : hook.recv_ Buffer.empty manager.world.zmq = (true, buf, zmq)) (fuel : Nat) :
    onFd platform fuel desc manager =
      flow platform fuel [source] (some buf) source (receipt manager source hook zmq) := by
  obtain ⟨block, object⟩ := Registry.live_iff.mp live
  simp only [onFd, owner, object, kind]
  rw [if_pos own, received]
  rfl

theorem kind_receipt_of_ne {ref : BlockRef} (different : ref ≠ source) :
    (receipt manager source hook zmq).kind ref = manager.kind ref :=
  Finmap.lookup_insert_of_ne _ different

theorem isHello_receipt (kind : manager.kind source = some (.hookZmq hook)) (ref : BlockRef) :
    (receipt manager source hook zmq).isHello ref = manager.isHello ref := by
  by_cases same : ref = source
  · subst same
    have kind' : (receipt manager ref hook zmq).kind ref =
      some (.hookZmq { hook with rx_pkt_ := hook.rx_pkt_ + 1 }) := Finmap.lookup_insert _
    simp only [BlockManager.isHello, kind, kind']
  · simp only [BlockManager.isHello, kind_receipt_of_ne same]

theorem leadsTo_receipt (kind : manager.kind source = some (.hookZmq hook))
    {target : BlockRef} :
    (receipt manager source hook zmq).LeadsTo source target ↔ manager.LeadsTo source target :=
  have blocks : (receipt manager source hook zmq).blocks = manager.blocks := rfl
  BlockManager.leadsTo_congr blocks (isHello_receipt kind)

theorem kind_receipt_transPb (kind : manager.kind source = some (.hookZmq hook)) {ref : BlockRef} :
    (receipt manager source hook zmq).kind ref = some .transPb ↔
      manager.kind ref = some .transPb := by
  by_cases same : ref = source
  · subst same
    have kind' : (receipt manager ref hook zmq).kind ref =
      some (.hookZmq { hook with rx_pkt_ := hook.rx_pkt_ + 1 }) := Finmap.lookup_insert _
    simp [kind, kind']
  · rw [kind_receipt_of_ne same]

/-- The message is taken by the target, in a state that differs from the one in which it was
received in packet counts and records only. -/
theorem onFd_of_brings (platform : Platform) (attended : Attended manager)
    (member : desc ∈ manager.world.polling.callback_) {target : BlockRef}
    (brings : Brings manager desc source target buf) :
    ∃ hook zmq steps before, manager.kind source = some (.hookZmq hook) ∧
      Alike (receipt manager source hook zmq) before ∧ HandedOn (some buf) manager before ∧
      ∀ fuel, steps ≤ fuel → onFd platform (fuel + 1) desc manager =
        (blockData platform (fuel + 1) [source, source] (some buf) target before).map Prod.snd := by
  obtain ⟨hook, zmq, kind, own, received⟩ := brings.received
  have attends := attended.attends member brings.owner
  have leads : (receipt manager source hook zmq).LeadsTo source target :=
    (leadsTo_receipt kind).mpr brings.leads
  obtain ⟨steps, before, alike, handed, spec⟩ :=
    flow_of_leadsTo platform [source, source] (some buf) leads
  obtain ⟨passed, log, records⟩ := handed
  refine ⟨hook, zmq, steps, before, kind, alike, ⟨passed, log, fun handled among => ?_⟩,
    fun fuel enough => ?_⟩
  · obtain ⟨ref, started, same, hello⟩ := records handled among
    exact ⟨ref, started, same, (isHello_receipt kind ref).symm.trans hello⟩
  obtain ⟨extra, rfl⟩ := Nat.exists_eq_add_of_le enough
  have result := (spec (steps + extra)).2 extra
  rw [show extra + 1 + steps = steps + extra + 1 by omega] at result
  rw [onFd_of_received brings.owner attends.live kind own received, flow, result]

/-- A message that makes a running block disappear is a command, taken by a `trans_pb`, to delete
that block. -/
theorem deletes_of_underFoot {fuel : Nat} {running : List BlockRef} {vdata : Option Buffer}
    {target ref : BlockRef} (live : ∀ among ∈ target :: running, manager.blocks.Live among)
    (fault : blockData platform fuel running vdata target manager = .error (.underFoot ref)) :
    manager.kind target = some .transPb ∧ ∃ payload id deleted, IsCommand platform vdata payload ∧
      platform.unpack payload = some (.del id) ∧ deleted ∈ target :: running ∧
      manager.Deletes id deleted := by
  cases fuel with
  | zero => cases fault
  | succ fuel =>
      rcases kind : manager.kind target with _ | ⟨⟨name_, count_⟩ | _ | hook⟩
      · rw [blockData_plain kind] at fault
        cases fault
      · rw [blockData_hello kind] at fault
        cases fault
      · refine ⟨rfl, ?_⟩
        by_cases command : ∃ payload, IsCommand platform vdata payload
        · obtain ⟨payload, command⟩ := command
          rw [blockData_command kind command] at fault
          rcases executed : protoCommandParse platform payload
            (commanded manager target vdata payload) with fault' | ⟨is_ok, after⟩
          · simp only [executed] at fault
            obtain rfl := Except.error.inj fault
            obtain ⟨_, other⟩ := fault_of_protoCommandParse executed
            cases other
          · simp only [executed] at fault
            by_contra spared
            have alive : destroyedOf after (target :: running) = none := by
              refine destroyedOf_eq_none_iff.mpr fun among member => ?_
              have live' : (commanded manager target vdata payload).blocks.Live among :=
                live among member
              exact live_of_executed live' (fun id unpacked deletes =>
                spared ⟨payload, id, among, command, unpacked, member, deletes⟩) executed
            rw [alive] at fault
            exact replied_ne_underFoot ref fault
        · rw [blockData_transPb kind (not_exists.mp command)] at fault
          cases fault
      · rw [blockData_hook kind] at fault
        cases fault

/-- A `trans_pb` that deletes itself is destroyed while it is running. -/
theorem underFoot_of_deletes {running : List BlockRef} {vdata : Option Buffer}
    {target : BlockRef} {payload : Bytes} {id : Int} (kind : manager.kind target = some .transPb)
    (command : IsCommand platform vdata payload)
    (unpacked : platform.unpack payload = some (.del id)) (deletes : manager.Deletes id target)
    (fuel : Nat) :
    blockData platform (fuel + 1) running vdata target manager = .error (.underFoot target) := by
  have parsed : protoCommandParse platform payload (commanded manager target vdata payload) =
      .ok ((commanded manager target vdata payload).blockDel (virtual platform) id) := by
    simp only [protoCommandParse, unpacked]
  rw [blockData_command kind command, parsed]
  rcases (commanded manager target vdata payload).blockDel_cases (virtual platform) id with
    ⟨refused, -⟩ | ⟨ref, block, factory, found, -, -, destroyed⟩
  · exact absurd deletes (refused target)
  · obtain rfl : ref = target :=
      Option.some.inj ((Registry.get_of_find found).symm.trans deletes.get)
    have gone : ((manager.blocks.remove id).deref ref).isNone = true := by
      rw [Registry.deref_remove deletes.get, if_pos rfl]
      rfl
    have first : destroyedOf { (commanded manager ref vdata payload).called
        (.destructor ref factory) ((virtual platform).destructor factory ref
          (commanded manager ref vdata payload).world) with
        blocks := manager.blocks.remove id } (ref :: running) = some ref := by
      simp only [destroyedOf, List.find?_cons, gone]
    rw [destroyed]
    dsimp only
    rw [show (commanded manager ref vdata payload).blocks = manager.blocks from rfl, first]

theorem destroysItself_of_underFoot (attended : Attended manager)
    (member : desc ∈ manager.world.polling.callback_) {fuel : Nat} {ref : BlockRef}
    (fault : onFd platform fuel desc manager = .error (.underFoot ref)) :
    DestroysItself platform manager desc := by
  obtain ⟨source, attends⟩ := attended desc member
  obtain ⟨hook, kind, -⟩ := attends.registered
  obtain ⟨block, object⟩ := Registry.live_iff.mp attends.live
  have own : desc.socket = hook.zmq_sock_.socket := by
    by_contra foreign
    simp only [onFd, attends.owner, object, kind, if_neg foreign] at fault
    cases fault
  rcases received : hook.recv_ Buffer.empty manager.world.zmq with ⟨_ | _, buf, zmq⟩
  · simp only [onFd, attends.owner, object, kind, if_pos own, received] at fault
    cases fault
  · rw [onFd_of_received attends.owner attends.live kind own received, flow] at fault
    rcases flow_cases platform [source, source] (some buf) source
      (receipt manager source hook zmq) fuel fuel with
      spent | ⟨dead, dangling⟩ | ⟨before, alike, -, done | ⟨target, leads, result⟩⟩
    · rw [spent] at fault
      cases fault
    · rw [dangling] at fault
      cases fault
    · rw [done] at fault
      cases fault
    · have brings : Brings manager desc source target buf :=
        ⟨attends.owner, ⟨hook, zmq, kind, own, received⟩, (leadsTo_receipt kind).mp leads⟩
      have blocks : before.blocks = manager.blocks := alike.blocks.symm
      obtain ⟨_, _, _, _, live, _⟩ := brings.leads
      rw [result] at fault
      rcases taken : blockData platform fuel [source, source] (some buf) target before with
        fault' | handed
      · rw [taken] at fault
        obtain rfl := Except.error.inj fault
        obtain ⟨transPb, payload, id, deleted, command, unpacked, among, deletes⟩ :=
          deletes_of_underFoot (by simp [blocks, live, attends.live]) taken
        have deletes' : manager.Deletes id deleted :=
          deletes_congr blocks alike.bk_factory_.symm deletes
        -- The hook is started, so it is the `trans_pb` that has been deleted.
        obtain rfl : deleted = target := by
          have either : deleted = target ∨ deleted = source := by simpa using among
          refine either.resolve_right ?_
          rintro rfl
          exact not_deletes_of_started attends.started id deletes'
        exact ⟨source, deleted, buf, payload, id, brings, (kind_receipt_transPb kind).mp
          (alike.world.symm.lookup_eq transPb (by simp)), command, unpacked, deletes'⟩
      · rw [taken] at fault
        cases fault

theorem underFoot_of_destroysItself (attended : Attended manager)
    (member : desc ∈ manager.world.polling.callback_)
    (destroys : DestroysItself platform manager desc) :
    ∃ fuel ref, onFd platform fuel desc manager = .error (.underFoot ref) := by
  obtain ⟨source, target, buf, payload, id, brings, transPb, command, unpacked, deletes⟩ := destroys
  obtain ⟨hook, zmq, steps, before, kind, alike, -, taken⟩ :=
    onFd_of_brings platform attended member brings
  have transPb' : before.kind target = some .transPb :=
    alike.world.lookup_eq ((kind_receipt_transPb kind).mpr transPb) (by simp)
  have deletes' : before.Deletes id target :=
    deletes_congr alike.blocks alike.bk_factory_ deletes
  refine ⟨steps + 1, target, ?_⟩
  rw [taken steps (Nat.le_refl _), underFoot_of_deletes transPb' command unpacked deletes']
  rfl

end

/-- In every state that `c3qo` can reach, whatever message a hook receives next, no block is
destroyed while one of its functions is running, unless the message is a command to delete the
stopped `trans_pb` that executes it. -/
theorem onFd_spares_running_iff (platform : Platform) (identity : String)
    (activities : List Activity) (manager : BlockManager)
    (execution : Execution.run (Activity.perform platform) activities
      (c3qoMain platform identity) = some manager)
    (desc : FileDesc) (member : desc ∈ manager.world.polling.callback_) :
    (∀ fuel ref, onFd platform fuel desc manager ≠ .error (.underFoot ref)) ↔
      ¬ DestroysItself platform manager desc := by
  have attended := attended_of_run execution
  constructor
  · intro spared destroys
    obtain ⟨fuel, ref, fault⟩ := underFoot_of_destroysItself attended member destroys
    exact spared fuel ref fault
  · intro harmless fuel ref fault
    exact harmless (destroysItself_of_underFoot attended member fault)

/-- A platform with two commands about the `trans_pb` of `main`: 1 stops it, 2 deletes it. -/
def twoCommands : Platform :=
  Platform.plain fun payload =>
    if payload = [1] then some (.stop (-2)) else if payload = [2] then some (.del (-2)) else none

/-- The descriptor that the hook of `main` registers there. -/
def clientDesc : FileDesc := ⟨some 0, -1, some 1, true, false⟩

/-- A message with a command for the hook of `main`. -/
def commandArrives (payload : Bytes) : Activity :=
  .arrive clientDesc.socket [.ofBytes (ascii "PROTO.CMD"), .ofBytes payload]

theorem onFd_spares_running_stop :
    let platform := Platform.plain fun _ => some (.stop (-2))
    ∃ manager, Execution.run (Activity.perform platform) [commandArrives [1]]
        (c3qoMain platform "c3qo") = some manager ∧
      ∀ fuel ref, onFd platform fuel clientDesc manager ≠ .error (.underFoot ref) := by
  intro platform
  refine ⟨_, rfl, ?_⟩
  refine (onFd_spares_running_iff platform "c3qo" [commandArrives [1]] _ rfl clientDesc
    (by decide +kernel)).mpr ?_
  rintro ⟨_, _, _, _, id, -, -, -, unpacked, -⟩
  cases unpacked

/-- Stopped and then told to delete itself, the `trans_pb` of `main` is destroyed while it runs. -/
theorem onFd_destroys_transPb :
    ∃ activities manager, Execution.run (Activity.perform twoCommands) activities
        (c3qoMain twoCommands "c3qo") = some manager ∧
      clientDesc ∈ manager.world.polling.callback_ ∧
      onFd twoCommands 2 clientDesc manager = .error (.underFoot 1) := by
  let activities := [commandArrives [1], .onFd clientDesc 2, commandArrives [2]]
  have outcome : (Execution.run (Activity.perform twoCommands) activities
      (c3qoMain twoCommands "c3qo")).map (fun manager =>
        (decide (clientDesc ∈ manager.world.polling.callback_),
          onFd twoCommands 2 clientDesc manager matches .error (.underFoot 1))) =
      some (true, true) := by decide +kernel
  obtain ⟨manager, execution, rest⟩ := Option.map_eq_some_iff.mp outcome
  obtain ⟨member, fault⟩ := Prod.mk.inj rest
  refine ⟨activities, manager, execution, of_decide_eq_true member, ?_⟩
  split at fault
  · assumption
  · cases fault

end C3qo
