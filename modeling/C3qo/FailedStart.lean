import C3qo.Sockets
import C3qo.TransPb

/-!
# Hooks whose start fails

`hook_zmq::start_` returns nothing: when one of its steps fails it logs that and returns early.
`block_start` has marked the block by then and reports a success. What has been acquired up to the
failure stays with the block, and is released by the `stop_` that a marked block still gets.
-/

namespace C3qo

/-- The steps of `hook_zmq::start_` that can fail. -/
inductive StartStep
  /-- `zmq_socket`. -/
  | socket
  /-- `zmq_setsockopt` with `ZMQ_IDENTITY`. -/
  | identity
  /-- `zmq_connect`. -/
  | connect
  /-- `zmq_bind`. -/
  | bind
  deriving DecidableEq

namespace HookZmq

/-- The step at which `hook_zmq::start_` gives up, if there is one. -/
def failedStep (platform : Platform) (hook : HookZmq) (zmq : Zmq) : Option StartStep :=
  let (ctx, zmq) := zmq.ctxNew
  let (socket, zmq) := zmq.socket platform ctx
  let hook :=
    { hook with zmq_ctx_ := ctx, zmq_sock_ := { hook.zmq_sock_ with socket := socket } }
  if socket = none then
    some .socket
  else
    let (named, zmq) := zmq.setIdentity platform socket (ascii hook.name_ ++ [0])
    if named then
      let (joined, _) := hook.attach platform zmq
      if joined then none else some (if hook.client_ then .connect else .bind)
    else
      some .identity

/-- A start gets past all of its steps, or one of them fails. -/
theorem joins_iff (platform : Platform) (hook : HookZmq) (zmq : Zmq) :
    hook.joins platform zmq = true ↔ hook.failedStep platform zmq = none := by
  unfold joins failedStep
  dsimp only
  split_ifs with null named joined <;> simp_all [Option.isSome_iff_ne_none]

/-- The step that fails is the first one exactly if no socket has been created. -/
theorem failedStep_socket_iff (platform : Platform) (hook : HookZmq) (zmq : Zmq) :
    hook.failedStep platform zmq = some .socket ↔
      (zmq.ctxNew.2.socket platform zmq.calls).1 = none := by
  constructor
  · intro failed
    by_contra created
    unfold failedStep at failed
    dsimp only at failed
    split_ifs at failed with null
    · exact created null
    all_goals cases failed
  · intro null
    exact if_pos null

end HookZmq

/-- A start that failed without being noticed: the block counts as started and holds what the start
has acquired. -/
structure Unnoticed (before : BlockManager) (ref : BlockRef) (failed : StartStep) (hook : HookZmq)
    (after : BlockManager) : Prop where
  /-- The block counts as started. -/
  started : after.blocks.started ref = true
  /-- The hook as it is now. -/
  kind : after.kind ref = some (.hookZmq hook)
  /-- The polling tables are unchanged. -/
  polling : after.world.polling = before.world.polling
  /-- The context is the one that the start has made. -/
  made : hook.zmq_ctx_ = before.world.zmq.calls
  /-- It is open, as are the contexts that were open before, and no others. -/
  contexts : after.world.zmq.contexts = insert hook.zmq_ctx_ before.world.zmq.contexts
  /-- The hook has no socket exactly if the creation of that is what failed. -/
  null : hook.zmq_sock_.socket = none ↔ failed = .socket
  /-- Its socket is a new one, and open in its context. -/
  socket : ∀ address, hook.zmq_sock_.socket = some address →
    before.world.zmq.lookup (some address) = none ∧
      ∃ socket, after.world.zmq.lookup (some address) = some socket ∧ socket.ctx = hook.zmq_ctx_
  /-- Other sockets are as before. -/
  others : ∀ address, hook.zmq_sock_.socket ≠ address →
    after.world.zmq.lookup address = before.world.zmq.lookup address

/-- What the hook held is released, and nothing else. -/
structure Released (before : BlockManager) (ref : BlockRef) (hook : HookZmq)
    (after : BlockManager) : Prop where
  /-- The block is not started. -/
  idle : after.blocks.started ref = false
  /-- Its context is terminated. -/
  contexts : after.world.zmq.contexts = before.world.zmq.contexts.erase hook.zmq_ctx_
  /-- Its socket is closed. -/
  sockets : ∀ address, after.world.zmq.lookup address =
    if address = hook.zmq_sock_.socket then none else before.world.zmq.lookup address

section

variable {platform : Platform} {manager : BlockManager} {id : Int} {ref : BlockRef} {block : Block}
  {hook : HookZmq}

/-- What `block_start` does to a hook that is not started. -/
theorem blockStart_hook (found : manager.blocks.find id = some (ref, block))
    (idle : block.is_started_ = false) (kind : manager.kind ref = some (.hookZmq hook)) :
    let started := hook.start_ platform ref manager.world.polling manager.world.zmq
    manager.blockStart (virtual platform) id =
      (true, (manager.setStarted ref true).called (.start_ ref)
        (manager.world.withHook ref started.1 started.2.1 started.2.2)) := by
  intro started
  have world : (manager.setStarted ref true).world.start_ platform ref =
      manager.world.withHook ref started.1 started.2.1 started.2.2 := by
    have there : manager.world.derived.lookup ref = some (.hookZmq hook) := kind
    change manager.world.start_ platform ref = _
    unfold World.start_
    rw [there]
  unfold Manager.blockStart
  simp only [found, idle]
  exact congrArg (fun world => (true, (manager.setStarted ref true).called (.start_ ref) world))
    world

/-- What `block_stop` does to a started hook. -/
theorem blockStop_hook (found : manager.blocks.find id = some (ref, block))
    (running : block.is_started_ = true) (kind : manager.kind ref = some (.hookZmq hook)) :
    let stopped := hook.stop_ manager.world.polling manager.world.zmq
    manager.blockStop (virtual platform) id =
      (true, (manager.setStarted ref false).called (.stop_ ref)
        { manager.world with polling := stopped.1, zmq := stopped.2 }) := by
  intro stopped
  have world : (manager.setStarted ref false).world.stop_ ref =
      { manager.world with polling := stopped.1, zmq := stopped.2 } := by
    have there : manager.world.derived.lookup ref = some (.hookZmq hook) := kind
    change manager.world.stop_ ref = _
    unfold World.stop_
    rw [there]
  unfold Manager.blockStop
  simp only [found, running]
  exact congrArg (fun world => (true, (manager.setStarted ref false).called (.stop_ ref) world))
    world

/-- The failure of a step leaves the hook with what the steps before have acquired. -/
theorem unnoticed_of_failedStep {failed : StartStep}
    (found : manager.blocks.find id = some (ref, block)) (idle : block.is_started_ = false)
    (kind : manager.kind ref = some (.hookZmq hook))
    (fails : hook.failedStep platform manager.world.zmq = some failed) :
    Unnoticed manager ref failed
      (hook.start_ platform ref manager.world.polling manager.world.zmq).1
      (manager.blockStart (virtual platform) id).2 := by
  let started := hook.start_ platform ref manager.world.polling manager.world.zmq
  obtain ⟨object, -⟩ := Registry.find_eq_some_iff.mp found
  obtain ⟨made, given, kept⟩ :=
    hook.start_opens platform ref manager.world.polling manager.world.zmq
  have gives_up : hook.joins platform manager.world.zmq = false := by
    refine Bool.eq_false_iff.mpr fun joined => ?_
    rw [(hook.joins_iff platform manager.world.zmq).mp joined] at fails
    cases fails
  have polling := hook.start_polling platform ref manager.world.polling manager.world.zmq
  rw [gives_up, if_neg Bool.false_ne_true] at polling
  rw [blockStart_hook found idle kind]
  refine ⟨?_, Finmap.lookup_insert _, polling, made, ?_, ?_, fun address own => ?_, ?_⟩
  · exact (Registry.started_setStarted object true ref).trans (if_pos rfl)
  · rw [made, ← Zmq.contexts_create platform]
    exact kept.contexts
  · rw [given, ← HookZmq.failedStep_socket_iff, fails, Option.some.injEq]
  · rw [given] at own
    rcases manager.world.zmq.create_cases platform with
      ⟨null, -⟩ | ⟨address', socket, there, ctx, free, others⟩
    · cases null.symm.trans own
    · obtain rfl := Option.some.inj (own.symm.trans there)
      have opened := (others (some address)).trans (if_pos rfl)
      obtain ⟨socket', there', same⟩ := kept.opened opened
      exact ⟨free, socket', there', same.trans (ctx.trans made.symm)⟩
  · exact (hook.start_registers platform ref manager.world.polling manager.world.zmq).zmq

/-- Stopping a started hook releases what it holds. -/
theorem released_of_blockStop (found : manager.blocks.find id = some (ref, block))
    (running : block.is_started_ = true) (kind : manager.kind ref = some (.hookZmq hook)) :
    (manager.blockStop (virtual platform) id).1 = true ∧
      Released manager ref hook (manager.blockStop (virtual platform) id).2 := by
  obtain ⟨object, -⟩ := Registry.find_eq_some_iff.mp found
  rw [blockStop_hook found running kind]
  refine ⟨rfl, ?_, ?_, ?_⟩
  · exact (Registry.started_setStarted object false ref).trans (if_pos rfl)
  · exact congrArg (fun contexts => contexts.erase hook.zmq_ctx_)
      (manager.world.zmq.contexts_close hook.zmq_sock_.socket)
  · exact manager.world.zmq.lookup_close hook.zmq_sock_.socket

end

/-- A start of a hook that fails is neither reported nor undone. Whichever step fails, `block_start`
returns true, and so does a remote START: the block counts as started, and holds the context of
that start, and the socket if that was created. The polling tables are unchanged. A `block_stop`
that follows releases both. -/
theorem blockStart_failed (platform : Platform) {manager : BlockManager} {id : Int}
    {ref : BlockRef} {block : Block} {hook : HookZmq} {failed : StartStep}
    (found : manager.blocks.find id = some (ref, block)) (idle : block.is_started_ = false)
    (kind : manager.kind ref = some (.hookZmq hook))
    (fails : hook.failedStep platform manager.world.zmq = some failed) :
    ∃ hook' after, manager.blockStart (virtual platform) id = (true, after) ∧
      (∀ data, platform.unpack data = some (.start id) →
        protoCommandParse platform data manager = .ok (true, after)) ∧
      Unnoticed manager ref failed hook' after ∧
      (after.blockStop (virtual platform) id).1 = true ∧
      Released after ref hook' (after.blockStop (virtual platform) id).2 := by
  obtain ⟨world, reported⟩ : ∃ world, manager.blockStart (virtual platform) id =
      (true, (manager.setStarted ref true).called (.start_ ref) world) :=
    ⟨_, blockStart_hook found idle kind⟩
  have unnoticed := unnoticed_of_failedStep found idle kind fails
  rw [reported] at unnoticed
  have found_after : (manager.blocks.setStarted ref true).find id =
      some (ref, { block with is_started_ := true }) :=
    (Registry.find_setStarted found true id).trans (if_pos rfl)
  refine ⟨_, _, reported, fun data unpacked => ?_, unnoticed,
    released_of_blockStop found_after rfl unnoticed.kind⟩
  unfold protoCommandParse
  rw [unpacked]
  exact congrArg Except.ok reported

/-! ## What a failed start is not -/

/-- The start was reported as a failure, and nothing of it is left. -/
structure ReportedAndUndone (before : BlockManager) (ref : BlockRef)
    (result : Bool × BlockManager) : Prop where
  /-- The result is a failure. -/
  reported : result.1 = false
  /-- The block is not started. -/
  idle : result.2.blocks.started ref = false
  /-- The polling tables are unchanged. -/
  polling : result.2.world.polling = before.world.polling
  /-- No context of the start is open. -/
  contexts : result.2.world.zmq.contexts = before.world.zmq.contexts
  /-- No socket of the start is open. -/
  sockets : ∀ address,
    result.2.world.zmq.lookup address ≠ none → before.world.zmq.lookup address ≠ none

/-- A platform on which nothing can be connected to. -/
def unreachable : Platform :=
  { Platform.plain fun _ => some (.start 1) with connect := fun _ => false }

/-- A client. -/
def unconnected : HookZmq :=
  { HookZmq.new (unreachable.hookMemory 0) with client_ := true, type_ := ZMQ_DEALER }

/-- A hook that has been added and configured as a client, and not been started. -/
def configuredHook : BlockManager :=
  BlockManager.setDerived (repository.blockAdd (virtual unreachable) 1 "hook_zmq").2 0
    (.hookZmq unconnected)

/-- The connection fails, and START is answered with a success. -/
theorem blockStart_failed_connect :
    ∃ hook' after, configuredHook.blockStart (virtual unreachable) 1 = (true, after) ∧
      protoCommandParse unreachable [1] configuredHook = .ok (true, after) ∧
      Unnoticed configuredHook 0 .connect hook' after := by
  have found : configuredHook.blocks.find 1 = some (0, ⟨1, "hook_zmq", false, none⟩) := by decide
  have fails : unconnected.failedStep unreachable configuredHook.world.zmq = some .connect := by
    decide
  obtain ⟨hook', after, started, parsed, unnoticed, -⟩ :=
    blockStart_failed unreachable found rfl rfl fails
  exact ⟨hook', after, started, parsed [1] rfl, unnoticed⟩

theorem blockStart_not_undone :
    configuredHook.kind 0 = some (.hookZmq unconnected) ∧
      unconnected.failedStep unreachable configuredHook.world.zmq = some .connect ∧
      ¬ ReportedAndUndone configuredHook 0
        (configuredHook.blockStart (virtual unreachable) 1) :=
  ⟨by decide, by decide, fun undone => absurd undone.reported (by decide)⟩

end C3qo
