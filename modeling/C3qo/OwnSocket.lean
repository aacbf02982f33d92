import C3qo.LifeCycle
import C3qo.Sockets
import C3qo.Visits

/-!
# The socket that a hook uses

A hook hands what it gets to the socket in its field, whether it is started or not. The field holds
a socket of its own exactly as long as the hook is started: it is not set before the first start,
and stopping the hook closes the socket without resetting the field.
-/

namespace C3qo

/-- The claims of the started hooks are in order. -/
def Held (manager : BlockManager) : Prop :=
  Custody (manager.world.claims manager.blocks) manager.world.zmq

namespace Held

variable {platform : Platform} {before after : BlockManager}

/-- A block may get other fields of its kind, if a hook keeps its context and its descriptor. -/
theorem setDerived (held : Held before) {ref : BlockRef} {old derived : Derived}
    (kind : before.kind ref = some old) (kept : derived.claim = old.claim) :
    Held (before.setDerived ref derived) := by
  have same : (before.setDerived ref derived).world.claims before.blocks =
      before.world.claims before.blocks := by
    refine World.claims_congr (fun _ => rfl) fun other _ => ?_
    by_cases here : other = ref
    · subst here
      have there : before.world.derived.lookup other = some old := kind
      have there' : (before.setDerived other derived).world.derived.lookup other = some derived :=
        before.kind_setDerived other derived
      rw [there, there']
      exact kept
    · exact congrArg (fun found => found >>= Derived.claim)
        (before.kind_setDerived_of_ne derived here)
  unfold Held
  exact same ▸ held

theorem zmq (held : Held before) {zmq : Zmq} (kept : before.world.zmq.Keeps zmq) :
    Held { before with world := { before.world with zmq := zmq } } :=
  Custody.keeps held kept

theorem changed (held : Held before) (change : Change (virtual platform) before after) :
    Held after := by
  cases change with
  | same after blocks world trace =>
      unfold Held
      rw [blocks, world]
      exact held
  | refused factory world answer =>
      obtain rfl := World.constructor_false answer
      exact held
  | built id type_ factory free registered world answer =>
      have claims := World.claims_insert answer id type_ free
      obtain ⟨-, -, zmq, -⟩ := World.constructor_frame answer
      change Custody (world.claims (before.blocks.insert id type_ free)) world.zmq
      rw [claims, zmq]
      exact held
  | started ref block object idle => exact World.custody_start platform held object idle
  | bound src port dst live_src live_dst =>
      have claims : before.world.claims (before.blocks.setSink src dst) =
          before.world.claims before.blocks :=
        World.claims_congr (before.blocks.started_setSink src dst) fun _ _ => rfl
      change Custody (before.world.claims (before.blocks.setSink src dst)) before.world.zmq
      rw [claims]
      exact held

end Held

/-- The claims stay in order, whatever blocks do. -/
theorem steady_held (platform : Platform) : Steady platform Held where
  record _ _ held := held
  counted _ _ _ _ _ kind held := held.setDerived kind rfl
  hook manager ref hook hook' zmq kind ctx sock kept held := by
    have configured : Held (BlockManager.setDerived manager ref (.hookZmq hook')) :=
      held.setDerived kind (by simp only [Derived.claim, HookZmq.claim, ctx, sock])
    exact configured.zmq kept
  zmq _ _ kept held := held.zmq kept
  operation manager operation held := by
    refine Operation.perform_preserves (virtual platform) manager Held
      (fun after change => held.changed change) ?_ ?_
    · intro id ref block _ found running
      exact World.custody_stop held (Registry.find_eq_some_iff.mp found).1 running
    intro ref block factory object idle registered
    have claims : (manager.world.destructor ref).claims (manager.blocks.remove block.id_) =
        manager.world.claims manager.blocks := World.claims_destructor object idle
    change Custody ((manager.world.destructor ref).claims (manager.blocks.remove block.id_))
      manager.world.zmq
    rw [claims]
    exact held
  stop_ _ held := held

/-- The calls on blocks are tracked, whatever blocks do. -/
theorem stable_tracked (platform : Platform) :
    Stable platform (Tracked : BlockManager → Prop) where
  record _ _ tracked := tracked
  counted _ _ _ _ _ _ tracked := tracked
  hook _ _ _ _ _ _ _ tracked := tracked
  zmq _ _ tracked := tracked
  operation manager operation tracked := by
    have taken : (Step.operation operation).perform (virtual platform) manager =
        some (operation.perform (virtual platform) manager) := rfl
    exact tracked.step taken
  stop_ _ tracked := tracked

theorem held_of_visited {platform : Platform} {identity : String} {manager : BlockManager}
    (visited : Visited platform identity manager) : Held manager :=
  (steady_held platform).visited Tidy.unclaimed.toCustody (fun _ held => held) visited

theorem tracked_of_visited {platform : Platform} {identity : String} {manager : BlockManager}
    (visited : Visited platform identity manager) : Tracked manager :=
  (stable_tracked platform).steady.visited (tracked_new _) (fun _ tracked => tracked) visited

/-- The socket of the hook is the one that `zmq_socket` returned in its `start_` since its last
`stop_`, and has not been closed. -/
structure OwnSocket (manager : BlockManager) (ref : BlockRef) (hook : HookZmq) : Prop where
  /-- Of the calls that build, start, stop and destroy the hook, `start_` is the last one. -/
  since : (phases ref manager.trace).getLast? = some (.start_ ref)
  /-- The socket, unless null was returned, is open in the context of the hook. -/
  opened : ∀ address, hook.zmq_sock_.socket = some address → ∃ socket,
    manager.world.zmq.lookup (some address) = some socket ∧ socket.ctx = hook.zmq_ctx_
  /-- No other started hook has that context. -/
  alone : ∀ other hook', other ≠ ref → manager.isStarted other = true →
    manager.kind other = some (.hookZmq hook') → hook'.zmq_ctx_ ≠ hook.zmq_ctx_

/-- A hook that starts makes a context for itself, takes what `zmq_socket` returns for it, and uses
no socket but that one. -/
structure StartsAfresh (platform : Platform) (ref : BlockRef) (hook : HookZmq) (world : World) :
    Prop where
  /-- No open socket is in the context. -/
  fresh : ∀ address socket, world.zmq.lookup address = some socket →
    socket.ctx ≠ (hook.start_ platform ref world.polling world.zmq).1.zmq_ctx_
  /-- The socket is the answer of `zmq_socket` in the context. -/
  socket : (hook.start_ platform ref world.polling world.zmq).1.zmq_sock_.socket =
    (world.zmq.ctxNew.2.socket platform
      (hook.start_ platform ref world.polling world.zmq).1.zmq_ctx_).1
  /-- All other sockets are as they were. -/
  others : ∀ other,
    (hook.start_ platform ref world.polling world.zmq).1.zmq_sock_.socket ≠ other →
    (hook.start_ platform ref world.polling world.zmq).2.2.lookup other = world.zmq.lookup other

/-- In every state that `c3qo` passes, the states in which `data_` is called included, the socket
that a hook sends to is its own if and only if the hook is started. A start gives it its own. -/
theorem hook_ownSocket_iff (platform : Platform) (identity : String) (manager : BlockManager)
    (visited : Visited platform identity manager) (ref : BlockRef) (hook : HookZmq)
    (kind : manager.kind ref = some (.hookZmq hook)) :
    (OwnSocket manager ref hook ↔ manager.isStarted ref = true) ∧
      StartsAfresh platform ref hook manager.world := by
  have custody : Custody (manager.world.claims manager.blocks) manager.world.zmq :=
    held_of_visited visited
  have last := (tracked_of_visited visited).started_iff ref
  refine ⟨⟨fun own => last.mpr own.since, fun started => ?_⟩, ?_⟩
  · have held := World.claims_of_hook started kind
    refine ⟨last.mp started, fun address named => custody.opened ref _ address held named, ?_⟩
    intro other hook' different running kind' shared
    exact different
      (custody.apart other ref _ _ (World.claims_of_hook running kind') held shared)
  · obtain ⟨ctx, socket, -⟩ := hook.start_opens platform ref manager.world.polling
      manager.world.zmq
    refine ⟨fun address open_ there => ?_, ?_, ?_⟩
    · rw [ctx]
      exact Nat.ne_of_lt (custody.created address open_ there)
    · rw [ctx]
      exact socket
    · exact (hook.start_registers platform ref manager.world.polling manager.world.zmq).zmq

/-- A platform with commands about two more hooks, on which the second of them gets the address
that the first one has given back. -/
def reusing : Platform :=
  { Platform.plain fun payload => [(([1] : Bytes), Command.add 5 "hook_zmq"), ([2], .start 5),
      ([3], .stop 5), ([4], .add 6 "hook_zmq"), ([5], .start 6), ([6], .bind (-2) 0 5)].lookup
        payload with
    socket := fun call => some (min call 2) }

/-- The first hook is added, started and stopped, the second one is added and started, and the
command to send replies to the first one arrives. -/
def reuses : List Activity :=
  [commandArrives [1], .onFd clientDesc 3, commandArrives [2], .onFd clientDesc 3,
    commandArrives [3], .onFd clientDesc 3, commandArrives [4], .onFd clientDesc 3,
    commandArrives [5], .onFd clientDesc 3, commandArrives [6]]

/-- A block that claims a socket is a hook. -/
theorem exists_hook_of_claim {manager : BlockManager} {ref : BlockRef} {socket : Pointer}
    (claimed : (manager.kind ref >>= Derived.claim).map Claim.socket = some socket) :
    ∃ hook, manager.kind ref = some (.hookZmq hook) ∧ hook.zmq_sock_.socket = socket := by
  obtain ⟨claim, held, named⟩ := Option.map_eq_some_iff.mp claimed
  obtain ⟨derived, kind, own⟩ := Option.bind_eq_some_iff.mp held
  cases derived with
  | hookZmq hook =>
      obtain rfl := Option.some.inj own
      exact ⟨hook, kind, named⟩
  | hello | transPb => cases own

/-- Both hooks hold the same address then. It is the socket of the one that is started. -/
theorem hook_ownSocket_reused : ∃ manager first second,
    Execution.run (Activity.perform reusing) reuses (c3qoMain reusing "c3qo") = some manager ∧
      manager.kind 2 = some (.hookZmq first) ∧ manager.kind 3 = some (.hookZmq second) ∧
      first.zmq_sock_.socket = second.zmq_sock_.socket ∧
      ¬ OwnSocket manager 2 first ∧ OwnSocket manager 3 second := by
  have outcome : (Execution.run (Activity.perform reusing) reuses (c3qoMain reusing "c3qo")).map
      (fun manager => ((manager.kind 2 >>= Derived.claim).map Claim.socket,
        (manager.kind 3 >>= Derived.claim).map Claim.socket, manager.isStarted 2,
        manager.isStarted 3)) = some (some (some 2), some (some 2), false, true) := by
    decide +kernel
  obtain ⟨manager, execution, facts⟩ := Option.map_eq_some_iff.mp outcome
  simp only [Prod.mk.injEq] at facts
  obtain ⟨first_claims, second_claims, idle, running⟩ := facts
  obtain ⟨first, kind, named⟩ := exists_hook_of_claim first_claims
  obtain ⟨second, kind', named'⟩ := exists_hook_of_claim second_claims
  have visited : Visited reusing "c3qo" manager := .waiting reuses manager execution
  refine ⟨manager, first, second, execution, kind, kind', named.trans named'.symm,
    fun own => ?_, ?_⟩
  · have started := (hook_ownSocket_iff reusing "c3qo" manager visited 2 first kind).1.mp own
    rw [idle] at started
    cases started
  · exact (hook_ownSocket_iff reusing "c3qo" manager visited 3 second kind').1.mpr running

/-- The reply to the last command is handed to the first hook, which has been stopped. It goes out
on the socket of the second one, which has got its address. -/
theorem hook_sends_to_reused : ∃ manager state hook after,
    Execution.run (Activity.perform reusing) reuses (c3qoMain reusing "c3qo") = some manager ∧
      clientDesc ∈ manager.world.polling.callback_ ∧
      .data_ 2 (some (replyBuffer true)) state ∈ (onFdCalls reusing 3 clientDesc manager).1 ∧
      state.kind 2 = some (.hookZmq hook) ∧ state.isStarted 2 = false ∧
      (state.world.claims state.blocks 3).map Claim.socket = some hook.zmq_sock_.socket ∧
      onFd reusing 3 clientDesc manager = .ok after ∧
      (after.world.zmq.lookup hook.zmq_sock_.socket).map Socket.sent =
        some (framesOf (replyBuffer true).parts_) ∧
      ¬ OwnSocket state 2 hook := by
  have outcome : (Execution.run (Activity.perform reusing) reuses (c3qoMain reusing "c3qo")).any
      (fun manager => clientDesc ∈ manager.world.polling.callback_ ∧
        (onFdCalls reusing 3 clientDesc manager).1[3]?.map (fun call =>
          (call.handled, (call.manager.kind 2 >>= Derived.claim).map Claim.socket,
            (call.manager.world.claims call.manager.blocks 3).map Claim.socket)) =
          some (.data_ 2 (some (replyBuffer true)) false, some (some 2), some (some 2)) ∧
        ((onFd reusing 3 clientDesc manager).toOption >>= fun after =>
          (after.world.zmq.lookup (some 2)).map Socket.sent) =
          some (framesOf (replyBuffer true).parts_)) = true := by decide +kernel
  rcases execution : Execution.run (Activity.perform reusing) reuses (c3qoMain reusing "c3qo") with
    _ | manager
  · rw [execution] at outcome
    cases outcome
  · rw [execution] at outcome
    obtain ⟨polled, calls, result⟩ := of_decide_eq_true outcome
    obtain ⟨call, there, facts⟩ := Option.map_eq_some_iff.mp calls
    obtain ⟨after, done, sent⟩ := Option.bind_eq_some_iff.mp result
    simp only [Prod.mk.injEq] at facts
    obtain ⟨handled, claimed, taken⟩ := facts
    have member := List.mem_of_getElem? there
    have returned : onFd reusing 3 clientDesc manager = .ok after := by
      cases ended : onFd reusing 3 clientDesc manager with
      | error fault =>
          rw [ended] at done
          cases done
      | ok final =>
          rw [ended] at done
          exact congrArg Except.ok (Option.some.inj done)
    cases call with
    | command | reply => cases handled
    | data_ ref vdata state =>
        obtain ⟨rfl, rfl, idle⟩ := Handled.data_.inj handled
        obtain ⟨hook, kind, socket⟩ := exists_hook_of_claim claimed
        have visited : Visited reusing "c3qo" state :=
          .calling reuses manager execution clientDesc polled 3 _ member
        refine ⟨manager, state, hook, after, rfl, polled, member, kind, idle,
          taken.trans (congrArg some socket.symm), returned, socket ▸ sent, fun own => ?_⟩
        have started := ((tracked_of_visited visited).started_iff 2).mpr own.since
        exact Bool.false_ne_true (idle.symm.trans started)

end C3qo
