import C3qo.Routes

/-!
# What data flows keep

A property of the manager that the operations and the small changes made by blocks keep is kept
by whole flows, with the command that one of them may bring and its reply, and so by whatever a
hook does with a message.
-/

namespace C3qo

/-- A property that no change which a block makes on its own loses. -/
structure Stable (platform : Platform) (Holds : BlockManager → Prop) : Prop where
  /-- Records do not matter. -/
  record : ∀ manager handled, Holds manager → Holds (BlockManager.record manager handled)
  /-- Neither do packet counts. -/
  counted : ∀ manager ref name_ count_ count_',
    BlockManager.kind manager ref = some (.hello name_ count_) → Holds manager →
      Holds (manager.setDerived ref (.hello name_ count_'))
  /-- Neither do the fields of a hook other than its descriptor, or the frames of sockets. -/
  hook : ∀ manager ref hook hook' zmq, BlockManager.kind manager ref = some (.hookZmq hook) →
    hook'.zmq_sock_ = hook.zmq_sock_ → Holds manager →
      Holds { manager with world := manager.world.withHook ref hook' manager.world.polling zmq }
  /-- Nor do the frames of sockets on their own. -/
  zmq : ∀ manager zmq, Holds manager →
    Holds { manager with world := { manager.world with zmq := zmq } }
  /-- The operations of the manager keep it. -/
  operation : ∀ manager operation, Holds manager →
    Holds (Operation.perform (virtual platform) manager operation)
  /-- The end of the main loop does not matter. -/
  stop_ : ∀ manager, Holds manager → Holds manager.stop_

/-- A property that no change which a block makes on its own loses, given that data flows open
and close no socket. -/
structure Steady (platform : Platform) (Holds : BlockManager → Prop) : Prop where
  /-- Records do not matter. -/
  record : ∀ manager handled, Holds manager → Holds (BlockManager.record manager handled)
  /-- Neither do packet counts. -/
  counted : ∀ manager ref name_ count_ count_',
    BlockManager.kind manager ref = some (.hello name_ count_) → Holds manager →
      Holds (manager.setDerived ref (.hello name_ count_'))
  /-- Neither do the fields of a hook other than its context and its descriptor, or the frames of
  sockets. -/
  hook : ∀ manager ref hook hook' zmq, BlockManager.kind manager ref = some (.hookZmq hook) →
    hook'.zmq_ctx_ = hook.zmq_ctx_ → hook'.zmq_sock_ = hook.zmq_sock_ →
    manager.world.zmq.Keeps zmq → Holds manager →
      Holds { manager with world := manager.world.withHook ref hook' manager.world.polling zmq }
  /-- Nor do the frames of sockets on their own. -/
  zmq : ∀ manager zmq, manager.world.zmq.Keeps zmq → Holds manager →
    Holds { manager with world := { manager.world with zmq := zmq } }
  /-- The operations of the manager keep it. -/
  operation : ∀ manager operation, Holds manager →
    Holds (Operation.perform (virtual platform) manager operation)
  /-- The end of the main loop does not matter. -/
  stop_ : ∀ manager, Holds manager → Holds manager.stop_

theorem Stable.steady {platform : Platform} {Holds : BlockManager → Prop}
    (stable : Stable platform Holds) : Steady platform Holds where
  record := stable.record
  counted := stable.counted
  hook manager ref hook hook' zmq kind _ same _ := stable.hook manager ref hook hook' zmq kind same
  zmq manager zmq _ := stable.zmq manager zmq
  operation := stable.operation
  stop_ := stable.stop_

namespace Steady

variable {platform : Platform} {Holds : BlockManager → Prop} (steady : Steady platform Holds)
  {before after : BlockManager}

include steady

/-- Commands keep it. -/
theorem protoCommandParse {payload : Bytes} {is_ok : Bool} (start : Holds before)
    (executed : protoCommandParse platform payload before = .ok (is_ok, after)) :
    Holds after := by
  rcases protoCommandParse_cases executed with
    rfl | ⟨operation, -, rfl⟩ | ⟨ref, hook, hook', kind, ctx, sock, rfl⟩ | rfl
  · exact start
  · exact steady.operation before operation start
  · exact steady.hook before ref hook hook' before.world.zmq kind ctx sock (.refl _) start
  · exact steady.stop_ before start

/-- What one block does with its data keeps it. -/
theorem blockData {depth : Nat} {running : List BlockRef} {vdata : Option Buffer} {ref : BlockRef}
    {forward : Bool} (start : Holds before)
    (handed : blockData platform depth running vdata ref before = .ok (forward, after)) :
    Holds after := by
  induction depth generalizing running vdata ref before forward after with
  | zero => cases handed
  | succ depth ih =>
      have start' : Holds (received before ref vdata) := steady.record _ _ start
      rcases kind : before.kind ref with _ | ⟨⟨name_, count_⟩ | _ | hook⟩
      · rw [blockData_plain kind] at handed
        cases handed
        exact start'
      · rw [blockData_hello kind] at handed
        cases handed
        exact steady.counted _ _ _ _ _ kind start'
      · by_cases command : ∃ payload, IsCommand platform vdata payload
        · obtain ⟨payload, command⟩ := command
          rw [blockData_command kind command] at handed
          split at handed
          · cases handed
          · rename_i is_ok next executed
            split at handed
            · cases handed
            · -- The reply is a flow of its own, with less fuel.
              unfold replied at handed
              split at handed
              · cases handed
              · rename_i final done
                cases handed
                refine processData_preserves (fun sink middle forward next => ih) ?_ done
                exact steady.record _ _
                  (steady.protoCommandParse (steady.record _ _ start') executed)
        · rw [blockData_transPb kind (not_exists.mp command)] at handed
          cases handed
          exact start'
      · rw [blockData_hook kind] at handed
        cases handed
        exact steady.hook _ _ _ _ _ kind (hook.zmq_ctx_data _ _ _) (hook.zmq_sock_data _ _ _)
          (hook.keeps_data platform _ _) start'

/-- Whole flows keep it. -/
theorem flow {fuel : Nat} {running : List BlockRef} {vdata : Option Buffer} {source : BlockRef}
    (start : Holds before) (done : flow platform fuel running vdata source before = .ok after) :
    Holds after :=
  processData_preserves (fun _ _ _ _ => steady.blockData) start done

/-- What a hook has received keeps it. -/
theorem receipt {ref : BlockRef} {hook : HookZmq} (start : Holds before)
    (kind : before.kind ref = some (.hookZmq hook)) :
    Holds { before with
      world := before.world.withHook ref { hook with rx_pkt_ := hook.rx_pkt_ + 1 }
        before.world.polling (hook.recv_ Buffer.empty before.world.zmq).2.2 } :=
  steady.hook before ref hook _ _ kind rfl rfl (hook.keeps_recv _ _) start

/-- Whatever a hook does with an event keeps it. -/
theorem onFd {fuel : Nat} {desc : FileDesc} (start : Holds before)
    (done : onFd platform fuel desc before = .ok after) : Holds after := by
  unfold C3qo.onFd at done
  split at done
  · cases done
    exact start
  · split at done
    · cases done
    · split at done
      · rename_i hook kind
        split_ifs at done with own
        · dsimp only at done
          split_ifs at done
          · exact steady.flow (steady.receipt start kind) done
          · cases done
            exact steady.zmq _ _ (hook.keeps_recv _ _) start
        · cases done
          exact start
      · cases done
        exact start

end Steady

end C3qo
