import C3qo.LifeCycle
import C3qo.Sockets
import C3qo.TimerMap

/-!
# A program with an `ncli`

The blocks of the repository together with the block `ncli` of the application of that name, in a
manager whose environment may interrupt `zmq_ctx_term`. What data flows do is given by the host.
-/

namespace C3qo

/-- The factories of the repository and of `ncli.cpp`. -/
inductive HostFactory
  /-- A factory of the repository. -/
  | block (factory : Factory)
  /-- `ncli_factory`. -/
  | ncli
  deriving DecidableEq

/-- What a program runs on. -/
structure Host where
  /-- The answers of ZeroMQ, `zmq_ctx_term` apart. -/
  platform : Platform
  /-- A signal interrupts `zmq_ctx_term`. -/
  interrupted : Nat → Bool
  /-- What the clock shows when `timer_add` reads it. -/
  clock : Nat → Timespec
  /-- What a data flow from a block does, by its number. -/
  flow : Nat → BlockRef → World → World

/-- The state outside of the block map. -/
structure HostWorld where
  /-- The blocks of the repository, timers, polling set and sockets. -/
  world : World
  /-- The `ncli` blocks. -/
  nclis : Finset BlockRef
  /-- The number of times that `timer_add` has read the clock. -/
  readings : Nat
  /-- The blocks whose last `start_` got past `zmq_bind` or `zmq_connect`; not part of the
  program. -/
  joined : Finset BlockRef

/-- A manager of such a program. -/
abbrev HostManager := Manager HostFactory HostWorld

/-- `zmq_ctx_term`. When it is interrupted the context stays open. -/
def Zmq.ctxTermOr (interrupted : Nat → Bool) (ctx : Nat) (zmq : Zmq) : Zmq :=
  if interrupted zmq.calls then zmq.tick else zmq.ctxTerm ctx

/-- `hook_zmq::stop_`, where `zmq_ctx_term` may be interrupted: its result is not looked at. -/
def HookZmq.stopOr (interrupted : Nat → Bool) (hook : HookZmq) (polling : Polling) (zmq : Zmq) :
    Polling × Zmq :=
  (polling.fdRemove hook.zmq_sock_,
    (zmq.close hook.zmq_sock_.socket).ctxTermOr interrupted hook.zmq_ctx_)

/-- The timer that `ncli::start_` adds and `ncli::stop_` deletes. -/
def ncliTimer (ref : BlockRef) : Timer := ⟨some ref, ⟨1, 0⟩, none, 1⟩

namespace HostWorld

/-- No blocks. -/
def empty : HostWorld := ⟨.empty, ∅, 0, ∅⟩

/-- The constructors of the factories. -/
def constructor (host : Host) (factory : HostFactory) (ref : BlockRef) (state : HostWorld) :
    Bool × HostWorld :=
  match factory with
  | .block factory =>
      let (built, world) := state.world.constructor host.platform factory ref
      (built, { state with world := world })
  | .ncli => (true, { state with nclis := insert ref state.nclis })

/-- The destructors of the factories. -/
def destructor (ref : BlockRef) (state : HostWorld) : HostWorld :=
  { state with world := state.world.destructor ref, nclis := state.nclis.erase ref }

theorem constructor_false {host : Host} {factory : HostFactory} {ref : BlockRef}
    {state after : HostWorld} (refused : constructor host factory ref state = (false, after)) :
    after = state := by
  cases factory with
  | ncli => cases refused
  | block factory =>
      rcases made : state.world.constructor host.platform factory ref with ⟨built, world⟩
      simp only [constructor, made, Prod.mk.injEq] at refused
      obtain ⟨rfl, rfl⟩ := refused
      rw [World.constructor_false made]

/-- `start_`, by the kind of the block. A `ncli` sends its command before it adds its timer; one
that has no options yet would not survive its `start_`, which the model lets pass. -/
def start_ (host : Host) (ref : BlockRef) (state : HostWorld) : HostWorld :=
  match state.world.derived.lookup ref with
  | some (.hookZmq hook) =>
      let joined := hook.joins host.platform state.world.zmq
      { state with
        world := state.world.start_ host.platform ref
        joined := if joined then insert ref state.joined else state.joined.erase ref }
  | some _ => { state with world := state.world.start_ host.platform ref }
  | none =>
      if ref ∈ state.nclis then
        let world := host.flow state.readings ref state.world
        let (_, tm_list_) := timerAdd (host.clock state.readings) (ncliTimer ref) world.tm_list_
        { state with
          world := { world with tm_list_ := tm_list_ }, readings := state.readings + 1 }
      else
        state

/-- `stop_`, by the kind of the block. -/
def stop_ (host : Host) (ref : BlockRef) (state : HostWorld) : HostWorld :=
  match state.world.derived.lookup ref with
  | some (.hookZmq hook) =>
      let (polling, zmq) := hook.stopOr host.interrupted state.world.polling state.world.zmq
      { state with world := { state.world with polling := polling, zmq := zmq } }
  | some _ => state
  | none =>
      if ref ∈ state.nclis then
        let tm_list_ := timerDel (ncliTimer ref) state.world.tm_list_
        { state with world := { state.world with tm_list_ := tm_list_ } }
      else
        state

/-- Starting a block of the repository that is no hook does nothing. -/
theorem start_of_other {host : Host} {ref : BlockRef} {state : HostWorld} {derived : Derived}
    (kind : state.world.derived.lookup ref = some derived)
    (other : ∀ hook, derived ≠ .hookZmq hook) : state.start_ host ref = state := by
  have no_hook : ∀ hook, state.world.derived.lookup ref ≠ some (.hookZmq hook) := by
    simpa [kind] using other
  cases derived with
  | hookZmq hook => exact absurd rfl (other hook)
  | _ => simp only [start_, kind, World.start_of_other no_hook]

/-- Stopping it does nothing either. -/
theorem stop_of_other {host : Host} {ref : BlockRef} {state : HostWorld} {derived : Derived}
    (kind : state.world.derived.lookup ref = some derived)
    (other : ∀ hook, derived ≠ .hookZmq hook) : state.stop_ host ref = state := by
  cases derived with
  | hookZmq hook => exact absurd rfl (other hook)
  | _ => simp only [stop_, kind]

end HostWorld

/-- The virtual functions of the blocks. -/
def hostVirtual (host : Host) : Virtual HostFactory HostWorld where
  constructor := HostWorld.constructor host
  destructor _ := HostWorld.destructor
  start_ ref manager := manager.world.start_ host ref
  stop_ ref manager := manager.world.stop_ host ref
  bind_ _ _ _ manager := manager.world

namespace HostManager

/-- The hook behind a pointer. -/
def hook (manager : HostManager) (ref : BlockRef) : Option HookZmq :=
  match manager.world.world.derived.lookup ref with
  | some (.hookZmq hook) => some hook
  | _ => none

/-- The manager with another state of the repository's blocks. -/
def setWorld (manager : HostManager) (world : World) : HostManager :=
  { manager with world := { manager.world with world := world } }

theorem hook_eq_some_iff {manager : HostManager} {ref : BlockRef} {hook : HookZmq} :
    manager.hook ref = some hook ↔
      manager.world.world.derived.lookup ref = some (.hookZmq hook) := by
  unfold HostManager.hook
  split
  · rename_i there
    rw [there]
    simp
  · rename_i other
    exact iff_of_false (by simp) (other hook)

end HostManager

/-- A step of a program. -/
inductive HostStep
  /-- An operation of the manager. -/
  | operation (action : Operation HostFactory)
  /-- The loop of `block_clear` comes to a key of the map. -/
  | blockClearIter (id : Int)
  /-- A command configures a hook. -/
  | configure (id : Int) (client : Bool) (type_ : Int) (name addr : String)
  /-- `timer_check_exp` takes an expired timer off the list and calls `on_timer_`, which changes
  nothing that is modelled. -/
  | fire (time : Timespec) (tm : Timer)
  /-- A data flow. -/
  | flow (number : Nat) (ref : BlockRef)

/-- Take a step. A configuration has a result only if it is for a hook. -/
def HostStep.perform (host : Host) : HostStep → HostManager → Option HostManager
  | .operation action, manager => some (action.perform (hostVirtual host) manager)
  | .blockClearIter id, manager =>
      if manager.blocks.get id = none then
        none
      else
        some (manager.blockClearIter (hostVirtual host) id)
  | .configure id client type_ name addr, manager =>
      manager.blockGet id >>= fun ref => (HostManager.hook manager ref).map fun hook =>
        HostManager.setWorld manager { manager.world.world with
          derived := manager.world.world.derived.insert ref (.hookZmq
            { hook with client_ := client, type_ := type_, name_ := name, addr_ := addr }) }
  | .fire time tm, manager =>
      ((TimerStep.fire time tm).perform manager.world.world.tm_list_).map fun tm_list_ =>
        HostManager.setWorld manager { manager.world.world with tm_list_ := tm_list_ }
  | .flow number ref, manager =>
      some (HostManager.setWorld manager (host.flow number ref manager.world.world))

/-- The timers, the polling set and the open contexts and sockets are the same, and blocks are of
the same kinds and hold the same. -/
structure SameTables (before after : World) : Prop where
  /-- The timers are the same. -/
  tm_list_ : after.tm_list_ = before.tm_list_
  /-- The polling set is the same. -/
  polling : after.polling = before.polling
  /-- Nothing is opened or closed. -/
  zmq : before.zmq.Keeps after.zmq
  /-- Blocks stay of their kinds. -/
  kinds : ∀ ref, (after.derived.lookup ref).map Derived.factory =
    (before.derived.lookup ref).map Derived.factory
  /-- Hooks keep their contexts and descriptors. -/
  claims : ∀ ref, after.derived.lookup ref >>= Derived.claim =
    before.derived.lookup ref >>= Derived.claim

/-- Data flows do not by themselves change the tables. -/
def Host.KeepsTables (host : Host) : Prop :=
  ∀ number ref world, SameTables world (host.flow number ref world)

end C3qo
