import C3qo.Flow
import C3qo.HookZmq
import C3qo.Timer

/-!
# The blocks of the repository

The world of the manager when its blocks are those of the repository: the fields of each block by
kind, the timer list, the polling set and the ZeroMQ library.
-/

namespace C3qo

/-- The fields that a kind of block adds to `struct block`. -/
inductive Derived
  /-- `struct hello`: its name and its packet count. -/
  | hello (name_ : String) (count_ : Nat)
  /-- `struct trans_pb`. -/
  | transPb
  /-- `struct hook_zmq`. -/
  | hookZmq (hook : HookZmq)
  deriving DecidableEq

/-- The factories of the repository. -/
inductive Factory
  /-- `hello_factory`. -/
  | hello
  /-- `trans_pb_factory`. -/
  | transPb
  /-- `hook_zmq_factory`. -/
  | hookZmq
  /-- `factory_failure` of the unit tests, which returns null. -/
  | failure
  deriving DecidableEq

/-- The factory that builds blocks of a kind. -/
def Derived.factory : Derived → Factory
  | .hello _ _ => .hello
  | .transPb => .transPb
  | .hookZmq _ => .hookZmq

/-- What is recorded of the data flows; not part of the program. -/
inductive Handled
  /-- `data_` of a block was called, which was started or not. -/
  | data_ (ref : BlockRef) (vdata : Option Buffer) (started : Bool)
  /-- A `trans_pb` parsed a command. -/
  | command (ref : BlockRef) (data : Bytes)
  /-- `proto_command_reply` of a `trans_pb` was called. -/
  | reply (ref : BlockRef) (is_ok : Bool)
  deriving DecidableEq

/-- It is on record that `data_` of the block was called. -/
def Handled.isFor (ref : BlockRef) : Handled → Bool
  | .data_ other _ _ => decide (other = ref)
  | _ => false

/-- The state outside of the block map. -/
structure World where
  /-- The blocks by kind. -/
  derived : Finmap fun _ : BlockRef => Derived
  /-- Timers sorted by expiration. -/
  tm_list_ : List Timer
  /-- The polling set. -/
  polling : Polling
  /-- The ZeroMQ library. -/
  zmq : Zmq
  /-- The record of the data flows. -/
  log : List Handled

/-- A manager of the blocks of the repository. -/
abbrev BlockManager := Manager Factory World

namespace World

/-- No blocks, timers, descriptors or sockets. -/
def empty : World := ⟨∅, [], .empty, .empty, []⟩

/-- The world after a hook has changed itself, the polling set and the library. -/
def withHook (world : World) (ref : BlockRef) (hook : HookZmq) (polling : Polling) (zmq : Zmq) :
    World :=
  { world with
    derived := world.derived.insert ref (.hookZmq hook), polling := polling, zmq := zmq }

/-- The constructors of the factories. -/
def constructor (platform : Platform) (factory : Factory) (ref : BlockRef) (world : World) :
    Bool × World :=
  match factory with
  | .hello => (true, { world with derived := world.derived.insert ref (.hello "unknown" 0) })
  | .transPb => (true, { world with derived := world.derived.insert ref .transPb })
  | .hookZmq =>
      let hook := HookZmq.new (platform.hookMemory ref)
      (true, { world with derived := world.derived.insert ref (.hookZmq hook) })
  | .failure => (false, world)

/-- The destructors of the factories. -/
def destructor (ref : BlockRef) (world : World) : World :=
  { world with derived := world.derived.erase ref }

/-- `start_`, by the kind of the block. -/
def start_ (platform : Platform) (ref : BlockRef) (world : World) : World :=
  match world.derived.lookup ref with
  | some (.hookZmq hook) =>
      let (hook, polling, zmq) := hook.start_ platform ref world.polling world.zmq
      world.withHook ref hook polling zmq
  | _ => world

/-- `stop_`, by the kind of the block. -/
def stop_ (ref : BlockRef) (world : World) : World :=
  match world.derived.lookup ref with
  | some (.hookZmq hook) =>
      let (polling, zmq) := hook.stop_ world.polling world.zmq
      { world with polling := polling, zmq := zmq }
  | _ => world

theorem constructor_false {platform : Platform} {factory : Factory} {ref : BlockRef}
    {world after : World} (refused : constructor platform factory ref world = (false, after)) :
    after = world := by
  cases factory <;> simp [constructor] at refused
  exact refused.symm

theorem constructor_frame {platform : Platform} {factory : Factory} {ref : BlockRef}
    {world after : World} {built : Bool}
    (answer : constructor platform factory ref world = (built, after)) :
    after.tm_list_ = world.tm_list_ ∧ after.polling = world.polling ∧ after.zmq = world.zmq ∧
      ∀ other, other ≠ ref → after.derived.lookup other = world.derived.lookup other := by
  cases factory <;> simp only [constructor, Prod.mk.injEq] at answer <;>
    obtain ⟨-, rfl⟩ := answer
  case failure => exact ⟨rfl, rfl, rfl, fun _ _ => rfl⟩
  all_goals exact ⟨rfl, rfl, rfl, fun other different => Finmap.lookup_insert_of_ne _ different⟩

@[simp] theorem log_constructor (platform : Platform) (factory : Factory) (ref : BlockRef)
    (world : World) : (constructor platform factory ref world).2.log = world.log := by
  cases factory <;> rfl

@[simp] theorem log_start (platform : Platform) (ref : BlockRef) (world : World) :
    (world.start_ platform ref).log = world.log := by
  unfold start_
  split <;> rfl

@[simp] theorem log_stop (ref : BlockRef) (world : World) :
    (world.stop_ ref).log = world.log := by
  unfold stop_
  split <;> rfl

theorem start_of_other {platform : Platform} {ref : BlockRef} {world : World}
    (other : ∀ hook, world.derived.lookup ref ≠ some (.hookZmq hook)) :
    world.start_ platform ref = world := by
  unfold start_
  split
  · rename_i hook there
    exact absurd there (other hook)
  · rfl

theorem stop_of_other {ref : BlockRef} {world : World}
    (other : ∀ hook, world.derived.lookup ref ≠ some (.hookZmq hook)) :
    world.stop_ ref = world := by
  unfold stop_
  split
  · rename_i hook there
    exact absurd there (other hook)
  · rfl

end World

/-- The virtual functions of the repository's blocks. -/
def virtual (platform : Platform) : Virtual Factory World where
  constructor := World.constructor platform
  destructor _ := World.destructor
  start_ ref manager := manager.world.start_ platform ref
  stop_ ref manager := manager.world.stop_ ref
  bind_ _ _ _ manager := manager.world

/-- A manager with the factories of the repository. -/
def repository : BlockManager :=
  ((Manager.new World.empty |>.blockFactoryRegister "hello" Factory.hello)
    |>.blockFactoryRegister "trans_pb" Factory.transPb)
    |>.blockFactoryRegister "hook_zmq" Factory.hookZmq

/-- The kind of a block, with its fields. -/
def BlockManager.kind (manager : BlockManager) (ref : BlockRef) : Option Derived :=
  manager.world.derived.lookup ref

/-- The manager with other fields of one block. -/
def BlockManager.setDerived (manager : BlockManager) (ref : BlockRef) (derived : Derived) :
    BlockManager :=
  { manager with
    world := { manager.world with derived := manager.world.derived.insert ref derived } }

/-- The manager with one more record. -/
def BlockManager.record (manager : BlockManager) (handled : Handled) : BlockManager :=
  { manager with world := { manager.world with log := manager.world.log ++ [handled] } }

/-- `is_started_` of a block. -/
def BlockManager.isStarted (manager : BlockManager) (ref : BlockRef) : Bool :=
  match manager.blocks.deref ref with
  | some block => block.is_started_
  | none => false

theorem BlockManager.isStarted_iff {manager : BlockManager} {ref : BlockRef} :
    manager.isStarted ref = true ↔
      ∃ block, manager.blocks.deref ref = some block ∧ block.is_started_ = true := by
  unfold isStarted
  cases manager.blocks.deref ref <;> simp

@[simp] theorem BlockManager.kind_setDerived (manager : BlockManager) (ref : BlockRef)
    (derived : Derived) : (manager.setDerived ref derived).kind ref = some derived :=
  Finmap.lookup_insert _

theorem BlockManager.kind_setDerived_of_ne (manager : BlockManager) {ref other : BlockRef}
    (derived : Derived) (different : other ≠ ref) :
    (manager.setDerived ref derived).kind other = BlockManager.kind manager other :=
  Finmap.lookup_insert_of_ne _ different

@[simp] theorem BlockManager.kind_record (manager : BlockManager) (handled : Handled)
    (ref : BlockRef) : (manager.record handled).kind ref = BlockManager.kind manager ref := rfl

end C3qo
