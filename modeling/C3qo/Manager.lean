import C3qo.Registry

/-!
# The manager of blocks

`manager_bk.cpp`, over any factories `F` and any world `W`, which is all the state that the
manager's own maps do not hold: the fields that the kinds of blocks add, timers, sockets. The
virtual functions of blocks and factories are functions on the world. The trace is not part of the
program: it records the virtual calls.
-/

namespace C3qo

/-- A call of a virtual function by the manager. -/
inductive Event (F : Type)
  /-- A factory has built the block. -/
  | constructor (ref : BlockRef) (factory : F)
  /-- `start_` of the block. -/
  | start_ (ref : BlockRef)
  /-- `stop_` of the block. -/
  | stop_ (ref : BlockRef)
  /-- `bind_` of the block. -/
  | bind_ (ref : BlockRef)
  /-- A factory destroys the block. -/
  | destructor (ref : BlockRef) (factory : F)
  deriving DecidableEq

/-- `struct manager`. -/
structure Manager (F W : Type) where
  /-- The main loop is to end. -/
  is_term_ : Bool
  /-- The factory registered for each type of block. -/
  bk_factory_ : Finmap fun _ : String => F
  /-- `bk_map_`, with the objects it points to. -/
  blocks : Registry
  /-- Everything else. -/
  world : W
  /-- The virtual calls made so far. -/
  trace : List (Event F)

/-- The virtual functions, none of which calls the block operations back. -/
structure Virtual (F W : Type) where
  /-- `block_factory::constructor`: whether it returned the block, or null. -/
  constructor : F → BlockRef → W → Bool × W
  /-- `block_factory::destructor`. -/
  destructor : F → BlockRef → W → W
  /-- `block::start_`. -/
  start_ : BlockRef → Manager F W → W
  /-- `block::stop_`. -/
  stop_ : BlockRef → Manager F W → W
  /-- `block::bind_`, with the port and the sink. -/
  bind_ : BlockRef → Int → BlockRef → Manager F W → W

/-- Virtual functions that do nothing, as the default ones of `block`. -/
def Virtual.inert : Virtual Unit Unit where
  constructor _ _ _ := (true, ())
  destructor _ _ _ := ()
  start_ _ _ := ()
  stop_ _ _ := ()
  bind_ _ _ _ _ := ()

namespace Manager

variable {F W : Type}

/-- `manager::manager`. -/
def new (world : W) : Manager F W := ⟨true, ∅, .empty, world, []⟩

/-- `manager::start_`. -/
def start_ (manager : Manager F W) : Manager F W := { manager with is_term_ := false }

/-- `manager::stop_`. -/
def stop_ (manager : Manager F W) : Manager F W := { manager with is_term_ := true }

/-- `manager::block_get`. -/
def blockGet (manager : Manager F W) (id : Int) : Option BlockRef := manager.blocks.get id

/-- Set `is_started_` of a block. -/
def setStarted (manager : Manager F W) (ref : BlockRef) (started : Bool) : Manager F W :=
  { manager with blocks := manager.blocks.setStarted ref started }

/-- Set `sink_` of a block. -/
def setSink (manager : Manager F W) (ref sink : BlockRef) : Manager F W :=
  { manager with blocks := manager.blocks.setSink ref sink }

/-- The manager after a virtual call that leaves the world as given. -/
def called (manager : Manager F W) (event : Event F) (world : W) : Manager F W :=
  { manager with world := world, trace := manager.trace ++ [event] }

section Virtual

variable (virtual : Virtual F W)

/-- `manager::block_add`: add a block. -/
def blockAdd (id : Int) (type_ : String) (manager : Manager F W) : Bool × Manager F W :=
  match free : manager.blocks.get id with
  | some _ => (false, manager)
  | none =>
      match manager.bk_factory_.lookup type_ with
      | none => (false, manager)
      | some factory =>
          let ref := manager.blocks.next
          match virtual.constructor factory ref manager.world with
          | (false, world) => (false, { manager with world := world })
          | (true, world) =>
              (true, { manager with blocks := manager.blocks.insert id type_ free }.called
                (.constructor ref factory) world)

/-- `manager::block_start`: start a block. -/
def blockStart (id : Int) (manager : Manager F W) : Bool × Manager F W :=
  match manager.blocks.find id with
  | none => (false, manager)
  | some (ref, block) =>
      if block.is_started_ then
        (true, manager)
      else
        let manager := manager.setStarted ref true
        (true, manager.called (.start_ ref) (virtual.start_ ref manager))

/-- `manager::block_stop`: stop a block. -/
def blockStop (id : Int) (manager : Manager F W) : Bool × Manager F W :=
  match manager.blocks.find id with
  | none => (false, manager)
  | some (ref, block) =>
      if block.is_started_ then
        let manager := manager.setStarted ref false
        (true, manager.called (.stop_ ref) (virtual.stop_ ref manager))
      else
        (true, manager)

/-- `manager::block_del`: delete a stopped block. -/
def blockDel (id : Int) (manager : Manager F W) : Bool × Manager F W :=
  match manager.blocks.find id with
  | none => (false, manager)
  | some (ref, block) =>
      if block.is_started_ then
        (false, manager)
      else
        match manager.bk_factory_.lookup block.type_ with
        | none => (false, manager)
        | some factory =>
            let world := virtual.destructor factory ref manager.world
            let manager := manager.called (.destructor ref factory) world
            (true, { manager with blocks := manager.blocks.remove id })

/-- `manager::block_bind`: bind a block. -/
def blockBind (idSrc port idDst : Int) (manager : Manager F W) : Bool × Manager F W :=
  match manager.blocks.get idSrc, manager.blocks.get idDst with
  | some src, some dst =>
      let manager := manager.setSink src dst
      (true, manager.called (.bind_ src) (virtual.bind_ src port dst manager))
  | _, _ => (false, manager)

/-- The body of the loop of `manager::block_clear`, for the key that the map's iterator yields. -/
def blockClearIter (id : Int) (manager : Manager F W) : Manager F W :=
  (blockDel virtual id (blockStop virtual id manager).2).2

/-- `manager::block_clear`, given the keys that the map's iterator yields one after the other. It
returns once the map is empty; an order that stops short of that has no result, and neither has
one with a key that is not in the map. -/
def blockClear : List Int → Manager F W → Option (Manager F W)
  | [], manager => if manager.blocks.bk_map_ = ∅ then some manager else none
  | id :: order, manager =>
      if manager.blocks.get id = none then
        none
      else
        blockClear order (blockClearIter virtual id manager)

end Virtual

/-- `manager::block_factory_register`: a type that has a factory keeps it. -/
def blockFactoryRegister (type_ : String) (factory : F) (manager : Manager F W) : Manager F W :=
  match manager.bk_factory_.lookup type_ with
  | some _ => manager
  | none => { manager with bk_factory_ := manager.bk_factory_.insert type_ factory }

/-- `manager::block_factory_unregister`. -/
def blockFactoryUnregister (type_ : String) (manager : Manager F W) : Manager F W :=
  { manager with bk_factory_ := manager.bk_factory_.erase type_ }

/-- `manager::block_factory_clear`. -/
def blockFactoryClear (manager : Manager F W) : Manager F W := { manager with bk_factory_ := ∅ }

end Manager

/-- The operations of the manager that are not loops. -/
inductive Operation (F : Type)
  /-- `block_add`. -/
  | blockAdd (id : Int) (type_ : String)
  /-- `block_start`. -/
  | blockStart (id : Int)
  /-- `block_stop`. -/
  | blockStop (id : Int)
  /-- `block_del`. -/
  | blockDel (id : Int)
  /-- `block_bind`. -/
  | blockBind (idSrc port idDst : Int)
  /-- `block_factory_register`. -/
  | blockFactoryRegister (type_ : String) (factory : F)
  /-- `block_factory_unregister`. -/
  | blockFactoryUnregister (type_ : String)
  /-- `block_factory_clear`. -/
  | blockFactoryClear

/-- Perform an operation. -/
def Operation.perform {F W : Type} (virtual : Virtual F W) (manager : Manager F W) :
    Operation F → Manager F W
  | .blockAdd id type_ => (manager.blockAdd virtual id type_).2
  | .blockStart id => (manager.blockStart virtual id).2
  | .blockStop id => (manager.blockStop virtual id).2
  | .blockDel id => (manager.blockDel virtual id).2
  | .blockBind idSrc port idDst => (manager.blockBind virtual idSrc port idDst).2
  | .blockFactoryRegister type_ factory => manager.blockFactoryRegister type_ factory
  | .blockFactoryUnregister type_ => manager.blockFactoryUnregister type_
  | .blockFactoryClear => manager.blockFactoryClear

/-! ## What one operation can do -/

/-- The ways in which an operation can change the manager, factories apart, without stopping or
destroying a block. -/
inductive Change {F W : Type} (virtual : Virtual F W) (before : Manager F W) : Manager F W → Prop
  /-- Blocks and world are as before. -/
  | same (after : Manager F W) (blocks : after.blocks = before.blocks)
      (world : after.world = before.world) (trace : after.trace = before.trace) :
      Change virtual before after
  /-- A factory has returned null. -/
  | refused (factory : F) (world : W)
      (answer : virtual.constructor factory before.blocks.next before.world = (false, world)) :
      Change virtual before { before with world := world }
  /-- A block has been built. -/
  | built (id : Int) (type_ : String) (factory : F) (free : before.blocks.get id = none)
      (registered : before.bk_factory_.lookup type_ = some factory) (world : W)
      (answer : virtual.constructor factory before.blocks.next before.world = (true, world)) :
      Change virtual before ({ before with blocks := before.blocks.insert id type_ free }.called
        (.constructor before.blocks.next factory) world)
  /-- A block has been started. -/
  | started (ref : BlockRef) (block : Block) (object : before.blocks.deref ref = some block)
      (idle : block.is_started_ = false) :
      Change virtual before ((before.setStarted ref true).called (.start_ ref)
        (virtual.start_ ref (before.setStarted ref true)))
  /-- A block has been bound to another. -/
  | bound (src : BlockRef) (port : Int) (dst : BlockRef) (live_src : before.blocks.Live src)
      (live_dst : before.blocks.Live dst) :
      Change virtual before ((before.setSink src dst).called (.bind_ src)
        (virtual.bind_ src port dst (before.setSink src dst)))

/-- The ways in which an operation can change blocks and trace without destroying a block. -/
inductive Kept {F W : Type} (before after : Manager F W) : Prop
  | same (blocks : after.blocks = before.blocks) (trace : after.trace = before.trace)
  | built (id : Int) (type_ : String) (factory : F) (free : before.blocks.get id = none)
      (blocks : after.blocks = before.blocks.insert id type_ free)
      (trace : after.trace = before.trace ++ [.constructor before.blocks.next factory])
  | started (ref : BlockRef) (block : Block) (object : before.blocks.deref ref = some block)
      (idle : block.is_started_ = false) (blocks : after.blocks = before.blocks.setStarted ref true)
      (trace : after.trace = before.trace ++ [.start_ ref])
  | stopped (ref : BlockRef) (block : Block) (object : before.blocks.deref ref = some block)
      (running : block.is_started_ = true)
      (blocks : after.blocks = before.blocks.setStarted ref false)
      (trace : after.trace = before.trace ++ [.stop_ ref])
  | bound (src dst : BlockRef) (live_src : before.blocks.Live src)
      (live_dst : before.blocks.Live dst) (blocks : after.blocks = before.blocks.setSink src dst)
      (trace : after.trace = before.trace ++ [.bind_ src])

theorem Kept.live {F W : Type} {before after : Manager F W} (kept : Kept before after)
    {ref : BlockRef} (live : before.blocks.Live ref) : after.blocks.Live ref := by
  cases kept with
  | same blocks => exact blocks ▸ live
  | built id type_ factory free blocks => exact blocks ▸ Registry.live_insert live
  | started other block object idle blocks => exact blocks ▸ (Registry.live_setStarted ..).mpr live
  | stopped other block object running blocks =>
      exact blocks ▸ (Registry.live_setStarted ..).mpr live
  | bound src dst live_src live_dst blocks => exact blocks ▸ (Registry.live_setSink ..).mpr live

theorem Change.kept {F W : Type} {virtual : Virtual F W} {before after : Manager F W}
    (change : Change virtual before after) : Kept before after := by
  cases change with
  | same _ blocks world trace => exact .same blocks trace
  | refused factory world answer => exact .same rfl rfl
  | built id type_ factory free registered world answer =>
      exact .built id type_ factory free rfl rfl
  | started ref block object idle => exact .started ref block object idle rfl rfl
  | bound src port dst live_src live_dst => exact .bound src dst live_src live_dst rfl rfl

namespace Manager

variable {F W : Type}

/-- `block_del` of the identifier destroys the block: it is in the map, stopped, and of a
registered type. -/
def Deletes (manager : Manager F W) (id : Int) (ref : BlockRef) : Prop :=
  ∃ block factory, manager.blocks.find id = some (ref, block) ∧ block.is_started_ = false ∧
    manager.bk_factory_.lookup block.type_ = some factory

theorem Deletes.get {manager : Manager F W} {id : Int} {ref : BlockRef}
    (deletes : manager.Deletes id ref) : manager.blocks.get id = some ref := by
  obtain ⟨block, factory, found, -⟩ := deletes
  exact Registry.get_of_find found

variable (virtual : Virtual F W) (manager : Manager F W)

theorem blockAdd_change (id : Int) (type_ : String) :
    Change virtual manager (manager.blockAdd virtual id type_).2 := by
  unfold blockAdd
  split
  · exact .same _ rfl rfl rfl
  · rename_i free
    split
    · exact .same _ rfl rfl rfl
    · rename_i factory registered
      dsimp only
      split
      · rename_i world answer
        exact .refused factory world answer
      · rename_i world answer
        exact .built id type_ factory free registered world answer

theorem blockStart_change (id : Int) :
    Change virtual manager (manager.blockStart virtual id).2 := by
  unfold blockStart
  split
  · exact .same _ rfl rfl rfl
  · rename_i ref block found
    split_ifs with running
    · exact .same _ rfl rfl rfl
    · exact .started ref block (Registry.find_eq_some_iff.mp found).1
        (Bool.eq_false_iff.mpr running)

/-- Stopping leaves the manager as it is, or stops the started block of the identifier. -/
theorem blockStop_cases (id : Int) :
    (manager.blockStop virtual id).2 = manager ∨
      ∃ ref block, manager.blocks.find id = some (ref, block) ∧ block.is_started_ = true ∧
        (manager.blockStop virtual id).2 = (manager.setStarted ref false).called (.stop_ ref)
          (virtual.stop_ ref (manager.setStarted ref false)) := by
  unfold blockStop
  split
  · exact .inl rfl
  · rename_i ref block found
    split_ifs with running
    · exact .inr ⟨ref, block, found, running, rfl⟩
    · exact .inl rfl

theorem blockBind_change (idSrc port idDst : Int) :
    Change virtual manager (manager.blockBind virtual idSrc port idDst).2 := by
  unfold blockBind
  split
  · rename_i src dst there_src there_dst
    exact .bound src port dst (Registry.live_iff_mapped.mpr ⟨_, there_src⟩)
      (Registry.live_iff_mapped.mpr ⟨_, there_dst⟩)
  · exact .same _ rfl rfl rfl

/-- Deletion leaves the manager as it is, or destroys the block of the identifier. -/
theorem blockDel_cases (id : Int) :
    ((∀ ref, ¬ manager.Deletes id ref) ∧ manager.blockDel virtual id = (false, manager)) ∨
      ∃ ref block factory, manager.blocks.find id = some (ref, block) ∧
        block.is_started_ = false ∧ manager.bk_factory_.lookup block.type_ = some factory ∧
        manager.blockDel virtual id = (true,
          { manager.called (.destructor ref factory)
              (virtual.destructor factory ref manager.world) with
            blocks := manager.blocks.remove id }) := by
  unfold blockDel
  split
  · rename_i missing
    refine .inl ⟨fun ref ⟨block, factory, found, _⟩ => ?_, rfl⟩
    rw [missing] at found
    cases found
  · rename_i ref block found
    split_ifs with running
    · refine .inl ⟨fun ref ⟨block, factory, found', idle, _⟩ => ?_, rfl⟩
      rw [found, Option.some.injEq, Prod.mk.injEq] at found'
      rw [← found'.2, running] at idle
      cases idle
    · split
      · rename_i missing
        refine .inl ⟨fun ref ⟨block, factory, found', _, registered⟩ => ?_, rfl⟩
        rw [found, Option.some.injEq, Prod.mk.injEq] at found'
        rw [← found'.2, missing] at registered
        cases registered
      · rename_i factory registered
        exact .inr ⟨ref, block, factory, found, Bool.eq_false_iff.mpr running, registered, rfl⟩

theorem blockAdd_kept (id : Int) (type_ : String) :
    Kept manager (manager.blockAdd virtual id type_).2 :=
  (manager.blockAdd_change virtual id type_).kept

theorem blockStop_kept (id : Int) : Kept manager (manager.blockStop virtual id).2 := by
  rcases manager.blockStop_cases virtual id with same | ⟨ref, block, found, running, stopped⟩
  · rw [same]
    exact .same rfl rfl
  · rw [stopped]
    exact .stopped ref block (Registry.find_eq_some_iff.mp found).1 running rfl rfl

theorem blockBind_kept (idSrc port idDst : Int) :
    Kept manager (manager.blockBind virtual idSrc port idDst).2 :=
  (manager.blockBind_change virtual idSrc port idDst).kept

end Manager

section

variable {F W : Type} (virtual : Virtual F W) (manager : Manager F W)

theorem Operation.perform_change {operation : Operation F}
    (no_stop : ∀ id, operation ≠ .blockStop id) (no_del : ∀ id, operation ≠ .blockDel id) :
    Change virtual manager (operation.perform virtual manager) := by
  cases operation with
  | blockAdd id type_ => exact manager.blockAdd_change virtual id type_
  | blockStart id => exact manager.blockStart_change virtual id
  | blockStop id => exact absurd rfl (no_stop id)
  | blockDel id => exact absurd rfl (no_del id)
  | blockBind idSrc port idDst => exact manager.blockBind_change virtual idSrc port idDst
  | blockFactoryRegister type_ factory =>
      change Change virtual manager (manager.blockFactoryRegister type_ factory)
      unfold Manager.blockFactoryRegister
      split <;> exact .same _ rfl rfl rfl
  | blockFactoryUnregister type_ => exact .same _ rfl rfl rfl
  | blockFactoryClear => exact .same _ rfl rfl rfl

theorem Operation.perform_kept {operation : Operation F}
    (other : ∀ id, operation ≠ .blockDel id) :
    Kept manager (operation.perform virtual manager) := by
  by_cases stop : ∃ id, operation = .blockStop id
  · obtain ⟨id, rfl⟩ := stop
    exact manager.blockStop_kept virtual id
  · exact (perform_change virtual manager (not_exists.mp stop) other).kept

/-- A property that the changes, the stop of started blocks and the destruction of stopped ones
keep is kept by every operation. -/
theorem Operation.perform_preserves (Holds : Manager F W → Prop) {operation : Operation F}
    (changed : ∀ after, Change virtual manager after → Holds after)
    (stopped : ∀ id ref block, operation = .blockStop id →
      manager.blocks.find id = some (ref, block) → block.is_started_ = true →
      Holds ((manager.setStarted ref false).called (.stop_ ref)
        (virtual.stop_ ref (manager.setStarted ref false))))
    (destroyed : ∀ ref block factory, manager.blocks.deref ref = some block →
      block.is_started_ = false → manager.bk_factory_.lookup block.type_ = some factory →
      Holds { manager.called (.destructor ref factory)
          (virtual.destructor factory ref manager.world) with
        blocks := manager.blocks.remove block.id_ }) :
    Holds (operation.perform virtual manager) := by
  by_cases stop : ∃ id, operation = .blockStop id
  · obtain ⟨id, rfl⟩ := stop
    change Holds (manager.blockStop virtual id).2
    rcases manager.blockStop_cases virtual id with same | ⟨ref, block, found, running, after⟩
    · rw [same]
      exact changed _ (.same _ rfl rfl rfl)
    · rw [after]
      exact stopped id ref block rfl found running
  · by_cases deletion : ∃ id, operation = .blockDel id
    · obtain ⟨id, rfl⟩ := deletion
      change Holds (manager.blockDel virtual id).2
      rcases manager.blockDel_cases virtual id with
        ⟨-, same⟩ | ⟨ref, block, factory, found, idle, registered, gone⟩
      · rw [same]
        exact changed _ (.same _ rfl rfl rfl)
      · obtain ⟨object, rfl⟩ := Registry.find_eq_some_iff.mp found
        rw [gone]
        exact destroyed ref block factory object idle registered
    · exact changed _ (perform_change virtual manager (not_exists.mp stop) (not_exists.mp deletion))

end

end C3qo
