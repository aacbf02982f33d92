import C3qo.Execution
import C3qo.Flow

/-!
# Sinks of registered blocks

`block_del` does not look at the blocks that are bound to the one it destroys. Sinks stay live in
a run exactly if every deletion in it destroys a block that no other block is bound to.
`block_clear` leaves no block behind, hence no sink either.
-/

namespace C3qo

variable {F W : Type}

/-- The sinks of all blocks are live. -/
def NoDangling (blocks : Registry) : Prop :=
  ∀ ref block, blocks.deref ref = some block → ∀ sink, block.sink_ = some sink → blocks.Live sink

/-- `data_` callbacks that read and write the world only. -/
def passive (data_ : BlockRef → W → Bool × W) (ref : BlockRef) (manager : Manager F W) :
    Except Fault (Bool × Manager F W) :=
  let (forward, world) := data_ ref manager.world
  .ok (forward, { manager with world := world })

/-- Whatever blocks do with the data, no flow from a registered block reaches a destroyed one. -/
def FlowsSafe (manager : Manager F W) : Prop :=
  ∀ (data_ : BlockRef → W → Bool × W) ref, manager.blocks.Live ref →
    ∀ fuel dead, processData (passive data_) fuel ref manager ≠ .error (.dangling dead)

/-- All sinks are live, and so flows only reach live blocks. -/
def SinksLive (manager : Manager F W) : Prop :=
  NoDangling manager.blocks ∧ FlowsSafe manager

theorem flowsSafe_of_noDangling {manager : Manager F W} (live : NoDangling manager.blocks) :
    FlowsSafe manager := by
  intro data_ ref there fuel dead
  induction fuel generalizing ref manager with
  | zero => simp [processData]
  | succ fuel ih =>
      obtain ⟨block, object⟩ := Registry.live_iff.mp there
      rcases bound : block.sink_ with _ | sink
      · simp [processData_of_unbound object bound]
      · obtain ⟨target, sink_object⟩ := Registry.live_iff.mp (live ref block object sink bound)
        rw [processData_of_bound object bound sink_object, passive]
        rcases data_ sink manager.world with ⟨_ | _, world⟩
        · simp
        · have live' : NoDangling ({ manager with world := world } : Manager F W).blocks := live
          exact ih live' sink (Registry.live_iff.mpr ⟨target, sink_object⟩)

theorem sinksLive_iff {manager : Manager F W} :
    SinksLive manager ↔ NoDangling manager.blocks :=
  ⟨And.left, fun live => ⟨live, flowsSafe_of_noDangling live⟩⟩

theorem NoDangling.setStarted {blocks : Registry} (live : NoDangling blocks) (ref : BlockRef)
    (started : Bool) : NoDangling (blocks.setStarted ref started) := by
  intro other block object sink bound
  rw [Registry.live_setStarted]
  rw [Registry.deref_setStarted] at object
  split_ifs at object with same
  · obtain ⟨old, found, rfl⟩ := Option.map_eq_some_iff.mp object
    exact live ref old found sink bound
  · exact live other block object sink bound

/-- Operations that destroy no block keep all sinks live. -/
theorem NoDangling.kept {before after : Manager F W} (live : NoDangling before.blocks)
    (kept : Kept before after) : NoDangling after.blocks := by
  cases kept with
  | same blocks => exact blocks ▸ live
  | built id type_ factory free blocks =>
      rw [blocks]
      intro ref block object sink bound
      rw [Registry.deref_insert] at object
      split_ifs at object
      · obtain rfl := Option.some.inj object
        cases bound
      · exact Registry.live_insert (live ref block object sink bound)
  | started ref block object idle blocks =>
      rw [blocks]
      exact live.setStarted ref true
  | stopped ref block object running blocks =>
      rw [blocks]
      exact live.setStarted ref false
  | bound src dst live_src live_dst blocks =>
      rw [blocks]
      intro other block object sink bound
      rw [Registry.live_setSink]
      rw [Registry.deref_setSink] at object
      split_ifs at object
      · obtain ⟨old, -, rfl⟩ := Option.map_eq_some_iff.mp object
        obtain rfl := Option.some.inj bound
        exact live_dst
      · exact live other block object sink bound

/-- Removing a block keeps all sinks live exactly if no other block is bound to it. -/
theorem noDangling_remove_iff {blocks : Registry} (live : NoDangling blocks) {id : Int}
    {ref : BlockRef} (found : blocks.get id = some ref) :
    NoDangling (blocks.remove id) ↔
      ∀ other block, other ≠ ref → blocks.deref other = some block → block.sink_ ≠ some ref := by
  constructor
  · intro after other block different object bound
    have kept : (blocks.remove id).deref other = some block := by
      rw [Registry.deref_remove found, if_neg different, object]
    exact ((Registry.live_remove found ref).mp (after other block kept ref bound)).2 rfl
  · intro unbound other block object sink bound
    rw [Registry.deref_remove found] at object
    split_ifs at object with different
    rw [Registry.live_remove found]
    refine ⟨live other block object sink bound, ?_⟩
    rintro rfl
    exact unbound other block different object bound

/-- A call of the manager. -/
inductive Call (F : Type)
  /-- An operation. -/
  | operation (action : Operation F)
  /-- `block_clear`, with the keys that the map's iterator yields. -/
  | blockClear (order : List Int)

/-- Make a call; `block_clear` has a result once it returns. -/
def Call.perform (virtual : Virtual F W) : Call F → Manager F W → Option (Manager F W)
  | .operation action, manager => some (action.perform virtual manager)
  | .blockClear order, manager => manager.blockClear virtual order

/-- If the call is a deletion that succeeds, no other block is bound to the block it destroys. -/
def DeletesUnbound (call : Call F) (manager : Manager F W) : Prop :=
  ∀ id ref, call = .operation (.blockDel id) → manager.Deletes id ref →
    ∀ other block, other ≠ ref → manager.blocks.deref other = some block →
      block.sink_ ≠ some ref

theorem noDangling_of_blockClear {virtual : Virtual F W} {order : List Int}
    {before after : Manager F W} (cleared : before.blockClear virtual order = some after) :
    NoDangling after.blocks := by
  induction order generalizing before with
  | nil =>
      simp only [Manager.blockClear, Option.ite_none_right_eq_some] at cleared
      obtain ⟨none_left, same⟩ := cleared
      obtain rfl := Option.some.inj same
      intro ref block object
      have there := Registry.id_of_deref object
      rw [Registry.get, none_left] at there
      cases there
  | cons id order ih =>
      simp only [Manager.blockClear, Option.ite_none_left_eq_some] at cleared
      exact ih cleared.2

/-- One call keeps all sinks live exactly if it deletes no block that another one is bound to. -/
theorem sinksLive_step_iff {virtual : Virtual F W} (call : Call F) (before after : Manager F W)
    (live : SinksLive before) (made : call.perform virtual before = some after) :
    SinksLive after ↔ DeletesUnbound call before := by
  rw [sinksLive_iff] at live ⊢
  cases call with
  | blockClear order =>
      exact iff_of_true (noDangling_of_blockClear made) fun id ref deletion => by cases deletion
  | operation action =>
      obtain rfl := Option.some.inj made
      by_cases deletion : ∃ id, action = .blockDel id
      · obtain ⟨id, rfl⟩ := deletion
        change NoDangling (before.blockDel virtual id).2.blocks ↔ _
        rcases before.blockDel_cases virtual id with
          ⟨refused, same⟩ | ⟨ref, block, factory, found, idle, registered, destroyed⟩
        · rw [same]
          refine iff_of_true live fun id' ref deletion deletes => ?_
          obtain rfl : id = id' := by injections
          exact absurd deletes (refused ref)
        · rw [destroyed]
          obtain ⟨object, rfl⟩ := Registry.find_eq_some_iff.mp found
          refine (noDangling_remove_iff live (Registry.id_of_deref object)).trans ?_
          constructor
          · intro unbound id' ref' deletion deletes
            obtain rfl : block.id_ = id' := by injections
            obtain rfl := Option.some.inj ((Registry.get_of_find found).symm.trans deletes.get)
            exact unbound
          · exact fun unbound => unbound _ ref rfl ⟨block, factory, found, idle, registered⟩
      · exact iff_of_true (live.kept (action.perform_kept virtual before (not_exists.mp deletion)))
          fun id ref same => absurd ⟨id, Call.operation.inj same⟩ deletion

/-- No dangling sink: in a run from an empty manager all sinks are live throughout, so that flows
only reach live blocks, exactly if every deletion destroys a block no other block is bound to. -/
theorem sinksLive_throughout_iff (virtual : Virtual F W) (world : W) (calls : List (Call F)) :
    Execution.Throughout (Call.perform virtual) SinksLive calls (Manager.new world) ↔
      Execution.Guarded (Call.perform virtual) DeletesUnbound calls (Manager.new world) :=
  Execution.throughout_iff_guarded sinksLive_step_iff
    (sinksLive_iff.mpr fun _ _ object => by cases object)

/-- The run of two bound blocks of which the second is deleted. -/
def deleteSink : List (Call Unit) :=
  [.operation (.blockFactoryRegister "hello" ()), .operation (.blockAdd 1 "hello"),
    .operation (.blockAdd 2 "hello"), .operation (.blockBind 1 0 2), .operation (.blockDel 2)]

theorem deleteSink_not_sinksLive :
    ¬ Execution.Throughout (Call.perform Virtual.inert) SinksLive deleteSink (Manager.new ()) := by
  intro throughout
  let run := Execution.run (Call.perform Virtual.inert) deleteSink (Manager.new ())
  obtain ⟨final, execution⟩ : ∃ final, run = some final :=
    Option.isSome_iff_exists.mp (by decide)
  have blocks : run.map (fun final => (final.blocks.deref 0, final.blocks.deref 1)) =
      some (some ⟨1, "hello", false, some 1⟩, none) := by decide
  rw [execution, Option.map_some, Option.some.injEq, Prod.mk.injEq] at blocks
  obtain ⟨live, -⟩ := Execution.throughout_final throughout execution
  simpa [Registry.live_iff, blocks.2] using live 0 _ blocks.1 1 rfl

end C3qo
