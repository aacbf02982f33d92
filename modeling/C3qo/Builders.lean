import C3qo.BlockClear

/-!
# Builders of blocks

A block remembers the name of its type and not its factory, so `block_del` looks a factory up anew.
It is the factory that built the block as long as no other factory comes to the name of a type
while blocks of that type are there.
-/

namespace C3qo

open Execution

variable {F W : Type}

namespace Manager

/-- The constructor of the factory has returned the block. -/
def BuiltBy (manager : Manager F W) (ref : BlockRef) (factory : F) : Prop :=
  .constructor ref factory ∈ manager.trace

/-- Every destructor call was made on the one factory whose constructor returned the block. -/
def DestroyedByBuilder (manager : Manager F W) : Prop :=
  ∀ ref destroyer, .destructor ref destroyer ∈ manager.trace →
    ∀ builder, manager.BuiltBy ref builder ↔ builder = destroyer

/-- The identifier names the block, and the name of its type is registered for the factory. -/
def FactoryOf (manager : Manager F W) (id : Int) (ref : BlockRef) (factory : F) : Prop :=
  ∃ block, manager.blocks.find id = some (ref, block) ∧
    manager.bk_factory_.lookup block.type_ = some factory

/-- The names of types are registered, if at all, for the factories that built their blocks. -/
def BuildersRegistered (manager : Manager F W) : Prop :=
  ∀ id ref factory, manager.FactoryOf id ref factory → manager.BuiltBy ref factory

/-- The destructor calls were made on the builders, and so would be that of any stop and deletion
made now. -/
def DeletesRightly (virtual : Virtual F W) (manager : Manager F W) : Prop :=
  manager.DestroyedByBuilder ∧ ∀ id cleared,
    (Step.blockClearIter id).perform virtual manager = some cleared → cleared.DestroyedByBuilder

end Manager

namespace Step

/-- The step makes the factory destroy the block. -/
def Destroys : Step F → Manager F W → BlockRef → F → Prop
  | .operation (.blockDel id), manager, ref, factory =>
      manager.Deletes id ref ∧ manager.FactoryOf id ref factory
  | .operation _, _, _, _ => False
  | .blockClearIter id, manager, ref, factory => manager.FactoryOf id ref factory

/-- Where the step destroys a block, the name of its type is registered for its builder. -/
def FindsBuilder (step : Step F) (manager : Manager F W) : Prop :=
  ∀ ref factory, step.Destroys manager ref factory → manager.BuiltBy ref factory

/-- A registration that takes effect does not give the name of a type to another factory than the
one that built the blocks of that type. -/
def KeepsBuilders : Step F → Manager F W → Prop
  | .operation (.blockFactoryRegister type_ factory), manager =>
      manager.bk_factory_.lookup type_ = none → ∀ id ref block,
        manager.blocks.find id = some (ref, block) → block.type_ = type_ →
          manager.BuiltBy ref factory
  | _, _ => True

end Step

theorem Step.Destroys.factoryOf {step : Step F} {manager : Manager F W} {ref : BlockRef}
    {factory : F} (destroys : step.Destroys manager ref factory) :
    ∃ id, manager.FactoryOf id ref factory := by
  rcases step with action | id
  · cases action
    case blockDel id => exact ⟨id, destroys.2⟩
    all_goals exact False.elim destroys
  · exact ⟨id, destroys⟩

theorem Manager.BuildersRegistered.findsBuilder {manager : Manager F W}
    (registered : manager.BuildersRegistered) (step : Step F) : step.FindsBuilder manager := by
  intro ref factory destroys
  obtain ⟨id, has⟩ := destroys.factoryOf
  exact registered id ref factory has

/-! ## The calls of one step -/

theorem Kept.calls {before after : Manager F W} (kept : Kept before after) :
    ∃ calls, after.trace = before.trace ++ calls ∧
      ∀ ref factory, .destructor ref factory ∉ calls := by
  cases kept with
  | same _ trace => exact ⟨[], by rw [trace, List.append_nil], by simp⟩
  | built _ _ _ _ _ trace => exact ⟨_, trace, by simp⟩
  | started _ _ _ _ _ trace => exact ⟨_, trace, by simp⟩
  | stopped _ _ _ _ _ trace => exact ⟨_, trace, by simp⟩
  | bound _ _ _ _ _ trace => exact ⟨_, trace, by simp⟩

theorem Manager.FactoryOf.unique {manager : Manager F W} {id : Int} {ref other : BlockRef}
    {factory factory' : F} {block : Block}
    (found : manager.blocks.find id = some (ref, block))
    (registered : manager.bk_factory_.lookup block.type_ = some factory) :
    manager.FactoryOf id other factory' ↔ other = ref ∧ factory' = factory := by
  constructor
  · rintro ⟨block', found', registered'⟩
    obtain ⟨rfl, rfl⟩ := Prod.mk.inj (Option.some.inj (found.symm.trans found'))
    exact ⟨rfl, Option.some.inj (registered'.symm.trans registered)⟩
  · rintro ⟨rfl, rfl⟩
    exact ⟨block, found, registered⟩

theorem blockDel_calls (virtual : Virtual F W) (manager : Manager F W) (id : Int) :
    ∃ calls, (manager.blockDel virtual id).2.trace = manager.trace ++ calls ∧
      ∀ ref factory, .destructor ref factory ∈ calls ↔
        manager.Deletes id ref ∧ manager.FactoryOf id ref factory := by
  rcases manager.blockDel_cases virtual id with
    ⟨missing, same⟩ | ⟨ref, block, factory, found, idle, registered, destroyed⟩
  · refine ⟨[], by rw [same, List.append_nil], fun ref factory => ?_⟩
    exact iff_of_false (by simp) fun deletes => missing ref deletes.1
  · refine ⟨[.destructor ref factory], by rw [destroyed]; rfl, fun other factory' => ?_⟩
    rw [Manager.FactoryOf.unique found registered, List.mem_singleton, Event.destructor.injEq]
    refine (and_iff_right_of_imp ?_).symm
    rintro ⟨rfl, -⟩
    exact ⟨block, factory, found, idle, registered⟩

theorem blockClearIter_calls (virtual : Virtual F W) {manager : Manager F W} {id : Int}
    (there : manager.blocks.get id ≠ none) :
    ∃ calls, (manager.blockClearIter virtual id).trace = manager.trace ++ calls ∧
      ∀ ref factory, .destructor ref factory ∈ calls ↔ manager.FactoryOf id ref factory := by
  obtain ⟨ref, there⟩ := Option.ne_none_iff_exists'.mp there
  obtain ⟨block, found⟩ := Registry.find_of_get there
  rcases registered : manager.bk_factory_.lookup block.type_ with _ | factory
  · obtain ⟨-, -, trace⟩ := blockStop_found virtual found
    refine ⟨_, by rw [blockClearIter_refused virtual found registered, trace], ?_⟩
    intro other factory
    apply iff_of_false
    · split_ifs <;> simp
    · rintro ⟨block', found', registered'⟩
      obtain ⟨-, rfl⟩ := Prod.mk.inj (Option.some.inj (found.symm.trans found'))
      rw [registered] at registered'
      cases registered'
  · obtain ⟨-, -, trace⟩ := blockClearIter_found virtual found registered
    refine ⟨_, trace, fun other factory' => ?_⟩
    rw [Manager.FactoryOf.unique found registered]
    split_ifs <;> simp

/-- A step adds calls to the trace, destructor calls for the blocks that it destroys. -/
theorem Step.perform_calls {virtual : Virtual F W} {step : Step F} {before after : Manager F W}
    (taken : step.perform virtual before = some after) :
    ∃ calls, after.trace = before.trace ++ calls ∧
      ∀ ref factory, .destructor ref factory ∈ calls ↔ step.Destroys before ref factory := by
  cases step with
  | operation action =>
      obtain rfl := Option.some.inj taken
      by_cases deletion : ∃ id, action = .blockDel id
      · obtain ⟨id, rfl⟩ := deletion
        exact blockDel_calls virtual before id
      · have other := not_exists.mp deletion
        obtain ⟨calls, trace, none_destroyed⟩ := (action.perform_kept virtual before other).calls
        refine ⟨calls, trace, fun ref factory => iff_of_false (none_destroyed ref factory) ?_⟩
        cases action
        case blockDel id => exact absurd rfl (other id)
        all_goals exact id
  | blockClearIter id =>
      simp only [Step.perform, Option.ite_none_left_eq_some] at taken
      obtain ⟨there, taken⟩ := taken
      obtain rfl := Option.some.inj taken
      exact blockClearIter_calls virtual there

/-! ## The factories that one step leaves -/

/-- Every block found after was found before, with the same type. -/
def Inherited (before after : Registry) : Prop :=
  ∀ id ref block, after.find id = some (ref, block) →
    ∃ old, before.find id = some (ref, old) ∧ old.type_ = block.type_

theorem inherited_modify {blocks : Registry} {ref : BlockRef} {block : Block}
    (object : blocks.deref ref = some block) (f : Block → Block)
    (keeps : ∀ block, (f block).id_ = block.id_) (types : ∀ block, (f block).type_ = block.type_) :
    Inherited blocks (blocks.modify ref f keeps) := by
  have found := Registry.find_eq_some_iff.mpr ⟨object, rfl⟩
  intro id ref' block' found'
  rw [Registry.find_modify found] at found'
  split_ifs at found' with same
  · obtain ⟨rfl, rfl⟩ := Prod.mk.inj (Option.some.inj found')
    exact ⟨block, same ▸ found, (types block).symm⟩
  · exact ⟨block', found', rfl⟩

theorem inherited_setStarted {blocks : Registry} {ref : BlockRef} {block : Block}
    (object : blocks.deref ref = some block) (started : Bool) :
    Inherited blocks (blocks.setStarted ref started) :=
  inherited_modify object _ _ fun _ => rfl

theorem inherited_setSink {blocks : Registry} {ref : BlockRef} {block : Block}
    (object : blocks.deref ref = some block) (sink : BlockRef) :
    Inherited blocks (blocks.setSink ref sink) :=
  inherited_modify object _ _ fun _ => rfl

theorem inherited_remove {blocks : Registry} {id : Int} {ref : BlockRef} {block : Block}
    (found : blocks.find id = some (ref, block)) : Inherited blocks (blocks.remove id) := by
  intro other ref' block' found'
  rw [Registry.find_remove found] at found'
  split_ifs at found' with same
  exact ⟨block', found', rfl⟩

namespace Manager.FactoryOf

variable {before after : Manager F W} {id : Int} {ref : BlockRef} {factory : F}

theorem of_inherited (has : after.FactoryOf id ref factory)
    (inherited : Inherited before.blocks after.blocks)
    (factories : after.bk_factory_ = before.bk_factory_) : before.FactoryOf id ref factory := by
  obtain ⟨block, found, registered⟩ := has
  obtain ⟨old, found, same⟩ := inherited id ref block found
  refine ⟨old, found, ?_⟩
  rw [same, ← factories]
  exact registered

variable {virtual : Virtual F W}

theorem of_blockAdd {chosen : Int} {type_ : String}
    (has : (before.blockAdd virtual chosen type_).2.FactoryOf id ref factory) :
    before.FactoryOf id ref factory ∨
      (before.blockAdd virtual chosen type_).2.BuiltBy ref factory := by
  revert has
  unfold blockAdd
  split
  · exact .inl
  · rename_i free
    split
    · exact .inl
    · rename_i builder registered
      dsimp only
      split
      · exact .inl
      · rintro ⟨block, found, registered'⟩
        have found : (before.blocks.insert chosen type_ free).find id = some (ref, block) := found
        rw [Registry.find_insert] at found
        split_ifs at found
        · obtain ⟨rfl, rfl⟩ := Prod.mk.inj (Option.some.inj found)
          obtain rfl := Option.some.inj (registered.symm.trans registered')
          exact .inr (List.mem_append_right _ (List.mem_singleton_self _))
        · exact .inl ⟨block, found, registered'⟩

theorem of_blockStart {chosen : Int}
    (has : (before.blockStart virtual chosen).2.FactoryOf id ref factory) :
    before.FactoryOf id ref factory := by
  revert has
  unfold blockStart
  split
  · exact fun has => has
  · rename_i started block found
    split_ifs
    · exact fun has => has
    · obtain ⟨object, -⟩ := Registry.find_eq_some_iff.mp found
      intro has
      exact has.of_inherited (inherited_setStarted object true) rfl

theorem of_blockBind {src port dst : Int}
    (has : (before.blockBind virtual src port dst).2.FactoryOf id ref factory) :
    before.FactoryOf id ref factory := by
  revert has
  unfold blockBind
  split
  · rename_i bound target there there'
    obtain ⟨block, object, -⟩ := Registry.deref_of_get there
    intro has
    exact has.of_inherited (inherited_setSink object target) rfl
  · exact fun has => has

theorem of_blockStop {chosen : Int}
    (has : (before.blockStop virtual chosen).2.FactoryOf id ref factory) :
    before.FactoryOf id ref factory := by
  rcases before.blockStop_cases virtual chosen with same | ⟨stopped, block, found, -, same⟩
  · rw [same] at has
    exact has
  · rw [same] at has
    obtain ⟨object, -⟩ := Registry.find_eq_some_iff.mp found
    exact has.of_inherited (inherited_setStarted object false) rfl

theorem of_blockDel {chosen : Int}
    (has : (before.blockDel virtual chosen).2.FactoryOf id ref factory) :
    before.FactoryOf id ref factory := by
  rcases before.blockDel_cases virtual chosen with
    ⟨-, same⟩ | ⟨deleted, block, destroyer, found, -, -, same⟩
  · rw [same] at has
    exact has
  · rw [same] at has
    exact has.of_inherited (inherited_remove found) rfl

end Manager.FactoryOf

/-- The factories of a step's blocks were theirs before, or have just built or taken them over. -/
theorem Manager.FactoryOf.of_perform {virtual : Virtual F W} {step : Step F}
    {before after : Manager F W} {id : Int} {ref : BlockRef} {factory : F}
    (taken : step.perform virtual before = some after) (has : after.FactoryOf id ref factory) :
    before.FactoryOf id ref factory ∨ after.BuiltBy ref factory ∨
      ∃ block, step = .operation (.blockFactoryRegister block.type_ factory) ∧
        before.bk_factory_.lookup block.type_ = none ∧
        before.blocks.find id = some (ref, block) := by
  cases step with
  | operation action =>
      obtain rfl := Option.some.inj taken
      cases action with
      | blockAdd chosen type_ => exact has.of_blockAdd.imp_right .inl
      | blockStart chosen => exact .inl has.of_blockStart
      | blockStop chosen => exact .inl has.of_blockStop
      | blockDel chosen => exact .inl has.of_blockDel
      | blockBind src port dst => exact .inl has.of_blockBind
      | blockFactoryRegister type_ given =>
          change (before.blockFactoryRegister type_ given).FactoryOf id ref factory at has
          unfold Manager.blockFactoryRegister at has
          split at has
          · exact .inl has
          · rename_i missing
            obtain ⟨block, found, registered⟩ := has
            by_cases same : block.type_ = type_
            · subst same
              obtain rfl : given = factory :=
                Option.some.inj ((Finmap.lookup_insert _).symm.trans registered)
              exact .inr (.inr ⟨block, rfl, missing, found⟩)
            · exact .inl ⟨block, found, (Finmap.lookup_insert_of_ne _ same).symm.trans registered⟩
      | blockFactoryUnregister type_ =>
          obtain ⟨block, found, registered⟩ := has
          by_cases same : block.type_ = type_
          · subst same
            cases (Finmap.lookup_erase _ _).symm.trans registered
          · exact .inl ⟨block, found, (Finmap.lookup_erase_ne same).symm.trans registered⟩
      | blockFactoryClear =>
          obtain ⟨block, found, registered⟩ := has
          cases registered
  | blockClearIter chosen =>
      simp only [Step.perform, Option.ite_none_left_eq_some] at taken
      obtain ⟨-, taken⟩ := taken
      obtain rfl := Option.some.inj taken
      exact .inl has.of_blockDel.of_blockStop

/-! ## Whole runs -/

theorem Tracked.builder_unique {manager : Manager F W} (tracked : Tracked manager)
    {ref : BlockRef} {builder factory : F} (built : manager.BuiltBy ref builder)
    (built' : manager.BuiltBy ref factory) : builder = factory := by
  obtain ⟨first, count, rest, shape, ends⟩ := (tracked.lifeCycle built).shape
  have only : ∀ other, manager.BuiltBy ref other → other = first := by
    intro other member
    have there : .constructor ref other ∈ phases ref manager.trace := mem_phases member rfl
    rw [shape] at there
    rcases ends with rfl | rfl | ⟨destroyer, rfl⟩ <;> simpa [rounds] using there
  exact (only builder built).trans (only factory built').symm

/-- The registry follows the calls, and destructor calls were made on builders. -/
def Rightful (manager : Manager F W) : Prop :=
  Tracked manager ∧ ∀ ref destroyer, .destructor ref destroyer ∈ manager.trace →
    manager.BuiltBy ref destroyer

namespace Rightful

variable {virtual : Virtual F W} {step : Step F} {before after : Manager F W}

theorem destroyedByBuilder (rightful : Rightful before) : before.DestroyedByBuilder := by
  intro ref destroyer destroyed builder
  have built := rightful.2 ref destroyer destroyed
  constructor
  · exact fun built' => rightful.1.builder_unique built' built
  · rintro rfl
    exact built

theorem perform (rightful : Rightful before) (finds : step.FindsBuilder before)
    (taken : step.perform virtual before = some after) : Rightful after := by
  obtain ⟨calls, trace, destroyed⟩ := step.perform_calls taken
  refine ⟨rightful.1.step taken, fun ref destroyer member => ?_⟩
  rw [trace] at member
  rw [Manager.BuiltBy, trace]
  apply List.mem_append_left
  rcases List.mem_append.mp member with old | new
  · exact rightful.2 ref destroyer old
  · exact finds ref destroyer ((destroyed ref destroyer).mp new)

/-- Only a step that finds the builder leaves all destructor calls on builders. -/
theorem findsBuilder (rightful : Rightful before)
    (taken : step.perform virtual before = some after) (right : after.DestroyedByBuilder) :
    step.FindsBuilder before := by
  intro ref factory destroys
  obtain ⟨calls, trace, destroyed⟩ := step.perform_calls taken
  obtain ⟨id, block, found, -⟩ := destroys.factoryOf
  obtain ⟨object, -⟩ := Registry.find_eq_some_iff.mp found
  have live := Registry.live_iff.mpr ⟨block, object⟩
  obtain ⟨⟨builder, built⟩, -⟩ := (rightful.1.live_iff ref).mp live
  have built' : after.BuiltBy ref builder := by
    rw [Manager.BuiltBy, trace]
    exact List.mem_append_left _ built
  have gone : .destructor ref factory ∈ after.trace := by
    rw [trace]
    exact List.mem_append_right _ ((destroyed ref factory).mpr destroys)
  obtain rfl := (right ref factory gone builder).mp built'
  exact built

/-- What a deletion now would do is right exactly if names are registered for builders. -/
theorem deletesRightly_iff (virtual : Virtual F W) (rightful : Rightful before) :
    before.DeletesRightly virtual ↔ before.BuildersRegistered := by
  constructor
  · intro right id ref factory has
    have there : before.blocks.get id ≠ none := by
      obtain ⟨block, found, -⟩ := has
      rw [Registry.get_of_find found]
      exact Option.some_ne_none ref
    have cleared : (Step.blockClearIter id).perform virtual before =
        some (before.blockClearIter virtual id) := if_neg there
    exact rightful.findsBuilder cleared (right.2 id _ cleared) ref factory has
  · intro registered
    refine ⟨rightful.destroyedByBuilder, fun id cleared taken => ?_⟩
    exact (rightful.perform (registered.findsBuilder _) taken).destroyedByBuilder

/-- A registration that leaves names registered for builders takes no name over. -/
theorem keepsBuilders (taken : step.perform virtual before = some after)
    (registered : after.BuildersRegistered) : step.KeepsBuilders before := by
  rcases step with action | chosen
  · cases action with
    | blockFactoryRegister type_ factory =>
        intro missing id ref block found same
        obtain rfl := Option.some.inj taken
        subst same
        change (before.blockFactoryRegister block.type_ factory).BuildersRegistered at registered
        rw [Manager.blockFactoryRegister, missing] at registered
        exact registered id ref factory ⟨block, found, Finmap.lookup_insert _⟩
    | _ => trivial
  · trivial

end Rightful

theorem Manager.BuildersRegistered.perform {virtual : Virtual F W} {step : Step F}
    {before after : Manager F W} (registered : before.BuildersRegistered)
    (keeps : step.KeepsBuilders before) (taken : step.perform virtual before = some after) :
    after.BuildersRegistered := by
  obtain ⟨calls, trace, -⟩ := step.perform_calls taken
  intro id ref factory has
  rcases has.of_perform taken with old | built | ⟨block, rfl, missing, found⟩
  · rw [BuiltBy, trace]
    exact List.mem_append_left _ (registered id ref factory old)
  · exact built
  · rw [BuiltBy, trace]
    exact List.mem_append_left _ (keeps missing id ref block found rfl)

theorem rightful_new (world : W) : Rightful (Manager.new world : Manager F W) :=
  ⟨tracked_new world, fun _ _ destroyed => by cases destroyed⟩

theorem buildersRegistered_new (world : W) :
    (Manager.new world : Manager F W).BuildersRegistered := by
  rintro id ref factory ⟨block, -, registered⟩
  cases registered

/-- Blocks are destroyed by their builders throughout a run exactly if every deletion in it finds
the name of the type registered for the builder. They are, and would be by any deletion on the
way, exactly if no registration gives the name of the type of a block that is there to another
factory than its builder. -/
theorem destroyedByBuilder_iff (virtual : Virtual F W) (world : W) (steps : List (Step F)) :
    (Throughout (Step.perform virtual) Manager.DestroyedByBuilder steps (Manager.new world) ↔
        Guarded (Step.perform virtual) Step.FindsBuilder steps (Manager.new world)) ∧
      (Throughout (Step.perform virtual) (Manager.DeletesRightly virtual) steps
          (Manager.new world) ↔
        Guarded (Step.perform virtual) Step.KeepsBuilders steps (Manager.new world)) := by
  constructor
  · apply throughout_iff_guarded_of_invariant Rightful
    · exact fun _ rightful => rightful.destroyedByBuilder
    · exact fun _ _ _ rightful finds taken => rightful.perform finds taken
    · exact fun _ _ _ rightful taken right => rightful.findsBuilder taken right
    · exact rightful_new world
  · apply throughout_iff_guarded_of_invariant fun manager : Manager F W =>
      Rightful manager ∧ manager.BuildersRegistered
    · exact fun _ invariant => (invariant.1.deletesRightly_iff virtual).mpr invariant.2
    · intro step before after invariant keeps taken
      have finds := invariant.2.findsBuilder step
      exact ⟨invariant.1.perform finds taken, invariant.2.perform keeps taken⟩
    · intro step before after invariant taken right
      have rightful := invariant.1.perform (invariant.2.findsBuilder step) taken
      exact Rightful.keepsBuilders taken ((rightful.deletesRightly_iff virtual).mp right)
    · exact ⟨rightful_new world, buildersRegistered_new world⟩

/-- Two factories whose virtual functions do nothing. -/
def Virtual.twins : Virtual Bool Unit where
  constructor _ _ _ := (true, ())
  destructor _ _ _ := ()
  start_ _ _ := ()
  stop_ _ _ := ()
  bind_ _ _ _ _ := ()

/-- A block is built, the name of its type registered anew for a factory, and the block deleted. -/
def renewal (factory : Bool) : List (Step Bool) :=
  [.operation (.blockFactoryRegister "block_derived" true),
    .operation (.blockAdd 1 "block_derived"),
    .operation (.blockFactoryUnregister "block_derived"),
    .operation (.blockFactoryRegister "block_derived" factory), .operation (.blockDel 1)]

/-- The factory that built the block may be registered anew. -/
theorem destroyedByBuilder_iff_renewal : Throughout (Step.perform .twins)
    (Manager.DeletesRightly .twins) (renewal true) (Manager.new ()) := by
  refine (destroyedByBuilder_iff .twins () (renewal true)).2.mpr ?_
  have none_yet : ∀ id ref block, Registry.empty.find id ≠ some (ref, block) := by
    intro id ref block found
    cases found
  rintro _ ⟨⟩
  refine ⟨fun _ id ref block found => absurd found (none_yet id ref block), ?_⟩
  rintro _ ⟨⟩
  refine ⟨trivial, ?_⟩
  rintro _ ⟨⟩
  refine ⟨trivial, ?_⟩
  rintro _ ⟨⟩
  refine ⟨fun _ id ref block found _ => ?_, ?_⟩
  · have free : Registry.empty.get 1 = none := rfl
    have found : (Registry.empty.insert 1 "block_derived" free).find id = some (ref, block) :=
      found
    rw [Registry.find_insert] at found
    split_ifs at found
    · obtain ⟨rfl, rfl⟩ := Prod.mk.inj (Option.some.inj found)
      exact List.mem_singleton_self _
    · exact absurd found (none_yet id ref block)
  · rintro _ ⟨⟩
    exact ⟨trivial, trivial⟩

/-- The second factory of a type destroys a block that the first one built. -/
theorem destroyedByBuilder_not_renewal :
    ¬ ∀ final, run (Step.perform .twins) (renewal false) (Manager.new ()) = some final →
      final.DestroyedByBuilder := by
  intro right
  obtain ⟨final, execution⟩ := Option.isSome_iff_exists.mp
    (by decide : (run (Step.perform .twins) (renewal false) (Manager.new ())).isSome = true)
  have trace : final.trace = [.constructor 0 true, .destructor 0 false] := by
    have same : (run (Step.perform .twins) (renewal false) (Manager.new ())).map
        (fun final => final.trace) = some [.constructor 0 true, .destructor 0 false] := by decide
    simpa [execution] using same
  have built : final.BuiltBy 0 false :=
    (right final execution 0 false (by simp [trace]) false).mpr rfl
  simp [Manager.BuiltBy, trace] at built

end C3qo
