import C3qo.LifeCycle
import Mathlib.Data.Finset.Max

/-!
# Clearing all blocks

The loop of `manager::block_clear` stops and deletes whichever block the iterator of the map comes
to. Each round takes one block out of the map, if the type of that block still has a factory. A
block whose type has lost its factory stays, and the loop never ends.
-/

namespace C3qo

variable {F W : Type}

namespace Manager

/-- The keys that the map's iterator yields in a number of rounds of `block_clear`. Which of the
keys comes first may depend on the map and on the rounds before. -/
def picked (virtual : Virtual F W) (pick : Nat → Registry → Int) :
    Nat → Nat → Manager F W → List Int
  | 0, _, _ => []
  | rounds + 1, round, manager =>
      let id := pick round manager.blocks
      id :: picked virtual pick rounds (round + 1) (manager.blockClearIter virtual id)

/-- `manager::~manager`, given the keys that the map's iterator yields. Timers are part of the
world. -/
def destroy (virtual : Virtual F W) (timerClear : W → W) (order : List Int)
    (manager : Manager F W) : Option (Manager F W) :=
  (blockClear virtual order { manager with world := timerClear manager.world }).map
    blockFactoryClear

end Manager

/-- The iterator of a map that is not empty yields a key of it. -/
def PicksKeys (pick : Nat → Registry → Int) : Prop :=
  ∀ round (blocks : Registry), blocks.bk_map_ ≠ ∅ → blocks.get (pick round blocks) ≠ none

/-- No block is left, and each was stopped if it was started, and then destroyed. -/
structure Emptied (before after : Manager F W) : Prop where
  /-- The map is empty. -/
  empty : after.blocks.bk_map_ = ∅
  /-- The calls made on each block that was there, and none on others. -/
  calls : ∃ calls, after.trace = before.trace ++ calls ∧
    (∀ ref block, before.blocks.deref ref = some block → ∃ factory,
      before.bk_factory_.lookup block.type_ = some factory ∧ callsOn ref calls =
        (if block.is_started_ then [.stop_ ref] else []) ++ [.destructor ref factory]) ∧
    ∀ ref, before.blocks.deref ref = none → callsOn ref calls = []

/-- The type of every block has a factory. -/
def Registered (manager : Manager F W) : Prop :=
  ∀ id ref block, manager.blocks.find id = some (ref, block) →
    (manager.bk_factory_.lookup block.type_).isSome

section

variable {virtual : Virtual F W} {manager : Manager F W} {id : Int} {ref : BlockRef}
  {block : Block} {factory : F}

/-- What stopping does to the block of an identifier. -/
theorem blockStop_found (virtual : Virtual F W)
    (found : manager.blocks.find id = some (ref, block)) :
    let after := (manager.blockStop virtual id).2
    after.bk_factory_ = manager.bk_factory_ ∧
      (∀ other, after.blocks.find other =
        if other = id then some (ref, { block with is_started_ := false })
        else manager.blocks.find other) ∧
      after.trace = manager.trace ++ if block.is_started_ then [.stop_ ref] else [] := by
  dsimp only [Manager.blockStop]
  rw [found]
  dsimp only
  split_ifs with running
  · exact ⟨rfl, Registry.find_setStarted found false, rfl⟩
  · refine ⟨rfl, fun other => ?_, (List.append_nil _).symm⟩
    split_ifs with same
    · subst same
      rw [found, ← Bool.eq_false_iff.mpr running]
    · rfl

/-- A round of the loop takes the block out of the map, if its type has a factory. -/
theorem blockClearIter_found (virtual : Virtual F W)
    (found : manager.blocks.find id = some (ref, block))
    (registered : manager.bk_factory_.lookup block.type_ = some factory) :
    let after := manager.blockClearIter virtual id
    after.bk_factory_ = manager.bk_factory_ ∧
      (∀ other, after.blocks.find other =
        if other = id then none else manager.blocks.find other) ∧
      after.trace = manager.trace ++
        ((if block.is_started_ then [.stop_ ref] else []) ++ [.destructor ref factory]) := by
  obtain ⟨factories, finds, trace⟩ := blockStop_found virtual found
  have stopped := finds id
  rw [if_pos rfl] at stopped
  rw [← factories] at registered
  dsimp only [Manager.blockClearIter, Manager.blockDel]
  rw [stopped]
  dsimp only
  rw [if_neg Bool.false_ne_true, registered]
  refine ⟨factories, fun other => (Registry.find_remove stopped other).trans ?_, ?_⟩
  · rw [finds]
    split_ifs <;> rfl
  · rw [← List.append_assoc, ← trace]
    rfl

/-- A round of the loop that comes to a block whose type has no factory only stops it. -/
theorem blockClearIter_refused (virtual : Virtual F W)
    (found : manager.blocks.find id = some (ref, block))
    (unregistered : manager.bk_factory_.lookup block.type_ = none) :
    manager.blockClearIter virtual id = (manager.blockStop virtual id).2 := by
  obtain ⟨factories, finds, -⟩ := blockStop_found virtual found
  have stopped := finds id
  rw [if_pos rfl] at stopped
  rw [← factories] at unregistered
  dsimp only [Manager.blockClearIter, Manager.blockDel]
  rw [stopped]
  dsimp only
  rw [if_neg Bool.false_ne_true, unregistered]

/-- No round of the loop gives a block whose type has no factory another fate. -/
theorem not_registered_blockClearIter (virtual : Virtual F W) (chosen : Int)
    (stuck : ¬ Registered manager) : ¬ Registered (manager.blockClearIter virtual chosen) := by
  simp only [Registered, not_forall, Option.not_isSome_iff_eq_none] at stuck ⊢
  obtain ⟨id, ref, block, found, unregistered⟩ := stuck
  rcases chosen_found : manager.blocks.find chosen with _ | ⟨ref', block'⟩
  · have same : manager.blockClearIter virtual chosen = manager := by
      simp only [Manager.blockClearIter, Manager.blockStop, Manager.blockDel, chosen_found]
    rw [same]
    exact ⟨id, ref, block, found, unregistered⟩
  · rcases registered : manager.bk_factory_.lookup block'.type_ with _ | factory
    · obtain ⟨factories, finds, -⟩ := blockStop_found virtual chosen_found
      rw [blockClearIter_refused virtual chosen_found registered, factories]
      refine ⟨chosen, ref', { block' with is_started_ := false }, ?_, registered⟩
      rw [finds, if_pos rfl]
    · obtain ⟨factories, finds, -⟩ := blockClearIter_found virtual chosen_found registered
      have other : id ≠ chosen := by
        rintro rfl
        rw [found] at chosen_found
        cases chosen_found
        rw [unregistered] at registered
        cases registered
      refine ⟨id, ref, block, ?_, factories ▸ unregistered⟩
      rw [finds, if_neg other, found]

end

/-! ## Whole loops -/

theorem mem_keys_iff {blocks : Registry} {id : Int} :
    id ∈ blocks.bk_map_.keys ↔ ∃ ref block, blocks.find id = some (ref, block) := by
  rw [Finmap.mem_keys, Finmap.mem_iff]
  constructor
  · rintro ⟨ref, there⟩
    exact ⟨ref, Registry.find_of_get there⟩
  · rintro ⟨ref, block, found⟩
    exact ⟨ref, Registry.get_of_find found⟩

/-- The blocks left once an identifier has been taken out. -/
structure TakenOut (id : Int) (ref : BlockRef) (before after : Registry) : Prop where
  /-- The block that was there. -/
  found : ∃ block, before.find id = some (ref, block)
  /-- What is found of the others. -/
  finds : ∀ other, after.find other = if other = id then none else before.find other

namespace TakenOut

variable {id : Int} {ref : BlockRef} {before after : Registry}

theorem keys (taken : TakenOut id ref before after) :
    after.bk_map_.keys = before.bk_map_.keys.erase id := by
  ext other
  rw [Finset.mem_erase, mem_keys_iff, mem_keys_iff, taken.finds]
  split_ifs with same <;> simp [same]

theorem card (taken : TakenOut id ref before after) :
    after.bk_map_.keys.card + 1 = before.bk_map_.keys.card := by
  obtain ⟨block, found⟩ := taken.found
  rw [taken.keys]
  exact Finset.card_erase_add_one (mem_keys_iff.mpr ⟨ref, block, found⟩)

theorem deref (taken : TakenOut id ref before after) (other : BlockRef) :
    after.deref other = if other = ref then none else before.deref other := by
  obtain ⟨old, found⟩ := taken.found
  obtain ⟨object, rfl⟩ := Registry.find_eq_some_iff.mp found
  refine Option.ext fun block => ?_
  have through : after.deref other = some block ↔
      block.id_ ≠ old.id_ ∧ before.deref other = some block := by
    have by_id : ∀ blocks : Registry, blocks.deref other = some block ↔
        blocks.find block.id_ = some (other, block) := fun blocks => by
      rw [Registry.find_eq_some_iff, and_iff_left rfl]
    rw [by_id, by_id, taken.finds]
    split_ifs with same <;> simp [same]
  rw [through]
  split_ifs with same
  · subst same
    rw [object]
    refine iff_of_false ?_ (by simp)
    rintro ⟨different, same⟩
    exact different (congrArg Block.id_ (Option.some.inj same)).symm
  · refine and_iff_right_of_imp fun there clash => same ?_
    exact Option.some.inj ((Registry.id_of_deref there).symm.trans
      (clash ▸ Registry.id_of_deref object))

end TakenOut

variable {pick : Nat → Registry → Int}

theorem emptied_of_empty {manager : Manager F W} (empty : manager.blocks.bk_map_ = ∅) :
    Emptied manager manager := by
  have nothing : ∀ ref, manager.blocks.deref ref = none := by
    intro ref
    by_contra there
    obtain ⟨block, object⟩ := Option.ne_none_iff_exists'.mp there
    have mapped : manager.blocks.bk_map_.lookup block.id_ = some ref :=
      Registry.id_of_deref object
    rw [empty, Finmap.lookup_empty] at mapped
    cases mapped
  refine ⟨empty, [], (List.append_nil _).symm, fun ref block object => ?_, fun _ _ => rfl⟩
  rw [nothing ref] at object
  cases object

/-- The calls of a round and those of the rounds after it. -/
theorem Emptied.cons {before next after : Manager F W} {id : Int} {ref : BlockRef} {block : Block}
    {factory : F} (taken : TakenOut id ref before.blocks next.blocks)
    (object : before.blocks.deref ref = some block)
    (registered : before.bk_factory_.lookup block.type_ = some factory)
    (factories : next.bk_factory_ = before.bk_factory_)
    (trace : next.trace = before.trace ++
      ((if block.is_started_ then [.stop_ ref] else []) ++ [.destructor ref factory]))
    (rest : Emptied next after) : Emptied before after := by
  obtain ⟨calls, later, there, absent⟩ := rest.calls
  let now : List (Event F) :=
    (if block.is_started_ then [.stop_ ref] else []) ++ [.destructor ref factory]
  have mine : callsOn ref now = now := by
    refine List.filter_eq_self.mpr fun event member => decide_eq_true ?_
    rcases List.mem_append.mp member with stop | destroy
    · split_ifs at stop
      · obtain rfl := List.mem_singleton.mp stop
        rfl
      · cases stop
    · obtain rfl := List.mem_singleton.mp destroy
      rfl
  have others : ∀ other, other ≠ ref → callsOn other now = [] := by
    intro other different
    rw [← mine, callsOn, callsOn, List.filter_filter, List.filter_eq_nil_iff]
    rintro event - both
    simp only [Bool.and_eq_true, decide_eq_true_eq] at both
    exact different (both.1.symm.trans both.2)
  refine ⟨rest.empty, now ++ calls, ?_, fun other block' object' => ?_, fun other missing => ?_⟩
  · rw [later, trace, List.append_assoc]
  · rw [callsOn_append]
    by_cases same : other = ref
    · subst same
      obtain rfl := Option.some.inj (object.symm.trans object')
      refine ⟨factory, registered, ?_⟩
      rw [mine, absent other (by rw [taken.deref, if_pos rfl]), List.append_nil]
    · obtain ⟨factory', registered', made⟩ := there other block'
        (by rw [taken.deref, if_neg same, object'])
      refine ⟨factory', factories ▸ registered', ?_⟩
      rw [others other same, made, List.nil_append]
  · have same : other ≠ ref := by
      rintro rfl
      rw [object] at missing
      cases missing
    rw [callsOn_append, others other same, absent other (by rw [taken.deref, if_neg same, missing])]
    rfl

/-- With every type registered the loop takes one round for each block. -/
theorem blockClear_of_registered (virtual : Virtual F W) (picks : PicksKeys pick)
    {manager : Manager F W}
    (registered : Registered manager) (round : Nat) :
    ∃ after, manager.blockClear virtual
        (manager.picked virtual pick manager.blocks.bk_map_.keys.card round) = some after ∧
      Emptied manager after := by
  induction size : manager.blocks.bk_map_.keys.card generalizing manager round with
  | zero =>
      have empty : manager.blocks.bk_map_ = ∅ := by
        refine Finmap.ext_lookup fun id => ?_
        rw [Finmap.lookup_empty, Finmap.lookup_eq_none, ← Finmap.mem_keys,
          Finset.card_eq_zero.mp size]
        exact Finset.notMem_empty id
      exact ⟨manager, if_pos empty, emptied_of_empty empty⟩
  | succ size' ih =>
      have some_left : manager.blocks.bk_map_ ≠ ∅ := by
        intro empty
        rw [empty, Finmap.keys_empty] at size
        cases size
      have there := picks round manager.blocks some_left
      obtain ⟨ref, mapped⟩ := Option.ne_none_iff_exists'.mp there
      obtain ⟨block, found⟩ := Registry.find_of_get mapped
      obtain ⟨factory, known⟩ := Option.isSome_iff_exists.mp (registered _ _ _ found)
      obtain ⟨factories, finds, trace⟩ := blockClearIter_found virtual found known
      have taken : TakenOut _ ref manager.blocks _ := ⟨⟨block, found⟩, finds⟩
      have registered' :
          Registered (manager.blockClearIter virtual (pick round manager.blocks)) := by
        intro id ref' block' found'
        rw [finds] at found'
        split_ifs at found'
        rw [factories]
        exact registered id ref' block' found'
      obtain ⟨after, cleared, emptied⟩ := ih registered' (round + 1) (by
        have := taken.card
        omega)
      refine ⟨after, ?_, emptied.cons taken (Registry.find_eq_some_iff.mp found).1 known
        factories trace⟩
      rw [Manager.picked, Manager.blockClear, if_neg there]
      exact cleared

/-- With a type that is not registered the loop never ends. -/
theorem blockClear_of_not_registered (virtual : Virtual F W) (order : List Int)
    {manager : Manager F W} (stuck : ¬ Registered manager) :
    manager.blockClear virtual order = none := by
  induction order generalizing manager with
  | nil =>
      refine if_neg fun empty => stuck fun id ref block found => ?_
      have mapped : manager.blocks.bk_map_.lookup id = some ref := Registry.get_of_find found
      rw [empty, Finmap.lookup_empty] at mapped
      cases mapped
  | cons id order ih =>
      rw [Manager.blockClear]
      split_ifs
      · rfl
      · exact ih (not_registered_blockClearIter virtual id stuck)

theorem registered_iff {manager : Manager F W} :
    Registered manager ↔ ∀ ref block, manager.blocks.deref ref = some block →
      (manager.bk_factory_.lookup block.type_).isSome := by
  constructor
  · exact fun registered ref block object =>
      registered block.id_ ref block (Registry.find_eq_some_iff.mpr ⟨object, rfl⟩)
  · exact fun registered id ref block found =>
      registered ref block (Registry.find_eq_some_iff.mp found).1

/-- Whatever blocks and factories there are, and in whatever order the map's iterator yields its
keys: `block_clear` ends, with every block stopped that was started and every block destroyed, if
and only if the type of every block has a factory. The same holds of the destructor of the
manager. -/
theorem blockClear_ends_iff (virtual : Virtual F W) (timerClear : W → W)
    (pick : Nat → Registry → Int) (picks : PicksKeys pick) (manager : Manager F W) :
    ((∃ rounds after, manager.blockClear virtual (manager.picked virtual pick rounds 0) =
        some after ∧ Emptied manager after) ↔
      ∀ ref block, manager.blocks.deref ref = some block →
        (manager.bk_factory_.lookup block.type_).isSome) ∧
    ((∃ rounds after, manager.destroy virtual timerClear
        (Manager.picked virtual pick rounds 0
          { manager with world := timerClear manager.world }) = some after ∧
        Emptied manager after ∧ after.bk_factory_ = ∅) ↔
      ∀ ref block, manager.blocks.deref ref = some block →
        (manager.bk_factory_.lookup block.type_).isSome) := by
  rw [← registered_iff]
  refine ⟨⟨?_, fun registered => ?_⟩, ⟨?_, fun registered => ?_⟩⟩
  · rintro ⟨rounds, after, cleared, -⟩
    by_contra stuck
    rw [blockClear_of_not_registered virtual _ stuck] at cleared
    cases cleared
  · obtain ⟨after, cleared, emptied⟩ :=
      blockClear_of_registered virtual picks registered 0
    exact ⟨_, after, cleared, emptied⟩
  · rintro ⟨rounds, after, destroyed, -⟩
    by_contra stuck
    have stuck' : ¬ Registered { manager with world := timerClear manager.world } := stuck
    rw [Manager.destroy, blockClear_of_not_registered virtual _ stuck'] at destroyed
    cases destroyed
  · have registered' : Registered { manager with world := timerClear manager.world } := registered
    obtain ⟨after, cleared, emptied⟩ :=
      blockClear_of_registered virtual picks registered' 0
    refine ⟨manager.blocks.bk_map_.keys.card, after.blockFactoryClear, ?_,
      ⟨emptied.empty, emptied.calls⟩, rfl⟩
    rw [Manager.destroy, cleared]
    rfl

/-- An iterator that yields the least key first. -/
def leastKey (_ : Nat) (blocks : Registry) : Int := blocks.bk_map_.keys.min.untopD 0

theorem picksKeys_leastKey : PicksKeys leastKey := by
  intro round blocks some_left missing
  have nonempty : blocks.bk_map_.keys.Nonempty := by
    rw [Finset.nonempty_iff_ne_empty]
    refine fun empty => some_left (Finmap.ext_lookup fun id => ?_)
    rw [Finmap.lookup_empty, Finmap.lookup_eq_none, ← Finmap.mem_keys, empty]
    exact Finset.notMem_empty id
  obtain ⟨least, minimum⟩ := Finset.min_of_nonempty nonempty
  have member := Finset.mem_of_min minimum
  rw [leastKey, minimum, WithTop.untopD_coe] at missing
  obtain ⟨ref, there⟩ := Finmap.mem_iff.mp (Finmap.mem_keys.mp member)
  exact absurd (missing.symm.trans there) (by simp)

/-- A manager with three blocks of two registered types, two of them started. -/
def threeBlocks : Manager Unit Unit :=
  [.blockFactoryRegister "t" (), .blockFactoryRegister "u" (), .blockAdd 7 "t", .blockAdd 1 "u",
    .blockAdd 4 "t", .blockStart 7, .blockStart 4, .blockBind 7 0 1].foldl
      (Operation.perform .inert) (Manager.new ())

theorem blockClear_ends_threeBlocks :
    threeBlocks.blocks.started 0 = true ∧ threeBlocks.blocks.started 1 = false ∧
      ∃ rounds after, threeBlocks.blockClear .inert
        (threeBlocks.picked .inert leastKey rounds 0) = some after ∧ Emptied threeBlocks after := by
  refine ⟨by decide +kernel, by decide +kernel,
    (blockClear_ends_iff .inert id leastKey picksKeys_leastKey threeBlocks).1.mpr ?_⟩
  intro ref block object
  have old : ref < 3 := threeBlocks.blocks.fresh ref block object
  have known : ∀ ref < 3, ∀ block ∈ threeBlocks.blocks.deref ref,
      (threeBlocks.bk_factory_.lookup block.type_).isSome := by
    decide +kernel
  exact known ref old block object

/-- A block whose type has been unregistered keeps `block_clear` from ending, whatever the order of
the map. -/
theorem blockClear_endless :
    ∃ manager, Execution.run (Step.perform .inert)
        [.operation (.blockFactoryRegister "t" ()), .operation (.blockAdd 1 "t"),
          .operation (.blockFactoryUnregister "t")] (Manager.new ()) = some manager ∧
      ∀ order, manager.blockClear .inert order = none := by
  refine ⟨_, rfl, fun order => blockClear_of_not_registered .inert order fun registered => ?_⟩
  have known := registered 1 0 ⟨1, "t", false, none⟩ (by decide +kernel)
  revert known
  decide +kernel

end C3qo
