import C3qo.Visits

/-!
# Configuration of hooks

A command to configure a hook is for blocks that the `hook_zmq` factory has built. Blocks stay what
they were built as, but nothing keeps the command from naming a block of another kind.
-/

namespace C3qo

/-- Every block in the map is of the kind that the one factory which built it makes. -/
structure Built (manager : BlockManager) : Prop where
  /-- What has been built is older than what is built next. -/
  old : ∀ ref factory, .constructor ref factory ∈ manager.trace → ref < manager.blocks.next
  /-- The factory of a block and its kind go together. -/
  kinds : ∀ ref, manager.blocks.Live ref → ∃ derived, manager.kind ref = some derived ∧
    ∀ factory, .constructor ref factory ∈ manager.trace ↔ factory = derived.factory

/-- A block is of the kind that its factory makes. -/
theorem World.kind_constructor {platform : Platform} {factory : Factory} {ref : BlockRef}
    {world after : World} (answer : world.constructor platform factory ref = (true, after)) :
    ∃ derived, after.derived.lookup ref = some derived ∧ derived.factory = factory := by
  cases factory <;> simp only [constructor, Prod.mk.injEq, true_and, Bool.false_eq_true,
    false_and] at answer
  all_goals
    subst answer
    exact ⟨_, Finmap.lookup_insert _, rfl⟩

theorem World.factory_start (platform : Platform) (ref : BlockRef) (world : World)
    (other : BlockRef) : ((world.start_ platform ref).derived.lookup other).map Derived.factory =
      (world.derived.lookup other).map Derived.factory := by
  unfold start_
  split
  · rename_i hook there
    by_cases same : other = ref
    · subst same
      dsimp only [withHook]
      rw [there, Finmap.lookup_insert]
      rfl
    · exact congrArg (Option.map Derived.factory) (Finmap.lookup_insert_of_ne _ same)
  · rfl

theorem World.factory_stop (ref : BlockRef) (world : World) (other : BlockRef) :
    ((world.stop_ ref).derived.lookup other).map Derived.factory =
      (world.derived.lookup other).map Derived.factory := by
  unfold stop_
  split <;> rfl

/-- A call that builds nothing. -/
theorem constructor_mem_concat {trace : List (Event Factory)} {event : Event Factory}
    (other : ∀ ref factory, event ≠ .constructor ref factory) (ref : BlockRef)
    (factory : Factory) :
    .constructor ref factory ∈ trace ++ [event] ↔ .constructor ref factory ∈ trace := by
  simp only [List.mem_append, List.mem_singleton]
  exact or_iff_left fun same => other ref factory same.symm

namespace Built

variable {before after : BlockManager} (built : Built before)

include built

/-- Only what is built and destroyed and the kinds of blocks matter. -/
theorem congr (next : after.blocks.next = before.blocks.next)
    (live : ∀ ref, after.blocks.Live ref → before.blocks.Live ref)
    (kinds : ∀ ref, after.blocks.Live ref →
      (after.kind ref).map Derived.factory = (before.kind ref).map Derived.factory)
    (trace : ∀ ref factory,
      .constructor ref factory ∈ after.trace ↔ .constructor ref factory ∈ before.trace) :
    Built after := by
  refine ⟨fun ref factory member => ?_, fun ref alive => ?_⟩
  · rw [next]
    exact built.old ref factory ((trace ref factory).mp member)
  · obtain ⟨derived, kind, made⟩ := built.kinds ref (live ref alive)
    have same := kinds ref alive
    rw [kind] at same
    obtain ⟨derived', kind', factory⟩ := Option.map_eq_some_iff.mp same
    refine ⟨derived', kind', fun other => ?_⟩
    rw [trace, made, factory]

/-- A block may get other fields of its kind. -/
theorem setDerived {ref : BlockRef} {old derived : Derived} (kind : before.kind ref = some old)
    (factory : derived.factory = old.factory) : Built (before.setDerived ref derived) := by
  refine built.congr rfl (fun _ live => live) (fun other _ => ?_) (fun _ _ => Iff.rfl)
  by_cases same : other = ref
  · subst same
    rw [before.kind_setDerived, kind]
    exact congrArg some factory
  · rw [before.kind_setDerived_of_ne derived same]

theorem stopped (platform : Platform) (ref : BlockRef) :
    Built ((before.setStarted ref false).called (.stop_ ref)
      ((virtual platform).stop_ ref (before.setStarted ref false))) :=
  built.congr (Registry.next_setStarted ..) (fun _ live => (Registry.live_setStarted ..).mp live)
    (fun other _ => World.factory_stop ref before.world other)
    (constructor_mem_concat fun _ _ => by simp)

theorem changed {platform : Platform} (change : Change (virtual platform) before after) :
    Built after := by
  cases change with
  | same after blocks world trace =>
      exact built.congr (by rw [blocks]) (fun ref live => by rwa [blocks] at live)
        (fun ref _ => by rw [BlockManager.kind, world]; rfl) (fun ref factory => by rw [trace])
  | refused factory world answer =>
      obtain rfl := World.constructor_false answer
      exact built
  | built id type_ factory free registered world answer =>
      obtain ⟨-, -, -, others⟩ := World.constructor_frame answer
      refine ⟨fun ref other member => ?_, fun ref live => ?_⟩
      · rcases List.mem_append.mp member with earlier | now
        · exact Nat.lt_succ_of_lt (built.old ref other earlier)
        · cases List.mem_singleton.mp now
          exact Nat.lt_succ_self _
      · by_cases same : ref = before.blocks.next
        · obtain ⟨derived, kind, rfl⟩ := World.kind_constructor answer
          subst same
          refine ⟨derived, kind, fun other => ?_⟩
          simp only [Manager.called, List.mem_append, List.mem_singleton, Event.constructor.injEq,
            true_and]
          exact or_iff_right fun earlier => Nat.lt_irrefl _ (built.old _ _ earlier)
        · have live' : before.blocks.Live ref := by
            obtain ⟨block, object⟩ := Registry.live_iff.mp live
            refine Registry.live_iff.mpr ⟨block, ?_⟩
            simpa [Manager.called, Registry.deref_insert, same] using object
          obtain ⟨derived, kind, made⟩ := built.kinds ref live'
          refine ⟨derived, (others ref same).trans kind, fun other => ?_⟩
          rw [← made other]
          simp [Manager.called, same]
  | started ref block object idle =>
      exact built.congr (Registry.next_setStarted ..)
        (fun other live => (Registry.live_setStarted ..).mp live)
        (fun other _ => World.factory_start platform ref before.world other)
        (constructor_mem_concat fun _ _ => by simp)
  | bound src port dst live_src live_dst =>
      exact built.congr (Registry.next_setSink ..)
        (fun other live => (Registry.live_setSink ..).mp live) (fun _ _ => rfl)
        (constructor_mem_concat fun _ _ => by simp)

end Built

/-- Blocks stay what they were built as, whatever blocks do. -/
theorem stable_built (platform : Platform) : Stable platform Built where
  record _ _ built := built.congr rfl (fun _ live => live) (fun _ _ => rfl) (fun _ _ => Iff.rfl)
  counted _ _ _ _ _ kind built := built.setDerived kind rfl
  hook manager ref _ hook' _ kind _ built := by
    have configured : Built (BlockManager.setDerived manager ref (.hookZmq hook')) :=
      built.setDerived kind rfl
    exact configured.congr rfl (fun _ live => live) (fun _ _ => rfl) (fun _ _ => Iff.rfl)
  zmq _ _ built := built.congr rfl (fun _ live => live) (fun _ _ => rfl) (fun _ _ => Iff.rfl)
  operation manager operation built := by
    refine Operation.perform_preserves (virtual platform) manager Built
      (fun after change => built.changed change)
      (fun id ref block _ found running => built.stopped platform ref) ?_
    intro ref block factory object idle registered
    have there := Registry.id_of_deref object
    refine built.congr (Registry.next_remove ..)
      (fun other live => ((Registry.live_remove there other).mp live).1) (fun other live => ?_)
      (fun other factory' => ?_)
    · have different := ((Registry.live_remove there other).mp live).2
      exact congrArg (Option.map Derived.factory) (Finmap.lookup_erase_ne different)
    · simp [Manager.called]
  stop_ _ built := built.congr rfl (fun _ live => live) (fun _ _ => rfl) (fun _ _ => Iff.rfl)

theorem built_of_visited {platform : Platform} {identity : String} {manager : BlockManager}
    (visited : Visited platform identity manager) : Built manager := by
  refine (stable_built platform).steady.visited ⟨fun _ _ member => (by cases member), ?_⟩ ?_ visited
  · intro ref live
    obtain ⟨block, object⟩ := Registry.live_iff.mp live
    cases object
  · exact fun manager built => built.congr rfl (fun _ live => live) (fun _ _ => rfl)
      (fun _ _ => Iff.rfl)

/-- The block was built by the `hook_zmq` factory. -/
def BuiltAsHook (manager : BlockManager) (ref : BlockRef) : Prop :=
  .constructor ref .hookZmq ∈ manager.trace

/-- Configuration respects the types of blocks: of a block that the `hook_zmq` factory has built
it sets exactly the four fields and succeeds, and otherwise it fails and changes nothing. -/
structure Respects (platform : Platform) (manager : BlockManager) (data : Bytes) (id : Int)
    (client : Bool) (type_ : Int) (name addr : String) : Prop where
  /-- The block under the identifier is a hook. -/
  hook : ∀ ref, manager.blockGet id = some ref → BuiltAsHook manager ref →
    ∃ hook, manager.kind ref = some (.hookZmq hook) ∧ protoCommandParse platform data manager =
      .ok (true, manager.setDerived ref (.hookZmq
        { hook with client_ := client, type_ := type_, name_ := name, addr_ := addr }))
  /-- There is no block under the identifier, or it is none. -/
  other : (∀ ref, manager.blockGet id = some ref → ¬ BuiltAsHook manager ref) →
    protoCommandParse platform data manager = .ok (false, manager)

/-- In every state that `c3qo` passes, a command to configure a hook respects the types of blocks
if and only if its identifier is unknown or names a block that the `hook_zmq` factory has built. -/
theorem configure_respects_iff (platform : Platform) (identity : String) (manager : BlockManager)
    (visited : Visited platform identity manager) (data : Bytes) (id : Int) (client : Bool)
    (type_ : Int) (name addr : String)
    (unpacked : platform.unpack data = some (.hookZmq id client type_ name addr)) :
    Respects platform manager data id client type_ name addr ↔
      ∀ ref, manager.blockGet id = some ref → BuiltAsHook manager ref := by
  have built := built_of_visited visited
  constructor
  · intro respects ref there
    by_contra foreign
    have refused := respects.other fun other there' => by
      obtain rfl := Option.some.inj (there.symm.trans there')
      exact foreign
    obtain ⟨derived, kind, made⟩ := built.kinds ref (Registry.live_iff_mapped.mpr ⟨id, there⟩)
    simp only [protoCommandParse, unpacked, there, kind] at refused
    cases derived with
    | hookZmq hook => exact foreign ((made .hookZmq).mpr rfl)
    | hello | transPb => cases refused
  · intro hooks
    refine ⟨fun ref there made => ?_, fun others => ?_⟩
    · obtain ⟨derived, kind, factories⟩ :=
        built.kinds ref (Registry.live_iff_mapped.mpr ⟨id, there⟩)
      have factory := (factories .hookZmq).mp made
      cases derived with
      | hookZmq hook =>
          refine ⟨hook, kind, ?_⟩
          simp only [protoCommandParse, unpacked, there, kind]
      | hello | transPb => cases factory
    · have unknown : manager.blockGet id = none := by
        by_contra known
        obtain ⟨ref, there⟩ := Option.ne_none_iff_exists'.mp known
        exact others ref there (hooks ref there)
      simp only [protoCommandParse, unpacked, unknown]

/-- A platform on which every command configures the `trans_pb` of `main` as a hook. -/
def misconfigured : Platform :=
  Platform.plain fun _ => some (.hookZmq (-2) true ZMQ_DEALER "name" "addr")

theorem configure_respects_own :
    let platform := Platform.plain fun _ => some (.hookZmq (-1) true ZMQ_DEALER "name" "addr")
    Respects platform (c3qoMain platform "c3qo") [] (-1) true ZMQ_DEALER "name" "addr" := by
  intro platform
  refine (configure_respects_iff platform "c3qo" _ (.waiting [] _ rfl) [] (-1) true ZMQ_DEALER
    "name" "addr" rfl).mpr fun ref there => ?_
  have first : (c3qoMain platform "c3qo").blockGet (-1) = some 0 := by decide +kernel
  obtain rfl := Option.some.inj (first.symm.trans there)
  have made : .constructor 0 .hookZmq ∈ (c3qoMain platform "c3qo").trace := by decide +kernel
  exact made

/-- Configuring the `trans_pb` of `main` does not fail: it is taken for a hook. -/
theorem configure_transPb :
    Visited misconfigured "c3qo" (c3qoMain misconfigured "c3qo") ∧
      protoCommandParse misconfigured [] (c3qoMain misconfigured "c3qo") = .error (.badCast 1) ∧
      ¬ Respects misconfigured (c3qoMain misconfigured "c3qo") [] (-2) true ZMQ_DEALER "name"
        "addr" := by
  have outcome : protoCommandParse misconfigured [] (c3qoMain misconfigured "c3qo") matches
      .error (.badCast 1) := by decide +kernel
  have fault : protoCommandParse misconfigured [] (c3qoMain misconfigured "c3qo") =
      .error (.badCast 1) := by
    split at outcome
    · assumption
    · cases outcome
  refine ⟨.waiting [] _ rfl, fault, fun respects => ?_⟩
  have second : (c3qoMain misconfigured "c3qo").blockGet (-2) = some 1 := by decide +kernel
  have made : .constructor 1 .hookZmq ∉ (c3qoMain misconfigured "c3qo").trace := by decide +kernel
  have refused := respects.other fun ref there => by
    obtain rfl := Option.some.inj (second.symm.trans there)
    exact made
  rw [fault] at refused
  cases refused

end C3qo
