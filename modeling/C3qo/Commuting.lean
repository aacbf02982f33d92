import C3qo.CommandResult
import C3qo.Locality

/-!
# Commands that name different blocks

Seen from outside, a command looks at the blocks that it names and rewrites the first of them.
What it does to the block map is stated here without pointers: objects built since some moment are
told apart by their identifiers only, and what the ZeroMQ calls have returned is left out. The
interpreter does what is stated, so that commands which name different blocks commute.
-/

namespace C3qo

open Locality

/-! ## Blocks as they are compared -/

/-- The fields of a block, without what the ZeroMQ calls have returned to it. -/
def Derived.configured : Derived → Derived
  | .hello name_ count_ => .hello name_ count_
  | .transPb => .transPb
  | .hookZmq hook =>
      .hookZmq { hook with zmq_ctx_ := 0, zmq_sock_ := ⟨none, -1, none, false, false⟩ }

/-- A block as it is compared with others. -/
structure BlockView where
  /-- The object, if it is an old one. -/
  identity : Option BlockRef
  /-- Block type. -/
  type_ : String
  /-- Block state. -/
  is_started_ : Bool
  /-- Block binding; the sink is known if it is an old object. -/
  sink_ : Option (Option BlockRef)
  /-- The fields that its kind adds. -/
  derived : Option Derived

/-- An object is old if it had been built when `next` was the next one to be built. -/
def oldObject (next ref : BlockRef) : Option BlockRef := if ref < next then some ref else none

/-- The blocks by identifier. -/
def BlockManager.views (manager : BlockManager) (next : BlockRef) (id : Int) : Option BlockView :=
  (manager.blocks.find id).map fun found =>
    { identity := oldObject next found.1
      type_ := found.2.type_
      is_started_ := found.2.is_started_
      sink_ := found.2.sink_.map (oldObject next)
      derived := (BlockManager.kind manager found.1).map Derived.configured }

/-! ## What commands mean -/

/-- The block that a factory builds. -/
def Factory.newborn : Factory → Option Derived
  | .hello => some (.hello "unknown" 0)
  | .transPb => some .transPb
  | .hookZmq => some (Derived.hookZmq (HookZmq.new (0, ⟨none, -1, none, false, false⟩)))
  | .failure => none

/-- The block with another configuration, if it is a hook. -/
def Derived.configure (client : Bool) (type_ : Int) (name addr : String) : Derived → Derived
  | .hello name_ count_ => .hello name_ count_
  | .transPb => .transPb
  | .hookZmq hook =>
      .hookZmq { hook with client_ := client, type_ := type_, name_ := name, addr_ := addr }

/-- What a command means for the blocks by identifier, given the factories. -/
def Command.meaning (factory : String → Option Factory) :
    Command → Op Int (Option BlockView) Bool
  | .add id type_ => act id id fun found _ =>
      if found.isSome then none
      else ((factory type_).bind Factory.newborn).map fun derived =>
        some ⟨none, type_, false, none, some derived⟩
  | .start id => act id id fun found _ =>
      found.map fun view => some { view with is_started_ := true }
  | .stop id => act id id fun found _ =>
      found.map fun view => some { view with is_started_ := false }
  | .del id => act id id fun found _ => found.bind fun view =>
      if view.is_started_ || (factory view.type_).isNone then none else some none
  | .bind id _ dest => act id dest fun found target => found.bind fun view =>
      target.map fun sink => some { view with sink_ := some sink.identity }
  | .hookZmq id client type_ name addr => act id id fun found _ =>
      found.map fun view =>
        some { view with derived := view.derived.map (Derived.configure client type_ name addr) }
  | .term => fun views => (true, views)
  | .notSet => fun views => (false, views)

/-- The identifiers that a command names. -/
def Command.names : Command → Set Int
  | .add id _ => {id}
  | .start id => {id}
  | .stop id => {id}
  | .del id => {id}
  | .bind id _ dest => {id, dest}
  | .hookZmq id _ _ _ _ => {id}
  | .term => ∅
  | .notSet => ∅

/-- A command knows the blocks that it names, and no others. -/
theorem Command.localTo (factory : String → Option Factory) (command : Command) :
    LocalTo command.names (command.meaning factory) := by
  have one : ∀ (id : Int) revise,
      LocalTo {id} (act id id revise : Op Int (Option BlockView) Bool) :=
    fun id revise => Set.pair_eq_singleton id ▸ localTo_act id id revise
  unfold Command.meaning Command.names
  cases command with
  | add id type_ => exact one id _
  | start id => exact one id _
  | stop id => exact one id _
  | del id => exact one id _
  | bind id port dest => exact localTo_act id dest _
  | hookZmq id client type_ name addr => exact one id _
  | term => exact localTo_pure true
  | notSet => exact localTo_pure false

/-! ## What the interpreter does -/

section

variable {platform : Platform} {manager before after : BlockManager} {next : BlockRef} {id : Int}
  {ref : BlockRef} {block : Block}

theorem views_of_find (found : manager.blocks.find id = some (ref, block)) (next : BlockRef) :
    manager.views next id = some
      ⟨oldObject next ref, block.type_, block.is_started_, block.sink_.map (oldObject next),
        (manager.kind ref).map Derived.configured⟩ := by
  unfold BlockManager.views
  rw [found]
  rfl

theorem views_of_missing (missing : manager.blocks.find id = none) (next : BlockRef) :
    manager.views next id = none := by
  unfold BlockManager.views
  rw [missing]
  rfl

/-- A change that concerns one block only is an update of its view. -/
theorem views_of_onlyNamed (only : OnlyNamed id before after) (next : BlockRef) :
    after.views next = Function.update (before.views next) id (after.views next id) := by
  funext other
  by_cases same : other = id
  · rw [same, Function.update_self]
  · rw [Function.update_of_ne same]
    have found := only.others other same
    rcases there : before.blocks.find other with _ | ⟨ref, block⟩
    · rw [views_of_missing (found.trans there), views_of_missing there]
    · rw [views_of_find (found.trans there), views_of_find there,
        only.kinds other ref same (Registry.get_of_find there)]

/-- A command that succeeds on one block has done what it means. -/
theorem meaning_of_onlyNamed {read : Int} {revise : Option BlockView → Option BlockView →
    Option (Option BlockView)} (only : OnlyNamed id before after)
    (done : revise (before.views next id) (before.views next read) = some (after.views next id)) :
    act id read revise (before.views next) = (true, after.views next) := by
  rw [act_of_some done, ← views_of_onlyNamed only next]

/-- The factory of a type. -/
def BlockManager.factories (manager : BlockManager) (type_ : String) : Option Factory :=
  manager.bk_factory_.lookup type_

/-- The manager has done what a command means. -/
def Means (next : BlockRef) (before : BlockManager) (command : Command)
    (result : Bool × BlockManager) : Prop :=
  command.meaning before.factories (before.views next) = (result.1, result.2.views next)

/-- A command that cannot succeed leaves the manager as it is. -/
theorem Exact.eq_refused {command : Command} {result : Bool × BlockManager}
    (exact_ : Exact platform command manager result)
    (missing : ¬ Succeeds platform manager command) :
    result = (false, manager) := by
  have refused : result.1 = false :=
    Bool.eq_false_iff.mpr fun done => missing (exact_.success.mp done)
  exact Prod.ext refused (exact_.failure refused)

/-- A command that needs a block is refused where there is none, as it should be. -/
theorem means_of_missing {command : Command} {result : Bool × BlockManager} {read : Int}
    {revise : Option BlockView → Option BlockView → Option (Option BlockView)}
    (exact_ : Exact platform command manager result)
    (needs : Succeeds platform manager command → ∃ ref, manager.blockGet id = some ref)
    (missing : manager.blocks.find id = none) (refuses : ∀ other, revise none other = none) :
    act id read revise (manager.views next) = (result.1, result.2.views next) := by
  rw [exact_.eq_refused fun met => not_exists_blockGet missing (needs met)]
  apply act_of_none
  rw [views_of_missing missing]
  exact refuses _

/-- Starting and stopping a block leaves its configuration as it is. -/
theorem OwnRegistration.configured {before after : World} (own : OwnRegistration ref before after) :
    (after.derived.lookup ref).map Derived.configured =
      (before.derived.lookup ref).map Derived.configured := by
  rcases own.fields with same | ⟨hook, ctx, desc, there, there'⟩
  · rw [same]
  · rw [there, there']
    rfl

/-- A block that is marked as started or stopped differs in that only. -/
theorem views_of_marked {started : Bool} (found : before.blocks.find id = some (ref, block))
    (there : after.blocks.find id = some (ref, { block with is_started_ := started }))
    (own : OwnRegistration ref before.world after.world) :
    after.views next id =
      (before.views next id).map fun view => { view with is_started_ := started } := by
  rw [views_of_find there, views_of_find found, Option.map_some]
  exact congrArg (fun derived => some (BlockView.mk _ _ _ _ derived)) own.configured

/-- A factory returns the block that it builds, or none if it builds none. -/
theorem constructor_newborn (platform : Platform) (factory : Factory) (ref : BlockRef)
    (world : World) :
    (World.constructor platform factory ref world).1 = factory.newborn.isSome ∧
      ∀ derived, factory.newborn = some derived →
        ((World.constructor platform factory ref world).2.derived.lookup ref).map
          Derived.configured = some derived := by
  have inserted : ∀ derived : Derived, ((world.derived.insert ref derived).lookup ref).map
      Derived.configured = some derived.configured := by
    intro derived
    rw [Finmap.lookup_insert]
    rfl
  cases factory with
  | failure => exact ⟨rfl, fun _ built => by cases built⟩
  | hello =>
      refine ⟨rfl, fun derived built => ?_⟩
      obtain rfl := Option.some.inj built
      exact inserted (.hello "unknown" 0)
  | transPb =>
      refine ⟨rfl, fun derived built => ?_⟩
      obtain rfl := Option.some.inj built
      exact inserted .transPb
  | hookZmq =>
      refine ⟨rfl, fun derived built => ?_⟩
      obtain rfl := Option.some.inj built
      exact inserted (.hookZmq (HookZmq.new (platform.hookMemory ref)))

/-- The fields of a block that has been added are those that its factory has set. -/
theorem kind_blockAdd {type_ : String} {factory : Factory} (free : manager.blocks.get id = none)
    (registered : manager.bk_factory_.lookup type_ = some factory)
    (built : (World.constructor platform factory manager.blocks.next manager.world).1 = true) :
    BlockManager.kind (manager.blockAdd (virtual platform) id type_).2 manager.blocks.next =
      (World.constructor platform factory manager.blocks.next manager.world).2.derived.lookup
        manager.blocks.next := by
  have answer : (virtual platform).constructor factory manager.blocks.next manager.world =
      (true, (World.constructor platform factory manager.blocks.next manager.world).2) :=
    Prod.ext built rfl
  unfold Manager.blockAdd
  split
  · rename_i there
    cases free.symm.trans there
  · rw [registered]
    dsimp only
    rw [answer]
    rfl

theorem blockAdd_means (recent : next ≤ manager.blocks.next) (id : Int) (type_ : String) :
    Means next manager (.add id type_) (manager.blockAdd (virtual platform) id type_) := by
  have exact_ := blockAdd_exact platform manager id type_
  unfold Means Command.meaning
  rcases found : manager.blocks.find id with _ | ⟨ref, block⟩
  · have free := Registry.find_eq_none_iff.mp found
    have absent := views_of_missing found next
    rcases registered : manager.bk_factory_.lookup type_ with _ | factory
    · rw [exact_.eq_refused fun met => by
        obtain ⟨-, factory, there, -⟩ := met
        cases registered.symm.trans there]
      exact act_of_none (by simp [absent, BlockManager.factories, registered])
    · obtain ⟨answer, fields⟩ :=
        constructor_newborn platform factory manager.blocks.next manager.world
      rcases born : factory.newborn with _ | derived
      · rw [exact_.eq_refused fun met => by
          obtain ⟨-, factory', there, built⟩ := met
          obtain rfl := Option.some.inj (registered.symm.trans there)
          rw [answer, born] at built
          cases built]
        exact act_of_none (by simp [absent, BlockManager.factories, registered, born])
      · have built := answer.trans (congrArg Option.isSome born)
        have done := exact_.success.mpr ⟨free, factory, registered, built⟩
        obtain ⟨only, -, there⟩ := exact_.effect done
        have new : oldObject next manager.blocks.next = none := if_neg (Nat.not_lt.mpr recent)
        rw [done]
        refine meaning_of_onlyNamed only ?_
        rw [views_of_find there, kind_blockAdd free registered built, fields derived born, absent]
        simp [BlockManager.factories, registered, born, new]
  · rw [exact_.eq_refused fun met => by
      cases (Registry.get_of_find found).symm.trans met.1]
    exact act_of_none (by simp [views_of_find found])

theorem blockStart_means (id : Int) :
    Means next manager (.start id) (manager.blockStart (virtual platform) id) := by
  have exact_ := blockStart_exact platform manager id
  unfold Means Command.meaning
  rcases found : manager.blocks.find id with _ | ⟨ref, block⟩
  · exact means_of_missing exact_ (fun met => met) found fun _ => rfl
  · have done := exact_.success.mpr ⟨ref, Registry.get_of_find found⟩
    obtain ⟨only, ref', block', found', change⟩ := exact_.effect done
    cases found.symm.trans found'
    rw [done]
    refine meaning_of_onlyNamed only ?_
    split_ifs at change with running
    · rw [change, views_of_find found, Option.map_some, running]
    · obtain ⟨there, own⟩ := change
      rw [views_of_marked found there own, views_of_find found]
      rfl

theorem blockStop_means (id : Int) :
    Means next manager (.stop id) (manager.blockStop (virtual platform) id) := by
  have exact_ := blockStop_exact platform manager id
  unfold Means Command.meaning
  rcases found : manager.blocks.find id with _ | ⟨ref, block⟩
  · exact means_of_missing exact_ (fun met => met) found fun _ => rfl
  · have done := exact_.success.mpr ⟨ref, Registry.get_of_find found⟩
    obtain ⟨only, ref', block', found', change⟩ := exact_.effect done
    cases found.symm.trans found'
    rw [done]
    refine meaning_of_onlyNamed only ?_
    split_ifs at change with running
    · obtain ⟨there, own⟩ := change
      rw [views_of_marked found there own, views_of_find found]
      rfl
    · rw [change, views_of_find found, Option.map_some, Bool.eq_false_iff.mpr running]

theorem blockDel_means (id : Int) :
    Means next manager (.del id) (manager.blockDel (virtual platform) id) := by
  have exact_ := blockDel_exact platform manager id
  unfold Means Command.meaning
  rcases found : manager.blocks.find id with _ | ⟨ref, block⟩
  · exact means_of_missing exact_ (fun met => met.imp fun _ deletes => deletes.get) found
      fun _ => rfl
  · by_cases deletes : ∃ ref, manager.Deletes id ref
    · have done := exact_.success.mpr deletes
      obtain ⟨only, -, gone⟩ := exact_.effect done
      obtain ⟨_, block', factory, found', idle, registered⟩ := deletes
      cases found.symm.trans found'
      rw [done]
      refine meaning_of_onlyNamed only ?_
      rw [views_of_missing (Registry.find_eq_none_iff.mpr gone), views_of_find found]
      simp [idle, BlockManager.factories, registered]
    · rw [exact_.eq_refused deletes]
      refine act_of_none ?_
      rw [views_of_find found, Option.bind_some]
      refine if_pos ?_
      by_contra refused
      simp only [Bool.or_eq_true, not_or, Bool.not_eq_true, Option.isNone_eq_false_iff] at refused
      obtain ⟨idle, registered⟩ := refused
      obtain ⟨factory, there⟩ := Option.isSome_iff_exists.mp registered
      exact deletes ⟨ref, block, factory, found, idle, there⟩

theorem blockBind_means (id port dest : Int) :
    Means next manager (.bind id port dest)
      (manager.blockBind (virtual platform) id port dest) := by
  have exact_ := blockBind_exact platform manager id port dest
  unfold Means Command.meaning
  rcases found : manager.blocks.find id with _ | ⟨ref, block⟩
  · exact means_of_missing exact_ (fun met => met.1) found fun _ => rfl
  · rcases found_dest : manager.blocks.find dest with _ | ⟨sink, target⟩
    · rw [exact_.eq_refused fun met => not_exists_blockGet found_dest met.2]
      exact act_of_none (by simp [views_of_find found, views_of_missing found_dest])
    · have done := exact_.success.mpr
        ⟨⟨ref, Registry.get_of_find found⟩, sink, Registry.get_of_find found_dest⟩
      obtain ⟨only, world, ref', block', sink', found', there, after⟩ := exact_.effect done
      cases found.symm.trans found'
      cases (Registry.get_of_find found_dest).symm.trans there
      rw [done]
      refine meaning_of_onlyNamed only ?_
      rw [views_of_find after, views_of_find found, views_of_find found_dest]
      unfold BlockManager.kind
      rw [world]
      rfl

/-- A command that sets the configuration of a hook. -/
theorem hookZmq_means {client : Bool} {type_ : Int} {name addr : String}
    {result : Bool × BlockManager}
    (exact_ : Exact platform (.hookZmq id client type_ name addr) manager result) :
    Means next manager (.hookZmq id client type_ name addr) result := by
  unfold Means Command.meaning
  rcases found : manager.blocks.find id with _ | ⟨ref, block⟩
  · exact means_of_missing exact_ (fun met => met) found fun _ => rfl
  · have done := exact_.success.mpr ⟨ref, Registry.get_of_find found⟩
    obtain ⟨only, -, blocks, ref', hook, there, kind, kind'⟩ := exact_.effect done
    cases (Registry.get_of_find found).symm.trans there
    have found' : result.2.blocks.find id = some (ref, block) := blocks ▸ found
    rw [done]
    refine meaning_of_onlyNamed only ?_
    rw [views_of_find found', views_of_find found, kind, kind']
    rfl

end

/-- A remote command; what cannot be unpacked is none. -/
def Platform.command (platform : Platform) (data : Bytes) : Command :=
  (platform.unpack data).getD .notSet

/-- If the command configures a block as a hook, then the block is one. -/
def ConfiguresHook (platform : Platform) (manager : BlockManager) (data : Bytes) : Prop :=
  ∀ id client type_ name addr ref,
    platform.unpack data = some (.hookZmq id client type_ name addr) →
    manager.blockGet id = some ref → ∃ hook, BlockManager.kind manager ref = some (.hookZmq hook)

/-- What a command that has been executed leaves behind. -/
structure Executed (platform : Platform) (next : BlockRef) (before : BlockManager) (data : Bytes)
    (result : Bool × BlockManager) : Prop where
  /-- The interpreter has returned. -/
  parsed : protoCommandParse platform data before = .ok result
  /-- It has done what the command means. -/
  means : Means next before (platform.command data) result
  /-- The factories are the same. -/
  bk_factory_ : result.2.bk_factory_ = before.bk_factory_
  /-- New objects are still none of the old ones. -/
  recent : next ≤ result.2.blocks.next
  /-- Only TERM ends the main loop. -/
  is_term_ : result.2.is_term_ = (before.is_term_ || decide (platform.command data = .term))

/-- The next object to be built is never an old one again. -/
theorem next_le_executed {platform : Platform} {data : Bytes} {manager : BlockManager}
    {result : Bool × BlockManager}
    (executed : protoCommandParse platform data manager = .ok result) :
    manager.blocks.next ≤ result.2.blocks.next := by
  rcases protoCommandParse_cases executed with
    same | ⟨operation, -, same⟩ | ⟨ref, hook, hook', -, -, -, same⟩ | same
  · rw [same]
  · rw [same]
    refine Operation.perform_preserves (virtual platform) manager
      (fun after => manager.blocks.next ≤ after.blocks.next) (fun after change => ?_)
      (fun id ref block _ _ _ => Nat.le_of_eq (Registry.next_setStarted ..).symm)
      fun ref block factory _ _ _ => Nat.le_of_eq (Registry.next_remove ..).symm
    rcases change.kept with blocks | ⟨id, type_, factory, free, blocks, -⟩ |
      ⟨ref, block, -, -, blocks, -⟩ | ⟨ref, block, -, -, blocks, -⟩ |
      ⟨src, dst, -, -, blocks, -⟩
    · exact Nat.le_of_eq (congrArg Registry.next blocks).symm
    · rw [blocks]
      exact Nat.le_succ _
    · rw [blocks, Registry.next_setStarted]
    · rw [blocks, Registry.next_setStarted]
    · rw [blocks, Registry.next_setSink]
  · rw [same]
    exact Nat.le_refl _
  · rw [same]
    exact Nat.le_refl _

/-- A command leaves the factories alone, and only TERM ends the main loop. -/
theorem Effect.steady {command : Command} {before after : BlockManager}
    (effect : Effect before after command) :
    after.bk_factory_ = before.bk_factory_ ∧
      after.is_term_ = (before.is_term_ || decide (command = .term)) := by
  have named : ∀ id, OnlyNamed id before after → command ≠ .term →
      after.bk_factory_ = before.bk_factory_ ∧
        after.is_term_ = (before.is_term_ || decide (command = .term)) := by
    intro id only other
    rw [decide_eq_false other, Bool.or_false]
    exact ⟨only.bk_factory_, only.is_term_⟩
  cases command with
  | add id type_ => exact named id effect.1 (by simp)
  | start id => exact named id effect.1 (by simp)
  | stop id => exact named id effect.1 (by simp)
  | del id => exact named id effect.1 (by simp)
  | bind id port dest => exact named id effect.1 (by simp)
  | hookZmq id client type_ name addr => exact named id effect.1 (by simp)
  | term =>
      obtain rfl : after = { before with is_term_ := true } := effect
      exact ⟨rfl, (Bool.or_true _).symm⟩
  | notSet => exact False.elim effect

theorem Exact.steady {platform : Platform} {command : Command} {before : BlockManager}
    {result : Bool × BlockManager} (exact_ : Exact platform command before result) :
    result.2.bk_factory_ = before.bk_factory_ ∧
      result.2.is_term_ = (before.is_term_ || decide (command = .term)) := by
  cases done : result.1 with
  | true => exact Effect.steady (exact_.effect done)
  | false =>
      have other : command ≠ .term := by
        rintro rfl
        rw [exact_.success.mpr trivial] at done
        cases done
      rw [exact_.failure done, decide_eq_false other, Bool.or_false]
      exact ⟨rfl, rfl⟩

/-- The interpreter does what commands mean, as long as only hooks are configured as hooks. -/
theorem executed_of_configuresHook {platform : Platform} {next : BlockRef} {manager : BlockManager}
    {data : Bytes} (recent : next ≤ manager.blocks.next)
    (hooks : ConfiguresHook platform manager data) :
    ∃ result, Executed platform next manager data result := by
  rcases unpacked : platform.unpack data with _ | command
  · have named : platform.command data = .notSet := by rw [Platform.command, unpacked]; rfl
    refine ⟨(false, manager), by simp [protoCommandParse, unpacked], ?_, rfl, recent, ?_⟩
    · rw [named]
      rfl
    · rw [named]
      exact (Bool.or_false _).symm
  · have named : platform.command data = command := by rw [Platform.command, unpacked]; rfl
    obtain ⟨result, parsed, exact_⟩ := executed_exact unpacked
      fun id client type_ name addr ref same =>
        hooks id client type_ name addr ref (unpacked.trans (congrArg some same))
    obtain ⟨factories, term⟩ := exact_.steady
    refine ⟨result, parsed, ?_, factories, recent.trans (next_le_executed parsed), named ▸ term⟩
    rw [named]
    unfold protoCommandParse at parsed
    rw [unpacked] at parsed
    cases command with
    | add id type_ => exact Except.ok.inj parsed ▸ blockAdd_means recent id type_
    | start id => exact Except.ok.inj parsed ▸ blockStart_means id
    | stop id => exact Except.ok.inj parsed ▸ blockStop_means id
    | del id => exact Except.ok.inj parsed ▸ blockDel_means id
    | bind id port dest => exact Except.ok.inj parsed ▸ blockBind_means id port dest
    | hookZmq id client type_ name addr => exact hookZmq_means exact_
    | term => exact Except.ok.inj parsed ▸ rfl
    | notSet => exact Except.ok.inj parsed ▸ rfl

/-- The blocks that a command names look the same, so that it still configures a hook. -/
theorem ConfiguresHook.congr {platform : Platform} {next : BlockRef} {before after : BlockManager}
    {data : Bytes} (hooks : ConfiguresHook platform before data)
    (same : ∀ id ∈ (platform.command data).names, after.views next id = before.views next id) :
    ConfiguresHook platform after data := by
  intro id client type_ name addr ref unpacked there
  have named : id ∈ (platform.command data).names := by
    rw [Platform.command, unpacked]
    exact Set.mem_singleton id
  obtain ⟨block, found⟩ := Registry.find_of_get there
  have view := same id named
  rw [views_of_find found] at view
  rcases found' : before.blocks.find id with _ | ⟨ref', block'⟩
  · rw [views_of_missing found'] at view
    cases view
  · obtain ⟨hook, kind⟩ := hooks id client type_ name addr ref' unpacked
      (Registry.get_of_find found')
    rw [views_of_find found', kind] at view
    have derived : (after.kind ref).map Derived.configured =
        some (Derived.hookZmq hook).configured := congrArg BlockView.derived (Option.some.inj view)
    obtain ⟨kind', there', configured⟩ := Option.map_eq_some_iff.mp derived
    cases kind' with
    | hello name_ count_ => cases configured
    | transPb => cases configured
    | hookZmq hook' => exact ⟨hook', there'⟩

/-- Commands that name different blocks can be executed in either order: each has the same result,
and the blocks are the same afterwards, up to the identity of those that are built and to what the
ZeroMQ calls have returned. -/
theorem protoCommandParse_commute (platform : Platform) (manager : BlockManager)
    (first second : Bytes)
    (apart : Disjoint (platform.command first).names (platform.command second).names)
    (hooks : ConfiguresHook platform manager first)
    (hooks' : ConfiguresHook platform manager second) :
    ∃ ok ok' after after' final final',
      protoCommandParse platform first manager = .ok (ok, after) ∧
      protoCommandParse platform second after = .ok (ok', final) ∧
      protoCommandParse platform second manager = .ok (ok', after') ∧
      protoCommandParse platform first after' = .ok (ok, final') ∧
      final.views manager.blocks.next = final'.views manager.blocks.next ∧
      final.is_term_ = final'.is_term_ ∧ final.bk_factory_ = final'.bk_factory_ := by
  let next := manager.blocks.next
  have left := (platform.command first).localTo manager.factories
  have right := (platform.command second).localTo manager.factories
  obtain ⟨⟨ok, after⟩, run⟩ := executed_of_configuresHook (Nat.le_refl next) hooks
  obtain ⟨⟨ok', after'⟩, run'⟩ := executed_of_configuresHook (Nat.le_refl next) hooks'
  have means : (platform.command first).meaning manager.factories (manager.views next) =
      (ok, after.views next) := run.means
  have means' : (platform.command second).meaning manager.factories (manager.views next) =
      (ok', after'.views next) := run'.means
  have kept : ∀ id ∈ (platform.command second).names,
      after.views next id = manager.views next id := by
    intro id member
    have frame := left.frame (manager.views next) id fun member' =>
      Set.disjoint_left.mp apart member' member
    rw [means] at frame
    exact frame
  have kept' : ∀ id ∈ (platform.command first).names,
      after'.views next id = manager.views next id := by
    intro id member
    have frame := right.frame (manager.views next) id fun member' =>
      Set.disjoint_left.mp apart member member'
    rw [means'] at frame
    exact frame
  obtain ⟨⟨okay, final⟩, later⟩ :=
    executed_of_configuresHook run.recent (hooks'.congr kept)
  obtain ⟨⟨okay', final'⟩, later'⟩ :=
    executed_of_configuresHook run'.recent (hooks.congr kept')
  have factories : after.factories = manager.factories :=
    funext fun type_ => congrArg (fun factories => factories.lookup type_) run.bk_factory_
  have factories' : after'.factories = manager.factories :=
    funext fun type_ => congrArg (fun factories => factories.lookup type_) run'.bk_factory_
  have final_means : (platform.command second).meaning manager.factories (after.views next) =
      (okay, final.views next) := factories ▸ later.means
  have final_means' : (platform.command first).meaning manager.factories (after'.views next) =
      (okay', final'.views next) := factories' ▸ later'.means
  obtain ⟨result, result', same⟩ := left.commute right apart (manager.views next)
  rw [means, means', final_means'] at result
  rw [means, means', final_means] at result'
  rw [means, means', final_means, final_means'] at same
  obtain rfl : okay' = ok := result
  obtain rfl : okay = ok' := result'
  refine ⟨_, _, after, after', final, final', run.parsed, later.parsed, run'.parsed, later'.parsed,
    same, ?_, ?_⟩
  · rw [later.is_term_, later'.is_term_, run.is_term_, run'.is_term_]
    exact Bool.or_right_comm ..
  · rw [later.bk_factory_, later'.bk_factory_, run.bk_factory_, run'.bk_factory_]

/-- A hook is added, and the old one is configured. -/
theorem protoCommandParse_commute_add :
    let platform := Platform.plain fun data =>
      if data = [1] then some (.add 2 "hook_zmq")
      else some (.hookZmq 1 true ZMQ_DEALER "name" "addr")
    ∃ after after' final final',
      protoCommandParse platform [1] (oneHook platform) = .ok (true, after) ∧
      protoCommandParse platform [2] after = .ok (true, final) ∧
      protoCommandParse platform [2] (oneHook platform) = .ok (true, after') ∧
      protoCommandParse platform [1] after' = .ok (true, final') ∧
      final.views 1 = final'.views 1 := by
  intro platform
  have apart : Disjoint (platform.command [1]).names (platform.command [2]).names := by
    have adds : platform.command [1] = .add 2 "hook_zmq" := by decide
    have configures : platform.command [2] = .hookZmq 1 true ZMQ_DEALER "name" "addr" := by decide
    rw [adds, configures]
    exact Set.disjoint_singleton.mpr (by decide)
  have hooks : ConfiguresHook platform (oneHook platform) [1] := by
    intro id client type_ name addr ref unpacked _
    cases unpacked
  have hooks' : ConfiguresHook platform (oneHook platform) [2] := by
    intro id client type_ name addr ref unpacked there
    cases unpacked
    obtain rfl : 0 = ref := Option.some.inj there
    exact ⟨_, rfl⟩
  obtain ⟨ok, ok', after, after', final, final', run, later, run', later', same, -⟩ :=
    protoCommandParse_commute platform (oneHook platform) [1] [2] apart hooks hooks'
  have result : (protoCommandParse platform [1] (oneHook platform)).toOption.map Prod.fst =
      some true := by decide
  have result' : (protoCommandParse platform [2] (oneHook platform)).toOption.map Prod.fst =
      some true := by decide
  rw [run] at result
  rw [run'] at result'
  obtain rfl : ok = true := Option.some.inj result
  obtain rfl : ok' = true := Option.some.inj result'
  exact ⟨after, after', final, final', run, later, run', later', same⟩

end C3qo
