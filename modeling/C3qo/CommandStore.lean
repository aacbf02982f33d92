import C3qo.BlockSteps
import C3qo.Commuting
import C3qo.Store

/-!
# The manager is a store

The manager with its maps, pointers and virtual calls is a store of blocks, whatever messages
arrive and however data flows: at any time its blocks are what is left when the commands that have
been executed are replayed, and the replies are the results of that. The main loop ends with a
signal or with the command to end it, and in no other way.
-/

namespace C3qo

open Journal Relation

/-- The configuration of a hook, in its fields. -/
def Derived.settings : Derived → Option Settings
  | .hookZmq hook => some ⟨hook.client_, hook.type_, hook.name_, hook.addr_⟩
  | _ => none

theorem HookZmq.settings_data (hook : HookZmq) (platform : Platform) (vdata : Option Buffer)
    (zmq : Zmq) : (Derived.hookZmq (hook.data_ platform vdata zmq).2.1).settings =
      (Derived.hookZmq hook).settings := by
  cases vdata with
  | none => rfl
  | some buf =>
      simp only [data_]
      split <;> rfl

/-- The store that a manager is. -/
def BlockManager.store (manager : BlockManager) : Store where
  entries id := (manager.blocks.find id).map fun found =>
    { number := found.1
      type_ := found.2.type_
      started := found.2.is_started_
      sink := found.2.sink_
      settings := (BlockManager.kind manager found.1).bind Derived.settings }
  next := manager.blocks.next
  terminated := manager.is_term_

/-- The factories of the repository are registered, and they have built all blocks. -/
structure Furnished (manager : BlockManager) : Prop where
  /-- No factory has been registered or unregistered since the start of the program. -/
  factories : manager.bk_factory_ = repository.bk_factory_
  /-- The types of the blocks are theirs. -/
  typed : (BlockManager.store manager).Typed

theorem lookup_repository (type_ : String) : repository.bk_factory_.lookup type_ =
    if type_ = "hello" then some .hello
    else if type_ = "trans_pb" then some .transPb
    else if type_ = "hook_zmq" then some .hookZmq
    else none := by
  have registered : repository.bk_factory_ =
      (((∅ : Finmap fun _ : String => Factory).insert "hello" .hello).insert "trans_pb"
        .transPb).insert "hook_zmq" .hookZmq := rfl
  rw [registered]
  split_ifs with hello transPb hookZmq
  · rw [hello, Finmap.lookup_insert_of_ne _ (by decide), Finmap.lookup_insert_of_ne _ (by decide),
      Finmap.lookup_insert]
  · rw [transPb, Finmap.lookup_insert_of_ne _ (by decide), Finmap.lookup_insert]
  · rw [hookZmq, Finmap.lookup_insert]
  · rw [Finmap.lookup_insert_of_ne _ hookZmq, Finmap.lookup_insert_of_ne _ transPb,
      Finmap.lookup_insert_of_ne _ hello, Finmap.lookup_empty]

section

variable {platform : Platform} {manager before after : BlockManager} {id : Int} {ref : BlockRef}
  {block : Block}

theorem entry_of_find (found : manager.blocks.find id = some (ref, block)) :
    manager.store.entries id = some ⟨ref, block.type_, block.is_started_, block.sink_,
      (manager.kind ref).bind Derived.settings⟩ := by
  simp [BlockManager.store, found]

theorem entry_of_missing (missing : manager.blocks.find id = none) :
    manager.store.entries id = none := by
  simp [BlockManager.store, missing]

/-- Other entries stay as they are. -/
theorem entries_of_onlyNamed (only : OnlyNamed id before after) {other : Int}
    (different : other ≠ id) : after.store.entries other = before.store.entries other := by
  have found := only.others other different
  rcases there : before.blocks.find other with _ | ⟨ref, block⟩
  · rw [there] at found
    rw [entry_of_missing there, entry_of_missing found]
  · rw [there] at found
    rw [entry_of_find there, entry_of_find found,
      only.kinds other ref different (Registry.get_of_find there)]

/-- A change of one block is a change of one entry. -/
theorem store_of_onlyNamed (only : OnlyNamed id before after)
    (next : after.blocks.next = before.blocks.next) :
    after.store = before.store.set id (after.store.entries id) := by
  refine Store.ext (funext fun other => ?_) next only.is_term_
  by_cases same : other = id
  · rw [same, Store.entries_set]
  · rw [Store.entries_set_of_ne _ _ same, entries_of_onlyNamed only same]

theorem next_blockStart (platform : Platform) (manager : BlockManager) (id : Int) :
    (manager.blockStart (virtual platform) id).2.blocks.next = manager.blocks.next := by
  unfold Manager.blockStart
  split
  · rfl
  · split_ifs
    · rfl
    · exact Registry.next_setStarted ..

theorem next_blockStop (platform : Platform) (manager : BlockManager) (id : Int) :
    (manager.blockStop (virtual platform) id).2.blocks.next = manager.blocks.next := by
  rcases manager.blockStop_cases (virtual platform) id with same | ⟨_, _, -, -, stopped⟩
  · rw [same]
  · rw [stopped]
    exact Registry.next_setStarted ..

theorem next_blockDel (platform : Platform) (manager : BlockManager) (id : Int) :
    (manager.blockDel (virtual platform) id).2.blocks.next = manager.blocks.next := by
  rcases manager.blockDel_cases (virtual platform) id with ⟨-, same⟩ | ⟨_, _, _, -, -, -, gone⟩
  · rw [same]
  · rw [gone]
    exact Registry.next_remove ..

theorem next_blockBind (platform : Platform) (manager : BlockManager) (id port dest : Int) :
    (manager.blockBind (virtual platform) id port dest).2.blocks.next = manager.blocks.next := by
  unfold Manager.blockBind
  split
  · exact Registry.next_setSink ..
  · rfl

/-- Only commands to add a block add one. -/
theorem next_of_executed {command : Command} {data : Bytes} {result : Bool × BlockManager}
    (unpacked : platform.unpack data = some command)
    (other : ∀ id type_, command ≠ .add id type_)
    (done : protoCommandParse platform data manager = .ok result) :
    result.2.blocks.next = manager.blocks.next := by
  unfold protoCommandParse at done
  rw [unpacked] at done
  cases command with
  | add id type_ => exact absurd rfl (other id type_)
  | start id => exact Except.ok.inj done ▸ next_blockStart platform manager id
  | stop id => exact Except.ok.inj done ▸ next_blockStop platform manager id
  | del id => exact Except.ok.inj done ▸ next_blockDel platform manager id
  | bind id port dest => exact Except.ok.inj done ▸ next_blockBind platform manager id port dest
  | hookZmq id client type_ name addr =>
      dsimp only at done
      split at done
      · cases done
        rfl
      · split at done <;> cases done
        rfl
  | term => exact Except.ok.inj done ▸ rfl
  | notSet => exact Except.ok.inj done ▸ rfl

/-- The manager has done to the store what a command does there. -/
def Stores (before : BlockManager) (command : Command) (result : Bool × BlockManager) : Prop :=
  (BlockManager.store before).execute command = (result.1, BlockManager.store result.2)

/-- A command that is refused is so by the store too. -/
theorem revise_of_refused {command : Command} {result : Bool × BlockManager}
    {revised : Entry → Option (Option Entry)} (exact_ : Exact platform command manager result)
    (missing : ¬ Succeeds platform manager command)
    (refused : (manager.store.entries id).bind revised = none) :
    manager.store.revise id revised = (result.1, BlockManager.store result.2) := by
  rw [Store.revise_of_none refused, exact_.eq_refused missing]

/-- A command that rewrites the block that it names rewrites its entry. -/
theorem revise_of_done {result : Bool × BlockManager}
    {revised : Entry → Option (Option Entry)} (done : result.1 = true)
    (only : OnlyNamed id manager result.2)
    (next : result.2.blocks.next = manager.blocks.next)
    (entry : (manager.store.entries id).bind revised =
      some ((BlockManager.store result.2).entries id)) :
    manager.store.revise id revised = (result.1, BlockManager.store result.2) := by
  rw [Store.revise_of_some entry, ← store_of_onlyNamed only next, done]

/-- Starting and stopping a hook leaves its configuration alone. -/
theorem OwnRegistration.settings {before after : World} (own : OwnRegistration ref before after) :
    (after.derived.lookup ref).bind Derived.settings =
      (before.derived.lookup ref).bind Derived.settings := by
  rcases own.fields with same | ⟨hook, ctx, desc, there, there'⟩
  · rw [same]
  · rw [there, there']
    rfl

theorem entry_of_marked {started : Bool} (found : before.blocks.find id = some (ref, block))
    (there : after.blocks.find id = some (ref, { block with is_started_ := started }))
    (own : OwnRegistration ref before.world after.world) :
    (before.store.entries id).bind (fun entry => some (some { entry with started := started })) =
      some (after.store.entries id) := by
  rw [entry_of_find found, entry_of_find there, Option.bind_some]
  exact congrArg (fun settings => some (some (Entry.mk ref block.type_ started block.sink_
    settings))) own.settings.symm

theorem stores_start {result : Bool × BlockManager}
    (exact_ : Exact platform (.start id) manager result)
    (next : result.2.blocks.next = manager.blocks.next) : Stores manager (.start id) result := by
  rcases found : manager.blocks.find id with _ | ⟨ref, block⟩
  · apply revise_of_refused exact_ (not_exists_blockGet found)
    rw [entry_of_missing found, Option.bind_none]
  · have done := exact_.success.mpr ⟨ref, Registry.get_of_find found⟩
    obtain ⟨only, ref', block', found', change⟩ := exact_.effect done
    cases found.symm.trans found'
    apply revise_of_done done only next
    split_ifs at change with running
    · rw [change, entry_of_find found, Option.bind_some, running]
    · exact entry_of_marked found change.1 change.2

theorem stores_stop {result : Bool × BlockManager}
    (exact_ : Exact platform (.stop id) manager result)
    (next : result.2.blocks.next = manager.blocks.next) : Stores manager (.stop id) result := by
  rcases found : manager.blocks.find id with _ | ⟨ref, block⟩
  · apply revise_of_refused exact_ (not_exists_blockGet found)
    rw [entry_of_missing found, Option.bind_none]
  · have done := exact_.success.mpr ⟨ref, Registry.get_of_find found⟩
    obtain ⟨only, ref', block', found', change⟩ := exact_.effect done
    cases found.symm.trans found'
    apply revise_of_done done only next
    split_ifs at change with running
    · exact entry_of_marked found change.1 change.2
    · rw [change, entry_of_find found, Option.bind_some, Bool.eq_false_iff.mpr running]

/-- A type that there are blocks of has a factory. -/
theorem Furnished.factory (furnished : Furnished manager) {type_ : String}
    (known : (Store.newborn type_).isSome = true) :
    ∃ factory, manager.bk_factory_.lookup type_ = some factory := by
  rw [furnished.factories, lookup_repository]
  unfold Store.newborn at known
  split_ifs at known ⊢ <;> simp_all

theorem stores_del (furnished : Furnished manager) {result : Bool × BlockManager}
    (exact_ : Exact platform (.del id) manager result)
    (next : result.2.blocks.next = manager.blocks.next) : Stores manager (.del id) result := by
  rcases found : manager.blocks.find id with _ | ⟨ref, block⟩
  · apply revise_of_refused exact_ fun ⟨ref, deletes⟩ =>
      not_exists_blockGet found ⟨ref, deletes.get⟩
    rw [entry_of_missing found, Option.bind_none]
  · have there := entry_of_find found
    rcases running : block.is_started_ with _ | _
    · obtain ⟨factory, registered⟩ := furnished.factory (furnished.typed id _ there)
      have done := exact_.success.mpr ⟨ref, block, factory, found, running, registered⟩
      obtain ⟨only, -, gone⟩ := exact_.effect done
      apply revise_of_done done only next
      rw [there, entry_of_missing (Registry.find_eq_none_iff.mpr gone), Option.bind_some]
      simp [running]
    · apply revise_of_refused exact_
      · rintro ⟨ref', block', factory, found', idle, -⟩
        cases found.symm.trans found'
        rw [running] at idle
        cases idle
      · rw [there, Option.bind_some]
        simp [running]

theorem stores_bind {port dest : Int} {result : Bool × BlockManager}
    (exact_ : Exact platform (.bind id port dest) manager result)
    (next : result.2.blocks.next = manager.blocks.next) :
    Stores manager (.bind id port dest) result := by
  rcases found : manager.blocks.find id with _ | ⟨ref, block⟩
  · apply revise_of_refused exact_ fun met => not_exists_blockGet found met.1
    rw [entry_of_missing found, Option.bind_none]
  · rcases found' : manager.blocks.find dest with _ | ⟨sink, target⟩
    · apply revise_of_refused exact_ fun met => not_exists_blockGet found' met.2
      rw [entry_of_missing found', entry_of_find found]
      rfl
    · have done := exact_.success.mpr
        ⟨⟨ref, Registry.get_of_find found⟩, sink, Registry.get_of_find found'⟩
      obtain ⟨only, world, ref', block', sink', there, there', bound⟩ := exact_.effect done
      cases found.symm.trans there
      cases (Registry.get_of_find found').symm.trans there'
      apply revise_of_done done only next
      rw [entry_of_find found, entry_of_find found', entry_of_find bound]
      unfold BlockManager.kind
      rw [world]
      rfl

theorem stores_hookZmq {client : Bool} {type_ : Int} {name addr : String}
    {result : Bool × BlockManager}
    (exact_ : Exact platform (.hookZmq id client type_ name addr) manager result)
    (next : result.2.blocks.next = manager.blocks.next) :
    Stores manager (.hookZmq id client type_ name addr) result := by
  rcases found : manager.blocks.find id with _ | ⟨ref, block⟩
  · apply revise_of_refused exact_ (not_exists_blockGet found)
    rw [entry_of_missing found, Option.bind_none]
  · have done := exact_.success.mpr ⟨ref, Registry.get_of_find found⟩
    obtain ⟨only, -, blocks, ref', hook, there, kind, kind'⟩ := exact_.effect done
    cases (Registry.get_of_find found).symm.trans there
    have found' : result.2.blocks.find id = some (ref, block) := blocks ▸ found
    apply revise_of_done done only next
    rw [entry_of_find found, entry_of_find found', kind, kind']
    rfl

/-- The factory of a type builds its blocks with the configuration of new ones. -/
theorem exists_newborn {type_ : String} {settings : Option Settings}
    (known : Store.newborn type_ = some settings) (platform : Platform) (ref : BlockRef)
    (world : World) :
    ∃ factory, repository.bk_factory_.lookup type_ = some factory ∧
      (World.constructor platform factory ref world).1 = true ∧
      ((World.constructor platform factory ref world).2.derived.lookup ref).bind
        Derived.settings = settings := by
  rw [lookup_repository]
  have inserted : ∀ derived : Derived, ((world.derived.insert ref derived).lookup ref).bind
      Derived.settings = derived.settings := by
    intro derived
    rw [Finmap.lookup_insert]
    rfl
  unfold Store.newborn at known
  split_ifs at known ⊢ <;> cases known
  · exact ⟨.hello, rfl, rfl, inserted (.hello "unknown" 0)⟩
  · exact ⟨.transPb, rfl, rfl, inserted .transPb⟩
  · exact ⟨.hookZmq, rfl, rfl, inserted (.hookZmq (HookZmq.new (platform.hookMemory ref)))⟩

theorem next_blockAdd {type_ : String}
    (done : (manager.blockAdd (virtual platform) id type_).1 = true) :
    (manager.blockAdd (virtual platform) id type_).2.blocks.next = manager.blocks.next + 1 := by
  unfold Manager.blockAdd at done ⊢
  split at done
  · cases done
  · split at done
    · cases done
    · dsimp only at done ⊢
      split at done
      · cases done
      · rename_i free _ _ _ _ _ _
        exact manager.blocks.next_insert id type_ free

theorem stores_add (furnished : Furnished manager) (type_ : String) :
    Stores manager (.add id type_) (manager.blockAdd (virtual platform) id type_) := by
  have exact_ := blockAdd_exact platform manager id type_
  unfold Stores
  rcases found : manager.blocks.find id with _ | ⟨ref, block⟩
  · have free := Registry.find_eq_none_iff.mp found
    rcases known : Store.newborn type_ with _ | settings
    · rw [exact_.eq_refused]
      · simp only [Store.execute, entry_of_missing found, known]
      · rintro ⟨-, factory, registered, -⟩
        rw [furnished.factories, lookup_repository] at registered
        unfold Store.newborn at known
        split_ifs at known registered
    · obtain ⟨factory, registered, built, fields⟩ :=
        exists_newborn known platform manager.blocks.next manager.world
      rw [← furnished.factories] at registered
      have done := exact_.success.mpr ⟨free, factory, registered, built⟩
      obtain ⟨only, -, there⟩ := exact_.effect done
      have next := next_blockAdd done
      have kind := kind_blockAdd free registered built
      rw [← kind] at fields
      have entry := entry_of_find there
      rw [fields] at entry
      rw [done]
      simp only [Store.execute, entry_of_missing found, known]
      refine Prod.ext rfl (Store.ext (funext fun other => ?_) next.symm only.is_term_.symm)
      by_cases same : other = id
      · rw [same, entry]
        exact Function.update_self ..
      · rw [entries_of_onlyNamed only same]
        exact Function.update_of_ne same ..
  · rw [exact_.eq_refused fun met => by cases (Registry.get_of_find found).symm.trans met.1]
    simp only [Store.execute, entry_of_find found]

/-- A command that has been executed has not gone wrong. -/
theorem configuresHook_of_executed {data : Bytes} {result : Bool × BlockManager}
    (done : protoCommandParse platform data manager = .ok result) :
    ConfiguresHook platform manager data := by
  intro id client type_ name addr ref unpacked there
  simp only [protoCommandParse, unpacked, there] at done
  split at done
  · rename_i hook kind
    exact ⟨hook, kind⟩
  · cases done

/-- What the interpreter does with a command is what the store does with it. -/
theorem stores_executed (furnished : Furnished manager) {data : Bytes}
    {result : Bool × BlockManager} (done : protoCommandParse platform data manager = .ok result) :
    Stores manager (platform.command data) result := by
  rcases unpacked : platform.unpack data with _ | command
  · have named : platform.command data = .notSet := by rw [Platform.command, unpacked]; rfl
    simp only [protoCommandParse, unpacked] at done
    cases done
    rw [named]
    rfl
  · have named : platform.command data = command := by rw [Platform.command, unpacked]; rfl
    obtain ⟨result', done', exact_⟩ := executed_exact unpacked
      fun id client type_ name addr ref same =>
        configuresHook_of_executed done id client type_ name addr ref
          (unpacked.trans (congrArg some same))
    obtain rfl := Except.ok.inj (done'.symm.trans done)
    have next := fun other => next_of_executed unpacked other done
    rw [named]
    cases command with
    | add id type_ =>
        simp only [protoCommandParse, unpacked] at done
        cases done
        exact stores_add furnished type_
    | start id => exact stores_start exact_ (next (by simp))
    | stop id => exact stores_stop exact_ (next (by simp))
    | del id => exact stores_del furnished exact_ (next (by simp))
    | bind id port dest => exact stores_bind exact_ (next (by simp))
    | hookZmq id client type_ name addr => exact stores_hookZmq exact_ (next (by simp))
    | term =>
        simp only [protoCommandParse, unpacked] at done
        cases done
        rfl
    | notSet =>
        simp only [protoCommandParse, unpacked] at done
        cases done
        rfl

/-- Commands keep the manager furnished. -/
theorem Furnished.executed (furnished : Furnished manager) {data : Bytes}
    {result : Bool × BlockManager} (done : protoCommandParse platform data manager = .ok result) :
    Furnished result.2 := by
  obtain ⟨result', same⟩ := executed_of_configuresHook (Nat.zero_le manager.blocks.next)
    (configuresHook_of_executed done)
  obtain rfl := Except.ok.inj (same.parsed.symm.trans done)
  refine ⟨same.bk_factory_.trans furnished.factories, ?_⟩
  have stored : (BlockManager.store manager).execute (platform.command data) =
      (result'.1, BlockManager.store result'.2) := stores_executed furnished done
  have kept := Store.typed_execute (platform.command data) furnished.typed
  rw [stored] at kept
  exact kept

/-- Only what is configured of the blocks matters for the store. -/
theorem store_congr (blocks : after.blocks = before.blocks)
    (is_term_ : after.is_term_ = before.is_term_)
    (settings : ∀ ref,
      (after.kind ref).bind Derived.settings = (before.kind ref).bind Derived.settings) :
    after.store = before.store := by
  unfold BlockManager.store
  simp only [blocks, is_term_, settings]

/-- A block may get other fields of its kind, if a hook keeps its configuration. -/
theorem settings_setDerived {derived : Derived}
    (kept : (manager.kind ref).bind Derived.settings = derived.settings) (other : BlockRef) :
    ((manager.setDerived ref derived).kind other).bind Derived.settings =
      (manager.kind other).bind Derived.settings := by
  by_cases same : other = ref
  · rw [same, manager.kind_setDerived, kept]
    rfl
  · rw [manager.kind_setDerived_of_ne derived same]

end

/-! ## Runs replay their commands -/

/-- The commands that have been executed; what cannot be unpacked is none. -/
def BlockManager.commands (platform : Platform) (manager : BlockManager) : List Command :=
  manager.world.log.filterMap fun
    | .command _ data => some (platform.command data)
    | _ => none

/-- The results with which `proto_command_reply` has been called. -/
def BlockManager.replies (manager : BlockManager) : List Bool :=
  manager.world.log.filterMap fun
    | .reply _ is_ok => some is_ok
    | _ => none

/-- The blocks as a store with a journal. -/
def journal (platform : Platform) : Journaled Command Bool Store BlockManager where
  execute := Store.execute
  journal := BlockManager.commands platform
  results := BlockManager.replies
  view := BlockManager.store

section

variable {platform : Platform} {before after : BlockManager}

/-- A step that executes no command. -/
theorem silent_step (furnished : Furnished before)
    (factories : after.bk_factory_ = before.bk_factory_)
    (log : after.world.log = before.world.log ∨
      ∃ ref vdata started, after.world.log = before.world.log ++ [.data_ ref vdata started])
    (store : after.store = before.store) :
    (journal platform).Replays before after ∧ Furnished after := by
  refine ⟨.silent ?_ ?_ store, factories.trans furnished.factories, ?_⟩
  · rcases log with same | ⟨ref, vdata, started, one⟩
    · simp [journal, BlockManager.commands, same]
    · simp [journal, BlockManager.commands, one]
  · rcases log with same | ⟨ref, vdata, started, one⟩
    · simp [journal, BlockManager.replies, same]
    · simp [journal, BlockManager.replies, one]
  · rw [store]
    exact furnished.typed

/-- Every step executes what it adds to the journal. -/
theorem step_replays (furnished : Furnished before) {ref : BlockRef}
    (step : BlockStep platform before ref after) :
    (journal platform).Replays before after ∧ Furnished after := by
  cases step with
  | fetched hook buf zmq kind received =>
      refine silent_step furnished rfl (.inl rfl) (store_congr rfl rfl fun other => ?_)
      have kept : (before.kind ref).bind Derived.settings =
          (Derived.hookZmq { hook with rx_pkt_ := hook.rx_pkt_ + 1 }).settings := by rw [kind]; rfl
      exact settings_setDerived kept other
  | missed hook buf zmq kind failed => exact silent_step furnished rfl (.inl rfl) rfl
  | ignored vdata live deaf => exact silent_step furnished rfl (.inr ⟨_, _, _, rfl⟩) rfl
  | counted vdata name_ count_ live kind =>
      refine silent_step furnished rfl (.inr ⟨_, _, _, rfl⟩) (store_congr rfl rfl fun other => ?_)
      have kept : (before.kind ref).bind Derived.settings =
          (Derived.hello name_ (count_ + 1)).settings := by rw [kind]; rfl
      exact settings_setDerived kept other
  | sent vdata hook live kind =>
      refine silent_step furnished rfl (.inr ⟨_, _, _, rfl⟩) (store_congr rfl rfl fun other => ?_)
      have kept : (before.kind ref).bind Derived.settings =
          (Derived.hookZmq (hook.data_ platform vdata before.world.zmq).2.1).settings := by
        rw [kind]
        exact (hook.settings_data platform vdata before.world.zmq).symm
      exact settings_setDerived kept other
  | executed vdata payload is_ok next live kind command done =>
      have furnished' : Furnished (commanded before ref vdata payload) :=
        ⟨furnished.factories, furnished.typed⟩
      have stored : (BlockManager.store before).execute (platform.command payload) =
          (is_ok, BlockManager.store next) := stores_executed furnished' done
      have later : Furnished next := furnished'.executed done
      refine ⟨.single (platform.command payload) ?_ ?_ ?_, later.factories, later.typed⟩
      · simp [journal, BlockManager.commands, BlockManager.record, log_executed done, commanded,
          received]
      · simp [journal, BlockManager.replies, BlockManager.record, log_executed done, commanded,
          received, stored]
      · exact (congrArg Prod.snd stored).symm

/-- Every run executes what it adds to the journal. -/
theorem steps_replay (furnished : Furnished before)
    (steps : ReflTransGen (AnyStep platform) before after) :
    (journal platform).Replays before after ∧ Furnished after := by
  have replays : ∀ before after, Furnished before → AnyStep platform before after →
      (journal platform).Replays before after ∧ Furnished after := by
    rintro before after holds (⟨ref, step⟩ | ⟨message, rfl⟩)
    · exact step_replays holds step
    · exact silent_step holds rfl (.inl rfl) rfl
  exact Journaled.Replays.of_steps (fun before after holds step =>
    (replays before after holds step).2) (fun before after holds step =>
    (replays before after holds step).1) furnished steps

end

/-- A platform on which every command configures the monitoring client. -/
def configuring (identity : String) : Platform :=
  Platform.plain fun _ =>
    some (.hookZmq (-1) true ZMQ_DEALER identity "tcp://127.0.0.1:1664")

section

variable {platform : Platform} {manager : BlockManager} {identity : String}

/-- Configuring the monitoring client is a command like any other. -/
theorem monitoringClient_executed (identity : String) {ref : BlockRef} {hook : HookZmq}
    (there : manager.blockGet (-1) = some ref) (kind : manager.kind ref = some (.hookZmq hook)) :
    protoCommandParse (configuring identity) [] manager =
      .ok (true, monitoringClient identity manager) := by
  have unpacked : (configuring identity).unpack [] =
      some (.hookZmq (-1) true ZMQ_DEALER identity "tcp://127.0.0.1:1664") := rfl
  simp only [protoCommandParse, unpacked, monitoringClient, there, kind]

/-- A new hook is there and is a hook. -/
theorem exists_hook_added (platform : Platform) : ∃ ref hook,
    (repository.blockAdd (virtual platform) (-1) "hook_zmq").2.blockGet (-1) = some ref ∧
      BlockManager.kind (repository.blockAdd (virtual platform) (-1) "hook_zmq").2 ref =
        some (.hookZmq hook) := by
  have registered : repository.bk_factory_.lookup "hook_zmq" = some .hookZmq := by
    rw [lookup_repository]
    rfl
  have free : repository.blocks.get (-1) = none := rfl
  have exact_ := blockAdd_exact platform repository (-1) "hook_zmq"
  obtain ⟨-, -, there⟩ := exact_.effect (exact_.success.mpr ⟨free, .hookZmq, registered, rfl⟩)
  refine ⟨_, HookZmq.new (platform.hookMemory repository.blocks.next), Registry.get_of_find there,
    (kind_blockAdd free registered rfl).trans (Finmap.lookup_insert _)⟩

theorem log_monitoringClient (identity : String) (manager : BlockManager) :
    (monitoringClient identity manager).world.log = manager.world.log := by
  unfold monitoringClient
  split
  · rfl
  · split <;> rfl

/-- What `main` does up to its loop. -/
theorem c3qoMain_induction (Holds : BlockManager → Prop) (fresh : Holds repository)
    (operation : ∀ manager operation, Holds manager →
      Holds (Operation.perform (virtual platform) manager operation))
    (configured : ∀ manager, Holds manager → Holds (monitoringClient identity manager))
    (resumed : ∀ manager, Holds manager → Holds manager.start_) :
    Holds (c3qoMain platform identity) := by
  have hook := configured _ (operation _ (.blockAdd (-1) "hook_zmq") fresh)
  have hook_started := operation _ (.blockStart (-1)) hook
  have interpreter := operation _ (.blockAdd (-2) "trans_pb") hook_started
  have interpreter_started := operation _ (.blockStart (-2)) interpreter
  have asked := operation _ (.blockBind (-1) 0 (-2)) interpreter_started
  exact resumed _ (operation _ (.blockBind (-2) 0 (-1)) asked)

/-- `main` hands no data to blocks. -/
theorem log_c3qoMain (platform : Platform) (identity : String) :
    (c3qoMain platform identity).world.log = [] := by
  apply c3qoMain_induction (fun manager => manager.world.log = []) rfl
  · exact fun manager operation none_yet => (log_perform platform manager operation).trans none_yet
  · exact fun manager none_yet => (log_monitoringClient identity manager).trans none_yet
  · exact fun manager none_yet => none_yet

/-- Some commands lead from one manager to another. -/
structure Sets (before : BlockManager) (commands : List Command) (after : BlockManager) : Prop where
  /-- The manager is furnished. -/
  furnished : Furnished after
  /-- The store makes the same of them. -/
  store : (replay Store.execute commands before.store).2 = BlockManager.store after

/-- A command that is executed is one more of them. -/
theorem Sets.next {before after next : BlockManager} {commands : List Command} {command : Command}
    (sets : Sets before commands after) (furnished : Furnished next)
    (stores : (Store.execute command after.store).2 = BlockManager.store next) :
    Sets before (commands ++ [command]) next := by
  refine ⟨furnished, ?_⟩
  rw [replay_append, sets.store]
  exact stores

theorem Sets.command {before after : BlockManager} {commands : List Command} {command : Command}
    {result : Bool × BlockManager} (sets : Sets before commands after)
    (exact_ : Exact platform command after result) (stores : Stores after command result) :
    Sets before (commands ++ [command]) result.2 := by
  unfold Stores at stores
  refine sets.next ⟨exact_.steady.1.trans sets.furnished.factories, ?_⟩
    (congrArg Prod.snd stores)
  have kept := Store.typed_execute command sets.furnished.typed
  rw [stores] at kept
  exact kept

theorem Sets.executed {before after : BlockManager} {commands : List Command} {data : Bytes}
    {result : Bool × BlockManager} (sets : Sets before commands after)
    (done : protoCommandParse platform data after = .ok result) :
    Sets before (commands ++ [platform.command data]) result.2 :=
  sets.next (sets.furnished.executed done)
    (congrArg Prod.snd (stores_executed sets.furnished done))

/-- What `main` does up to its loop is a sequence of commands. -/
theorem sets_c3qoMain (platform : Platform) (identity : String) : ∃ manager,
    c3qoMain platform identity = manager.start_ ∧ Sets repository (setup identity) manager := by
  have none_yet : Sets repository [] repository :=
    ⟨⟨rfl, fun id entry there => by cases there⟩, rfl⟩
  obtain ⟨ref, hook, there, kind⟩ := exists_hook_added platform
  have hooked := none_yet.command (blockAdd_exact platform repository (-1) "hook_zmq")
    (stores_add none_yet.furnished "hook_zmq")
  have configured := hooked.executed (monitoringClient_executed identity there kind)
  have started := configured.command (blockStart_exact platform _ (-1))
    (stores_start (blockStart_exact platform _ (-1)) (next_blockStart ..))
  have added := started.command (blockAdd_exact platform _ (-2) "trans_pb")
    (stores_add started.furnished "trans_pb")
  have both := added.command (blockStart_exact platform _ (-2))
    (stores_start (blockStart_exact platform _ (-2)) (next_blockStart ..))
  have asked := both.command (blockBind_exact platform _ (-1) 0 (-2))
    (stores_bind (blockBind_exact platform _ (-1) 0 (-2)) (next_blockBind ..))
  have answered := asked.command (blockBind_exact platform _ (-2) 0 (-1))
    (stores_bind (blockBind_exact platform _ (-2) 0 (-1)) (next_blockBind ..))
  exact ⟨_, rfl, answered⟩

/-- What `main` sets up is what the store makes of the same commands. -/
theorem store_c3qoMain (platform : Platform) (identity : String) :
    BlockManager.store (c3qoMain platform identity) = Store.entered identity ∧
      Furnished (c3qoMain platform identity) := by
  obtain ⟨manager, same, sets⟩ := sets_c3qoMain platform identity
  have fresh : BlockManager.store repository = Store.empty := rfl
  rw [same]
  refine ⟨?_, sets.furnished.factories, sets.furnished.typed⟩
  unfold Store.entered
  rw [← fresh, sets.store]
  rfl

end

/-- What has been executed since the main loop was entered is the whole journal. -/
theorem replay_of_replays {platform : Platform} {identity : String} {manager : BlockManager}
    (replays : (journal platform).Replays (c3qoMain platform identity) manager) :
    replay Store.execute (manager.commands platform) (Store.entered identity) =
      (manager.replies, manager.store) := by
  have log := log_c3qoMain platform identity
  have none_yet : (journal platform).journal (c3qoMain platform identity) = [] := by
    show List.filterMap _ _ = _
    rw [log]
    rfl
  have none_yet' : (journal platform).results (c3qoMain platform identity) = [] := by
    show List.filterMap _ _ = _
    rw [log]
    rfl
  have whole := replays.whole none_yet none_yet'
  change replay Store.execute (manager.commands platform) (BlockManager.store _) = _ at whole
  rw [(store_c3qoMain platform identity).1] at whole
  exact whole

/-- Whatever happens in the main loop, the journal replays to the store. -/
theorem replay_of_run {platform : Platform} {identity : String} {activities : List Activity}
    {manager : BlockManager}
    (execution : Execution.run (Activity.perform platform) activities
      (c3qoMain platform identity) = some manager) :
    replay Store.execute (manager.commands platform) (Store.entered identity) =
      (manager.replies, manager.store) :=
  replay_of_replays
    (steps_replay (store_c3qoMain platform identity).2 (steps_of_run execution)).1

/-- A run of the main loop comes to what messages and callbacks do. -/
theorem activities_of_rounds {platform : Platform} {identity : String} {rounds : List Round}
    {state : LoopState}
    (execution : Execution.run (Round.perform platform) rounds
      (.entered platform identity) = some state) :
    ∃ activities manager, Execution.run (Activity.perform platform) activities
      (c3qoMain platform identity) = some manager ∧ SamePolled state.manager manager := by
  have untimed : (c3qoMain platform identity).world.tm_list_ = [] :=
    (stable_untimed platform).steady.c3qoMain rfl (fun _ untimed => untimed) identity
  have start : Matches platform (.entered platform identity) (c3qoMain platform identity) :=
    ⟨.refl _, untimed⟩
  obtain ⟨activities, manager, run, matches_⟩ := (simulated_round platform).run start execution
  exact ⟨activities, manager, run, matches_.same⟩

theorem replay_of_rounds {platform : Platform} {identity : String} {rounds : List Round}
    {state : LoopState}
    (execution : Execution.run (Round.perform platform) rounds
      (.entered platform identity) = some state) :
    replay Store.execute (state.manager.commands platform) (Store.entered identity) =
      (state.manager.replies, BlockManager.store state.manager) := by
  obtain ⟨activities, manager, run, polling, -, rfl⟩ := activities_of_rounds execution
  have replayed := replay_of_run run
  exact replayed

/-- In every run of the main loop of `c3qo`, the store of blocks is what is left when the commands
that have been executed are replayed from the one that `main` sets up, and `proto_command_reply` has
been called with the results of that: whatever else has arrived, and however the data has flown. -/
theorem mainLoop_replays (platform : Platform) (identity : String) (rounds : List Round)
    (state : LoopState)
    (execution : Execution.run (Round.perform platform) rounds
      (.entered platform identity) = some state) :
    replay Store.execute (state.manager.commands platform) (Store.entered identity) =
      (state.manager.replies, BlockManager.store state.manager) :=
  replay_of_rounds execution

/-- A platform with two commands: 1 adds a block, all others end the program. -/
def addOrTerm : Platform :=
  Platform.plain fun payload => if payload = [1] then some (.add 7 "hello") else some .term

/-- A round in which a command arrives and is executed. -/
def commandRound (payload : Bytes) : Round :=
  ⟨[(clientDesc.socket, [.ofBytes (ascii "PROTO.CMD"), .ofBytes payload])],
    0, some fun _ => ZMQ_POLLIN, fun _ => ⟨0, 0⟩, false, 2⟩

theorem mainLoop_replays_add : ∃ state,
    Execution.run (Round.perform addOrTerm) [commandRound [1], commandRound [1]]
      (.entered addOrTerm "c3qo") = some state ∧ state.manager.replies = [true, false] ∧
    replay Store.execute (state.manager.commands addOrTerm) (Store.entered "c3qo") =
      (state.manager.replies, BlockManager.store state.manager) := by
  have outcome : (Execution.run (Round.perform addOrTerm) [commandRound [1], commandRound [1]]
      (.entered addOrTerm "c3qo")).map (fun state => state.manager.replies) =
        some [true, false] := by
    decide +kernel
  obtain ⟨state, execution, replies⟩ := Option.map_eq_some_iff.mp outcome
  exact ⟨state, execution, replies, mainLoop_replays addOrTerm "c3qo" _ state execution⟩

/-- The signal handler has been called once a signal has been received. -/
theorem signal_of_rounds {platform : Platform} {rounds : List Round} {state final : LoopState}
    (execution : Execution.run (Round.perform platform) rounds state = some final) :
    final.end_signal_received = true ↔
      state.end_signal_received = true ∨ ∃ round ∈ rounds, round.signal = true := by
  induction rounds generalizing state with
  | nil =>
      obtain rfl := Option.some.inj execution
      simp
  | cons round rounds ih =>
      obtain ⟨next, taken, rest⟩ := Option.bind_eq_some_iff.mp execution
      obtain ⟨-, _, _, -, -, -, rfl⟩ := Round.perform_eq_some taken
      rw [ih rest, Bool.or_eq_true, List.exists_mem_cons_iff, or_assoc]

/-- The main loop of `c3qo` ends after exactly those rounds in which a signal has been received or
TERM has been executed, now or before. -/
theorem mainLoop_ends_iff (platform : Platform) (identity : String) (rounds : List Round)
    (state : LoopState)
    (execution : Execution.run (Round.perform platform) rounds
      (.entered platform identity) = some state) :
    state.goesOn = false ↔
      (∃ round ∈ rounds, round.signal = true) ∨ .term ∈ state.manager.commands platform := by
  have replayed := replay_of_rounds execution
  have requested : state.manager.is_term_ = decide (.term ∈ state.manager.commands platform) := by
    have terminated := Store.terminated_replay (state.manager.commands platform)
      (.entered identity)
    exact (congrArg (fun result => result.2.terminated) replayed).symm.trans
      (terminated.trans (Bool.false_or _))
  have signalled := signal_of_rounds execution
  have quiet : (LoopState.entered platform identity).end_signal_received = false := rfl
  rw [quiet] at signalled
  unfold LoopState.goesOn
  rw [requested]
  by_cases signal : ∃ round ∈ rounds, round.signal = true
  · have received := signalled.mpr (.inr signal)
    simp [received, signal]
  · have missed : state.end_signal_received = false :=
      Bool.eq_false_iff.mpr fun received => signal ((signalled.mp received).resolve_left (by simp))
    simp only [missed, signal, false_or]
    simp

/-- The second command is TERM. -/
theorem mainLoop_ends_term : ∃ state,
    Execution.run (Round.perform addOrTerm) [commandRound [1], commandRound [2]]
      (.entered addOrTerm "c3qo") = some state ∧ state.goesOn = false ∧
    (state.goesOn = false ↔
      (∃ round ∈ [commandRound [1], commandRound [2]], round.signal = true) ∨
        .term ∈ state.manager.commands addOrTerm) := by
  have outcome : (Execution.run (Round.perform addOrTerm) [commandRound [1], commandRound [2]]
      (.entered addOrTerm "c3qo")).map LoopState.goesOn = some false := by
    decide +kernel
  obtain ⟨state, execution, ended⟩ := Option.map_eq_some_iff.mp outcome
  exact ⟨state, execution, ended, mainLoop_ends_iff addOrTerm "c3qo" _ state execution⟩

end C3qo
