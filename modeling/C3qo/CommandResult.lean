import C3qo.TransPb

/-!
# Results of commands

When a command succeeds and what it changes: the named block and what its own `start_` or `stop_`
registers. A command that fails changes nothing.
-/

namespace C3qo

/-- What a command needs in order to succeed. -/
def Succeeds (platform : Platform) (manager : BlockManager) : Command → Prop
  | .add id type_ => manager.blockGet id = none ∧
      ∃ factory, manager.bk_factory_.lookup type_ = some factory ∧
        (World.constructor platform factory manager.blocks.next manager.world).1 = true
  | .start id => ∃ ref, manager.blockGet id = some ref
  | .stop id => ∃ ref, manager.blockGet id = some ref
  | .del id => ∃ ref, manager.Deletes id ref
  | .bind id _ dest =>
      (∃ ref, manager.blockGet id = some ref) ∧ ∃ ref, manager.blockGet dest = some ref
  | .hookZmq id _ _ _ _ => ∃ ref, manager.blockGet id = some ref
  | .term => True
  | .notSet => False

/-- All but the block with an identifier, the polling set and the sockets is as it was. -/
structure OnlyNamed (id : Int) (before after : BlockManager) : Prop where
  /-- The main loop is not affected. -/
  is_term_ : after.is_term_ = before.is_term_
  /-- The factories are the same. -/
  bk_factory_ : after.bk_factory_ = before.bk_factory_
  /-- All other identifiers lead to the same objects, which have not changed. -/
  others : ∀ other, other ≠ id → after.blocks.find other = before.blocks.find other
  /-- The fields that their kinds add have not changed. -/
  kinds : ∀ other ref, other ≠ id → before.blockGet other = some ref →
    BlockManager.kind after ref = BlockManager.kind before ref
  /-- The timers are the same. -/
  tm_list_ : after.world.tm_list_ = before.world.tm_list_

/-- The polling set and the sockets are as they were. -/
def Quiet (before after : BlockManager) : Prop :=
  after.world.polling = before.world.polling ∧ after.world.zmq = before.world.zmq

/-- A block changes its own context and descriptor, adds its descriptor to the polling set or
removes it, and of the sockets changes those that it holds before or after. -/
structure OwnRegistration (ref : BlockRef) (before after : World) : Prop where
  /-- Of the fields of the block, at most the context and the descriptor of a hook change. -/
  fields : after.derived.lookup ref = before.derived.lookup ref ∨
    ∃ hook ctx desc, before.derived.lookup ref = some (.hookZmq hook) ∧
      after.derived.lookup ref =
        some (.hookZmq { hook with zmq_ctx_ := ctx, zmq_sock_ := desc })
  /-- One descriptor of the block is added or removed, or none. -/
  polling : after.polling = before.polling ∨
    (∃ uninit desc, desc.bk = some ref ∧ after.polling = (before.polling.fdAdd uninit desc).2) ∨
    ∃ hook, before.derived.lookup ref = some (.hookZmq hook) ∧
      after.polling = before.polling.fdRemove hook.zmq_sock_
  /-- Sockets that the block does not hold are as before. -/
  zmq : ∀ address, (∀ hook, before.derived.lookup ref = some (.hookZmq hook) ∨
      after.derived.lookup ref = some (.hookZmq hook) → hook.zmq_sock_.socket ≠ address) →
    after.zmq.lookup address = before.zmq.lookup address

/-- What a command that succeeds changes. -/
def Effect (before after : BlockManager) : Command → Prop
  | .add id type_ => OnlyNamed id before after ∧ Quiet before after ∧
      after.blocks.find id = some (before.blocks.next, ⟨id, type_, false, none⟩)
  | .start id => OnlyNamed id before after ∧
      ∃ ref block, before.blocks.find id = some (ref, block) ∧
      if block.is_started_ then
        after = before
      else
        after.blocks.find id = some (ref, { block with is_started_ := true }) ∧
          OwnRegistration ref before.world after.world
  | .stop id => OnlyNamed id before after ∧
      ∃ ref block, before.blocks.find id = some (ref, block) ∧
      if block.is_started_ then
        after.blocks.find id = some (ref, { block with is_started_ := false }) ∧
          OwnRegistration ref before.world after.world
      else
        after = before
  | .del id => OnlyNamed id before after ∧ Quiet before after ∧ after.blockGet id = none
  | .bind id _ dest => OnlyNamed id before after ∧ after.world = before.world ∧
      ∃ ref block sink, before.blocks.find id = some (ref, block) ∧
        before.blockGet dest = some sink ∧
        after.blocks.find id = some (ref, { block with sink_ := some sink })
  | .hookZmq id client type_ name addr => OnlyNamed id before after ∧ Quiet before after ∧
      after.blocks = before.blocks ∧
      ∃ ref hook, before.blockGet id = some ref ∧
        BlockManager.kind before ref = some (.hookZmq hook) ∧
        BlockManager.kind after ref = some (.hookZmq
          { hook with client_ := client, type_ := type_, name_ := name, addr_ := addr })
  | .term => after = { before with is_term_ := true }
  | .notSet => False

/-- A result of a command that is as it should be. -/
structure Exact (platform : Platform) (command : Command) (before : BlockManager)
    (result : Bool × BlockManager) : Prop where
  /-- The command succeeds exactly if it has what it needs. -/
  success : result.1 = true ↔ Succeeds platform before command
  /-- A failure changes nothing. -/
  failure : result.1 = false → result.2 = before
  /-- A success changes the named block only. -/
  effect : result.1 = true → Effect before result.2 command

theorem Exact.refused {platform : Platform} {command : Command} {before : BlockManager}
    (missing : ¬ Succeeds platform before command) :
    Exact platform command before (false, before) :=
  ⟨iff_of_false Bool.false_ne_true missing, fun _ => rfl, fun done => by cases done⟩

theorem Exact.done {platform : Platform} {command : Command} {before after : BlockManager}
    (met : Succeeds platform before command) (effect : Effect before after command) :
    Exact platform command before (true, after) :=
  ⟨iff_of_true rfl met, fun refused => (by cases refused), fun _ => effect⟩

theorem OnlyNamed.refl (id : Int) (manager : BlockManager) : OnlyNamed id manager manager :=
  ⟨rfl, rfl, fun _ _ => rfl, fun _ _ _ _ => rfl, rfl⟩

section

variable (platform : Platform) (manager : BlockManager)

theorem blockAdd_exact (id : Int) (type_ : String) :
    Exact platform (.add id type_) manager (manager.blockAdd (virtual platform) id type_) := by
  unfold Manager.blockAdd
  split
  · rename_i ref there
    exact .refused fun ⟨free, _⟩ => by simp [Manager.blockGet, there] at free
  · rename_i free
    split
    · rename_i missing
      refine .refused fun ⟨_, factory, registered, _⟩ => ?_
      rw [missing] at registered
      cases registered
    · rename_i factory registered
      have answer : ∃ built after, (virtual platform).constructor factory manager.blocks.next
          manager.world = (built, after) := ⟨_, _, rfl⟩
      obtain ⟨built, after, answer⟩ := answer
      have answer' : World.constructor platform factory manager.blocks.next manager.world =
          (built, after) := answer
      dsimp only
      rw [answer]
      cases built with
      | false =>
          obtain rfl := World.constructor_false answer'
          refine .refused fun ⟨_, factory', registered', built⟩ => ?_
          obtain rfl := Option.some.inj (registered.symm.trans registered')
          rw [answer'] at built
          cases built
      | true =>
          obtain ⟨timers, polled, sockets, kinds⟩ := World.constructor_frame answer'
          refine .done ⟨free, factory, registered, by rw [answer']⟩
            ⟨⟨rfl, rfl, fun other different => ?_, fun other ref different there => ?_, timers⟩,
              ⟨polled, sockets⟩, ?_⟩
          · exact (manager.blocks.find_insert id type_ free other).trans (if_neg different)
          · obtain ⟨block, object, -⟩ := Registry.deref_of_get there
            exact kinds ref (Nat.ne_of_lt (manager.blocks.fresh ref block object))
          · exact (manager.blocks.find_insert id type_ free id).trans (if_pos rfl)

theorem start_frame (ref : BlockRef) (world : World) :
    (world.start_ platform ref).tm_list_ = world.tm_list_ ∧
      (∀ other, other ≠ ref →
        (world.start_ platform ref).derived.lookup other = world.derived.lookup other) ∧
      OwnRegistration ref world (world.start_ platform ref) := by
  unfold World.start_
  split
  · rename_i hook there
    obtain ⟨polled, sockets⟩ := hook.start_registers platform ref world.polling world.zmq
    refine ⟨rfl, fun other different => Finmap.lookup_insert_of_ne _ different, ?_, ?_, ?_⟩
    · obtain ⟨ctx, desc, fields⟩ := hook.start_fields platform ref world.polling world.zmq
      exact .inr ⟨hook, ctx, desc, there, (Finmap.lookup_insert _).trans
        (congrArg (fun hook => some (Derived.hookZmq hook)) fields)⟩
    · rcases polled with same | ⟨uninit, own, added⟩
      · exact .inl same
      · exact .inr (.inl ⟨uninit, _, own, added⟩)
    · exact fun address foreign => sockets address (foreign _ (.inr (Finmap.lookup_insert _)))
  · exact ⟨rfl, fun _ _ => rfl, .inl rfl, .inl rfl, fun _ _ => rfl⟩

theorem stop_frame (ref : BlockRef) (world : World) :
    (world.stop_ ref).tm_list_ = world.tm_list_ ∧
      (world.stop_ ref).derived = world.derived ∧
      OwnRegistration ref world (world.stop_ ref) := by
  unfold World.stop_
  split
  · rename_i hook there
    refine ⟨rfl, rfl, .inl rfl, .inr (.inr ⟨hook, there, rfl⟩), fun address foreign => ?_⟩
    exact hook.lookup_stop_of_ne world.polling world.zmq (foreign hook (.inl there))
  · exact ⟨rfl, rfl, .inl rfl, .inl rfl, fun _ _ => rfl⟩

/-- What is not found has no object. -/
theorem not_exists_blockGet {manager : BlockManager} {id : Int}
    (missing : manager.blocks.find id = none) : ¬ ∃ ref, manager.blockGet id = some ref := by
  rintro ⟨ref, there⟩
  rw [Manager.blockGet, Registry.find_eq_none_iff.mp missing] at there
  cases there

theorem blockStart_exact (id : Int) :
    Exact platform (.start id) manager (manager.blockStart (virtual platform) id) := by
  unfold Manager.blockStart
  split
  · rename_i missing
    exact .refused (not_exists_blockGet missing)
  · rename_i ref block found
    have there := Registry.get_of_find found
    split_ifs with running
    · exact .done ⟨ref, there⟩ ⟨.refl id manager, ref, block, found, by rw [if_pos running]⟩
    · obtain ⟨timers, kinds, own⟩ := start_frame platform ref manager.world
      refine .done ⟨ref, there⟩ ⟨⟨rfl, rfl, fun other different => ?_,
        fun other ref' different there' => ?_, timers⟩, ref, block, found, ?_⟩
      · exact (Registry.find_setStarted found _ other).trans (if_neg different)
      · exact kinds ref' (Registry.ne_of_get different there there')
      · rw [if_neg running]
        exact ⟨(Registry.find_setStarted found _ id).trans (if_pos rfl), own⟩

theorem blockStop_exact (id : Int) :
    Exact platform (.stop id) manager (manager.blockStop (virtual platform) id) := by
  unfold Manager.blockStop
  split
  · rename_i missing
    exact .refused (not_exists_blockGet missing)
  · rename_i ref block found
    have there := Registry.get_of_find found
    split_ifs with running
    · obtain ⟨timers, kinds, own⟩ := stop_frame ref manager.world
      refine .done ⟨ref, there⟩ ⟨⟨rfl, rfl, fun other different => ?_,
        fun other ref' _ _ => ?_, timers⟩, ref, block, found, ?_⟩
      · exact (Registry.find_setStarted found _ other).trans (if_neg different)
      · exact congrArg (fun derived => derived.lookup ref') kinds
      · rw [if_pos running]
        exact ⟨(Registry.find_setStarted found _ id).trans (if_pos rfl), own⟩
    · exact .done ⟨ref, there⟩ ⟨.refl id manager, ref, block, found, by rw [if_neg running]⟩

theorem blockDel_exact (id : Int) :
    Exact platform (.del id) manager (manager.blockDel (virtual platform) id) := by
  rcases manager.blockDel_cases (virtual platform) id with
    ⟨refused, same⟩ | ⟨ref, block, factory, found, idle, registered, destroyed⟩
  · rw [same]
    exact .refused fun ⟨ref, deletes⟩ => refused ref deletes
  · rw [destroyed]
    have there := Registry.get_of_find found
    refine .done ⟨ref, block, factory, found, idle, registered⟩
      ⟨⟨rfl, rfl, fun other different => ?_, fun other ref' different there' => ?_, rfl⟩,
        ⟨rfl, rfl⟩, ?_⟩
    · exact (Registry.find_remove found other).trans (if_neg different)
    · exact Finmap.lookup_erase_ne (Registry.ne_of_get different there there')
    · exact (manager.blocks.get_remove id id).trans (if_pos rfl)

theorem blockBind_exact (id port dest : Int) :
    Exact platform (.bind id port dest) manager
      (manager.blockBind (virtual platform) id port dest) := by
  unfold Manager.blockBind
  split
  · rename_i src sink there there_sink
    obtain ⟨block, found⟩ := Registry.find_of_get there
    refine .done ⟨⟨src, there⟩, sink, there_sink⟩ ⟨⟨rfl, rfl, fun other different => ?_,
      fun _ _ _ _ => rfl, rfl⟩, rfl, src, block, sink, found, there_sink, ?_⟩
    · exact (Registry.find_setSink found _ other).trans (if_neg different)
    · exact (Registry.find_setSink found _ id).trans (if_pos rfl)
  · rename_i missing
    refine .refused fun ⟨⟨src, there⟩, sink, there_sink⟩ => ?_
    exact missing src sink there there_sink

end

/-- A command is executed as it should be, as long as only hooks are configured as hooks. -/
theorem executed_exact {platform : Platform} {data : Bytes} {manager : BlockManager}
    {command : Command} (unpacked : platform.unpack data = some command)
    (hooks : ∀ id client type_ name addr ref, command = .hookZmq id client type_ name addr →
      manager.blockGet id = some ref →
      ∃ hook, BlockManager.kind manager ref = some (.hookZmq hook)) :
    ∃ result, protoCommandParse platform data manager = .ok result ∧
      Exact platform command manager result := by
  unfold protoCommandParse
  rw [unpacked]
  cases command with
  | add id type_ => exact ⟨_, rfl, blockAdd_exact platform manager id type_⟩
  | start id => exact ⟨_, rfl, blockStart_exact platform manager id⟩
  | stop id => exact ⟨_, rfl, blockStop_exact platform manager id⟩
  | del id => exact ⟨_, rfl, blockDel_exact platform manager id⟩
  | bind id port dest => exact ⟨_, rfl, blockBind_exact platform manager id port dest⟩
  | term => exact ⟨_, rfl, .done trivial rfl⟩
  | notSet => exact ⟨_, rfl, .refused fun never => never⟩
  | hookZmq id client type_ name addr =>
      rcases there : manager.blockGet id with _ | ref
      · refine ⟨_, by simp only [there], .refused fun ⟨ref, there'⟩ => ?_⟩
        rw [there] at there'
        cases there'
      · obtain ⟨hook, kind⟩ := hooks id client type_ name addr ref rfl there
        let after := BlockManager.setDerived manager ref (.hookZmq
          { hook with client_ := client, type_ := type_, name_ := name, addr_ := addr })
        refine ⟨(true, after), by simp only [there, kind, after], .done ⟨ref, there⟩
          ⟨⟨rfl, rfl, fun _ _ => rfl, fun other ref' different there' => ?_, rfl⟩, ⟨rfl, rfl⟩,
            rfl, ref, hook, there, kind, Finmap.lookup_insert _⟩⟩
        exact Finmap.lookup_insert_of_ne _ (Registry.ne_of_get different there there')

/-- Exact success conditions and atomic failure of commands, as long as only hooks are configured
as hooks. -/
theorem protoCommandParse_exact (platform : Platform) (data : Bytes) (manager : BlockManager)
    (hooks : ∀ id client type_ name addr ref,
      platform.unpack data = some (.hookZmq id client type_ name addr) →
      manager.blockGet id = some ref →
      ∃ hook, BlockManager.kind manager ref = some (.hookZmq hook)) :
    ∃ is_ok after, protoCommandParse platform data manager = .ok (is_ok, after) ∧
      (is_ok = true ↔
        ∃ command, platform.unpack data = some command ∧ Succeeds platform manager command) ∧
      (is_ok = false → after = manager) ∧
      ∀ command, platform.unpack data = some command → is_ok = true →
        Effect manager after command := by
  rcases unpacked : platform.unpack data with _ | command
  · refine ⟨false, manager, by simp [protoCommandParse, unpacked], ?_, fun _ => rfl, ?_⟩
    · simp
    · rintro command unpacked' done
      cases done
  · obtain ⟨⟨is_ok, after⟩, result, success, failure, effect⟩ := executed_exact unpacked
      fun id client type_ name addr ref same =>
        hooks id client type_ name addr ref (unpacked.trans (congrArg some same))
    refine ⟨is_ok, after, result, ?_, failure, ?_⟩
    · simpa using success
    · rintro command' same done
      obtain rfl := Option.some.inj same
      exact effect done

/-- A manager with one hook, for examples. -/
def oneHook (platform : Platform) : BlockManager :=
  ((Manager.new World.empty |>.blockFactoryRegister "hook_zmq" Factory.hookZmq).blockAdd
    (virtual platform) 1 "hook_zmq").2

theorem protoCommandParse_exact_oneHook :
    let platform := Platform.plain fun _ => some (.hookZmq 1 true ZMQ_DEALER "name" "addr")
    ∃ after, protoCommandParse platform [] (oneHook platform) = .ok (true, after) ∧
      Effect (oneHook platform) after (.hookZmq 1 true ZMQ_DEALER "name" "addr") := by
  intro platform
  have there : (oneHook platform).blockGet 1 = some 0 := rfl
  obtain ⟨is_ok, after, result, success, -, effect⟩ :=
    protoCommandParse_exact platform [] (oneHook platform) (by
      rintro id client type_ name addr ref unpacked there'
      cases unpacked
      obtain rfl := Option.some.inj (there.symm.trans there')
      exact ⟨_, rfl⟩)
  obtain rfl := success.mpr ⟨_, rfl, 0, there⟩
  exact ⟨after, result, effect _ rfl rfl⟩

end C3qo
