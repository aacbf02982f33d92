import C3qo.RemoteControl

/-!
# Answers to commands

A `trans_pb` sends its reply after it has executed the command, down whatever route leads away
from it then. The reply comes to the started hook that was its sink before exactly if the command
has left the two alone: it has not stopped the hook, bound the `trans_pb` to a block from which no
`hello` blocks lead back to the hook, deleted the `trans_pb` or gone wrong.
-/

namespace C3qo

/-- A `trans_pb` has a started hook as its sink. -/
structure Answering (manager : BlockManager) (trans sink : BlockRef) : Prop where
  /-- The block is a `trans_pb`. -/
  transPb : manager.kind trans = some .transPb
  /-- It is bound to the sink. -/
  bound : manager.blocks.deref trans >>= Block.sink_ = some sink
  /-- The sink is started. -/
  started : manager.isStarted sink = true
  /-- The sink is a hook. -/
  registered : ∃ hook, manager.kind sink = some (.hookZmq hook)

/-- What a `trans_pb` sends comes to a started hook, maybe by way of `hello` blocks. -/
structure Routed (manager : BlockManager) (trans sink : BlockRef) : Prop where
  /-- The route from the `trans_pb` ends at the sink. -/
  leads : manager.LeadsTo trans sink
  /-- The sink is started. -/
  started : manager.isStarted sink = true
  /-- The sink is a hook. -/
  registered : ∃ hook, manager.kind sink = some (.hookZmq hook)

/-- What a `trans_pb` sends still comes to its sink after the command. A command may bind it to a
`hello` block from where a route leads to the sink. -/
def LeavesRoute (manager : BlockManager) (trans sink : BlockRef) : Command → Prop
  | .stop id => manager.blockGet id ≠ some sink
  | .del id => ¬ manager.Deletes id trans
  | .bind id _ dest => manager.blockGet id = some trans →
      ∀ other, manager.blockGet dest = some other →
        other = sink ∨ manager.isHello other = true ∧ manager.LeadsTo other sink
  | .hookZmq id _ _ _ _ => ∀ ref, manager.blockGet id = some ref →
      ∃ hook, manager.kind ref = some (.hookZmq hook)
  | _ => True

/-! ## Commands that leave the route alone -/

/-- A block that a command does not name is as it was. -/
theorem OnlyNamed.kept {before after : BlockManager} {id : Int} (named : OnlyNamed id before after)
    {ref : BlockRef} {block : Block} (object : before.blocks.deref ref = some block)
    (other : before.blockGet id ≠ some ref) :
    after.blocks.deref ref = some block ∧ after.kind ref = before.kind ref := by
  have there := Registry.id_of_deref object
  have different : block.id_ ≠ id := by
    rintro rfl
    exact other there
  have found := (named.others _ different).trans (Registry.find_eq_some_iff.mpr ⟨object, rfl⟩)
  exact ⟨(Registry.find_eq_some_iff.mp found).1, named.kinds _ _ different there⟩

/-- A hook is no `hello` block. -/
theorem not_hello_of_hook {manager : BlockManager} {ref : BlockRef}
    (registered : ∃ hook, manager.kind ref = some (.hookZmq hook)) :
    manager.isHello ref = false := by
  obtain ⟨hook, kind⟩ := registered
  simp only [BlockManager.isHello, kind]

/-- Nor is a `trans_pb`. -/
theorem not_hello_of_transPb {manager : BlockManager} {ref : BlockRef}
    (kind : manager.kind ref = some .transPb) : manager.isHello ref = false := by
  simp only [BlockManager.isHello, kind]

namespace Answering

variable {platform : Platform} {before after manager : BlockManager} {trans sink : BlockRef}

/-- The shortest route. -/
theorem routed (answering : Answering manager trans sink) : Routed manager trans sink := by
  obtain ⟨block, object, -⟩ := BlockManager.isStarted_iff.mp answering.started
  exact ⟨⟨0, trans, rfl, answering.bound, Registry.live_iff.mpr ⟨block, object⟩,
    not_hello_of_hook answering.registered⟩, answering.started, answering.registered⟩

/-- A `trans_pb` may be bound to a `hello` block from where a route leads to its sink. -/
theorem rerouted (answering : Answering before trans sink) {id : Int} {block : Block}
    {other : BlockRef} (named : OnlyNamed id before after) (world : after.world = before.world)
    (found : before.blocks.find id = some (trans, block))
    (changed : after.blocks.find id = some (trans, { block with sink_ := some other }))
    (live : before.blocks.Live other) (hello : before.isHello other = true)
    (leads : before.LeadsTo other sink) : Routed after trans sink := by
  obtain ⟨object, -⟩ := Registry.find_eq_some_iff.mp changed
  obtain ⟨next, object_other⟩ := Registry.live_iff.mp live
  obtain ⟨target, object_sink, started⟩ := BlockManager.isStarted_iff.mp answering.started
  have kinds : ∀ ref, after.kind ref = before.kind ref := fun ref =>
    congrArg (fun world => world.derived.lookup ref) world
  have hellos : ∀ ref, after.isHello ref = before.isHello ref := fun ref => by
    simp only [BlockManager.isHello, kinds]
  have different : ∀ ref, before.kind ref ≠ some .transPb → before.blockGet id ≠ some ref := by
    rintro ref other there
    obtain rfl := Option.some.inj ((Registry.get_of_find found).symm.trans there)
    exact other answering.transPb
  have kept : ∀ ref block, before.isHello ref = true → before.blocks.deref ref = some block →
      after.blocks.deref ref = some block := by
    intro ref block hello there
    refine (named.kept there (different ref fun kind => ?_)).1
    rw [not_hello_of_transPb kind] at hello
    cases hello
  have sink_kept : after.blocks.deref sink = some target := by
    refine (named.kept object_sink (different sink fun kind => ?_)).1
    obtain ⟨hook, kind'⟩ := answering.registered
    cases kind.symm.trans kind'
  have rest : after.LeadsTo other sink :=
    leads.of_kept hello hellos kept (Registry.live_iff.mpr ⟨target, sink_kept⟩)
  refine ⟨.cons ?_ rest, BlockManager.isStarted_iff.mpr ⟨target, sink_kept, started⟩, ?_⟩
  · exact BlockManager.passing_eq_some_iff.mpr ⟨_, next, object, rfl,
      kept other next hello object_other, (hellos other).trans hello⟩
  · simpa only [kinds] using answering.registered

/-- A command keeps the route if it keeps what matters of the block that it names. -/
theorem of_onlyNamed (answering : Answering before trans sink) {id : Int}
    (named : OnlyNamed id before after)
    (source : before.blockGet id = some trans →
      after.blocks.deref trans >>= Block.sink_ = some sink ∧ after.kind trans = some .transPb)
    (target : before.blockGet id = some sink →
      after.isStarted sink = true ∧ ∃ hook, after.kind sink = some (.hookZmq hook)) :
    Answering after trans sink := by
  obtain ⟨transPb, bound, started, registered⟩ := answering
  obtain ⟨block, object, bound'⟩ := Option.bind_eq_some_iff.mp bound
  obtain ⟨block', object', started'⟩ := BlockManager.isStarted_iff.mp started
  have route : after.blocks.deref trans >>= Block.sink_ = some sink ∧
      after.kind trans = some .transPb := by
    by_cases same : before.blockGet id = some trans
    · exact source same
    · obtain ⟨kept, kind⟩ := named.kept object same
      exact ⟨Option.bind_eq_some_iff.mpr ⟨block, kept, bound'⟩, kind.trans transPb⟩
  have end_ : after.isStarted sink = true ∧ ∃ hook, after.kind sink = some (.hookZmq hook) := by
    by_cases same : before.blockGet id = some sink
    · exact target same
    · obtain ⟨kept, kind⟩ := named.kept object' same
      exact ⟨BlockManager.isStarted_iff.mpr ⟨block', kept, started'⟩,
        by rw [kind]; exact registered⟩
  exact ⟨route.2, route.1, end_.1, end_.2⟩

/-- Changing the flag `is_started_` of a block keeps its sink and its kind. -/
theorem of_flag (answering : Answering before trans sink) {id : Int} {ref : BlockRef}
    {block : Block} {started : Bool} (named : OnlyNamed id before after)
    (found : before.blocks.find id = some (ref, block))
    (changed : after.blocks.find id = some (ref, { block with is_started_ := started }))
    (own : OwnRegistration ref before.world after.world) (spared : ref = sink → started = true) :
    Answering after trans sink := by
  have there := Registry.get_of_find found
  obtain ⟨object, -⟩ := Registry.find_eq_some_iff.mp found
  obtain ⟨object', -⟩ := Registry.find_eq_some_iff.mp changed
  refine answering.of_onlyNamed named (fun same => ?_) fun same => ?_
  · obtain rfl := Option.some.inj (there.symm.trans same)
    refine ⟨?_, ?_⟩
    · have bound := answering.bound
      rw [object] at bound
      rw [object']
      exact bound
    · rcases own.fields with fields | ⟨hook, ctx, desc, kind, -⟩
      · exact fields.trans answering.transPb
      · exact absurd (answering.transPb.symm.trans kind) (by simp)
  · obtain rfl := Option.some.inj (there.symm.trans same)
    refine ⟨BlockManager.isStarted_iff.mpr ⟨_, object', spared rfl⟩, ?_⟩
    rcases own.fields with fields | ⟨hook, ctx, desc, -, kind⟩
    · obtain ⟨hook, kind⟩ := answering.registered
      exact ⟨hook, fields.trans kind⟩
    · exact ⟨_, kind⟩

/-- After a command that leaves the route alone there is one. -/
theorem effect (answering : Answering before trans sink) {command : Command}
    (leaves : LeavesRoute before trans sink command) (succeeds : Succeeds platform before command)
    (effect : Effect before after command) : Routed after trans sink := by
  cases command with
  | add id type_ =>
      obtain ⟨named, -, -⟩ := effect
      have free : before.blockGet id = none := succeeds.1
      exact (answering.of_onlyNamed named (by simp [free]) (by simp [free])).routed
  | start id =>
      obtain ⟨named, ref, block, found, change⟩ := effect
      split_ifs at change
      · exact change ▸ answering.routed
      · exact (answering.of_flag named found change.1 change.2 fun _ => rfl).routed
  | stop id =>
      obtain ⟨named, ref, block, found, change⟩ := effect
      split_ifs at change
      · refine (answering.of_flag named found change.1 change.2 fun same => ?_).routed
        exact absurd (same ▸ Registry.get_of_find found) leaves
      · exact change ▸ answering.routed
  | del id =>
      obtain ⟨named, -, -⟩ := effect
      obtain ⟨ref, deletes⟩ := succeeds
      have there : before.blockGet id = some ref := deletes.get
      refine (answering.of_onlyNamed named (fun same => ?_) fun same => ?_).routed
      · obtain rfl := Option.some.inj (there.symm.trans same)
        exact absurd deletes leaves
      · obtain rfl := Option.some.inj (there.symm.trans same)
        exact absurd deletes (not_deletes_of_started answering.started id)
  | bind id port dest =>
      obtain ⟨named, world, ref, block, other, found, there, changed⟩ := effect
      obtain ⟨object, -⟩ := Registry.find_eq_some_iff.mp found
      obtain ⟨object', -⟩ := Registry.find_eq_some_iff.mp changed
      have kinds : ∀ ref, after.kind ref = before.kind ref := fun ref =>
        congrArg (fun world => world.derived.lookup ref) world
      by_cases own : ref = trans
      · subst own
        rcases leaves (Registry.get_of_find found) other there with rfl | ⟨hello, leads⟩
        · refine (answering.of_onlyNamed named (fun _ => ?_) fun same => ?_).routed
          · exact ⟨by rw [object']; rfl, (kinds _).trans answering.transPb⟩
          · obtain rfl := Option.some.inj ((Registry.get_of_find found).symm.trans same)
            obtain ⟨hook, kind⟩ := answering.registered
            cases answering.transPb.symm.trans kind
        · exact answering.rerouted named world found changed leads.live_source hello leads
      · refine (answering.of_onlyNamed named (fun same => ?_) fun same => ?_).routed
        · exact absurd (Option.some.inj ((Registry.get_of_find found).symm.trans same)) own
        · obtain rfl := Option.some.inj ((Registry.get_of_find found).symm.trans same)
          obtain ⟨block', object'', started⟩ := BlockManager.isStarted_iff.mp answering.started
          obtain rfl := Option.some.inj (object.symm.trans object'')
          exact ⟨BlockManager.isStarted_iff.mpr ⟨_, object', started⟩,
            by rw [kinds]; exact answering.registered⟩
  | hookZmq id client type_ name addr =>
      obtain ⟨named, -, blocks, ref, hook, there, kind, kind'⟩ := effect
      refine (answering.of_onlyNamed named (fun same => ?_) fun same => ?_).routed
      · obtain rfl := Option.some.inj (there.symm.trans same)
        exact absurd (answering.transPb.symm.trans kind) (by simp)
      · obtain rfl := Option.some.inj (there.symm.trans same)
        refine ⟨?_, _, kind'⟩
        simpa only [BlockManager.isStarted, blocks] using answering.started
  | term =>
      obtain rfl : after = { before with is_term_ := true } := effect
      obtain ⟨leads, started, registered⟩ := answering.routed
      exact ⟨(BlockManager.leadsTo_congr rfl fun _ => rfl).mp leads, started, registered⟩
  | notSet => cases effect

/-- A command that leaves the route alone is executed, and then there is a route. -/
theorem executed (answering : Answering manager trans sink) {payload : Bytes}
    (leaves : ∀ command, platform.unpack payload = some command →
      LeavesRoute manager trans sink command) :
    ∃ is_ok after, protoCommandParse platform payload manager = .ok (is_ok, after) ∧
      Routed after trans sink ∧ (is_ok = true ↔
        ∃ command, platform.unpack payload = some command ∧ Succeeds platform manager command) := by
  rcases unpacked : platform.unpack payload with _ | command
  · exact ⟨false, manager, by simp [protoCommandParse, unpacked], answering.routed, by simp⟩
  · have leaves := leaves command unpacked
    obtain ⟨⟨is_ok, after⟩, result, success, failure, change⟩ := executed_exact unpacked
      fun id client type_ name addr ref same there => by
        subst same
        exact leaves ref there
    refine ⟨is_ok, after, result, ?_, by simpa using success⟩
    cases is_ok with
    | false =>
        obtain rfl := failure rfl
        exact answering.routed
    | true => exact answering.effect leaves (success.mp rfl) (change rfl)

end Answering

section

variable {platform : Platform} {running : List BlockRef} {manager final : BlockManager}
  {trans sink : BlockRef} {is_ok : Bool}

end

/-! ## Commands in the main loop -/

section

variable {platform : Platform} {manager before : BlockManager} {desc : FileDesc}
  {source trans sink : BlockRef} {hook : HookZmq} {zmq : Zmq} {buf : Buffer} {payload : Bytes}

end

end C3qo
