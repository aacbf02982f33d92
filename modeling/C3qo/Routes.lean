import C3qo.TransPb
import C3qo.Walk

/-!
# Routes of data flows

Only `hello` blocks forward what they get. A flow therefore passes `hello` blocks, which count it,
until it comes to a block without sink or to a block of another kind, where it ends.
-/

namespace C3qo

/-- A block without its packet count. -/
def Derived.uncounted : Derived → Derived
  | .hello name_ _ => .hello name_ 0
  | .transPb => .transPb
  | .hookZmq hook => .hookZmq hook

/-- Worlds that differ in packet counts of `hello` blocks and in the record only. -/
structure AlikeWorld (left right : World) : Prop where
  /-- The same fields, packet counts apart. -/
  kinds : ∀ ref, (left.derived.lookup ref).map Derived.uncounted =
    (right.derived.lookup ref).map Derived.uncounted
  /-- The same timers. -/
  tm_list_ : left.tm_list_ = right.tm_list_
  /-- The same polling set. -/
  polling : left.polling = right.polling
  /-- The same sockets. -/
  zmq : left.zmq = right.zmq

/-- Managers that differ in packet counts of `hello` blocks and in records only. -/
structure Alike (left right : BlockManager) : Prop where
  /-- The same main loop state. -/
  is_term_ : left.is_term_ = right.is_term_
  /-- The same factories. -/
  bk_factory_ : left.bk_factory_ = right.bk_factory_
  /-- The same blocks. -/
  blocks : left.blocks = right.blocks
  /-- Worlds that are alike. -/
  world : AlikeWorld left.world right.world

theorem AlikeWorld.refl (world : World) : AlikeWorld world world := ⟨fun _ => rfl, rfl, rfl, rfl⟩

theorem AlikeWorld.trans {first second third : World} (left : AlikeWorld first second)
    (right : AlikeWorld second third) : AlikeWorld first third :=
  ⟨fun ref => (left.kinds ref).trans (right.kinds ref), left.tm_list_.trans right.tm_list_,
    left.polling.trans right.polling, left.zmq.trans right.zmq⟩

/-- Blocks that are not `hello` blocks have the same fields. -/
theorem AlikeWorld.lookup_eq {left right : World} (alike : AlikeWorld left right) {ref : BlockRef}
    {derived : Derived} (there : left.derived.lookup ref = some derived)
    (other : ∀ name_ count_, derived ≠ .hello name_ count_) :
    right.derived.lookup ref = some derived := by
  have same := alike.kinds ref
  rw [there] at same
  revert same
  cases derived with
  | hello name_ count_ => exact absurd rfl (other name_ count_)
  | transPb | hookZmq =>
      rcases right.derived.lookup ref with _ | ⟨_ | _ | _⟩ <;> simp [Derived.uncounted, eq_comm]

theorem AlikeWorld.symm {left right : World} (alike : AlikeWorld left right) :
    AlikeWorld right left :=
  ⟨fun ref => (alike.kinds ref).symm, alike.tm_list_.symm, alike.polling.symm, alike.zmq.symm⟩

theorem Alike.refl (manager : BlockManager) : Alike manager manager :=
  ⟨rfl, rfl, rfl, .refl manager.world⟩

theorem Alike.trans {first second third : BlockManager} (left : Alike first second)
    (right : Alike second third) : Alike first third :=
  ⟨left.is_term_.trans right.is_term_, left.bk_factory_.trans right.bk_factory_,
    left.blocks.trans right.blocks, left.world.trans right.world⟩

namespace BlockManager

/-- The block is a `hello` block. -/
def isHello (manager : BlockManager) (ref : BlockRef) : Bool :=
  match BlockManager.kind manager ref with
  | some (.hello _ _) => true
  | _ => false

/-- The sink of a block, if it is a live `hello` block. -/
def passing (manager : BlockManager) (ref : BlockRef) : Option BlockRef :=
  (manager.blocks.deref ref >>= Block.sink_).filter fun sink =>
    (manager.blocks.deref sink).isSome && manager.isHello sink

/-- A flow from the source passes `hello` blocks and then comes to the target, a live block of
another kind. -/
def LeadsTo (manager : BlockManager) (source target : BlockRef) : Prop :=
  ∃ steps last, Walk.follow manager.passing steps source = some last ∧
    manager.blocks.deref last >>= Block.sink_ = some target ∧ manager.blocks.Live target ∧
    manager.isHello target = false

theorem isHello_iff {manager : BlockManager} {ref : BlockRef} :
    manager.isHello ref = true ↔ ∃ name_ count_, manager.kind ref = some (.hello name_ count_) := by
  unfold isHello
  split
  · rename_i name_ count_ kind
    exact iff_of_true rfl ⟨name_, count_, kind⟩
  · rename_i other
    exact iff_of_false Bool.false_ne_true fun ⟨name_, count_, kind⟩ => other name_ count_ kind

theorem passing_eq_some_iff {manager : BlockManager} {ref sink : BlockRef} :
    manager.passing ref = some sink ↔ ∃ block target, manager.blocks.deref ref = some block ∧
      block.sink_ = some sink ∧ manager.blocks.deref sink = some target ∧
      manager.isHello sink = true := by
  rw [passing, Option.filter_eq_some_iff, Option.bind_eq_bind, Option.bind_eq_some_iff,
    Bool.and_eq_true, Option.isSome_iff_exists]
  constructor
  · rintro ⟨⟨block, object, bound⟩, ⟨target, live⟩, hello⟩
    exact ⟨block, target, object, bound, live, hello⟩
  · rintro ⟨block, target, object, bound, live, hello⟩
    exact ⟨⟨block, object, bound⟩, ⟨target, live⟩, hello⟩

theorem LeadsTo.not_hello {manager : BlockManager} {source target : BlockRef}
    (leads : manager.LeadsTo source target) : manager.isHello target = false := by
  obtain ⟨_, _, _, _, _, other⟩ := leads
  exact other

/-- A route has one end. -/
theorem LeadsTo.unique {manager : BlockManager} {source target target' : BlockRef}
    (leads : manager.LeadsTo source target) (leads' : manager.LeadsTo source target') :
    target = target' := by
  have stop : ∀ {last target}, manager.blocks.deref last >>= Block.sink_ = some target →
      manager.isHello target = false → manager.passing last = none := by
    intro last target bound other
    simp [passing, bound, other]
  obtain ⟨steps, last, reached, bound, -, other⟩ := leads
  obtain ⟨steps', last', reached', bound', -, other'⟩ := leads'
  obtain rfl := Walk.last_unique reached (stop bound other) reached' (stop bound' other')
  exact Option.some.inj (bound.symm.trans bound')

/-- Routes depend on the blocks and on which of them are `hello` blocks. -/
theorem passing_congr {left right : BlockManager} (blocks : left.blocks = right.blocks)
    (hellos : ∀ ref, left.isHello ref = right.isHello ref) : left.passing = right.passing := by
  funext ref
  simp only [passing, blocks, hellos]

theorem leadsTo_congr {left right : BlockManager} (blocks : left.blocks = right.blocks)
    (hellos : ∀ ref, left.isHello ref = right.isHello ref) {source target : BlockRef} :
    left.LeadsTo source target ↔ right.LeadsTo source target := by
  simp only [LeadsTo, passing_congr blocks hellos, blocks, hellos]

end BlockManager

namespace Alike

variable {left right : BlockManager}

theorem isHello (alike : Alike left right) (ref : BlockRef) :
    left.isHello ref = right.isHello ref := by
  have same := alike.world.kinds ref
  revert same
  unfold BlockManager.isHello BlockManager.kind
  rcases left.world.derived.lookup ref with _ | ⟨_ | _ | _⟩ <;>
    rcases right.world.derived.lookup ref with _ | ⟨_ | _ | _⟩ <;> simp [Derived.uncounted]

theorem passing (alike : Alike left right) : left.passing = right.passing :=
  BlockManager.passing_congr alike.blocks alike.isHello

theorem record (manager : BlockManager) (handled : Handled) :
    Alike manager (manager.record handled) :=
  ⟨rfl, rfl, rfl, fun _ => rfl, rfl, rfl, rfl⟩

/-- Counting a packet. -/
theorem setDerived {manager : BlockManager} {ref : BlockRef} {name_ : String} {count_ : Nat}
    (kind : manager.kind ref = some (.hello name_ count_)) :
    Alike manager (manager.setDerived ref (.hello name_ (count_ + 1))) := by
  refine ⟨rfl, rfl, rfl, fun other => ?_, rfl, rfl, rfl⟩
  change (manager.kind other).map _ = ((manager.setDerived ref _).kind other).map _
  by_cases same : other = ref
  · subst same
    rw [kind, BlockManager.kind_setDerived]
    rfl
  · rw [BlockManager.kind_setDerived_of_ne _ _ same]

end Alike

/-! ## What one block does with its data -/

section

variable {platform : Platform} {fuel : Nat} {running : List BlockRef} {vdata : Option Buffer}
  {ref : BlockRef} {manager : BlockManager}

/-- The manager once it is recorded that a block has got data. -/
def received (manager : BlockManager) (ref : BlockRef) (vdata : Option Buffer) : BlockManager :=
  BlockManager.record manager (.data_ ref vdata (manager.isStarted ref))

/-- The manager once a hook has sent what it got, if it could. -/
def hookSent (platform : Platform) (manager : BlockManager) (ref : BlockRef) (hook : HookZmq)
    (vdata : Option Buffer) : BlockManager :=
  let (_, hook, zmq) := hook.data_ platform vdata manager.world.zmq
  { manager with world := manager.world.withHook ref hook manager.world.polling zmq }

theorem blockData_hello {name_ : String} {count_ : Nat}
    (kind : manager.kind ref = some (.hello name_ count_)) :
    blockData platform (fuel + 1) running vdata ref manager =
      .ok (true, (received manager ref vdata).setDerived ref (.hello name_ (count_ + 1))) := by
  simp only [blockData, BlockManager.kind_record, kind, received]

theorem blockData_hook {hook : HookZmq} (kind : manager.kind ref = some (.hookZmq hook)) :
    blockData platform (fuel + 1) running vdata ref manager =
      .ok (false, hookSent platform (received manager ref vdata) ref hook vdata) := by
  simp only [blockData, BlockManager.kind_record, kind, received, hookSent]
  cases vdata <;> rfl

theorem blockData_plain (kind : manager.kind ref = none) :
    blockData platform (fuel + 1) running vdata ref manager =
      .ok (false, received manager ref vdata) := by
  simp only [blockData, BlockManager.kind_record, kind, received]

/-- A `trans_pb` takes a buffer for a command. -/
def IsCommand (platform : Platform) (vdata : Option Buffer) (payload : Bytes) : Prop :=
  ∃ topic part, vdata = some ⟨[topic, part]⟩ ∧ isCommandTopic platform topic = true ∧
    part.bytes = payload

theorem blockData_transPb (kind : manager.kind ref = some .transPb)
    (other : ∀ payload, ¬ IsCommand platform vdata payload) :
    blockData platform (fuel + 1) running vdata ref manager =
      .ok (false, received manager ref vdata) := by
  simp only [blockData, BlockManager.kind_record, kind]
  split
  · rename_i topic payload
    rw [if_neg fun accepted => other payload.bytes ⟨topic, payload, rfl, accepted, rfl⟩]
    rfl
  · rfl

/-- The flow of a reply, and the end of the `data_` that sends it. -/
def replied (platform : Platform) (fuel : Nat) (running : List BlockRef) (ref : BlockRef)
    (is_ok : Bool) (manager : BlockManager) : Except Fault (Bool × BlockManager) :=
  match processData (blockData platform fuel (ref :: running) (some (replyBuffer is_ok))) fuel ref
      (manager.record (.reply ref is_ok)) with
  | .error fault => .error fault
  | .ok manager => .ok (false, manager)

/-- The manager in which a command is executed. -/
def commanded (manager : BlockManager) (ref : BlockRef) (vdata : Option Buffer)
    (payload : Bytes) : BlockManager :=
  (received manager ref vdata).record (.command ref payload)

/-- A command is executed in a state like the one in which its flow started. -/
theorem Alike.commanded {before : BlockManager} (alike : Alike manager before) (ref : BlockRef)
    (vdata : Option Buffer) (payload : Bytes) :
    Alike manager (C3qo.commanded before ref vdata payload) :=
  alike.trans ((Alike.record _ _).trans (Alike.record _ _))

theorem blockData_command (kind : manager.kind ref = some .transPb) {payload : Bytes}
    (command : IsCommand platform vdata payload) :
    blockData platform (fuel + 1) running vdata ref manager =
      match protoCommandParse platform payload (commanded manager ref vdata payload) with
      | .error fault => .error fault
      | .ok (is_ok, manager) =>
          match destroyedOf manager (ref :: running) with
          | some destroyed => .error (.underFoot destroyed)
          | none => replied platform fuel running ref is_ok manager := by
  obtain ⟨topic, part, rfl, accepted, rfl⟩ := command
  simp only [blockData, BlockManager.kind_record, kind]
  rw [if_pos accepted]
  rfl

theorem destroyedOf_eq_none_iff {blocks : List BlockRef} :
    destroyedOf manager blocks = none ↔ ∀ ref ∈ blocks, manager.blocks.Live ref := by
  simp only [destroyedOf, List.find?_eq_none, Option.isNone_iff_eq_none, Registry.Live,
    Option.isSome_iff_ne_none, ne_eq]

/-- Only `hello` blocks forward. -/
theorem blockData_forward {after : BlockManager}
    (forwarded : blockData platform fuel running vdata ref manager = .ok (true, after)) :
    manager.isHello ref = true := by
  cases fuel with
  | zero => cases forwarded
  | succ fuel =>
      rcases kind : manager.kind ref with _ | ⟨_ | _ | hook⟩
      · rw [blockData_plain kind] at forwarded
        cases forwarded
      · exact BlockManager.isHello_iff.mpr ⟨_, _, kind⟩
      · by_cases command : ∃ payload, IsCommand platform vdata payload
        · obtain ⟨payload, command⟩ := command
          rw [blockData_command kind command] at forwarded
          split at forwarded
          · cases forwarded
          · split at forwarded
            · cases forwarded
            · unfold replied at forwarded
              split at forwarded <;> cases forwarded
        · rw [blockData_transPb kind (not_exists.mp command)] at forwarded
          cases forwarded
      · rw [blockData_hook kind] at forwarded
        cases forwarded

end

/-! ## Whole flows -/

section

variable (platform : Platform) (running : List BlockRef) (vdata : Option Buffer)
  {source last : BlockRef} {manager : BlockManager}

theorem BlockManager.LeadsTo.cons {middle target : BlockRef}
    (passes : manager.passing source = some middle) (rest : manager.LeadsTo middle target) :
    manager.LeadsTo source target := by
  obtain ⟨steps, last, reached, bound, live, other⟩ := rest
  exact ⟨steps + 1, last, by rw [Walk.follow_succ, passes]; exact reached, bound, live, other⟩

/-- Something is alive where a route starts. -/
theorem BlockManager.LeadsTo.live_source {target : BlockRef}
    (leads : manager.LeadsTo source target) : manager.blocks.Live source := by
  obtain ⟨steps, last, reached, bound, -⟩ := leads
  cases steps with
  | zero =>
      obtain rfl := Option.some.inj reached
      obtain ⟨block, object, -⟩ := Option.bind_eq_some_iff.mp bound
      exact Registry.live_iff.mpr ⟨block, object⟩
  | succ steps =>
      obtain ⟨middle, passes, -⟩ := Option.bind_eq_some_iff.mp reached
      obtain ⟨block, _, object, -⟩ := BlockManager.passing_eq_some_iff.mp passes
      exact Registry.live_iff.mpr ⟨block, object⟩

/-- A route that starts at a `hello` block is there as long as the `hello` blocks and its end
are. -/
theorem BlockManager.LeadsTo.of_kept {after : BlockManager} {target : BlockRef}
    (leads : manager.LeadsTo source target) (hello : manager.isHello source = true)
    (hellos : ∀ ref, after.isHello ref = manager.isHello ref)
    (kept : ∀ ref block, manager.isHello ref = true → manager.blocks.deref ref = some block →
      after.blocks.deref ref = some block)
    (live : after.blocks.Live target) : after.LeadsTo source target := by
  obtain ⟨steps, last, reached, bound, -, other⟩ := leads
  induction steps generalizing source with
  | zero =>
      obtain rfl := Option.some.inj reached
      obtain ⟨block, object, bound⟩ := Option.bind_eq_some_iff.mp bound
      exact ⟨0, source, rfl,
        Option.bind_eq_some_iff.mpr ⟨block, kept source block hello object, bound⟩, live,
        (hellos target).trans other⟩
  | succ steps ih =>
      obtain ⟨middle, passes, rest⟩ := Option.bind_eq_some_iff.mp reached
      obtain ⟨block, next, object, bound', live', hello'⟩ :=
        BlockManager.passing_eq_some_iff.mp passes
      refine .cons ?_ (ih hello' rest)
      exact BlockManager.passing_eq_some_iff.mpr ⟨block, next, kept source block hello object,
        bound', kept middle next hello' live', (hellos middle).trans hello'⟩

/-- The data has been handed to some `hello` blocks, which are on record, and that is all. -/
def HandedOn (vdata : Option Buffer) (before after : BlockManager) : Prop :=
  ∃ passed, after.world.log = before.world.log ++ passed ∧ ∀ handled ∈ passed,
    ∃ ref started, handled = .data_ ref vdata started ∧ before.isHello ref = true

theorem HandedOn.refl (vdata : Option Buffer) (manager : BlockManager) :
    HandedOn vdata manager manager := ⟨[], (List.append_nil _).symm, by simp⟩

theorem HandedOn.trans {vdata : Option Buffer} {first second third : BlockManager}
    (alike : Alike first second) (left : HandedOn vdata first second)
    (right : HandedOn vdata second third) : HandedOn vdata first third := by
  obtain ⟨passed, log, records⟩ := left
  obtain ⟨passed', log', records'⟩ := right
  refine ⟨passed ++ passed', by rw [log', log, List.append_assoc], fun handled member => ?_⟩
  rcases List.mem_append.mp member with among | among
  · exact records handled among
  · obtain ⟨ref, started, same, hello⟩ := records' handled among
    exact ⟨ref, started, same, (alike.isHello ref).trans hello⟩

/-- Passing one `hello` block. -/
theorem flow_step {middle : BlockRef} (passes : manager.passing source = some middle) :
    ∃ after, Alike manager after ∧ HandedOn vdata manager after ∧ ∀ depth rounds,
      processData (blockData platform (depth + 1) running vdata) (rounds + 1) source manager =
        processData (blockData platform (depth + 1) running vdata) rounds middle after := by
  obtain ⟨block, target, object, bound, live, hello⟩ := BlockManager.passing_eq_some_iff.mp passes
  obtain ⟨name_, count_, kind⟩ := BlockManager.isHello_iff.mp hello
  have counted : Alike (received manager middle vdata)
      ((received manager middle vdata).setDerived middle (.hello name_ (count_ + 1))) :=
    .setDerived kind
  refine ⟨_, (Alike.record manager _).trans counted,
    ⟨[_], rfl, fun _ member => ⟨middle, _, List.mem_singleton.mp member, hello⟩⟩,
    fun depth rounds => ?_⟩
  rw [processData_of_bound object bound live, blockData_hello kind]

/-- Passing any number of `hello` blocks. -/
theorem flow_pass {steps : Nat}
    (reached : Walk.follow manager.passing steps source = some last) :
    ∃ after, Alike manager after ∧ HandedOn vdata manager after ∧ ∀ depth rounds,
      processData (blockData platform (depth + 1) running vdata) (rounds + steps) source manager =
        processData (blockData platform (depth + 1) running vdata) rounds last after := by
  induction steps generalizing source manager with
  | zero =>
      obtain rfl := Option.some.inj reached
      exact ⟨manager, .refl manager, .refl vdata manager, fun _ _ => rfl⟩
  | succ steps ih =>
      obtain ⟨middle, passes, rest⟩ := Option.bind_eq_some_iff.mp reached
      obtain ⟨next, alike, handed, step⟩ := flow_step platform running vdata passes
      have rest' : Walk.follow next.passing steps middle = some last := alike.passing ▸ rest
      obtain ⟨after, alike', handed', flow⟩ := ih rest'
      refine ⟨after, alike.trans alike', handed.trans alike handed', fun depth rounds => ?_⟩
      rw [← Nat.add_assoc, step, flow]

/-- A flow through a cycle of `hello` blocks runs out of fuel, however much there is. -/
theorem flow_outOfFuel_of_cycles (cycles : Walk.Cycles manager.passing source) (fuel : Nat) :
    processData (blockData platform fuel running vdata) fuel source manager =
      .error .outOfFuel := by
  cases fuel with
  | zero => rfl
  | succ fuel =>
      have endless := Walk.not_ends_of_cycles cycles
      obtain ⟨last, reached⟩ : ∃ last,
          Walk.follow manager.passing (fuel + 1) source = some last :=
        Option.ne_none_iff_exists'.mp fun ended => endless ⟨fuel + 1, ended⟩
      obtain ⟨after, -, -, flow⟩ := flow_pass platform running vdata reached
      have spent := flow fuel 0
      rw [Nat.zero_add] at spent
      exact spent

/-- Where no `hello` block follows, a flow ends with the next block, if there is one. -/
theorem flow_end (stop : manager.passing source = none) (depth rounds : Nat) :
    let result := processData (blockData platform depth running vdata) (rounds + 1) source manager
    (∃ dead, result = .error (.dangling dead)) ∨ result = .ok manager ∨
      ∃ target, manager.LeadsTo source target ∧
        result = (blockData platform depth running vdata target manager).map Prod.snd := by
  dsimp only
  rcases object : manager.blocks.deref source with _ | block
  · exact .inl ⟨source, by simp [processData, object]⟩
  · rcases bound : block.sink_ with _ | sink
    · exact .inr (.inl (processData_of_unbound object bound))
    · rcases live : manager.blocks.deref sink with _ | target
      · exact .inl ⟨sink, processData_of_dangling object bound live⟩
      · have other : manager.isHello sink = false := by
          by_contra hello
          rw [BlockManager.passing_eq_some_iff.mpr
            ⟨block, target, object, bound, live, by simpa using hello⟩] at stop
          cases stop
        refine .inr (.inr ⟨sink, ⟨0, source, rfl, by rw [object]; exact bound,
          Registry.live_iff.mpr ⟨target, live⟩, other⟩, ?_⟩)
        rw [processData_of_bound object bound live]
        rcases result : blockData platform depth running vdata sink manager with
          fault | ⟨_ | _, after⟩
        · rfl
        · rfl
        · rw [blockData_forward result] at other
          cases other

/-- A flow runs out of fuel, comes to a destroyed block, or ends with a block without sink or with
a block that is not a `hello` block. -/
theorem flow_cases (source : BlockRef) (manager : BlockManager) (depth rounds : Nat) :
    let result := processData (blockData platform depth running vdata) rounds source manager
    result = .error .outOfFuel ∨ (∃ dead, result = .error (.dangling dead)) ∨
      ∃ after, Alike manager after ∧ HandedOn vdata manager after ∧ (result = .ok after ∨
        ∃ target, manager.LeadsTo source target ∧
          result = (blockData platform depth running vdata target after).map Prod.snd) := by
  induction rounds generalizing source manager with
  | zero => exact .inl rfl
  | succ rounds ih =>
      rcases passes : manager.passing source with _ | middle
      · rcases flow_end platform running vdata passes depth rounds with
          dangling | done | ⟨target, leads, result⟩
        · exact .inr (.inl dangling)
        · exact .inr (.inr ⟨manager, .refl manager, .refl vdata manager, .inl done⟩)
        · exact .inr (.inr ⟨manager, .refl manager, .refl vdata manager,
            .inr ⟨target, leads, result⟩⟩)
      · cases depth with
        | zero =>
            obtain ⟨block, target, object, bound, live, -⟩ :=
              BlockManager.passing_eq_some_iff.mp passes
            exact .inl (by rw [processData_of_bound object bound live]; rfl)
        | succ depth =>
            obtain ⟨next, alike, handed, step⟩ := flow_step platform running vdata passes
            dsimp only
            rw [step]
            rcases ih middle next with
              spent | dangling | ⟨after, alike', handed', result⟩
            · exact .inl spent
            · exact .inr (.inl dangling)
            · refine .inr (.inr ⟨after, alike.trans alike', handed.trans alike handed',
                result.imp id ?_⟩)
              rintro ⟨target, leads, result⟩
              refine ⟨target, .cons passes ?_, result⟩
              exact (BlockManager.leadsTo_congr alike.blocks alike.isHello).mpr leads

/-- A flow that leads to a block hands it the data, given enough fuel. -/
theorem flow_of_leadsTo {target : BlockRef} (leads : manager.LeadsTo source target) :
    ∃ steps after, Alike manager after ∧ HandedOn vdata manager after ∧ ∀ depth,
      (∀ rounds, rounds ≤ steps →
        processData (blockData platform (depth + 1) running vdata) rounds source manager =
          .error .outOfFuel) ∧
      ∀ rounds,
        processData (blockData platform (depth + 1) running vdata) (rounds + 1 + steps) source
            manager =
          (blockData platform (depth + 1) running vdata target after).map Prod.snd := by
  obtain ⟨steps, last, reached, bound, live, other⟩ := leads
  obtain ⟨after, alike, handed, flow⟩ := flow_pass platform running vdata reached
  refine ⟨steps, after, alike, handed, fun depth => ⟨fun rounds short => ?_, fun rounds => ?_⟩⟩
  · obtain ⟨middle, here⟩ := Walk.follow_some_of_le reached short
    obtain ⟨_, -, -, flow'⟩ := flow_pass platform running vdata here
    have spent := flow' depth 0
    rw [Nat.zero_add] at spent
    exact spent
  · obtain ⟨block, object, bound⟩ := Option.bind_eq_some_iff.mp bound
    obtain ⟨target_block, live⟩ := Registry.live_iff.mp live
    rw [alike.blocks] at object live
    rw [flow, processData_of_bound object bound live]
    rcases result : blockData platform (depth + 1) running vdata target after with
      fault | ⟨_ | _, final⟩
    · rfl
    · rfl
    · rw [alike.isHello, blockData_forward result] at other
      cases other

end

/-! ## Replies -/

/-- The topic of a reply is not the one of a command, whatever follows the literal in memory. -/
theorem not_isCommand_replyBuffer (platform : Platform) (is_ok : Bool) (payload : Bytes) :
    ¬ IsCommand platform (some (replyBuffer is_ok)) payload := by
  rintro ⟨topic, part, same, accepted, -⟩
  obtain ⟨rfl, -⟩ : BufferPart.ofBytes (ascii "PROTO.CMD.REP") = topic ∧ _ := by
    simpa [replyBuffer, Buffer.pushBack, Buffer.empty] using same
  cases accepted

/-- Data that is no command ends with the block that takes it. -/
theorem blockData_ok (platform : Platform) {vdata : Option Buffer} {target : BlockRef}
    {manager : BlockManager} (other : manager.isHello target = false)
    (plain : ∀ payload, manager.kind target = some .transPb → ¬ IsCommand platform vdata payload)
    (fuel : Nat) (running : List BlockRef) :
    ∃ after, blockData platform (fuel + 1) running vdata target manager = .ok (false, after) := by
  rcases kind : manager.kind target with _ | ⟨_ | _ | hook⟩
  · exact ⟨_, blockData_plain kind⟩
  · rw [BlockManager.isHello_iff.mpr ⟨_, _, kind⟩] at other
    cases other
  · exact ⟨_, blockData_transPb kind fun payload => plain payload kind⟩
  · exact ⟨_, blockData_hook kind⟩

/-- A block that does not take a command makes one record. -/
theorem log_blockData_plain {platform : Platform} {vdata : Option Buffer} {target : BlockRef}
    {manager after : BlockManager} {fuel : Nat} {running : List BlockRef} {forward : Bool}
    (plain : ∀ payload, manager.kind target = some .transPb → ¬ IsCommand platform vdata payload)
    (taken : blockData platform (fuel + 1) running vdata target manager = .ok (forward, after)) :
    after.world.log = (received manager target vdata).world.log := by
  rcases kind : manager.kind target with _ | ⟨⟨name_, count_⟩ | _ | hook⟩
  · rw [blockData_plain kind] at taken
    cases taken
    rfl
  · rw [blockData_hello kind] at taken
    cases taken
    rfl
  · rw [blockData_transPb kind fun payload => plain payload kind] at taken
    cases taken
    rfl
  · rw [blockData_hook kind] at taken
    cases taken
    rfl

/-- A block that is not a `hello` block just takes a reply. -/
theorem blockData_reply (platform : Platform) (fuel : Nat) (running : List BlockRef)
    (is_ok : Bool) {target : BlockRef} {manager : BlockManager}
    (other : manager.isHello target = false) :
    ∃ after, blockData platform (fuel + 1) running (some (replyBuffer is_ok)) target manager =
      .ok (false, after) :=
  blockData_ok platform other (fun payload _ => not_isCommand_replyBuffer platform is_ok payload)
    fuel running

end C3qo
