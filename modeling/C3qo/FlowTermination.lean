import C3qo.Routes
import C3qo.Sinks

/-!
# Termination of data flows

Nothing in the manager looks for cycles of sinks, so a flow through a cycle of `hello` blocks goes
on forever. That is the only way in which a flow can fail to end, and the same holds for the flow
of the reply to the command that a flow may bring.
-/

namespace C3qo

/-- Results that are alike. -/
inductive AlikeResult :
    Except Fault (Bool × BlockManager) → Except Fault (Bool × BlockManager) → Prop
  | error (fault : Fault) : AlikeResult (.error fault) (.error fault)
  | ok (is_ok : Bool) {left right : BlockManager} (alike : Alike left right) :
      AlikeResult (.ok (is_ok, left)) (.ok (is_ok, right))

theorem AlikeResult.of_world (is_ok term : Bool) (factories : Finmap fun _ : String => Factory)
    (blocks : Registry) {left right : World} (trace trace' : List (Event Factory))
    (alike : AlikeWorld left right) :
    AlikeResult (.ok (is_ok, ⟨term, factories, blocks, left, trace⟩))
      (.ok (is_ok, ⟨term, factories, blocks, right, trace'⟩)) :=
  .ok is_ok ⟨rfl, rfl, rfl, alike⟩

namespace AlikeWorld

variable {left right : World}

theorem insert (alike : AlikeWorld left right) (ref : BlockRef) (derived : Derived) :
    AlikeWorld { left with derived := left.derived.insert ref derived }
      { right with derived := right.derived.insert ref derived } := by
  refine ⟨fun other => ?_, alike.tm_list_, alike.polling, alike.zmq⟩
  by_cases same : other = ref
  · subst same
    rw [Finmap.lookup_insert, Finmap.lookup_insert]
  · rw [Finmap.lookup_insert_of_ne _ same, Finmap.lookup_insert_of_ne _ same]
    exact alike.kinds other

theorem destructor (alike : AlikeWorld left right) (ref : BlockRef) :
    AlikeWorld (left.destructor ref) (right.destructor ref) := by
  refine ⟨fun other => ?_, alike.tm_list_, alike.polling, alike.zmq⟩
  unfold World.destructor
  by_cases same : other = ref
  · subst same
    rw [Finmap.lookup_erase, Finmap.lookup_erase]
  · rw [Finmap.lookup_erase_ne same, Finmap.lookup_erase_ne same]
    exact alike.kinds other

theorem constructor (alike : AlikeWorld left right) (platform : Platform) (factory : Factory)
    (ref : BlockRef) :
    (World.constructor platform factory ref left).1 =
        (World.constructor platform factory ref right).1 ∧
      AlikeWorld (World.constructor platform factory ref left).2
        (World.constructor platform factory ref right).2 := by
  cases factory with
  | failure => exact ⟨rfl, alike⟩
  | hello | transPb | hookZmq => exact ⟨rfl, alike.insert ref _⟩

/-- A block that is not a hook on one side is none on the other side. -/
theorem not_hook (alike : AlikeWorld left right) {ref : BlockRef}
    (other : ∀ hook, left.derived.lookup ref ≠ some (.hookZmq hook)) (hook : HookZmq) :
    right.derived.lookup ref ≠ some (.hookZmq hook) :=
  fun there => other hook (alike.symm.lookup_eq there (by simp))

theorem start_ (alike : AlikeWorld left right) (platform : Platform) (ref : BlockRef) :
    AlikeWorld (left.start_ platform ref) (right.start_ platform ref) := by
  by_cases hook : ∃ hook, left.derived.lookup ref = some (.hookZmq hook)
  · obtain ⟨hook, there⟩ := hook
    have there' := alike.lookup_eq there (by simp)
    simp only [World.start_, there, there', World.withHook, ← alike.polling, ← alike.zmq]
    refine ⟨(alike.insert ref _).kinds, alike.tm_list_, rfl, rfl⟩
  · have other := not_exists.mp hook
    rw [World.start_of_other other, World.start_of_other (alike.not_hook other)]
    exact alike

theorem stop_ (alike : AlikeWorld left right) (ref : BlockRef) :
    AlikeWorld (left.stop_ ref) (right.stop_ ref) := by
  by_cases hook : ∃ hook, left.derived.lookup ref = some (.hookZmq hook)
  · obtain ⟨hook, there⟩ := hook
    have there' := alike.lookup_eq there (by simp)
    simp only [World.stop_, there, there', ← alike.polling, ← alike.zmq]
    exact ⟨alike.kinds, alike.tm_list_, rfl, rfl⟩
  · have other := not_exists.mp hook
    rw [World.stop_of_other other, World.stop_of_other (alike.not_hook other)]
    exact alike

end AlikeWorld

namespace Alike

variable {left right : BlockManager}

theorem blockAdd (alike : Alike left right) (platform : Platform) (id : Int) (type_ : String) :
    AlikeResult (.ok (left.blockAdd (virtual platform) id type_))
      (.ok (right.blockAdd (virtual platform) id type_)) := by
  obtain ⟨term, factories, blocks, world, trace⟩ := left
  obtain ⟨term', factories', blocks', world', trace'⟩ := right
  obtain ⟨rfl, rfl, rfl, alike⟩ := alike
  unfold Manager.blockAdd
  dsimp only
  split
  · exact .of_world false term factories _ _ _ alike
  · rename_i free
    rcases registered : factories.lookup type_ with _ | factory
    · exact .of_world false term factories _ _ _ alike
    · obtain ⟨built, made⟩ := alike.constructor platform factory blocks.next
      dsimp only [virtual]
      rcases answer : World.constructor platform factory blocks.next world with ⟨ok, after⟩
      rcases answer' : World.constructor platform factory blocks.next world' with ⟨ok', after'⟩
      rw [answer, answer'] at built made
      obtain rfl : ok = ok' := built
      cases ok with
      | false => exact .of_world false term factories _ _ _ made
      | true => exact .of_world true term factories _ _ _ made

theorem blockStart (alike : Alike left right) (platform : Platform) (id : Int) :
    AlikeResult (.ok (left.blockStart (virtual platform) id))
      (.ok (right.blockStart (virtual platform) id)) := by
  obtain ⟨term, factories, blocks, world, trace⟩ := left
  obtain ⟨term', factories', blocks', world', trace'⟩ := right
  obtain ⟨rfl, rfl, rfl, alike⟩ := alike
  unfold Manager.blockStart
  dsimp only
  rcases blocks.find id with _ | ⟨ref, block⟩
  · exact .of_world false term factories _ _ _ alike
  · dsimp only
    split_ifs
    · exact .of_world true term factories _ _ _ alike
    · exact .of_world true term factories _ _ _ (alike.start_ platform ref)

theorem blockStop (alike : Alike left right) (platform : Platform) (id : Int) :
    AlikeResult (.ok (left.blockStop (virtual platform) id))
      (.ok (right.blockStop (virtual platform) id)) := by
  obtain ⟨term, factories, blocks, world, trace⟩ := left
  obtain ⟨term', factories', blocks', world', trace'⟩ := right
  obtain ⟨rfl, rfl, rfl, alike⟩ := alike
  unfold Manager.blockStop
  dsimp only
  rcases blocks.find id with _ | ⟨ref, block⟩
  · exact .of_world false term factories _ _ _ alike
  · dsimp only
    split_ifs
    · exact .of_world true term factories _ _ _ (alike.stop_ ref)
    · exact .of_world true term factories _ _ _ alike

theorem blockDel (alike : Alike left right) (platform : Platform) (id : Int) :
    AlikeResult (.ok (left.blockDel (virtual platform) id))
      (.ok (right.blockDel (virtual platform) id)) := by
  obtain ⟨term, factories, blocks, world, trace⟩ := left
  obtain ⟨term', factories', blocks', world', trace'⟩ := right
  obtain ⟨rfl, rfl, rfl, alike⟩ := alike
  unfold Manager.blockDel
  dsimp only
  rcases blocks.find id with _ | ⟨ref, block⟩
  · exact .of_world false term factories _ _ _ alike
  · dsimp only
    split_ifs
    · exact .of_world false term factories _ _ _ alike
    · rcases factories.lookup block.type_ with _ | factory
      · exact .of_world false term factories _ _ _ alike
      · exact .of_world true term factories _ _ _ (alike.destructor ref)

theorem blockBind (alike : Alike left right) (platform : Platform) (id port dest : Int) :
    AlikeResult (.ok (left.blockBind (virtual platform) id port dest))
      (.ok (right.blockBind (virtual platform) id port dest)) := by
  obtain ⟨term, factories, blocks, world, trace⟩ := left
  obtain ⟨term', factories', blocks', world', trace'⟩ := right
  obtain ⟨rfl, rfl, rfl, alike⟩ := alike
  unfold Manager.blockBind
  dsimp only
  rcases blocks.get id with _ | src
  · exact .of_world false term factories _ _ _ alike
  · rcases blocks.get dest with _ | dst
    · exact .of_world false term factories _ _ _ alike
    · exact .of_world true term factories _ _ _ alike

end Alike

/-- Commands do not see packet counts. -/
theorem protoCommandParse_alike (platform : Platform) (data : Bytes) {left right : BlockManager}
    (alike : Alike left right) :
    AlikeResult (protoCommandParse platform data left) (protoCommandParse platform data right) := by
  unfold protoCommandParse
  rcases platform.unpack data with _ | command
  · exact .ok false alike
  · cases command with
    | add id type_ => exact alike.blockAdd platform id type_
    | start id => exact alike.blockStart platform id
    | stop id => exact alike.blockStop platform id
    | del id => exact alike.blockDel platform id
    | bind id port dest => exact alike.blockBind platform id port dest
    | hookZmq id client type_ name addr =>
        have there : right.blockGet id = left.blockGet id := by
          rw [Manager.blockGet, ← alike.blocks]
          rfl
        dsimp only
        rw [there]
        rcases left.blockGet id with _ | ref
        · exact .ok false alike
        · by_cases hook : ∃ hook, left.kind ref = some (.hookZmq hook)
          · obtain ⟨hook, kind⟩ := hook
            have kind' : right.kind ref = some (.hookZmq hook) :=
              alike.world.lookup_eq kind (by simp)
            dsimp only
            rw [kind, kind']
            exact .ok true ⟨alike.is_term_, alike.bk_factory_, alike.blocks,
              alike.world.insert ref _⟩
          · have other := not_exists.mp hook
            have other' : ∀ hook, right.kind ref ≠ some (.hookZmq hook) :=
              alike.world.not_hook other
            dsimp only
            split
            · rename_i hook kind
              exact absurd kind (other hook)
            · exact .error (.badCast ref)
    | term => exact .ok true ⟨rfl, alike.bk_factory_, alike.blocks, alike.world⟩
    | notSet => exact .ok false alike

theorem ends_passing_iff (manager : BlockManager) (source : BlockRef) :
    Walk.Ends manager.passing source ↔ ¬ Walk.Cycles manager.passing source := by
  refine Walk.ends_iff_not_cycles manager.blocks.objects.keys (fun ref sink passes => ?_) source
  obtain ⟨_, target, -, -, live, -⟩ := BlockManager.passing_eq_some_iff.mp passes
  exact Finmap.mem_keys.mpr (Finmap.lookup_isSome.mp (Option.isSome_iff_exists.mpr ⟨target, live⟩))

section

variable (platform : Platform) (running : List BlockRef) (vdata : Option Buffer)
  {source : BlockRef} {manager : BlockManager}

/-- A flow that meets no cycle of `hello` blocks comes to its end, given enough fuel. -/
theorem flow_of_not_cycles (acyclic : ¬ Walk.Cycles manager.passing source) :
    ∃ steps after, Alike manager after ∧ ∀ depth rounds,
      let result := processData (blockData platform (depth + 1) running vdata)
        (rounds + 1 + steps) source manager
      (∃ dead, result = .error (.dangling dead)) ∨ result = .ok after ∨
        ∃ target, manager.LeadsTo source target ∧
          result = (blockData platform (depth + 1) running vdata target after).map Prod.snd := by
  obtain ⟨steps, last, reached, stop⟩ :=
    Walk.exists_last_of_ends ((ends_passing_iff manager source).mpr acyclic)
  obtain ⟨after, alike, -, flow⟩ := flow_pass platform running vdata reached
  refine ⟨steps, after, alike, fun depth rounds => ?_⟩
  dsimp only
  rw [flow]
  rcases flow_end platform running vdata (alike.passing ▸ stop) (depth + 1) rounds with
    dangling | done | ⟨target, leads, result⟩
  · exact .inl dangling
  · exact .inr (.inl done)
  · refine .inr (.inr ⟨target, ?_, result⟩)
    obtain ⟨more, last', reached', end_⟩ :=
      (BlockManager.leadsTo_congr alike.blocks alike.isHello).mpr leads
    exact ⟨steps + more, last', by rw [Walk.follow_add, reached]; exact reached', end_⟩

theorem replied_of_cycles {ref : BlockRef} (cycles : Walk.Cycles manager.passing ref)
    (fuel : Nat) (is_ok : Bool) :
    replied platform fuel running ref is_ok manager = .error .outOfFuel := by
  have cycles' : Walk.Cycles (manager.record (.reply ref is_ok)).passing ref := cycles
  rw [replied, flow_outOfFuel_of_cycles platform (ref :: running) _ cycles']

/-- A reply that meets no cycle is sent, given enough fuel. -/
theorem replied_of_not_cycles {ref : BlockRef} (acyclic : ¬ Walk.Cycles manager.passing ref)
    (is_ok : Bool) : ∃ bound, ∀ fuel, bound ≤ fuel →
      replied platform fuel running ref is_ok manager ≠ .error .outOfFuel := by
  have acyclic' : ¬ Walk.Cycles (manager.record (.reply ref is_ok)).passing ref := acyclic
  obtain ⟨steps, after, alike, flow⟩ := flow_of_not_cycles platform (ref :: running)
    (some (replyBuffer is_ok)) acyclic'
  refine ⟨steps + 1, fun fuel enough => ?_⟩
  obtain ⟨extra, rfl⟩ := Nat.exists_eq_add_of_le enough
  rw [replied, show steps + 1 + extra = extra + 1 + steps by omega]
  have flow := flow (extra + steps) extra
  rw [show extra + steps + 1 = extra + 1 + steps by omega] at flow
  rcases flow with ⟨dead, result⟩ | result | ⟨target, leads, result⟩
  · rw [result]
    simp
  · rw [result]
    simp
  · obtain ⟨final, taken⟩ := blockData_reply platform (extra + steps) (ref :: running) is_ok
      ((alike.isHello target).symm.trans leads.not_hello)
    rw [show extra + steps + 1 = extra + 1 + steps by omega] at taken
    rw [result, taken]
    simp [Except.map]

end

section

variable {platform : Platform} {vdata : Option Buffer} {source : BlockRef}
  {manager : BlockManager}

/-- A command that a flow brings is executed as it would be at the start of the flow. -/
theorem blockData_executed {target : BlockRef} {payload : Bytes} {is_ok : Bool}
    {before after : BlockManager} (alike : Alike manager before)
    (kind : manager.kind target = some .transPb) (command : IsCommand platform vdata payload)
    (executed : protoCommandParse platform payload manager = .ok (is_ok, after)) :
    ∃ after', Alike after after' ∧ ∀ fuel running,
      blockData platform (fuel + 1) running vdata target before =
        match destroyedOf after (target :: running) with
        | some destroyed => .error (.underFoot destroyed)
        | none => replied platform fuel running target is_ok after' := by
  have kind' : before.kind target = some .transPb := alike.world.lookup_eq kind (by simp)
  have result := protoCommandParse_alike platform payload (alike.commanded target vdata payload)
  rw [executed] at result
  generalize parsed : protoCommandParse platform payload (commanded before target vdata payload) =
    outcome at result
  cases result with
  | ok is_ok alike'' =>
      rename_i after'
      refine ⟨after', alike'', fun fuel running => ?_⟩
      have same :
          destroyedOf after' (target :: running) = destroyedOf after (target :: running) := by
        simp only [destroyedOf, alike''.blocks]
      have taken : blockData platform (fuel + 1) running vdata target before = _ :=
        blockData_command kind' command
      rw [parsed] at taken
      rw [← same]
      exact taken

theorem blockData_faulty {target : BlockRef} {payload : Bytes} {fault : Fault}
    {before : BlockManager} (alike : Alike manager before)
    (kind : manager.kind target = some .transPb) (command : IsCommand platform vdata payload)
    (executed : protoCommandParse platform payload manager = .error fault) (fuel : Nat)
    (running : List BlockRef) :
    blockData platform (fuel + 1) running vdata target before = .error fault := by
  have kind' : before.kind target = some .transPb := alike.world.lookup_eq kind (by simp)
  have result := protoCommandParse_alike platform payload (alike.commanded target vdata payload)
  rw [executed] at result
  generalize parsed : protoCommandParse platform payload (commanded before target vdata payload) =
    outcome at result
  cases result with
  | error fault => rw [blockData_command kind' command, parsed]

/-- A block that is not a `hello` block comes to an end with its data, given enough fuel, if the
reply to the command that this may be meets no cycle. -/
theorem blockData_ends {target : BlockRef} {before : BlockManager} (alike : Alike manager before)
    (other : manager.isHello target = false)
    (reply : ∀ payload is_ok after, manager.kind target = some .transPb →
      IsCommand platform vdata payload →
      protoCommandParse platform payload manager = .ok (is_ok, after) →
      after.blocks.Live target → after.blocks.Live source → ¬ Walk.Cycles after.passing target) :
    ∃ bound, ∀ fuel, bound ≤ fuel →
      blockData platform (fuel + 1) [source] vdata target before ≠ .error .outOfFuel := by
  by_cases brings : ∃ payload, manager.kind target = some .transPb ∧
      IsCommand platform vdata payload
  · obtain ⟨payload, kind, command⟩ := brings
    rcases executed : protoCommandParse platform payload manager with fault | ⟨is_ok, after⟩
    · obtain ⟨ref, rfl⟩ := fault_of_protoCommandParse executed
      refine ⟨0, fun fuel _ => ?_⟩
      rw [blockData_faulty alike kind command executed]
      simp
    · obtain ⟨after', alike', taken⟩ := blockData_executed alike kind command executed
      rcases alive : destroyedOf after [target, source] with _ | destroyed
      · have live := destroyedOf_eq_none_iff.mp alive
        have acyclic := reply payload is_ok after kind command executed
          (live target (by simp)) (live source (by simp))
        obtain ⟨bound, enough⟩ := replied_of_not_cycles platform [source]
          (alike'.passing ▸ acyclic) is_ok
        refine ⟨bound, fun fuel more => ?_⟩
        rw [taken, alive]
        exact enough fuel more
      · refine ⟨0, fun fuel _ => ?_⟩
        rw [taken, alive]
        simp
  · refine ⟨0, fun fuel _ => ?_⟩
    obtain ⟨final, taken⟩ := blockData_ok platform ((alike.isHello target).symm.trans other)
      (fun payload kind command =>
        brings ⟨payload, alike.world.symm.lookup_eq kind (by simp), command⟩) fuel [source]
    rw [taken]
    simp

/-- A result that is not for want of fuel stays so without its first component. -/
theorem map_snd_ne_outOfFuel {result : Except Fault (Bool × BlockManager)}
    (ended : result ≠ .error .outOfFuel) : result.map Prod.snd ≠ .error .outOfFuel := by
  rcases result with fault | handed
  · simpa [Except.map] using ended
  · simp [Except.map]

variable (platform vdata) in
/-- Whether a flow comes to an end is decided by its route, and by that of the reply to the
command that it brings. -/
theorem flow_ends_iff :
    (∃ fuel, flow platform fuel [] vdata source manager ≠ .error .outOfFuel) ↔
      ¬ Walk.Cycles manager.passing source ∧
        ∀ target payload is_ok after, manager.LeadsTo source target →
          manager.kind target = some .transPb → IsCommand platform vdata payload →
          protoCommandParse platform payload manager = .ok (is_ok, after) →
          after.blocks.Live target → after.blocks.Live source →
          ¬ Walk.Cycles after.passing target := by
  constructor
  · rintro ⟨fuel, ended⟩
    refine ⟨fun cycles => ended (flow_outOfFuel_of_cycles platform _ _ cycles fuel), ?_⟩
    intro target payload is_ok after leads kind command executed live live_source cycles
    apply ended
    obtain ⟨steps, before, alike, -, spec⟩ := flow_of_leadsTo platform [source] vdata leads
    cases fuel with
    | zero => rfl
    | succ fuel =>
        obtain ⟨short, long⟩ := spec fuel
        by_cases enough : fuel + 1 ≤ steps
        · exact short _ enough
        · obtain ⟨after', alike', taken⟩ := blockData_executed alike kind command executed
          have alive : destroyedOf after [target, source] = none :=
            destroyedOf_eq_none_iff.mpr (by simp [live, live_source])
          have cycles' : Walk.Cycles after'.passing target := alike'.passing ▸ cycles
          have result := long (fuel - steps)
          rw [show fuel - steps + 1 + steps = fuel + 1 by omega, taken, alive] at result
          exact result.trans (congrArg _ (replied_of_cycles platform _ cycles' fuel is_ok))
  · rintro ⟨acyclic, reply⟩
    obtain ⟨steps, before, alike, spec⟩ := flow_of_not_cycles platform [source] vdata acyclic
    -- The reply needs its own fuel, all of it below the fuel of the flow.
    have taken : ∃ bound, ∀ target, manager.LeadsTo source target → ∀ fuel, bound ≤ fuel →
        blockData platform (fuel + 1) [source] vdata target before ≠ .error .outOfFuel := by
      by_cases leads : ∃ target, manager.LeadsTo source target
      · obtain ⟨target, leads⟩ := leads
        obtain ⟨bound, enough⟩ := blockData_ends alike leads.not_hello
          fun payload is_ok after => reply target payload is_ok after leads
        refine ⟨bound, fun target' leads' => ?_⟩
        obtain rfl := leads.unique leads'
        exact enough
      · exact ⟨0, fun target there => absurd ⟨target, there⟩ leads⟩
    obtain ⟨bound, enough⟩ := taken
    refine ⟨bound + 1 + steps, ?_⟩
    rw [flow, show bound + 1 + steps = bound + steps + 1 by omega]
    have result := spec (bound + steps) bound
    rw [show bound + 1 + steps = bound + steps + 1 by omega] at result
    rcases result with ⟨dead, result⟩ | result | ⟨target, leads, result⟩
    · rw [result]
      simp
    · rw [result]
      simp
    · rw [result]
      exact map_snd_ne_outOfFuel (enough target leads (bound + steps) (by omega))

/-- With live sinks, data that is no command meets no destroyed block. -/
theorem flow_ne_dangling (sinks : NoDangling manager.blocks) (live : manager.blocks.Live source)
    (plain : ∀ payload, ¬ IsCommand platform vdata payload) (running : List BlockRef)
    (depth rounds : Nat) (dead : BlockRef) :
    processData (blockData platform depth running vdata) rounds source manager ≠
      .error (.dangling dead) := by
  induction rounds generalizing source manager with
  | zero => simp [processData]
  | succ rounds ih =>
      obtain ⟨block, object⟩ := Registry.live_iff.mp live
      rcases bound : block.sink_ with _ | sink
      · simp [processData_of_unbound object bound]
      · have live_sink := sinks source block object sink bound
        obtain ⟨target, sink_object⟩ := Registry.live_iff.mp live_sink
        rw [processData_of_bound object bound sink_object]
        cases depth with
        | zero => simp [blockData]
        | succ depth =>
            by_cases hello : manager.isHello sink = true
            · obtain ⟨name_, count_, kind⟩ := BlockManager.isHello_iff.mp hello
              rw [blockData_hello kind]
              have counted : NoDangling
                  ((received manager sink vdata).setDerived sink
                    (.hello name_ (count_ + 1))).blocks := sinks
              exact ih counted live_sink
            · obtain ⟨after, taken⟩ := blockData_ok platform
                (Bool.eq_false_iff.mpr hello) (fun payload _ => plain payload) depth running
              rw [taken]
              simp

end

/-- A call that builds a graph of blocks. -/
inductive Building
  /-- `block_add`. -/
  | blockAdd (id : Int) (type_ : String)
  /-- `block_bind`. -/
  | blockBind (idSrc port idDst : Int)

/-- Make a call. -/
def Building.perform (platform : Platform) (manager : BlockManager) : Building → BlockManager
  | .blockAdd id type_ => (manager.blockAdd (virtual platform) id type_).2
  | .blockBind idSrc port idDst => (manager.blockBind (virtual platform) idSrc port idDst).2

/-- The manager after a sequence of calls. -/
def build (platform : Platform) (calls : List Building) : BlockManager :=
  calls.foldl (Building.perform platform) repository

theorem noDangling_build (platform : Platform) (calls : List Building) :
    NoDangling (build platform calls).blocks := by
  suffices kept : ∀ manager : BlockManager, NoDangling manager.blocks →
      NoDangling (calls.foldl (Building.perform platform) manager).blocks from
    kept repository fun _ _ object => by cases object
  induction calls with
  | nil => exact fun _ sinks => sinks
  | cons call calls ih =>
      intro manager sinks
      refine ih _ ?_
      cases call with
      | blockAdd id type_ => exact sinks.kept (manager.blockAdd_kept (virtual platform) id type_)
      | blockBind idSrc port idDst =>
          exact sinks.kept (manager.blockBind_kept (virtual platform) idSrc port idDst)

/-- Data flows end where they meet no cycle of `hello` blocks: whatever graph has been built, a
flow comes to an end if and only if neither its own route nor that of the reply to the command it
brings closes on itself. Data that is no command is then handed on and `process_data_` returns. -/
theorem flow_returns_iff (platform : Platform) (calls : List Building) (source : BlockRef)
    (live : (build platform calls).blocks.Live source) (buf : Buffer) :
    ((∃ fuel, flow platform fuel [] (some buf) source (build platform calls) ≠
        .error .outOfFuel) ↔
      ¬ Walk.Cycles (build platform calls).passing source ∧
        ∀ target payload is_ok after, (build platform calls).LeadsTo source target →
          (build platform calls).kind target = some .transPb →
          IsCommand platform (some buf) payload →
          protoCommandParse platform payload (build platform calls) = .ok (is_ok, after) →
          after.blocks.Live target → after.blocks.Live source →
          ¬ Walk.Cycles after.passing target) ∧
    ((∀ payload, ¬ IsCommand platform (some buf) payload) →
      ((∃ fuel after, flow platform fuel [] (some buf) source (build platform calls) = .ok after) ↔
        ¬ Walk.Cycles (build platform calls).passing source)) := by
  refine ⟨flow_ends_iff platform (some buf), fun plain => ?_⟩
  constructor
  · rintro ⟨fuel, after, done⟩ cycles
    rw [flow, flow_outOfFuel_of_cycles platform _ _ cycles] at done
    cases done
  · intro acyclic
    obtain ⟨fuel, ended⟩ := (flow_ends_iff platform (some buf)).mpr
      ⟨acyclic, fun _ payload _ _ _ _ command => absurd command (plain payload)⟩
    refine ⟨fuel, ?_⟩
    rw [flow] at ended ⊢
    rcases flow_cases platform [source] (some buf) source (build platform calls) fuel fuel with
      spent | ⟨dead, dangling⟩ | ⟨after, alike, -, done | ⟨target, leads, result⟩⟩
    · exact absurd spent ended
    · exact absurd dangling
        (flow_ne_dangling (noDangling_build platform calls) live plain [source] fuel fuel dead)
    · exact ⟨after, done⟩
    · cases fuel with
      | zero => exact absurd rfl ended
      | succ fuel =>
          obtain ⟨final, taken⟩ := blockData_ok platform
            ((alike.isHello target).symm.trans leads.not_hello) (fun payload _ => plain payload)
            fuel [source]
          exact ⟨final, by rw [result, taken]; rfl⟩

/-- Two `hello` blocks in a row. -/
theorem flow_returns_chain :
    let platform := Platform.plain fun _ => none
    let calls : List Building := [.blockAdd 1 "hello", .blockAdd 2 "hello", .blockBind 1 0 2]
    ∃ fuel after,
      flow platform fuel [] (some Buffer.empty) 0 (build platform calls) = .ok after := by
  intro platform calls
  have live : (build platform calls).blocks.Live 0 := by decide
  refine ((flow_returns_iff platform calls 0 live Buffer.empty).2 ?_).mpr ?_
  · rintro payload ⟨topic, part, same, -⟩
    cases same
  · exact (ends_passing_iff _ _).mp ⟨2, by decide⟩

/-- A `hello` block that is bound to itself forwards its data forever. -/
theorem flow_selfLoop_endless :
    let platform := Platform.plain fun _ => none
    let manager := build platform [.blockAdd 1 "hello", .blockBind 1 0 1]
    manager.blocks.Live 0 ∧
      ∀ fuel, flow platform fuel [] (some Buffer.empty) 0 manager = .error .outOfFuel := by
  intro platform manager
  refine ⟨by decide, fun fuel => ?_⟩
  exact flow_outOfFuel_of_cycles platform _ _ ⟨0, 1, 0, Nat.one_pos, rfl, by decide⟩ fuel

end C3qo
