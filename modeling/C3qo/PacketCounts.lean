import C3qo.CommandStore

/-!
# The packet counts of blocks

A `hello` counts the packets that it is handed, a hook those that it has sent. Whatever happens in
the main loop of `c3qo`, blocks that are built, configured, bound, deleted and built again under
the same identifier included, these counts agree with how often `data_` of the block has been
called, as long as that fits into them.
-/

namespace C3qo

open Relation

/-- How often `data_` of a block has been called. -/
def BlockManager.handed (manager : BlockManager) (ref : BlockRef) : Nat :=
  manager.world.log.countP (Handled.isFor ref)

/-- A packet count agrees with a number of calls of `data_`: a `hello` has counted each of them, a
hook has sent one packet at each at most. -/
def Derived.Tallies (calls : Nat) : Derived → Prop
  | .hello _ count_ => count_ = calls
  | .transPb => True
  | .hookZmq hook => hook.tx_pkt_ ≤ calls

/-- The packet counts of all blocks agree with the calls of their `data_`. -/
structure Tallied (manager : BlockManager) : Prop where
  /-- The count of every block that there is. -/
  tallies : ∀ ref derived, manager.kind ref = some derived → derived.Tallies (manager.handed ref)
  /-- Objects that have not been built yet have been handed nothing. -/
  fresh : ∀ ref, manager.blocks.next ≤ ref → manager.handed ref = 0

section

variable {platform : Platform} {manager before after : BlockManager} {ref : BlockRef}

theorem handed_congr (log : after.world.log = before.world.log) (other : BlockRef) :
    after.handed other = before.handed other := by
  unfold BlockManager.handed
  rw [log]

theorem handed_received (manager : BlockManager) (ref : BlockRef) (vdata : Option Buffer)
    (other : BlockRef) :
    (received manager ref vdata).handed other =
      manager.handed other + if ref = other then 1 else 0 := by
  unfold BlockManager.handed received BlockManager.record
  rw [List.countP_append, List.countP_singleton]
  simp only [Handled.isFor, decide_eq_true_eq]

/-- A number of calls that is one more. -/
theorem Derived.Tallies.hook_data {hook : HookZmq} {calls : Nat}
    (tallies : (Derived.hookZmq hook).Tallies calls) (platform : Platform) (vdata : Option Buffer)
    (zmq : Zmq) : (Derived.hookZmq (hook.data_ platform vdata zmq).2.1).Tallies (calls + 1) := by
  have bound : hook.tx_pkt_ ≤ calls := tallies
  unfold Derived.Tallies HookZmq.data_
  cases vdata with
  | none => exact Nat.le_succ_of_le bound
  | some buf =>
      dsimp only
      split
      · exact Nat.succ_le_succ bound
      · exact Nat.le_succ_of_le bound

theorem HookZmq.tx_pkt_start (hook : HookZmq) (platform : Platform) (ref : BlockRef)
    (polling : Polling) (zmq : Zmq) :
    (hook.start_ platform ref polling zmq).1.tx_pkt_ = hook.tx_pkt_ := by
  unfold HookZmq.start_ HookZmq.join
  dsimp only
  split_ifs <;> rfl

namespace Tallied

/-- A step that hands no data to a block. -/
theorem silent (tallied : Tallied before)
    (handed : ∀ other, after.handed other = before.handed other)
    (next : before.blocks.next ≤ after.blocks.next)
    (tallies : ∀ other derived, after.kind other = some derived →
      derived.Tallies (before.handed other)) : Tallied after where
  tallies other derived there := by
    rw [handed]
    exact tallies other derived there
  fresh other later := by
    rw [handed]
    exact tallied.fresh other (next.trans later)

/-- Only the kinds of blocks, the calls of `data_` and the next object matter. -/
theorem congr (tallied : Tallied before) (kind : ∀ other, after.kind other = before.kind other)
    (handed : ∀ other, after.handed other = before.handed other)
    (next : before.blocks.next ≤ after.blocks.next) : Tallied after :=
  tallied.silent handed next fun other derived there =>
    tallied.tallies other derived ((kind other).symm.trans there)

/-- A hook may change if it keeps its count. -/
theorem refitted (tallied : Tallied before) {hook hook' : HookZmq}
    (kind : before.kind ref = some (.hookZmq hook))
    (derived : ∀ other, after.kind other = (before.setDerived ref (.hookZmq hook')).kind other)
    (same : hook'.tx_pkt_ = hook.tx_pkt_)
    (handed : ∀ other, after.handed other = before.handed other)
    (next : before.blocks.next ≤ after.blocks.next) : Tallied after := by
  refine tallied.silent handed next fun other found there => ?_
  rw [derived] at there
  by_cases its : other = ref
  · subst its
    rw [before.kind_setDerived] at there
    obtain rfl := Option.some.inj there
    have bound : hook.tx_pkt_ ≤ before.handed other := tallied.tallies other _ kind
    exact same.trans_le bound
  · rw [before.kind_setDerived_of_ne _ its] at there
    exact tallied.tallies other found there

/-- A block that is handed data counts it. -/
theorem handed (tallied : Tallied before) {vdata : Option Buffer}
    (live : before.blocks.Live ref)
    (kind : ∀ other, other ≠ ref → after.kind other = before.kind other)
    (recorded : after.world.log = (received before ref vdata).world.log)
    (next : after.blocks.next = before.blocks.next)
    (tallies : ∀ derived, after.kind ref = some derived →
      derived.Tallies (before.handed ref + 1)) : Tallied after where
  tallies other derived there := by
    rw [handed_congr recorded, handed_received]
    by_cases same : other = ref
    · subst same
      rw [if_pos rfl]
      exact tallies derived there
    · rw [if_neg (Ne.symm same)]
      exact tallied.tallies other derived ((kind other same).symm.trans there)
  fresh other built := by
    obtain ⟨block, object⟩ := Registry.live_iff.mp live
    have old : ref < before.blocks.next := before.blocks.fresh ref block object
    rw [next] at built
    have different : ref ≠ other := Nat.ne_of_lt (Nat.lt_of_lt_of_le old built)
    rw [handed_congr recorded, handed_received, if_neg different, tallied.fresh other built]

/-- A new block has counted nothing and been handed nothing. -/
theorem constructed (tallied : Tallied before) {factory : Factory} {world : World} {built : Bool}
    (answer : World.constructor platform factory before.blocks.next before.world =
      (built, world))
    (derived : ∀ other, after.kind other = world.derived.lookup other)
    (log : after.world.log = world.log) (next : before.blocks.next ≤ after.blocks.next) :
    Tallied after := by
  obtain ⟨-, -, -, others⟩ := World.constructor_frame answer
  have kept := World.log_constructor platform factory before.blocks.next before.world
  rw [answer] at kept
  refine tallied.silent (handed_congr (log.trans kept)) next fun other found there => ?_
  rw [derived] at there
  by_cases same : other = before.blocks.next
  · subst same
    have none_yet := tallied.fresh before.blocks.next le_rfl
    rw [none_yet]
    cases factory <;> simp only [World.constructor, Prod.mk.injEq] at answer <;>
      obtain ⟨-, rfl⟩ := answer
    case failure =>
      have tallies := tallied.tallies _ found there
      rwa [none_yet] at tallies
    all_goals
      obtain rfl := Option.some.inj ((Finmap.lookup_insert _).symm.trans there)
    · rfl
    · trivial
    · exact le_rfl
  · exact tallied.tallies other found ((others other same).symm.trans there)

/-- A block that starts counts nothing, also a dealer that makes itself known to its peer. -/
theorem started (tallied : Tallied before)
    (derived : ∀ other, after.kind other =
      (before.world.start_ platform ref).derived.lookup other)
    (log : after.world.log = (before.world.start_ platform ref).log)
    (next : before.blocks.next ≤ after.blocks.next) : Tallied after := by
  rw [World.log_start] at log
  by_cases hooks : ∃ hook, before.kind ref = some (.hookZmq hook)
  · obtain ⟨hook, kind⟩ := hooks
    refine tallied.refitted kind (fun other => (derived other).trans ?_)
      (hook.tx_pkt_start platform ref before.world.polling before.world.zmq)
      (handed_congr log) next
    unfold World.start_
    rw [show before.world.derived.lookup ref = _ from kind]
    rfl
  · have plain : before.world.start_ platform ref = before.world :=
      World.start_of_other (not_exists.mp hooks)
    rw [plain] at derived
    exact tallied.congr derived (handed_congr log) next

/-- A block that stops counts nothing. -/
theorem derived_stop (world : World) (ref : BlockRef) :
    (world.stop_ ref).derived = world.derived := by
  unfold World.stop_
  split <;> rfl

/-- The operations of the manager count nothing. -/
theorem perform (tallied : Tallied manager) (operation : Operation Factory) :
    Tallied (operation.perform (virtual platform) manager) := by
  refine Operation.perform_preserves (virtual platform) manager Tallied (fun after change => ?_)
    (fun id ref block _ _ _ => ?_) fun ref block factory _ _ _ => ?_
  · cases change with
    | same after blocks world trace =>
        exact tallied.congr (fun other => congrArg (fun world => world.derived.lookup other) world)
          (handed_congr (congrArg World.log world)) (congrArg Registry.next blocks).ge
    | refused factory world answer =>
        exact tallied.constructed answer (fun _ => rfl) rfl le_rfl
    | built id type_ factory free registered world answer =>
        exact tallied.constructed answer (fun _ => rfl) rfl (Nat.le_succ _)
    | started ref block object idle =>
        exact tallied.started (fun _ => rfl) rfl (Registry.next_setStarted ..).ge
    | bound src port dst live_src live_dst =>
        exact tallied.congr (fun _ => rfl) (fun _ => rfl) (Registry.next_setSink ..).ge
  · refine tallied.congr (fun other => ?_) (handed_congr (World.log_stop ..))
      (Registry.next_setStarted ..).ge
    exact congrArg (fun derived => derived.lookup other) (derived_stop manager.world ref)
  · refine tallied.silent (fun _ => rfl) (Registry.next_remove ..).ge fun other derived there => ?_
    have remains : (manager.world.derived.erase ref).lookup other = some derived := there
    by_cases same : other = ref
    · rw [same, Finmap.lookup_erase] at remains
      cases remains
    · rw [Finmap.lookup_erase_ne same] at remains
      exact tallied.tallies other derived remains

/-- Commands count nothing. -/
theorem executed (tallied : Tallied before) {payload : Bytes} {is_ok : Bool}
    (done : protoCommandParse platform payload before = .ok (is_ok, after)) : Tallied after := by
  unfold protoCommandParse at done
  rcases unpacked : platform.unpack payload with _ | command <;> rw [unpacked] at done
  · cases done
    exact tallied
  · cases command with
    | add id type_ =>
        have performed : (Manager.blockAdd (virtual platform) id type_ before).2 = after :=
          congrArg Prod.snd (Except.ok.inj done)
        exact performed ▸ tallied.perform (.blockAdd id type_)
    | start id =>
        have performed : (Manager.blockStart (virtual platform) id before).2 = after :=
          congrArg Prod.snd (Except.ok.inj done)
        exact performed ▸ tallied.perform (.blockStart id)
    | stop id =>
        have performed : (Manager.blockStop (virtual platform) id before).2 = after :=
          congrArg Prod.snd (Except.ok.inj done)
        exact performed ▸ tallied.perform (.blockStop id)
    | del id =>
        have performed : (Manager.blockDel (virtual platform) id before).2 = after :=
          congrArg Prod.snd (Except.ok.inj done)
        exact performed ▸ tallied.perform (.blockDel id)
    | bind id port dest =>
        have performed : (Manager.blockBind (virtual platform) id port dest before).2 = after :=
          congrArg Prod.snd (Except.ok.inj done)
        exact performed ▸ tallied.perform (.blockBind id port dest)
    | hookZmq id client type_ name addr =>
        dsimp only at done
        split at done
        · cases done
          exact tallied
        · split at done
          · rename_i hook kind
            cases done
            exact tallied.refitted kind (fun _ => rfl) rfl (fun _ => rfl) le_rfl
          · cases done
    | term =>
        cases done
        exact tallied.congr (fun _ => rfl) (fun _ => rfl) le_rfl
    | notSet =>
        cases done
        exact tallied

/-- Other records than those of `data_` do not matter. -/
theorem noted (tallied : Tallied manager) {handled : Handled}
    (other : ∀ ref vdata started, handled ≠ .data_ ref vdata started) :
    Tallied (manager.record handled) := by
  refine tallied.congr (fun _ => rfl) (fun ref => ?_) le_rfl
  unfold BlockManager.handed BlockManager.record
  rw [List.countP_append, List.countP_singleton]
  cases handled with
  | data_ ref vdata started => exact absurd rfl (other ref vdata started)
  | command ref data => rfl
  | reply ref is_ok => rfl

/-- Every block counts what it is handed. -/
theorem step (tallied : Tallied before) (step : BlockStep platform before ref after) :
    Tallied after := by
  cases step with
  | fetched hook buf zmq kind received =>
      exact tallied.refitted kind (fun _ => rfl) rfl (fun _ => rfl) le_rfl
  | missed hook buf zmq kind failed =>
      exact tallied.congr (fun _ => rfl) (fun _ => rfl) le_rfl
  | ignored vdata live deaf =>
      refine tallied.handed live (fun _ _ => rfl) rfl rfl fun derived there => ?_
      rcases deaf with none_there | ⟨interpreter, -⟩
      · cases none_there.symm.trans there
      · obtain rfl := Option.some.inj (interpreter.symm.trans there)
        trivial
  | counted vdata name_ count_ live kind =>
      refine tallied.handed live (fun other different =>
        BlockManager.kind_setDerived_of_ne _ _ different) rfl rfl fun derived there => ?_
      rw [BlockManager.kind_setDerived] at there
      obtain rfl := Option.some.inj there
      have counted : count_ = before.handed ref := tallied.tallies ref _ kind
      exact congrArg (· + 1) counted
  | sent vdata hook live kind =>
      refine tallied.handed live (fun other different =>
        Finmap.lookup_insert_of_ne _ different) rfl rfl fun derived there => ?_
      obtain rfl := Option.some.inj ((Finmap.lookup_insert _).symm.trans there)
      exact (tallied.tallies ref _ kind).hook_data platform vdata before.world.zmq
  | executed vdata payload is_ok next live kind command done =>
      have handed : Tallied (received before ref vdata) := by
        refine tallied.handed live (fun _ _ => rfl) rfl rfl fun derived there => ?_
        obtain rfl := Option.some.inj (kind.symm.trans there)
        trivial
      have commanded : Tallied (commanded before ref vdata payload) := handed.noted nofun
      exact (commanded.executed done).noted nofun

/-- Whatever happens, every block counts what it is handed. -/
theorem run (tallied : Tallied before) {activities : List Activity}
    (execution : Execution.run (Activity.perform platform) activities before = some after) :
    Tallied after := by
  have steps := steps_of_run execution
  clear execution
  induction steps with
  | refl => exact tallied
  | tail _ taken ih =>
      rcases taken with ⟨ref, taken⟩ | ⟨message, rfl⟩
      · exact ih.step taken
      · exact ih.congr (fun _ => rfl) (fun _ => rfl) le_rfl

end Tallied

/-- What `main` sets up has counted nothing. -/
theorem tallied_c3qoMain (platform : Platform) (identity : String) :
    Tallied (c3qoMain platform identity) := by
  refine c3qoMain_induction Tallied ?_ (fun manager operation tallied => tallied.perform operation)
    (fun manager tallied => ?_) fun manager tallied =>
      tallied.congr (fun _ => rfl) (fun _ => rfl) le_rfl
  · have none_there : ∀ ref, repository.kind ref = none := fun ref => Finmap.lookup_empty _
    refine ⟨fun ref derived there => ?_, fun _ _ => rfl⟩
    cases (none_there ref).symm.trans there
  · unfold monitoringClient
    split
    · exact tallied
    · split
      · rename_i hook kind
        exact tallied.refitted kind (fun _ => rfl) rfl (fun _ => rfl) le_rfl
      · exact tallied

end

/-- The largest value of the type of `count_`. -/
def INT_MAX : Nat := 2 ^ 31 - 1

/-- In every state of the main loop of `c3qo` in which no block has been handed so much data that
an `int` cannot count it, no packet count has overflowed: that of every `hello` is the number of
calls of its `data_`, whatever commands have built, bound and deleted, and no hook has counted more
packets as sent than it has been handed. -/
theorem mainLoop_counts (platform : Platform) (identity : String) (rounds : List Round)
    (state : LoopState)
    (execution : Execution.run (Round.perform platform) rounds
      (.entered platform identity) = some state)
    (few : ∀ ref, state.manager.handed ref ≤ INT_MAX) :
    (∀ ref name_ count_, state.manager.kind ref = some (.hello name_ count_) →
      count_ = state.manager.handed ref ∧ count_ ≤ INT_MAX) ∧
    ∀ ref hook, state.manager.kind ref = some (.hookZmq hook) →
      hook.tx_pkt_ ≤ state.manager.handed ref ∧ hook.tx_pkt_ ≤ INT_MAX := by
  obtain ⟨activities, manager, run, polling, -, rfl⟩ := activities_of_rounds execution
  have tallied := (tallied_c3qoMain platform identity).run run
  constructor
  · intro ref name_ count_ kind
    have counted : count_ = state.manager.handed ref := tallied.tallies ref _ kind
    exact ⟨counted, counted.le.trans (few ref)⟩
  · intro ref hook kind
    have bound : hook.tx_pkt_ ≤ state.manager.handed ref := tallied.tallies ref _ kind
    exact ⟨bound, bound.trans (few ref)⟩

/-- A platform with commands that put a `hello` between the monitoring blocks. -/
def inserting : Platform :=
  Platform.plain fun payload =>
    if payload = [1] then some (.add 7 "hello") else
    if payload = [2] then some (.bind 7 0 (-2)) else
    if payload = [3] then some (.bind (-1) 0 7) else some .notSet

/-- The `hello` is the third block that is built, and has counted one packet. -/
theorem mainLoop_counts_inserted : ∃ state,
    Execution.run (Round.perform inserting)
      [commandRound [1], commandRound [2], commandRound [3], commandRound [4]]
      (.entered inserting "c3qo") = some state ∧
    state.manager.kind 2 = some (.hello "unknown" 1) ∧
    (∀ ref name_ count_, state.manager.kind ref = some (.hello name_ count_) →
      count_ = state.manager.handed ref ∧ count_ ≤ INT_MAX) ∧
    ∀ ref hook, state.manager.kind ref = some (.hookZmq hook) →
      hook.tx_pkt_ ≤ state.manager.handed ref ∧ hook.tx_pkt_ ≤ INT_MAX := by
  have outcome : (Execution.run (Round.perform inserting)
      [commandRound [1], commandRound [2], commandRound [3], commandRound [4]]
      (.entered inserting "c3qo")).map (fun state =>
        (state.manager.kind 2, state.manager.world.log.length)) =
          some (some (.hello "unknown" 1), 17) := by
    decide +kernel
  obtain ⟨state, execution, same⟩ := Option.map_eq_some_iff.mp outcome
  obtain ⟨kind, length⟩ := Prod.mk.inj same
  refine ⟨state, execution, kind, mainLoop_counts inserting "c3qo" _ state execution fun ref => ?_⟩
  have short : state.manager.handed ref ≤ state.manager.world.log.length := List.countP_le_length
  rw [length] at short
  exact short.trans (by decide)

end C3qo
