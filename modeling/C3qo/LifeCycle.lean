import C3qo.Execution
import C3qo.Manager

/-!
# The life cycle of a block

What the manager is for: every block is built, started and stopped in turn, and destroyed at most
once, while it is stopped. The virtual calls on one block drive an automaton, and the registry
always holds the state that this automaton has reached.
-/

namespace C3qo

variable {F W : Type}

/-- The block that a virtual call is about. -/
def Event.block : Event F → BlockRef
  | .constructor ref _ => ref
  | .start_ ref => ref
  | .stop_ ref => ref
  | .bind_ ref => ref
  | .destructor ref _ => ref

/-- The stages in the life of a block. -/
inductive Stage
  /-- Not yet built. -/
  | unborn
  /-- Built, and not started. -/
  | idle
  /-- Started. -/
  | running
  /-- Destroyed. -/
  | destroyed
  deriving DecidableEq

/-- The stage after a virtual call, or `none` if the call has no place in the life of a block. -/
def Stage.next : Event F → Stage → Option Stage
  | .constructor _ _, .unborn => some .idle
  | .start_ _, .idle => some .running
  | .stop_ _, .running => some .idle
  | .bind_ _, .idle => some .idle
  | .bind_ _, .running => some .running
  | .destructor _ _, .idle => some .destroyed
  | _, _ => none

/-- The virtual calls on a block. -/
def callsOn (ref : BlockRef) (trace : List (Event F)) : List (Event F) :=
  trace.filter fun event => event.block = ref

/-- The call builds, starts, stops or destroys a block. -/
def Event.isPhase : Event F → Bool
  | .bind_ _ => false
  | _ => true

/-- The calls that build, start, stop and destroy a block. -/
def phases (ref : BlockRef) (trace : List (Event F)) : List (Event F) :=
  (callsOn ref trace).filter Event.isPhase

/-- A number of rounds of `start_` and `stop_`. -/
def rounds (ref : BlockRef) (count : Nat) : List (Event F) :=
  (List.replicate count [.start_ ref, .stop_ ref]).flatten

theorem rounds_succ (ref : BlockRef) (count : Nat) :
    rounds (F := F) ref (count + 1) = rounds ref count ++ [.start_ ref, .stop_ ref] := by
  simp [rounds, List.replicate_succ']

@[simp] theorem callsOn_append (ref : BlockRef) (left right : List (Event F)) :
    callsOn ref (left ++ right) = callsOn ref left ++ callsOn ref right :=
  List.filter_append ..

theorem callsOn_singleton (ref : BlockRef) (event : Event F) :
    callsOn ref [event] = if event.block = ref then [event] else [] := by
  simp [callsOn, List.filter_singleton]

theorem mem_callsOn {ref : BlockRef} {event : Event F} {trace : List (Event F)} :
    event ∈ callsOn ref trace ↔ event ∈ trace ∧ event.block = ref := by
  simp [callsOn]

/-- The shape of the calls on a block that has come to a stage. -/
def Shaped (ref : BlockRef) (calls : List (Event F)) : Stage → Prop
  | .unborn => calls = []
  | .idle => ∃ factory count,
      calls.filter Event.isPhase = .constructor ref factory :: rounds ref count
  | .running => ∃ factory count,
      calls.filter Event.isPhase = .constructor ref factory :: rounds ref count ++ [.start_ ref]
  | .destroyed => ∃ factory count destroyer, calls.filter Event.isPhase =
      .constructor ref factory :: rounds ref count ++ [.destructor ref destroyer]

/-- The calls that lead to a stage have the shape of that stage. -/
theorem shaped_of_run {ref : BlockRef} {calls : List (Event F)} {stage : Stage}
    (about : ∀ event ∈ calls, event.block = ref)
    (reached : Execution.run Stage.next calls .unborn = some stage) : Shaped ref calls stage := by
  induction calls using List.reverseRecOn generalizing stage with
  | nil =>
      obtain rfl := Option.some.inj reached
      rfl
  | append_singleton calls event ih =>
      rw [Execution.run_append] at reached
      obtain ⟨before, reached_before, last⟩ := Option.bind_eq_some_iff.mp reached
      have shaped := ih (fun other member => about other (by simp [member])) reached_before
      have here : event.block = ref := about event (by simp)
      have step : Stage.next event before = some stage := by
        simpa [Execution.run] using last
      cases event <;> cases before <;> simp only [Stage.next, Option.some.injEq, reduceCtorEq]
        at step <;> obtain rfl := here <;> subst step
      case constructor.unborn ref factory =>
        obtain rfl : calls = [] := shaped
        exact ⟨factory, 0, rfl⟩
      case start_.idle ref =>
        obtain ⟨factory, count, shape⟩ := shaped
        exact ⟨factory, count, by simp [List.filter_append, shape, Event.isPhase, Event.block]⟩
      case stop_.running ref =>
        obtain ⟨factory, count, shape⟩ := shaped
        refine ⟨factory, count + 1, ?_⟩
        simp [List.filter_append, shape, Event.isPhase, Event.block, rounds_succ]
      case bind_.idle ref =>
        obtain ⟨factory, count, shape⟩ := shaped
        exact ⟨factory, count, by simp [List.filter_append, shape, Event.isPhase, Event.block]⟩
      case bind_.running ref =>
        obtain ⟨factory, count, shape⟩ := shaped
        exact ⟨factory, count, by simp [List.filter_append, shape, Event.isPhase, Event.block]⟩
      case destructor.idle ref destroyer =>
        obtain ⟨factory, count, shape⟩ := shaped
        refine ⟨factory, count, destroyer, ?_⟩
        simp [List.filter_append, shape, Event.isPhase, Event.block]

/-- A block has no calls after its destruction. -/
theorem run_of_destroyed {calls : List (Event F)} {stage : Stage}
    (reached : Execution.run Stage.next calls .destroyed = some stage) : calls = [] := by
  cases calls with
  | nil => rfl
  | cons event calls => cases event <;> simp [Stage.next] at reached

/-! ## The registry follows the calls -/

/-- The stage of a block by what the registry holds. -/
def stageOf (blocks : Registry) (ref : BlockRef) : Stage :=
  match blocks.deref ref with
  | some block => if block.is_started_ then .running else .idle
  | none => if ref < blocks.next then .destroyed else .unborn

/-- For every block the calls made so far lead to the stage that the registry holds. -/
def Tracked (manager : Manager F W) : Prop :=
  ∀ ref, Execution.run Stage.next (callsOn ref manager.trace) .unborn =
    some (stageOf manager.blocks ref)

theorem tracked_new (world : W) : Tracked (Manager.new world : Manager F W) :=
  fun _ => rfl

theorem stageOf_of_deref {blocks : Registry} {ref : BlockRef} {block : Block}
    (object : blocks.deref ref = some block) :
    stageOf blocks ref = if block.is_started_ then .running else .idle := by
  simp [stageOf, object]

theorem stageOf_setStarted {blocks : Registry} {ref : BlockRef} {block : Block} (started : Bool)
    (object : blocks.deref ref = some block) :
    stageOf (blocks.setStarted ref started) ref = if started then .running else .idle := by
  simp [stageOf, Registry.deref_setStarted, object]

theorem stageOf_setStarted_of_ne (blocks : Registry) {ref other : BlockRef} (started : Bool)
    (different : other ≠ ref) :
    stageOf (blocks.setStarted ref started) other = stageOf blocks other := by
  simp [stageOf, Registry.deref_setStarted, different]

theorem stageOf_setSink (blocks : Registry) (ref sink other : BlockRef) :
    stageOf (blocks.setSink ref sink) other = stageOf blocks other := by
  by_cases same : other = ref
  · subst same
    simp only [stageOf, Registry.deref_setSink, if_true, Registry.next_setSink]
    cases blocks.deref other <;> rfl
  · simp [stageOf, Registry.deref_setSink, same]

/-- One more call keeps the tracking if it takes its block from its stage before to its stage
after, and leaves the stages of all other blocks. -/
theorem Tracked.call {before after : Manager F W} {event : Event F} (tracked : Tracked before)
    (trace : after.trace = before.trace ++ [event])
    (others : ∀ ref, ref ≠ event.block → stageOf after.blocks ref = stageOf before.blocks ref)
    (here : Stage.next event (stageOf before.blocks event.block) =
      some (stageOf after.blocks event.block)) : Tracked after := by
  intro ref
  rw [trace, callsOn_append, Execution.run_append, tracked ref, callsOn_singleton]
  split_ifs with about
  · subst about
    simpa [Execution.run] using here
  · exact congrArg some (others ref (Ne.symm about)).symm

theorem Tracked.kept {before after : Manager F W} (tracked : Tracked before)
    (kept : Kept before after) : Tracked after := by
  cases kept with
  | same blocks trace =>
      intro ref
      rw [trace, blocks]
      exact tracked ref
  | built id type_ factory free blocks trace =>
      refine tracked.call trace (fun ref different => ?_) ?_
      · have different : ref ≠ before.blocks.next := different
        have order : ref < before.blocks.next + 1 ↔ ref < before.blocks.next :=
          Nat.lt_succ_iff_lt_or_eq.trans (or_iff_left different)
        rw [blocks]
        simp only [stageOf, Registry.deref_insert, Registry.next_insert, if_neg different, order]
      · rw [blocks]
        simp [stageOf, Event.block, Registry.deref_next, Registry.deref_insert, Stage.next]
  | started ref block object idle blocks trace =>
      refine tracked.call trace (fun other different => ?_) ?_
      · rw [blocks]
        exact stageOf_setStarted_of_ne _ _ different
      · rw [blocks]
        simp [Event.block, stageOf_setStarted true object, stageOf_of_deref object, idle,
          Stage.next]
  | stopped ref block object running blocks trace =>
      refine tracked.call trace (fun other different => ?_) ?_
      · rw [blocks]
        exact stageOf_setStarted_of_ne _ _ different
      · rw [blocks]
        simp [Event.block, stageOf_setStarted false object, stageOf_of_deref object, running,
          Stage.next]
  | bound src dst live_src live_dst blocks trace =>
      obtain ⟨block, object⟩ := Registry.live_iff.mp live_src
      refine tracked.call trace (fun other _ => ?_) ?_
      · rw [blocks, stageOf_setSink]
      · rw [blocks]
        simp only [Event.block, stageOf_setSink, stageOf_of_deref object]
        split_ifs <;> rfl

theorem Tracked.blockDel {manager : Manager F W} (tracked : Tracked manager)
    (virtual : Virtual F W) (id : Int) : Tracked (manager.blockDel virtual id).2 := by
  rcases manager.blockDel_cases virtual id with
    ⟨-, same⟩ | ⟨ref, block, factory, found, idle, -, destroyed⟩
  · exact same ▸ tracked
  · rw [destroyed]
    obtain ⟨object, rfl⟩ := Registry.find_eq_some_iff.mp found
    have there := Registry.id_of_deref object
    refine tracked.call rfl (fun other different => ?_) ?_
    · have different : other ≠ ref := different
      simp [stageOf, Registry.deref_remove there, different]
    · have old := manager.blocks.fresh ref block object
      simp [Event.block, stageOf, Registry.deref_remove there, object, idle, old, Stage.next]

/-- A step of a run: an operation, or one iteration of the loop of `block_clear`. -/
inductive Step (F : Type)
  /-- An operation. -/
  | operation (action : Operation F)
  /-- The loop of `block_clear` comes to a key of the map. -/
  | blockClearIter (id : Int)

/-- Take a step; the loop only comes to keys that are in the map. -/
def Step.perform (virtual : Virtual F W) : Step F → Manager F W → Option (Manager F W)
  | .operation action, manager => some (action.perform virtual manager)
  | .blockClearIter id, manager =>
      if manager.blocks.get id = none then none else some (manager.blockClearIter virtual id)

theorem Tracked.step {virtual : Virtual F W} {step : Step F} {before after : Manager F W}
    (tracked : Tracked before) (taken : step.perform virtual before = some after) :
    Tracked after := by
  cases step with
  | operation action =>
      obtain rfl := Option.some.inj taken
      by_cases deletion : ∃ id, action = .blockDel id
      · obtain ⟨id, rfl⟩ := deletion
        exact tracked.blockDel virtual id
      · exact tracked.kept (action.perform_kept virtual before (not_exists.mp deletion))
  | blockClearIter id =>
      simp only [Step.perform, Option.ite_none_left_eq_some] at taken
      obtain ⟨-, taken⟩ := taken
      obtain rfl := Option.some.inj taken
      exact (tracked.kept (before.blockStop_kept virtual id)).blockDel virtual id

/-- In every run from a fresh manager the registry follows the calls. -/
theorem tracked_of_run {virtual : Virtual F W} {world : W} {steps : List (Step F)}
    {final : Manager F W}
    (execution : Execution.run (Step.perform virtual) steps (Manager.new world) = some final) :
    Tracked final :=
  Execution.invariant_of_run (fun _ _ _ tracked taken => tracked.step taken) (tracked_new world)
    execution

/-! ## Whole lives -/

/-- The life of a block that has been built. -/
structure LifeCycle (manager : Manager F W) (ref : BlockRef) : Prop where
  /-- It was built once, then started and stopped in turn. After that come nothing, or one more
  start, or its destruction. -/
  shape : ∃ factory count rest,
    phases ref manager.trace = .constructor ref factory :: rounds ref count ++ rest ∧
      (rest = [] ∨ rest = [.start_ ref] ∨ ∃ destroyer, rest = [.destructor ref destroyer])
  /-- No call is made on it after its destruction. -/
  ended : ∀ before destroyer after,
    manager.trace = before ++ .destructor ref destroyer :: after →
      ∀ event ∈ after, event.block ≠ ref
  /-- While it is in the map, it is marked as started exactly if its last start is unmatched. -/
  started : ∀ block, manager.blocks.deref ref = some block →
    (block.is_started_ = true ↔ (phases ref manager.trace).getLast? = some (.start_ ref))

theorem getLast?_rounds (ref : BlockRef) (factory : F) (count : Nat) :
    (Event.constructor ref factory :: rounds ref count).getLast? ≠ some (.start_ ref) := by
  cases count with
  | zero => simp [rounds]
  | succ count =>
      rw [rounds_succ, ← List.cons_append, List.getLast?_append]
      simp

theorem mem_trace_of_phases (ref : BlockRef) {event : Event F} {trace : List (Event F)}
    (member : event ∈ phases ref trace) : event ∈ trace :=
  (mem_callsOn.mp (List.mem_of_mem_filter member)).1

theorem mem_phases {event : Event F} {trace : List (Event F)} (member : event ∈ trace)
    (phase : event.isPhase = true) : event ∈ phases event.block trace :=
  List.mem_filter.mpr ⟨mem_callsOn.mpr ⟨member, rfl⟩, phase⟩

namespace Tracked

variable {manager : Manager F W} {ref : BlockRef}

theorem shaped (tracked : Tracked manager) (ref : BlockRef) :
    Shaped ref (callsOn ref manager.trace) (stageOf manager.blocks ref) :=
  shaped_of_run (fun _ member => (mem_callsOn.mp member).2) (tracked ref)

/-- A block is started exactly if its last start is unmatched. -/
theorem started_iff (tracked : Tracked manager) (ref : BlockRef) :
    manager.blocks.started ref = true ↔
      (phases ref manager.trace).getLast? = some (.start_ ref) := by
  have shaped := tracked.shaped ref
  rcases object : manager.blocks.deref ref with _ | block
  · have idle : manager.blocks.started ref = false := by simp [Registry.started, object]
    simp only [stageOf, object] at shaped
    rw [idle]
    split_ifs at shaped
    · obtain ⟨factory, count, destroyer, shape⟩ := shaped
      rw [phases, shape, List.getLast?_append]
      simp
    · simp [phases, show callsOn ref manager.trace = [] from shaped]
  · rw [stageOf_of_deref object] at shaped
    rw [Registry.started_of_deref object]
    split_ifs at shaped with running
    · obtain ⟨factory, count, shape⟩ := shaped
      rw [phases, shape, List.getLast?_append]
      simp [running]
    · obtain ⟨factory, count, shape⟩ := shaped
      simp [running, phases, shape, getLast?_rounds]

theorem lifeCycle (tracked : Tracked manager) {factory : F}
    (built : .constructor ref factory ∈ manager.trace) :
    LifeCycle manager ref := by
  have shaped := tracked.shaped ref
  have there : .constructor ref factory ∈ phases ref manager.trace := mem_phases built rfl
  refine ⟨?_, ?_, ?_⟩
  · cases stage : stageOf manager.blocks ref <;> rw [stage] at shaped
    case unborn => simp [phases, show callsOn ref manager.trace = [] from shaped] at there
    case idle =>
      obtain ⟨factory, count, shape⟩ := shaped
      exact ⟨factory, count, [], by simpa [phases] using shape, .inl rfl⟩
    case running =>
      obtain ⟨factory, count, shape⟩ := shaped
      exact ⟨factory, count, _, shape, .inr (.inl rfl)⟩
    case destroyed =>
      obtain ⟨factory, count, destroyer, shape⟩ := shaped
      exact ⟨factory, count, _, shape, .inr (.inr ⟨destroyer, rfl⟩)⟩
  · intro before destroyer after split event member about
    have reached := tracked ref
    rw [split, callsOn_append, Execution.run_append, callsOn, callsOn,
      List.filter_cons_of_pos (by simp [Event.block])] at reached
    obtain ⟨stage, -, rest⟩ := Option.bind_eq_some_iff.mp reached
    obtain ⟨next, step, later⟩ := Option.bind_eq_some_iff.mp rest
    cases stage <;> simp only [Stage.next, Option.some.injEq, reduceCtorEq] at step
    subst step
    have none_left := run_of_destroyed later
    exact List.filter_eq_nil_iff.mp none_left event member (by simp [about])
  · intro block object
    rw [← tracked.started_iff ref, Registry.started_of_deref object]

/-- The map holds the blocks that have been built and not destroyed. -/
theorem live_iff (tracked : Tracked manager) (ref : BlockRef) : manager.blocks.Live ref ↔
    (∃ factory, .constructor ref factory ∈ manager.trace) ∧
      ∀ factory, .destructor ref factory ∉ manager.trace := by
  have shaped := tracked.shaped ref
  have no_round : ∀ destroyer (count : Nat),
      (.destructor ref destroyer : Event F) ∉ rounds ref count := by
    intro destroyer count
    simp [rounds]
  rcases object : manager.blocks.deref ref with _ | block
  · have dead : ¬ manager.blocks.Live ref := by simp [Registry.live_iff, object]
    simp only [stageOf, object] at shaped
    refine ⟨fun live => absurd live dead, fun ⟨⟨factory, built⟩, kept⟩ => ?_⟩
    split_ifs at shaped
    · obtain ⟨_, count, destroyer, shape⟩ := shaped
      refine absurd (mem_trace_of_phases ref ?_) (kept destroyer)
      simp [phases, shape]
    · have there : .constructor ref factory ∈ callsOn ref manager.trace :=
        mem_callsOn.mpr ⟨built, rfl⟩
      rw [show callsOn ref manager.trace = [] from shaped] at there
      cases there
  · refine ⟨fun _ => ?_, fun _ => Registry.live_iff.mpr ⟨block, object⟩⟩
    rw [stageOf_of_deref object] at shaped
    have life : ∃ factory count rest, phases ref manager.trace =
        .constructor ref factory :: rounds ref count ++ rest ∧
          ∀ destroyer, (.destructor ref destroyer : Event F) ∉ rest := by
      split_ifs at shaped
      · obtain ⟨factory, count, shape⟩ := shaped
        exact ⟨factory, count, _, shape, by simp⟩
      · obtain ⟨factory, count, shape⟩ := shaped
        exact ⟨factory, count, [], by simpa [phases] using shape, by simp⟩
    obtain ⟨factory, count, rest, shape, kept⟩ := life
    refine ⟨⟨factory, mem_trace_of_phases ref (by simp [shape])⟩, fun destroyer gone => ?_⟩
    have there : .destructor ref destroyer ∈ phases ref manager.trace := mem_phases gone rfl
    rw [shape] at there
    simp [kept, no_round] at there

end Tracked

/-- Block life cycle over whole runs: every block that was built lives the life of a block, and
the map holds exactly the blocks built and not yet destroyed, each one under exactly one key,
which is its identifier. -/
theorem lifeCycle_of_run (virtual : Virtual F W) (world : W) (steps : List (Step F))
    (final : Manager F W)
    (execution : Execution.run (Step.perform virtual) steps (Manager.new world) = some final) :
    (∀ ref factory, .constructor ref factory ∈ final.trace → LifeCycle final ref) ∧
      (∀ ref, (∃ id, final.blockGet id = some ref) ↔
        (∃ factory, .constructor ref factory ∈ final.trace) ∧
          ∀ factory, .destructor ref factory ∉ final.trace) ∧
      ∀ id ref, final.blockGet id = some ref ↔
        ∃ block, final.blocks.deref ref = some block ∧ block.id_ = id := by
  have tracked := tracked_of_run execution
  refine ⟨fun ref factory built => tracked.lifeCycle built, fun ref => ?_, fun id ref => ?_⟩
  · rw [← tracked.live_iff ref]
    exact Registry.live_iff_mapped.symm
  · exact Registry.get_eq_some_iff

/-- A run in which `block_clear` deletes a started block and another one takes its identifier. -/
def reuse : List (Step Unit) :=
  [.operation (.blockFactoryRegister "hello" ()), .operation (.blockAdd 1 "hello"),
    .operation (.blockStart 1), .blockClearIter 1, .operation (.blockAdd 1 "hello")]

theorem lifeCycle_of_run_reuse :
    ∃ final, Execution.run (Step.perform Virtual.inert) reuse (Manager.new ()) = some final ∧
      LifeCycle final 0 ∧ LifeCycle final 1 ∧ ¬ (∃ id, final.blockGet id = some 0) ∧
      final.blockGet 1 = some 1 := by
  obtain ⟨final, execution⟩ := Option.isSome_iff_exists.mp
    (by decide : (Execution.run (Step.perform Virtual.inert) reuse (Manager.new ())).isSome = true)
  have trace : final.trace = [.constructor 0 (), .start_ 0, .stop_ 0, .destructor 0 (),
      .constructor 1 ()] := by
    have same : (Execution.run (Step.perform Virtual.inert) reuse (Manager.new ())).map
        (fun final => final.trace) = some [.constructor 0 (), .start_ 0, .stop_ 0,
          .destructor 0 (), .constructor 1 ()] := by decide
    simpa [execution] using same
  obtain ⟨lives, exact_map, -⟩ := lifeCycle_of_run Virtual.inert () reuse final execution
  refine ⟨final, execution, lives 0 () (by simp [trace]), lives 1 () (by simp [trace]), ?_, ?_⟩
  · rw [exact_map 0]
    simp [trace]
  · have there : (Execution.run (Step.perform Virtual.inert) reuse (Manager.new ())).map
        (fun final => final.blockGet 1) = some (some 1) := by decide
    simpa [execution] using there

end C3qo
