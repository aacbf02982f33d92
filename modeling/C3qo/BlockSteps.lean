import C3qo.MainLoop

/-!
# What blocks do, step by step

Whatever happens in the main loop of `c3qo` is a sequence of a few kinds of steps: messages arrive
and are received, blocks record the data that they are handed, count it or send it, and a
`trans_pb` executes a command and replies. What each step of some blocks keeps, data flows among
these blocks keep, and what all steps keep, whole runs keep.
-/

namespace C3qo

open Relation

/-- One step of a block. -/
inductive BlockStep (platform : Platform) (before : BlockManager) (ref : BlockRef) :
    BlockManager → Prop
  /-- A hook receives a message. -/
  | fetched (hook : HookZmq) (buf : Buffer) (zmq : Zmq)
      (kind : before.kind ref = some (.hookZmq hook))
      (received : hook.recv_ Buffer.empty before.world.zmq = (true, buf, zmq)) :
      BlockStep platform before ref (receipt before ref hook zmq)
  /-- A hook fails to receive a message. -/
  | missed (hook : HookZmq) (buf : Buffer) (zmq : Zmq)
      (kind : before.kind ref = some (.hookZmq hook))
      (failed : hook.recv_ Buffer.empty before.world.zmq = (false, buf, zmq)) :
      BlockStep platform before ref { before with world := { before.world with zmq := zmq } }
  /-- A block does nothing with the data that it is handed. -/
  | ignored (vdata : Option Buffer) (live : before.blocks.Live ref)
      (deaf : before.kind ref = none ∨
        before.kind ref = some .transPb ∧ ∀ payload, ¬ IsCommand platform vdata payload) :
      BlockStep platform before ref (received before ref vdata)
  /-- A `hello` counts the data. -/
  | counted (vdata : Option Buffer) (name_ : String) (count_ : Nat)
      (live : before.blocks.Live ref) (kind : before.kind ref = some (.hello name_ count_)) :
      BlockStep platform before ref
        ((received before ref vdata).setDerived ref (.hello name_ (count_ + 1)))
  /-- A hook sends the data. -/
  | sent (vdata : Option Buffer) (hook : HookZmq)
      (live : before.blocks.Live ref) (kind : before.kind ref = some (.hookZmq hook)) :
      BlockStep platform before ref
        (hookSent platform (received before ref vdata) ref hook vdata)
  /-- A `trans_pb` executes a command, and begins to reply. -/
  | executed (vdata : Option Buffer) (payload : Bytes) (is_ok : Bool)
      (after : BlockManager) (live : before.blocks.Live ref)
      (kind : before.kind ref = some .transPb) (command : IsCommand platform vdata payload)
      (done : protoCommandParse platform payload (commanded before ref vdata payload) =
        .ok (is_ok, after)) :
      BlockStep platform before ref (after.record (.reply ref is_ok))

/-- A step puts on record that a block was handed data, and a command that it executed with the
reply, or nothing. -/
theorem BlockStep.records {platform : Platform} {before after : BlockManager} {ref : BlockRef}
    (step : BlockStep platform before ref after) :
    after.world.log = before.world.log ∨
      (∃ vdata started, after.world.log = before.world.log ++ [.data_ ref vdata started]) ∨
      ∃ vdata started payload is_ok, after.world.log = before.world.log ++
        [.data_ ref vdata started] ++ [.command ref payload, .reply ref is_ok] := by
  cases step with
  | fetched | missed => exact .inl rfl
  | ignored | counted | sent => exact .inr (.inl ⟨_, _, rfl⟩)
  | executed vdata payload is_ok next live kind command done =>
      refine .inr (.inr ⟨vdata, before.isStarted ref, payload, is_ok, ?_⟩)
      simp [BlockManager.record, log_executed done, commanded, received]

/-- What the steps of some blocks keep, which hand their data to each other only. Which blocks
these are may depend on the state. -/
structure Carried (platform : Platform) (Among : BlockManager → BlockRef → Prop)
    (Holds : BlockManager → Prop) : Prop where
  /-- Their sinks are among them. -/
  closed : ∀ manager, Holds manager → ∀ ref block sink, Among manager ref →
    manager.blocks.deref ref = some block → block.sink_ = some sink → Among manager sink
  /-- Their steps keep it. -/
  step : ∀ before ref after, Holds before → Among before ref →
    BlockStep platform before ref after → Holds after
  /-- Their steps leave them what they are. -/
  kept : ∀ before ref after, Holds before → Among before ref →
    BlockStep platform before ref after → ∀ other, Among before other → Among after other

namespace Carried

variable {platform : Platform} {Among : BlockManager → BlockRef → Prop}
  {Holds : BlockManager → Prop} {before after : BlockManager}

/-- It holds afterwards, and the blocks are still what they are. -/
def Goes (Among : BlockManager → BlockRef → Prop) (Holds : BlockManager → Prop)
    (before after : BlockManager) : Prop :=
  Holds after ∧ ∀ other, Among before other → Among after other

theorem goes (carried : Carried platform Among Holds) {ref : BlockRef} (start : Holds before)
    (among : Among before ref) (step : BlockStep platform before ref after) :
    Goes Among Holds before after :=
  ⟨carried.step before ref after start among step, carried.kept before ref after start among step⟩

theorem Goes.trans {first second third : BlockManager} (left : Goes Among Holds first second)
    (right : Goes Among Holds second third) : Goes Among Holds first third :=
  ⟨right.1, fun other among => right.2 other (left.2 other among)⟩

/-- A flow keeps it if the `data_` callbacks of its blocks do. -/
theorem processData (carried : Carried platform Among Holds)
    {data_ : BlockRef → BlockManager → Except Fault (Bool × BlockManager)}
    (handed : ∀ sink before forward after, Holds before → Among before sink →
      before.blocks.Live sink → data_ sink before = .ok (forward, after) →
      Goes Among Holds before after) {fuel : Nat} {current : BlockRef}
    (start : Holds before) (among : Among before current)
    (done : processData data_ fuel current before = .ok after) :
    Goes Among Holds before after := by
  induction fuel generalizing current before with
  | zero => cases done
  | succ fuel ih =>
      unfold C3qo.processData at done
      split at done
      · cases done
      · rename_i block object
        split at done
        · cases done
          exact ⟨start, fun _ among => among⟩
        · rename_i sink bound
          have among' := carried.closed before start current block sink among object bound
          split at done
          · cases done
          · rename_i target object'
            have live : before.blocks.Live sink := Registry.live_iff.mpr ⟨target, object'⟩
            split at done
            · cases done
            · rename_i next first
              have goes := handed sink before true next start among' live first
              exact goes.trans (ih goes.1 (goes.2 sink among') done)
            · rename_i next first
              cases done
              exact handed sink before false after start among' live first

/-- What one block does with its data keeps it. -/
theorem blockData (carried : Carried platform Among Holds) {depth : Nat}
    {running : List BlockRef} {vdata : Option Buffer} {ref : BlockRef} {forward : Bool}
    (start : Holds before) (among : Among before ref) (live : before.blocks.Live ref)
    (handed : blockData platform depth running vdata ref before = .ok (forward, after)) :
    Goes Among Holds before after := by
  induction depth generalizing running vdata ref before forward after with
  | zero => cases handed
  | succ depth ih =>
      rcases kind : before.kind ref with _ | ⟨⟨name_, count_⟩ | _ | hook⟩
      · rw [blockData_plain kind] at handed
        cases handed
        exact carried.goes start among (.ignored vdata live (.inl kind))
      · rw [blockData_hello kind] at handed
        cases handed
        exact carried.goes start among (.counted vdata name_ count_ live kind)
      · by_cases command : ∃ payload, IsCommand platform vdata payload
        · obtain ⟨payload, command⟩ := command
          rw [blockData_command kind command] at handed
          split at handed
          · cases handed
          · rename_i is_ok next executed
            split at handed
            · cases handed
            · -- The reply is a flow of its own, with less fuel.
              unfold replied at handed
              split at handed
              · cases handed
              · rename_i final done
                cases handed
                have replying := carried.goes start among
                  (.executed vdata payload is_ok next live kind command executed)
                have reply := carried.processData
                  (fun sink middle forward next holds among' live' => ih holds among' live')
                  replying.1 (replying.2 ref among) done
                exact replying.trans reply
        · have deaf := not_exists.mp command
          rw [blockData_transPb kind deaf] at handed
          cases handed
          exact carried.goes start among (.ignored vdata live (.inr ⟨kind, deaf⟩))
      · rw [blockData_hook kind] at handed
        cases handed
        exact carried.goes start among (.sent vdata hook live kind)

/-- What a hook does with an event keeps it. -/
theorem onFd (carried : Carried platform Among Holds) {fuel : Nat} {desc : FileDesc}
    (start : Holds before) (among : ∀ ref, desc.bk = some ref → Among before ref)
    (done : onFd platform fuel desc before = .ok after) : Holds after := by
  unfold C3qo.onFd at done
  split at done
  · cases done
    exact start
  · rename_i ref owner
    split at done
    · cases done
    · split at done
      · rename_i hook kind
        split_ifs at done with own
        · rcases received : hook.recv_ Buffer.empty before.world.zmq with ⟨_ | _, buf, zmq⟩
          · rw [received] at done
            cases done
            exact carried.step _ _ _ start (among ref owner) (.missed hook buf zmq kind received)
          · rw [received] at done
            have fetched := carried.goes start (among ref owner)
              (.fetched hook buf zmq kind received)
            have flown := carried.processData (fun _ _ _ _ holds among' live =>
              carried.blockData holds among' live) fetched.1 (fetched.2 ref (among ref owner)) done
            exact flown.1
        · cases done
          exact start
      · cases done
        exact start

end Carried

/-- A step of some block, or the arrival of a message. -/
def AnyStep (platform : Platform) (before after : BlockManager) : Prop :=
  (∃ ref, BlockStep platform before ref after) ∨ ∃ message, after = before.arrive message

/-- What happens in the main loop is a sequence of steps. -/
theorem steps_of_run {platform : Platform} {activities : List Activity}
    {before after : BlockManager}
    (execution : Execution.run (Activity.perform platform) activities before = some after) :
    ReflTransGen (AnyStep platform) before after := by
  have carried : Carried platform (fun _ _ => True) (ReflTransGen (AnyStep platform) before) :=
    ⟨fun _ _ _ _ _ _ _ _ => trivial, fun _ ref _ steps _ step => steps.tail (.inl ⟨ref, step⟩),
      fun _ _ _ _ _ _ _ _ => trivial⟩
  refine Execution.invariant_of_run (fun activity state next steps taken => ?_) .refl execution
  cases activity with
  | arrive address parts =>
      obtain rfl := Option.some.inj taken
      exact steps.tail (.inr ⟨(address, parts), rfl⟩)
  | onFd desc fuel =>
      exact carried.onFd steps (fun _ _ => trivial) (perform_onFd_iff.mp taken).2

/-- Records are never taken back. -/
theorem log_of_step {platform : Platform} {before after : BlockManager}
    (step : AnyStep platform before after) : before.world.log <+: after.world.log := by
  rcases step with ⟨ref, step⟩ | ⟨message, rfl⟩
  · rcases step.records with same | ⟨vdata, started, log⟩ | ⟨vdata, started, payload, is_ok, log⟩
    · rw [same]
    · rw [log]
      exact List.prefix_append _ _
    · rw [log, List.append_assoc]
      exact List.prefix_append _ _
  · exact List.prefix_rfl

theorem log_of_run {platform : Platform} {activities : List Activity}
    {before after : BlockManager}
    (execution : Execution.run (Activity.perform platform) activities before = some after) :
    before.world.log <+: after.world.log := by
  have steps := steps_of_run execution
  clear execution
  induction steps with
  | refl => exact List.prefix_rfl
  | tail _ step ih => exact ih.trans (log_of_step step)

end C3qo
