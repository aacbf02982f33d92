import C3qo.CallTree

/-!
# The states that `c3qo` passes

Not only the states between two events: also those in which a call is made in the middle of a data
flow, when a message has been received and its command has or has not been executed yet.
-/

namespace C3qo

/-- A state of `c3qo` in which it waits for an event, or in which a call is made while it handles
one, whether or not that comes to an end. -/
inductive Visited (platform : Platform) (identity : String) : BlockManager → Prop
  /-- The main loop waits. -/
  | waiting (activities : List Activity) (manager : BlockManager)
      (execution : Execution.run (Activity.perform platform) activities
        (c3qoMain platform identity) = some manager) :
      Visited platform identity manager
  /-- A call is made. -/
  | calling (activities : List Activity) (manager : BlockManager)
      (execution : Execution.run (Activity.perform platform) activities
        (c3qoMain platform identity) = some manager)
      (desc : FileDesc) (polled : desc ∈ manager.world.polling.callback_) (fuel : Nat)
      (call : FlowCall) (made : call ∈ (onFdCalls platform fuel desc manager).1) :
      Visited platform identity call.manager

namespace Steady

variable {platform : Platform} {Holds : BlockManager → Prop} (steady : Steady platform Holds)
  {fuel : Nat} {before : BlockManager}

include steady

/-- It holds whenever a block is called in a flow. -/
theorem calls {running : List BlockRef} {vdata : Option Buffer} {ref : BlockRef}
    (start : Holds before) :
    ∀ call ∈ (blockDataCalls platform fuel running vdata ref before).1, Holds call.manager := by
  induction fuel generalizing running vdata ref before with
  | zero => exact fun call member => absurd member List.not_mem_nil
  | succ fuel ih =>
      intro call member
      by_cases command : ∃ payload, before.kind ref = some .transPb ∧
        IsCommand platform vdata payload
      · obtain ⟨payload, kind, command⟩ := command
        have start' : Holds (commanded before ref vdata payload) :=
          steady.record _ _ (steady.record _ _ start)
        rw [blockDataCalls_command kind command] at member
        dsimp only at member
        split at member
        · simp only [List.mem_cons, List.not_mem_nil, or_false] at member
          rcases member with rfl | rfl
          · exact start
          · exact start'
        · rename_i is_ok after executed
          have executed' := steady.protoCommandParse start' executed
          split at member
          · simp only [List.mem_cons, List.not_mem_nil, or_false] at member
            rcases member with rfl | rfl
            · exact start
            · exact start'
          · simp only [List.cons_append, List.nil_append, List.mem_cons] at member
            rcases member with rfl | rfl | rfl | later
            · exact start
            · exact start'
            · exact executed'
            · -- The reply is a flow of its own, with less fuel.
              refine mem_processDataCalls Holds (fun call : FlowCall => Holds call.manager)
                (fun sink next holds => ih holds) (fun sink next final holds done => ?_)
                (steady.record _ _ executed') call later
              rw [snd_blockDataCalls] at done
              exact steady.blockData holds done
      · rw [blockDataCalls_plain fun payload kind taken => command ⟨payload, kind, taken⟩] at member
        obtain rfl := List.mem_singleton.mp member
        exact start

/-- It holds whenever a block is called while a hook handles an event. -/
theorem onFdCalls {desc : FileDesc} (start : Holds before) :
    ∀ call ∈ (onFdCalls platform fuel desc before).1, Holds call.manager := by
  rcases onFdCalls_cases platform fuel desc before with
    ⟨none, -⟩ | ⟨ref, hook, buf, zmq, kind, received, flow⟩
  · rw [none]
    exact fun call member => absurd member List.not_mem_nil
  · rw [flow]
    refine mem_processDataCalls Holds (fun call : FlowCall => Holds call.manager)
      (fun sink next holds => steady.calls holds) (fun sink next final holds done => ?_) ?_
    · rw [snd_blockDataCalls] at done
      exact steady.blockData holds done
    · have received' := steady.receipt start kind
      rw [received] at received'
      exact received'

/-- It holds in every state that `c3qo` passes. -/
theorem visited (fresh : Holds (Manager.new World.empty))
    (resumed : ∀ manager, Holds manager → Holds manager.start_) {identity : String}
    {manager : BlockManager} (visited : Visited platform identity manager) : Holds manager := by
  cases visited with
  | waiting activities manager execution => exact steady.of_run fresh resumed execution
  | calling activities manager execution desc polled fuel call made =>
      exact steady.onFdCalls (steady.of_run fresh resumed execution) call made

end Steady

end C3qo
