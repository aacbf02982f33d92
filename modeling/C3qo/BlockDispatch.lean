import C3qo.MainLoop

/-!
# Dispatch to the blocks

A pass of `fd_poll` over the blocks of the repository is a pass over callbacks that make certain
calls of `fd_add` and `fd_remove`. What is known of such passes holds for the blocks: as long as no
block is stopped in the course of a pass and the tables stay where they are, exactly the ready
descriptors are dispatched, once each and in table order.
-/

namespace C3qo

/-- A pass looks at the positions from its own on. -/
theorem fdPollLoop_congr {onFd onFd' : Nat → FileDesc → List FdCall}
    {uninit uninit' : Nat → Nat → Nat} {ret left position count : Nat}
    (same : ∀ index, position ≤ index → onFd index = onFd' index ∧ uninit index = uninit' index)
    (polling : Polling) :
    fdPollLoop onFd uninit ret left position count polling =
      fdPollLoop onFd' uninit' ret left position count polling := by
  induction left generalizing position count polling with
  | zero => rfl
  | succ left ih =>
      have later : ∀ index, position + 1 ≤ index →
          onFd index = onFd' index ∧ uninit index = uninit' index :=
        fun index bound => same index (by omega)
      obtain ⟨calls, memory⟩ := same position (Nat.le_refl _)
      simp only [fdPollLoop, calls, memory, ih later]

/-- A pass over the blocks and a walk over callbacks that make certain calls, of which none removes
an entry where no block is stopped. The walk does not mind where the tables are. -/
structure Reflects (manager : BlockManager) (pass : Pass) (onFd : Nat → FileDesc → List FdCall)
    (walk : List PollEvent × Polling) : Prop where
  /-- Entries are removed where blocks are stopped. -/
  removals : ∃ events, pass.manager.trace = manager.trace ++ events ∧
    ∀ position desc removed, .fdRemove removed ∈ onFd position desc → ∃ ref, .stop_ ref ∈ events
  /-- The pass dispatches what the walk begins with. -/
  begins : pass.dispatched <+: dispatched walk.1
  /-- That is all unless the tables are moved. -/
  whole : pass.moved = false → dispatched walk.1 = pass.dispatched
  /-- The walk reads the position outside the tables that the pass reads, if any. -/
  outside : ∀ position, pass.outside = some position → .outside position ∈ walk.1

/-- A pass that ends where it is. -/
theorem reflects_still (manager : BlockManager) :
    Reflects manager ⟨[], none, false, manager⟩ (fun _ _ => []) ([], manager.world.polling) where
  removals := ⟨[], (List.append_nil _).symm, by simp⟩
  begins := List.prefix_refl _
  whole _ := rfl
  outside := by simp

/-- Where the tables have been moved, any walk will do. -/
theorem reflects_moved (manager : BlockManager) (walk : List PollEvent × Polling) :
    Reflects manager ⟨[], none, true, manager⟩ (fun _ _ => []) walk where
  removals := ⟨[], (List.append_nil _).symm, by simp⟩
  begins := List.nil_prefix
  whole unmoved := by cases unmoved
  outside := by simp

section

variable {platform : Platform} {fuel ret capacity left position count : Nat}
  {manager : BlockManager} {pass : Pass}

/-- The first callback of a pass, and the rest of it. -/
theorem Reflects.dispatch (position : Nat) (desc : FileDesc) {next : BlockManager}
    {made : FdCalls} {onFd : Nat → FileDesc → List FdCall} {walk : List PollEvent × Polling}
    (trace : ∃ events, next.trace = manager.trace ++ events ∧
      ∀ removed, .fdRemove removed ∈ made.calls → ∃ ref, .stop_ ref ∈ events)
    (rest : Reflects next pass onFd walk) :
    Reflects manager (pass.after desc)
      (fun index => if index = position then fun _ => made.calls else onFd index)
      (.dispatch desc ::
        ((performFdCalls made.uninit made.calls manager.world.polling).1 ++ walk.1), walk.2) := by
  obtain ⟨events, made_trace, removed⟩ := trace
  obtain ⟨later, rest_trace, removed'⟩ := rest.removals
  have removal : ∀ event ∈ (performFdCalls made.uninit made.calls manager.world.polling).1,
      ∃ desc : FileDesc, event = .remove desc.key :=
    fun event member => (performFdCalls_events member).imp fun desc found => found.2
  have first := @dispatched_callback desc _ removal walk.1
  refine ⟨⟨events ++ later, ?_, fun index desc gone call => ?_⟩, ?_, fun unmoved => ?_,
    fun index read => ?_⟩
  · rw [Pass.manager_after, rest_trace, made_trace, List.append_assoc]
  · split_ifs at call
    · obtain ⟨ref, stopped⟩ := removed gone call
      exact ⟨ref, List.mem_append_left _ stopped⟩
    · obtain ⟨ref, stopped⟩ := removed' index desc gone call
      exact ⟨ref, List.mem_append_right _ stopped⟩
  · rw [first]
    exact (List.prefix_cons_inj desc).mpr rest.begins
  · rw [first, rest.whole unmoved]
    rfl
  · exact List.mem_cons_of_mem _ (List.mem_append_right _ (rest.outside index read))

/-- Every pass over the blocks is such a walk. -/
theorem fdPollLoop_reflects
    (done : manager.fdPollLoop platform fuel ret capacity left position count = .ok pass) :
    ∃ onFd uninit, Reflects manager pass onFd
      (fdPollLoop onFd uninit ret left position count manager.world.polling) := by
  induction left generalizing position count manager pass with
  | zero =>
      cases done
      exact ⟨_, fun _ _ => 0, reflects_still manager⟩
  | succ left ih =>
      rcases BlockManager.fdPollLoop_cases platform fuel position manager with
        missing | ⟨item, desc, polled, callback, idle | ⟨ready, ⟨fault, called⟩ | ⟨next, called⟩⟩⟩
      · rw [BlockManager.fdPollLoop_outside missing] at done
        cases done
        refine ⟨fun _ _ => [], fun _ _ => 0, ?_⟩
        simp only [fdPollLoop, missing]
        exact ⟨⟨[], (List.append_nil _).symm, by simp⟩, List.nil_prefix, fun _ => rfl,
          by simp [eq_comm]⟩
      · rw [BlockManager.fdPollLoop_idle polled callback idle] at done
        split_ifs at done with full
        · cases done
          refine ⟨fun _ _ => [], fun _ _ => 0, ?_⟩
          simp only [fdPollLoop, polled, callback, idle, full]
          exact reflects_still manager
        · obtain ⟨onFd, uninit, rest⟩ := ih done
          refine ⟨onFd, uninit, ?_⟩
          simp only [fdPollLoop, polled, callback, idle, if_neg full]
          exact rest
      · rw [BlockManager.fdPollLoop_fault polled callback ready called] at done
        cases done
      · obtain ⟨made, -, later⟩ := onFd_calls platform fuel desc manager
        obtain ⟨polling, trace⟩ := later next called
        have performed : (performFdCalls made.uninit made.calls manager.world.polling).2 =
          next.world.polling := polling.symm
        rw [BlockManager.fdPollLoop_ready polled callback ready called] at done
        split_ifs at done with last moved
        · cases done
          have alone := Reflects.dispatch position desc trace (reflects_still next)
          rw [List.append_nil] at alone
          refine ⟨fun index => if index = position then fun _ => made.calls else fun _ => [],
            fun _ => made.uninit, ?_⟩
          simp only [fdPollLoop, polled, callback, ready, last, if_true, performed]
          exact alone
        · cases done
          refine ⟨fun index => if index = position then fun _ => made.calls else fun _ => [],
            fun _ => made.uninit, ?_⟩
          simp only [fdPollLoop, polled, callback, ready, if_true, if_neg last, performed]
          exact .dispatch position desc trace (reflects_moved next _)
        · obtain ⟨rest, walked, rfl⟩ := map_eq_ok done
          obtain ⟨onFd, uninit, reflects⟩ := ih walked
          refine ⟨fun index => if index = position then fun _ => made.calls else onFd index,
            fun index => if index = position then made.uninit else uninit index, ?_⟩
          have whole := Reflects.dispatch position desc trace reflects
          have later : ∀ index, position + 1 ≤ index →
              (if index = position then fun _ => made.calls else onFd index) = onFd index ∧
                (if index = position then made.uninit else uninit index) = uninit index := by
            intro index bound
            rw [if_neg (by omega), if_neg (by omega)]
            exact ⟨rfl, rfl⟩
          simp only [fdPollLoop, polled, callback, ready, if_true, if_neg last, performed]
          rw [fdPollLoop_congr later]
          exact whole

/-- The tables are moved where they outgrow their room. -/
theorem fdPollLoop_moved
    (done : manager.fdPollLoop platform fuel ret capacity left position count = .ok pass)
    (moved : pass.moved = true) : capacity < pass.manager.world.polling.callback_.length := by
  induction left generalizing position count manager pass with
  | zero =>
      cases done
      cases moved
  | succ left ih =>
      rcases BlockManager.fdPollLoop_cases platform fuel position manager with
        missing | ⟨item, desc, polled, callback, idle | ⟨ready, ⟨fault, called⟩ | ⟨next, called⟩⟩⟩
      · rw [BlockManager.fdPollLoop_outside missing] at done
        cases done
        cases moved
      · rw [BlockManager.fdPollLoop_idle polled callback idle] at done
        split_ifs at done
        · cases done
          cases moved
        · exact ih done moved
      · rw [BlockManager.fdPollLoop_fault polled callback ready called] at done
        cases done
      · rw [BlockManager.fdPollLoop_ready polled callback ready called] at done
        split_ifs at done with last full
        · cases done
          cases moved
        · cases done
          exact full
        · obtain ⟨rest, walked, rfl⟩ := map_eq_ok done
          have moved' : rest.moved = true := moved
          have outgrown := ih walked moved'
          exact outgrown

end

/-- In a pass in which no block is stopped, `fd_poll` stays inside its tables and dispatches
descriptors that were registered and ready when it polled, once each and in table order, whatever
else the callbacks do: all of them, unless it adds entries for which the tables must be moved. -/
theorem fdPoll_dispatches_ready (platform : Platform) (fuel spare : Nat)
    (revents : PollKey → Nat) (manager : BlockManager) (ret : Int) (pass : Pass)
    (done : manager.fdPoll platform fuel spare (some revents) = .ok (ret, pass))
    (unstopped : ∀ events, pass.manager.trace = manager.trace ++ events →
      ∀ ref, .stop_ ref ∉ events) :
    let ready := manager.world.polling.callback_.filter (readyDesc revents)
    ret = manager.world.polling.returned revents ∧ pass.outside = none ∧
      pass.dispatched <+: ready ∧ (pass.moved = false → pass.dispatched = ready) ∧
      (pass.moved = true → manager.world.polling.callback_.length + spare <
        pass.manager.world.polling.callback_.length) := by
  intro ready
  let polled := manager.withPolling (manager.world.polling.setRevents revents)
  have enough := manager.world.polling.countP_readyDesc_le revents
  by_cases idle : manager.world.polling.returned revents = 0
  · have none_ready : manager.world.polling.callback_.filter (readyDesc revents) = [] :=
      List.filter_eq_nil_iff.mpr (List.countP_eq_zero.mp (by omega))
    rw [BlockManager.fdPoll_of_idle platform fuel spare idle] at done
    cases done
    exact ⟨by rw [idle]; rfl, rfl, List.nil_prefix, fun _ => none_ready.symm,
      fun moved => by cases moved⟩
  · rw [BlockManager.fdPoll_of_returned platform fuel spare idle] at done
    obtain ⟨pass, walked, same⟩ := map_eq_ok done
    obtain ⟨rfl, rfl⟩ := Prod.mk.inj same
    obtain ⟨onFd, uninit, reflects⟩ := fdPollLoop_reflects walked
    obtain ⟨events, trace, removals⟩ := reflects.removals
    have harmless : Harmless manager.world.polling revents onFd
        (manager.world.polling.returned revents) := by
      refine .inl fun position desc _ _ _ _ removed call => ?_
      obtain ⟨ref, stopped⟩ := removals position desc removed call
      exact absurd stopped (unstopped events trace ref)
    have whole := walked_of_harmless harmless uninit idle
    refine ⟨rfl, ?_, ?_, fun unmoved => ?_, fdPollLoop_moved walked⟩
    · rw [Option.eq_none_iff_forall_ne_some]
      intro position outside
      exact whole.inside position (reflects.outside position outside)
    · exact reflects.begins.trans (whole.dispatches ▸ List.prefix_refl _)
    · rw [← reflects.whole unmoved]
      exact whole.dispatches

/-- A pass in which a remote command is executed. -/
theorem fdPoll_dispatches_command :
    let platform := Platform.plain fun _ => some (.add 7 "hello")
    let manager : BlockManager := (c3qoMain platform "c3qo").arrive
      (clientDesc.socket, [.ofBytes (ascii "PROTO.CMD"), .ofBytes [1]])
    ∃ ret pass, manager.fdPoll platform 2 0 (some fun _ => ZMQ_POLLIN) = .ok (ret, pass) ∧
      pass.manager.blockGet 7 ≠ none ∧ pass.dispatched = [clientDesc] ∧
      pass.dispatched <+: manager.world.polling.callback_.filter
        (readyDesc fun _ => ZMQ_POLLIN) := by
  intro platform manager
  have outcome : (manager.fdPoll platform 2 0 (some fun _ => ZMQ_POLLIN)).toOption.map
      (fun result => ((result.2.manager.trace.drop manager.trace.length).all
        fun event => !(event matches .stop_ _), (result.2.manager.blockGet 7).isSome,
          result.2.dispatched)) = some (true, true, [clientDesc]) := by
    decide +kernel
  rcases done : manager.fdPoll platform 2 0 (some fun _ => ZMQ_POLLIN) with fault | ⟨ret, pass⟩
  · rw [done] at outcome
    cases outcome
  · rw [done] at outcome
    obtain ⟨quiet, rest⟩ := Prod.mk.inj (Option.some.inj outcome)
    obtain ⟨added, dispatched⟩ := Prod.mk.inj rest
    have unstopped : ∀ events, pass.manager.trace = manager.trace ++ events →
        ∀ ref, .stop_ ref ∉ events := by
      intro events trace ref stopped
      rw [trace, List.drop_left, List.all_eq_true] at quiet
      cases quiet _ stopped
    obtain ⟨-, -, begins, -⟩ :=
      fdPoll_dispatches_ready platform 2 0 _ manager ret pass done unstopped
    exact ⟨ret, pass, rfl, Option.isSome_iff_ne_none.mp added, dispatched, begins⟩

end C3qo
