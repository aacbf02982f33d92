import C3qo.BlockClear
import C3qo.Registrations

/-!
# The end of a manager

`manager::~manager` drops the timers, then stops and deletes the blocks, and last forgets the
factories. What the blocks have registered goes with them: if every block still has a factory and
no `zmq_ctx_term` is interrupted, nothing is left of timers, polling set, contexts and sockets,
whatever has happened before.
-/

namespace C3qo

/-- Without interruptions no step is interrupted. -/
theorem uninterrupted_of_calm {host : Host} (calm : ∀ call, host.interrupted call = false)
    (step : HostStep) (manager : HostManager) : Uninterrupted host step manager := by
  unfold Uninterrupted
  split
  · exact fun _ _ _ _ => calm _
  · exact fun _ _ _ _ => calm _
  · trivial

/-- Steps that stop no interrupted hook keep registrations settled. -/
theorem Settled.run {host : Host} {steps : List HostStep} {manager final : HostManager}
    (settled : Settled manager.blocks manager.world) (passive : host.KeepsTables)
    (calm : ∀ step ∈ steps, ∀ manager, Uninterrupted host step manager)
    (execution : Execution.run (HostStep.perform host) steps manager = some final) :
    Settled final.blocks final.world := by
  induction steps generalizing manager with
  | nil =>
      obtain rfl := Option.some.inj execution
      exact settled
  | cons step steps ih =>
      obtain ⟨next, taken, rest⟩ := Option.bind_eq_some_iff.mp execution
      obtain ⟨now, later⟩ := List.forall_mem_cons.mp calm
      exact ih (settled.step passive (now manager) taken) later rest

/-- Nothing is left of what a program has registered. -/
structure HostManager.Bare (manager : HostManager) : Prop where
  /-- There are no blocks. -/
  blocks : ∀ ref, manager.blocks.deref ref = none
  /-- No identifier is in use. -/
  ids : ∀ id, manager.blockGet id = none
  /-- There are no timers. -/
  timers : manager.world.world.tm_list_ = []
  /-- Nothing is polled. -/
  callbacks : manager.world.world.polling.callback_ = []
  /-- Nothing is given to `zmq_poll`. -/
  items : manager.world.world.polling.fd_ = []
  /-- No context is open. -/
  contexts : manager.world.world.zmq.contexts = ∅
  /-- No socket is open. -/
  sockets : ∀ address, manager.world.world.zmq.lookup (some address) = none

/-- Without blocks, what is settled is nothing. -/
theorem Settled.bare {manager : HostManager} (settled : Settled manager.blocks manager.world)
    (blocks : ∀ ref, manager.blocks.deref ref = none) : manager.Bare := by
  have registrations := settled.registrations
  have idle : ∀ ref, manager.blocks.started ref = false := by
    intro ref
    unfold Registry.started
    rw [blocks ref]
  have not_running : ∀ ref, ¬ Running manager ref := fun ref running => by
    cases (idle ref).symm.trans running.2
  have no_hook : ∀ ref hook, ¬ RunningHook manager ref hook := fun ref hook running => by
    cases (idle ref).symm.trans running.1
  have no_callback : manager.world.world.polling.callback_ = [] := by
    refine List.eq_nil_iff_forall_not_mem.mpr fun desc member => ?_
    obtain ⟨ref, -, running⟩ := registrations.entries desc member
    exact not_running ref running
  refine ⟨blocks, fun id => ?_, ?_, no_callback, ?_, ?_, fun address => ?_⟩
  · by_contra found
    obtain ⟨ref, there⟩ := Option.ne_none_iff_exists'.mp found
    obtain ⟨block, object, -⟩ := manager.blocks.mapped id ref there
    cases (blocks ref).symm.trans object
  · refine List.eq_nil_iff_forall_not_mem.mpr fun timer member => ?_
    obtain ⟨ref, -, running⟩ := registrations.timers timer member
    exact not_running ref running
  · refine List.eq_nil_iff_forall_not_mem.mpr fun item member => ?_
    obtain ⟨desc, callback, -⟩ := registrations.items item member
    rw [no_callback] at callback
    cases callback
  · refine Finset.eq_empty_iff_forall_notMem.mpr fun ctx member => ?_
    obtain ⟨ref, hook, running, -⟩ := (registrations.contexts ctx).mp member
    exact no_hook ref hook running
  · by_contra found
    obtain ⟨ref, hook, running, -⟩ :=
      (registrations.sockets address).mp (Option.isSome_iff_ne_none.mpr found)
    exact no_hook ref hook running

/-- `manager::timer_clear`. -/
def HostWorld.timerClear (state : HostWorld) : HostWorld :=
  { state with world := { state.world with tm_list_ := [] } }

/-- The loop of `block_clear` keeps registrations settled. -/
theorem Settled.blockClear {host : Host} {order : List Int} {manager after : HostManager}
    (settled : Settled manager.blocks manager.world) (passive : host.KeepsTables)
    (calm : ∀ call, host.interrupted call = false)
    (cleared : manager.blockClear (hostVirtual host) order = some after) :
    Settled after.blocks after.world := by
  induction order generalizing manager with
  | nil =>
      obtain ⟨-, same⟩ := Option.ite_none_right_eq_some.mp cleared
      obtain rfl := Option.some.inj same
      exact settled
  | cons id order ih =>
      obtain ⟨there, rest⟩ := Option.ite_none_left_eq_some.mp cleared
      have taken : (HostStep.blockClearIter id).perform host manager =
          some (manager.blockClearIter (hostVirtual host) id) := if_neg there
      exact ih (settled.step passive (uninterrupted_of_calm calm _ manager) taken) rest

/-- When the map is empty there are no blocks. -/
theorem Emptied.deref {F W : Type} {before after : Manager F W} (emptied : Emptied before after)
    (ref : BlockRef) : after.blocks.deref ref = none := by
  by_contra there
  obtain ⟨block, object⟩ := Option.ne_none_iff_exists'.mp there
  have mapped : after.blocks.bk_map_.lookup block.id_ = some ref := Registry.id_of_deref object
  rw [emptied.empty, Finmap.lookup_empty] at mapped
  cases mapped

end C3qo
