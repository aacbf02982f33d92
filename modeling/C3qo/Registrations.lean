import C3qo.Dispatch
import C3qo.Host

/-!
# Registrations follow the life of their owner

What blocks register with the manager and with ZeroMQ while they are started is gone when they are
stopped: pending timers, polling entries, sockets and contexts. The one way to lose a context is an
interruption of `zmq_ctx_term`.
-/

namespace C3qo

/-- The block is in the map and started. -/
def Running (manager : HostManager) (ref : BlockRef) : Prop :=
  (∃ id, manager.blockGet id = some ref) ∧ manager.blocks.started ref = true

/-- The block is a started hook. -/
def RunningHook (manager : HostManager) (ref : BlockRef) (hook : HookZmq) : Prop :=
  manager.blocks.started ref = true ∧ manager.hook ref = some hook

/-- Registrations follow the life of their owner. -/
structure Registrations (manager : HostManager) : Prop where
  /-- Pending timers belong to started blocks. -/
  timers : ∀ timer ∈ manager.world.world.tm_list_, ∃ ref, timer.bk = some ref ∧ Running manager ref
  /-- Polling entries belong to started blocks. -/
  entries : ∀ desc ∈ manager.world.world.polling.callback_, ∃ ref, desc.bk = some ref ∧
    Running manager ref
  /-- The socket of an entry is open, and is the one of the hook. -/
  polled : ∀ desc ∈ manager.world.world.polling.callback_, ∃ ref hook, desc.bk = some ref ∧
    RunningHook manager ref hook ∧ hook.zmq_sock_.socket = desc.socket ∧
    (manager.world.world.zmq.lookup desc.socket).isSome
  /-- The items given to `zmq_poll` are those of the entries. -/
  items : ∀ item ∈ manager.world.world.polling.fd_,
    ∃ desc ∈ manager.world.world.polling.callback_, desc.key = item.key
  /-- A started hook has one entry if its last `start_` got past bind and connect, and none
  otherwise. -/
  once : ∀ ref hook, RunningHook manager ref hook →
    manager.world.world.polling.callback_.countP (fun desc => desc.bk = some ref) =
      if ref ∈ manager.world.joined then 1 else 0
  /-- The open contexts are those of the started hooks. -/
  contexts : ∀ ctx, ctx ∈ manager.world.world.zmq.contexts ↔
    ∃ ref hook, RunningHook manager ref hook ∧ hook.zmq_ctx_ = ctx
  /-- The open sockets are those of the started hooks. -/
  sockets : ∀ address, (manager.world.world.zmq.lookup (some address)).isSome ↔
    ∃ ref hook, RunningHook manager ref hook ∧ hook.zmq_sock_.socket = some address
  /-- No two started hooks share a context or a socket. -/
  apart : ∀ ref other hook hook', RunningHook manager ref hook → RunningHook manager other hook' →
    (hook.zmq_ctx_ = hook'.zmq_ctx_ ∨
      hook.zmq_sock_.socket ≠ none ∧ hook.zmq_sock_.socket = hook'.zmq_sock_.socket) → ref = other

/-- The step stops no started hook whose `zmq_ctx_term` is interrupted; the call before that one is
`zmq_close`. -/
def Uninterrupted (host : Host) (step : HostStep) (manager : HostManager) : Prop :=
  match step with
  | .operation (.blockStop id) | .blockClearIter id =>
      ∀ ref hook, manager.blockGet id = some ref → RunningHook manager ref hook →
        host.interrupted (manager.world.world.zmq.calls + 1) = false
  | _ => True

/-- What is registered, in terms of the claims of the started hooks. -/
structure Settled (blocks : Registry) (state : HostWorld) : Prop where
  /-- Contexts and sockets are those that are claimed. -/
  tidy : Tidy (state.world.claims blocks) state.world.zmq
  /-- All timers are those of started `ncli` blocks, which share one identifier. -/
  timers : ∀ timer ∈ state.world.tm_list_, timer.tid = 1 ∧ ∃ ref, timer.bk = some ref ∧
    blocks.started ref = true ∧ ref ∈ state.nclis ∧ state.world.derived.lookup ref = none
  /-- A claimed descriptor that has been registered is complete. -/
  complete : ∀ ref claim, state.world.claims blocks ref = some claim → ref ∈ state.joined →
    ∃ address, claim.desc = ⟨some ref, -1, some address, true, false⟩
  /-- The entries are the claimed descriptors that have been registered. -/
  entries : ∀ desc, desc ∈ state.world.polling.callback_ ↔
    ∃ ref claim, state.world.claims blocks ref = some claim ∧ ref ∈ state.joined ∧
      claim.desc = desc

namespace Settled

variable {host : Host} {blocks blocks' : Registry} {state state' : HostWorld}

/-- The claims, the timers and their owners matter. -/
theorem congr (settled : Settled blocks state)
    (claims : state'.world.claims blocks' = state.world.claims blocks)
    (zmq : state.world.zmq.Keeps state'.world.zmq)
    (polling : state'.world.polling.callback_ = state.world.polling.callback_)
    (joined : state'.joined = state.joined)
    (timers : ∀ timer ∈ state'.world.tm_list_, timer ∈ state.world.tm_list_)
    (owners : ∀ ref, blocks.started ref = true → ref ∈ state.nclis →
      state.world.derived.lookup ref = none → blocks'.started ref = true ∧ ref ∈ state'.nclis ∧
        state'.world.derived.lookup ref = none) :
    Settled blocks' state' := by
  refine ⟨?_, fun timer member => ?_, ?_, ?_⟩
  · rw [claims]
    exact settled.tidy.keeps zmq
  · obtain ⟨tid, ref, bk, running, ncli, kind⟩ := settled.timers timer (timers timer member)
    exact ⟨tid, ref, bk, owners ref running ncli kind⟩
  · rw [claims, joined]
    exact settled.complete
  · rw [claims, joined, polling]
    exact settled.entries

/-- A block without a polled descriptor has no entry. -/
theorem entry_owner (settled : Settled blocks state) {desc : FileDesc}
    (member : desc ∈ state.world.polling.callback_) : ∃ ref claim,
      desc.bk = some ref ∧ state.world.claims blocks ref = some claim ∧ ref ∈ state.joined ∧
        claim.desc = desc := by
  obtain ⟨ref, claim, held, joined, rfl⟩ := (settled.entries desc).mp member
  obtain ⟨address, complete⟩ := settled.complete ref claim held joined
  exact ⟨ref, claim, by rw [complete], held, joined, rfl⟩

theorem insert (settled : Settled blocks state) {factory : HostFactory} {built : Bool}
    (answer : state.constructor host factory blocks.next = (built, state')) (id : Int)
    (type_ : String) (free : blocks.get id = none) :
    Settled (blocks.insert id type_ free) state' := by
  cases factory with
  | ncli =>
      obtain ⟨rfl, rfl⟩ := Prod.mk.inj answer
      refine settled.congr ?_ (.refl _) rfl rfl (fun _ member => member) ?_
      · exact World.claims_congr (blocks.started_insert id type_ free) fun _ _ => rfl
      · intro ref running ncli kind
        exact ⟨(blocks.started_insert id type_ free ref).trans running,
          Finset.mem_insert_of_mem ncli, kind⟩
  | block factory =>
      rcases made : state.world.constructor host.platform factory blocks.next with ⟨ok, world⟩
      simp only [HostWorld.constructor, made, Prod.mk.injEq] at answer
      obtain ⟨rfl, rfl⟩ := answer
      obtain ⟨timers, polling, zmq, others⟩ := World.constructor_frame made
      refine settled.congr (World.claims_insert made id type_ free) ?_ ?_ rfl ?_ ?_
      · exact zmq ▸ .refl _
      · exact congrArg Polling.callback_ polling
      · exact fun timer member => timers ▸ member
      · intro ref running ncli kind
        exact ⟨(blocks.started_insert id type_ free ref).trans running, ncli,
          (others ref (Registry.ne_next_of_started running)).trans kind⟩

theorem remove (settled : Settled blocks state) {ref : BlockRef} {block : Block}
    (object : blocks.deref ref = some block) (idle : block.is_started_ = false) :
    Settled (blocks.remove block.id_) (state.destructor ref) := by
  refine settled.congr (World.claims_destructor object idle) (.refl _) rfl rfl
    (fun _ member => member) fun other running ncli kind => ?_
  have different := Registry.ne_of_started object idle running
  exact ⟨(Registry.started_remove object idle other).trans running,
    Finset.mem_erase.mpr ⟨different, ncli⟩, (Finmap.lookup_erase_ne different).trans kind⟩

theorem setSink (settled : Settled blocks state) (ref sink : BlockRef) :
    Settled (blocks.setSink ref sink) state := by
  refine settled.congr ?_ (.refl _) rfl rfl (fun _ member => member) fun other running ncli kind =>
    ⟨(blocks.started_setSink ref sink other).trans running, ncli, kind⟩
  exact World.claims_congr (blocks.started_setSink ref sink) fun _ _ => rfl

theorem flow (settled : Settled blocks state) {world : World}
    (same : SameTables state.world world) :
    Settled blocks { state with world := world } := by
  refine settled.congr (World.claims_congr (fun _ => rfl) fun ref _ => same.claims ref) same.zmq
    (congrArg Polling.callback_ same.polling) rfl (fun timer member => same.tm_list_ ▸ member)
    fun ref running ncli kind => ⟨running, ncli, ?_⟩
  have factory := same.kinds ref
  rw [kind] at factory
  exact Option.map_eq_none_iff.mp factory

theorem drop_timers (settled : Settled blocks state) {tm_list_ : List Timer}
    (fewer : ∀ timer ∈ tm_list_, timer ∈ state.world.tm_list_) :
    Settled blocks { state with world := { state.world with tm_list_ := tm_list_ } } :=
  settled.congr rfl (.refl _) rfl rfl fewer fun _ running ncli kind => ⟨running, ncli, kind⟩

theorem configure (settled : Settled blocks state) {ref : BlockRef} {hook hook' : HookZmq}
    (there : state.world.derived.lookup ref = some (.hookZmq hook))
    (same : hook'.claim = hook.claim) :
    Settled blocks { state with world := { state.world with
      derived := state.world.derived.insert ref (.hookZmq hook') } } := by
  refine settled.congr (World.claims_congr (fun _ => rfl) fun other _ => ?_) (.refl _) rfl rfl
    (fun _ member => member) fun other running ncli kind => ⟨running, ncli, ?_⟩
  · by_cases here : other = ref
    · subst here
      rw [Finmap.lookup_insert, there]
      exact congrArg some same
    · rw [Finmap.lookup_insert_of_ne _ here]
  · rw [Finmap.lookup_insert_of_ne, kind]
    rintro rfl
    rw [kind] at there
    cases there

/-- A new claim comes with the entry of its descriptor, if that has been registered. -/
theorem claimed (settled : Settled blocks state) {ref : BlockRef} {made : Claim}
    (free : state.world.claims blocks ref = none)
    (claims : state'.world.claims blocks' =
      Function.update (state.world.claims blocks) ref (some made))
    (tidy : Tidy (state'.world.claims blocks') state'.world.zmq)
    (timers : ∀ timer ∈ state'.world.tm_list_, timer ∈ state.world.tm_list_)
    (owners : ∀ ref, blocks.started ref = true → ref ∈ state.nclis →
      state.world.derived.lookup ref = none → blocks'.started ref = true ∧ ref ∈ state'.nclis ∧
        state'.world.derived.lookup ref = none)
    (others : ∀ other, other ≠ ref → (other ∈ state'.joined ↔ other ∈ state.joined))
    (entry : if ref ∈ state'.joined then
        (∃ address, made.desc = ⟨some ref, -1, some address, true, false⟩) ∧
          state'.world.polling.callback_ = state.world.polling.callback_ ++ [made.desc]
      else
        state'.world.polling.callback_ = state.world.polling.callback_) :
    Settled blocks' state' := by
  have held_iff : ∀ other claim, state'.world.claims blocks' other = some claim ↔
      other = ref ∧ claim = made ∨ other ≠ ref ∧ state.world.claims blocks other = some claim := by
    intro other claim
    rw [claims, Function.update_apply]
    split_ifs with same <;> simp [same, eq_comm]
  have not_ref : ∀ other claim, state.world.claims blocks other = some claim → other ≠ ref := by
    rintro other claim held rfl
    rw [free] at held
    cases held
  refine ⟨tidy, fun timer member => ?_, fun other claim held joined => ?_, fun desc => ?_⟩
  · obtain ⟨tid, owner, bk, running, ncli, kind⟩ := settled.timers timer (timers timer member)
    exact ⟨tid, owner, bk, owners owner running ncli kind⟩
  · rcases (held_iff other claim).mp held with ⟨rfl, rfl⟩ | ⟨different, held⟩
    · rw [if_pos joined] at entry
      exact entry.1
    · exact settled.complete other claim held ((others other different).mp joined)
  · have old : desc ∈ state.world.polling.callback_ ↔ ∃ owner claim, owner ≠ ref ∧
        state'.world.claims blocks' owner = some claim ∧ owner ∈ state'.joined ∧
          claim.desc = desc := by
      rw [settled.entries]
      constructor
      · rintro ⟨owner, claim, held, joined, same⟩
        have different := not_ref owner claim held
        exact ⟨owner, claim, different, (held_iff owner claim).mpr (.inr ⟨different, held⟩),
          (others owner different).mpr joined, same⟩
      · rintro ⟨owner, claim, different, held, joined, same⟩
        rcases (held_iff owner claim).mp held with ⟨here, -⟩ | ⟨-, held⟩
        · exact absurd here different
        · exact ⟨owner, claim, held, (others owner different).mp joined, same⟩
    split_ifs at entry with joined
    · rw [entry.2, List.mem_append, List.mem_singleton, old]
      constructor
      · rintro (⟨owner, claim, -, found⟩ | rfl)
        · exact ⟨owner, claim, found⟩
        · exact ⟨ref, made, (held_iff ref made).mpr (.inl ⟨rfl, rfl⟩), joined, rfl⟩
      · rintro ⟨owner, claim, held, joined', same⟩
        rcases (held_iff owner claim).mp held with ⟨-, rfl⟩ | ⟨different, -⟩
        · exact .inr same.symm
        · exact .inl ⟨owner, claim, different, held, joined', same⟩
    · rw [entry, old]
      constructor
      · rintro ⟨owner, claim, -, found⟩
        exact ⟨owner, claim, found⟩
      · rintro ⟨owner, claim, held, joined', same⟩
        refine ⟨owner, claim, ?_, held, joined', same⟩
        rintro rfl
        exact joined joined'

/-- A hook that starts claims a socket of its own, and has an entry if it gets as far as that. -/
theorem start_hook (settled : Settled blocks state) {ref : BlockRef} {block : Block}
    (object : blocks.deref ref = some block) (idle : block.is_started_ = false) {hook : HookZmq}
    (there : state.world.derived.lookup ref = some (.hookZmq hook)) :
    Settled (blocks.setStarted ref true) (state.start_ host ref) := by
  have free : state.world.claims blocks ref = none := World.claims_of_idle object idle
  have claims := World.claims_start_hook host.platform object there
  obtain ⟨ctx, socket, kept⟩ :=
    hook.start_opens host.platform ref state.world.polling state.world.zmq
  have polled := hook.start_polling host.platform ref state.world.polling state.world.zmq
  have tidy := (settled.tidy.claim host.platform free
    (hook.start_ host.platform ref state.world.polling state.world.zmq).1.claim ctx
    socket).keeps kept
  have after : state.start_ host ref = { state with
      world := state.world.start_ host.platform ref
      joined := if hook.joins host.platform state.world.zmq then Insert.insert ref state.joined
        else state.joined.erase ref } := by
    simp only [HostWorld.start_, there]
  have world : state.world.start_ host.platform ref = state.world.withHook ref
      (hook.start_ host.platform ref state.world.polling state.world.zmq).1
      (hook.start_ host.platform ref state.world.polling state.world.zmq).2.1
      (hook.start_ host.platform ref state.world.polling state.world.zmq).2.2 := by
    simp only [World.start_, there]
  rw [after]
  refine settled.claimed free claims ?_ (fun timer member => ?_) (fun other running ncli kind => ?_)
    (fun other different => ?_) ?_
  · rw [claims, world]
    exact tidy
  · rw [world] at member
    exact member
  · have different : other ≠ ref := Registry.ne_of_started object idle running
    refine ⟨?_, ncli, ?_⟩
    · rw [Registry.started_setStarted object, if_neg different, running]
    · rw [world]
      exact (Finmap.lookup_insert_of_ne _ different).trans kind
  · dsimp only
    split_ifs <;> simp [different]
  · rw [world]
    dsimp only [World.withHook]
    split_ifs at polled ⊢ with joins member member
    · obtain ⟨address, uninit, desc, added⟩ := polled
      refine ⟨⟨address, desc⟩, ?_⟩
      rw [added, Polling.fdAdd_new]
      · rfl
      · rw [desc]
        exact ⟨by simp, .inr (by simp)⟩
      · -- An entry with this key would be the claim of another hook on the new socket.
        intro registered
        rw [Polling.keys_eq_callback] at registered
        obtain ⟨old, there_old, same⟩ := List.mem_map.mp registered
        obtain ⟨owner, claim, -, held, -, rfl⟩ := settled.entry_owner there_old
        have different : owner ≠ ref := by
          rintro rfl
          rw [free] at held
          cases held
        have named : claim.socket = some address := by
          have sockets := congrArg Prod.snd same
          rw [desc] at sockets
          exact sockets
        refine different (tidy.toCustody.socket_inj ?_ (Function.update_self ..) named ?_)
        · rw [Function.update_of_ne different]
          exact held
        · exact congrArg FileDesc.socket desc
    · exact absurd (Finset.mem_insert_self ref _) member
    · exact absurd rfl (Finset.mem_erase.mp member).1
    · exact congrArg Polling.callback_ polled

theorem start_other (settled : Settled blocks state) {ref : BlockRef} {block : Block}
    (object : blocks.deref ref = some block) (idle : block.is_started_ = false)
    (other : ∀ hook, state.world.derived.lookup ref ≠ some (.hookZmq hook)) :
    Settled (blocks.setStarted ref true) state := by
  refine settled.congr (World.claims_setStarted_other object idle other) (.refl _) rfl rfl
    (fun _ member => member) fun owner running ncli kind => ⟨?_, ncli, kind⟩
  rw [Registry.started_setStarted object,
    if_neg (Registry.ne_of_started object idle running), running]

/-- A started `ncli` gets the one timer there is. -/
theorem add_timer (settled : Settled blocks state) {ref : BlockRef}
    (running : blocks.started ref = true) (ncli : ref ∈ state.nclis)
    (kind : state.world.derived.lookup ref = none) (now : Timespec) (readings : Nat) :
    Settled blocks { state with
      world := { state.world with
        tm_list_ := (timerAdd now (ncliTimer ref) state.world.tm_list_).2 }
      readings := readings } := by
  refine ⟨settled.tidy, fun timer member => ?_, settled.complete, settled.entries⟩
  have valid : (ncliTimer ref).bk ≠ none := by simp [ncliTimer]
  have member' : timer ∈ (timerAdd now (ncliTimer ref) state.world.tm_list_).2 := member
  rw [timerAdd_eq_put valid] at member'
  rcases DeadlineQueue.mem_put.mp member' with rfl | ⟨old, -⟩
  · exact ⟨rfl, ref, rfl, running, ncli, kind⟩
  · exact settled.timers timer old

theorem start_ (settled : Settled blocks state) (passive : host.KeepsTables) {ref : BlockRef}
    {block : Block} (object : blocks.deref ref = some block) (idle : block.is_started_ = false) :
    Settled (blocks.setStarted ref true) (state.start_ host ref) := by
  rcases kind : state.world.derived.lookup ref with _ | derived
  · have waiting := settled.start_other object idle fun hook there => by
      rw [kind] at there
      cases there
    simp only [HostWorld.start_, kind]
    split_ifs with ncli
    · have same := passive state.readings ref state.world
      have kind' : (host.flow state.readings ref state.world).derived.lookup ref = none := by
        have factory := same.kinds ref
        rw [kind] at factory
        exact Option.map_eq_none_iff.mp factory
      refine (waiting.flow same).add_timer ?_ ncli kind' _ _
      rw [Registry.started_setStarted object, if_pos rfl]
    · exact waiting
  · by_cases hooked : ∃ hook, derived = .hookZmq hook
    · obtain ⟨hook, rfl⟩ := hooked
      exact settled.start_hook object idle kind
    · rw [HostWorld.start_of_other kind (not_exists.mp hooked)]
      refine settled.start_other object idle fun hook there => hooked ⟨hook, ?_⟩
      exact Option.some.inj (kind.symm.trans there)

/-- The owners of timers other than a block that stops stay started. -/
theorem owner_setStarted {ref other : BlockRef} {block : Block}
    (object : blocks.deref ref = some block) (different : other ≠ ref)
    (running : blocks.started other = true) :
    (blocks.setStarted ref false).started other = true := by
  rw [Registry.started_setStarted object, if_neg different, running]

/-- A hook that stops gives up its socket, its context and its entry. -/
theorem stop_hook (settled : Settled blocks state) {ref : BlockRef} {block : Block}
    (object : blocks.deref ref = some block) (running : block.is_started_ = true)
    {hook : HookZmq} (there : state.world.derived.lookup ref = some (.hookZmq hook)) :
    Settled (blocks.setStarted ref false) { state with world := state.world.stop_ ref } := by
  have claims : (state.world.stop_ ref).claims (blocks.setStarted ref false) =
      Function.update (state.world.claims blocks) ref none := World.claims_stop object
  have held := World.claims_of_hook ((Registry.started_of_deref object).trans running) there
  have world : state.world.stop_ ref = { state.world with
      polling := state.world.polling.fdRemove hook.zmq_sock_
      zmq := (state.world.zmq.close hook.zmq_sock_.socket).ctxTerm hook.zmq_ctx_ } := by
    simp only [World.stop_, there]
    rfl
  have held_iff : ∀ other claim, (state.world.stop_ ref).claims (blocks.setStarted ref false)
      other = some claim ↔ other ≠ ref ∧ state.world.claims blocks other = some claim := by
    intro other claim
    rw [claims, Function.update_apply]
    split_ifs with same <;> simp [same]
  refine ⟨?_, fun timer member => ?_, fun other claim held' joined => ?_, fun desc => ?_⟩
  · have tidy := settled.tidy.release held
    rw [claims, world]
    exact tidy
  · rw [world] at member
    obtain ⟨tid, owner, bk, started, ncli, kind⟩ := settled.timers timer member
    have different : owner ≠ ref := by
      rintro rfl
      rw [kind] at there
      cases there
    refine ⟨tid, owner, bk, owner_setStarted object different started, ncli, ?_⟩
    rw [world]
    exact kind
  · exact settled.complete other claim ((held_iff other claim).mp held').2 joined
  · have removed : (state.world.stop_ ref).polling.callback_ =
        state.world.polling.callback_.filter fun other => other.key ≠ hook.zmq_sock_.key := by
      rw [world]
      exact (state.world.polling.fdRemove_eq_filter hook.zmq_sock_).1
    dsimp only
    rw [removed, List.mem_filter, settled.entries]
    simp only [decide_eq_true_eq]
    constructor
    · rintro ⟨⟨owner, claim, held', joined, rfl⟩, foreign⟩
      refine ⟨owner, claim, (held_iff owner claim).mpr ⟨?_, held'⟩, joined, rfl⟩
      rintro rfl
      obtain rfl := Option.some.inj (held.symm.trans held')
      exact foreign rfl
    · rintro ⟨owner, claim, held', joined, rfl⟩
      obtain ⟨different, held'⟩ := (held_iff owner claim).mp held'
      refine ⟨⟨owner, claim, held', joined, rfl⟩, fun same => different ?_⟩
      -- The same key would be the same socket.
      obtain ⟨address, complete⟩ := settled.complete owner claim held' joined
      have named : claim.socket = some address := congrArg FileDesc.socket complete
      exact settled.tidy.toCustody.socket_inj held' held named
        ((congrArg Prod.snd same).symm.trans named)

theorem stop_other (settled : Settled blocks state) {ref : BlockRef} {block : Block}
    (object : blocks.deref ref = some block)
    (other : ∀ hook, state.world.derived.lookup ref ≠ some (.hookZmq hook))
    (free : ∀ timer ∈ state.world.tm_list_, timer.bk ≠ some ref) :
    Settled (blocks.setStarted ref false) state := by
  have claims : state.world.claims (blocks.setStarted ref false) = state.world.claims blocks := by
    have stopped : (state.world.stop_ ref).claims (blocks.setStarted ref false) =
        Function.update (state.world.claims blocks) ref none := World.claims_stop object
    have unclaimed : state.world.claims blocks ref = none := World.claims_of_other other
    rwa [World.stop_of_other other, ← unclaimed, Function.update_eq_self] at stopped
  refine ⟨claims ▸ settled.tidy, fun timer member => ?_, claims ▸ settled.complete,
    claims ▸ settled.entries⟩
  obtain ⟨tid, owner, bk, started, ncli, kind⟩ := settled.timers timer member
  refine ⟨tid, owner, bk, owner_setStarted object ?_ started, ncli, kind⟩
  rintro rfl
  exact free timer member bk

/-- Stopping a block takes away what it has registered, if `zmq_ctx_term` is not interrupted. -/
theorem stop_ (settled : Settled blocks state) {ref : BlockRef} {block : Block}
    (object : blocks.deref ref = some block) (running : block.is_started_ = true)
    (calm : ∀ hook, state.world.derived.lookup ref = some (.hookZmq hook) →
      host.interrupted (state.world.zmq.calls + 1) = false) :
    Settled (blocks.setStarted ref false) (state.stop_ host ref) := by
  have not_owner : ∀ timer ∈ state.world.tm_list_, timer.bk = some ref →
      ref ∈ state.nclis ∧ state.world.derived.lookup ref = none := by
    intro timer member owned
    obtain ⟨-, owner, bk, -, ncli, kind⟩ := settled.timers timer member
    obtain rfl := Option.some.inj (bk.symm.trans owned)
    exact ⟨ncli, kind⟩
  rcases kind : state.world.derived.lookup ref with _ | derived
  · have other : ∀ hook, state.world.derived.lookup ref ≠ some (.hookZmq hook) := by simp [kind]
    simp only [HostWorld.stop_, kind]
    split_ifs with ncli
    · -- All timers have the identifier of this one.
      have gone : timerDel (ncliTimer ref) state.world.tm_list_ = [] := by
        refine List.filter_eq_nil_iff.mpr fun timer member => ?_
        obtain ⟨tid, -⟩ := settled.timers timer member
        simp [Timer.same, ncliTimer, tid]
      rw [gone]
      refine Settled.stop_other (settled.drop_timers fun _ none => ?_) object other fun _ none => ?_
      · cases none
      · cases none
    · exact settled.stop_other object other fun timer member owned =>
        ncli (not_owner timer member owned).1
  · by_cases hooked : ∃ hook, derived = .hookZmq hook
    · obtain ⟨hook, rfl⟩ := hooked
      have ended : (state.stop_ host ref) = { state with world := state.world.stop_ ref } := by
        simp only [HostWorld.stop_, World.stop_, kind, HookZmq.stopOr, HookZmq.stop_,
          Zmq.ctxTermOr, Zmq.calls_close, calm hook kind]
        rfl
      rw [ended]
      exact settled.stop_hook object running kind
    · rw [HostWorld.stop_of_other kind (not_exists.mp hooked)]
      refine settled.stop_other object (fun hook there => hooked ⟨hook, ?_⟩)
        fun timer member owned => ?_
      · exact Option.some.inj (kind.symm.trans there)
      · have none := (not_owner timer member owned).2
        rw [kind] at none
        cases none

end Settled

/-! ## What settled states mean -/

section

variable {manager : HostManager}

theorem running_of_started {ref : BlockRef} (started : manager.blocks.started ref = true) :
    Running manager ref :=
  ⟨Registry.live_iff_mapped.mp (Registry.live_of_started started), started⟩

theorem claims_of_runningHook {ref : BlockRef} {hook : HookZmq}
    (running : RunningHook manager ref hook) :
    manager.world.world.claims manager.blocks ref = some hook.claim :=
  World.claims_of_hook running.1 (HostManager.hook_eq_some_iff.mp running.2)

theorem runningHook_of_claims {ref : BlockRef} {claim : Claim}
    (held : manager.world.world.claims manager.blocks ref = some claim) :
    ∃ hook, RunningHook manager ref hook ∧ claim = hook.claim := by
  obtain ⟨started, hook, there, rfl⟩ := World.claims_eq_some_iff.mp held
  exact ⟨hook, ⟨started, HostManager.hook_eq_some_iff.mpr there⟩, rfl⟩

/-- The callbacks are different, since their keys are. -/
theorem Polling.nodup_callback (polling : Polling) : polling.callback_.Nodup := by
  have distinct := polling.distinct
  rw [← polling.aligned] at distinct
  exact distinct.of_map

theorem Settled.registrations (settled : Settled manager.blocks manager.world) :
    Registrations manager := by
  have custody := settled.tidy.toCustody
  refine ⟨fun timer member => ?_, fun desc member => ?_, fun desc member => ?_,
    fun item member => ?_, fun ref hook running => ?_, fun ctx => ?_, fun address => ?_, ?_⟩
  · obtain ⟨-, ref, bk, started, -⟩ := settled.timers timer member
    exact ⟨ref, bk, running_of_started started⟩
  · obtain ⟨ref, claim, bk, held, -⟩ := settled.entry_owner member
    obtain ⟨hook, running, -⟩ := runningHook_of_claims held
    exact ⟨ref, bk, running_of_started running.1⟩
  · obtain ⟨ref, claim, bk, held, joined, rfl⟩ := settled.entry_owner member
    obtain ⟨hook, running, rfl⟩ := runningHook_of_claims held
    obtain ⟨address, complete⟩ := settled.complete ref _ held joined
    have named : hook.claim.socket = some address := congrArg FileDesc.socket complete
    obtain ⟨socket, there, -⟩ := custody.opened ref _ address held named
    refine ⟨ref, hook, bk, running, rfl, ?_⟩
    have here : hook.claim.desc.socket = some address := named
    rw [here, there]
    rfl
  · obtain ⟨position, polled⟩ := List.mem_iff_getElem?.mp member
    obtain ⟨desc, callback, key⟩ := Polling.exists_callback polled
    exact ⟨desc, List.mem_of_getElem? callback, key⟩
  · have held := claims_of_runningHook running
    have nodup := manager.world.world.polling.nodup_callback
    have own : ∀ desc ∈ manager.world.world.polling.callback_, desc.bk = some ref →
        desc = hook.zmq_sock_ ∧ ref ∈ manager.world.joined := by
      intro desc member owned
      obtain ⟨owner, claim, bk, held', joined, rfl⟩ := settled.entry_owner member
      obtain rfl := Option.some.inj (bk.symm.trans owned)
      obtain rfl := Option.some.inj (held.symm.trans held')
      exact ⟨rfl, joined⟩
    split_ifs with joined
    · obtain ⟨address, complete⟩ := settled.complete ref _ held joined
      have member : hook.zmq_sock_ ∈ manager.world.world.polling.callback_ :=
        (settled.entries _).mpr ⟨ref, hook.claim, held, joined, rfl⟩
      have counted : manager.world.world.polling.callback_.countP
          (fun desc => desc.bk = some ref) =
            manager.world.world.polling.callback_.count hook.zmq_sock_ := by
        refine List.countP_congr fun desc member => ?_
        simp only [decide_eq_true_eq, beq_iff_eq]
        refine ⟨fun owned => (own desc member owned).1, ?_⟩
        rintro rfl
        have desc_eq : hook.zmq_sock_ = ⟨some ref, -1, some address, true, false⟩ := complete
        rw [desc_eq]
      rw [counted]
      exact List.count_eq_one_of_mem nodup member
    · refine List.countP_eq_zero.mpr fun desc member owned => ?_
      exact joined (own desc member (of_decide_eq_true owned)).2
  · rw [settled.tidy.contexts]
    constructor
    · rintro ⟨ref, claim, held, rfl⟩
      obtain ⟨hook, running, rfl⟩ := runningHook_of_claims held
      exact ⟨ref, hook, running, rfl⟩
    · rintro ⟨ref, hook, running, rfl⟩
      exact ⟨ref, hook.claim, claims_of_runningHook running, rfl⟩
  · rw [Option.isSome_iff_exists]
    constructor
    · rintro ⟨socket, there⟩
      obtain ⟨ref, claim, held, named⟩ := settled.tidy.owned address socket there
      obtain ⟨hook, running, rfl⟩ := runningHook_of_claims held
      exact ⟨ref, hook, running, named⟩
    · rintro ⟨ref, hook, running, named⟩
      obtain ⟨socket, there, -⟩ :=
        custody.opened ref hook.claim address (claims_of_runningHook running) named
      exact ⟨socket, there⟩
  · rintro ref other hook hook' running running' (ctx | ⟨null, shared⟩)
    · exact custody.apart ref other _ _ (claims_of_runningHook running)
        (claims_of_runningHook running') ctx
    · obtain ⟨address, named⟩ := Option.ne_none_iff_exists'.mp null
      exact custody.socket_inj (claims_of_runningHook running) (claims_of_runningHook running')
        named (shared.symm.trans named)

end

/-! ## Runs -/

namespace Settled

variable {host : Host} {manager : HostManager}

theorem operation (settled : Settled manager.blocks manager.world) (passive : host.KeepsTables)
    (action : Operation HostFactory)
    (calm : Uninterrupted host (.operation action) manager) :
    Settled (action.perform (hostVirtual host) manager).blocks
      (action.perform (hostVirtual host) manager).world := by
  refine Operation.perform_preserves (hostVirtual host) manager
    (fun after => Settled after.blocks after.world) (fun after change => ?_)
    (fun id ref block stop found running => ?_)
    (fun ref block factory object idle registered => settled.remove object idle)
  · cases change with
    | same after blocks world trace =>
        rw [blocks, world]
        exact settled
    | refused factory state answer =>
        obtain rfl := HostWorld.constructor_false answer
        exact settled
    | built id type_ factory free registered state answer =>
        exact settled.insert answer id type_ free
    | started ref block object idle => exact settled.start_ passive object idle
    | bound src port dst live_src live_dst => exact settled.setSink src dst
  · subst stop
    obtain ⟨object, -⟩ := Registry.find_eq_some_iff.mp found
    refine settled.stop_ object running fun hook there => ?_
    exact calm ref hook (Registry.get_of_find found)
      ⟨(Registry.started_of_deref object).trans running, HostManager.hook_eq_some_iff.mpr there⟩

/-- A step that stops no interrupted hook keeps registrations settled. -/
theorem step (settled : Settled manager.blocks manager.world) (passive : host.KeepsTables)
    {step : HostStep} {next : HostManager} (calm : Uninterrupted host step manager)
    (taken : step.perform host manager = some next) : Settled next.blocks next.world := by
  cases step with
  | operation action =>
      obtain rfl := Option.some.inj taken
      exact settled.operation passive action calm
  | blockClearIter id =>
      simp only [HostStep.perform, Option.ite_none_left_eq_some] at taken
      obtain ⟨-, taken⟩ := taken
      obtain rfl := Option.some.inj taken
      have stopped := settled.operation passive (.blockStop id) calm
      exact stopped.operation passive (.blockDel id) trivial
  | configure id client type_ name addr =>
      obtain ⟨ref, -, found⟩ := Option.bind_eq_some_iff.mp taken
      obtain ⟨hook, there, rfl⟩ := Option.map_eq_some_iff.mp found
      exact settled.configure (HostManager.hook_eq_some_iff.mp there) rfl
  | fire time tm =>
      obtain ⟨tm_list_, left, rfl⟩ := Option.map_eq_some_iff.mp taken
      refine settled.drop_timers fun timer member => ?_
      rcases list : manager.world.world.tm_list_ with _ | ⟨first, rest⟩
      · rw [list] at left
        cases left
      · rw [list] at left
        simp only [TimerStep.perform, Option.ite_none_right_eq_some] at left
        obtain ⟨-, left⟩ := left
        obtain rfl := Option.some.inj left
        exact List.mem_cons_of_mem _ member
  | flow number ref =>
      obtain rfl := Option.some.inj taken
      exact settled.flow (passive number ref _)

end Settled

/-- A context of a hook that is not started any more stays open. -/
structure Leaks (before after : HostManager) (ref : BlockRef) (hook : HookZmq) : Prop where
  /-- The hook is not started. -/
  stopped : after.blocks.started ref = false
  /-- The started hooks are among those that were. -/
  others : ∀ other hook', RunningHook after other hook' → RunningHook before other hook'
  /-- The context is open. -/
  context : hook.zmq_ctx_ ∈ after.world.world.zmq.contexts

namespace Leaks

variable {host : Host} {before after : HostManager} {ref : BlockRef} {hook : HookZmq}

theorem not_registrations (leaks : Leaks before after ref hook)
    (settled : Settled before.blocks before.world) (running : RunningHook before ref hook) :
    ¬ Registrations after := by
  intro registrations
  obtain ⟨other, hook', running', shared⟩ :=
    (registrations.contexts hook.zmq_ctx_).mp leaks.context
  obtain rfl := settled.tidy.apart other ref _ _
    (claims_of_runningHook (leaks.others other hook' running')) (claims_of_runningHook running)
    shared
  have stopped := leaks.stopped
  rw [running'.1] at stopped
  cases stopped

/-- That is what an interruption leads to. -/
theorem of_interrupted (settled : Settled before.blocks before.world) {id : Int}
    (there : before.blockGet id = some ref) (running : RunningHook before ref hook)
    (interrupted : host.interrupted (before.world.world.zmq.calls + 1) = true) :
    Leaks before (before.blockStop (hostVirtual host) id).2 ref hook := by
  obtain ⟨block, found⟩ := Registry.find_of_get there
  obtain ⟨object, -⟩ := Registry.find_eq_some_iff.mp found
  have started : block.is_started_ = true :=
    (Registry.started_of_deref object).symm.trans running.1
  have kind := HostManager.hook_eq_some_iff.mp running.2
  have stopped : (before.blockStop (hostVirtual host) id).2 =
      (before.setStarted ref false).called (.stop_ ref) { before.world with
        world := { before.world.world with
          polling := before.world.world.polling.fdRemove hook.zmq_sock_
          zmq := (before.world.world.zmq.close hook.zmq_sock_.socket).tick } } := by
    simp only [Manager.blockStop, found, started, if_true, hostVirtual, Manager.setStarted,
      HostWorld.stop_, kind, HookZmq.stopOr, Zmq.ctxTermOr, Zmq.calls_close, interrupted]
  have not_started : ∀ other, (before.blocks.setStarted ref false).started other =
      if other = ref then false else before.blocks.started other :=
    Registry.started_setStarted object false
  rw [stopped]
  refine ⟨(not_started ref).trans (if_pos rfl), fun other hook' after_stop => ?_, ?_⟩
  · have running' := (not_started other).symm.trans after_stop.1
    split_ifs at running'
    exact ⟨running', after_stop.2⟩
  · change hook.zmq_ctx_ ∈ (before.world.world.zmq.close hook.zmq_sock_.socket).contexts
    rw [Zmq.contexts_close]
    exact (settled.tidy.contexts _).mpr ⟨ref, hook.claim, claims_of_runningHook running, rfl⟩

/-- Deleting the block does not help. -/
theorem blockDel (leaks : Leaks before after ref hook) (host : Host) (id : Int) :
    Leaks before (after.blockDel (hostVirtual host) id).2 ref hook := by
  rcases after.blockDel_cases (hostVirtual host) id with
    ⟨-, same⟩ | ⟨target, block, factory, found, idle, -, destroyed⟩
  · rw [same]
    exact leaks
  · obtain ⟨object, rfl⟩ := Registry.find_eq_some_iff.mp found
    have kept := Registry.started_remove object idle
    rw [destroyed]
    refine ⟨(kept ref).trans leaks.stopped, fun other hook' after_del => ?_, leaks.context⟩
    obtain ⟨started, kind⟩ := after_del
    have started' : after.blocks.started other = true := (kept other).symm.trans started
    refine leaks.others other hook' ⟨started', ?_⟩
    have different := Registry.ne_of_started object idle started'
    rw [HostManager.hook_eq_some_iff] at kind ⊢
    exact (Finmap.lookup_erase_ne different).symm.trans kind

end Leaks

/-- A step after which registrations are in order stops no interrupted hook. -/
theorem uninterrupted_of_registrations {host : Host} {step : HostStep}
    {manager next : HostManager} (settled : Settled manager.blocks manager.world)
    (taken : step.perform host manager = some next) (registrations : Registrations next) :
    Uninterrupted host step manager := by
  cases step with
  | operation action =>
      cases action with
      | blockStop id =>
          intro ref hook there running
          by_contra interrupted
          obtain rfl := Option.some.inj taken
          have leaks := Leaks.of_interrupted settled there running
            (Bool.eq_true_of_not_eq_false interrupted)
          exact leaks.not_registrations settled running registrations
      | _ => trivial
  | blockClearIter id =>
      intro ref hook there running
      by_contra interrupted
      simp only [HostStep.perform, Option.ite_none_left_eq_some] at taken
      obtain ⟨-, taken⟩ := taken
      obtain rfl := Option.some.inj taken
      have leaks := (Leaks.of_interrupted settled there running
        (Bool.eq_true_of_not_eq_false interrupted)).blockDel host id
      exact leaks.not_registrations settled running registrations
  | _ => trivial

theorem settled_new : Settled (Manager.new HostWorld.empty : HostManager).blocks
    (Manager.new HostWorld.empty : HostManager).world := by
  refine ⟨Tidy.unclaimed, ?_, ?_, ?_⟩
  · intro _ member
    cases member
  · intro _ _ held
    cases held
  · exact fun desc => iff_of_false List.not_mem_nil fun ⟨_, _, held, _⟩ => by cases held

/-- Registrations follow the life of their owner in every state of a run if and only if no step of
the run stops a started hook whose `zmq_ctx_term` is interrupted. -/
theorem registrations_throughout_iff (host : Host) (passive : host.KeepsTables)
    (steps : List HostStep) :
    Execution.Throughout (HostStep.perform host) Registrations steps
        (Manager.new HostWorld.empty) ↔
      Execution.Guarded (HostStep.perform host) (Uninterrupted host) steps
        (Manager.new HostWorld.empty) :=
  Execution.throughout_iff_guarded_of_invariant
    (fun manager => Settled manager.blocks manager.world)
    (fun _ settled => Settled.registrations settled)
    (fun _ _ _ settled calm taken => Settled.step settled passive calm taken)
    (fun _ _ _ settled taken registrations =>
      uninterrupted_of_registrations settled taken registrations)
    settled_new

/-- A buffer that a `ncli` sends. -/
def ncliCommand : Buffer := (Buffer.empty.pushBack (ascii "c3qo")).pushBack (ascii "PROTO.CMD")

/-- A program in which the flow of a `ncli` sends its command over the first block. -/
def ncliHost (interrupted : Nat → Bool) : Host where
  platform := Platform.plain fun _ => none
  interrupted := interrupted
  clock _ := ⟨0, 0⟩
  flow _ _ world :=
    match world.derived.lookup 0 with
    | some (.hookZmq hook) =>
        let (_, hook, zmq) :=
          hook.data_ (Platform.plain fun _ => none) (some ncliCommand) world.zmq
        world.withHook 0 hook world.polling zmq
    | _ => world

theorem keepsTables_ncliHost (interrupted : Nat → Bool) :
    (ncliHost interrupted).KeepsTables := by
  intro number ref world
  unfold ncliHost
  dsimp only
  split
  · rename_i hook there
    have kept := hook.keeps_data (Platform.plain fun _ => none) (some ncliCommand) world.zmq
    have ctx := hook.zmq_ctx_data (Platform.plain fun _ => none) (some ncliCommand) world.zmq
    have sock := hook.zmq_sock_data (Platform.plain fun _ => none) (some ncliCommand) world.zmq
    refine ⟨rfl, rfl, kept, fun other => ?_, fun other => ?_⟩
    · by_cases same : other = 0
      · subst same
        dsimp only [World.withHook]
        rw [Finmap.lookup_insert, there]
        rfl
      · exact congrArg (Option.map Derived.factory) (Finmap.lookup_insert_of_ne _ same)
    · by_cases same : other = 0
      · subst same
        dsimp only [World.withHook]
        rw [Finmap.lookup_insert, there]
        exact congrArg some (congrArg₂ Claim.mk ctx sock)
      · exact congrArg (fun found => found >>= Derived.claim) (Finmap.lookup_insert_of_ne _ same)
  · exact ⟨rfl, rfl, .refl _, fun _ => rfl, fun _ => rfl⟩

/-- `main` of `ncli.cpp`, its wait for an answer apart. -/
def ncliMain : List HostStep :=
  [.operation (.blockFactoryRegister "hook_zmq" (.block .hookZmq)),
    .operation (.blockAdd 1 "hook_zmq"), .operation (.blockFactoryRegister "ncli" .ncli),
    .operation (.blockAdd 2 "ncli"), .configure 1 true ZMQ_PAIR "" "tcp://127.0.0.1:1665",
    .operation (.blockBind 1 0 2), .operation (.blockBind 2 0 1), .operation (.blockStart 1),
    .operation (.blockStart 2), .operation (.blockStop 1), .operation (.blockStop 2),
    .operation (.blockDel 1), .operation (.blockDel 2)]

/-- Uninterrupted, the program of `ncli` keeps registrations in order from its start to its end. -/
theorem registrations_throughout_ncliMain :
    (Execution.run (HostStep.perform (ncliHost fun _ => false)) ncliMain
        (Manager.new HostWorld.empty)).isSome = true ∧
      Execution.Throughout (HostStep.perform (ncliHost fun _ => false)) Registrations ncliMain
        (Manager.new HostWorld.empty) := by
  refine ⟨by decide +kernel, (registrations_throughout_iff _ (keepsTables_ncliHost _) _).mpr
    (Execution.guarded_of_forall (fun step manager => ?_) _ _)⟩
  unfold Uninterrupted
  split
  · exact fun _ _ _ _ => rfl
  · exact fun _ _ _ _ => rfl
  · trivial

/-- When the `zmq_ctx_term` of a hook is interrupted, its context is never closed. -/
theorem registrations_lost :
    let steps := [.operation (.blockFactoryRegister "hook_zmq" (.block .hookZmq)),
      .operation (.blockAdd 1 "hook_zmq"), .operation (.blockStart 1), .operation (.blockStop 1)]
    ∃ final, Execution.run (HostStep.perform (ncliHost fun _ => true)) steps
        (Manager.new HostWorld.empty) = some final ∧
      (∀ ref, final.blocks.started ref = false) ∧ final.world.world.zmq.contexts ≠ ∅ ∧
      ¬ Execution.Throughout (HostStep.perform (ncliHost fun _ => true)) Registrations steps
        (Manager.new HostWorld.empty) := by
  intro steps
  have outcome : (Execution.run (HostStep.perform (ncliHost fun _ => true)) steps
      (Manager.new HostWorld.empty)).any (fun final => final.blocks.next = 1 ∧
        final.blocks.started 0 = false ∧ 0 ∈ final.world.world.zmq.contexts) = true := by
    decide +kernel
  rcases execution : Execution.run (HostStep.perform (ncliHost fun _ => true)) steps
    (Manager.new HostWorld.empty) with _ | final
  · rw [execution] at outcome
    cases outcome
  · rw [execution] at outcome
    obtain ⟨next, stopped, leaked⟩ := of_decide_eq_true outcome
    have none_started : ∀ ref, final.blocks.started ref = false := by
      intro ref
      by_contra started
      obtain ⟨block, object⟩ := Registry.live_iff.mp
        (Registry.live_of_started (Bool.eq_true_of_not_eq_false started))
      have old := final.blocks.fresh ref block object
      rw [next] at old
      obtain rfl := Nat.lt_one_iff.mp old
      exact started stopped
    refine ⟨final, rfl, none_started, Finset.ne_empty_of_mem leaked, fun throughout => ?_⟩
    obtain ⟨ref, hook, ⟨started, -⟩, -⟩ :=
      ((Execution.throughout_final throughout execution).contexts 0).mp leaked
    rw [none_started] at started
    cases started

end C3qo
