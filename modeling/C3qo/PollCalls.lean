import C3qo.RemoteControl

/-!
# What blocks do to the polling set

Blocks add and remove descriptors but never look at the polling set. Whatever a hook does with an
event, the calls of `fd_add` and `fd_remove` that come of it are the same for every polling set,
and so is everything else that it does. An entry is removed only where a block is stopped.
-/

namespace C3qo

/-- Calls of the polling API, with the memory of the items that they store. -/
structure FdCalls where
  /-- What the returned events of each new item are initialised to. -/
  uninit : Nat → Nat
  /-- The calls. -/
  calls : List FdCall

namespace FdCalls

/-- No calls. -/
def nil : FdCalls := ⟨fun _ => 0, []⟩

/-- The polling set after the calls. -/
def perform (made : FdCalls) (polling : Polling) : Polling :=
  (performFdCalls made.uninit made.calls polling).2

/-- Some calls, and then others. -/
def append (first second : FdCalls) : FdCalls where
  uninit index :=
    if index < first.calls.length then first.uninit index
    else second.uninit (index - first.calls.length)
  calls := first.calls ++ second.calls

@[simp] theorem perform_nil (polling : Polling) : nil.perform polling = polling := rfl

theorem performFdCalls_append (uninit later : Nat → Nat) (first second : List FdCall)
    (polling : Polling) :
    (performFdCalls (fun index =>
        if index < first.length then uninit index else later (index - first.length))
      (first ++ second) polling).2 =
      (performFdCalls later second (performFdCalls uninit first polling).2).2 := by
  induction first generalizing uninit polling with
  | nil => simp [performFdCalls]
  | cons call first ih =>
      have shifted : (fun index => if index + 1 < (call :: first).length then uninit (index + 1)
          else later (index + 1 - (call :: first).length)) =
          fun index => if index < first.length then uninit (index + 1)
            else later (index - first.length) := by
        funext index
        simp
      cases call with
      | fdAdd desc =>
          simp only [List.cons_append, performFdCalls, shifted]
          exact ih (fun index => uninit (index + 1)) _
      | fdRemove desc =>
          simp only [List.cons_append, performFdCalls, shifted]
          exact ih (fun index => uninit (index + 1)) _

theorem perform_append (first second : FdCalls) (polling : Polling) :
    (first.append second).perform polling = second.perform (first.perform polling) :=
  performFdCalls_append ..

end FdCalls

/-- The manager with another polling set. -/
def BlockManager.withPolling (manager : BlockManager) (polling : Polling) : BlockManager :=
  { manager with world := { manager.world with polling := polling } }

@[simp] theorem BlockManager.withPolling_self (manager : BlockManager) :
    BlockManager.withPolling manager manager.world.polling = manager := rfl

@[simp] theorem BlockManager.polling_withPolling (manager : BlockManager) (polling : Polling) :
    (BlockManager.withPolling manager polling).world.polling = polling := rfl

/-- What a computation does in a state does not depend on the polling set, to which it makes the
calls. -/
structure Writes (compute : BlockManager → Except Fault (Bool × BlockManager))
    (manager : BlockManager) (made : FdCalls) : Prop where
  /-- With another polling set, the result is the same but for the polling set. -/
  result : ∀ polling, compute (manager.withPolling polling) =
    (compute manager).map fun result => (result.1, result.2.withPolling (made.perform polling))
  /-- An entry is removed only where a block is stopped. -/
  removals : ∀ is_ok after, compute manager = .ok (is_ok, after) →
    ∃ events, after.trace = manager.trace ++ events ∧
      ∀ desc, .fdRemove desc ∈ made.calls → ∃ ref, .stop_ ref ∈ events

namespace Writes

variable {compute : BlockManager → Except Fault (Bool × BlockManager)} {manager : BlockManager}
  {made : FdCalls}

theorem error {fault : Fault} (failed : ∀ polling,
    compute (manager.withPolling polling) = .error fault) : Writes compute manager .nil := by
  have failed_here : compute manager = .error fault := failed manager.world.polling
  refine ⟨fun polling => ?_, fun is_ok after done => ?_⟩
  · rw [failed polling, failed_here]
    rfl
  · rw [failed_here] at done
    cases done

/-- A computation that makes calls whatever there is in the polling set. -/
theorem of_ok {is_ok : Bool} {after : BlockManager} {events : List (Event Factory)}
    (done : ∀ polling, compute (manager.withPolling polling) =
      .ok (is_ok, after.withPolling (made.perform polling)))
    (trace : after.trace = manager.trace ++ events)
    (removals : ∀ desc, .fdRemove desc ∈ made.calls → ∃ ref, .stop_ ref ∈ events) :
    Writes compute manager made := by
  have done_here : compute manager =
      .ok (is_ok, after.withPolling (made.perform manager.world.polling)) :=
    done manager.world.polling
  refine ⟨fun polling => ?_, fun is_ok' after' result => ?_⟩
  · rw [done polling, done_here]
    rfl
  · rw [done_here] at result
    cases result
    exact ⟨events, trace, removals⟩

/-- A computation that leaves the polling set alone. -/
theorem silent {is_ok : Bool} {after : BlockManager}
    (done : ∀ polling, compute (manager.withPolling polling) =
      .ok (is_ok, after.withPolling polling))
    (trace : ∃ events, after.trace = manager.trace ++ events) : Writes compute manager .nil := by
  obtain ⟨events, trace⟩ := trace
  exact of_ok done trace fun _ member => by cases member

/-- Only states that differ in the polling set matter. -/
theorem congr {other : BlockManager → Except Fault (Bool × BlockManager)}
    (writes : Writes compute manager made)
    (same : ∀ polling, other (manager.withPolling polling) =
      compute (manager.withPolling polling)) : Writes other manager made := by
  have same_here : other manager = compute manager := same manager.world.polling
  refine ⟨fun polling => ?_, fun is_ok after done => ?_⟩
  · rw [same polling, same_here]
    exact writes.result polling
  · rw [same_here] at done
    exact writes.removals is_ok after done

/-- What is done before that does not concern the polling set. -/
theorem after {before : BlockManager} (prepare : BlockManager → BlockManager)
    (writes : Writes compute (prepare before) made)
    (prepared : ∀ polling, prepare (before.withPolling polling) =
      BlockManager.withPolling (prepare before) polling)
    (trace : (prepare before).trace = before.trace) :
    Writes (fun manager => compute (prepare manager)) before made := by
  refine ⟨fun polling => ?_, fun is_ok after done => trace ▸ writes.removals is_ok after done⟩
  rw [prepared polling]
  exact writes.result polling

/-- A call of the manager that leaves the polling set alone. -/
theorem of_result {call : BlockManager → Bool × BlockManager}
    (result : ∀ polling, call (manager.withPolling polling) =
      ((call manager).1, BlockManager.withPolling (call manager).2 polling))
    (trace : ∃ events, (call manager).2.trace = manager.trace ++ events) :
    Writes (fun manager => .ok (call manager)) manager .nil :=
  silent (fun polling => congrArg Except.ok (result polling)) trace

/-- Two computations, of which the second one starts where the first one ends. -/
theorem bind {next : Bool → BlockManager → Except Fault (Bool × BlockManager)}
    (first : Writes compute manager made)
    (second : ∀ is_ok after, compute manager = .ok (is_ok, after) →
      ∃ made', Writes (next is_ok) after made') :
    ∃ made', Writes (fun manager => compute manager >>= fun result => next result.1 result.2)
      manager made' := by
  rcases ended : compute manager with fault | ⟨is_ok, after⟩
  · have failed : ∀ polling, compute (manager.withPolling polling) = .error fault := by
      intro polling
      rw [first.result polling, ended]
      rfl
    exact ⟨.nil, error fun polling => by rw [failed polling]; rfl⟩
  · obtain ⟨made', later⟩ := second is_ok after ended
    obtain ⟨events, trace, removed⟩ := first.removals is_ok after ended
    refine ⟨made.append made', fun polling => ?_, fun is_ok' final done => ?_⟩
    · rw [first.result polling, ended]
      change next is_ok (after.withPolling (made.perform polling)) = _
      rw [later.result, FdCalls.perform_append]
      rfl
    · rw [ended] at done
      obtain ⟨events', trace', removed'⟩ := later.removals is_ok' final done
      refine ⟨events ++ events', by rw [trace', trace, List.append_assoc], fun desc member => ?_⟩
      rcases List.mem_append.mp member with member | member
      · obtain ⟨ref, stopped⟩ := removed desc member
        exact ⟨ref, List.mem_append_left _ stopped⟩
      · obtain ⟨ref, stopped⟩ := removed' desc member
        exact ⟨ref, List.mem_append_right _ stopped⟩

end Writes

/-! ## Hooks -/

/-- The first call of a hook that joins its peers is `fd_add`, if there is any. -/
theorem HookZmq.join_calls (platform : Platform) (ref : BlockRef) (hook : HookZmq) (zmq : Zmq) :
    ∃ made : FdCalls, (∀ desc, .fdRemove desc ∉ made.calls) ∧ ∀ polling,
      hook.join platform ref polling zmq = ((hook.join platform ref .empty zmq).1,
        made.perform polling, (hook.join platform ref .empty zmq).2.2) := by
  unfold join
  dsimp only
  split_ifs
  · exact ⟨⟨fun _ => platform.pollMemory (hook.attach platform zmq).2.calls, [.fdAdd _]⟩,
      by simp, fun polling => rfl⟩
  · exact ⟨⟨fun _ => platform.pollMemory (hook.attach platform zmq).2.calls, [.fdAdd _]⟩,
      by simp, fun polling => rfl⟩
  · exact ⟨.nil, by simp [FdCalls.nil], fun polling => rfl⟩

theorem HookZmq.start_calls (platform : Platform) (ref : BlockRef) (hook : HookZmq) (zmq : Zmq) :
    ∃ made : FdCalls, (∀ desc, .fdRemove desc ∉ made.calls) ∧ ∀ polling,
      hook.start_ platform ref polling zmq = ((hook.start_ platform ref .empty zmq).1,
        made.perform polling, (hook.start_ platform ref .empty zmq).2.2) := by
  unfold start_
  dsimp only
  split_ifs
  · exact ⟨.nil, by simp [FdCalls.nil], fun polling => rfl⟩
  · exact join_calls platform ref _ _
  · exact ⟨.nil, by simp [FdCalls.nil], fun polling => rfl⟩

/-- The world with another polling set. -/
def World.withPolling (world : World) (polling : Polling) : World :=
  { world with polling := polling }

theorem World.start_calls (platform : Platform) (ref : BlockRef) (world : World) :
    ∃ made : FdCalls, (∀ desc, .fdRemove desc ∉ made.calls) ∧ ∀ polling,
      (world.withPolling polling).start_ platform ref =
        (world.start_ platform ref).withPolling (made.perform polling) := by
  unfold start_ withPolling
  dsimp only
  split
  · rename_i hook _
    obtain ⟨made, kept, starts⟩ := hook.start_calls platform ref world.zmq
    refine ⟨made, kept, fun polling => ?_⟩
    rw [starts polling, starts world.polling]
    rfl
  · exact ⟨.nil, by simp [FdCalls.nil], fun polling => rfl⟩

theorem World.stop_calls (ref : BlockRef) (world : World) :
    ∃ made : FdCalls, ∀ polling, (world.withPolling polling).stop_ ref =
      (world.stop_ ref).withPolling (made.perform polling) := by
  unfold stop_ withPolling
  dsimp only
  split
  · rename_i hook _
    exact ⟨⟨fun _ => 0, [.fdRemove hook.zmq_sock_]⟩, fun polling => rfl⟩
  · exact ⟨.nil, fun polling => rfl⟩

/-! ## Commands -/

section

variable (platform : Platform) (manager : BlockManager)

/-- Adding a block does not touch the polling set. -/
theorem blockAdd_withPolling (id : Int) (type_ : String) (polling : Polling) :
    (manager.withPolling polling).blockAdd (virtual platform) id type_ =
      ((manager.blockAdd (virtual platform) id type_).1,
        BlockManager.withPolling (manager.blockAdd (virtual platform) id type_).2 polling) := by
  unfold Manager.blockAdd BlockManager.withPolling
  dsimp only
  split
  · rfl
  · rcases manager.bk_factory_.lookup type_ with _ | factory
    · rfl
    · cases factory <;> rfl

theorem blockDel_withPolling (id : Int) (polling : Polling) :
    (manager.withPolling polling).blockDel (virtual platform) id =
      ((manager.blockDel (virtual platform) id).1,
        BlockManager.withPolling (manager.blockDel (virtual platform) id).2 polling) := by
  unfold Manager.blockDel BlockManager.withPolling
  dsimp only
  rcases manager.blocks.find id with _ | ⟨ref, block⟩
  · rfl
  · dsimp only
    split_ifs
    · rfl
    · rcases manager.bk_factory_.lookup block.type_ with _ | factory <;> rfl

theorem blockBind_withPolling (id port dest : Int) (polling : Polling) :
    (manager.withPolling polling).blockBind (virtual platform) id port dest =
      ((manager.blockBind (virtual platform) id port dest).1,
        BlockManager.withPolling (manager.blockBind (virtual platform) id port dest).2
          polling) := by
  unfold Manager.blockBind BlockManager.withPolling
  dsimp only
  rcases manager.blocks.get id with _ | src
  · rfl
  · rcases manager.blocks.get dest with _ | dst <;> rfl

/-- Operations add to the trace. -/
theorem trace_perform (operation : Operation Factory) : ∃ events,
    (operation.perform (virtual platform) manager).trace = manager.trace ++ events := by
  refine Operation.perform_preserves (virtual platform) manager
    (fun after => ∃ events, after.trace = manager.trace ++ events) (fun after change => ?_)
    (fun id ref block _ found running => ⟨[.stop_ ref], rfl⟩)
    fun ref block factory object idle registered => ⟨[.destructor ref factory], rfl⟩
  cases change with
  | same after blocks world trace => exact ⟨[], by simp [trace]⟩
  | refused factory world answer => exact ⟨[], by simp⟩
  | built id type_ factory free registered world answer => exact ⟨[.constructor _ factory], rfl⟩
  | started ref block object idle => exact ⟨[.start_ ref], rfl⟩
  | bound src port dst live_src live_dst => exact ⟨[.bind_ src], rfl⟩

theorem writes_blockStart (id : Int) :
    ∃ made, Writes (fun manager => .ok (manager.blockStart (virtual platform) id)) manager
      made := by
  rcases found : manager.blocks.find id with _ | ⟨ref, block⟩
  · refine ⟨.nil, .of_result (fun polling => ?_) (trace_perform platform manager (.blockStart id))⟩
    simp only [Manager.blockStart, BlockManager.withPolling, found]
  · by_cases running : block.is_started_ = true
    · refine ⟨.nil, .of_result (fun polling => ?_)
        (trace_perform platform manager (.blockStart id))⟩
      simp only [Manager.blockStart, BlockManager.withPolling, found, if_pos running]
    · obtain ⟨made, kept, starts⟩ := manager.world.start_calls platform ref
      have idle : block.is_started_ = false := Bool.eq_false_iff.mpr running
      have done : ∀ polling,
          (BlockManager.withPolling manager polling).blockStart (virtual platform) id =
            (true, BlockManager.withPolling ((manager.setStarted ref true).called (.start_ ref)
              (manager.world.start_ platform ref)) (made.perform polling)) := by
        intro polling
        simp only [Manager.blockStart, BlockManager.withPolling, found, if_neg running]
        exact congrArg
          (fun world => (true, (manager.setStarted ref true).called (.start_ ref) world))
          (starts polling)
      refine ⟨made, .of_ok (fun polling => congrArg Except.ok (done polling)) rfl ?_⟩
      exact fun desc member => absurd member (kept desc)

theorem writes_blockStop (id : Int) :
    ∃ made, Writes (fun manager => .ok (manager.blockStop (virtual platform) id)) manager
      made := by
  rcases found : manager.blocks.find id with _ | ⟨ref, block⟩
  · refine ⟨.nil, .of_result (fun polling => ?_) (trace_perform platform manager (.blockStop id))⟩
    simp only [Manager.blockStop, BlockManager.withPolling, found]
  · by_cases running : block.is_started_ = true
    · obtain ⟨made, stops⟩ := manager.world.stop_calls ref
      have done : ∀ polling,
          (BlockManager.withPolling manager polling).blockStop (virtual platform) id =
            (true, BlockManager.withPolling ((manager.setStarted ref false).called (.stop_ ref)
              (manager.world.stop_ ref)) (made.perform polling)) := by
        intro polling
        simp only [Manager.blockStop, BlockManager.withPolling, found, if_pos running]
        exact congrArg
          (fun world => (true, (manager.setStarted ref false).called (.stop_ ref) world))
          (stops polling)
      refine ⟨made, .of_ok (fun polling => congrArg Except.ok (done polling)) rfl ?_⟩
      exact fun desc _ => ⟨ref, List.mem_singleton_self _⟩
    · refine ⟨.nil, .of_result (fun polling => ?_) (trace_perform platform manager (.blockStop id))⟩
      simp only [Manager.blockStop, BlockManager.withPolling, found, if_neg running]

/-- Commands do not look at the polling set. -/
theorem writes_protoCommandParse (payload : Bytes) :
    ∃ made, Writes (protoCommandParse platform payload) manager made := by
  have untouched : ∃ events, manager.trace = manager.trace ++ events :=
    ⟨[], (List.append_nil _).symm⟩
  have by_call : ∀ {call : BlockManager → Except Fault (Bool × BlockManager)},
      (∀ manager, protoCommandParse platform payload manager = call manager) →
      (∃ made, Writes call manager made) →
      ∃ made, Writes (protoCommandParse platform payload) manager made :=
    fun same writes => funext same ▸ writes
  rcases unpacked : platform.unpack payload with _ | command
  · apply by_call (fun manager => by simp only [protoCommandParse, unpacked]; rfl)
    exact ⟨.nil, .of_result (fun _ => rfl) untouched⟩
  · cases command with
    | add id type_ =>
        apply by_call (fun manager => by simp only [protoCommandParse, unpacked]; rfl)
        exact ⟨.nil, .of_result (blockAdd_withPolling platform manager id type_)
          (trace_perform platform manager (.blockAdd id type_))⟩
    | start id =>
        apply by_call (fun manager => by simp only [protoCommandParse, unpacked]; rfl)
        exact writes_blockStart platform manager id
    | stop id =>
        apply by_call (fun manager => by simp only [protoCommandParse, unpacked]; rfl)
        exact writes_blockStop platform manager id
    | del id =>
        apply by_call (fun manager => by simp only [protoCommandParse, unpacked]; rfl)
        exact ⟨.nil, .of_result (blockDel_withPolling platform manager id)
          (trace_perform platform manager (.blockDel id))⟩
    | bind id port dest =>
        apply by_call (fun manager => by simp only [protoCommandParse, unpacked]; rfl)
        exact ⟨.nil, .of_result (blockBind_withPolling platform manager id port dest)
          (trace_perform platform manager (.blockBind id port dest))⟩
    | term =>
        apply by_call (fun manager => by simp only [protoCommandParse, unpacked]; rfl)
        exact ⟨.nil, .of_result (fun _ => rfl) untouched⟩
    | notSet =>
        apply by_call (fun manager => by simp only [protoCommandParse, unpacked]; rfl)
        exact ⟨.nil, .of_result (fun _ => rfl) untouched⟩
    | hookZmq id client type_ name addr =>
        have same : ∀ polling, (BlockManager.withPolling manager polling).blockGet id =
          manager.blockGet id := fun _ => rfl
        have kinds : ∀ polling ref,
            BlockManager.kind (BlockManager.withPolling manager polling) ref =
              BlockManager.kind manager ref := fun _ _ => rfl
        rcases there : manager.blockGet id with _ | ref
        · have refused : ∀ polling, protoCommandParse platform payload
              (BlockManager.withPolling manager polling) =
                .ok (false, BlockManager.withPolling manager polling) := by
            intro polling
            simp only [protoCommandParse, unpacked, same, there]
          exact ⟨.nil, .silent refused untouched⟩
        · by_cases hooked : ∃ hook, manager.kind ref = some (.hookZmq hook)
          · obtain ⟨hook, kind⟩ := hooked
            let configured : HookZmq :=
              { hook with client_ := client, type_ := type_, name_ := name, addr_ := addr }
            have executed : ∀ polling, protoCommandParse platform payload
                (BlockManager.withPolling manager polling) = .ok (true, BlockManager.withPolling
                  (manager.setDerived ref (.hookZmq configured)) polling) := by
              intro polling
              simp only [protoCommandParse, unpacked, same, there, kinds, kind]
              rfl
            exact ⟨.nil, .silent executed untouched⟩
          · have failed : ∀ polling, protoCommandParse platform payload
                (BlockManager.withPolling manager polling) = .error (.badCast ref) := by
              intro polling
              simp only [protoCommandParse, unpacked, same, there, kinds]
              split
              · rename_i hook kind
                exact absurd ⟨hook, kind⟩ hooked
              · rfl
            exact ⟨.nil, .error failed⟩

end

/-! ## Data flows -/

section

variable {platform : Platform} {manager : BlockManager}

/-- A flow that goes from block to block does not look at the polling set, if none of them does. -/
theorem writes_processData {data_ : BlockRef → BlockManager → Except Fault (Bool × BlockManager)}
    (blind : ∀ sink manager, ∃ made, Writes (data_ sink) manager made) (fuel : Nat)
    (current : BlockRef) (manager : BlockManager) :
    ∃ made, Writes (fun manager => (processData data_ fuel current manager).map (Prod.mk false))
      manager made := by
  have untouched : ∀ manager : BlockManager, ∃ events, manager.trace = manager.trace ++ events :=
    fun manager => ⟨[], (List.append_nil _).symm⟩
  induction fuel generalizing current manager with
  | zero => exact ⟨.nil, .error fun _ => rfl⟩
  | succ fuel ih =>
      have derefs : ∀ polling ref, (BlockManager.withPolling manager polling).blocks.deref ref =
        manager.blocks.deref ref := fun _ _ => rfl
      rcases object : manager.blocks.deref current with _ | block
      · have failed : ∀ polling, (processData data_ (fuel + 1) current
            (BlockManager.withPolling manager polling)).map (Prod.mk false) =
              .error (.dangling current) := by
          intro polling
          simp only [processData, derefs, object, Except.map]
        exact ⟨.nil, .error failed⟩
      · rcases bound : block.sink_ with _ | sink
        · have stays : ∀ polling, (processData data_ (fuel + 1) current
              (BlockManager.withPolling manager polling)).map (Prod.mk false) =
                .ok (false, BlockManager.withPolling manager polling) := by
            intro polling
            rw [processData_of_unbound ((derefs polling current).trans object) bound]
            rfl
          exact ⟨.nil, .silent stays (untouched manager)⟩
        · rcases live : manager.blocks.deref sink with _ | target
          · have failed : ∀ polling, (processData data_ (fuel + 1) current
                (BlockManager.withPolling manager polling)).map (Prod.mk false) =
                  .error (.dangling sink) := by
              intro polling
              rw [processData_of_dangling ((derefs polling current).trans object) bound
                ((derefs polling sink).trans live)]
              rfl
            exact ⟨.nil, .error failed⟩
          · -- The flow is the block's part and then the rest, if the block forwards its data.
            let rest : Bool → BlockManager → Except Fault (Bool × BlockManager) :=
              fun forward manager =>
                if forward then (processData data_ fuel sink manager).map (Prod.mk false)
                else .ok (false, manager)
            have split : ∀ polling, (processData data_ (fuel + 1) current
                (BlockManager.withPolling manager polling)).map (Prod.mk false) =
                  data_ sink (BlockManager.withPolling manager polling) >>= fun result =>
                    rest result.1 result.2 := by
              intro polling
              rw [processData_of_bound ((derefs polling current).trans object) bound
                ((derefs polling sink).trans live)]
              rcases data_ sink (BlockManager.withPolling manager polling) with
                fault | ⟨_ | _, after⟩ <;> rfl
            obtain ⟨made, first⟩ := blind sink manager
            have later : ∀ forward after, data_ sink manager = .ok (forward, after) →
                ∃ made', Writes (rest forward) after made' := by
              intro forward after _
              cases forward with
              | false => exact ⟨.nil, .of_result (fun _ => rfl) (untouched after)⟩
              | true => exact ih sink after
            obtain ⟨made', whole⟩ := first.bind later
            exact ⟨made', whole.congr split⟩

theorem writes_replied {fuel : Nat} {running : List BlockRef} {ref : BlockRef} {is_ok : Bool}
    (blind : ∀ sink manager, ∃ made,
      Writes (blockData platform fuel (ref :: running) (some (replyBuffer is_ok)) sink) manager
        made)
    (manager : BlockManager) :
    ∃ made, Writes (replied platform fuel running ref is_ok) manager made := by
  obtain ⟨made, sent⟩ := writes_processData blind fuel ref (manager.record (.reply ref is_ok))
  have reply : replied platform fuel running ref is_ok = fun manager =>
      (processData (blockData platform fuel (ref :: running) (some (replyBuffer is_ok))) fuel ref
        (BlockManager.record manager (.reply ref is_ok))).map (Prod.mk false) := by
    funext manager
    unfold replied
    split <;> rename_i result <;> rw [result] <;> rfl
  rw [reply]
  exact ⟨made, sent.after (fun manager => manager.record (.reply ref is_ok)) (fun _ => rfl) rfl⟩

theorem writes_blockData (fuel : Nat) (running : List BlockRef) (vdata : Option Buffer)
    (ref : BlockRef) (manager : BlockManager) :
    ∃ made, Writes (blockData platform fuel running vdata ref) manager made := by
  have untouched : ∀ manager : BlockManager, ∃ events, manager.trace = manager.trace ++ events :=
    fun manager => ⟨[], (List.append_nil _).symm⟩
  induction fuel generalizing running vdata ref manager with
  | zero => exact ⟨.nil, .error fun _ => rfl⟩
  | succ fuel ih =>
      have kinds : ∀ polling, BlockManager.kind (BlockManager.withPolling manager polling) ref =
        manager.kind ref := fun _ => rfl
      have quiet : ∀ (forward : Bool) (after : BlockManager), (∀ polling,
          blockData platform (fuel + 1) running vdata ref
            (BlockManager.withPolling manager polling) =
              .ok (forward, BlockManager.withPolling after polling)) →
          after.trace = manager.trace →
          ∃ made, Writes (blockData platform (fuel + 1) running vdata ref) manager made :=
        fun _ _ done trace => ⟨.nil, .silent done ⟨[], trace.trans (List.append_nil _).symm⟩⟩
      rcases kind : manager.kind ref with _ | ⟨⟨name_, count_⟩ | _ | hook⟩
      · refine quiet false (received manager ref vdata) (fun polling => ?_) rfl
        exact blockData_plain ((kinds polling).trans kind)
      · refine quiet true ((received manager ref vdata).setDerived ref
          (.hello name_ (count_ + 1))) (fun polling => ?_) rfl
        exact blockData_hello ((kinds polling).trans kind)
      · by_cases command : ∃ payload, IsCommand platform vdata payload
        · obtain ⟨payload, command⟩ := command
          let rest : Bool → BlockManager → Except Fault (Bool × BlockManager) :=
            fun is_ok manager => (destroyedOf manager (ref :: running)).elim
              (replied platform fuel running ref is_ok manager)
              fun destroyed => .error (.underFoot destroyed)
          have split : ∀ polling, blockData platform (fuel + 1) running vdata ref
              (BlockManager.withPolling manager polling) =
                protoCommandParse platform payload
                  (commanded (BlockManager.withPolling manager polling) ref vdata payload) >>=
                    fun result => rest result.1 result.2 := by
            intro polling
            rw [blockData_command ((kinds polling).trans kind) command]
            rcases protoCommandParse platform payload (commanded
              (BlockManager.withPolling manager polling) ref vdata payload) with fault | result
            · rfl
            · show _ = rest result.1 result.2
              rcases destroyed : destroyedOf result.2 (ref :: running) with _ | dead <;>
                simp only [rest, destroyed, Option.elim]
          obtain ⟨made, first⟩ := writes_protoCommandParse platform
            (commanded manager ref vdata payload) payload
          have executed : Writes
              (fun manager => protoCommandParse platform payload
                (commanded manager ref vdata payload)) manager made :=
            first.after (fun manager => commanded manager ref vdata payload) (fun _ => rfl) rfl
          have later : ∀ is_ok after,
              protoCommandParse platform payload (commanded manager ref vdata payload) =
                .ok (is_ok, after) → ∃ made', Writes (rest is_ok) after made' := by
            intro is_ok after _
            rcases destroyed : destroyedOf after (ref :: running) with _ | dead
            · obtain ⟨made', sent⟩ := writes_replied (fun sink manager =>
                ih (ref :: running) (some (replyBuffer is_ok)) sink manager) after
              refine ⟨made', sent.congr fun polling => ?_⟩
              have spared : destroyedOf (BlockManager.withPolling after polling)
                (ref :: running) = none := destroyed
              simp only [rest, spared, Option.elim]
            · have failed : ∀ polling, rest is_ok (BlockManager.withPolling after polling) =
                  .error (.underFoot dead) := by
                intro polling
                have destroyed' : destroyedOf (BlockManager.withPolling after polling)
                  (ref :: running) = some dead := destroyed
                simp only [rest, destroyed', Option.elim]
              exact ⟨.nil, .error failed⟩
          obtain ⟨made', whole⟩ := executed.bind later
          exact ⟨made', whole.congr split⟩
        · refine quiet false (received manager ref vdata) (fun polling => ?_) rfl
          exact blockData_transPb ((kinds polling).trans kind) (not_exists.mp command)
      · refine quiet false (hookSent platform (received manager ref vdata) ref hook vdata)
          (fun polling => ?_) rfl
        exact blockData_hook ((kinds polling).trans kind)

/-- What a hook does with an event does not depend on the polling set. -/
theorem writes_onFd (platform : Platform) (fuel : Nat) (desc : FileDesc) (manager : BlockManager) :
    ∃ made, Writes (fun manager => (onFd platform fuel desc manager).map (Prod.mk false)) manager
      made := by
  have quiet : ∀ after : BlockManager, after.trace = manager.trace → (∀ polling,
      onFd platform fuel desc (BlockManager.withPolling manager polling) =
        .ok (BlockManager.withPolling after polling)) →
      ∃ made, Writes (fun manager => (onFd platform fuel desc manager).map (Prod.mk false)) manager
        made :=
    fun after trace done => ⟨.nil, .silent (fun polling => congrArg (Except.map (Prod.mk false))
      (done polling)) ⟨[], trace.trans (List.append_nil _).symm⟩⟩
  have derefs : ∀ polling ref, (BlockManager.withPolling manager polling).blocks.deref ref =
    manager.blocks.deref ref := fun _ _ => rfl
  have kinds : ∀ polling ref, BlockManager.kind (BlockManager.withPolling manager polling) ref =
    manager.kind ref := fun _ _ => rfl
  rcases owner : desc.bk with _ | ref
  · refine quiet manager rfl fun polling => ?_
    simp only [onFd, owner]
  · rcases object : manager.blocks.deref ref with _ | block
    · have failed : ∀ polling, (onFd platform fuel desc
          (BlockManager.withPolling manager polling)).map (Prod.mk false) =
            .error (.dangling ref) := by
        intro polling
        simp only [onFd, owner, derefs, object, Except.map]
      exact ⟨.nil, .error failed⟩
    · by_cases receives : ∃ hook, manager.kind ref = some (.hookZmq hook) ∧
        desc.socket = hook.zmq_sock_.socket
      · obtain ⟨hook, kind, own⟩ := receives
        rcases received : hook.recv_ Buffer.empty manager.world.zmq with ⟨_ | _, buf, zmq⟩
        · refine quiet { manager with world := { manager.world with zmq := zmq } } rfl
            fun polling => ?_
          simp only [onFd, owner, derefs, object, kinds, kind, if_pos own]
          rw [show hook.recv_ Buffer.empty (BlockManager.withPolling manager polling).world.zmq =
            (false, buf, zmq) from received]
          rfl
        · have received_by : ∀ polling,
              onFd platform fuel desc (BlockManager.withPolling manager polling) =
                flow platform fuel [ref] (some buf) ref
                  (receipt (BlockManager.withPolling manager polling) ref hook zmq) := by
            intro polling
            have live : (BlockManager.withPolling manager polling).blocks.Live ref :=
              Registry.live_iff.mpr ⟨block, object⟩
            have received' : hook.recv_ Buffer.empty
              (BlockManager.withPolling manager polling).world.zmq = (true, buf, zmq) := received
            exact onFd_of_received owner live ((kinds polling ref).trans kind) own received' fuel
          obtain ⟨made, flows⟩ := writes_processData
            (fun sink manager => writes_blockData fuel [ref, ref] (some buf) sink manager) fuel ref
            (receipt manager ref hook zmq)
          have whole := flows.after (fun manager => receipt manager ref hook zmq) (fun _ => rfl) rfl
          exact ⟨made, whole.congr fun polling =>
            congrArg (Except.map (Prod.mk false)) (received_by polling)⟩
      · refine quiet manager rfl fun polling => ?_
        simp only [onFd, owner, derefs, object, kinds]
        split
        · rename_i hook kind
          rw [if_neg fun own => receives ⟨hook, kind, own⟩]
        · rfl

theorem map_mk_inj {left right : Except Fault BlockManager}
    (same : left.map (Prod.mk false) = right.map (Prod.mk false)) : left = right := by
  rcases left with fault | after <;> rcases right with fault' | after' <;> cases same <;> rfl

/-- The calls that `on_fd_` makes do not depend on the polling set, and the rest of what it does
does not either. -/
theorem onFd_calls (platform : Platform) (fuel : Nat) (desc : FileDesc) (manager : BlockManager) :
    ∃ made : FdCalls,
      (∀ polling, onFd platform fuel desc (manager.withPolling polling) =
        (onFd platform fuel desc manager).map fun after =>
          after.withPolling (made.perform polling)) ∧
      ∀ after, onFd platform fuel desc manager = .ok after →
        after.world.polling = made.perform manager.world.polling ∧
        ∃ events, after.trace = manager.trace ++ events ∧
          ∀ removed, .fdRemove removed ∈ made.calls → ∃ ref, .stop_ ref ∈ events := by
  obtain ⟨made, result, removals⟩ := writes_onFd platform fuel desc manager
  have same : ∀ polling, onFd platform fuel desc (manager.withPolling polling) =
      (onFd platform fuel desc manager).map fun after =>
        after.withPolling (made.perform polling) := by
    intro polling
    apply map_mk_inj
    rw [result polling]
    cases onFd platform fuel desc manager <;> rfl
  refine ⟨made, same, fun after done => ⟨?_, ?_⟩⟩
  · have here := same manager.world.polling
    rw [BlockManager.withPolling_self, done] at here
    exact congrArg (fun manager => manager.world.polling) (Except.ok.inj here)
  · exact removals false after (by rw [done]; rfl)

end

end C3qo
