import C3qo.BlockSteps
import C3qo.Commuting
import C3qo.Sockets

/-!
# The monitoring blocks

`main` starts the hook with the identifier -1 and the interpreter with the identifier -2, and binds
them to each other. They stay started and bound, and the socket of the hook stays its own, as long
as no command stops or binds one of them. Commands that delete or configure them have no effect on
what they do, and neither have commands that start them again.
-/

namespace C3qo

/-- The command stops none of the monitoring blocks, and binds none of them or to them. -/
def Command.Spares : Command → Prop
  | .stop id => id ≠ -1 ∧ id ≠ -2
  | .bind id _ dest => (id ≠ -1 ∧ id ≠ -2) ∧ dest ≠ -1 ∧ dest ≠ -2
  | _ => True

instance Command.instDecidableSpares (command : Command) : Decidable command.Spares := by
  cases command <;> unfold Command.Spares <;> infer_instance

/-- The factory of a block, and its socket if it is a hook. -/
def Derived.wire (derived : Derived) : Factory × Option Pointer :=
  (derived.factory, derived.claim.map Claim.socket)

/-- The monitoring blocks are started and bound to each other, with a socket at the address. -/
structure Monitored (address : Nat) (manager : BlockManager) : Prop where
  /-- The hook. -/
  hook : manager.blocks.deref 0 = some ⟨-1, "hook_zmq", true, some 1⟩
  /-- The interpreter. -/
  interpreter : manager.blocks.deref 1 = some ⟨-2, "trans_pb", true, some 0⟩
  /-- The hook is one, and has the socket. -/
  socket : (manager.kind 0).map Derived.wire = some (.hookZmq, some (some address))
  /-- The interpreter is one. -/
  transPb : (manager.kind 1).map Derived.wire = some (.transPb, none)
  /-- No other block hands them data. -/
  sinks : ∀ ref block, ref ≠ 0 → ref ≠ 1 → manager.blocks.deref ref = some block →
    block.sink_ ≠ some 0 ∧ block.sink_ ≠ some 1
  /-- No other hook has the socket. -/
  alone : ∀ ref, ref ≠ 0 →
    (manager.kind ref).map Derived.wire ≠ some (.hookZmq, some (some address))

theorem Derived.wire_hookZmq (hook : HookZmq) :
    (Derived.hookZmq hook).wire = (.hookZmq, some hook.zmq_sock_.socket) := rfl

theorem wire_eq_transPb {kind : Option Derived} :
    kind.map Derived.wire = some (.transPb, none) ↔ kind = some .transPb := by
  rcases kind with _ | ⟨_ | _ | _⟩ <;> simp [Derived.wire, Derived.factory, Derived.claim]

theorem wire_eq_hookZmq {kind : Option Derived} {pointer : Pointer} :
    kind.map Derived.wire = some (.hookZmq, some pointer) ↔
      ∃ hook, kind = some (.hookZmq hook) ∧ hook.zmq_sock_.socket = pointer := by
  rcases kind with _ | ⟨_ | _ | hook⟩ <;>
    simp [Derived.wire, Derived.factory, Derived.claim, HookZmq.claim, Claim.socket]

/-- A hook that has just been built holds what was in the memory. -/
theorem World.wire_constructor {platform : Platform} {factory : Factory} {ref : BlockRef}
    {world after : World} {address : Nat}
    (memory : (platform.hookMemory ref).2.socket ≠ some address)
    (answer : world.constructor platform factory ref = (true, after)) :
    (after.derived.lookup ref).map Derived.wire ≠ some (.hookZmq, some (some address)) := by
  intro same
  obtain ⟨hook, kind, socket⟩ := wire_eq_hookZmq.mp same
  cases factory with
  | failure => cases answer
  | hello =>
      cases answer
      cases (Finmap.lookup_insert _).symm.trans kind
  | transPb =>
      cases answer
      cases (Finmap.lookup_insert _).symm.trans kind
  | hookZmq =>
      cases answer
      cases (Finmap.lookup_insert _).symm.trans kind
      exact memory socket

/-- A hook that starts gets no socket that is open, and leaves those alone. -/
theorem World.wire_start (platform : Platform) {ref : BlockRef} {world : World} {address : Nat}
    (open_ : (world.zmq.lookup (some address)).isSome)
    (other : (world.derived.lookup ref).map Derived.wire ≠ some (.hookZmq, some (some address))) :
    ((world.start_ platform ref).derived.lookup ref).map Derived.wire ≠
        some (.hookZmq, some (some address)) ∧
      (world.start_ platform ref).zmq.lookup (some address) =
        world.zmq.lookup (some address) := by
  unfold start_
  split
  · rename_i hook there
    obtain ⟨-, socket, -⟩ := hook.start_opens platform ref world.polling world.zmq
    have different : (hook.start_ platform ref world.polling world.zmq).1.zmq_sock_.socket ≠
        some address := by
      rw [socket]
      rcases world.zmq.create_cases platform with ⟨null, -⟩ | ⟨new, made, given, -, free, -⟩
      · simp [null]
      · rw [given]
        intro same
        rw [same] at free
        simp [free] at open_
    refine ⟨fun same => ?_, (hook.start_registers platform ref world.polling world.zmq).zmq _
      different⟩
    obtain ⟨hook', kind, socket'⟩ := wire_eq_hookZmq.mp same
    cases (Finmap.lookup_insert _).symm.trans kind
    exact different socket'
  · exact ⟨other, rfl⟩

/-- A hook that stops closes no socket but its own. -/
theorem World.wire_stop {ref : BlockRef} {world : World} {address : Nat}
    (other : (world.derived.lookup ref).map Derived.wire ≠ some (.hookZmq, some (some address))) :
    (world.stop_ ref).zmq.lookup (some address) = world.zmq.lookup (some address) := by
  unfold stop_
  split
  · rename_i hook there
    exact hook.lookup_stop_of_ne world.polling world.zmq fun same =>
      other (wire_eq_hookZmq.mpr ⟨hook, there, same⟩)
  · rfl

/-- What is polled first stays first when others are added. -/
theorem Polling.first_fdAdd {polling : Polling} {first : FileDesc}
    (there : polling.callback_.head? = some first) (uninit : Nat) (desc : FileDesc) :
    (polling.fdAdd uninit desc).2.callback_.head? = some first := by
  rcases polling.fdAdd_cases uninit desc with ⟨same, -⟩ | ⟨-, stored, -⟩
  · rw [same, there]
  · rw [stored, List.head?_append, there]
    rfl

/-- So it does when others are removed. -/
theorem Polling.first_fdRemove {polling : Polling} {first desc : FileDesc}
    (there : polling.callback_.head? = some first) (other : first.key ≠ desc.key) :
    (polling.fdRemove desc).callback_.head? = some first := by
  obtain ⟨rest, whole⟩ := List.head?_eq_some_iff.mp there
  rw [(polling.fdRemove_eq_filter desc).1, whole, List.filter_cons_of_pos (by simpa using other)]
  rfl

theorem World.first_start (platform : Platform) (ref : BlockRef) {world : World}
    {first : FileDesc} (there : world.polling.callback_.head? = some first) :
    (world.start_ platform ref).polling.callback_.head? = some first := by
  unfold start_
  split
  · rename_i hook _
    change (hook.start_ platform ref world.polling world.zmq).2.1.callback_.head? = some first
    rcases (hook.start_registers platform ref world.polling world.zmq).polling with
      same | ⟨uninit, -, added⟩
    · rw [same]
      exact there
    · rw [added]
      exact Polling.first_fdAdd there uninit _
  · exact there

theorem World.first_stop {ref : BlockRef} {world : World} {first : FileDesc} {address : Nat}
    (there : world.polling.callback_.head? = some first) (own : first.socket = some address)
    (other : (world.derived.lookup ref).map Derived.wire ≠ some (.hookZmq, some (some address))) :
    (world.stop_ ref).polling.callback_.head? = some first := by
  unfold stop_
  split
  · rename_i hook found
    refine Polling.first_fdRemove there fun same => other (wire_eq_hookZmq.mpr ⟨hook, found, ?_⟩)
    exact (congrArg Prod.snd same).symm.trans own
  · exact there

namespace HookZmq

variable (hook : HookZmq) {address : Pointer} (different : hook.zmq_sock_.socket ≠ address)

include different

/-- Receiving leaves other sockets alone. -/
theorem lookup_recv_of_ne (buf : Buffer) (zmq : Zmq) :
    (hook.recv_ buf zmq).2.2.lookup address = zmq.lookup address := by
  unfold recv_
  split
  · rfl
  · exact Zmq.lookup_modify_of_ne _ _ different

/-- So does sending. -/
theorem lookup_data_of_ne (platform : Platform) (vdata : Option Buffer) (zmq : Zmq) :
    (hook.data_ platform vdata zmq).2.2.lookup address = zmq.lookup address := by
  cases vdata with
  | none => rfl
  | some buf => exact lookup_sendLoop_of_ne platform different buf.parts_ zmq

end HookZmq

/-- The monitoring blocks are as they should be, and their socket is as it was, and polled first if
it was. -/
structure Undisturbed (address : Nat) (before after : BlockManager) : Prop where
  /-- The blocks are started and bound to each other. -/
  monitored : Monitored address after
  /-- The socket has not changed. -/
  socket : after.world.zmq.lookup (some address) = before.world.zmq.lookup (some address)
  /-- What is polled first stays first. -/
  first : ∀ desc, desc.socket = some address →
    before.world.polling.callback_.head? = some desc →
      after.world.polling.callback_.head? = some desc

namespace Monitored

variable {platform : Platform} {address : Nat} {before after : BlockManager} {ref : BlockRef}
  {id : Int} (monitored : Monitored address before)

include monitored

/-- Blocks may get other fields, if the hooks keep their sockets. -/
theorem rewired (blocks : after.blocks = before.blocks)
    (wires : ∀ ref, (after.kind ref).map Derived.wire = (before.kind ref).map Derived.wire) :
    Monitored address after := by
  obtain ⟨hook, interpreter, socket, transPb, sinks, alone⟩ := monitored
  constructor
  · rw [blocks, hook]
  · rw [blocks, interpreter]
  · rw [wires, socket]
  · rw [wires, transPb]
  · rwa [blocks]
  · exact fun ref other => wires ref ▸ alone ref other

/-- Another block may change, if it does not hand them data or get the socket. -/
theorem revised (foreign : ref ≠ 0 ∧ ref ≠ 1)
    (objects : ∀ other, other ≠ ref → after.blocks.deref other = before.blocks.deref other)
    (kinds : ∀ other, other ≠ ref → after.kind other = before.kind other)
    (sink : ∀ block, after.blocks.deref ref = some block →
      block.sink_ ≠ some 0 ∧ block.sink_ ≠ some 1)
    (wire : (after.kind ref).map Derived.wire ≠ some (.hookZmq, some (some address))) :
    Monitored address after := by
  obtain ⟨hook, interpreter, socket, transPb, sinks, alone⟩ := monitored
  constructor
  · rw [objects 0 (Ne.symm foreign.1), hook]
  · rw [objects 1 (Ne.symm foreign.2), interpreter]
  · rw [kinds 0 (Ne.symm foreign.1), socket]
  · rw [kinds 1 (Ne.symm foreign.2), transPb]
  · intro other block not_hook not_interpreter object
    by_cases same : other = ref
    · exact sink block (same ▸ object)
    · rw [objects other same] at object
      exact sinks other block not_hook not_interpreter object
  · intro other not_hook
    by_cases same : other = ref
    · exact same ▸ wire
    · rw [kinds other same]
      exact alone other not_hook

/-- Blocks that are not started are others. -/
theorem foreign_of_idle {block : Block} (object : before.blocks.deref ref = some block)
    (idle : block.is_started_ = false) : ref ≠ 0 ∧ ref ≠ 1 := by
  constructor
  · rintro rfl
    rw [monitored.hook] at object
    cases object
    cases idle
  · rintro rfl
    rw [monitored.interpreter] at object
    cases object
    cases idle

/-- So are blocks with other identifiers. -/
theorem foreign_of_id {block : Block} (object : before.blocks.deref ref = some block)
    (other : block.id_ ≠ -1 ∧ block.id_ ≠ -2) : ref ≠ 0 ∧ ref ≠ 1 := by
  constructor
  · rintro rfl
    rw [monitored.hook] at object
    cases object
    exact other.1 rfl
  · rintro rfl
    rw [monitored.interpreter] at object
    cases object
    exact other.2 rfl

theorem foreign_of_get (there : before.blocks.get id = some ref) (other : id ≠ -1 ∧ id ≠ -2) :
    ref ≠ 0 ∧ ref ≠ 1 := by
  obtain ⟨block, object, rfl⟩ := Registry.deref_of_get there
  exact monitored.foreign_of_id object other

/-- So is the block that is built next. -/
theorem foreign_next : before.blocks.next ≠ 0 ∧ before.blocks.next ≠ 1 := by
  have older : 1 < before.blocks.next := before.blocks.fresh 1 _ monitored.interpreter
  exact ⟨Nat.ne_of_gt (Nat.lt_trans Nat.zero_lt_one older), Nat.ne_of_gt older⟩

/-! ## Commands -/

/-- A block is added. -/
theorem added (memory : ∀ ref, (platform.hookMemory ref).2.socket ≠ some address) (id : Int)
    (type_ : String) :
    Undisturbed address before (before.blockAdd (virtual platform) id type_).2 := by
  unfold Manager.blockAdd
  split
  · exact ⟨monitored, rfl, fun _ _ first => first⟩
  · rename_i free
    split
    · exact ⟨monitored, rfl, fun _ _ first => first⟩
    · rename_i factory registered
      dsimp only
      split
      · rename_i world answer
        obtain rfl := World.constructor_false answer
        exact ⟨monitored, rfl, fun _ _ first => first⟩
      · rename_i world answer
        obtain ⟨-, polling, zmq, kinds⟩ := World.constructor_frame answer
        have deref := before.blocks.deref_insert id type_ free
        refine ⟨monitored.revised monitored.foreign_next
          (fun other different => (deref other).trans (if_neg different)) kinds
          (fun block object => ?_) (World.wire_constructor (memory _) answer),
          congrArg (fun zmq : Zmq => zmq.lookup (some address)) zmq,
          fun _ _ first => polling ▸ first⟩
        have built := (deref _).symm.trans object
        rw [if_pos rfl] at built
        cases built
        exact ⟨by simp, by simp⟩

/-- A block is started. -/
theorem started (open_ : (before.world.zmq.lookup (some address)).isSome) (id : Int) :
    Undisturbed address before (before.blockStart (virtual platform) id).2 := by
  unfold Manager.blockStart
  split
  · exact ⟨monitored, rfl, fun _ _ first => first⟩
  · rename_i ref block found
    split_ifs with running
    · exact ⟨monitored, rfl, fun _ _ first => first⟩
    · obtain ⟨object, -⟩ := Registry.find_eq_some_iff.mp found
      have foreign := monitored.foreign_of_idle object (Bool.eq_false_iff.mpr running)
      have deref := before.blocks.deref_setStarted ref true
      obtain ⟨wire, socket⟩ := before.world.wire_start platform open_
        (monitored.alone ref foreign.1)
      refine ⟨monitored.revised foreign
        (fun other different => (deref other).trans (if_neg different))
        (start_frame platform ref before.world).2.1 (fun block' object' => ?_) wire, socket,
        fun _ _ first => World.first_start platform ref first⟩
      have marked := (deref _).symm.trans object'
      rw [if_pos rfl, object] at marked
      cases marked
      exact monitored.sinks ref block foreign.1 foreign.2 object

/-- A block is stopped. -/
theorem stopped {id : Int} (other : id ≠ -1 ∧ id ≠ -2) :
    Undisturbed address before (before.blockStop (virtual platform) id).2 := by
  rcases before.blockStop_cases (virtual platform) id with
    same | ⟨ref, block, found, -, stopped⟩
  · rw [same]
    exact ⟨monitored, rfl, fun _ _ first => first⟩
  · obtain ⟨object, rfl⟩ := Registry.find_eq_some_iff.mp found
    have foreign := monitored.foreign_of_id object other
    have deref := before.blocks.deref_setStarted ref false
    have kinds : (before.world.stop_ ref).derived = before.world.derived :=
      (stop_frame ref before.world).2.1
    have alone := monitored.alone ref foreign.1
    rw [stopped]
    refine ⟨monitored.revised foreign
      (fun other different => (deref other).trans (if_neg different))
      (fun other _ => congrArg (fun derived => derived.lookup other) kinds)
      (fun block' object' => ?_) ?_, World.wire_stop alone,
      fun _ own first => World.first_stop first own alone⟩
    · have marked := (deref _).symm.trans object'
      rw [if_pos rfl, object] at marked
      cases marked
      exact monitored.sinks ref block foreign.1 foreign.2 object
    · have same : (before.world.stop_ ref).derived.lookup ref = before.kind ref :=
        congrArg (fun derived => derived.lookup ref) kinds
      exact fun wire => alone (same ▸ wire)

/-- A block is deleted. -/
theorem deleted (id : Int) :
    Undisturbed address before (before.blockDel (virtual platform) id).2 := by
  rcases before.blockDel_cases (virtual platform) id with
    ⟨-, same⟩ | ⟨ref, block, factory, found, idle, -, gone⟩
  · rw [same]
    exact ⟨monitored, rfl, fun _ _ first => first⟩
  · obtain ⟨object, rfl⟩ := Registry.find_eq_some_iff.mp found
    have deref := Registry.deref_remove (Registry.id_of_deref object)
    rw [gone]
    refine ⟨monitored.revised (monitored.foreign_of_idle object idle)
      (fun other different => (deref other).trans (if_neg different))
      (fun other different => Finmap.lookup_erase_ne different) (fun block' object' => ?_) ?_, rfl,
      fun _ _ first => first⟩
    · have removed := (deref _).symm.trans object'
      rw [if_pos rfl] at removed
      cases removed
    · have erased : (before.world.derived.erase ref).lookup ref = none := Finmap.lookup_erase ..
      intro wire
      cases (congrArg (Option.map Derived.wire) erased).symm.trans wire

/-- A block is bound. -/
theorem bound {id dest : Int} (port : Int) (other : id ≠ -1 ∧ id ≠ -2)
    (other' : dest ≠ -1 ∧ dest ≠ -2) :
    Undisturbed address before (before.blockBind (virtual platform) id port dest).2 := by
  unfold Manager.blockBind
  split
  · rename_i src dst there there'
    have foreign := monitored.foreign_of_get there other
    have foreign' := monitored.foreign_of_get there' other'
    have deref := before.blocks.deref_setSink src dst
    refine ⟨monitored.revised foreign
      (fun other different => (deref other).trans (if_neg different)) (fun _ _ => rfl)
      (fun block object => ?_) (monitored.alone src foreign.1), rfl,
      fun _ _ first => first⟩
    have rebound := (deref _).symm.trans object
    rw [if_pos rfl] at rebound
    obtain ⟨old, -, rfl⟩ := Option.map_eq_some_iff.mp rebound
    simpa using foreign'
  · exact ⟨monitored, rfl, fun _ _ first => first⟩

/-- Any block gets other fields, and a hook keeps its socket. -/
theorem refitted {old derived : Derived} (kind : before.kind ref = some old)
    (same : derived.wire = old.wire) : Monitored address (before.setDerived ref derived) := by
  refine monitored.rewired rfl fun other => ?_
  by_cases here : other = ref
  · rw [here, before.kind_setDerived, kind, Option.map_some, Option.map_some, same]
  · rw [before.kind_setDerived_of_ne _ here]

/-- Any hook gets another configuration. -/
theorem configured {hook hook' : HookZmq} (kind : before.kind ref = some (.hookZmq hook))
    (same : hook'.zmq_sock_ = hook.zmq_sock_) :
    Monitored address (before.setDerived ref (.hookZmq hook')) :=
  monitored.refitted kind (by rw [Derived.wire_hookZmq, Derived.wire_hookZmq, same])

/-- A command that spares the monitoring blocks does not disturb them. -/
theorem executed (open_ : (before.world.zmq.lookup (some address)).isSome)
    (memory : ∀ ref, (platform.hookMemory ref).2.socket ≠ some address) {data : Bytes}
    {result : Bool × BlockManager} (spares : (platform.command data).Spares)
    (done : protoCommandParse platform data before = .ok result) :
    Undisturbed address before result.2 := by
  unfold protoCommandParse at done
  unfold Platform.command at spares
  rcases unpacked : platform.unpack data with _ | command <;> rw [unpacked] at done spares
  · cases done
    exact ⟨monitored, rfl, fun _ _ first => first⟩
  · cases command with
    | add id type_ =>
        cases done
        exact monitored.added memory id type_
    | start id =>
        cases done
        exact monitored.started open_ id
    | stop id =>
        cases done
        exact monitored.stopped spares
    | del id =>
        cases done
        exact monitored.deleted id
    | bind id port dest =>
        cases done
        exact monitored.bound port spares.1 spares.2
    | hookZmq id client type_ name addr =>
        dsimp only at done
        split at done
        · cases done
          exact ⟨monitored, rfl, fun _ _ first => first⟩
        · split at done
          · rename_i hook kind
            cases done
            exact ⟨monitored.configured kind rfl, rfl, fun _ _ first => first⟩
          · cases done
    | term =>
        cases done
        exact ⟨monitored.rewired rfl fun _ => rfl, rfl, fun _ _ first => first⟩
    | notSet =>
        cases done
        exact ⟨monitored, rfl, fun _ _ first => first⟩

/-! ## Other blocks -/

/-- Steps of other blocks do not disturb them, unless they execute a command that does not spare
them. -/
theorem foreign_step (open_ : (before.world.zmq.lookup (some address)).isSome)
    (memory : ∀ ref, (platform.hookMemory ref).2.socket ≠ some address)
    (foreign : ref ≠ 0 ∧ ref ≠ 1) (step : BlockStep platform before ref after)
    (spares : ∀ data, .command ref data ∈ after.world.log → (platform.command data).Spares) :
    Undisturbed address before after := by
  have alone : ∀ hook, before.kind ref = some (.hookZmq hook) →
      hook.zmq_sock_.socket ≠ some address := fun hook kind same =>
    monitored.alone ref foreign.1 (wire_eq_hookZmq.mpr ⟨hook, kind, same⟩)
  cases step with
  | fetched hook buf zmq kind received =>
      have others := hook.lookup_recv_of_ne (alone hook kind) Buffer.empty before.world.zmq
      rw [received] at others
      have refitted : Monitored address (before.setDerived ref
          (.hookZmq { hook with rx_pkt_ := hook.rx_pkt_ + 1 })) :=
        monitored.refitted kind rfl
      exact ⟨refitted.rewired rfl fun _ => rfl, others, fun _ _ first => first⟩
  | missed hook buf zmq kind failed =>
      have others := hook.lookup_recv_of_ne (alone hook kind) Buffer.empty before.world.zmq
      rw [failed] at others
      exact ⟨monitored.rewired rfl fun _ => rfl, others, fun _ _ first => first⟩
  | ignored vdata live deaf =>
      exact ⟨monitored.rewired rfl fun _ => rfl, rfl, fun _ _ first => first⟩
  | counted vdata name_ count_ live kind =>
      have received : Monitored address (received before ref vdata) :=
        monitored.rewired rfl fun _ => rfl
      exact ⟨received.refitted kind rfl, rfl, fun _ _ first => first⟩
  | sent vdata hook live kind =>
      have others := hook.lookup_data_of_ne (alone hook kind) platform vdata before.world.zmq
      have socket := hook.zmq_sock_data platform vdata before.world.zmq
      have refitted : Monitored address (before.setDerived ref
          (.hookZmq (hook.data_ platform vdata before.world.zmq).2.1)) :=
        monitored.configured kind socket
      exact ⟨refitted.rewired rfl fun _ => rfl, others, fun _ _ first => first⟩
  | executed vdata payload is_ok next live kind command done =>
      have state : Monitored address (commanded before ref vdata payload) :=
        monitored.rewired rfl fun _ => rfl
      have recorded : .command ref payload ∈ (next.record (.reply ref is_ok)).world.log := by
        simp [BlockManager.record, log_executed done, commanded]
      obtain ⟨monitored', socket, first⟩ :=
        state.executed open_ memory (spares payload recorded) done
      exact ⟨monitored'.rewired rfl fun _ => rfl, socket, first⟩

end Monitored

end C3qo
