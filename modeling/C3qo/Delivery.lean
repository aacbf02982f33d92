import C3qo.CallTree
import C3qo.FlowTermination

/-!
# Delivery along a chain of sinks

`process_data_` called on a block whose sinks form a chain that ends. Every call goes down the
chain as far as the blocks forward the data, and comes back to no block: a chain of sinks that ends
meets nothing twice. As long as the `data_` callbacks leave the sinks alone, each call finds the
chain that the first one found.
-/

namespace C3qo

open Walk

variable {F W : Type}

/-- The sink of a live block. -/
def Registry.sinkOf (registry : Registry) (ref : BlockRef) : Option BlockRef :=
  (registry.deref ref).bind Block.sink_

/-- The blocks of a chain: live, each one the sink of the one before, the last one unbound. -/
structure SinkChain (blocks : Registry) (source : BlockRef) (chain : List BlockRef) : Prop where
  /-- The source and the blocks of the chain are live. -/
  live : ∀ ref ∈ source :: chain, blocks.Live ref
  /-- Following the sinks from the source leads along the chain to its end. -/
  trail : Trail blocks.sinkOf source chain

/-- All sinks are what they were. -/
def SameSinks (before after : Manager F W) : Prop :=
  ∀ ref, (after.blocks.deref ref).map Block.sink_ = (before.blocks.deref ref).map Block.sink_

/-- The blocks that the data comes to: those that forward it, and the first one that does not. -/
def delivered (forwards : BlockRef → Bool) (chain : List BlockRef) : List BlockRef :=
  chain.takeWhile forwards ++ (chain.dropWhile forwards).take 1

/-- The `data_` callbacks of the blocks return, with the chosen answers, and rebind nothing. What
they rely on holds again afterwards. -/
def LeavesSinks (data_ : BlockRef → Manager F W → Except Fault (Bool × Manager F W))
    (forwards : BlockRef → Bool) (Holds : Manager F W → Prop) (chain : List BlockRef) : Prop :=
  ∀ ref ∈ chain, ∀ before, Holds before →
    ∃ after, data_ ref before = .ok (forwards ref, after) ∧ Holds after ∧ SameSinks before after

/-- A number of calls of `process_data_` on a block, with the blocks that are handed the data. -/
def deliveries (data_ : BlockRef → Manager F W → Except Fault (Bool × Manager F W)) (fuel : Nat)
    (source : BlockRef) : Nat → Manager F W → List BlockRef × Except Fault (Manager F W)
  | 0, manager => ([], .ok manager)
  | times + 1, manager =>
      match processDataCalls (fun ref manager => ([ref], data_ ref manager)) fuel source
          manager with
      | (refs, .error fault) => (refs, .error fault)
      | (refs, .ok manager) =>
          let (later, result) := deliveries data_ fuel source times manager
          (refs ++ later, result)

/-! ## One call -/

theorem delivered_of_forwards {forwards : BlockRef → Bool} {ref : BlockRef}
    (chain : List BlockRef) (forwarded : forwards ref = true) :
    delivered forwards (ref :: chain) = ref :: delivered forwards chain := by
  simp [delivered, forwarded]

theorem delivered_of_stops {forwards : BlockRef → Bool} {ref : BlockRef} (chain : List BlockRef)
    (stops : forwards ref = false) : delivered forwards (ref :: chain) = [ref] := by
  simp [delivered, stops]

/-- The data stays on the chain. -/
theorem delivered_sublist (forwards : BlockRef → Bool) (chain : List BlockRef) :
    (delivered forwards chain).Sublist chain := by
  have split : chain.takeWhile forwards ++ chain.dropWhile forwards = chain :=
    List.takeWhile_append_dropWhile
  have kept := (List.Sublist.refl (chain.takeWhile forwards)).append
    (List.take_sublist 1 (chain.dropWhile forwards))
  rw [split] at kept
  exact kept

theorem SameSinks.refl (manager : Manager F W) : SameSinks manager manager := fun _ => rfl

theorem SameSinks.trans {first second third : Manager F W} (before : SameSinks first second)
    (after : SameSinks second third) : SameSinks first third :=
  fun ref => (after ref).trans (before ref)

namespace SinkChain

variable {source sink : BlockRef} {chain : List BlockRef}

/-- The block of an empty chain is not bound. -/
theorem unbound {blocks : Registry} (sinks : SinkChain blocks source []) :
    ∃ block, blocks.deref source = some block ∧ block.sink_ = none := by
  obtain ⟨block, object⟩ := Option.isSome_iff_exists.mp (sinks.live source List.mem_cons_self)
  have last : (blocks.deref source).bind Block.sink_ = none := sinks.trail
  rw [object] at last
  exact ⟨block, object, last⟩

/-- The block of any other chain is bound to the first block of the chain. -/
theorem bound {blocks : Registry} (sinks : SinkChain blocks source (sink :: chain)) :
    ∃ block target, blocks.deref source = some block ∧ block.sink_ = some sink ∧
      blocks.deref sink = some target ∧ SinkChain blocks sink chain := by
  obtain ⟨block, object⟩ := Option.isSome_iff_exists.mp (sinks.live source List.mem_cons_self)
  obtain ⟨target, object'⟩ := Option.isSome_iff_exists.mp
    (sinks.live sink (List.mem_cons_of_mem _ List.mem_cons_self))
  have next : (blocks.deref source).bind Block.sink_ = some sink := sinks.trail.1
  rw [object] at next
  exact ⟨block, target, object, next, object',
    fun ref member => sinks.live ref (List.mem_cons_of_mem _ member), sinks.trail.2⟩

/-- A chain is a chain as long as the sinks are the same. -/
theorem congr {before after : Manager F W} (same : SameSinks before after)
    (sinks : SinkChain before.blocks source chain) : SinkChain after.blocks source chain := by
  constructor
  · intro ref member
    have mapped : ∀ object : Option Block, (object.map Block.sink_).isSome = object.isSome :=
      fun object => Option.isSome_map ..
    have live : (before.blocks.deref ref).isSome = true := sinks.live ref member
    rw [← mapped, ← same ref, mapped] at live
    exact live
  · refine sinks.trail.congr fun ref => ?_
    have join : ∀ object : Option Block, object.bind Block.sink_ = (object.map Block.sink_).join :=
      fun object => by cases object <;> rfl
    unfold Registry.sinkOf
    rw [join, join, same ref]

end SinkChain

section Delivery

variable {data_ : BlockRef → Manager F W → Except Fault (Bool × Manager F W)}
  {forwards : BlockRef → Bool} {Holds : Manager F W → Prop} {source : BlockRef}
  {chain : List BlockRef} {fuel : Nat}

/-- One call comes to the blocks of the chain up to the first that does not forward. -/
theorem processDataCalls_chain {manager : Manager F W} (holds : Holds manager)
    (sinks : SinkChain manager.blocks source chain)
    (leaves : LeavesSinks data_ forwards Holds chain) (enough : chain.length < fuel) :
    ∃ after, processDataCalls (fun ref manager => ([ref], data_ ref manager)) fuel source manager =
        (delivered forwards chain, .ok after) ∧ Holds after ∧ SameSinks manager after := by
  induction chain generalizing fuel source manager with
  | nil =>
      obtain ⟨fuel, rfl⟩ := Nat.exists_eq_add_of_lt enough
      obtain ⟨block, object, unbound⟩ := sinks.unbound
      refine ⟨manager, ?_, holds, .refl manager⟩
      simp [processDataCalls, object, unbound, delivered]
  | cons sink chain ih =>
      obtain ⟨fuel, rfl⟩ := Nat.exists_eq_add_of_lt enough
      obtain ⟨block, target, object, bound, object', rest⟩ := sinks.bound
      obtain ⟨next, handed, holds', same⟩ := leaves sink List.mem_cons_self manager holds
      have leaves_rest : LeavesSinks data_ forwards Holds chain :=
        fun ref member => leaves ref (List.mem_cons_of_mem _ member)
      simp only [processDataCalls, object, bound, object', handed]
      cases forwarded : forwards sink with
      | true =>
          have longer : chain.length < (sink :: chain).length + fuel := by
            rw [List.length_cons]
            omega
          obtain ⟨after, later, holds_after, same'⟩ :=
            ih holds' (rest.congr same) leaves_rest longer
          refine ⟨after, ?_, holds_after, same.trans same'⟩
          rw [delivered_of_forwards chain forwarded]
          simp only [later]
          rfl
      | false =>
          refine ⟨next, ?_, holds', same⟩
          rw [delivered_of_stops chain forwarded]

/-! ## Any number of calls -/

/-- Every call finds the chain of the first one. -/
theorem deliveries_chain (times : Nat) {manager : Manager F W} (holds : Holds manager)
    (sinks : SinkChain manager.blocks source chain)
    (leaves : LeavesSinks data_ forwards Holds chain) (enough : chain.length < fuel) :
    ∃ after, deliveries data_ fuel source times manager =
        ((List.replicate times (delivered forwards chain)).flatten, .ok after) ∧
      Holds after ∧ SameSinks manager after := by
  induction times generalizing manager with
  | zero => exact ⟨manager, rfl, holds, .refl manager⟩
  | succ times ih =>
      obtain ⟨next, call, holds', same⟩ := processDataCalls_chain holds sinks leaves enough
      obtain ⟨after, later, holds_after, same'⟩ := ih holds' (sinks.congr same)
      refine ⟨after, ?_, holds_after, same.trans same'⟩
      simp only [deliveries, call, later]
      rfl

/-- What a number of calls of `process_data_` deliver along a chain. -/
structure Delivers (manager : Manager F W) (forwards : BlockRef → Bool) (source : BlockRef)
    (chain : List BlockRef) (times : Nat) (run : List BlockRef × Except Fault (Manager F W)) :
    Prop where
  /-- Each call comes to the blocks up to the first that does not forward, in chain order. -/
  order : run.1 = (List.replicate times (delivered forwards chain)).flatten
  /-- Each of these blocks is handed the data once in each call. -/
  received : ∀ ref ∈ delivered forwards chain, run.1.count ref = times
  /-- No other block is handed anything. -/
  others : ∀ ref ∉ delivered forwards chain, ref ∉ run.1
  /-- The block that the flow starts from is not handed anything. -/
  source_receives_nothing : source ∉ run.1
  /-- The calls return, and all sinks are what they were. -/
  returned : ∃ after, run.2 = .ok after ∧ SameSinks manager after

/-- The calls are those of `process_data_`, one after the other. -/
theorem snd_deliveries (times : Nat) (manager : Manager F W) :
    (deliveries data_ fuel source times manager).2 =
      (fun result => result >>= processData data_ fuel source)^[times] (.ok manager) := by
  induction times generalizing manager with
  | zero => rfl
  | succ times ih =>
      have call : (processDataCalls (fun ref manager => ([ref], data_ ref manager)) fuel source
          manager).2 = processData data_ fuel source manager := snd_processDataCalls ..
      rw [Function.iterate_succ_apply]
      change _ = (fun result => result >>= processData data_ fuel source)^[times]
        (processData data_ fuel source manager)
      rw [← call]
      simp only [deliveries]
      rcases processDataCalls (fun ref manager => ([ref], data_ ref manager)) fuel source
        manager with ⟨refs, fault | next⟩
      · exact (Function.iterate_fixed rfl times).symm
      · exact ih next

/-- Any number of calls of `process_data_` on a block deliver the data that many times to the
blocks of its chain up to the first that does not forward, in order, and to no others. -/
theorem processData_delivers (times : Nat) {manager : Manager F W} (holds : Holds manager)
    (sinks : SinkChain manager.blocks source chain)
    (leaves : LeavesSinks data_ forwards Holds chain) (enough : chain.length < fuel) :
    (deliveries data_ fuel source times manager).2 =
        (fun result => result >>= processData data_ fuel source)^[times] (.ok manager) ∧
      Delivers manager forwards source chain times
        (deliveries data_ fuel source times manager) := by
  refine ⟨snd_deliveries times manager, ?_⟩
  obtain ⟨after, run, -, same⟩ := deliveries_chain times holds sinks leaves enough
  have only : ∀ ref, ref ∈ (List.replicate times (delivered forwards chain)).flatten →
      ref ∈ delivered forwards chain := by
    intro ref member
    obtain ⟨call, there, member⟩ := List.mem_flatten.mp member
    exact List.eq_of_mem_replicate there ▸ member
  have on_chain := (delivered_sublist forwards chain).subset
  rw [run]
  refine ⟨rfl, fun ref member => ?_, fun ref other member => other (only ref member),
    fun member => sinks.trail.start_not_mem (on_chain (only source member)), after, rfl, same⟩
  have once : (delivered forwards chain).count ref = 1 :=
    List.count_eq_one_of_mem (sinks.trail.nodup.sublist (delivered_sublist forwards chain)) member
  simp [List.count_flatten, once]

end Delivery

/-! ## Chains of `hello` blocks -/

/-- All blocks of a chain are `hello` blocks. -/
def HelloChain (chain : List BlockRef) (manager : BlockManager) : Prop :=
  ∀ ref ∈ chain, ∃ name_ count_, manager.kind ref = some (.hello name_ count_)

/-- A `hello` block counts the data, forwards it and rebinds nothing. -/
theorem leavesSinks_hello (platform : Platform) (fuel : Nat) (running : List BlockRef)
    (vdata : Option Buffer) (chain : List BlockRef) :
    LeavesSinks (blockData platform (fuel + 1) running vdata) (fun _ => true) (HelloChain chain)
      chain := by
  intro ref member before hello
  obtain ⟨name_, count_, kind⟩ := hello ref member
  refine ⟨_, blockData_hello kind, fun other there => ?_, fun _ => rfl⟩
  by_cases same : other = ref
  · obtain rfl := same
    exact ⟨name_, count_ + 1, BlockManager.kind_setDerived ..⟩
  · obtain ⟨name', count', kind'⟩ := hello other there
    exact ⟨name', count', (BlockManager.kind_setDerived_of_ne _ _ same).trans kind'⟩

/-- Four buffers go down a chain of three `hello` blocks. -/
theorem processData_delivers_hello :
    let platform := Platform.plain fun _ => none
    let manager := build platform [.blockAdd 1 "hello", .blockAdd 2 "hello", .blockAdd 3 "hello",
      .blockBind 1 0 2, .blockBind 2 0 3]
    let calls := deliveries (blockData platform 1 [] none) 3 0 4 manager
    calls.2 = (fun result => result >>= processData (blockData platform 1 [] none) 3 0)^[4]
        (.ok manager) ∧
      Delivers manager (fun _ => true) 0 [1, 2] 4 calls := by
  intro platform manager calls
  have hello : HelloChain [1, 2] manager := by
    intro ref member
    simp only [List.mem_cons, List.not_mem_nil, or_false] at member
    rcases member with rfl | rfl
    · exact ⟨"unknown", 0, by decide⟩
    · exact ⟨"unknown", 0, by decide⟩
  have sinks : SinkChain manager.blocks 0 [1, 2] := by
    refine ⟨by decide, ?_, ?_, ?_⟩
    · exact (by decide : manager.blocks.sinkOf 0 = some 1)
    · exact (by decide : manager.blocks.sinkOf 1 = some 2)
    · exact (by decide : manager.blocks.sinkOf 2 = none)
  exact processData_delivers 4 hello sinks (leavesSinks_hello platform 0 [] none [1, 2])
    (by decide)

end C3qo
