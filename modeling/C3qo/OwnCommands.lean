import C3qo.MonitoringChannel

/-!
# The first commands of a process

Data comes to an interpreter from a started hook, along the sinks of blocks. A command can add a
hook, an interpreter or a sink, but not all that is needed to reach another interpreter than the
one that `main` adds. So the first two commands that a process executes are always its own, and a
process to whose monitoring socket one command comes, which spares the monitoring blocks, executes
nothing else.
-/

namespace C3qo

open Journal

/-- A block from which data comes only to the blocks that `main` adds. -/
structure Entry.Confined (entry : Entry) : Prop where
  /-- It is bound to one of them, if to any. -/
  sink : ∀ target, entry.sink = some target → target ≤ 1
  /-- It is one of them if it is started. -/
  started : entry.started = true → entry.number ≤ 1
  /-- The first of them is a hook. -/
  hook : entry.number = 0 → entry.settings.isSome = true

/-- All blocks are of this kind. -/
def Store.Confined (store : Store) : Prop :=
  ∀ id entry, store.entries id = some entry → entry.Confined

namespace Store

theorem entries_entered (identity : String) (id : Int) : (entered identity).entries id =
    if id = -1 then
      some ⟨0, "hook_zmq", true, some 1,
        some ⟨true, ZMQ_DEALER, identity, "tcp://127.0.0.1:1664"⟩⟩
    else if id = -2 then some ⟨1, "trans_pb", true, some 0, none⟩ else none := by
  by_cases hook : id = -1
  · subst hook
    rfl
  · by_cases interpreter : id = -2
    · subst interpreter
      rfl
    · simp [entered, setup, replay, execute, revise, set, newborn, empty, Function.update, hook,
        interpreter]

theorem entered_of_entry {identity : String} {id : Int} {entry : Entry}
    (there : (entered identity).entries id = some entry) : entry.Confined ∧ entry.number ≤ 1 := by
  rw [entries_entered] at there
  split_ifs at there with hook interpreter
  · cases there
    exact ⟨⟨by simp, by simp, by simp⟩, by simp⟩
  · cases there
    exact ⟨⟨by simp, by simp, by simp⟩, by simp⟩

variable {store : Store}

theorem Confined.set (confined : store.Confined) (id : Int) {entry : Option Entry}
    (new : ∀ block, entry = some block → block.Confined) : (store.set id entry).Confined := by
  intro other block there
  by_cases same : other = id
  · rw [same, entries_set] at there
    exact new block there
  · rw [entries_set_of_ne _ _ same] at there
    exact confined other block there

theorem Confined.revise (confined : store.Confined) (id : Int)
    {revised : Entry → Option (Option Entry)}
    (kept : ∀ old new, store.entries id = some old → revised old = some (some new) →
      new.Confined) : (store.revise id revised).2.Confined := by
  rcases done : (store.entries id).bind revised with _ | entry
  · rw [revise_of_none done]
    exact confined
  · rw [revise_of_some done]
    refine confined.set id fun block same => ?_
    subst same
    obtain ⟨old, there, rewritten⟩ := Option.bind_eq_some_iff.mp done
    exact kept old block there rewritten

/-- One command does not change this, if there are no other blocks than those that `main` adds. -/
theorem Confined.execute (confined : store.Confined)
    (numbers : ∀ id entry, store.entries id = some entry → entry.number ≤ 1)
    (next : store.next ≠ 0) (command : Command) : (store.execute command).2.Confined := by
  cases command with
  | add id type_ =>
      simp only [Store.execute]
      split
      · rename_i settings free known
        have added : (store.set id
            (some ⟨store.next, type_, false, none, settings⟩)).Confined := by
          apply confined.set id
          rintro block ⟨⟩
          exact ⟨by simp, by simp, fun first => absurd first next⟩
        exact added
      · exact confined
  | start id =>
      refine confined.revise id fun old new there same => ?_
      cases same
      exact ⟨(confined id old there).sink, fun _ => numbers id old there,
        (confined id old there).hook⟩
  | stop id =>
      refine confined.revise id fun old new there same => ?_
      cases same
      exact ⟨(confined id old there).sink, by simp, (confined id old there).hook⟩
  | del id =>
      refine confined.revise id fun old new there same => ?_
      split_ifs at same
      cases same
  | bind id port dest =>
      refine confined.revise id fun old new there same => ?_
      obtain ⟨target, at_dest, rewritten⟩ := Option.map_eq_some_iff.mp same
      cases rewritten
      refine ⟨?_, (confined id old there).started, (confined id old there).hook⟩
      rintro _ ⟨⟩
      exact numbers dest target at_dest
  | hookZmq id client type_ name addr =>
      refine confined.revise id fun old new there same => ?_
      obtain ⟨settings, -, rewritten⟩ := Option.map_eq_some_iff.mp same
      cases rewritten
      exact ⟨(confined id old there).sink, (confined id old there).started, fun _ => rfl⟩
  | term => exact confined
  | notSet => exact confined

/-- After one command at most, data comes only to the blocks that `main` adds. -/
theorem confined_of_few (identity : String) {commands : List Command}
    (few : commands.length ≤ 1) :
    (replay Store.execute commands (entered identity)).2.Confined := by
  have start : (entered identity).Confined := fun id entry there => (entered_of_entry there).1
  rcases commands with _ | ⟨command, _ | ⟨second, others⟩⟩
  · exact start
  · have added : (entered identity).next = 2 := rfl
    exact start.execute (fun id entry there => (entered_of_entry there).2) (by omega) command
  · simp at few

end Store

/-- The interpreters that have executed the commands. -/
def BlockManager.interpreters (manager : BlockManager) : List BlockRef :=
  manager.world.log.filterMap fun
    | .command ref _ => some ref
    | _ => none

/-- The first two commands were executed by the interpreter that `main` adds, and the blocks are
what all commands have left. -/
structure FirstOwn (platform : Platform) (identity : String) (manager : BlockManager) :
    Prop where
  /-- The blocks come from replaying the commands. -/
  replays : (journal platform).Replays (c3qoMain platform identity) manager
  /-- The manager is furnished. -/
  furnished : Furnished manager
  /-- This is who executed the first two commands. -/
  first : ∀ ref ∈ manager.interpreters.take 2, ref = 1

section

variable {platform : Platform} {identity : String} {manager before after : BlockManager}
  {ref : BlockRef}

theorem length_interpreters (platform : Platform) (manager : BlockManager) :
    manager.interpreters.length = (manager.commands platform).length := by
  unfold BlockManager.interpreters BlockManager.commands
  induction manager.world.log with
  | nil => rfl
  | cons handled log ih => cases handled <;> simpa using ih

/-- A live block is in the store. -/
theorem entry_of_deref {block : Block} (object : manager.blocks.deref ref = some block) :
    manager.store.entries block.id_ = some ⟨ref, block.type_, block.is_started_, block.sink_,
      (manager.kind ref).bind Derived.settings⟩ :=
  entry_of_find (Registry.find_eq_some_iff.mpr ⟨object, rfl⟩)

/-- A step adds the interpreter that executes a command in it. -/
theorem interpreters_of_step (step : BlockStep platform before ref after) :
    after.interpreters = before.interpreters ∨
      after.interpreters = before.interpreters ++ [ref] ∧ before.blocks.Live ref ∧
        before.kind ref = some .transPb := by
  cases step with
  | fetched | missed => exact .inl rfl
  | ignored | counted | sent =>
      refine .inl ?_
      simp [BlockManager.interpreters, BlockManager.setDerived, hookSent, World.withHook, received,
        BlockManager.record]
  | executed vdata payload is_ok next live kind command done =>
      refine .inr ⟨?_, live, kind⟩
      simp [BlockManager.interpreters, BlockManager.record, log_executed done, commanded, received]

namespace FirstOwn

/-- Before the second command is executed, data comes only to the blocks that `main` adds. -/
theorem confined (own : FirstOwn platform identity manager)
    (few : manager.interpreters.length ≤ 1) : manager.store.Confined := by
  have whole := replay_of_replays own.replays
  rw [length_interpreters platform] at few
  have confined := Store.confined_of_few identity few
  rw [whole] at confined
  exact confined

/-- Before the second command is executed, no other interpreter is handed data. -/
theorem interpreter (own : FirstOwn platform identity manager)
    (few : manager.interpreters.length ≤ 1) (live : manager.blocks.Live ref) (near : ref ≤ 1)
    (kind : manager.kind ref = some .transPb) : ref = 1 := by
  obtain ⟨block, object⟩ := Registry.live_iff.mp live
  refine Nat.le_antisymm near (Nat.one_le_iff_ne_zero.mpr fun first => ?_)
  have hook := (own.confined few block.id_ _ (entry_of_deref object)).hook first
  rw [kind] at hook
  cases hook

theorem step (own : FirstOwn platform identity before)
    (among : before.interpreters.length ≤ 1 → ref ≤ 1)
    (step : BlockStep platform before ref after) : FirstOwn platform identity after := by
  obtain ⟨replays, furnished⟩ := step_replays own.furnished step
  refine ⟨own.replays.trans replays, furnished, ?_⟩
  rcases interpreters_of_step step with same | ⟨one, live, kind⟩
  · rw [same]
    exact own.first
  · rw [one]
    rcases Nat.lt_or_ge 1 before.interpreters.length with many | few
    · rw [List.take_append_of_le_length many]
      exact own.first
    · intro other member
      rcases List.mem_append.mp (List.mem_of_mem_take member) with old | new
      · refine own.first other ?_
        rwa [List.take_of_length_le (Nat.le_succ_of_le few)]
      · rw [List.mem_singleton.mp new]
        exact own.interpreter few live (among few) kind

/-- The blocks that data comes to before the second command is executed. -/
theorem carried (platform : Platform) (identity : String) :
    Carried platform (fun manager ref => manager.interpreters.length ≤ 1 → ref ≤ 1)
      (FirstOwn platform identity) where
  closed manager own ref block sink near object bound few :=
    (own.confined few block.id_ _ (entry_of_deref object)).sink sink bound
  step before ref after own near step := own.step near step
  kept before ref after own near step other among few := by
    refine among (Nat.le_trans ?_ few)
    rcases interpreters_of_step step with same | ⟨one, -, -⟩
    · rw [same]
    · rw [one]
      exact List.length_append ▸ Nat.le_add_right ..

/-- Before the second command is executed, only the blocks that `main` adds are registered. -/
theorem near (own : FirstOwn platform identity manager)
    (few : manager.interpreters.length ≤ 1) (attended : Attended manager) {desc : FileDesc}
    (member : desc ∈ manager.world.polling.callback_) (owner : desc.bk = some ref) : ref ≤ 1 := by
  obtain ⟨block, object, running⟩ :=
    BlockManager.isStarted_iff.mp (attended.attends member owner).started
  exact (own.confined few block.id_ _ (entry_of_deref object)).started running

theorem activity (own : FirstOwn platform identity before) (attended : Attended before)
    {activity : Activity} (taken : activity.perform platform before = some after) :
    FirstOwn platform identity after := by
  cases activity with
  | arrive address parts =>
      obtain rfl := Option.some.inj taken
      obtain ⟨replays, furnished⟩ : (journal platform).Replays before
          (before.arrive (address, parts)) ∧ Furnished (before.arrive (address, parts)) :=
        silent_step own.furnished rfl (.inl rfl) rfl
      exact ⟨own.replays.trans replays, furnished, own.first⟩
  | onFd desc fuel =>
      obtain ⟨member, done⟩ := perform_onFd_iff.mp taken
      exact (carried platform identity).onFd own
        (fun ref owner few => own.near few attended member owner) done

theorem run (own : FirstOwn platform identity before) (attended : Attended before)
    {activities : List Activity}
    (execution : Execution.run (Activity.perform platform) activities before = some after) :
    FirstOwn platform identity after := by
  induction activities generalizing before with
  | nil =>
      obtain rfl := Option.some.inj execution
      exact own
  | cons activity activities ih =>
      obtain ⟨next, taken, rest⟩ := Option.bind_eq_some_iff.mp execution
      exact ih (own.activity attended taken)
        ((stable_attended platform).steady.activity attended taken) rest

end FirstOwn

/-- In every state of the main loop, the first two commands have been executed by the interpreter
that `main` adds. -/
theorem own_of_rounds {rounds : List Round} {state : LoopState}
    (execution : Execution.run (Round.perform platform) rounds
      (.entered platform identity) = some state) :
    FirstOwn platform identity state.manager ∧ Attended state.manager := by
  obtain ⟨activities, manager, run, polling, callback, same⟩ := activities_of_rounds execution
  have start : FirstOwn platform identity (c3qoMain platform identity) := by
    refine ⟨.refl _, (store_c3qoMain platform identity).2, ?_⟩
    unfold BlockManager.interpreters
    rw [log_c3qoMain]
    exact fun ref member => absurd member List.not_mem_nil
  have attended : Attended (c3qoMain platform identity) :=
    @attended_of_run platform identity [] _ rfl
  have own := start.run attended run
  have attended' := attended_of_run run
  subst same
  exact ⟨⟨own.replays, ⟨own.furnished.factories, own.furnished.typed⟩, own.first⟩,
    attended'.congr (fun _ => rfl) (fun _ => rfl) callback.symm⟩

/-- The interpreters in the record are those of the transactions. -/
theorem Records.interpreters_eq {transactions : List Transaction}
    (records : Records manager.world.log transactions) :
    manager.interpreters = transactions.map Transaction.ref := by
  have same := congrArg (List.map Prod.fst) records.commands
  rw [List.map_map, List.map_filterMap] at same
  refine Eq.trans ?_ same
  unfold BlockManager.interpreters
  congr 1
  funext handled
  cases handled <;> rfl

namespace FirstOwn

/-- If the interpreter that `main` adds has executed one command at most, no other has executed
any. -/
theorem own_of_few (own : FirstOwn platform identity manager) {transactions : List Transaction}
    (records : Records manager.world.log transactions)
    (few : (ownTransactions transactions).length ≤ 1) :
    ownTransactions transactions = transactions := by
  have first := own.first
  rw [records.interpreters_eq] at first
  rcases transactions with _ | ⟨transaction, _ | ⟨second, others⟩⟩
  · rfl
  · simp [ownTransactions, first transaction.ref (by simp)]
  · simp [ownTransactions, first transaction.ref (by simp), first second.ref (by simp)] at few

/-- When one command at most has been handled, it is the only one that has been executed. -/
theorem length_interpreters_le (own : FirstOwn platform identity manager) {address : Nat}
    {handled waiting : List (List BufferPart)}
    (serving : Serving platform address handled waiting manager)
    (few : (handled.filterMap (commandIn platform)).length ≤ 1) :
    manager.interpreters.length ≤ 1 := by
  obtain ⟨-, transactions, served⟩ := serving
  rw [← served.commands, List.length_map] at few
  rw [served.records.interpreters_eq, List.length_map, ← own.own_of_few served.records few]
  exact few

end FirstOwn

/-! ## One command -/

/-- Messages that are received, of which one at most brings a command, which spares the monitoring
blocks. -/
structure Modest (platform : Platform) (messages : List (List BufferPart)) : Prop where
  /-- They are filled. -/
  filled : ∀ parts ∈ messages, Filled parts
  /-- There is one command at most. -/
  few : (messages.filterMap (commandIn platform)).length ≤ 1
  /-- It spares the monitoring blocks. -/
  spares : ¬ Disturbing platform messages

theorem Modest.of_sublist {messages messages' : List (List BufferPart)}
    (modest : Modest platform messages) (among : messages'.Sublist messages) :
    Modest platform messages' where
  filled parts member := modest.filled parts (among.subset member)
  few := (among.filterMap _).length_le.trans modest.few
  spares disturbing := modest.spares (disturbing.mono among.subset)

section

variable {address : Nat} {handled waiting : List (List BufferPart)}

/-- As long as the messages are modest, they are handled in the order in which they arrive. -/
theorem Serving.activity_modest (accepts : ∀ call, platform.accepts call = true)
    (memory : ∀ ref, (platform.hookMemory ref).2.socket ≠ some address) {activity : Activity}
    (serving : Serving platform address handled waiting before)
    (own : FirstOwn platform identity before) (attended : Attended before)
    (modest : Modest platform (handled ++ waiting))
    (taken : activity.perform platform before = some after) :
    Advancing platform address handled (waiting ++ activity.arrivalsAt address) after := by
  cases activity with
  | arrive target parts =>
      obtain rfl := Option.some.inj taken
      exact (serving.arrive (target, parts)).advancing
  | onFd desc fuel =>
      obtain ⟨member, done⟩ := perform_onFd_iff.mp taken
      have few := own.length_interpreters_le serving
        (modest.of_sublist (List.sublist_append_left ..)).few
      have unhandled := modest.of_sublist (List.sublist_append_right ..)
      rw [Activity.arrivalsAt, List.append_nil]
      exact (serving.onFd_near accepts memory unhandled.filled
        (fun ref owner => own.near few attended member owner) done).resolve_left
          fun spoilt => unhandled.spares spoilt.2

theorem Serving.activities_modest (accepts : ∀ call, platform.accepts call = true)
    (memory : ∀ ref, (platform.hookMemory ref).2.socket ≠ some address)
    {activities : List Activity} (serving : Serving platform address handled waiting before)
    (own : FirstOwn platform identity before) (attended : Attended before)
    (modest : Modest platform
      (handled ++ (waiting ++ activities.flatMap (Activity.arrivalsAt address))))
    (execution : Execution.run (Activity.perform platform) activities before = some after) :
    Advancing platform address handled
      (waiting ++ activities.flatMap (Activity.arrivalsAt address)) after := by
  induction activities generalizing before handled waiting with
  | nil =>
      obtain rfl := Option.some.inj execution
      rw [List.flatMap_nil, List.append_nil]
      exact serving.advancing
  | cons activity activities ih =>
      obtain ⟨next, taken, rest⟩ := Option.bind_eq_some_iff.mp execution
      rw [List.flatMap_cons, ← List.append_assoc waiting] at modest ⊢
      have now_modest : Modest platform (handled ++ waiting) :=
        modest.of_sublist ((List.append_sublist_append_left handled).mpr
          ((List.sublist_append_left ..).trans (List.sublist_append_left ..)))
      obtain ⟨now, later, order, serving'⟩ :=
        serving.activity_modest accepts memory own attended now_modest taken
      rw [← order, List.append_assoc now, ← List.append_assoc handled] at modest
      exact Advancing.trans order (ih serving' (own.activity attended taken)
        ((stable_attended platform).steady.activity attended taken) modest rest)

/-- So they are in the main loop. -/
theorem advancing_of_rounds (connected : Connected platform identity address)
    {rounds : List Round} {state : LoopState}
    (execution : Execution.run (Round.perform platform) rounds
      (.entered platform identity) = some state)
    (modest : Modest platform (rounds.flatMap (Round.arrivalsAt address))) :
    Advancing platform address [] (rounds.flatMap (Round.arrivalsAt address)) state.manager := by
  induction rounds using List.reverseRecOn generalizing state with
  | nil =>
      obtain rfl := Option.some.inj execution
      exact (serving_c3qoMain connected).advancing
  | append_singleton rounds round ih =>
      rw [Execution.run_append] at execution
      obtain ⟨middle, earlier, later⟩ := Option.bind_eq_some_iff.mp execution
      obtain ⟨_, taken, last⟩ := Option.bind_eq_some_iff.mp later
      obtain rfl := Option.some.inj last
      rw [List.flatMap_append, List.flatMap_singleton] at modest ⊢
      obtain ⟨now, waiting, order, serving⟩ :=
        ih earlier (modest.of_sublist (List.sublist_append_left ..))
      obtain ⟨own, attended⟩ := own_of_rounds earlier
      obtain ⟨_, pass, final, -, run, same⟩ := activities_of_round taken
      rw [← order, List.append_assoc,
        ← round.arrivalsAt_activities address pass.dispatched] at modest
      obtain ⟨now', waiting', order', serving'⟩ := serving.activities_modest connected.accepts
        connected.memory own attended modest run
      rw [round.arrivalsAt_activities] at order'
      exact Advancing.trans order ⟨now', waiting', order', serving'.congr same⟩

/-- In a run of the main loop, in which modest messages arrive at the monitoring socket, all
commands that are executed spare the monitoring blocks. -/
theorem spares_of_modest (connected : Connected platform identity address)
    {rounds : List Round} {state : LoopState}
    (execution : Execution.run (Round.perform platform) rounds
      (.entered platform identity) = some state)
    (modest : Modest platform (rounds.flatMap (Round.arrivalsAt address))) :
    ∀ command ∈ state.manager.commands platform, command.Spares := by
  obtain ⟨now, later, order, -, transactions, served⟩ := advancing_of_rounds connected execution
    modest
  rw [List.nil_append] at served
  have whole := (own_of_rounds execution).1.own_of_few served.records (by
    rw [← List.length_map Transaction.data, served.commands]
    exact (modest.of_sublist (order ▸ List.sublist_append_left ..)).few)
  have commands := served.commands
  rw [whole] at commands
  rw [served.records.commands_eq]
  intro command member
  obtain ⟨transaction, among, rfl⟩ := List.mem_map.mp member
  obtain ⟨parts, there, brings⟩ :=
    List.mem_filterMap.mp (commands ▸ List.mem_map_of_mem among)
  by_contra disturbing
  exact modest.spares ⟨parts, order ▸ List.mem_append_left _ there, _, brings, disturbing⟩

end

end

end C3qo
