import C3qo.MonitoringChannel

/-!
# Progress of the monitoring channel

The hook that `main` starts is the first one in the polling set, and nothing that blocks do moves
it. A pass over the polling set calls it first if its socket is ready, and it then handles the
first message that waits. As long as `zmq_poll` tells when messages wait, every message is handled
in a number of rounds that the messages before it bound.
-/

namespace C3qo

open Relation

/-- The descriptor with which the hook of `main` is polled. -/
def monitoringDesc (address : Nat) : FileDesc := ⟨some 0, -1, some address, true, false⟩

/-- The monitoring blocks are as they should be, with an open socket that is polled first. -/
structure Attentive (address : Nat) (manager : BlockManager) : Prop where
  /-- The blocks are started and bound to each other. -/
  monitored : Monitored address manager
  /-- The socket is open. -/
  opened : (manager.world.zmq.lookup (some address)).isSome
  /-- It is polled first. -/
  first : manager.world.polling.callback_.head? = some (monitoringDesc address)

/-- Sockets that are open stay open. -/
theorem Zmq.Keeps.isSome {before after : Zmq} (keeps : before.Keeps after) {address : Pointer}
    (there : (before.lookup address).isSome) : (after.lookup address).isSome := by
  have same := congrArg Option.isSome (keeps.sockets address)
  rwa [Option.isSome_map, Option.isSome_map, there] at same

section

variable {platform : Platform} {address : Nat} {before after : BlockManager} {ref : BlockRef}
  (memory : ∀ ref, (platform.hookMemory ref).2.socket ≠ some address)

include memory

/-- No step of a block keeps the hook from being polled, unless it executes a command that does not
spare the monitoring blocks. -/
theorem Attentive.step (attentive : Attentive address before)
    (step : BlockStep platform before ref after) :
    Spoilt platform after ∨ Attentive address after := by
  obtain ⟨monitored, opened, first⟩ := attentive
  cases step with
  | fetched hook buf zmq kind received =>
      have keeps := hook.keeps_recv Buffer.empty before.world.zmq
      rw [received] at keeps
      have counted : Monitored address (before.setDerived ref
          (.hookZmq { hook with rx_pkt_ := hook.rx_pkt_ + 1 })) := monitored.configured kind rfl
      exact .inr ⟨counted.rewired rfl fun _ => rfl, keeps.isSome opened, first⟩
  | missed hook buf zmq kind failed =>
      have keeps := hook.keeps_recv Buffer.empty before.world.zmq
      rw [failed] at keeps
      exact .inr ⟨monitored.rewired rfl fun _ => rfl, keeps.isSome opened, first⟩
  | ignored vdata live deaf =>
      exact .inr ⟨monitored.rewired rfl fun _ => rfl, opened, first⟩
  | counted vdata name_ count_ live kind =>
      have received : Monitored address (received before ref vdata) :=
        monitored.rewired rfl fun _ => rfl
      exact .inr ⟨received.refitted kind rfl, opened, first⟩
  | sent vdata hook live kind =>
      have keeps := hook.keeps_data platform vdata before.world.zmq
      exact .inr ⟨monitored.hookSent kind vdata, keeps.isSome opened, first⟩
  | executed vdata payload is_ok next live kind command done =>
      have recorded : .command ref payload ∈ (next.record (.reply ref is_ok)).world.log := by
        simp [BlockManager.record, log_executed done, commanded]
      by_cases spares : (platform.command payload).Spares
      · have state : Monitored address (commanded before ref vdata payload) :=
          monitored.rewired rfl fun _ => rfl
        obtain ⟨monitored', socket, first'⟩ := state.executed opened memory spares done
        have opened' : (next.world.zmq.lookup (some address)).isSome := by
          rw [socket]
          exact opened
        exact .inr ⟨monitored'.rewired rfl fun _ => rfl, opened', first' _ rfl first⟩
      · exact .inl ⟨ref, payload, recorded, spares⟩

/-- Nothing that happens in the main loop does. -/
theorem Attentive.steps (attentive : Attentive address before)
    (steps : ReflTransGen (AnyStep platform) before after) :
    Spoilt platform after ∨ Attentive address after := by
  induction steps with
  | refl => exact .inr attentive
  | tail _ step ih =>
      rcases ih with spoilt | attentive
      · exact .inl (spoilt.of_log (log_of_step step))
      · rcases step with ⟨ref, step⟩ | ⟨message, rfl⟩
        · exact attentive.step memory step
        · obtain ⟨monitored, opened, first⟩ := attentive
          rename_i state _
          have keeps := Zmq.Keeps.arrive message.1 (framesOf message.2) state.world.zmq
          exact .inr ⟨monitored.rewired rfl fun _ => rfl, keeps.isSome opened, first⟩

theorem Attentive.round (attentive : Attentive address before) {round : Round} {signal : Bool}
    {next : LoopState} (taken : round.perform platform ⟨signal, before⟩ = some next) :
    Spoilt platform next.manager ∨ Attentive address next.manager := by
  obtain ⟨_, _, final, -, run, same⟩ := activities_of_round taken
  rcases attentive.steps memory (steps_of_run run) with spoilt | ⟨monitored, opened, first⟩
  · exact .inl (spoilt.of_log (same.log ▸ List.prefix_rfl))
  · exact .inr ⟨monitored.rewired same.blocks fun ref => by
      unfold BlockManager.kind
      rw [same.derived], same.zmq ▸ opened, same.callback ▸ first⟩

theorem Attentive.rounds {rounds : List Round} {state final : LoopState}
    (attentive : Attentive address state.manager)
    (execution : Execution.run (Round.perform platform) rounds state = some final) :
    Spoilt platform final.manager ∨ Attentive address final.manager := by
  induction rounds generalizing state with
  | nil =>
      obtain rfl := Option.some.inj execution
      exact .inr attentive
  | cons round rounds ih =>
      obtain ⟨next, taken, rest⟩ := Option.bind_eq_some_iff.mp execution
      rcases attentive.round memory taken with spoilt | attentive'
      · exact .inl (spoilt.of_log (log_of_rounds rest))
      · exact ih attentive' rest

end

/-! ## A pass -/

/-- What is polled first is dispatched first if it is ready. -/
theorem BlockManager.dispatched_first {platform : Platform} {fuel spare : Nat}
    {revents : PollKey → Nat} {manager : BlockManager} {ret : Int} {pass : Pass} {first : FileDesc}
    (there : manager.world.polling.callback_.head? = some first)
    (ready : readyDesc revents first = true)
    (done : manager.fdPoll platform fuel spare (some revents) = .ok (ret, pass)) :
    ∃ dispatched, pass.dispatched = first :: dispatched := by
  obtain ⟨rest, whole⟩ := List.head?_eq_some_iff.mp there
  have busy : manager.world.polling.returned revents ≠ 0 := by
    have counted := manager.world.polling.countP_readyDesc_le revents
    rw [whole, List.countP_cons_of_pos ready] at counted
    omega
  rw [fdPoll_of_returned platform fuel spare busy, whole, List.length_cons] at done
  obtain ⟨pass, walked, same⟩ := map_eq_ok done
  obtain ⟨-, rfl⟩ := Prod.mk.inj same
  rcases fdPollLoop_cases platform fuel 0
      (manager.withPolling (manager.world.polling.setRevents revents)) with
    missing | ⟨item, desc, polled, callback, events⟩
  · have short := List.getElem?_eq_none_iff.mp missing
    have length : manager.world.polling.callback_.length = _ :=
      (manager.world.polling.setRevents revents).length_callback
    rw [whole, List.length_cons] at length
    exact absurd short (by simp [← length])
  · obtain rfl : first = desc := by
      have there' : manager.world.polling.callback_[0]? = some desc := callback
      rw [whole] at there'
      exact Option.some.inj there'
    have stamp : item.stamp ∈ (manager.world.polling.setRevents revents).stamps :=
      List.mem_map_of_mem (List.mem_of_getElem? polled)
    have returned : item.revents = revents item.key :=
      manager.world.polling.polled_setRevents revents item.stamp stamp
    have item_ready : item.ready = true := by
      rw [item.ready_eq, ← ready, readyDesc, Polling.callback_key callback polled, ← returned]
      rfl
    rcases events with idle | ⟨-, ⟨fault, called⟩ | ⟨next, called⟩⟩
    · cases item_ready.symm.trans idle
    · rw [fdPollLoop_fault polled callback item_ready called] at walked
      cases walked
    · rw [fdPollLoop_ready polled callback item_ready called] at walked
      split_ifs at walked
      · cases walked
        exact ⟨[], rfl⟩
      · cases walked
        exact ⟨[], rfl⟩
      · obtain ⟨later, -, rfl⟩ := map_eq_ok walked
        exact ⟨later.dispatched, rfl⟩

/-- `zmq_poll` returns in this round, and tells that the monitoring socket is ready. -/
def Round.reports (address : Nat) (round : Round) : Bool :=
  round.polled.elim false fun revents => readyDesc revents (monitoringDesc address)

section

variable {platform : Platform} {address : Nat} {handled waiting : List (List BufferPart)}
  {manager : BlockManager} {round : Round} {state next : LoopState}

theorem polling_arrivals (arrivals : List (Pointer × List BufferPart)) (manager : BlockManager) :
    (arrivals.foldl BlockManager.arrive manager).world.polling = manager.world.polling := by
  induction arrivals generalizing manager with
  | nil => rfl
  | cons message arrivals ih => exact ih (manager.arrive message)

/-- What arrives waits. -/
theorem Serving.arrivals (serving : Serving platform address handled waiting manager)
    (arrivals : List (Pointer × List BufferPart)) :
    Serving platform address handled
      (waiting ++ (arrivals.filter fun message => message.1 = some address).map Prod.snd)
      (arrivals.foldl BlockManager.arrive manager) := by
  induction arrivals generalizing manager waiting with
  | nil =>
      rw [List.filter_nil, List.map_nil, List.append_nil]
      exact serving
  | cons message arrivals ih =>
      have later := ih (serving.arrive message)
      rw [List.append_assoc] at later
      by_cases here : message.1 = some address
      · rw [List.filter_cons_of_pos (by simpa using here)]
        simpa [Activity.arrivalsAt, here] using later
      · rw [List.filter_cons_of_neg (by simpa using here)]
        simpa [Activity.arrivalsAt, here] using later

/-- A round in which the socket is reported ready handles at least one message, if there is one. -/
theorem Serving.round_reports (accepts : ∀ call, platform.accepts call = true)
    (memory : ∀ ref, (platform.hookMemory ref).2.socket ≠ some address)
    (serving : Serving platform address handled waiting state.manager)
    (attentive : Attentive address state.manager) (reports : round.reports address = true)
    {parts : List BufferPart} {later : List (List BufferPart)}
    (some_message : waiting ++ round.arrivalsAt address = parts :: later)
    (filled : ∀ parts ∈ waiting ++ round.arrivalsAt address, Filled parts)
    (taken : round.perform platform state = some next) :
    Spoilt platform next.manager ∨
      Advancing platform address (handled ++ [parts]) later next.manager := by
  obtain ⟨_, pass, last, done, run, same⟩ := activities_of_round taken
  rcases polled : round.polled with _ | revents
  · simp [Round.reports, polled] at reports
  have ready : readyDesc revents (monitoringDesc address) = true := by
    simpa [Round.reports, polled] using reports
  rw [polled] at done
  have first : (round.arrivals.foldl BlockManager.arrive
      state.manager).world.polling.callback_.head? = some (monitoringDesc address) := by
    rw [polling_arrivals]
    exact attentive.first
  obtain ⟨dispatched, order⟩ := BlockManager.dispatched_first first ready done
  rw [Round.activities, Execution.run_append, run_arrivals, order] at run
  obtain ⟨arrived, messages, callbacks⟩ := Option.bind_eq_some_iff.mp run
  obtain rfl := Option.some.inj messages
  obtain ⟨called, performed, rest⟩ := Option.bind_eq_some_iff.mp callbacks
  have arrived : Serving platform address handled (waiting ++ round.arrivalsAt address)
      (round.arrivals.foldl BlockManager.arrive state.manager) :=
    serving.arrivals round.arrivals
  rw [some_message] at arrived filled
  obtain ⟨filled_first, filled_later⟩ := List.forall_mem_cons.mp filled
  rcases arrived.onFd_own accepts memory filled_first rfl rfl (perform_onFd_iff.mp performed).2 with
    ⟨spoilt, -⟩ | serving'
  · exact .inl (spoilt.of_log ((log_of_run rest).trans (same.log ▸ List.prefix_rfl)))
  · have others := serving'.activities accepts memory
      (by rwa [arrivalsAt_callbacks, List.append_nil]) rest
    rw [arrivalsAt_callbacks, List.append_nil] at others
    rcases others with spoilt | ⟨now, later, order, serving''⟩
    · exact .inl (spoilt.of_log (same.log ▸ List.prefix_rfl))
    · exact .inr ⟨now, later, order, serving''.congr same⟩

/-- At least that is what it handles. -/
theorem Serving.round_counts (accepts : ∀ call, platform.accepts call = true)
    (memory : ∀ ref, (platform.hookMemory ref).2.socket ≠ some address)
    (serving : Serving platform address handled waiting state.manager)
    (attentive : Attentive address state.manager)
    (filled : ∀ parts ∈ waiting ++ round.arrivalsAt address, Filled parts)
    (taken : round.perform platform state = some next) :
    Spoilt platform next.manager ∨ ∃ now later,
      now ++ later = waiting ++ round.arrivalsAt address ∧
      min ([round].countP (Round.reports address)) waiting.length ≤ now.length ∧
      Serving platform address (handled ++ now) later next.manager := by
  by_cases reports : round.reports address = true
  · rcases some_message : waiting ++ round.arrivalsAt address with _ | ⟨parts, messages⟩
    · obtain ⟨rfl, -⟩ := List.append_eq_nil_iff.mp some_message
      rcases serving.round accepts memory filled taken with spoilt | ⟨now, later, order, serving'⟩
      · exact .inl spoilt
      · exact .inr ⟨now, later, order.trans some_message, by simp, serving'⟩
    · rcases serving.round_reports accepts memory attentive reports some_message filled taken with
        spoilt | ⟨now, later, order, serving'⟩
      · exact .inl spoilt
      · rw [List.append_assoc] at serving'
        have counted : [round].countP (Round.reports address) ≤ 1 := List.countP_le_length
        refine .inr ⟨parts :: now, later, by rw [List.cons_append, order], ?_, serving'⟩
        rw [List.length_cons]
        omega
  · rcases serving.round accepts memory filled taken with spoilt | ⟨now, later, order, serving'⟩
    · exact .inl spoilt
    · exact .inr ⟨now, later, order, by simp [reports], serving'⟩

/-- Messages that wait are handled, one in each round that reports the socket at least. -/
theorem Serving.rounds_counts (accepts : ∀ call, platform.accepts call = true)
    (memory : ∀ ref, (platform.hookMemory ref).2.socket ≠ some address) {rounds : List Round}
    {final : LoopState} (serving : Serving platform address handled waiting state.manager)
    (attentive : Attentive address state.manager)
    (filled : ∀ parts ∈ waiting ++ rounds.flatMap (Round.arrivalsAt address), Filled parts)
    (execution : Execution.run (Round.perform platform) rounds state = some final) :
    Spoilt platform final.manager ∨ ∃ now later,
      now ++ later = waiting ++ rounds.flatMap (Round.arrivalsAt address) ∧
      min (rounds.countP (Round.reports address)) waiting.length ≤ now.length ∧
      Serving platform address (handled ++ now) later final.manager := by
  induction rounds generalizing state handled waiting with
  | nil =>
      obtain rfl := Option.some.inj execution
      exact .inr ⟨[], waiting, by simp, by simp, by rwa [List.append_nil]⟩
  | cons round rounds ih =>
      obtain ⟨next, taken, rest⟩ := Option.bind_eq_some_iff.mp execution
      rw [List.flatMap_cons, ← List.append_assoc] at filled ⊢
      rcases serving.round_counts accepts memory attentive (List.forall_mem_append.mp filled).1
          taken with spoilt | ⟨now, later, order, progress, serving'⟩
      · exact .inl (spoilt.of_log (log_of_rounds rest))
      · rcases attentive.round memory taken with spoilt | attentive'
        · exact .inl (spoilt.of_log (log_of_rounds rest))
        · rw [← order, List.append_assoc] at filled
          rcases ih serving' attentive' (List.forall_mem_append.mp filled).2 rest with
            spoilt | ⟨now', later', order', progress', serving''⟩
          · exact .inl spoilt
          · refine .inr ⟨now ++ now', later', ?_, ?_, by rwa [← List.append_assoc]⟩
            · rw [List.append_assoc, order', ← List.append_assoc, order]
            · have lengths := congrArg List.length order
              have counted := @List.countP_append _ (Round.reports address) [round] rounds
              simp only [List.length_append, List.singleton_append] at lengths counted ⊢
              omega

end

/-! ## The start -/

theorem attentive_c3qoMain {platform : Platform} {identity : String} {address : Nat}
    (connected : Connected platform identity address) :
    Attentive address (c3qoMain platform identity) := by
  obtain ⟨monitored, transactions, served⟩ := serving_c3qoMain connected
  obtain ⟨socket, there, -⟩ := served.queued
  obtain ⟨-, -, world⟩ := c3qoMain_state platform identity
  have polling := congrArg World.polling world
  have registered := (monitoringHook platform identity).start_polling platform 0 .empty .empty
  have own := connected.socket
  rw [if_pos connected.joined] at registered
  obtain ⟨address', uninit, desc, added⟩ := registered
  rw [desc] at own added
  obtain rfl : address' = address := Option.some.inj own
  refine ⟨monitored, Option.isSome_iff_exists.mpr ⟨socket, there⟩, ?_⟩
  rw [polling]
  change ((monitoringHook platform identity).start_ platform 0 .empty
    .empty).2.1.callback_.head? = _
  rw [added, Polling.fdAdd_new .empty uninit (by simp) (by simp [Polling.keys, Polling.empty])]
  rfl

/-- In a run of the main loop of `c3qo` in which no command stops or binds the monitoring blocks, a
message that has arrived at the monitoring socket has been handled, and its command executed and
replied to, as soon as `zmq_poll` has reported the socket in as many further rounds as messages have
arrived up to that one. -/
theorem mainLoop_handles (platform : Platform) (identity : String) (address : Nat)
    (connected : Connected platform identity address) (rounds further : List Round)
    (state : LoopState)
    (execution : Execution.run (Round.perform platform) (rounds ++ further)
      (.entered platform identity) = some state)
    (spares : ∀ command ∈ state.manager.commands platform, command.Spares)
    (filled : ∀ parts ∈ (rounds ++ further).flatMap (Round.arrivalsAt address), Filled parts)
    (enough : (rounds.flatMap (Round.arrivalsAt address)).length ≤
      further.countP (Round.reports address)) :
    ∃ handled waiting transactions,
      (rounds ++ further).flatMap (Round.arrivalsAt address) = handled ++ waiting ∧
      rounds.flatMap (Round.arrivalsAt address) <+: handled ∧
      Served platform address handled waiting transactions state.manager := by
  rw [Execution.run_append] at execution
  obtain ⟨middle, earlier, later⟩ := Option.bind_eq_some_iff.mp execution
  have unspoilt := not_spoilt spares
  have unspoilt_middle : ¬ Spoilt platform middle.manager :=
    fun spoilt => unspoilt (spoilt.of_log (log_of_rounds later))
  have start : Serving platform address [] [] (LoopState.entered platform identity).manager :=
    serving_c3qoMain connected
  have attentive : Attentive address middle.manager :=
    (Attentive.rounds connected.memory (attentive_c3qoMain connected) earlier).resolve_left
      unspoilt_middle
  rw [List.flatMap_append] at filled ⊢
  obtain ⟨now, waiting, order, serving⟩ := (start.rounds connected.accepts connected.memory
    (List.forall_mem_append.mp filled).1 earlier).resolve_left unspoilt_middle
  rw [List.nil_append] at order serving
  rw [← order, List.append_assoc] at filled
  obtain ⟨now', waiting', order', progress, -, transactions, served⟩ :=
    (serving.rounds_counts connected.accepts connected.memory attentive
      (List.forall_mem_append.mp filled).2 later).resolve_left unspoilt
  refine ⟨now ++ now', waiting', transactions, ?_, ?_, served⟩
  · rw [← order, List.append_assoc, List.append_assoc, order']
  · -- What waited is a beginning of what has been handled since, which is no shorter.
    have lengths := congrArg List.length order
    rw [List.length_append] at lengths
    have begins : waiting <+: now' :=
      List.prefix_of_prefix_length_le (List.prefix_append waiting _) ⟨waiting', order'⟩ (by omega)
    rw [← order]
    exact (List.prefix_append_right_inj now).mpr begins

/-- A round in which nothing arrives, and the monitoring socket is reported. -/
def commandPolled : Round :=
  { commandRound [] with arrivals := [] }

theorem mainLoop_handles_add : ∃ state, Execution.run (Round.perform addOrTerm)
      ([commandWaits [1]] ++ [commandPolled]) (.entered addOrTerm "c3qo") = some state ∧
    ∃ handled waiting transactions,
      ([commandWaits [1]] ++ [commandPolled]).flatMap (Round.arrivalsAt 1) =
        handled ++ waiting ∧
      [commandWaits [1]].flatMap (Round.arrivalsAt 1) <+: handled ∧
      Served addOrTerm 1 handled waiting transactions state.manager := by
  have outcome : (Execution.run (Round.perform addOrTerm) ([commandWaits [1]] ++ [commandPolled])
      (.entered addOrTerm "c3qo")).map (fun state => state.manager.commands addOrTerm) =
        some [.add 7 "hello"] := by
    decide +kernel
  obtain ⟨state, execution, commands⟩ := Option.map_eq_some_iff.mp outcome
  refine ⟨state, execution, mainLoop_handles addOrTerm "c3qo" 1 (connected_addOrTerm "c3qo") _ _
    state execution ?_ ?_ (by decide)⟩
  · rw [commands]
    decide
  · unfold Filled
    decide

end C3qo
