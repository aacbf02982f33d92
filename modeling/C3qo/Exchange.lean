import C3qo.Execution
import Mathlib.Data.List.Pairwise
import Mathlib.Tactic.SplitIfs

/-!
# Exchanges without identifiers

Clients that are connected one after the other send one request each to a server, over channels
that lose nothing and keep the order. A reply does not say which request it answers: it goes to
whichever client is connected when it arrives, and the client takes the first one that it likes
for its answer. A client that gives up leaves its request and the reply to it behind. The numbers
of requests and replies are not part of the system: they record which request a reply answers.
-/

namespace Exchange

variable {κ σ ρ β : Type*}

/-- What clients of a type and the server do. -/
structure System (κ σ ρ β : Type*) where
  /-- The request that a client sends. -/
  request : κ → ρ
  /-- The client takes the reply for its answer. -/
  accepts : κ → β → Bool
  /-- The server handles a request and sends at most one reply to it. -/
  respond : ρ → σ → Option β × σ

/-- A client that is connected. -/
structure Session (κ : Type*) where
  /-- The client. -/
  client : κ
  /-- The number of clients that were there before. -/
  number : Nat
  /-- Nothing was in flight when the client came. -/
  quiet : Bool

/-- A session that has ended with an answer. -/
structure Acceptance where
  /-- The number of the client. -/
  client : Nat
  /-- The number of the client whose request the reply answers. -/
  answered : Nat
  /-- Nothing was in flight when the client came. -/
  quiet : Bool
  deriving DecidableEq

/-- The state of an exchange. -/
structure State (κ σ ρ β : Type*) where
  /-- The server. -/
  server : σ
  /-- Requests on their way to the server, first come first. -/
  requests : List (Nat × ρ)
  /-- Replies on their way back. -/
  replies : List (Nat × β)
  /-- The client that is connected. -/
  session : Option (Session κ)
  /-- The number of clients so far. -/
  started : Nat
  /-- The sessions that have ended with an answer. -/
  accepted : List Acceptance
  /-- The clients that have given up. -/
  expired : List Nat

/-- What can happen. Replies that have arrived when a client leaves but that it has not looked at
are lost with it. -/
inductive Label (κ : Type*)
  /-- A client connects and sends its request. -/
  | start (client : κ)
  /-- The server handles a request. -/
  | serve
  /-- The client looks at a reply, and leaves if that is an answer. -/
  | deliver (unread : Nat)
  /-- The client gives up. -/
  | expire (unread : Nat)

/-- Nothing in flight, and no client yet. -/
def State.idle (server : σ) : State κ σ ρ β := ⟨server, [], [], none, 0, [], []⟩

/-- One step. -/
def step (system : System κ σ ρ β) : Label κ → State κ σ ρ β → Option (State κ σ ρ β)
  | .start client, state =>
      match state.session with
      | some _ => none
      | none =>
          some { state with
            requests := state.requests ++ [(state.started, system.request client)]
            session := some
              ⟨client, state.started, state.requests.isEmpty && state.replies.isEmpty⟩
            started := state.started + 1 }
  | .serve, state =>
      match state.requests with
      | [] => none
      | (number, request) :: requests =>
          let (reply, server) := system.respond request state.server
          some { state with
            server := server
            requests := requests
            replies := state.replies ++ (reply.map fun reply => (number, reply)).toList }
  | .deliver unread, state =>
      match state.session, state.replies with
      | some session, (number, reply) :: replies =>
          if system.accepts session.client reply then
            some { state with
              replies := replies.drop unread
              session := none
              accepted := state.accepted ++ [⟨session.number, number, session.quiet⟩] }
          else
            some { state with replies := replies }
      | _, _ => none
  | .expire unread, state =>
      match state.session with
      | none => none
      | some session =>
          some { state with
            replies := state.replies.drop unread
            session := none
            expired := state.expired ++ [session.number] }

/-- The requests that are in flight themselves or by their reply, the oldest one first. -/
def State.inFlight (state : State κ σ ρ β) : List Nat :=
  state.replies.map Prod.fst ++ state.requests.map Prod.fst

/-- An answer is that to the client's own request, unless something was in flight when the client
came, since an earlier client had given up. -/
def Acceptance.Sound (acceptance : Acceptance) (expired : List Nat) : Prop :=
  acceptance.answered = acceptance.client ∨
    acceptance.quiet = false ∧ acceptance.answered < acceptance.client ∧
      ∃ earlier ∈ expired, earlier < acceptance.client

/-- What holds in every state of an exchange. -/
structure Invariant (state : State κ σ ρ β) : Prop where
  /-- Every request is in flight at most once, in the order of the clients. -/
  ordered : state.inFlight.Pairwise (· < ·)
  /-- It is the request of a client that has come. -/
  sent : ∀ number ∈ state.inFlight, number < state.started
  /-- The client that is connected is the last one that has come. -/
  last : ∀ session, state.session = some session → session.number + 1 = state.started
  /-- If nothing was in flight when it came, all that is in flight is its own. -/
  quiet : ∀ session, state.session = some session → session.quiet = true →
    ∀ number ∈ state.inFlight, number = session.number
  /-- If something was, an earlier client had given up. -/
  late : ∀ session, state.session = some session → session.quiet = false →
    ∃ earlier ∈ state.expired, earlier < session.number
  /-- Before a client gives up, nothing is left in flight. -/
  prompt : state.expired = [] → state.session = none → state.inFlight = []
  /-- Those that have given up have come. -/
  gone : ∀ number ∈ state.expired, number < state.started
  /-- All answers are sound. -/
  accepted : ∀ acceptance ∈ state.accepted, acceptance.Sound state.expired

theorem invariant_idle (server : σ) : Invariant (State.idle server : State κ σ ρ β) where
  ordered := .nil
  sent := by simp [State.idle, State.inFlight]
  last := by simp [State.idle]
  quiet := by simp [State.idle]
  late := by simp [State.idle]
  prompt := fun _ _ => rfl
  gone := by simp [State.idle]
  accepted := by simp [State.idle]

namespace Invariant

variable {system : System κ σ ρ β} {state next : State κ σ ρ β}

theorem start (invariant : Invariant state) (client : κ)
    (taken : step system (.start client) state = some next) : Invariant next := by
  simp only [step] at taken
  split at taken
  · cases taken
  · rename_i alone
    obtain rfl := Option.some.inj taken
    have flight : State.inFlight { state with
        requests := state.requests ++ [(state.started, system.request client)]
        session := some ⟨client, state.started, state.requests.isEmpty && state.replies.isEmpty⟩
        started := state.started + 1 } = state.inFlight ++ [state.started] := by
      simp [State.inFlight]
    refine ⟨?_, ?_, ?_, ?_, ?_, ?_, ?_, invariant.accepted⟩
    · rw [flight]
      refine List.pairwise_append.mpr ⟨invariant.ordered, List.pairwise_singleton _ _, ?_⟩
      intro number member other last
      obtain rfl := List.mem_singleton.mp last
      exact invariant.sent number member
    · rw [flight]
      intro number member
      rcases List.mem_append.mp member with member | member
      · exact Nat.lt_succ_of_lt (invariant.sent number member)
      · exact List.mem_singleton.mp member ▸ Nat.lt_succ_self _
    · rintro session ⟨⟩
      rfl
    · rintro session ⟨⟩ quiet number member
      have empty : state.inFlight = [] := by
        simpa [State.inFlight, and_comm] using quiet
      rw [flight, empty] at member
      exact List.mem_singleton.mp member
    · rintro session ⟨⟩ busy
      have some_flight : state.inFlight ≠ [] := by
        intro empty
        simp [State.inFlight] at empty busy
        exact busy empty.2 empty.1
      obtain ⟨earlier, member⟩ := List.exists_mem_of_ne_nil _ fun none_expired =>
        some_flight (invariant.prompt none_expired alone)
      exact ⟨earlier, member, invariant.gone earlier member⟩
    · intro _ never
      cases never
    · exact fun number member => Nat.lt_succ_of_lt (invariant.gone number member)

theorem serve (invariant : Invariant state)
    (taken : step system .serve state = some next) : Invariant next := by
  simp only [step] at taken
  split at taken
  · cases taken
  · rename_i number request requests pending
    obtain rfl := Option.some.inj taken
    -- The number stays in its place, or is dropped.
    have flight : ((state.replies ++ ((system.respond request state.server).1.map
        fun reply => (number, reply)).toList).map Prod.fst ++ requests.map Prod.fst).Sublist
          state.inFlight := by
      rw [State.inFlight, pending]
      cases (system.respond request state.server).1 with
      | none => simp
      | some reply => simp
    refine ⟨invariant.ordered.sublist flight, fun number member =>
      invariant.sent number (flight.mem member), invariant.last, ?_, invariant.late, ?_,
      invariant.gone, invariant.accepted⟩
    · exact fun session there quiet number member =>
        invariant.quiet session there quiet number (flight.mem member)
    · intro none_expired alone
      have empty := invariant.prompt none_expired alone
      rw [State.inFlight, pending] at empty
      simp at empty

theorem deliver (invariant : Invariant state) (unread : Nat)
    (taken : step system (.deliver unread) state = some next) : Invariant next := by
  simp only [step] at taken
  split at taken
  · rename_i session number reply replies connected pending
    have flight :
        state.inFlight = number :: (replies.map Prod.fst ++ state.requests.map Prod.fst) := by
      rw [State.inFlight, pending]
      rfl
    have member : number ∈ state.inFlight := flight ▸ List.mem_cons_self
    have rest : (replies.map Prod.fst ++ state.requests.map Prod.fst).Sublist state.inFlight :=
      flight ▸ List.sublist_cons_self _ _
    have last := invariant.last session connected
    have sent := invariant.sent number member
    split_ifs at taken with liked
    · obtain rfl := Option.some.inj taken
      have left_over : ((replies.drop unread).map Prod.fst ++ state.requests.map Prod.fst).Sublist
          (replies.map Prod.fst ++ state.requests.map Prod.fst) :=
        ((List.drop_sublist unread replies).map Prod.fst).append_right _
      refine ⟨(invariant.ordered.sublist rest).sublist left_over, fun number member =>
        invariant.sent number (rest.mem (left_over.mem member)), by simp, by simp, by simp, ?_,
        invariant.gone, ?_⟩
      · intro none_expired _
        -- Its own request was the only one in flight, and has been answered.
        have quiet : session.quiet = true := by
          by_contra busy
          obtain ⟨earlier, gone, -⟩ := invariant.late session connected (by simpa using busy)
          rw [none_expired] at gone
          cases gone
        have own := invariant.quiet session connected quiet
        refine List.eq_nil_iff_forall_not_mem.mpr fun other among => ?_
        have later : number < other := by
          have ordered := invariant.ordered
          rw [flight] at ordered
          exact List.rel_of_pairwise_cons ordered (left_over.mem among)
        rw [own number member, own other (rest.mem (left_over.mem among))] at later
        exact Nat.lt_irrefl _ later
      · intro acceptance among
        rcases List.mem_append.mp among with among | among
        · exact invariant.accepted acceptance among
        · obtain rfl := List.mem_singleton.mp among
          rcases quiet : session.quiet with _ | _
          · by_cases own : number = session.number
            · exact .inl own
            · exact .inr ⟨rfl, by dsimp only; omega, invariant.late session connected quiet⟩
          · exact .inl (invariant.quiet session connected quiet number member)
    · obtain rfl := Option.some.inj taken
      refine ⟨invariant.ordered.sublist rest, fun number member =>
        invariant.sent number (rest.mem member), invariant.last, ?_, invariant.late, ?_,
        invariant.gone, invariant.accepted⟩
      · exact fun session there quiet number member =>
          invariant.quiet session there quiet number (rest.mem member)
      · intro _ alone
        exact absurd (connected.symm.trans alone) (by simp)
  · cases taken

theorem expire (invariant : Invariant state) (unread : Nat)
    (taken : step system (.expire unread) state = some next) : Invariant next := by
  simp only [step] at taken
  split at taken
  · cases taken
  · rename_i session connected
    obtain rfl := Option.some.inj taken
    have left_over : ((state.replies.drop unread).map Prod.fst ++
        state.requests.map Prod.fst).Sublist state.inFlight :=
      ((List.drop_sublist unread state.replies).map Prod.fst).append_right _
    refine ⟨invariant.ordered.sublist left_over, fun number member =>
      invariant.sent number (left_over.mem member), by simp, by simp, by simp, by simp, ?_, ?_⟩
    · intro number member
      rcases List.mem_append.mp member with member | member
      · exact invariant.gone number member
      · obtain rfl := List.mem_singleton.mp member
        exact invariant.last session connected ▸ Nat.lt_succ_self _
    · intro acceptance member
      refine (invariant.accepted acceptance member).imp id ?_
      rintro ⟨busy, before, earlier, gone, sooner⟩
      exact ⟨busy, before, earlier, List.mem_append_left _ gone, sooner⟩

/-- No step loses the invariant. -/
theorem step (invariant : Invariant state) (label : Label κ)
    (taken : Exchange.step system label state = some next) : Invariant next := by
  cases label with
  | start client => exact invariant.start client taken
  | serve => exact invariant.serve taken
  | deliver unread => exact invariant.deliver unread taken
  | expire unread => exact invariant.expire unread taken

end Invariant

/-- In every execution all answers are sound. -/
theorem sound_of_run {system : System κ σ ρ β} {server : σ} {labels : List (Label κ)}
    {final : State κ σ ρ β}
    (execution : Execution.run (step system) labels (.idle server) = some final)
    {acceptance : Acceptance} (member : acceptance ∈ final.accepted) :
    acceptance.Sound final.expired :=
  (Execution.invariant_of_run (fun label _ _ invariant => invariant.step label)
    (invariant_idle server) execution).accepted acceptance member

end Exchange
