import C3qo.ExpectedAnswer
import C3qo.WireAgreement

/-!
# Telling peers apart

A hook sets its name with the NUL at its end as `ZMQ_IDENTITY`, and `ncli` compares what a message
brings as its first part with the peer of its command line. The comparison takes its length from
the message, but the NUL that the identity ends with is compared too: it meets the end of the peer
in `ncli`, or differs.
-/

namespace C3qo

/-- With the NUL at its end, a text compares equal to the same text only, whatever the memory after
that one holds. -/
theorem memcmpEq_terminated_iff {text other : Bytes} (after : Nat → UInt8) (noNul : 0 ∉ text)
    (noNul' : 0 ∉ other) :
    memcmpEq (cString text after) (other ++ [0]) = true ↔ other = text := by
  rw [memcmpEq_cString]
  constructor
  · rintro (short | ⟨rest, whole, -⟩)
    · exact absurd (short.subset (by simp)) noNul
    · rcases List.eq_nil_or_concat rest with rfl | ⟨init, last, rfl⟩
      · exact List.append_cancel_right whole
      · -- A longer continuation would put the first NUL inside the other text.
        have split : other ++ [0] = (text ++ 0 :: init) ++ [last] := by
          rw [whole]
          simp
        have inside : other = text ++ 0 :: init := (List.append_inj' split rfl).1
        exact absurd (inside ▸ by simp) noNul'
  · rintro rfl
    exact .inr ⟨[], rfl, rfl⟩

/-! ## The identity of a hook -/

namespace Zmq

/-- The value of `ZMQ_IDENTITY` of the socket at an address. -/
def identityAt (zmq : Zmq) (address : Pointer) : Option Bytes :=
  (zmq.lookup address).map Socket.identity

theorem identityAt_msgSend (platform : Platform) (address other : Pointer) (frame : Frame)
    (zmq : Zmq) :
    (zmq.msgSend platform address frame).2.identityAt other = zmq.identityAt other := by
  unfold msgSend identityAt
  split_ifs
  · rw [lookup_modify]
    split_ifs with same
    · rw [same, Option.map_map, lookup_tick]
      rfl
    · rfl
  · rfl

theorem identityAt_setIdentity {platform : Platform} {address : Pointer} {identity : Bytes}
    {zmq : Zmq} (named : (zmq.setIdentity platform address identity).1 = true) :
    (zmq.setIdentity platform address identity).2.identityAt address = some identity := by
  unfold setIdentity at named ⊢
  unfold identityAt
  split_ifs at named ⊢ with opened
  obtain ⟨there, -⟩ := Bool.and_eq_true_iff.mp opened
  obtain ⟨socket, found⟩ := Option.isSome_iff_exists.mp there
  rw [lookup_modify, if_pos rfl, lookup_tick, found]
  rfl

end Zmq

namespace HookZmq

theorem identityAt_sendLoop (platform : Platform) (address other : Pointer)
    (parts : List BufferPart) (zmq : Zmq) :
    (sendLoop platform address parts zmq).2.identityAt other = zmq.identityAt other := by
  induction parts generalizing zmq with
  | nil => rfl
  | cons part parts ih =>
      have kept := Zmq.identityAt_msgSend platform address other
        (⟨part.bytes, parts ≠ []⟩ : Frame) zmq
      unfold sendLoop
      split
      · rename_i after sent
        rw [sent] at kept
        exact (ih after).trans kept
      · rename_i after refused
        rw [refused] at kept
        exact kept

theorem identityAt_join (platform : Platform) (ref : BlockRef) (hook : HookZmq)
    (polling : Polling) (zmq : Zmq) (other : Pointer) :
    (hook.join platform ref polling zmq).2.2.identityAt other = zmq.identityAt other := by
  have attached : (hook.attach platform zmq).2.identityAt other = zmq.identityAt other :=
    congrArg (Option.map Socket.identity) (hook.lookup_attach platform zmq other)
  unfold join
  dsimp only
  split_ifs
  · exact (identityAt_sendLoop ..).trans attached
  · exact attached
  · exact attached

/-- A hook that has joined its peers bears its name with the NUL as identity. -/
theorem identityAt_start {platform : Platform} (ref : BlockRef) {hook : HookZmq}
    (polling : Polling) {zmq : Zmq} (joined : hook.joins platform zmq = true) :
    (hook.start_ platform ref polling zmq).2.2.identityAt
        (hook.start_ platform ref polling zmq).1.zmq_sock_.socket =
      some (ascii hook.name_ ++ [0]) := by
  unfold joins at joined
  unfold start_
  dsimp only at joined ⊢
  simp only [Bool.and_eq_true] at joined
  obtain ⟨⟨created, named⟩, -⟩ := joined
  rw [if_neg (Option.isSome_iff_ne_none.mp created), if_pos named, socket_join, identityAt_join]
  exact Zmq.identityAt_setIdentity named

end HookZmq

/-! ## Peers behind a `ROUTER` -/

/-- A `c3qo` whose hook has joined the `ROUTER`: the hook as it was configured, and the state in
which `block_start` came to it. -/
structure Peer where
  /-- What the process is linked against. -/
  platform : Platform
  /-- The hook among the blocks of the process. -/
  ref : BlockRef
  /-- The hook before `start_`. -/
  hook : HookZmq
  /-- The polling set before `start_`. -/
  polling : Polling
  /-- The ZeroMQ library before `start_`. -/
  zmq : Zmq
  /-- `start_` succeeds. -/
  joined : hook.joins platform zmq = true

namespace Peer

/-- The identity that was chosen for the peer. -/
def name (peer : Peer) : Bytes := ascii peer.hook.name_

/-- The hook, the polling set and the library after `start_`. -/
def started (peer : Peer) : HookZmq × Polling × Zmq :=
  peer.hook.start_ peer.platform peer.ref peer.polling peer.zmq

/-- The bytes that the peer has set as `ZMQ_IDENTITY`. -/
def identity (peer : Peer) : Bytes :=
  (peer.started.2.2.identityAt peer.started.1.zmq_sock_.socket).getD []

theorem identity_eq (peer : Peer) : peer.identity = peer.name ++ [0] := by
  unfold identity started
  rw [HookZmq.identityAt_start peer.ref peer.polling peer.joined]
  rfl

/-- The hook that `main` of `c3qo` configures and starts. -/
def ofMain (platform : Platform) (identity : String)
    (joined : HookZmq.joins platform
      { HookZmq.new (platform.hookMemory 0) with
        type_ := ZMQ_DEALER, name_ := identity, addr_ := "tcp://127.0.0.1:1664", client_ := true }
      .empty = true) : Peer :=
  ⟨platform, 0, _, .empty, .empty, joined⟩

end Peer

section

variable {ι : Type*} {peers : ι → Peer}

/-- Different peers have different identities. -/
theorem identity_injective (different : Function.Injective fun q => (peers q).name) {p q : ι} :
    (peers p).identity = (peers q).identity ↔ p = q := by
  rw [Peer.identity_eq, Peer.identity_eq, List.append_cancel_right_eq]
  exact different.eq_iff

/-- A client takes no message that another peer has sent. -/
theorem data_of_other (different : Function.Injective fun q => (peers q).name)
    (noNul : ∀ q, 0 ∉ (peers q).name) {p q : ι} {ncli : Ncli}
    (addressed : ncli.ncli_peer_ = (peers p).name) (other : q ≠ p) (platform : Platform)
    (message : Buffer) :
    ncli.data_ platform (routerRecv (peers q).identity message) = false := by
  have apart : memcmpEq (cString ncli.ncli_peer_ ncli.peerMemory)
      (BufferPart.ofBytes (peers q).identity).bytes = false := by
    rw [BufferPart.bytes_ofBytes, Peer.identity_eq, addressed]
    refine Bool.eq_false_iff.mpr fun same => other ?_
    exact different ((memcmpEq_terminated_iff _ (noNul p) (noNul q)).mp same)
  unfold Ncli.data_ routerRecv
  split
  · rename_i peer topic status parts
    obtain ⟨rfl, -⟩ := List.cons.inj parts
    rw [apart, Bool.false_and, Bool.false_and]
  · rfl

end

/-- `received_answer_` after messages of several peers, in the order in which the `ROUTER` hands
them over. -/
def Ncli.receiveAll {ι : Type*} (platform : Platform) (peers : ι → Peer) (ncli : Ncli)
    (arrivals : List (ι × Buffer)) : Bool :=
  arrivals.foldl (fun received_answer_ arrival =>
    ncli.receive platform (routerRecv (peers arrival.1).identity arrival.2) received_answer_) false

/-- What `ncli` has received comes from the peer that it has addressed. -/
structure FromAddressed {ι : Type*} (platform : Platform) (peers : ι → Peer) (p : ι) (ncli : Ncli)
    (arrivals : List (ι × Buffer)) : Prop where
  /-- No message of another peer sets `received_answer_`. -/
  others : ∀ before q message after, arrivals = before ++ (q, message) :: after → q ≠ p →
    ncli.receiveAll platform peers (before ++ [(q, message)]) =
      ncli.receiveAll platform peers before
  /-- If it is set, the peer has sent a message that sets it. -/
  source : ncli.receiveAll platform peers arrivals = true →
    ∃ message, (p, message) ∈ arrivals ∧
      ncli.data_ platform (routerRecv (peers p).identity message) = true
  /-- The command goes to the peer and to no other. -/
  command : ∀ q, (routerSend ncli.start_).map Prod.fst = some (peers q).identity ↔ q = p

/-- Of peers with different identities, of which one may begin with another, `ncli` takes an answer
of the one that it has addressed only. -/
theorem ncli_fromAddressed {ι : Type*} (peers : ι → Peer)
    (different : Function.Injective fun q => (peers q).name) (noNul : ∀ q, 0 ∉ (peers q).name)
    (p : ι) (platform : Platform) (ncli : Ncli) (addressed : ncli.ncli_peer_ = (peers p).name)
    (arrivals : List (ι × Buffer)) : FromAddressed platform peers p ncli arrivals := by
  constructor
  · rintro before q message after - other
    unfold Ncli.receiveAll
    rw [List.foldl_append, List.foldl_cons, List.foldl_nil, Ncli.receive,
      data_of_other different noNul addressed other]
    rfl
  · intro set
    induction arrivals using List.reverseRecOn with
    | nil => cases set
    | append_singleton arrivals arrival ih =>
        unfold Ncli.receiveAll at set ih
        rw [List.foldl_append, List.foldl_cons, List.foldl_nil, Ncli.receive] at set
        split_ifs at set with taken
        · obtain ⟨q, message⟩ := arrival
          obtain rfl : q = p := by
            by_contra other
            rw [data_of_other different noNul addressed other] at taken
            cases taken
          exact ⟨message, by simp, taken⟩
        · obtain ⟨message, member, taken⟩ := ih set
          exact ⟨message, List.mem_append_left _ member, taken⟩
  · intro q
    have address : (routerSend ncli.start_).map Prod.fst = some (peers p).identity := by
      rw [Peer.identity_eq, ← addressed, ← BufferPart.bytes_ofBytes (ncli.ncli_peer_ ++ [0])]
      rfl
    rw [address, Option.some.injEq, identity_injective different]
    exact eq_comm

/-- Two peers, the name of one being the beginning of that of the other. -/
theorem ncli_fromAddressed_prefix :
    let platform := Platform.plain fun _ => none
    let peers : Bool → Peer := fun long =>
      Peer.ofMain platform (if long then "c3qo" else "c3") (by cases long <;> decide)
    let ncli : Ncli := ⟨ascii "c3qo", [1], ascii "OK", fun _ => 0, fun _ => 0⟩
    let arrivals := [(false, replyBuffer true), (true, replyBuffer true)]
    FromAddressed platform peers true ncli arrivals := by
  intro platform peers ncli arrivals
  have addressed : ncli.ncli_peer_ = (peers true).name := rfl
  refine ncli_fromAddressed peers ?_ ?_ true platform ncli addressed arrivals
  · intro long long' same
    cases long <;> cases long' <;> first | rfl | exact absurd same (by decide)
  · intro long
    cases long <;> decide

end C3qo
