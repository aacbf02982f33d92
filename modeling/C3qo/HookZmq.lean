import C3qo.Platform

/-!
# ZeroMQ hooks

`hook_zmq.cpp`: a block that moves multi-part messages between its ZeroMQ socket and the data
flows of the manager.
-/

namespace C3qo

/-- Socket type `ZMQ_PAIR`. -/
def ZMQ_PAIR : Int := 0

/-- Socket type `ZMQ_DEALER`. -/
def ZMQ_DEALER : Int := 5

/-- `struct hook_zmq`, without its base. -/
structure HookZmq where
  /-- Context. -/
  zmq_ctx_ : Nat
  /-- Socket, as it is registered for polling. -/
  zmq_sock_ : FileDesc
  /-- Either client or server. -/
  client_ : Bool
  /-- ZMQ socket type. -/
  type_ : Int
  /-- Identity of this hook. -/
  name_ : String
  /-- Address to connect or bind. -/
  addr_ : String
  /-- Received messages. -/
  rx_pkt_ : Nat
  /-- Sent messages. -/
  tx_pkt_ : Nat
  deriving DecidableEq

namespace HookZmq

/-- `hook_zmq::hook_zmq`; context and socket keep what was in the memory. -/
def new (memory : Nat × FileDesc) : HookZmq :=
  ⟨memory.1, memory.2, false, ZMQ_PAIR, "", "tcp://127.0.0.1:6666", 0, 0⟩

/-- The loop of `hook_zmq::recv_` on the frames waiting in the socket: whether it succeeded, the
buffer, and the frames left. Without a frame to receive, `zmq_msg_recv` fails. -/
def recvLoop : List Frame → Buffer → Bool × Buffer × List Frame
  | [], buf => (false, buf, [])
  | part :: inbox, buf =>
      let ret : Int := part.data.length
      if ret ≤ 0 then
        (false, buf, inbox)
      else
        let buf := buf.pushBack part.data
        if part.more then recvLoop inbox buf else (true, buf, inbox)

/-- `hook_zmq::recv_`: receive a multi-part message. -/
def recv_ (hook : HookZmq) (buf : Buffer) (zmq : Zmq) : Bool × Buffer × Zmq :=
  match zmq.lookup hook.zmq_sock_.socket with
  | none => (false, buf, zmq)
  | some socket =>
      let (ok, buf, inbox) := recvLoop socket.inbox buf
      (ok, buf, zmq.modify hook.zmq_sock_.socket fun socket => { socket with inbox := inbox })

/-- The loop of `hook_zmq::send_`: every part but the last is sent with `ZMQ_SNDMORE`. -/
def sendLoop (platform : Platform) (socket : Pointer) : List BufferPart → Zmq → Bool × Zmq
  | [], zmq => (true, zmq)
  | part :: parts, zmq =>
      match zmq.msgSend platform socket ⟨part.bytes, parts ≠ []⟩ with
      | (true, zmq) => sendLoop platform socket parts zmq
      | (false, zmq) => (false, zmq)

/-- `hook_zmq::send_`: send a multi-part message. -/
def send_ (platform : Platform) (hook : HookZmq) (buf : Buffer) (zmq : Zmq) : Bool × Zmq :=
  sendLoop platform hook.zmq_sock_.socket buf.parts_ zmq

/-- The step of `hook_zmq::start_` that binds or connects the socket. -/
def attach (platform : Platform) (hook : HookZmq) (zmq : Zmq) : Bool × Zmq :=
  if hook.client_ then
    zmq.connect platform hook.zmq_sock_.socket
  else
    zmq.bind platform hook.zmq_sock_.socket

/-- The part of `hook_zmq::start_` after the socket has been created and named: bind or connect
it, register it for polling, and make a dealer known to its peer. -/
def join (platform : Platform) (ref : BlockRef) (hook : HookZmq) (polling : Polling) (zmq : Zmq) :
    HookZmq × Polling × Zmq :=
  let (joined, zmq) := hook.attach platform zmq
  if joined then
    let desc : FileDesc := ⟨some ref, -1, hook.zmq_sock_.socket, true, false⟩
    let hook := { hook with zmq_sock_ := desc }
    let (_, polling) := polling.fdAdd (platform.pollMemory zmq.calls) desc
    if hook.type_ = ZMQ_DEALER then
      let (_, zmq) := hook.send_ platform (Buffer.empty.pushBack (ascii "dummy")) zmq
      (hook, polling, zmq)
    else
      (hook, polling, zmq)
  else
    (hook, polling, zmq)

/-- `hook_zmq::start_`. -/
def start_ (platform : Platform) (ref : BlockRef) (hook : HookZmq) (polling : Polling)
    (zmq : Zmq) : HookZmq × Polling × Zmq :=
  let (ctx, zmq) := zmq.ctxNew
  let (socket, zmq) := zmq.socket platform ctx
  let hook :=
    { hook with zmq_ctx_ := ctx, zmq_sock_ := { hook.zmq_sock_ with socket := socket } }
  if socket = none then
    (hook, polling, zmq)
  else
    let (named, zmq) := zmq.setIdentity platform socket (ascii hook.name_ ++ [0])
    if named then
      hook.join platform ref polling zmq
    else
      (hook, polling, zmq)

/-- `hook_zmq::stop_`. -/
def stop_ (hook : HookZmq) (polling : Polling) (zmq : Zmq) : Polling × Zmq :=
  (polling.fdRemove hook.zmq_sock_,
    (zmq.close hook.zmq_sock_.socket).ctxTerm hook.zmq_ctx_)

/-- `hook_zmq::data_`: send data to the exterior; it never forwards. -/
def data_ (platform : Platform) (hook : HookZmq) (vdata : Option Buffer) (zmq : Zmq) :
    Bool × HookZmq × Zmq :=
  match vdata with
  | none => (false, hook, zmq)
  | some buf =>
      let (ok, zmq) := hook.send_ platform buf zmq
      (false, if ok then { hook with tx_pkt_ := hook.tx_pkt_ + 1 } else hook, zmq)

/-! ## What a hook changes -/

theorem lookup_sendLoop_of_ne (platform : Platform) {address other : Pointer}
    (different : address ≠ other) (parts : List BufferPart) (zmq : Zmq) :
    (sendLoop platform address parts zmq).2.lookup other = zmq.lookup other := by
  induction parts generalizing zmq with
  | nil => rfl
  | cons part parts ih =>
      have kept := Zmq.lookup_msgSend_of_ne platform zmq
        (⟨part.bytes, parts ≠ []⟩ : Frame) different
      unfold sendLoop
      split
      · rename_i after sent
        rw [ih, ← kept, sent]
      · rename_i after refused
        rw [← kept, refused]

/-- Starting adds at most the descriptor of the hook to the polling set, and of the sockets it
changes at most the one of the hook. -/
structure Registers (ref : BlockRef) (hook : HookZmq) (before after : Polling × Zmq) : Prop where
  /-- The descriptor of the hook has been added, or none. -/
  polling : after.1 = before.1 ∨ ∃ uninit, hook.zmq_sock_.bk = some ref ∧
    after.1 = (before.1.fdAdd uninit hook.zmq_sock_).2
  /-- Other sockets are as before. -/
  zmq : ∀ other, hook.zmq_sock_.socket ≠ other → after.2.lookup other = before.2.lookup other

@[simp] theorem lookup_attach (platform : Platform) (hook : HookZmq) (zmq : Zmq)
    (other : Pointer) : (hook.attach platform zmq).2.lookup other = zmq.lookup other := by
  unfold attach
  split_ifs <;> rfl

theorem socket_join (platform : Platform) (ref : BlockRef) (hook : HookZmq) (polling : Polling)
    (zmq : Zmq) :
    (hook.join platform ref polling zmq).1.zmq_sock_.socket = hook.zmq_sock_.socket := by
  unfold join
  dsimp only
  split_ifs <;> rfl

theorem join_registers (platform : Platform) (ref : BlockRef) (hook : HookZmq)
    (polling : Polling) (zmq : Zmq) :
    Registers ref (hook.join platform ref polling zmq).1 (polling, zmq)
      (hook.join platform ref polling zmq).2 := by
  refine ⟨?_, fun other different => ?_⟩
  · unfold join
    dsimp only
    split_ifs
    · exact .inr ⟨_, rfl, rfl⟩
    · exact .inr ⟨_, rfl, rfl⟩
    · exact .inl rfl
  · rw [socket_join] at different
    unfold join
    dsimp only
    split_ifs
    · exact (lookup_sendLoop_of_ne platform different _ _).trans (lookup_attach ..)
    · exact lookup_attach ..
    · exact lookup_attach ..

theorem start_registers (platform : Platform) (ref : BlockRef) (hook : HookZmq)
    (polling : Polling) (zmq : Zmq) :
    Registers ref (hook.start_ platform ref polling zmq).1 (polling, zmq)
      (hook.start_ platform ref polling zmq).2 := by
  unfold start_
  dsimp only
  split_ifs with failed named
  · refine ⟨.inl rfl, fun other different => ?_⟩
    exact Zmq.lookup_socket_of_ne platform _ _ different
  · obtain ⟨polled, others⟩ := join_registers platform ref
      { hook with
        zmq_ctx_ := zmq.ctxNew.1
        zmq_sock_ :=
          { hook.zmq_sock_ with socket := (zmq.ctxNew.2.socket platform zmq.ctxNew.1).1 } }
      polling ((zmq.ctxNew.2.socket platform zmq.ctxNew.1).2.setIdentity platform
        (zmq.ctxNew.2.socket platform zmq.ctxNew.1).1 (ascii hook.name_ ++ [0])).2
    refine ⟨polled, fun other different => (others other different).trans ?_⟩
    rw [socket_join] at different
    exact (Zmq.lookup_setIdentity_of_ne platform _ _ different).trans
      (Zmq.lookup_socket_of_ne platform _ _ different)
  · refine ⟨.inl rfl, fun other different => ?_⟩
    exact (Zmq.lookup_setIdentity_of_ne platform _ _ different).trans
      (Zmq.lookup_socket_of_ne platform _ _ different)

/-- Of the fields of a hook, starting changes the context and the descriptor only. -/
theorem start_fields (platform : Platform) (ref : BlockRef) (hook : HookZmq) (polling : Polling)
    (zmq : Zmq) : ∃ ctx desc, (hook.start_ platform ref polling zmq).1 =
      { hook with zmq_ctx_ := ctx, zmq_sock_ := desc } := by
  unfold start_ join
  dsimp only
  split_ifs <;> exact ⟨_, _, rfl⟩

/-- Stopping closes at most the socket of the hook. -/
theorem lookup_stop_of_ne (hook : HookZmq) (polling : Polling) (zmq : Zmq) {other : Pointer}
    (different : hook.zmq_sock_.socket ≠ other) :
    (hook.stop_ polling zmq).2.lookup other = zmq.lookup other :=
  zmq.lookup_close_of_ne different

/-! ## The sockets that a hook keeps -/

theorem keeps_sendLoop (platform : Platform) (address : Pointer) (parts : List BufferPart)
    (zmq : Zmq) : zmq.Keeps (sendLoop platform address parts zmq).2 := by
  induction parts generalizing zmq with
  | nil => exact .refl zmq
  | cons part parts ih =>
      have kept := Zmq.Keeps.msgSend platform address (⟨part.bytes, parts ≠ []⟩ : Frame) zmq
      unfold sendLoop
      split
      · rename_i after sent
        rw [sent] at kept
        exact kept.trans (ih after)
      · rename_i after refused
        rw [refused] at kept
        exact kept

theorem keeps_recv (hook : HookZmq) (buf : Buffer) (zmq : Zmq) :
    zmq.Keeps (hook.recv_ buf zmq).2.2 := by
  unfold recv_
  split
  · exact .refl zmq
  · exact .modify _ _ fun _ => rfl

theorem keeps_data (platform : Platform) (hook : HookZmq) (vdata : Option Buffer) (zmq : Zmq) :
    zmq.Keeps (hook.data_ platform vdata zmq).2.2 := by
  cases vdata with
  | none => exact .refl zmq
  | some buf => exact keeps_sendLoop platform _ _ zmq

theorem keeps_attach (platform : Platform) (hook : HookZmq) (zmq : Zmq) :
    zmq.Keeps (hook.attach platform zmq).2 := by
  unfold attach
  split_ifs <;> exact .tick zmq

theorem keeps_join (platform : Platform) (ref : BlockRef) (hook : HookZmq) (polling : Polling)
    (zmq : Zmq) : zmq.Keeps (hook.join platform ref polling zmq).2.2 := by
  unfold join
  dsimp only
  split_ifs
  · exact (keeps_attach platform hook zmq).trans (keeps_sendLoop platform _ _ _)
  · exact keeps_attach platform hook zmq
  · exact keeps_attach platform hook zmq

/-- A hook that starts holds the context made for it and what `zmq_socket` answers there. All
that it does after that opens and closes nothing. -/
theorem start_opens (platform : Platform) (ref : BlockRef) (hook : HookZmq) (polling : Polling)
    (zmq : Zmq) :
    (hook.start_ platform ref polling zmq).1.zmq_ctx_ = zmq.calls ∧
      (hook.start_ platform ref polling zmq).1.zmq_sock_.socket =
        (zmq.ctxNew.2.socket platform zmq.calls).1 ∧
      (zmq.ctxNew.2.socket platform zmq.calls).2.Keeps
        (hook.start_ platform ref polling zmq).2.2 := by
  unfold start_
  dsimp only
  split_ifs with failed named
  · exact ⟨rfl, rfl, .refl _⟩
  · refine ⟨?_, socket_join .., (Zmq.Keeps.setIdentity ..).trans (keeps_join ..)⟩
    unfold join
    dsimp only
    split_ifs <;> rfl
  · exact ⟨rfl, rfl, .setIdentity ..⟩

theorem zmq_ctx_data (platform : Platform) (hook : HookZmq) (vdata : Option Buffer)
    (zmq : Zmq) : (hook.data_ platform vdata zmq).2.1.zmq_ctx_ = hook.zmq_ctx_ := by
  cases vdata with
  | none => rfl
  | some buf =>
      simp only [data_]
      split <;> rfl

theorem zmq_sock_data (platform : Platform) (hook : HookZmq) (vdata : Option Buffer)
    (zmq : Zmq) : (hook.data_ platform vdata zmq).2.1.zmq_sock_ = hook.zmq_sock_ := by
  cases vdata with
  | none => rfl
  | some buf =>
      simp only [data_]
      split <;> rfl

/-- `start_` gets past `zmq_bind` or `zmq_connect`. -/
def joins (platform : Platform) (hook : HookZmq) (zmq : Zmq) : Bool :=
  let (ctx, zmq) := zmq.ctxNew
  let (socket, zmq) := zmq.socket platform ctx
  let hook :=
    { hook with zmq_ctx_ := ctx, zmq_sock_ := { hook.zmq_sock_ with socket := socket } }
  let (named, zmq) := zmq.setIdentity platform socket (ascii hook.name_ ++ [0])
  socket.isSome && named && (hook.attach platform zmq).1

theorem join_polling (platform : Platform) (ref : BlockRef) (hook : HookZmq) (polling : Polling)
    (zmq : Zmq) :
    if (hook.attach platform zmq).1 then
      (hook.join platform ref polling zmq).1.zmq_sock_ =
          ⟨some ref, -1, hook.zmq_sock_.socket, true, false⟩ ∧
        ∃ uninit, (hook.join platform ref polling zmq).2.1 =
          (polling.fdAdd uninit (hook.join platform ref polling zmq).1.zmq_sock_).2
    else
      (hook.join platform ref polling zmq).2.1 = polling := by
  unfold join
  dsimp only
  split_ifs
  · exact ⟨rfl, _, rfl⟩
  · exact ⟨rfl, _, rfl⟩
  · rfl

/-- A hook that gets that far registers its descriptor; one that does not registers nothing. -/
theorem start_polling (platform : Platform) (ref : BlockRef) (hook : HookZmq) (polling : Polling)
    (zmq : Zmq) :
    if hook.joins platform zmq then
      ∃ address uninit, (hook.start_ platform ref polling zmq).1.zmq_sock_ =
          ⟨some ref, -1, some address, true, false⟩ ∧
        (hook.start_ platform ref polling zmq).2.1 =
          (polling.fdAdd uninit (hook.start_ platform ref polling zmq).1.zmq_sock_).2
    else
      (hook.start_ platform ref polling zmq).2.1 = polling := by
  unfold joins start_
  dsimp only
  by_cases null : (zmq.ctxNew.2.socket platform zmq.ctxNew.1).1 = none
  · rw [if_pos null, if_neg (by simp [null])]
  · obtain ⟨address, given⟩ := Option.ne_none_iff_exists'.mp null
    rw [if_neg null]
    have joined := join_polling platform ref
      { hook with
        zmq_ctx_ := zmq.ctxNew.1
        zmq_sock_ :=
          { hook.zmq_sock_ with socket := (zmq.ctxNew.2.socket platform zmq.ctxNew.1).1 } }
      polling ((zmq.ctxNew.2.socket platform zmq.ctxNew.1).2.setIdentity platform
        (zmq.ctxNew.2.socket platform zmq.ctxNew.1).1 (ascii hook.name_ ++ [0])).2
    by_cases named : ((zmq.ctxNew.2.socket platform zmq.ctxNew.1).2.setIdentity platform
        (zmq.ctxNew.2.socket platform zmq.ctxNew.1).1 (ascii hook.name_ ++ [0])).1 = true
    · rw [if_pos named]
      simp only [named, Option.isSome_iff_ne_none.mpr null, Bool.and_true, Bool.true_and]
      split_ifs at joined ⊢ with attached
      · obtain ⟨desc, uninit, added⟩ := joined
        exact ⟨address, uninit, given ▸ desc, added⟩
      · exact joined
    · rw [if_neg named, if_neg]
      simp [named]

end HookZmq

end C3qo
