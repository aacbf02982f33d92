import C3qo.HookZmq

/-!
# Framing of messages

What one hook sends, another one receives, as long as no part is empty: `recv_` takes the length
zero that `zmq_msg_recv` returns for an empty part for a failure, and leaves the rest of that
message in the socket.
-/

namespace C3qo

/-- The bytes of the parts of a buffer. -/
def Buffer.contents (buf : Buffer) : List Bytes := buf.parts_.map BufferPart.bytes

/-- The frames of one message, given its parts. -/
def framesOf : List BufferPart → List Frame
  | [] => []
  | part :: parts => ⟨part.bytes, parts ≠ []⟩ :: framesOf parts

namespace HookZmq

/-- Calls of `send_`, one after the other. -/
def sendEach (platform : Platform) (hook : HookZmq) : List Buffer → Zmq → List Bool × Zmq
  | [], zmq => ([], zmq)
  | buf :: bufs, zmq =>
      let (ok, zmq) := hook.send_ platform buf zmq
      let (oks, zmq) := hook.sendEach platform bufs zmq
      (ok :: oks, zmq)

/-- The frames waiting in the socket of the hook. -/
def waiting (hook : HookZmq) (zmq : Zmq) : List Frame :=
  ((zmq.lookup hook.zmq_sock_.socket).map Socket.inbox).getD []

/-- The frames that the socket of the hook has accepted. -/
def accepted (hook : HookZmq) (zmq : Zmq) : List Frame :=
  ((zmq.lookup hook.zmq_sock_.socket).map Socket.sent).getD []

/-- Calls of `recv_`, one after the other, return these buffers, each of them consuming the frames
of its own message. -/
def Receives (hook : HookZmq) : List Buffer → Zmq → Prop
  | [], _ => True
  | buf :: bufs, zmq =>
      let (ok, received, after) := hook.recv_ Buffer.empty zmq
      ok = true ∧ received.contents = buf.contents ∧
        hook.waiting zmq = framesOf buf.parts_ ++ hook.waiting after ∧ hook.Receives bufs after

theorem sendLoop_of_accepts {platform : Platform} (accepts : ∀ call, platform.accepts call = true)
    (address : Pointer) (parts : List BufferPart) {zmq : Zmq} {socket : Socket}
    (opened : zmq.lookup address = some socket) :
    ∃ after, sendLoop platform address parts zmq = (true, after) ∧
      after.lookup address = some { socket with sent := socket.sent ++ framesOf parts } := by
  induction parts generalizing zmq socket with
  | nil => exact ⟨zmq, rfl, by simpa [framesOf] using opened⟩
  | cons part parts ih =>
      obtain ⟨next, sent, -, opened'⟩ :=
        Zmq.msgSend_of_lookup platform ⟨part.bytes, parts ≠ []⟩ opened
      rw [accepts] at sent opened'
      obtain ⟨after, done, reached⟩ := ih opened'
      refine ⟨after, ?_, ?_⟩
      · rw [sendLoop, sent]
        exact done
      · simpa [framesOf] using reached

/-- A socket that accepts every frame has the frames of all buffers, in order. -/
theorem sendEach_of_accepts {platform : Platform} (accepts : ∀ call, platform.accepts call = true)
    (hook : HookZmq) (bufs : List Buffer) {zmq : Zmq} {socket : Socket}
    (opened : zmq.lookup hook.zmq_sock_.socket = some socket) :
    (∀ ok ∈ (hook.sendEach platform bufs zmq).1, ok = true) ∧
      hook.accepted (hook.sendEach platform bufs zmq).2 =
        socket.sent ++ bufs.flatMap fun buf => framesOf buf.parts_ := by
  induction bufs generalizing zmq socket with
  | nil => simp [sendEach, accepted, opened]
  | cons buf bufs ih =>
      obtain ⟨after, done, reached⟩ := sendLoop_of_accepts accepts hook.zmq_sock_.socket
        buf.parts_ opened
      obtain ⟨oks, frames⟩ := ih reached
      have step : hook.sendEach platform (buf :: bufs) zmq =
          (true :: (hook.sendEach platform bufs after).1,
            (hook.sendEach platform bufs after).2) := by
        simp only [sendEach, send_, done]
      rw [step]
      exact ⟨by simpa using oks, by simp [frames]⟩

/-- Receiving one message succeeds exactly if none of its parts is empty. It then consumes the
frames of that message only. -/
theorem recvLoop_framesOf (parts : List BufferPart) (some_part : parts ≠ []) (buf : Buffer)
    (rest : List Frame) :
    ((∀ part ∈ parts, part.bytes ≠ []) →
      recvLoop (framesOf parts ++ rest) buf =
        (true, ⟨buf.parts_ ++ parts.map fun part => .ofBytes part.bytes⟩, rest)) ∧
    ((recvLoop (framesOf parts ++ rest) buf).1 = true → ∀ part ∈ parts, part.bytes ≠ []) := by
  induction parts generalizing buf with
  | nil => exact absurd rfl some_part
  | cons part parts ih =>
      by_cases empty : part.bytes = []
      · refine ⟨fun full => absurd empty (full part List.mem_cons_self), fun received => ?_⟩
        simp [framesOf, recvLoop, empty] at received
      · rcases parts with _ | ⟨next, parts⟩
        · simp [framesOf, recvLoop, empty, Buffer.pushBack]
        · have step : recvLoop (framesOf (part :: next :: parts) ++ rest) buf =
              recvLoop (framesOf (next :: parts) ++ rest) (buf.pushBack part.bytes) := by
            rw [framesOf, List.cons_append, recvLoop]
            simp [empty]
          obtain ⟨forward, backward⟩ := ih (by simp) (buf.pushBack part.bytes)
          rw [step]
          refine ⟨fun full => ?_, fun received => ?_⟩
          · rw [forward fun other member => full other (List.mem_cons_of_mem _ member)]
            simp [Buffer.pushBack]
          · exact List.forall_mem_cons.mpr ⟨empty, backward received⟩

/-- `recv_` is its loop on the frames waiting in the socket. -/
theorem recv_of_lookup {hook : HookZmq} {zmq : Zmq} {socket : Socket}
    (opened : zmq.lookup hook.zmq_sock_.socket = some socket) (buf : Buffer) :
    ∃ after, hook.recv_ buf zmq =
        ((recvLoop socket.inbox buf).1, (recvLoop socket.inbox buf).2.1, after) ∧
      after.lookup hook.zmq_sock_.socket =
        some { socket with inbox := (recvLoop socket.inbox buf).2.2 } := by
  refine ⟨zmq.modify hook.zmq_sock_.socket fun socket' =>
    { socket' with inbox := (recvLoop socket.inbox buf).2.2 }, ?_, ?_⟩
  · simp only [recv_, opened]
  · rw [Zmq.lookup_modify, if_pos rfl, opened]
    rfl

/-- The buffers whose frames wait in a socket are received exactly if they have no empty part. -/
theorem receives_iff {hook : HookZmq} {bufs : List Buffer}
    (some_part : ∀ buf ∈ bufs, buf.parts_ ≠ []) {zmq : Zmq} {socket : Socket}
    (opened : zmq.lookup hook.zmq_sock_.socket = some socket)
    (inbox : socket.inbox = bufs.flatMap fun buf => framesOf buf.parts_) :
    hook.Receives bufs zmq ↔ ∀ buf ∈ bufs, ∀ part ∈ buf.parts_, part.bytes ≠ [] := by
  induction bufs generalizing zmq socket with
  | nil => simp [Receives]
  | cons buf bufs ih =>
      obtain ⟨after, received, reached⟩ := recv_of_lookup opened Buffer.empty
      have waiting_before : hook.waiting zmq = socket.inbox := by simp [waiting, opened]
      have waiting_after : hook.waiting after = (recvLoop socket.inbox Buffer.empty).2.2 := by
        simp [waiting, reached]
      obtain ⟨forward, backward⟩ := recvLoop_framesOf buf.parts_
        (some_part buf List.mem_cons_self) Buffer.empty
        (bufs.flatMap fun buf => framesOf buf.parts_)
      rw [List.flatMap_cons] at inbox
      simp only [Receives, received, List.forall_mem_cons]
      constructor
      · rintro ⟨ok, -, -, later⟩
        rw [inbox] at ok
        have full := backward ok
        refine ⟨full, (ih (fun other member => some_part other (List.mem_cons_of_mem _ member))
          reached ?_).mp later⟩
        rw [inbox, forward full]
      · rintro ⟨full, rest⟩
        rw [inbox, forward full] at reached waiting_after
        rw [waiting_before, waiting_after, inbox, forward full]
        refine ⟨rfl, ?_, rfl, (ih (fun other member =>
          some_part other (List.mem_cons_of_mem _ member)) reached rfl).mpr rest⟩
        simp [Buffer.contents, Buffer.empty, Function.comp_def]

end HookZmq

/-- Two hooks and the ZeroMQ libraries of their processes: the socket of the sender accepts every
frame, and what it has accepted arrives at the socket of the receiver. -/
structure Channel where
  /-- The answers of the library of the sender. -/
  platform : Platform
  /-- The sending hook. -/
  sender : HookZmq
  /-- The library of the sender. -/
  zmq : Zmq
  /-- The socket of the sender. -/
  source : Socket
  /-- The receiving hook. -/
  receiver : HookZmq
  /-- The library of the receiver. -/
  peer : Zmq
  /-- The socket of the receiver. -/
  target : Socket
  /-- Every frame is accepted. -/
  accepts : ∀ call, platform.accepts call = true
  /-- The sending socket is open. -/
  source_open : zmq.lookup sender.zmq_sock_.socket = some source
  /-- Nothing has been sent. -/
  silent : source.sent = []
  /-- The receiving socket is open. -/
  target_open : peer.lookup receiver.zmq_sock_.socket = some target
  /-- Nothing has arrived. -/
  idle : target.inbox = []

namespace Channel

/-- The library of the receiver after all buffers have been sent and their frames have arrived. -/
def delivered (channel : Channel) (bufs : List Buffer) : Zmq :=
  channel.peer.arrive channel.receiver.zmq_sock_.socket
    (channel.sender.accepted (channel.sender.sendEach channel.platform bufs channel.zmq).2)

/-- Message framing round trip: successive calls of `recv_` return exactly the buffers that were
sent, if and only if no part of them is empty. -/
theorem receives_delivered_iff (channel : Channel) (bufs : List Buffer)
    (some_part : ∀ buf ∈ bufs, buf.parts_ ≠ []) :
    channel.receiver.Receives bufs (channel.delivered bufs) ↔
      ∀ buf ∈ bufs, ∀ part ∈ buf.parts_, part.bytes ≠ [] := by
  obtain ⟨-, frames⟩ := HookZmq.sendEach_of_accepts channel.accepts channel.sender bufs
    channel.source_open
  have opened : (channel.delivered bufs).lookup channel.receiver.zmq_sock_.socket =
      some { channel.target with inbox := bufs.flatMap fun buf => framesOf buf.parts_ } := by
    rw [delivered, frames, Zmq.arrive, Zmq.lookup_modify, if_pos rfl, channel.target_open]
    simp [channel.silent, channel.idle]
  exact HookZmq.receives_iff some_part opened rfl

/-- Two hooks with one socket each, for examples. -/
def plain : Channel where
  platform := .plain fun _ => none
  sender := .new (0, ⟨none, -1, some 0, true, false⟩)
  zmq := ⟨∅, .singleton 0 ⟨0, [], [], []⟩, 0⟩
  source := ⟨0, [], [], []⟩
  receiver := .new (0, ⟨none, -1, some 0, true, false⟩)
  peer := ⟨∅, .singleton 0 ⟨0, [], [], []⟩, 0⟩
  target := ⟨0, [], [], []⟩
  accepts _ := rfl
  source_open := rfl
  silent := rfl
  target_open := rfl
  idle := rfl

theorem receives_delivered_plain :
    plain.receiver.Receives [.ofParts [[1], [2]], .ofParts [[3]]]
      (plain.delivered [.ofParts [[1], [2]], .ofParts [[3]]]) :=
  (plain.receives_delivered_iff [.ofParts [[1], [2]], .ofParts [[3]]] (by decide)).mpr (by decide)

/-- A message with an empty part is lost, and its last part starts the next message. -/
theorem not_receives_empty_part :
    ¬ plain.receiver.Receives [.ofParts [[1], [], [2]], .ofParts [[3]]]
      (plain.delivered [.ofParts [[1], [], [2]], .ofParts [[3]]]) :=
  fun received => absurd received.1 (by decide)

end Channel

end C3qo
