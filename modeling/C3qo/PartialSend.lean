import C3qo.Framing
import C3qo.Reassembly

/-!
# Messages that are sent in part

`send_` gives up at the first frame that is refused, and leaves the frames before it in the socket,
marked as being continued. The first message that goes through after that is read as their
continuation.
-/

namespace C3qo

open Reassembly

/-- The part that a frame carries, with the mark that another one follows. -/
def Frame.part (frame : Frame) : Bytes × Bool := (frame.data, frame.more)

/-- How many of a number of frames are taken before the first refusal, from a call on. -/
def framesTaken (accepts : Nat → Bool) : Nat → Nat → Nat
  | 0, _ => 0
  | frames + 1, call => if accepts call then framesTaken accepts frames (call + 1) + 1 else 0

/-- The attempts to send some messages, by which calls of `zmq_msg_send` are refused. A call that
is refused is the last one for its message. -/
def attempts (accepts : Nat → Bool) : List (List Bytes) → Nat → List (Attempt Bytes)
  | [], _ => []
  | parts :: messages, call =>
      let taken := framesTaken accepts parts.length call
      ⟨parts, taken⟩ :: attempts accepts messages (call + min (taken + 1) parts.length)

/-- The buffers for which `send_` has returned true. -/
def passed (bufs : List Buffer) (oks : List Bool) : List (List Bytes) :=
  ((bufs.zip oks).filter Prod.snd).map fun sent => sent.1.contents

theorem framesTaken_le (accepts : Nat → Bool) (frames call : Nat) :
    framesTaken accepts frames call ≤ frames := by
  induction frames generalizing call with
  | zero => exact Nat.le_refl 0
  | succ frames ih =>
      rw [framesTaken]
      split_ifs
      · exact Nat.succ_le_succ (ih (call + 1))
      · exact Nat.zero_le _

theorem attempts_valid {accepts : Nat → Bool} {messages : List (List Bytes)} {call : Nat}
    (some_part : ∀ parts ∈ messages, parts ≠ []) :
    ∀ attempt ∈ attempts accepts messages call, attempt.Valid := by
  induction messages generalizing call with
  | nil => exact fun _ member => absurd member List.not_mem_nil
  | cons parts messages ih =>
      intro attempt member
      rcases List.mem_cons.mp member with rfl | member
      · exact ⟨some_part parts List.mem_cons_self, framesTaken_le accepts parts.length call⟩
      · exact ih (fun other later => some_part other (List.mem_cons_of_mem _ later)) attempt member

theorem map_part_framesOf (parts : List BufferPart) :
    (framesOf parts).map Frame.part = marked (parts.map BufferPart.bytes) := by
  induction parts with
  | nil => rfl
  | cons part parts ih =>
      cases parts with
      | nil => rfl
      | cons next parts => exact congrArg (List.cons _) ih

namespace HookZmq

variable (platform : Platform)

/-- The complete messages that have gone out on the socket of the hook. -/
def messages (hook : HookZmq) (zmq : Zmq) : List (List Bytes) :=
  messagesAfter [] ((hook.accepted zmq).map Frame.part)

/-- The parts that wait in the socket for the rest of their message. -/
def pending (hook : HookZmq) (zmq : Zmq) : List Bytes :=
  pendingAfter [] ((hook.accepted zmq).map Frame.part)

/-- `send_` stops at the first refusal, and the frames before that stay in the socket. -/
theorem sendLoop_taken (address : Pointer) (parts : List BufferPart) {zmq : Zmq} {socket : Socket}
    (opened : zmq.lookup address = some socket) :
    let taken := framesTaken platform.accepts parts.length zmq.calls
    ∃ after, sendLoop platform address parts zmq = (decide (taken = parts.length), after) ∧
      after.calls = zmq.calls + min (taken + 1) parts.length ∧
      after.lookup address =
        some { socket with sent := socket.sent ++ (framesOf parts).take taken } := by
  induction parts generalizing zmq socket with
  | nil => exact ⟨zmq, rfl, by simp, by simpa [framesTaken, framesOf] using opened⟩
  | cons part parts ih =>
      obtain ⟨next, sent, calls, opened'⟩ :=
        Zmq.msgSend_of_lookup platform ⟨part.bytes, parts ≠ []⟩ opened
      cases accepts : platform.accepts zmq.calls with
      | false =>
          rw [accepts] at sent opened'
          refine ⟨next, ?_, ?_, ?_⟩
          · rw [sendLoop, sent]
            simp [framesTaken, accepts]
          · simp [framesTaken, accepts, calls]
          · simpa [framesTaken, accepts] using opened'
      | true =>
          rw [accepts] at sent opened'
          obtain ⟨after, done, calls', reached⟩ := ih opened'
          rw [calls] at done calls' reached
          refine ⟨after, ?_, ?_, ?_⟩
          · rw [sendLoop, sent]
            simpa [framesTaken, accepts] using done
          · simp only [framesTaken, accepts, if_true, List.length_cons, calls']
            omega
          · simpa [framesTaken, accepts, framesOf] using reached

/-- What the calls return, and what they leave in the socket. -/
theorem sendEach_attempts (hook : HookZmq) (bufs : List Buffer) {zmq : Zmq} {socket : Socket}
    (opened : zmq.lookup hook.zmq_sock_.socket = some socket) :
    let tries := attempts platform.accepts (bufs.map Buffer.contents) zmq.calls
    (hook.sendEach platform bufs zmq).1 = tries.map (fun attempt => decide attempt.Whole) ∧
      (hook.accepted (hook.sendEach platform bufs zmq).2).map Frame.part =
        socket.sent.map Frame.part ++ tries.flatMap Attempt.wire := by
  induction bufs generalizing zmq socket with
  | nil => simp [sendEach, accepted, opened, attempts]
  | cons buf bufs ih =>
      obtain ⟨next, sent, calls, opened'⟩ :=
        sendLoop_taken platform hook.zmq_sock_.socket buf.parts_ opened
      obtain ⟨oks, frames⟩ := ih opened'
      have step : hook.sendEach platform (buf :: bufs) zmq =
          (decide (framesTaken platform.accepts buf.parts_.length zmq.calls = buf.parts_.length) ::
            (hook.sendEach platform bufs next).1, (hook.sendEach platform bufs next).2) := by
        simp only [sendEach, send_, sent]
      have length : buf.contents.length = buf.parts_.length := List.length_map ..
      rw [calls] at oks frames
      rw [step]
      simp only [List.map_cons, attempts, length, List.flatMap_cons]
      refine ⟨?_, ?_⟩
      · have whole : ∀ taken, taken = buf.parts_.length ↔
            (⟨buf.contents, taken⟩ : Attempt Bytes).Whole := fun taken => by
          rw [Attempt.Whole, length]
        rw [oks]
        exact congrArg (· :: _) (decide_eq_decide.mpr (whole _))
      · rw [frames, List.map_append, List.map_take, map_part_framesOf, List.append_assoc]
        rfl

theorem passed_attempts (accepts : Nat → Bool) (bufs : List Buffer) (call : Nat) :
    passed bufs ((attempts accepts (bufs.map Buffer.contents) call).map
        fun attempt => decide attempt.Whole) =
      delivered (attempts accepts (bufs.map Buffer.contents) call) := by
  induction bufs generalizing call with
  | nil => rfl
  | cons buf bufs ih =>
      rw [List.map_cons, attempts, List.map_cons]
      by_cases whole : (⟨buf.contents, framesTaken accepts buf.contents.length call⟩ :
          Attempt Bytes).Whole
      · rw [delivered_of_whole whole, ← ih, passed, passed, decide_eq_true whole]
        rfl
      · rw [delivered_of_not_whole whole, ← ih, passed, passed, decide_eq_false whole]
        rfl

end HookZmq

/-- The complete messages on the wire of a socket that has nothing pending are the buffers of the
calls of `send_` that returned true, in order and part for part, if and only if no call of which
some first frames were taken and a later one refused is followed by a call whose frames are all
taken. -/
theorem sendEach_whole_iff (platform : Platform) (hook : HookZmq) (bufs : List Buffer) (zmq : Zmq)
    (socket : Socket) (opened : zmq.lookup hook.zmq_sock_.socket = some socket)
    (nothing : hook.pending zmq = []) (some_part : ∀ buf ∈ bufs, buf.parts_ ≠ []) :
    hook.messages (hook.sendEach platform bufs zmq).2 =
        hook.messages zmq ++ passed bufs (hook.sendEach platform bufs zmq).1 ↔
      (attempts platform.accepts (bufs.map Buffer.contents) zmq.calls).Pairwise
        fun earlier later => ¬ (earlier.Broken ∧ later.Whole) := by
  obtain ⟨oks, frames⟩ := hook.sendEach_attempts platform bufs opened
  have before : hook.accepted zmq = socket.sent := by simp [HookZmq.accepted, opened]
  have valid : ∀ attempt ∈ attempts platform.accepts (bufs.map Buffer.contents) zmq.calls,
      attempt.Valid := by
    refine attempts_valid fun parts member => ?_
    obtain ⟨buf, inside, rfl⟩ := List.mem_map.mp member
    simpa [Buffer.contents] using some_part buf inside
  rw [HookZmq.messages, HookZmq.messages, frames, oks, HookZmq.passed_attempts, before,
    messagesAfter_append, List.append_cancel_left_eq]
  rw [HookZmq.pending, before] at nothing
  rw [nothing, messagesAfter_wire_iff [] valid]
  exact and_iff_left fun some_left => absurd rfl some_left

/-- A platform that refuses some of the frames. -/
def refusing (accepts : Nat → Bool) : Platform :=
  { Platform.plain fun _ => none with accepts := accepts }

/-- A message whose first frame is refused, and one that is sent. -/
theorem sendEach_whole_first :
    let channel := Channel.plain
    let bufs := [Buffer.ofParts [[1], [2]], Buffer.ofParts [[3]]]
    let sent := channel.sender.sendEach (refusing fun call => call ≠ 0) bufs channel.zmq
    channel.sender.messages sent.2 =
      channel.sender.messages channel.zmq ++ passed bufs sent.1 := by
  intro channel bufs sent
  exact (sendEach_whole_iff (refusing fun call => call ≠ 0) channel.sender bufs channel.zmq
    channel.source channel.source_open rfl (by decide)).mpr (by decide +kernel)

/-- A message whose second frame is refused: its first part comes with the next message. -/
theorem sendEach_half :
    let channel := Channel.plain
    let bufs := [Buffer.ofParts [[1], [2]], Buffer.ofParts [[3]]]
    let sent := channel.sender.sendEach (refusing fun call => call ≠ 1) bufs channel.zmq
    sent.1 = [false, true] ∧ channel.sender.messages sent.2 = [[[1], [3]]] ∧
      channel.sender.messages channel.zmq ++ passed bufs sent.1 = [[[3]]] := by
  decide +kernel

end C3qo
