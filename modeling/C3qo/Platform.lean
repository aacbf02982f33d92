import C3qo.Polling
import Mathlib.Data.Finmap
import Mathlib.Data.Finset.Basic

/-!
# The platform

What the blocks are linked against: the commands that the protobuf decoder yields, and the ZeroMQ
library with its contexts, sockets and frames. What the library and the memory allocator are free
to answer is an input, one answer for each call.
-/

namespace C3qo

/-- `Command` of `conf.proto`: its oneof. -/
inductive Command
  /-- `BlockAdd`. -/
  | add (id : Int) (type_ : String)
  /-- `BlockStart`. -/
  | start (id : Int)
  /-- `BlockStop`. -/
  | stop (id : Int)
  /-- `BlockDel`. -/
  | del (id : Int)
  /-- `BlockBind`. -/
  | bind (id port dest : Int)
  /-- `ConfHookZmq`. -/
  | hookZmq (id : Int) (client : Bool) (type_ : Int) (name addr : String)
  /-- `term`. -/
  | term
  /-- None of them. -/
  | notSet
  deriving DecidableEq

/-- One part of a ZeroMQ message. -/
structure Frame where
  /-- The bytes of the part. -/
  data : Bytes
  /-- Another part of the same message follows. -/
  more : Bool
  deriving DecidableEq

/-- An open ZeroMQ socket. -/
structure Socket where
  /-- The context it was created in. -/
  ctx : Nat
  /-- The value of `ZMQ_IDENTITY`. -/
  identity : Bytes
  /-- The frames it has accepted for sending. -/
  sent : List Frame
  /-- The frames that have arrived and wait to be received. -/
  inbox : List Frame
  deriving DecidableEq

/-- The answers that are not determined by the program. -/
structure Platform where
  /-- `zmq_socket`. -/
  socket : Nat → Pointer
  /-- `zmq_setsockopt` succeeds. -/
  setsockopt : Nat → Bool
  /-- `zmq_connect` succeeds. -/
  connect : Nat → Bool
  /-- `zmq_bind` succeeds. -/
  bind : Nat → Bool
  /-- `zmq_msg_send` accepts the frame. -/
  accepts : Nat → Bool
  /-- The context and the descriptor in a hook that has just been allocated. -/
  hookMemory : BlockRef → Nat × FileDesc
  /-- The returned events in a polling item that has just been declared. -/
  pollMemory : Nat → Nat
  /-- `command__unpack`. -/
  unpack : Bytes → Option Command
  /-- The memory after the string literals of the program. -/
  literal : Nat → UInt8

/-- A platform on which every call succeeds, for examples. -/
def Platform.plain (unpack : Bytes → Option Command) : Platform where
  socket call := some call
  setsockopt _ := true
  connect _ := true
  bind _ := true
  accepts _ := true
  hookMemory _ := (0, ⟨none, -1, none, false, false⟩)
  pollMemory _ := 0
  unpack := unpack
  literal _ := 0

/-- The state of the ZeroMQ library. -/
structure Zmq where
  /-- Open contexts. -/
  contexts : Finset Nat
  /-- Open sockets, by address. -/
  sockets : Finmap fun _ : Nat => Socket
  /-- The number of calls made so far. -/
  calls : Nat

namespace Zmq

/-- No context and no socket. -/
def empty : Zmq := ⟨∅, ∅, 0⟩

/-- The library after a call that changes nothing else. -/
def tick (zmq : Zmq) : Zmq := { zmq with calls := zmq.calls + 1 }

/-- `zmq_ctx_new`; a context is identified by the call that created it. -/
def ctxNew (zmq : Zmq) : Nat × Zmq :=
  (zmq.calls, { zmq.tick with contexts := insert zmq.calls zmq.contexts })

/-- `zmq_ctx_term`. -/
def ctxTerm (ctx : Nat) (zmq : Zmq) : Zmq :=
  { zmq.tick with contexts := zmq.contexts.erase ctx }

/-- `zmq_socket`. The address of an open socket is never returned again. -/
def socket (platform : Platform) (ctx : Nat) (zmq : Zmq) : Pointer × Zmq :=
  match platform.socket zmq.calls with
  | none => (none, zmq.tick)
  | some address =>
      if address ∈ zmq.sockets then
        (none, zmq.tick)
      else
        (some address, { zmq.tick with sockets := zmq.sockets.insert address ⟨ctx, [], [], []⟩ })

/-- The open socket at an address. -/
def lookup (zmq : Zmq) (address : Pointer) : Option Socket := address >>= zmq.sockets.lookup

/-- Rewrite the socket at an address, if there is one. -/
def modify (zmq : Zmq) (address : Pointer) (f : Socket → Socket) : Zmq :=
  match address with
  | none => zmq
  | some address =>
      match zmq.sockets.lookup address with
      | none => zmq
      | some old => { zmq with sockets := zmq.sockets.insert address (f old) }

/-- `zmq_setsockopt` with `ZMQ_IDENTITY`. -/
def setIdentity (platform : Platform) (address : Pointer) (identity : Bytes) (zmq : Zmq) :
    Bool × Zmq :=
  if (zmq.lookup address).isSome && platform.setsockopt zmq.calls then
    (true, zmq.tick.modify address fun socket => { socket with identity := identity })
  else
    (false, zmq.tick)

/-- `zmq_connect`. -/
def connect (platform : Platform) (address : Pointer) (zmq : Zmq) : Bool × Zmq :=
  ((zmq.lookup address).isSome && platform.connect zmq.calls, zmq.tick)

/-- `zmq_bind`. -/
def bind (platform : Platform) (address : Pointer) (zmq : Zmq) : Bool × Zmq :=
  ((zmq.lookup address).isSome && platform.bind zmq.calls, zmq.tick)

/-- `zmq_close`. -/
def close (address : Pointer) (zmq : Zmq) : Zmq :=
  match address with
  | none => zmq.tick
  | some address => { zmq.tick with sockets := zmq.sockets.erase address }

/-- `zmq_msg_send`. A refused frame leaves the socket as it was; what is not a socket refuses
every frame. -/
def msgSend (platform : Platform) (address : Pointer) (frame : Frame) (zmq : Zmq) : Bool × Zmq :=
  if (zmq.lookup address).isSome && platform.accepts zmq.calls then
    (true, zmq.tick.modify address fun socket => { socket with sent := socket.sent ++ [frame] })
  else
    (false, zmq.tick)

/-- Frames arrive at a socket. -/
def arrive (address : Pointer) (frames : List Frame) (zmq : Zmq) : Zmq :=
  zmq.modify address fun socket => { socket with inbox := socket.inbox ++ frames }

@[simp] theorem lookup_none (zmq : Zmq) : zmq.lookup none = none := rfl

@[simp] theorem lookup_tick (zmq : Zmq) (address : Pointer) :
    zmq.tick.lookup address = zmq.lookup address := rfl

theorem lookup_modify (zmq : Zmq) (address other : Pointer) (f : Socket → Socket) :
    (zmq.modify address f).lookup other =
      if other = address then (zmq.lookup address).map f else zmq.lookup other := by
  cases address with
  | none =>
      cases other <;> simp [modify]
  | some address =>
      rcases found : zmq.sockets.lookup address with _ | old
      · simp only [modify, found]
        split_ifs with same
        · simp [same, lookup, found]
        · rfl
      · cases other with
        | none => simp [modify, found]
        | some other =>
            simp only [modify, found, lookup, Option.bind_eq_bind, Option.bind_some,
              Option.some.injEq, Option.map_some]
            split_ifs with same
            · subst same
              exact Finmap.lookup_insert _
            · exact Finmap.lookup_insert_of_ne _ same

@[simp] theorem calls_modify (zmq : Zmq) (address : Pointer) (f : Socket → Socket) :
    (zmq.modify address f).calls = zmq.calls := by
  unfold modify
  split
  · rfl
  · split <;> rfl

/-- On an open socket the frame is added or refused. -/
theorem msgSend_of_lookup (platform : Platform) {zmq : Zmq} {address : Pointer} {socket : Socket}
    (frame : Frame) (opened : zmq.lookup address = some socket) :
    ∃ after, zmq.msgSend platform address frame = (platform.accepts zmq.calls, after) ∧
      after.calls = zmq.calls + 1 ∧ after.lookup address = some { socket with
        sent := socket.sent ++ if platform.accepts zmq.calls then [frame] else [] } := by
  cases accepts : platform.accepts zmq.calls with
  | false =>
      refine ⟨zmq.tick, by simp [msgSend, accepts], rfl, ?_⟩
      simpa using opened
  | true =>
      refine ⟨zmq.tick.modify address fun socket => { socket with sent := socket.sent ++ [frame] },
        by simp [msgSend, opened, accepts], by simp [tick], ?_⟩
      rw [lookup_modify, if_pos rfl, lookup_tick, opened]
      rfl

/-! ## Calls leave other sockets alone -/

theorem lookup_modify_of_ne (zmq : Zmq) {address other : Pointer} (f : Socket → Socket)
    (different : address ≠ other) : (zmq.modify address f).lookup other = zmq.lookup other := by
  rw [lookup_modify, if_neg (Ne.symm different)]

theorem lookup_socket_of_ne (platform : Platform) (zmq : Zmq) (ctx : Nat) {other : Pointer}
    (different : (zmq.socket platform ctx).1 ≠ other) :
    (zmq.socket platform ctx).2.lookup other = zmq.lookup other := by
  unfold socket at different ⊢
  split
  · rfl
  · rename_i address answer
    simp only [answer] at different
    split_ifs at different ⊢
    · rfl
    · cases other with
      | none => rfl
      | some other =>
          exact Finmap.lookup_insert_of_ne _ fun same => different (congrArg some same.symm)

theorem lookup_setIdentity_of_ne (platform : Platform) (zmq : Zmq) {address other : Pointer}
    (identity : Bytes) (different : address ≠ other) :
    (zmq.setIdentity platform address identity).2.lookup other = zmq.lookup other := by
  unfold setIdentity
  split_ifs
  · exact lookup_modify_of_ne _ _ different
  · rfl

theorem lookup_msgSend_of_ne (platform : Platform) (zmq : Zmq) {address other : Pointer}
    (frame : Frame) (different : address ≠ other) :
    (zmq.msgSend platform address frame).2.lookup other = zmq.lookup other := by
  unfold msgSend
  split_ifs
  · exact lookup_modify_of_ne _ _ different
  · rfl

theorem lookup_close_of_ne (zmq : Zmq) {address other : Pointer} (different : address ≠ other) :
    (zmq.close address).lookup other = zmq.lookup other := by
  cases address with
  | none => rfl
  | some address =>
      cases other with
      | none => rfl
      | some other =>
          exact Finmap.lookup_erase_ne fun same => different (congrArg some same.symm)

/-! ## Calls that open and close nothing -/

/-- The same contexts are open, and the same sockets in the same contexts. -/
structure Keeps (before after : Zmq) : Prop where
  /-- The contexts are the same. -/
  contexts : after.contexts = before.contexts
  /-- The sockets are at the same addresses, each in its context. -/
  sockets : ∀ address,
    (after.lookup address).map Socket.ctx = (before.lookup address).map Socket.ctx
  /-- Calls are counted. -/
  calls : before.calls ≤ after.calls

namespace Keeps

theorem refl (zmq : Zmq) : Keeps zmq zmq := ⟨rfl, fun _ => rfl, Nat.le_refl _⟩

theorem trans {first second third : Zmq} (left : Keeps first second) (right : Keeps second third) :
    Keeps first third :=
  ⟨right.contexts.trans left.contexts,
    fun address => (right.sockets address).trans (left.sockets address),
    Nat.le_trans left.calls right.calls⟩

theorem tick (zmq : Zmq) : Keeps zmq zmq.tick := ⟨rfl, fun _ => rfl, Nat.le_succ _⟩

/-- An open socket stays open in its context. -/
theorem opened {before after : Zmq} (keeps : Keeps before after) {address : Pointer}
    {socket : Socket} (there : before.lookup address = some socket) :
    ∃ socket', after.lookup address = some socket' ∧ socket'.ctx = socket.ctx := by
  have same := keeps.sockets address
  rw [there] at same
  exact Option.map_eq_some_iff.mp same

theorem symm_opened {before after : Zmq} (keeps : Keeps before after) {address : Pointer}
    {socket : Socket} (there : after.lookup address = some socket) :
    ∃ socket', before.lookup address = some socket' ∧ socket'.ctx = socket.ctx := by
  have same := keeps.sockets address
  rw [there] at same
  exact Option.map_eq_some_iff.mp same.symm

theorem modify (zmq : Zmq) (address : Pointer) {f : Socket → Socket}
    (keeps : ∀ socket, (f socket).ctx = socket.ctx) : Keeps zmq (zmq.modify address f) := by
  refine ⟨?_, fun other => ?_, ?_⟩
  · unfold Zmq.modify
    split
    · rfl
    · split <;> rfl
  · rw [lookup_modify]
    split_ifs with same
    · subst same
      rw [Option.map_map]
      exact congrArg (fun g => Option.map g _) (funext keeps)
    · rfl
  · rw [calls_modify]

theorem setIdentity (platform : Platform) (address : Pointer) (identity : Bytes) (zmq : Zmq) :
    Keeps zmq (zmq.setIdentity platform address identity).2 := by
  unfold Zmq.setIdentity
  split_ifs
  · exact (tick zmq).trans (modify _ _ fun _ => rfl)
  · exact tick zmq

theorem msgSend (platform : Platform) (address : Pointer) (frame : Frame) (zmq : Zmq) :
    Keeps zmq (zmq.msgSend platform address frame).2 := by
  unfold Zmq.msgSend
  split_ifs
  · exact (tick zmq).trans (modify _ _ fun _ => rfl)
  · exact tick zmq

theorem arrive (address : Pointer) (frames : List Frame) (zmq : Zmq) :
    Keeps zmq (zmq.arrive address frames) :=
  modify _ _ fun _ => rfl

end Keeps

end Zmq

end C3qo
