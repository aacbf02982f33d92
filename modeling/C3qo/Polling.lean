import C3qo.Memory
import Mathlib.Data.List.InsertIdx
import Mathlib.Data.List.Nodup

/-!
# The polling set

`manager_fd.cpp`: two tables walked in step, the callbacks and the items given to `zmq_poll`. The
tables carry the invariant that every access by index relies on. `fd_poll` takes the range-for
over `fd_` position by position, its end fixed when the loop starts, while callbacks add and
remove entries.
-/

namespace C3qo

/-- What identifies an entry: a file descriptor and a ZMQ socket. -/
abbrev PollKey := Int × Pointer

/-- `struct file_desc`. -/
structure FileDesc where
  /-- Block to be notified on event. -/
  bk : Option BlockRef
  /-- File descriptor to monitor. -/
  fd : Int
  /-- ZMQ socket to monitor. -/
  socket : Pointer
  /-- Look for read events. -/
  read : Bool
  /-- Look for write events. -/
  write : Bool
  deriving DecidableEq

/-- `zmq_pollitem_t`. -/
structure PollItem where
  /-- File descriptor. -/
  fd : Int
  /-- ZMQ socket. -/
  socket : Pointer
  /-- Requested events. -/
  events : Nat
  /-- Returned events. -/
  revents : Nat
  deriving DecidableEq

/-- Incoming data. -/
def ZMQ_POLLIN : Nat := 1

/-- Room for outgoing data. -/
def ZMQ_POLLOUT : Nat := 2

/-- The key of a descriptor. -/
def FileDesc.key (desc : FileDesc) : PollKey := (desc.fd, desc.socket)

/-- The key of a polled item. -/
def PollItem.key (item : PollItem) : PollKey := (item.fd, item.socket)

/-- The item with other requested events. -/
def PollItem.withEvents (item : PollItem) (events : Nat) : PollItem :=
  { item with events := events }

/-- The item with other returned events. -/
def PollItem.withRevents (item : PollItem) (revents : Nat) : PollItem :=
  { item with revents := revents }

@[simp] theorem PollItem.key_withEvents (item : PollItem) (events : Nat) :
    (item.withEvents events).key = item.key := rfl

@[simp] theorem PollItem.key_withRevents (item : PollItem) (revents : Nat) :
    (item.withRevents revents).key = item.key := rfl

/-- The item is ready for reading or writing. -/
def PollItem.ready (item : PollItem) : Bool :=
  item.revents &&& (ZMQ_POLLIN ||| ZMQ_POLLOUT) != 0

/-- The events a descriptor asks for. -/
def FileDesc.events (desc : FileDesc) : Nat :=
  (if desc.read then ZMQ_POLLIN else 0) ||| (if desc.write then ZMQ_POLLOUT else 0)

/-- The polling tables of the manager. -/
structure Polling where
  /-- Callbacks for read and write events. -/
  callback_ : List FileDesc
  /-- File descriptors or sockets registered. -/
  fd_ : List PollItem
  /-- The tables hold the same keys at the same positions. -/
  aligned : callback_.map FileDesc.key = fd_.map PollItem.key
  /-- No key is registered twice. -/
  distinct : (fd_.map PollItem.key).Nodup
  /-- Every entry has a block and something to poll. -/
  valid : ∀ desc ∈ callback_, desc.bk ≠ none ∧ (0 ≤ desc.fd ∨ desc.socket ≠ none)

/-- Rewriting one element leaves alone what the rewriting does not change. -/
theorem map_modify_eq {α β : Type*} {f : α → α} {g : α → β} (keeps : ∀ a, g (f a) = g a)
    (list : List α) (index : Nat) : (list.modify index f).map g = list.map g := by
  induction list generalizing index with
  | nil => simp
  | cons head tail ih => cases index <;> simp [keeps, ih]

namespace Polling

@[ext] theorem ext {left right : Polling} (callbacks : left.callback_ = right.callback_)
    (items : left.fd_ = right.fd_) : left = right := by
  cases left
  cases right
  congr

/-- The tables of a new manager. -/
def empty : Polling := ⟨[], [], rfl, .nil, by simp⟩

/-- The registered keys, in table order. -/
def keys (polling : Polling) : List PollKey := polling.fd_.map PollItem.key

theorem length_callback (polling : Polling) :
    polling.callback_.length = polling.fd_.length := by
  simpa using congrArg List.length polling.aligned

theorem callback_key {polling : Polling} {position : Nat} {desc : FileDesc} {item : PollItem}
    (callback : polling.callback_[position]? = some desc)
    (polled : polling.fd_[position]? = some item) : desc.key = item.key := by
  have keys := congrArg (fun keys => keys[position]?) polling.aligned
  simpa [callback, polled] using keys

/-- Every item has its callback at the same position. -/
theorem exists_callback {polling : Polling} {position : Nat} {item : PollItem}
    (polled : polling.fd_[position]? = some item) :
    ∃ desc, polling.callback_[position]? = some desc ∧ desc.key = item.key := by
  obtain ⟨bound, -⟩ := List.getElem?_eq_some_iff.mp polled
  have callback := List.getElem?_eq_getElem (polling.length_callback ▸ bound :
    position < polling.callback_.length)
  exact ⟨_, callback, callback_key callback polled⟩

/-- `manager::fd_find`; `none` is -1. -/
def fdFind (polling : Polling) (key : PollKey) : Option Nat :=
  polling.fd_.findIdx? fun item => item.key = key

theorem fdFind_eq_none {polling : Polling} {key : PollKey} :
    polling.fdFind key = none ↔ key ∉ polling.keys := by
  simp [fdFind, keys]

/-- The position of a known key. -/
theorem fdFind_some {polling : Polling} {key : PollKey} {index : Nat}
    (found : polling.fdFind key = some index) :
    ∃ item, polling.fd_[index]? = some item ∧ item.key = key := by
  obtain ⟨bound, same, -⟩ := List.findIdx?_eq_some_iff_getElem.mp found
  exact ⟨_, List.getElem?_eq_getElem bound, by simpa using same⟩

/-- Store a new entry at the end of both tables. -/
def push (polling : Polling) (desc : FileDesc) (uninit : Nat)
    (checked : desc.bk ≠ none ∧ (0 ≤ desc.fd ∨ desc.socket ≠ none))
    (new : polling.fdFind desc.key = none) : Polling where
  callback_ := polling.callback_ ++ [desc]
  fd_ := polling.fd_ ++ [⟨desc.fd, desc.socket, 0, uninit⟩]
  aligned := by simp [polling.aligned, FileDesc.key, PollItem.key]
  distinct := by
    have absent : desc.key ∉ polling.fd_.map PollItem.key := fdFind_eq_none.mp new
    rw [List.map_append]
    refine List.Nodup.append polling.distinct (List.nodup_singleton _) ?_
    intro key member last
    obtain rfl := List.mem_singleton.mp last
    exact absent member
  valid := by
    intro other member
    rcases List.mem_append.mp member with member | member
    · exact polling.valid other member
    · obtain rfl := List.mem_singleton.mp member
      exact checked

/-- Reset the requested events of the entry at an index. -/
def setEvents (polling : Polling) (index events : Nat) : Polling where
  callback_ := polling.callback_
  fd_ := polling.fd_.modify index fun item => item.withEvents events
  aligned := by
    rw [map_modify_eq fun item => item.key_withEvents events]
    exact polling.aligned
  distinct := by
    rw [map_modify_eq fun item => item.key_withEvents events]
    exact polling.distinct
  valid := polling.valid

/-- Drop the entry at an index from both tables. -/
def eraseAt (polling : Polling) (index : Nat) : Polling where
  callback_ := polling.callback_.eraseIdx index
  fd_ := polling.fd_.eraseIdx index
  aligned := by rw [← List.eraseIdx_map, ← List.eraseIdx_map, polling.aligned]
  distinct := by
    rw [← List.eraseIdx_map]
    exact polling.distinct.sublist (List.eraseIdx_sublist _ _)
  valid := fun desc member => polling.valid desc ((List.eraseIdx_sublist _ _).mem member)

/-- What `zmq_poll` writes: the returned events of every item. -/
def setRevents (polling : Polling) (revents : PollKey → Nat) : Polling where
  callback_ := polling.callback_
  fd_ := polling.fd_.map fun item => item.withRevents (revents item.key)
  aligned := by simpa [Function.comp_def] using polling.aligned
  distinct := by simpa [Function.comp_def] using polling.distinct
  valid := polling.valid

/-- `manager::fd_add`: add an entry to the polling set. A new item starts with whatever `uninit`
the returned events are initialised to, since `fd_add` leaves them as it finds them. -/
def fdAdd (polling : Polling) (uninit : Nat) (desc : FileDesc) : Bool × Polling :=
  if checked : desc.bk ≠ none ∧ (0 ≤ desc.fd ∨ desc.socket ≠ none) then
    match found : polling.fdFind desc.key with
    | some index => (true, polling.setEvents index desc.events)
    | none =>
        let stored := polling.push desc uninit checked found
        (true, stored.setEvents (stored.fd_.length - 1) desc.events)
  else
    (false, polling)

/-- The entry of a key that is known gets other requested events. -/
theorem fdAdd_known {polling : Polling} {desc : FileDesc} {index : Nat} (uninit : Nat)
    (checked : desc.bk ≠ none ∧ (0 ≤ desc.fd ∨ desc.socket ≠ none))
    (known : polling.fdFind desc.key = some index) :
    polling.fdAdd uninit desc = (true, polling.setEvents index desc.events) := by
  unfold fdAdd
  rw [dif_pos checked]
  split
  · rename_i found
    rw [Option.some.inj (known.symm.trans found)]
  · rename_i missing
    rw [known] at missing
    cases missing

/-- An entry of a new key is stored at the end. -/
theorem fdAdd_unknown {polling : Polling} {desc : FileDesc} (uninit : Nat)
    (checked : desc.bk ≠ none ∧ (0 ≤ desc.fd ∨ desc.socket ≠ none))
    (new : polling.fdFind desc.key = none) :
    polling.fdAdd uninit desc =
      (true, (polling.push desc uninit checked new).setEvents polling.fd_.length desc.events) := by
  unfold fdAdd
  rw [dif_pos checked]
  split
  · rename_i index found
    rw [new] at found
    cases found
  · have last : (polling.push desc uninit checked new).fd_.length - 1 = polling.fd_.length := by
      simp [push]
    simp only [last]

theorem fdAdd_refused {polling : Polling} {desc : FileDesc} (uninit : Nat)
    (unchecked : ¬ (desc.bk ≠ none ∧ (0 ≤ desc.fd ∨ desc.socket ≠ none))) :
    polling.fdAdd uninit desc = (false, polling) := dif_neg unchecked

/-- `manager::fd_remove`: remove an entry. -/
def fdRemove (polling : Polling) (desc : FileDesc) : Polling :=
  match polling.fdFind desc.key with
  | some index => polling.eraseAt index
  | none => polling

end Polling

/-- A call of the polling API that a callback makes. -/
inductive FdCall
  /-- `fd_add`. -/
  | fdAdd (desc : FileDesc)
  /-- `fd_remove`. -/
  | fdRemove (desc : FileDesc)
  deriving DecidableEq

/-- What can be observed of a pass of `fd_poll`. -/
inductive PollEvent
  /-- `on_fd_` was called with a descriptor. -/
  | dispatch (desc : FileDesc)
  /-- The entry with a key was removed. -/
  | remove (key : PollKey)
  /-- A position outside the tables was read. -/
  | outside (position : Nat)
  deriving DecidableEq

/-- Make the calls of one callback; the memory of each new item is an input. -/
def performFdCalls : (uninit : Nat → Nat) → List FdCall → Polling → List PollEvent × Polling
  | _, [], polling => ([], polling)
  | uninit, .fdAdd desc :: calls, polling =>
      performFdCalls (fun index => uninit (index + 1)) calls (polling.fdAdd (uninit 0) desc).2
  | uninit, .fdRemove desc :: calls, polling =>
      let (events, final) :=
        performFdCalls (fun index => uninit (index + 1)) calls (polling.fdRemove desc)
      (if desc.key ∈ polling.keys then .remove desc.key :: events else events, final)

/-- The loop of `fd_poll`, with the number of positions left, the position and the count of ready
entries so far. `onFd` gives the calls that the callback at a position makes. Reading outside the
tables ends the model's loop: the program has no defined behaviour from there. -/
def fdPollLoop (onFd : Nat → FileDesc → List FdCall) (uninit : Nat → Nat → Nat) (ret : Nat) :
    Nat → Nat → Nat → Polling → List PollEvent × Polling
  | 0, _, _, polling => ([], polling)
  | left + 1, position, count, polling =>
      match polling.fd_[position]?, polling.callback_[position]? with
      | some item, some desc =>
          if item.ready then
            let (events, polling) := performFdCalls (uninit position) (onFd position desc) polling
            if count + 1 = ret then
              (.dispatch desc :: events, polling)
            else
              let (later, polling) :=
                fdPollLoop onFd uninit ret left (position + 1) (count + 1) polling
              (.dispatch desc :: (events ++ later), polling)
          else if count = ret then
            ([], polling)
          else
            fdPollLoop onFd uninit ret left (position + 1) count polling
      | _, _ => ([.outside position], polling)

/-- `manager::fd_poll`. The result of `zmq_poll` is a failure, or the returned events of each
entry; it counts the entries whose returned events are not zero. -/
def fdPoll (polled : Option (PollKey → Nat)) (onFd : Nat → FileDesc → List FdCall)
    (uninit : Nat → Nat → Nat) (polling : Polling) : Int × List PollEvent × Polling :=
  match polled with
  | none => (-1, [], polling)
  | some revents =>
      let polling := polling.setRevents revents
      let ret := polling.fd_.countP fun item => item.revents != 0
      if ret = 0 then
        (0, [], polling)
      else
        (ret, fdPollLoop onFd uninit ret polling.fd_.length 0 0 polling)

end C3qo
