import C3qo.Dispatch

/-!
# The polling tables as two vectors

`fd_find`, `fd_add` and `fd_remove` on the two vectors that the manager declares, with the index
that one of them finds and the others use on both. Nothing ties the vectors together but the calls
made so far. Whatever these are, they keep the vectors in step: the calls on the vectors are those
on the polling set, which carries the invariant.
-/

namespace C3qo

/-- `callback_` and `fd_`. -/
structure PollTables where
  /-- Callbacks for read and write events. -/
  callback_ : List FileDesc
  /-- File descriptors or sockets registered. -/
  fd_ : List PollItem
  deriving DecidableEq

namespace PollTables

/-- The vectors of a new manager. -/
def empty : PollTables := ⟨[], []⟩

/-- The loop of `manager::fd_find`, from the entry at an index on. -/
def fdFindLoop (fd : Int) (socket : Pointer) : Nat → List PollItem → Int
  | _, [] => -1
  | index, entry :: entries =>
      if entry.fd = fd ∧ entry.socket = socket then
        index
      else
        fdFindLoop fd socket (index + 1) entries

/-- `manager::fd_find`. -/
def fdFind (tables : PollTables) (fd : Int) (socket : Pointer) : Int :=
  fdFindLoop fd socket 0 tables.fd_

/-- `manager::fd_add`. A new item starts with whatever returned events its memory holds. -/
def fdAdd (tables : PollTables) (uninit : Nat) (fd : FileDesc) : Bool × PollTables :=
  if fd.bk = none then
    (false, tables)
  else if fd.fd < 0 ∧ fd.socket = none then
    (false, tables)
  else
    let index := tables.fdFind fd.fd fd.socket
    let (index, tables) :=
      if index = -1 then
        let stored : PollTables :=
          ⟨tables.callback_ ++ [fd], tables.fd_ ++ [⟨fd.fd, fd.socket, 0, uninit⟩]⟩
        ((stored.fd_.length : Int) - 1, stored)
      else
        (index, tables)
    (true, { tables with
      fd_ := tables.fd_.modify index.toNat fun item => item.withEvents fd.events })

/-- `manager::fd_remove`. -/
def fdRemove (tables : PollTables) (fd : FileDesc) : PollTables :=
  let index := tables.fdFind fd.fd fd.socket
  if index = -1 then
    tables
  else
    ⟨tables.callback_.eraseIdx index.toNat, tables.fd_.eraseIdx index.toNat⟩

/-- Make some calls; the memory of each new item is an input. -/
def performAll : (uninit : Nat → Nat) → List FdCall → PollTables → PollTables
  | _, [], tables => tables
  | uninit, .fdAdd fd :: calls, tables =>
      performAll (fun index => uninit (index + 1)) calls (tables.fdAdd (uninit 0) fd).2
  | uninit, .fdRemove fd :: calls, tables =>
      performAll (fun index => uninit (index + 1)) calls (tables.fdRemove fd)

/-- The vectors are in step. -/
structure Parallel (tables : PollTables) : Prop where
  /-- They have the same length. -/
  length_eq : tables.callback_.length = tables.fd_.length
  /-- At every index they agree on file descriptor and socket. -/
  agree : ∀ (index : Nat) (desc : FileDesc) (item : PollItem),
    tables.callback_[index]? = some desc → tables.fd_[index]? = some item →
      desc.fd = item.fd ∧ desc.socket = item.socket
  /-- No two entries have the same file descriptor and socket. -/
  distinct : ∀ (index index' : Nat) (item item' : PollItem), tables.fd_[index]? = some item →
    tables.fd_[index']? = some item' → item.fd = item'.fd → item.socket = item'.socket →
      index = index'
  /-- Every entry has a block and something to poll. -/
  valid : ∀ desc ∈ tables.callback_, desc.bk ≠ none ∧ (0 ≤ desc.fd ∨ desc.socket ≠ none)

/-- `fd_remove` drops exactly the entry of its key, and all others stay in their order. -/
def DropsKey (tables : PollTables) (fd : FileDesc) : Prop :=
  (tables.fdRemove fd).callback_ =
      tables.callback_.filter (fun other => ¬(other.fd = fd.fd ∧ other.socket = fd.socket)) ∧
    (tables.fdRemove fd).fd_ =
      tables.fd_.filter fun item => ¬(item.fd = fd.fd ∧ item.socket = fd.socket)

end PollTables

namespace Polling

/-- The vectors of a polling set. -/
def tables (polling : Polling) : PollTables := ⟨polling.callback_, polling.fd_⟩

end Polling

theorem PollItem.key_eq_iff {item : PollItem} {key : PollKey} :
    item.key = key ↔ item.fd = key.1 ∧ item.socket = key.2 := Prod.ext_iff

theorem FileDesc.key_eq_iff {desc : FileDesc} {key : PollKey} :
    desc.key = key ↔ desc.fd = key.1 ∧ desc.socket = key.2 := Prod.ext_iff

namespace PollTables

/-- The loop returns the first index with the key, or -1. -/
theorem fdFindLoop_eq (key : PollKey) (index : Nat) (entries : List PollItem) :
    fdFindLoop key.1 key.2 index entries =
      match entries.findIdx? fun item => item.key = key with
      | some found => ((index + found : Nat) : Int)
      | none => -1 := by
  induction entries generalizing index with
  | nil => rfl
  | cons entry entries ih =>
      rw [fdFindLoop, List.findIdx?_cons]
      simp only [PollItem.key_eq_iff, decide_eq_true_eq]
      split_ifs with same
      · rfl
      · rw [ih]
        simp only [PollItem.key_eq_iff]
        cases entries.findIdx? fun item => item.fd = key.1 ∧ item.socket = key.2 with
        | none => rfl
        | some found =>
            have next : index + 1 + found = index + (found + 1) := by omega
            exact congrArg Nat.cast next

theorem fdFind_tables (polling : Polling) (desc : FileDesc) :
    polling.tables.fdFind desc.fd desc.socket =
      match polling.fdFind desc.key with
      | some found => (found : Int)
      | none => -1 := by
  have loop := fdFindLoop_eq desc.key 0 polling.fd_
  simp only [Nat.zero_add] at loop
  exact loop

/-- Adding a descriptor to the vectors adds it to the set. -/
theorem fdAdd_tables (polling : Polling) (uninit : Nat) (desc : FileDesc) :
    polling.tables.fdAdd uninit desc =
      ((polling.fdAdd uninit desc).1, (polling.fdAdd uninit desc).2.tables) := by
  by_cases null : desc.bk = none
  · rw [Polling.fdAdd_refused uninit fun checked => checked.1 null]
    exact if_pos null
  · by_cases nothing : desc.fd < 0 ∧ desc.socket = none
    · have unchecked : ¬ (desc.bk ≠ none ∧ (0 ≤ desc.fd ∨ desc.socket ≠ none)) := by
        rintro ⟨-, open_ | open_⟩
        · omega
        · exact open_ nothing.2
      rw [Polling.fdAdd_refused uninit unchecked, fdAdd, if_neg null, if_pos nothing]
    · have checked : desc.bk ≠ none ∧ (0 ≤ desc.fd ∨ desc.socket ≠ none) := by
        refine ⟨null, ?_⟩
        by_contra neither
        obtain ⟨negative, no_socket⟩ := not_or.mp neither
        exact nothing ⟨by omega, not_not.mp no_socket⟩
      rw [fdAdd, if_neg null, if_neg nothing, fdFind_tables]
      cases found : polling.fdFind desc.key with
      | some index =>
          have inside : (index : Int) ≠ -1 := by omega
          rw [Polling.fdAdd_known uninit checked found]
          simp only [if_neg inside, Int.toNat_natCast]
          rfl
      | none =>
          rw [Polling.fdAdd_unknown uninit checked found]
          simp only [if_pos, List.length_append, List.length_singleton]
          have last : (((polling.tables.fd_.length + 1 : Nat) : Int) - 1).toNat =
              polling.tables.fd_.length := by omega
          rw [last]
          rfl

theorem fdRemove_tables (polling : Polling) (desc : FileDesc) :
    polling.tables.fdRemove desc = (polling.fdRemove desc).tables := by
  unfold fdRemove Polling.fdRemove
  rw [fdFind_tables]
  cases found : polling.fdFind desc.key with
  | none => rfl
  | some index =>
      have inside : (index : Int) ≠ -1 := by omega
      simp only [if_neg inside, Int.toNat_natCast]
      rfl

/-- Calls on the vectors of a set are calls on the set. -/
theorem performAll_tables (uninit : Nat → Nat) (calls : List FdCall) (polling : Polling) :
    performAll uninit calls polling.tables = (performFdCalls uninit calls polling).2.tables := by
  induction calls generalizing uninit polling with
  | nil => rfl
  | cons call calls ih =>
      cases call with
      | fdAdd desc =>
          rw [performAll, fdAdd_tables]
          exact ih _ _
      | fdRemove desc =>
          rw [performAll, fdRemove_tables]
          exact ih _ _

/-- The vectors of a set are in step. -/
theorem parallel_tables (polling : Polling) : Parallel polling.tables where
  length_eq := polling.length_callback
  agree _ _ _ callback polled :=
    FileDesc.key_eq_iff.mp (Polling.callback_key callback polled)
  distinct _ _ _ _ there there' same_fd same_socket :=
    Polling.position_unique there there' (Prod.ext same_fd same_socket)
  valid := polling.valid

theorem dropsKey_tables (polling : Polling) (desc : FileDesc) :
    polling.tables.DropsKey desc := by
  obtain ⟨callbacks, items⟩ := polling.fdRemove_eq_filter desc
  unfold DropsKey
  rw [fdRemove_tables]
  simp only [Polling.tables, callbacks, items, ne_eq, FileDesc.key_eq_iff, PollItem.key_eq_iff]
  exact ⟨rfl, rfl⟩

/-- After any calls the vectors are in step, and a removal drops the entry of its key from both. -/
theorem parallel_performAll (uninit : Nat → Nat) (calls : List FdCall) :
    Parallel (performAll uninit calls .empty) ∧
      ∀ fd, DropsKey (performAll uninit calls .empty) fd := by
  have reached : performAll uninit calls .empty =
      (performFdCalls uninit calls .empty).2.tables := performAll_tables uninit calls .empty
  rw [reached]
  exact ⟨parallel_tables _, dropsKey_tables _⟩

end PollTables

end C3qo
