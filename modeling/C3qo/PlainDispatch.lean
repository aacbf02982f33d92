import C3qo.Dispatch

/-!
# Dispatch while the polling set stays as it is

`zmq_poll` counts errors too, so its result is only an upper bound for what the loop of `fd_poll`
counts, and the loop may end before its last position. When the callbacks leave the polling set
alone, the positions of the two tables stay in step, and nothing is ready behind the position
where the count is complete.
-/

namespace C3qo

/-- The callbacks leave the polling set as they find it. -/
def LeavesSet (polling : Polling) (onFd : Nat → FileDesc → List FdCall)
    (uninit : Nat → Nat → Nat) : Prop :=
  ∀ position desc, polling.callback_[position]? = some desc →
    (performFdCalls (uninit position) (onFd position desc) polling).2 = polling

/-- What the loop of `fd_poll` did from a position on. -/
structure Scanned (polling : Polling) (revents : PollKey → Nat) (position : Nat)
    (result : List PollEvent × Polling) : Prop where
  /-- No position outside the tables was read. -/
  inside : ∀ outside, .outside outside ∉ result.1
  /-- The ready entries from the position on were dispatched, in table order. -/
  dispatches : dispatched result.1 = (polling.callback_.drop position).filter (readyDesc revents)
  /-- The polling set is what it was. -/
  unchanged : result.2 = polling

section Scan

variable {polling : Polling} {revents : PollKey → Nat} {position : Nat}

/-- Nothing is ready any more. -/
theorem Scanned.nil
    (none_left : (polling.callback_.drop position).filter (readyDesc revents) = []) :
    Scanned polling revents position ([], polling) :=
  ⟨by simp, none_left.symm, rfl⟩

/-- An entry that is not ready is walked past. -/
theorem Scanned.skip {desc : FileDesc} {result : List PollEvent × Polling}
    (rest : polling.callback_.drop position = desc :: polling.callback_.drop (position + 1))
    (idle : readyDesc revents desc ≠ true) (later : Scanned polling revents (position + 1) result) :
    Scanned polling revents position result :=
  ⟨later.inside, by rw [later.dispatches, rest, List.filter_cons_of_neg idle], later.unchanged⟩

/-- A ready entry is dispatched before what comes after it. -/
theorem Scanned.dispatch {desc : FileDesc} {removals later : List PollEvent} {final : Polling}
    (rest : polling.callback_.drop position = desc :: polling.callback_.drop (position + 1))
    (ready : readyDesc revents desc = true)
    (removal : ∀ event ∈ removals, ∃ removed : FileDesc, event = .remove removed.key)
    (scanned : Scanned polling revents (position + 1) (later, final)) :
    Scanned polling revents position (.dispatch desc :: (removals ++ later), final) := by
  constructor
  · exact inside_callback removal scanned.inside
  · rw [dispatched_callback removal, scanned.dispatches, rest, List.filter_cons_of_pos ready]
  · exact scanned.unchanged

end Scan

/-- While the callbacks leave the set alone, the loop dispatches exactly the ready entries from its
position on: the entries counted so far are the ready ones before the position, and when their
number is complete none is left. -/
theorem fdPollLoop_of_leavesSet {polling : Polling} {revents : PollKey → Nat}
    {onFd : Nat → FileDesc → List FdCall} {uninit : Nat → Nat → Nat} {ret : Nat}
    (remains : Remains revents polling.callback_ polling)
    (leaves : LeavesSet polling onFd uninit)
    (enough : polling.callback_.countP (readyDesc revents) ≤ ret) (left position count : Nat)
    (range : position + left = polling.callback_.length)
    (counted : count = (polling.callback_.take position).countP (readyDesc revents))
    (open_ : count ≠ ret) :
    Scanned polling revents position
      (fdPollLoop onFd uninit ret left position count polling) := by
  induction left generalizing position count with
  | zero =>
      have done : polling.callback_.drop position = [] := List.drop_eq_nil_of_le (by omega)
      exact .nil (by simp [done])
  | succ left ih =>
      have bound : position < polling.callback_.length := by omega
      let desc := polling.callback_.get ⟨position, bound⟩
      have polled : polling.callback_[position]? = some desc := List.getElem?_eq_getElem bound
      obtain ⟨item, item_there, there, ready_eq⟩ := remains.at_position polled
      have rest : polling.callback_.drop position = desc :: polling.callback_.drop (position + 1) :=
        List.drop_eq_getElem_cons bound
      have taken :
          polling.callback_.take (position + 1) = polling.callback_.take position ++ [desc] :=
        List.take_succ_eq_append_getElem bound
      have same := leaves position desc there
      simp only [fdPollLoop, item_there, there, ready_eq]
      by_cases ready : readyDesc revents desc = true
      · have count_next :
            count + 1 = (polling.callback_.take (position + 1)).countP (readyDesc revents) := by
          rw [taken, List.countP_append, ← counted]
          simp [ready]
        rw [if_pos ready]
        by_cases full : count + 1 = ret
        · have counted_all := filter_drop_eq_nil enough (count_next.symm.trans full)
          have ended : Scanned polling revents (position + 1)
              ([], (performFdCalls (uninit position) (onFd position desc) polling).2) := by
            rw [same]
            exact .nil counted_all
          rw [if_pos full, ← List.append_nil (performFdCalls _ _ _).1]
          exact .dispatch rest ready removal_of_callback ended
        · rw [if_neg full]
          exact .dispatch rest ready removal_of_callback
            (same.symm ▸ ih (position + 1) (count + 1) (by omega) count_next full)
      · rw [if_neg ready, if_neg open_]
        exact .skip rest ready
          (ih (position + 1) count (by omega)
            (by rw [taken, List.countP_append, ← counted]; simp [ready]) open_)

/-- A pass whose callbacks leave the set alone dispatches exactly the ready entries, in order. -/
theorem fdPoll_of_leavesSet {polling : Polling} {revents : PollKey → Nat}
    {onFd : Nat → FileDesc → List FdCall} {uninit : Nat → Nat → Nat}
    (leaves : LeavesSet (polling.setRevents revents) onFd uninit) :
    (fdPoll (some revents) onFd uninit polling).1 = polling.returned revents ∧
      Scanned (polling.setRevents revents) revents 0
        (fdPoll (some revents) onFd uninit polling).2 := by
  have enough := polling.countP_readyDesc_le revents
  by_cases idle : polling.returned revents = 0
  · have none_ready : (polling.callback_.drop 0).filter (readyDesc revents) = [] :=
      List.filter_eq_nil_iff.mpr (List.countP_eq_zero.mp (by rw [List.drop_zero]; omega))
    rw [fdPoll_of_idle onFd uninit idle, idle]
    exact ⟨rfl, .nil none_ready⟩
  · rw [fdPoll_of_returned onFd uninit idle]
    exact ⟨rfl, fdPollLoop_of_leavesSet (remains_setRevents polling revents) leaves enough
      polling.callback_.length 0 0 (Nat.zero_add _) (by simp) (Ne.symm idle)⟩

/-- A pass dispatched exactly what was ready. -/
structure DispatchedExactly (polling : Polling) (revents : PollKey → Nat)
    (pass : Int × List PollEvent × Polling) : Prop where
  /-- The number returned counts all entries with returned events, errors included. -/
  returned : pass.1 = ((polling.setRevents revents).fd_.countP fun item => item.revents != 0 : Nat)
  /-- No position outside the tables was read. -/
  inside : ∀ position, .outside position ∉ pass.2.1
  /-- The entries with an in or out event were dispatched, in table order. -/
  order : (dispatched pass.2.1).map FileDesc.key =
    ((polling.setRevents revents).fd_.filter PollItem.ready).map PollItem.key
  /-- They were dispatched with the descriptors registered for their keys. -/
  registered : ∀ desc ∈ dispatched pass.2.1, desc ∈ polling.callback_
  /-- Every registered descriptor was dispatched once if its entry was ready, else not at all. -/
  once : ∀ desc ∈ polling.callback_,
    pass.2.1.count (.dispatch desc) = if readyDesc revents desc then 1 else 0
  /-- The polling set is what `zmq_poll` left. -/
  unchanged : pass.2.2 = polling.setRevents revents

namespace Polling

/-- The keys of the ready items are those of the ready descriptors. -/
theorem keys_ready (polling : Polling) (revents : PollKey → Nat) :
    ((polling.setRevents revents).fd_.filter PollItem.ready).map PollItem.key =
      (polling.callback_.filter (readyDesc revents)).map FileDesc.key := by
  have items : (polling.setRevents revents).fd_.filter PollItem.ready =
      (polling.setRevents revents).fd_.filter fun item => readyEvents (revents item.key) := by
    refine List.filter_congr fun item member => ?_
    have polled := polling.polled_setRevents revents item.stamp (List.mem_map_of_mem member)
    rw [item.ready_eq, polled]
    rfl
  have by_key : ∀ {α : Type} (key : α → PollKey) (list : List α),
      (list.filter fun element => readyEvents (revents (key element))).map key =
        (list.map key).filter fun key => readyEvents (revents key) :=
    fun key list => by rw [List.filter_map]; rfl
  rw [items, by_key PollItem.key]
  have aligned := (polling.setRevents revents).aligned
  rw [← aligned]
  exact (by_key FileDesc.key polling.callback_).symm

end Polling

/-- When the callbacks leave the polling set alone, a pass of `fd_poll` is complete and exact. -/
theorem fdPoll_exact (polling : Polling) (revents : PollKey → Nat)
    (onFd : Nat → FileDesc → List FdCall) (uninit : Nat → Nat → Nat)
    (leaves : LeavesSet (polling.setRevents revents) onFd uninit) :
    DispatchedExactly polling revents (fdPoll (some revents) onFd uninit polling) := by
  obtain ⟨returned, inside, dispatches, unchanged⟩ := fdPoll_of_leavesSet leaves
  rw [List.drop_zero] at dispatches
  have distinct := polling.callback_nodup.filter (readyDesc revents)
  refine ⟨returned, inside, ?_, fun desc member => ?_, fun desc member => ?_, unchanged⟩
  · rw [dispatches, polling.keys_ready]
    rfl
  · rw [dispatches] at member
    exact List.mem_of_mem_filter member
  · rw [count_dispatched, dispatches]
    split_ifs with ready
    · exact List.count_eq_one_of_mem distinct (List.mem_filter.mpr ⟨member, ready⟩)
    · exact List.count_eq_zero.mpr fun there => ready (List.of_mem_filter there)

/-- Three sockets, the first with an error only: the other two are dispatched. -/
theorem fdPoll_exact_error :
    let desc := fun hook : BlockRef => (⟨some hook, -1, some hook, true, false⟩ : FileDesc)
    let polling := (((Polling.empty.fdAdd 0 (desc 0)).2.fdAdd 0 (desc 1)).2.fdAdd 0 (desc 2)).2
    let revents := fun key : PollKey => if key.2 = some 0 then 4 else ZMQ_POLLIN
    LeavesSet (polling.setRevents revents) (fun _ _ => []) (fun _ _ => 0) ∧
      DispatchedExactly polling revents
        (fdPoll (some revents) (fun _ _ => []) (fun _ _ => 0) polling) :=
  ⟨fun _ _ _ => rfl, fdPoll_exact _ _ _ _ fun _ _ _ => rfl⟩

end C3qo
