import C3qo.Polling
import Mathlib.Data.List.Perm.Subperm

/-!
# Dispatch while the polling set changes

A pass of `fd_poll` walks positions that its own callbacks can shift. Entries added in a pass come
after the polled ones and are not reached. Removing a polled entry leaves fewer polled entries
than positions to visit, so that some readiness result takes the walk outside the tables or to an
entry that was not polled. A pass is therefore right for every readiness result exactly if the
callbacks of all entries but the last remove no polled entry.
-/

namespace C3qo

/-- The key and the returned events of an item, which calls of the polling API never change. -/
def PollItem.stamp (item : PollItem) : PollKey × Nat := (item.key, item.revents)

/-- Returned events that make an item ready. -/
def readyEvents (revents : Nat) : Bool := revents &&& (ZMQ_POLLIN ||| ZMQ_POLLOUT) != 0

theorem PollItem.ready_eq (item : PollItem) : item.ready = readyEvents item.stamp.2 := rfl

@[simp] theorem PollItem.stamp_withEvents (item : PollItem) (events : Nat) :
    (item.withEvents events).stamp = item.stamp := rfl

/-- Erasing the only element with a key is filtering the key out. -/
theorem eraseIdx_eq_filter {α β : Type*} [DecidableEq β] {g : α → β} {list : List α} {key : β}
    {index : Nat} (distinct : (list.map g).Nodup) (there : (list.map g)[index]? = some key) :
    list.eraseIdx index = list.filter fun element => g element ≠ key := by
  induction list generalizing index with
  | nil => simp at there
  | cons head tail ih =>
      obtain ⟨head_new, tail_distinct⟩ := List.nodup_cons.mp distinct
      cases index with
      | zero =>
          obtain rfl : g head = key := by simpa using there
          have kept : tail.filter (fun element => decide (g element ≠ g head)) = tail := by
            refine List.filter_eq_self.mpr fun element member => ?_
            simpa using fun same : g element = g head =>
              head_new (same ▸ List.mem_map_of_mem (f := g) member)
          rw [List.filter_cons_of_neg (by simp), kept]
          rfl
      | succ index =>
          have there_tail : (tail.map g)[index]? = some key := by simpa using there
          have other : g head ≠ key := fun same =>
            head_new (same ▸ List.mem_of_getElem? there_tail)
          simp [other, ih tail_distinct there_tail]

namespace Polling

/-- The stamps of the items, in table order. -/
def stamps (polling : Polling) : List (PollKey × Nat) := polling.fd_.map PollItem.stamp

theorem map_fst_stamps (polling : Polling) : polling.stamps.map Prod.fst = polling.keys := by
  simp [stamps, keys, PollItem.stamp, Function.comp_def]

theorem keys_eq_callback (polling : Polling) :
    polling.keys = polling.callback_.map FileDesc.key := polling.aligned.symm

theorem keys_nodup (polling : Polling) : polling.keys.Nodup := polling.distinct

theorem callback_nodup (polling : Polling) : polling.callback_.Nodup :=
  (polling.keys_eq_callback ▸ polling.keys_nodup).of_map

/-- Adding a descriptor leaves callbacks and stamps alone, or stores both at the end. -/
theorem fdAdd_cases (polling : Polling) (uninit : Nat) (desc : FileDesc) :
    ((polling.fdAdd uninit desc).2.callback_ = polling.callback_ ∧
      (polling.fdAdd uninit desc).2.stamps = polling.stamps) ∨
    (desc.key ∉ polling.keys ∧
      (polling.fdAdd uninit desc).2.callback_ = polling.callback_ ++ [desc] ∧
      (polling.fdAdd uninit desc).2.stamps = polling.stamps ++ [(desc.key, uninit)]) := by
  by_cases checked : desc.bk ≠ none ∧ (0 ≤ desc.fd ∨ desc.socket ≠ none)
  · cases found : polling.fdFind desc.key with
    | some index =>
        rw [fdAdd_known uninit checked found]
        exact .inl ⟨rfl, map_modify_eq (fun item => item.stamp_withEvents _) _ _⟩
    | none =>
        rw [fdAdd_unknown uninit checked found]
        refine .inr ⟨fdFind_eq_none.mp found, rfl, ?_⟩
        have kept := map_modify_eq (g := PollItem.stamp)
          (fun item => item.stamp_withEvents desc.events)
          (polling.push desc uninit checked found).fd_ polling.fd_.length
        simpa [stamps, setEvents, push, PollItem.stamp, PollItem.key, FileDesc.key] using kept
  · rw [fdAdd_refused uninit checked]
    exact .inl ⟨rfl, rfl⟩

theorem fdAdd_new (polling : Polling) (uninit : Nat) {desc : FileDesc}
    (checked : desc.bk ≠ none ∧ (0 ≤ desc.fd ∨ desc.socket ≠ none))
    (new : desc.key ∉ polling.keys) :
    (polling.fdAdd uninit desc).2.callback_ = polling.callback_ ++ [desc] := by
  rw [fdAdd_unknown uninit checked (fdFind_eq_none.mpr new)]
  rfl

/-- Removing a descriptor drops exactly the entry of its key from both tables. -/
theorem fdRemove_eq_filter (polling : Polling) (desc : FileDesc) :
    (polling.fdRemove desc).callback_ =
        polling.callback_.filter (fun other => other.key ≠ desc.key) ∧
      (polling.fdRemove desc).fd_ = polling.fd_.filter fun item => item.key ≠ desc.key := by
  unfold fdRemove
  split
  · rename_i index found
    have there : (polling.fd_.map PollItem.key)[index]? = some desc.key := by
      obtain ⟨item, item_there, same⟩ := fdFind_some found
      simp [item_there, same]
    have there_callback : (polling.callback_.map FileDesc.key)[index]? = some desc.key := by
      rw [polling.aligned]
      exact there
    have distinct_callback : (polling.callback_.map FileDesc.key).Nodup := by
      rw [polling.aligned]
      exact polling.distinct
    exact ⟨eraseIdx_eq_filter distinct_callback there_callback,
      eraseIdx_eq_filter polling.distinct there⟩
  · rename_i missing
    have absent : desc.key ∉ polling.keys := fdFind_eq_none.mp missing
    refine ⟨(List.filter_eq_self.mpr fun other member => ?_).symm,
      (List.filter_eq_self.mpr fun item member => ?_).symm⟩
    · simpa using fun same : other.key = desc.key =>
        absent (polling.keys_eq_callback ▸ same ▸ List.mem_map_of_mem (f := FileDesc.key) member)
    · simpa using fun same : item.key = desc.key =>
        absent (same ▸ List.mem_map_of_mem (f := PollItem.key) member)

theorem fdRemove_stamps (polling : Polling) (desc : FileDesc) :
    (polling.fdRemove desc).stamps =
      polling.stamps.filter fun stamp => stamp.1 ≠ desc.key := by
  rw [stamps, (polling.fdRemove_eq_filter desc).2, stamps, List.filter_map]
  rfl

end Polling

/-- The descriptors that the events of a pass dispatch, in order. -/
def dispatched (events : List PollEvent) : List FileDesc :=
  events.filterMap fun
    | .dispatch desc => some desc
    | .remove _ => none
    | .outside _ => none

@[simp] theorem dispatched_nil : dispatched [] = [] := rfl

@[simp] theorem dispatched_cons_dispatch (desc : FileDesc) (events : List PollEvent) :
    dispatched (.dispatch desc :: events) = desc :: dispatched events := rfl

@[simp] theorem dispatched_append (left right : List PollEvent) :
    dispatched (left ++ right) = dispatched left ++ dispatched right :=
  List.filterMap_append ..

theorem mem_dispatched {desc : FileDesc} {events : List PollEvent} :
    desc ∈ dispatched events ↔ .dispatch desc ∈ events := by
  induction events with
  | nil => simp
  | cons event events ih => cases event <;> simp_all [dispatched]

theorem count_dispatched (desc : FileDesc) (events : List PollEvent) :
    events.count (.dispatch desc) = (dispatched events).count desc := by
  induction events with
  | nil => rfl
  | cons event events ih => cases event <;> simp_all [dispatched, List.count_cons]

/-- The events of the calls of one callback are removals. -/
theorem performFdCalls_events {uninit : Nat → Nat} {calls : List FdCall} {polling : Polling}
    {event : PollEvent} (member : event ∈ (performFdCalls uninit calls polling).1) :
    ∃ desc, .fdRemove desc ∈ calls ∧ event = .remove desc.key := by
  induction calls generalizing uninit polling with
  | nil => simp [performFdCalls] at member
  | cons call calls ih =>
      cases call with
      | fdAdd desc =>
          obtain ⟨removed, there, same⟩ := ih (by simpa [performFdCalls] using member)
          exact ⟨removed, List.mem_cons_of_mem _ there, same⟩
      | fdRemove desc =>
          simp only [performFdCalls] at member
          split_ifs at member with registered
          · rcases List.mem_cons.mp member with rfl | member
            · exact ⟨desc, List.mem_cons_self, rfl⟩
            · obtain ⟨removed, there, same⟩ := ih member
              exact ⟨removed, List.mem_cons_of_mem _ there, same⟩
          · obtain ⟨removed, there, same⟩ := ih member
            exact ⟨removed, List.mem_cons_of_mem _ there, same⟩

theorem dispatched_removals {events : List PollEvent}
    (removal : ∀ event ∈ events, ∃ desc : FileDesc, event = .remove desc.key) :
    dispatched events = [] := by
  refine List.eq_nil_iff_forall_not_mem.mpr fun desc member => ?_
  obtain ⟨removed, same⟩ := removal _ (mem_dispatched.mp member)
  cases same

/-- A callback that only removes entries has been dispatched before what comes later. -/
theorem dispatched_callback {desc : FileDesc} {removals : List PollEvent}
    (removal : ∀ event ∈ removals, ∃ removed : FileDesc, event = .remove removed.key)
    (later : List PollEvent) :
    dispatched (.dispatch desc :: (removals ++ later)) = desc :: dispatched later := by
  rw [dispatched_cons_dispatch, dispatched_append, dispatched_removals removal, List.nil_append]

/-- Neither the dispatch of a callback nor a removal reads outside the tables. -/
theorem inside_callback {desc : FileDesc} {removals later : List PollEvent}
    (removal : ∀ event ∈ removals, ∃ removed : FileDesc, event = .remove removed.key)
    (inside : ∀ position, .outside position ∉ later) (position : Nat) :
    .outside position ∉ .dispatch desc :: (removals ++ later) := by
  intro member
  rcases List.mem_cons.mp member with same | member
  · cases same
  · rcases List.mem_append.mp member with member | member
    · obtain ⟨_, same⟩ := removal _ member
      cases same
    · exact inside position member

/-- One pass over a polling set survived what its callbacks did to the set. -/
structure Survives (polling : Polling) (revents : PollKey → Nat) (events : List PollEvent) :
    Prop where
  /-- No position outside the tables was read. -/
  inside : ∀ position, .outside position ∉ events
  /-- An entry that was ready at poll time was dispatched exactly once with its own descriptor,
  unless it was removed before. -/
  complete : ∀ desc ∈ polling.callback_, readyEvents (revents desc.key) = true →
    events.count (.dispatch desc) = 1 ∨
      (events.count (.dispatch desc) = 0 ∧ .remove desc.key ∈ events)
  /-- Only entries that were ready at poll time were dispatched. -/
  polled : ∀ desc, .dispatch desc ∈ events →
    desc ∈ polling.callback_ ∧ readyEvents (revents desc.key) = true
  /-- No entry was dispatched after it had been removed. -/
  notRemoved : events.Pairwise fun earlier later =>
    ∀ desc, later = .dispatch desc → earlier ≠ .remove desc.key

/-! ## Passes whose callbacks leave the entries registered that are still to come -/

/-- A ready descriptor, by the events polled for its key. -/
def readyDesc (revents : PollKey → Nat) (desc : FileDesc) : Bool := readyEvents (revents desc.key)

/-- The key of a descriptor and the events polled for it. -/
def polledStamp (revents : PollKey → Nat) (desc : FileDesc) : PollKey × Nat :=
  (desc.key, revents desc.key)

/-- The tables still begin with these polled entries. -/
structure Remains (revents : PollKey → Nat) (kept : List FileDesc) (current : Polling) : Prop where
  /-- Their callbacks come first. -/
  callbacks : kept <+: current.callback_
  /-- Their items come first, with the events polled for them. -/
  stamps : kept.map (polledStamp revents) <+: current.stamps

/-- The calls do not remove the descriptor. -/
def spared (calls : List FdCall) (desc : FileDesc) : Bool :=
  calls.all fun
    | .fdAdd _ => true
    | .fdRemove removed => decide (desc.key ≠ removed.key)

theorem spared_iff {calls : List FdCall} {desc : FileDesc} :
    spared calls desc = true ↔ ∀ removed, .fdRemove removed ∈ calls → desc.key ≠ removed.key := by
  rw [spared, List.all_eq_true]
  constructor
  · intro all removed member
    exact of_decide_eq_true (all _ member)
  · intro all call member
    cases call with
    | fdAdd desc => rfl
    | fdRemove removed => exact decide_eq_true (all removed member)

/-- What a list begins with is found in the list. -/
theorem getElem?_of_prefix {α : Type*} {left right : List α} {index : Nat} {element : α}
    (begins : left <+: right) (there : left[index]? = some element) :
    right[index]? = some element := by
  obtain ⟨later, rfl⟩ := begins
  obtain ⟨bound, -⟩ := List.getElem?_eq_some_iff.mp there
  rw [List.getElem?_append_left bound, there]

namespace Remains

variable {revents : PollKey → Nat} {kept : List FileDesc} {current : Polling}

theorem fdAdd (remains : Remains revents kept current) (uninit : Nat) (desc : FileDesc) :
    Remains revents kept (current.fdAdd uninit desc).2 := by
  obtain ⟨callbacks, stamps⟩ := remains
  rcases current.fdAdd_cases uninit desc with ⟨same, same'⟩ | ⟨-, stored, stored'⟩
  · exact ⟨same ▸ callbacks, same' ▸ stamps⟩
  · exact ⟨stored ▸ callbacks.trans (List.prefix_append _ _),
      stored' ▸ stamps.trans (List.prefix_append _ _)⟩

theorem fdRemove (remains : Remains revents kept current) (desc : FileDesc) :
    Remains revents (kept.filter fun other => other.key ≠ desc.key) (current.fdRemove desc) := by
  obtain ⟨callbacks, stamps⟩ := remains
  refine ⟨?_, ?_⟩
  · rw [(current.fdRemove_eq_filter desc).1]
    exact callbacks.filter _
  · have filtered := stamps.filter fun stamp : PollKey × Nat => stamp.1 ≠ desc.key
    rw [current.fdRemove_stamps desc]
    rwa [List.filter_map] at filtered

/-- The entries that calls spare remain. -/
theorem performFdCalls (remains : Remains revents kept current) (calls : List FdCall)
    (uninit : Nat → Nat) :
    Remains revents (kept.filter (spared calls)) (C3qo.performFdCalls uninit calls current).2 := by
  induction calls generalizing kept current uninit with
  | nil =>
      have all : kept.filter (spared []) = kept := List.filter_eq_self.mpr fun _ _ => rfl
      rw [all]
      exact remains
  | cons call calls ih =>
      cases call with
      | fdAdd desc => exact ih (remains.fdAdd (uninit 0) desc) _
      | fdRemove desc =>
          have later := ih (remains.fdRemove desc) fun index => uninit (index + 1)
          rw [List.filter_filter] at later
          have both : (fun other => spared calls other && decide (other.key ≠ desc.key)) =
              spared (.fdRemove desc :: calls) := by
            funext other
            exact Bool.and_comm ..
          rw [both] at later
          exact later

/-- What the loop of `fd_poll` finds at a position that still holds a polled entry. -/
theorem at_position (remains : Remains revents kept current) {position : Nat} {desc : FileDesc}
    (there : kept[position]? = some desc) :
    ∃ item, current.fd_[position]? = some item ∧ current.callback_[position]? = some desc ∧
      item.ready = readyDesc revents desc := by
  have callback : current.callback_[position]? = some desc :=
    getElem?_of_prefix remains.callbacks there
  have stamp : current.stamps[position]? = some (polledStamp revents desc) :=
    getElem?_of_prefix remains.stamps (by rw [List.getElem?_map, there]; rfl)
  rw [Polling.stamps, List.getElem?_map] at stamp
  obtain ⟨item, polled, same⟩ := Option.map_eq_some_iff.mp stamp
  exact ⟨item, polled, callback, by rw [item.ready_eq, same]; rfl⟩

end Remains

/-- A dispatch, the removals of its callback and a later part that dispatches none of them. -/
theorem notRemoved_cons {desc : FileDesc} {removals later : List PollEvent}
    (removal : ∀ event ∈ removals, ∃ removed : FileDesc, event = .remove removed.key)
    (apart : ∀ key, .remove key ∈ removals → ∀ other ∈ dispatched later, other.key ≠ key)
    (sorted : later.Pairwise fun earlier later =>
      ∀ desc, later = .dispatch desc → earlier ≠ .remove desc.key) :
    (PollEvent.dispatch desc :: (removals ++ later)).Pairwise fun earlier later =>
      ∀ desc, later = .dispatch desc → earlier ≠ .remove desc.key := by
  refine List.pairwise_cons.mpr ⟨?_, List.pairwise_append.mpr ⟨?_, sorted, ?_⟩⟩
  · intro second _ other _ same
    cases same
  · refine List.pairwise_iff_forall_sublist.mpr ?_
    intro earlier second both other same
    obtain ⟨removed, rfl⟩ := removal second (both.mem (by simp))
    cases same
  · rintro earlier earlier_mem second second_mem other rfl rfl
    exact apart other.key earlier_mem other (mem_dispatched.mpr second_mem) rfl

/-- Once all matches have been counted, none is left. -/
theorem filter_drop_eq_nil {α : Type*} {p : α → Bool} {list : List α} {position total : Nat}
    (enough : list.countP p ≤ total) (full : (list.take position).countP p = total) :
    (list.drop position).filter p = [] := by
  have split := congrArg (List.countP p) (List.take_append_drop position list)
  rw [List.countP_append, full] at split
  have zero : (list.drop position).countP p = 0 := by omega
  exact List.filter_eq_nil_iff.mpr (List.countP_eq_zero.mp zero)

section Harmless

variable {start : Polling} {revents : PollKey → Nat} {onFd : Nat → FileDesc → List FdCall}
  {ret : Nat}

/-- The callbacks after which a pass goes on remove no polled entry. The pass ends with the last
position, and as soon as it has counted as many ready entries as `zmq_poll` returned. -/
def KeepsPolled (start : Polling) (revents : PollKey → Nat) (onFd : Nat → FileDesc → List FdCall)
    (ret : Nat) : Prop :=
  ∀ position desc, start.callback_[position]? = some desc → readyDesc revents desc = true →
    position + 1 < start.callback_.length →
    (start.callback_.take (position + 1)).countP (readyDesc revents) ≠ ret →
    ∀ removed, .fdRemove removed ∈ onFd position desc → removed.key ∉ start.keys

/-- The callbacks of the ready entries but the last, wherever in the tables these are by then,
remove no polled entries but idle ones that come later, and `zmq_poll` has counted ready entries
only, so that the pass ends with the last of them. -/
structure KeepsReady (start : Polling) (revents : PollKey → Nat)
    (onFd : Nat → FileDesc → List FdCall) (ret : Nat) : Prop where
  /-- There are as many ready entries as `zmq_poll` returned. -/
  counted : start.callback_.countP (readyDesc revents) = ret
  /-- Removed entries are idle and come later. -/
  later : ∀ before desc after, start.callback_ = before ++ desc :: after →
    readyDesc revents desc = true → (∃ other ∈ after, readyDesc revents other = true) →
    ∀ position ≤ before.length, ∀ removed, .fdRemove removed ∈ onFd position desc →
      ∀ other ∈ start.callback_, other.key = removed.key →
        readyDesc revents other = false ∧ other ∈ after

/-- The callbacks do no harm to the pass. -/
def Harmless (start : Polling) (revents : PollKey → Nat) (onFd : Nat → FileDesc → List FdCall)
    (ret : Nat) : Prop :=
  KeepsPolled start revents onFd ret ∨ KeepsReady start revents onFd ret

/-- What a pass has done that was to dispatch some descriptors. -/
structure Walked (expected : List FileDesc) (events : List PollEvent) : Prop where
  /-- No position outside the tables was read. -/
  inside : ∀ outside, .outside outside ∉ events
  /-- They were dispatched, in their order. -/
  dispatches : dispatched events = expected
  /-- No entry was dispatched after it had been removed. -/
  notRemoved : events.Pairwise fun earlier later =>
    ∀ desc, later = .dispatch desc → earlier ≠ .remove desc.key

theorem Walked.nil : Walked [] [] := ⟨by simp, rfl, .nil⟩

/-- A ready entry is dispatched, its callback removes entries that are not dispatched later, and
the walk goes on after it. -/
theorem Walked.dispatch {desc : FileDesc} {expected : List FileDesc}
    {removals later : List PollEvent}
    (removal : ∀ event ∈ removals, ∃ removed : FileDesc, event = .remove removed.key)
    (apart : ∀ key, .remove key ∈ removals → ∀ other ∈ expected, other.key ≠ key)
    (walked : Walked expected later) :
    Walked (desc :: expected) (.dispatch desc :: (removals ++ later)) := by
  constructor
  · exact inside_callback removal walked.inside
  · rw [dispatched_callback removal, walked.dispatches]
  · refine notRemoved_cons removal (fun key gone other among => ?_) walked.notRemoved
    exact apart key gone other (walked.dispatches ▸ among)

/-- What a callback removes. -/
theorem removal_of_callback {uninit : Nat → Nat} {calls : List FdCall} {current : Polling} :
    ∀ event ∈ (performFdCalls uninit calls current).1,
      ∃ removed : FileDesc, event = .remove removed.key :=
  fun _ member => (performFdCalls_events member).imp fun _ found => found.2

/-- As long as the callbacks remove no polled entry, the loop dispatches exactly the ready entries
from its position on, in table order. -/
theorem fdPollLoop_of_keepsPolled (keeps : KeepsPolled start revents onFd ret)
    (enough : start.callback_.countP (readyDesc revents) ≤ ret) (uninit : Nat → Nat → Nat)
    (left position count : Nat) {current : Polling}
    (remains : Remains revents start.callback_ current)
    (range : position + left = start.callback_.length)
    (counted : count = (start.callback_.take position).countP (readyDesc revents))
    (open_ : count ≠ ret) :
    Walked ((start.callback_.drop position).filter (readyDesc revents))
      (fdPollLoop onFd uninit ret left position count current).1 := by
  induction left generalizing position count current with
  | zero =>
      rw [List.drop_eq_nil_of_le (by omega)]
      exact .nil
  | succ left ih =>
      have bound : position < start.callback_.length := by omega
      let desc := start.callback_.get ⟨position, bound⟩
      have polled : start.callback_[position]? = some desc := List.getElem?_eq_getElem bound
      obtain ⟨item, item_there, there, ready_eq⟩ := remains.at_position polled
      have rest : start.callback_.drop position = desc :: start.callback_.drop (position + 1) :=
        List.drop_eq_getElem_cons bound
      have taken : start.callback_.take (position + 1) = start.callback_.take position ++ [desc] :=
        List.take_succ_eq_append_getElem bound
      rw [rest]
      simp only [fdPollLoop, item_there, there, ready_eq]
      by_cases ready : readyDesc revents desc = true
      · have count_next :
            count + 1 = (start.callback_.take (position + 1)).countP (readyDesc revents) := by
          rw [taken, List.countP_append, ← counted]
          simp [ready]
        rw [if_pos ready, List.filter_cons_of_pos ready]
        by_cases full : count + 1 = ret
        · rw [if_pos full, ← List.append_nil (performFdCalls _ _ _).1,
            filter_drop_eq_nil enough (count_next.symm.trans full)]
          exact .dispatch removal_of_callback (by simp) .nil
        · rw [if_neg full]
          rcases Nat.eq_zero_or_pos left with rfl | more
          · rw [List.drop_eq_nil_of_le (by omega)]
            exact .dispatch removal_of_callback (by simp) .nil
          · have kept := keeps position desc polled ready (by omega) (count_next ▸ full)
            -- What is polled is not removed, and what is dispatched later is polled.
            have apart : ∀ removed, .fdRemove removed ∈ onFd position desc →
                ∀ other ∈ start.callback_, other.key ≠ removed.key := by
              intro removed call other member same
              refine kept removed call ?_
              rw [start.keys_eq_callback, ← same]
              exact List.mem_map_of_mem member
            have remains' := remains.performFdCalls (onFd position desc) (uninit position)
            rw [List.filter_eq_self.mpr fun other member =>
              spared_iff.mpr fun removed call => apart removed call other member] at remains'
            refine .dispatch removal_of_callback ?_
              (ih (position + 1) (count + 1) remains' (by omega) count_next full)
            intro key gone other later same
            obtain ⟨removed, call, gone⟩ := performFdCalls_events gone
            exact apart removed call other (List.mem_of_mem_drop (List.mem_of_mem_filter later))
              (same.trans (PollEvent.remove.inj gone))
      · rw [if_neg ready, if_neg open_, List.filter_cons_of_neg ready]
        exact ih (position + 1) count remains (by omega)
          (by rw [taken, List.countP_append, ← counted]; simp [ready]) open_

/-- The part of a list in which some elements come, one of them, and then others. -/
theorem split_of_sublist {α : Type*} {before after list : List α} {element : α}
    (order : (before ++ element :: after).Sublist list) :
    ∃ earlier later, list = earlier ++ element :: later ∧ before.Sublist earlier ∧
      after.Sublist later := by
  obtain ⟨first, second, rfl, behind, ahead⟩ := List.append_sublist_iff.mp order
  obtain ⟨reached, later, rfl, among, rest⟩ := List.cons_sublist_iff.mp ahead
  obtain ⟨skipped, more, rfl⟩ := List.append_of_mem among
  refine ⟨first ++ skipped, more ++ later, by simp, ?_, ?_⟩
  · exact behind.trans (List.sublist_append_left ..)
  · exact rest.trans (List.sublist_append_right ..)

/-- A callback after which others are ready removes neither what has been visited nor what is
ready. -/
theorem KeepsReady.spared (keeps : KeepsReady start revents onFd ret) {desc : FileDesc}
    {visited rest : List FileDesc} (order : (visited ++ desc :: rest).Sublist start.callback_)
    (ready : readyDesc revents desc = true) (more : 0 < rest.countP (readyDesc revents)) :
    (∀ other ∈ visited ++ [desc], spared (onFd visited.length desc) other = true) ∧
      ∀ other ∈ rest, readyDesc revents other = true →
        spared (onFd visited.length desc) other = true := by
  obtain ⟨before, after, split, behind, ahead⟩ := split_of_sublist order
  obtain ⟨next, member, ready'⟩ := List.countP_pos_iff.mp more
  have later := keeps.later before desc after split ready ⟨next, ahead.mem member, ready'⟩
    visited.length behind.length_le
  have distinct := start.callback_nodup
  rw [List.append_cons] at order
  rw [split, List.append_cons] at distinct
  constructor
  · intro other member
    refine spared_iff.mpr fun removed call same => ?_
    obtain ⟨-, among⟩ :=
      later removed call other (order.mem (List.mem_append_left _ member)) same
    exact List.disjoint_of_nodup_append distinct ((behind.append_right [desc]).mem member) among
  · intro other member ready
    refine spared_iff.mpr fun removed call same => ?_
    obtain ⟨idle, -⟩ :=
      later removed call other (order.mem (List.mem_append_right _ member)) same
    rw [ready] at idle
    cases idle

/-- As long as the callbacks remove nothing that is still to be dispatched, the loop dispatches
exactly the ready entries from its position on, in table order. -/
theorem fdPollLoop_of_keepsReady (keeps : KeepsReady start revents onFd ret)
    (uninit : Nat → Nat → Nat) (left : Nat) {visited rest : List FileDesc} {current : Polling}
    (remains : Remains revents (visited ++ rest) current)
    (order : (visited ++ rest).Sublist start.callback_)
    (ready_left : (visited ++ rest).filter (readyDesc revents) =
      start.callback_.filter (readyDesc revents))
    (short : rest.length ≤ left) (open_ : visited.countP (readyDesc revents) ≠ ret) :
    Walked (rest.filter (readyDesc revents)) (fdPollLoop onFd uninit ret left visited.length
      (visited.countP (readyDesc revents)) current).1 := by
  induction left generalizing visited rest current with
  | zero =>
      obtain rfl := List.eq_nil_of_length_eq_zero (Nat.le_zero.mp short)
      exact .nil
  | succ left ih =>
      have total : visited.countP (readyDesc revents) + rest.countP (readyDesc revents) = ret := by
        rw [← keeps.counted, ← List.countP_append, List.countP_eq_length_filter, ready_left,
          ← List.countP_eq_length_filter]
      rcases rest with _ | ⟨desc, rest⟩
      · exact absurd total open_
      · obtain ⟨item, item_there, there, ready_eq⟩ := remains.at_position
          (show (visited ++ desc :: rest)[visited.length]? = some desc by simp)
        have whole : visited ++ desc :: rest = (visited ++ [desc]) ++ rest := by simp
        have length : (visited ++ [desc]).length = visited.length + 1 := List.length_append
        have order' := order
        rw [whole] at remains order' ready_left
        rw [List.length_cons, Nat.add_le_add_iff_right] at short
        simp only [fdPollLoop, item_there, there, ready_eq]
        by_cases ready : readyDesc revents desc = true
        · have counted : (visited ++ [desc]).countP (readyDesc revents) =
              visited.countP (readyDesc revents) + 1 := by
            simp [List.countP_append, ready]
          rw [List.countP_cons_of_pos ready] at total
          rw [if_pos ready, List.filter_cons_of_pos ready]
          by_cases full : visited.countP (readyDesc revents) + 1 = ret
          · have none_left : rest.filter (readyDesc revents) = [] :=
              List.filter_eq_nil_iff.mpr (List.countP_eq_zero.mp (by omega))
            rw [if_pos full, ← List.append_nil (performFdCalls _ _ _).1, none_left]
            exact .dispatch removal_of_callback (by simp) .nil
          · obtain ⟨behind_spared, ready_spared⟩ := keeps.spared order ready (by omega)
            have same_ready : (rest.filter (spared (onFd visited.length desc))).filter
                (readyDesc revents) = rest.filter (readyDesc revents) := by
              rw [List.filter_filter]
              refine List.filter_congr fun other member => ?_
              cases ready : readyDesc revents other with
              | false => rfl
              | true => rw [ready_spared other member ready]; rfl
            have remains' := remains.performFdCalls (onFd visited.length desc)
              (uninit visited.length)
            rw [List.filter_append, List.filter_eq_self.mpr behind_spared] at remains'
            have walked := ih remains'
              (((List.Sublist.refl _).append List.filter_sublist).trans order')
              (by rw [List.filter_append, same_ready, ← List.filter_append, ready_left])
              (Nat.le_trans (List.length_filter_le ..) short) (by rw [counted]; exact full)
            rw [counted, length, same_ready] at walked
            rw [if_neg full]
            refine .dispatch removal_of_callback ?_ walked
            intro key gone other among same
            obtain ⟨removed, call, gone⟩ := performFdCalls_events gone
            exact spared_iff.mp (ready_spared other (List.mem_of_mem_filter among)
              (List.of_mem_filter among)) removed call (same.trans (PollEvent.remove.inj gone))
        · have counted : (visited ++ [desc]).countP (readyDesc revents) =
              visited.countP (readyDesc revents) := by
            simp [List.countP_append, ready]
          have walked := ih remains order' ready_left short (by rw [counted]; exact open_)
          rw [counted, length] at walked
          rw [if_neg ready, if_neg open_, List.filter_cons_of_neg ready]
          exact walked

end Harmless

namespace Polling

theorem stamps_setRevents (polling : Polling) (revents : PollKey → Nat) :
    (polling.setRevents revents).stamps = polling.keys.map fun key => (key, revents key) := by
  simp [stamps, keys, setRevents, PollItem.stamp, Function.comp_def, PollItem.withRevents,
    PollItem.key]

@[simp] theorem keys_setRevents (polling : Polling) (revents : PollKey → Nat) :
    (polling.setRevents revents).keys = polling.keys := by
  rw [← map_fst_stamps, stamps_setRevents]
  simp [Function.comp_def]

/-- `zmq_poll` has written the returned events of every item. -/
theorem polled_setRevents (polling : Polling) (revents : PollKey → Nat) :
    ∀ stamp ∈ (polling.setRevents revents).stamps, stamp.2 = revents stamp.1 := by
  intro stamp member
  rw [polling.stamps_setRevents] at member
  obtain ⟨key, -, rfl⟩ := List.mem_map.mp member
  rfl

/-- A key stands for one callback. -/
theorem callback_unique {polling : Polling} {desc other : FileDesc}
    (member : desc ∈ polling.callback_) (member' : other ∈ polling.callback_)
    (same : desc.key = other.key) : desc = other :=
  List.inj_on_of_nodup_map (polling.keys_eq_callback ▸ polling.keys_nodup) member member' same

/-- A key stands for one item. -/
theorem item_unique {polling : Polling} {item other : PollItem} (member : item ∈ polling.fd_)
    (member' : other ∈ polling.fd_) (same : item.key = other.key) : item = other :=
  List.inj_on_of_nodup_map polling.distinct member member' same

/-- A key stands for one position. -/
theorem position_unique {polling : Polling} {index index' : Nat} {item item' : PollItem}
    (there : polling.fd_[index]? = some item) (there' : polling.fd_[index']? = some item')
    (same : item.key = item'.key) : index = index' := by
  have key : polling.keys[index]? = some item.key :=
    (List.getElem?_map ..).trans (congrArg (Option.map PollItem.key) there)
  have key' : polling.keys[index']? = some item'.key :=
    (List.getElem?_map ..).trans (congrArg (Option.map PollItem.key) there')
  obtain ⟨bound, -⟩ := List.getElem?_eq_some_iff.mp key
  exact (List.getElem?_inj bound polling.keys_nodup).mp (by rw [key, key', same])

/-- The number that `zmq_poll` returns: the entries with returned events of any kind. -/
def returned (polling : Polling) (revents : PollKey → Nat) : Nat :=
  (polling.setRevents revents).fd_.countP fun item => item.revents != 0

theorem returned_eq (polling : Polling) (revents : PollKey → Nat) :
    polling.returned revents = polling.keys.countP fun key => revents key != 0 := by
  simp [returned, setRevents, keys, List.countP_map, Function.comp_def, PollItem.withRevents]

/-- `zmq_poll` counts at least the entries that are ready for reading or writing. -/
theorem countP_readyDesc_le (polling : Polling) (revents : PollKey → Nat) :
    polling.callback_.countP (readyDesc revents) ≤ polling.returned revents := by
  have by_key : polling.callback_.countP (readyDesc revents) =
      polling.keys.countP fun key => readyEvents (revents key) := by
    rw [keys_eq_callback, List.countP_map]
    rfl
  rw [by_key, returned_eq]
  refine List.countP_mono_left fun key _ ready => ?_
  by_contra none
  simp only [bne_iff_ne, ne_eq, not_not] at none
  simp [readyEvents, none] at ready

end Polling

section Pass

variable {polling : Polling} {revents : PollKey → Nat}

/-- A pass in which nothing is ready ends with the poll. -/
theorem fdPoll_of_idle (onFd : Nat → FileDesc → List FdCall) (uninit : Nat → Nat → Nat)
    (idle : polling.returned revents = 0) :
    fdPoll (some revents) onFd uninit polling = (0, [], polling.setRevents revents) := if_pos idle

/-- Unless `zmq_poll` returned zero, a pass is its loop. -/
theorem fdPoll_of_returned (onFd : Nat → FileDesc → List FdCall) (uninit : Nat → Nat → Nat)
    (busy : polling.returned revents ≠ 0) :
    fdPoll (some revents) onFd uninit polling =
      ((polling.returned revents : Int),
        fdPollLoop onFd uninit (polling.returned revents) polling.callback_.length 0 0
          (polling.setRevents revents)) := by
  have length : polling.callback_.length = (polling.setRevents revents).fd_.length :=
    (polling.setRevents revents).length_callback
  rw [length]
  exact if_neg busy

end Pass

/-- What `zmq_poll` has polled is there when a pass starts. -/
theorem remains_setRevents (polling : Polling) (revents : PollKey → Nat) :
    Remains revents polling.callback_ (polling.setRevents revents) := by
  refine ⟨List.prefix_rfl, ?_⟩
  rw [polling.stamps_setRevents, polling.keys_eq_callback, List.map_map]
  exact List.prefix_rfl

/-- The loop of a pass whose callbacks are harmless dispatches exactly the ready entries. -/
theorem walked_of_harmless {polling : Polling} {revents : PollKey → Nat}
    {onFd : Nat → FileDesc → List FdCall}
    (harmless : Harmless polling revents onFd (polling.returned revents))
    (uninit : Nat → Nat → Nat) (busy : polling.returned revents ≠ 0) :
    Walked (polling.callback_.filter (readyDesc revents))
      (fdPollLoop onFd uninit (polling.returned revents) polling.callback_.length 0 0
        (polling.setRevents revents)).1 := by
  have remains := remains_setRevents polling revents
  rcases harmless with keeps | keeps
  · exact fdPollLoop_of_keepsPolled keeps (polling.countP_readyDesc_le revents) uninit _ 0 0
      remains (Nat.zero_add _) rfl (Ne.symm busy)
  · exact fdPollLoop_of_keepsReady keeps uninit polling.callback_.length
      (show Remains revents ([] ++ polling.callback_) _ from remains) (.refl _) rfl (Nat.le_refl _)
      (Ne.symm busy)

/-- A pass whose callbacks are harmless survives them. -/
theorem survives_of_harmless {polling : Polling} {revents : PollKey → Nat}
    {onFd : Nat → FileDesc → List FdCall} (uninit : Nat → Nat → Nat)
    (harmless : Harmless polling revents onFd (polling.returned revents)) :
    Survives polling revents (fdPoll (some revents) onFd uninit polling).2.1 := by
  by_cases idle : polling.returned revents = 0
  · have none_ready : ∀ desc ∈ polling.callback_, readyDesc revents desc ≠ true :=
      List.countP_eq_zero.mp (by have := polling.countP_readyDesc_le revents; omega)
    rw [fdPoll_of_idle onFd uninit idle]
    exact ⟨by simp, fun desc member ready => absurd ready (none_ready desc member), by simp, .nil⟩
  · obtain ⟨inside, dispatches, sorted⟩ := walked_of_harmless harmless uninit idle
    rw [fdPoll_of_returned onFd uninit idle]
    have once := polling.callback_nodup.filter (readyDesc revents)
    refine ⟨inside, fun desc member ready => .inl ?_, fun desc member => ?_, sorted⟩
    · rw [count_dispatched, dispatches]
      exact List.count_eq_one_of_mem once (List.mem_filter.mpr ⟨member, ready⟩)
    · rw [← mem_dispatched, dispatches] at member
      exact List.mem_filter.mp member

/-! ## Passes in which a polled entry is removed -/

/-- After calls that may have removed entries, the tables hold some of the polled entries, in
order, followed by entries added since. Polled entries that are missing have been removed. -/
structure Drift (polled : List (PollKey × Nat)) (Gone : PollKey → Prop) (current : Polling)
    (old new : List (PollKey × Nat)) : Prop where
  /-- The polled entries come before the added ones. -/
  split : current.stamps = old ++ new
  /-- The polled entries keep their order. -/
  order : old.Sublist polled
  /-- The memory of the added entries makes them look ready. -/
  ready : ∀ stamp ∈ new, readyEvents stamp.2 = true
  /-- Missing polled entries have been removed. -/
  gone : ∀ key ∈ polled.map Prod.fst, key ∉ old.map Prod.fst → Gone key

namespace Drift

variable {polled old new : List (PollKey × Nat)} {Gone : PollKey → Prop} {current : Polling}

theorem fdAdd (drift : Drift polled Gone current old new) {uninit : Nat}
    (dirty : readyEvents uninit = true) (desc : FileDesc) :
    ∃ new', Drift polled Gone (current.fdAdd uninit desc).2 old new' := by
  rcases current.fdAdd_cases uninit desc with ⟨-, same⟩ | ⟨-, -, stored⟩
  · exact ⟨new, same.trans drift.split, drift.order, drift.ready, drift.gone⟩
  · refine ⟨new ++ [(desc.key, uninit)], ?_, drift.order, ?_, drift.gone⟩
    · rw [stored, drift.split, List.append_assoc]
    · intro stamp member
      rcases List.mem_append.mp member with member | member
      · exact drift.ready stamp member
      · obtain rfl := List.mem_singleton.mp member
        exact dirty

theorem fdRemove (drift : Drift polled Gone current old new) (desc : FileDesc) :
    Drift polled (fun key => Gone key ∨ key = desc.key ∧ key ∈ current.keys)
      (current.fdRemove desc) (old.filter fun stamp => stamp.1 ≠ desc.key)
      (new.filter fun stamp => stamp.1 ≠ desc.key) := by
  refine ⟨?_, List.filter_sublist.trans drift.order, ?_, ?_⟩
  · rw [current.fdRemove_stamps, drift.split, List.filter_append]
  · exact fun stamp member => drift.ready stamp (List.mem_of_mem_filter member)
  · intro key member missing
    by_cases there : key ∈ old.map Prod.fst
    · refine .inr ⟨?_, ?_⟩
      · by_contra other
        obtain ⟨stamp, inside, rfl⟩ := List.mem_map.mp there
        exact missing (List.mem_map_of_mem
          (List.mem_filter.mpr ⟨inside, by simpa using other⟩))
      · rw [← current.map_fst_stamps, drift.split, List.map_append]
        exact List.mem_append_left _ there
    · exact .inl (drift.gone key member there)

/-- Calls of a callback let the tables drift; what they remove is not among the polled entries
that are left. -/
theorem performFdCalls (drift : Drift polled Gone current old new) {uninit : Nat → Nat}
    (dirty : ∀ index, readyEvents (uninit index) = true) (calls : List FdCall) :
    ∃ old' new', Drift polled
        (fun key => Gone key ∨ .remove key ∈ (C3qo.performFdCalls uninit calls current).1)
        (C3qo.performFdCalls uninit calls current).2 old' new' ∧ old'.Sublist old ∧
      ∀ removed, .fdRemove removed ∈ calls → removed.key ∉ old'.map Prod.fst := by
  induction calls generalizing current old new Gone uninit with
  | nil =>
      exact ⟨old, new, ⟨drift.split, drift.order, drift.ready,
        fun key member missing => .inl (drift.gone key member missing)⟩, List.Sublist.refl _,
        by simp⟩
  | cons call calls ih =>
      have dirty_rest : ∀ index, readyEvents (uninit (index + 1)) = true :=
        fun index => dirty (index + 1)
      cases call with
      | fdAdd desc =>
          obtain ⟨new', drift'⟩ := drift.fdAdd (dirty 0) desc
          obtain ⟨old', last, final, inside, removed⟩ := ih drift' dirty_rest
          refine ⟨old', last, final, inside, fun other member => ?_⟩
          rcases List.mem_cons.mp member with same | member
          · cases same
          · exact removed other member
      | fdRemove desc =>
          obtain ⟨old', last, final, inside, removed⟩ := ih (drift.fdRemove desc) dirty_rest
          refine ⟨old', last, ⟨final.split, final.order, final.ready, ?_⟩,
            inside.trans List.filter_sublist, fun other member => ?_⟩
          · intro key member missing
            simp only [C3qo.performFdCalls]
            rcases final.gone key member missing with (before | ⟨rfl, registered⟩) | later
            · exact .inl before
            · simp [registered]
            · refine .inr ?_
              split_ifs
              · exact List.mem_cons_of_mem _ later
              · exact later
          · rcases List.mem_cons.mp member with same | member
            · obtain rfl := FdCall.fdRemove.inj same
              intro there
              obtain ⟨stamp, kept, same_key⟩ := List.mem_map.mp (inside.map Prod.fst |>.mem there)
              simpa [same_key] using List.of_mem_filter kept
            · exact removed other member

/-- Calls that remove a polled entry leave fewer polled entries. -/
theorem of_removal {start : Polling} {uninit : Nat → Nat}
    (dirty : ∀ index, readyEvents (uninit index) = true) {calls : List FdCall}
    {removed : FileDesc} (call : .fdRemove removed ∈ calls)
    (registered : removed.key ∈ start.keys) :
    ∃ old new, Drift start.stamps
        (fun key => .remove key ∈ (C3qo.performFdCalls uninit calls start).1)
        (C3qo.performFdCalls uninit calls start).2 old new ∧
      old.length < start.stamps.length := by
  have untouched : Drift start.stamps (fun _ => False) start start.stamps [] :=
    ⟨(List.append_nil _).symm, List.Sublist.refl _, by simp, fun _ member absent =>
      absurd member absent⟩
  obtain ⟨old, new, drift, -, missing⟩ := untouched.performFdCalls dirty calls
  refine ⟨old, new, ⟨drift.split, drift.order, drift.ready, fun key member absent =>
    (drift.gone key member absent).resolve_left id⟩, ?_⟩
  refine Nat.lt_of_le_of_ne drift.order.length_le fun same => ?_
  rw [← start.map_fst_stamps] at registered
  exact missing removed call (drift.order.eq_of_length same ▸ registered)

/-- An added entry with the key of a polled one comes after the removal of that. -/
theorem gone_of_added (drift : Drift polled Gone current old new) {key : PollKey}
    (member : key ∈ polled.map Prod.fst) (added : key ∈ new.map Prod.fst) : Gone key := by
  refine drift.gone key member fun before => ?_
  have distinct := current.keys_nodup
  rw [← current.map_fst_stamps, drift.split, List.map_append] at distinct
  exact List.disjoint_of_nodup_append distinct before added

end Drift

/-- Entries that are not ready are walked past. -/
theorem fdPollLoop_skip (onFd : Nat → FileDesc → List FdCall) (uninit : Nat → Nat → Nat)
    {ret count : Nat} {current : Polling} (open_ : count ≠ ret) (steps left position : Nat)
    (idle : ∀ index, position ≤ index → index < position + steps →
      ∃ stamp, current.stamps[index]? = some stamp ∧ readyEvents stamp.2 = false) :
    fdPollLoop onFd uninit ret (left + steps) position count current =
      fdPollLoop onFd uninit ret left (position + steps) count current := by
  induction steps generalizing position with
  | zero => rfl
  | succ steps ih =>
      obtain ⟨stamp, there, not_ready⟩ := idle position (Nat.le_refl _) (by omega)
      obtain ⟨item, item_there, rfl⟩ := by
        simpa [Polling.stamps, List.getElem?_map] using there
      obtain ⟨desc, callback_there, -⟩ := Polling.exists_callback item_there
      rw [show left + (steps + 1) = left + steps + 1 by omega,
        show position + (steps + 1) = position + 1 + steps by omega, ← ih]
      · simp only [fdPollLoop, item_there, callback_there]
        rw [PollItem.ready_eq, not_ready, if_neg Bool.false_ne_true, if_neg open_]
      · exact fun index low high => idle index (by omega) (by omega)

/-- A ready entry that is not the last to count is dispatched, and the walk goes on after it. -/
theorem fdPollLoop_ready {onFd : Nat → FileDesc → List FdCall} {uninit : Nat → Nat → Nat}
    {ret count left position : Nat} {current : Polling} {item : PollItem} {desc : FileDesc}
    (item_there : current.fd_[position]? = some item)
    (there : current.callback_[position]? = some desc) (ready : item.ready = true)
    (more : count + 1 ≠ ret) :
    let after := performFdCalls (uninit position) (onFd position desc) current
    (fdPollLoop onFd uninit ret (left + 1) position count current).1 =
      .dispatch desc :: (after.1 ++
        (fdPollLoop onFd uninit ret left (position + 1) (count + 1) after.2).1) := by
  simp only [fdPollLoop, item_there, there]
  rw [if_pos ready, if_neg more]

/-- With fewer polled entries than positions to visit, a walk that meets no ready polled entry
leaves the tables or comes to an added entry. -/
theorem fdPollLoop_strays (onFd : Nat → FileDesc → List FdCall) (uninit : Nat → Nat → Nat)
    (ret count left position : Nat) {current : Polling} {old new : List (PollKey × Nat)}
    (split : current.stamps = old ++ new) (ready : ∀ stamp ∈ new, readyEvents stamp.2 = true)
    (idle : ∀ stamp ∈ old.drop position, readyEvents stamp.2 = false)
    (short : old.length < position + left) (some_left : 0 < left) (open_ : count ≠ ret) :
    ∃ event ∈ (fdPollLoop onFd uninit ret left position count current).1,
      (∃ index, event = .outside index) ∨
        ∃ desc : FileDesc, event = .dispatch desc ∧ desc.key ∈ new.map Prod.fst := by
  induction left generalizing position with
  | zero => omega
  | succ left ih =>
      by_cases before : position < old.length
      · have member : old[position] ∈ old.drop position :=
          List.drop_eq_getElem_cons before ▸ List.mem_cons_self
        have skipped := fdPollLoop_skip onFd uninit open_ 1 left position (fun index low high => by
            obtain rfl : index = position := by omega
            refine ⟨old[index], ?_, idle _ member⟩
            rw [split, List.getElem?_append_left before, List.getElem?_eq_getElem before])
        rw [skipped]
        refine ih (position + 1) (fun stamp member => idle stamp ?_) (by omega) (by omega)
        exact (List.drop_sublist_drop_left old (Nat.le_succ position)).mem member
      · rcases item_there : current.fd_[position]? with _ | item
        · exact ⟨.outside position, by simp [fdPollLoop, item_there], .inl ⟨position, rfl⟩⟩
        · obtain ⟨desc, callback_there, same_key⟩ := Polling.exists_callback item_there
          have added : item.stamp ∈ new := by
            have there : current.stamps[position]? = some item.stamp := by
              simp [Polling.stamps, item_there]
            rw [split, List.getElem?_append_right (Nat.le_of_not_lt before)] at there
            exact List.mem_of_getElem? there
          have key_new : desc.key ∈ new.map Prod.fst :=
            same_key ▸ List.mem_map_of_mem (f := Prod.fst) added
          refine ⟨.dispatch desc, ?_, .inr ⟨desc, rfl, key_new⟩⟩
          simp only [fdPollLoop, item_there, callback_there]
          rw [PollItem.ready_eq, ready _ added, if_pos rfl]
          split_ifs <;> simp

/-- One ready entry, and the last entry in error. -/
def probe (ready last : PollKey) (key : PollKey) : Nat :=
  if key = ready then ZMQ_POLLIN else if key = last then 4 else 0

theorem readyEvents_probe {ready last key : PollKey} (other : key ≠ ready) :
    readyEvents (probe ready last key) = false := by
  rw [probe, if_neg other]
  split_ifs <;> rfl

/-- Probing one entry and the last leaves all other entries without ready events. -/
theorem stamps_probe {polling : Polling} {position index : Nat} {ready last : PollKey}
    {stamp : PollKey × Nat} (there : polling.keys[position]? = some ready)
    (found : (polling.setRevents (probe ready last)).stamps[index]? = some stamp)
    (other : index ≠ position) : readyEvents stamp.2 = false := by
  rw [polling.stamps_setRevents, List.getElem?_map] at found
  obtain ⟨key, key_found, rfl⟩ := Option.map_eq_some_iff.mp found
  refine readyEvents_probe fun same => other ?_
  obtain ⟨bound, -⟩ := List.getElem?_eq_some_iff.mp key_found
  exact (List.getElem?_inj bound polling.keys_nodup).mp (by rw [key_found, there, same])

/-- The probe makes `zmq_poll` return at least two. -/
theorem two_le_returned_probe {polling : Polling} {ready last : PollKey}
    (ready_mem : ready ∈ polling.keys) (last_mem : last ∈ polling.keys) (other : last ≠ ready) :
    2 ≤ polling.returned (probe ready last) := by
  have both : List.Subperm [ready, last] polling.keys :=
    List.subperm_of_subset (by simpa using other.symm) (by simp [ready_mem, last_mem])
  rw [polling.returned_eq]
  refine Nat.le_trans ?_ (both.countP_le fun key => probe ready last key != 0)
  simp [probe, other, ZMQ_POLLIN]

/-- Where a callback before the last one removes a polled entry, some pass goes wrong. -/
theorem exists_not_survives {polling : Polling} {onFd : Nat → FileDesc → List FdCall}
    {position : Nat} {desc removed : FileDesc}
    (more : position + 1 < polling.callback_.length)
    (there : polling.callback_[position]? = some desc)
    (call : .fdRemove removed ∈ onFd position desc) (registered : removed.key ∈ polling.keys) :
    ∃ revents uninit,
      ¬ Survives polling revents (fdPoll (some revents) onFd uninit polling).2.1 := by
  have length_keys : polling.keys.length = polling.callback_.length := by
    simp [Polling.keys, polling.length_callback]
  have key_there : polling.keys[position]? = some desc.key := by
    simp [polling.keys_eq_callback, there]
  obtain ⟨last, last_there⟩ : ∃ last, polling.keys[polling.callback_.length - 1]? = some last :=
    ⟨_, List.getElem?_eq_getElem (by omega)⟩
  have last_ne : last ≠ desc.key := by
    rintro rfl
    have same := (List.getElem?_inj (by omega) polling.keys_nodup).mp
      (key_there.trans last_there.symm)
    omega
  let revents := probe desc.key last
  let start := polling.setRevents revents
  have two : 2 ≤ polling.returned revents :=
    two_le_returned_probe (List.mem_of_getElem? key_there) (List.mem_of_getElem? last_there) last_ne
  have length_stamps : start.stamps.length = polling.callback_.length := by
    simp [start, polling.stamps_setRevents, length_keys]
  -- The callback of the ready entry leaves fewer polled entries than positions to visit.
  let after := performFdCalls (fun _ => ZMQ_POLLIN) (onFd position desc) start
  obtain ⟨old, new, drift, short⟩ : ∃ old new,
      Drift start.stamps (fun key => .remove key ∈ after.1) after.2 old new ∧
        old.length < start.stamps.length :=
    Drift.of_removal (fun _ => rfl) call (by simpa [start] using registered)
  have idle : ∀ stamp ∈ old.drop (position + 1), readyEvents stamp.2 = false := by
    intro stamp member
    obtain ⟨index, found⟩ := List.mem_iff_getElem?.mp ((drift.order.drop (position + 1)).mem member)
    rw [List.getElem?_drop] at found
    exact stamps_probe key_there found (by omega)
  obtain ⟨stray, stray_mem, strays⟩ := fdPollLoop_strays onFd (fun _ _ => ZMQ_POLLIN)
    (polling.returned revents) 1 (polling.callback_.length - position - 1) (position + 1)
    drift.split drift.ready idle (by omega) (by omega) (by omega)
  -- Nothing before the ready entry is dispatched.
  have two_open : 0 ≠ polling.returned revents := by omega
  have skipped := fdPollLoop_skip onFd (fun _ _ => ZMQ_POLLIN) two_open position
    (polling.callback_.length - position - 1 + 1) 0 (fun index low high => by
      obtain ⟨stamp, found⟩ : ∃ stamp, start.stamps[index]? = some stamp :=
        ⟨_, List.getElem?_eq_getElem (by omega)⟩
      exact ⟨stamp, found, stamps_probe key_there found (by omega)⟩)
  have at_position : start.stamps[position]? = some (desc.key, ZMQ_POLLIN) := by
    simp [start, polling.stamps_setRevents, key_there, revents, probe]
  obtain ⟨item, item_there, stamp⟩ :
      ∃ item, start.fd_[position]? = some item ∧ item.stamp = (desc.key, ZMQ_POLLIN) := by
    rw [Polling.stamps, List.getElem?_map] at at_position
    exact Option.map_eq_some_iff.mp at_position
  have ready : item.ready = true := by
    rw [item.ready_eq, stamp]
    exact (by decide : readyEvents ZMQ_POLLIN = true)
  have range :
      polling.callback_.length = polling.callback_.length - position - 1 + 1 + position := by omega
  refine ⟨revents, fun _ _ => ZMQ_POLLIN, fun survives => ?_⟩
  rw [fdPoll_of_returned _ _ (by omega), range, skipped, Nat.zero_add,
    fdPollLoop_ready item_there there ready (by omega)] at survives
  obtain ⟨inside, -, polled, notRemoved⟩ := survives
  have stray_later := List.mem_cons_of_mem (.dispatch desc)
    (List.mem_append_right after.1 stray_mem)
  rcases strays with ⟨index, rfl⟩ | ⟨other, rfl, added⟩
  · exact inside index stray_later
  · -- The added entry is not one of the polled ones, unless that was removed before.
    have other_polled := (polled other stray_later).1
    have other_key : other.key ∈ start.stamps.map Prod.fst := by
      rw [start.map_fst_stamps, start.keys_eq_callback]
      exact List.mem_map_of_mem other_polled
    exact (List.pairwise_append.mp (List.pairwise_cons.mp notRemoved).2).2.2 _
      (drift.gone_of_added other_key added) _ stray_mem other rfl rfl

/-- A pass of `fd_poll` survives its callbacks for every readiness result if and only if no
callback of an entry other than the last removes a polled entry. For one readiness result it is
enough that the callbacks after which the pass goes on do not, or that they remove idle entries
which come later, where `zmq_poll` has counted ready entries only. -/
theorem fdPoll_survives_iff (polling : Polling) (onFd : Nat → FileDesc → List FdCall) :
    ((∀ revents uninit,
        Survives polling revents (fdPoll (some revents) onFd uninit polling).2.1) ↔
      ∀ position desc, position + 1 < polling.callback_.length →
        polling.callback_[position]? = some desc →
        ∀ removed, .fdRemove removed ∈ onFd position desc → removed.key ∉ polling.keys) ∧
    ∀ revents, Harmless polling revents onFd (polling.returned revents) → ∀ uninit,
      Survives polling revents (fdPoll (some revents) onFd uninit polling).2.1 := by
  refine ⟨⟨?_, ?_⟩, fun revents harmless uninit => survives_of_harmless uninit harmless⟩
  · intro survives position desc more there removed call registered
    obtain ⟨revents, uninit, fails⟩ := exists_not_survives more there call registered
    exact fails (survives revents uninit)
  · intro kept revents uninit
    exact survives_of_harmless uninit (.inl fun position desc there _ more _ =>
      kept position desc more there)

/-- The failing pass: two hooks are ready, and the callback of the first one stops its own hook. -/
theorem fdPoll_not_survives :
    let desc := fun hook : BlockRef => (⟨some hook, -1, some hook, true, false⟩ : FileDesc)
    let polling := ((Polling.empty.fdAdd 0 (desc 0)).2.fdAdd 0 (desc 1)).2
    let onFd := fun position desc => if position = 0 then [FdCall.fdRemove desc] else []
    ¬ Survives polling (fun _ => ZMQ_POLLIN)
      (fdPoll (some fun _ => ZMQ_POLLIN) onFd (fun _ _ => 0) polling).2.1 := by
  intro desc polling onFd survives
  exact survives.inside 1 (by decide)

end C3qo
