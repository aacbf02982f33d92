import C3qo.PlainDispatch

/-!
# Registering a descriptor again

`fd_add` resets the polled events of a key that is known already, but leaves the callback table as
it is: the events asked for are the new ones, and the descriptor that they are dispatched with, its
block included, stays the old one. Registering is an upsert exactly where the two are equal.
-/

namespace C3qo

/-- The descriptor is what its key stands for after it was registered. -/
structure Upserted (before : Polling) (desc : FileDesc) (after : Polling) : Prop where
  /-- One entry has the key; it polls what was asked for, and its callback is the descriptor. -/
  entry : ∃ (index : Nat) (item : PollItem), after.fd_[index]? = some item ∧
    item.key = desc.key ∧ item.events = desc.events ∧ after.callback_[index]? = some desc ∧
    ∀ (index' : Nat) (item' : PollItem), after.fd_[index']? = some item' →
      item'.key = desc.key → index' = index
  /-- The next event on the key goes to the descriptor. -/
  next : ∀ revents onFd uninit, LeavesSet (after.setRevents revents) onFd uninit →
    readyDesc revents desc = true →
      (dispatched (fdPoll (some revents) onFd uninit after).2.1).filter
        (fun other => other.key = desc.key) = [desc]
  /-- The other callbacks are unchanged, in their order. -/
  callbacks : after.callback_.filter (fun other => other.key ≠ desc.key) =
    before.callback_.filter fun other => other.key ≠ desc.key
  /-- The other items are unchanged, in their order. -/
  items : after.fd_.filter (fun item => item.key ≠ desc.key) =
    before.fd_.filter fun item => item.key ≠ desc.key

/-- Rewriting an element that a filter drops before and after does not change what it keeps. -/
theorem filter_modify_eq {α : Type*} {p : α → Bool} {f : α → α} {list : List α} {index : Nat}
    {element : α} (there : list[index]? = some element) (out : p element = false)
    (still_out : p (f element) = false) : (list.modify index f).filter p = list.filter p := by
  induction list generalizing index with
  | nil => simp
  | cons head tail ih =>
      cases index with
      | zero =>
          obtain rfl : head = element := by simpa using there
          simp [out, still_out]
      | succ index =>
          have later := ih (by simpa using there)
          cases kept : p head <;> simp [kept, later]

/-- A list in which one element satisfies the filter, and no other has its key. -/
theorem filter_key_eq {α β : Type*} [DecidableEq β] {key : α → β} {list : List α} {element : α}
    (distinct : (list.map key).Nodup) (member : element ∈ list) :
    (list.filter fun other => key other = key element) = [element] := by
  induction list with
  | nil => cases member
  | cons head tail ih =>
      obtain ⟨head_new, tail_distinct⟩ := List.nodup_cons.mp distinct
      rcases List.mem_cons.mp member with rfl | member
      · have rest : (tail.filter fun other => key other = key element) = [] := by
          refine List.filter_eq_nil_iff.mpr fun other there => ?_
          simpa using fun same : key other = key element =>
            head_new (same ▸ List.mem_map_of_mem (f := key) there)
        simp [rest]
      · have other : key head ≠ key element := fun same =>
          head_new (same ▸ List.mem_map_of_mem (f := key) member)
        simp [other, ih tail_distinct member]

namespace Polling

section Add

variable {polling : Polling} {desc : FileDesc} (uninit : Nat)

/-- The callbacks after a descriptor was accepted. -/
theorem fdAdd_callback (checked : desc.bk ≠ none ∧ (0 ≤ desc.fd ∨ desc.socket ≠ none)) :
    (polling.fdAdd uninit desc).2.callback_ =
      if desc.key ∈ polling.keys then polling.callback_ else polling.callback_ ++ [desc] := by
  cases found : polling.fdFind desc.key with
  | some index =>
      have known : desc.key ∈ polling.keys := by
        by_contra absent
        rw [fdFind_eq_none.mpr absent] at found
        cases found
      rw [fdAdd_known uninit checked found, if_pos known]
      rfl
  | none =>
      rw [fdAdd_unknown uninit checked found, if_neg (fdFind_eq_none.mp found)]
      rfl

/-- The entry of the key polls what was asked for. -/
theorem fdAdd_entry (checked : desc.bk ≠ none ∧ (0 ≤ desc.fd ∨ desc.socket ≠ none)) :
    ∃ (index : Nat) (item : PollItem), (polling.fdAdd uninit desc).2.fd_[index]? = some item ∧
      item.key = desc.key ∧ item.events = desc.events := by
  cases found : polling.fdFind desc.key with
  | some index =>
      obtain ⟨item, there, same⟩ := fdFind_some found
      refine ⟨index, item.withEvents desc.events, ?_, same, rfl⟩
      rw [fdAdd_known uninit checked found]
      simp [setEvents, there]
  | none =>
      refine ⟨polling.fd_.length, ⟨desc.fd, desc.socket, desc.events, uninit⟩, ?_, rfl, rfl⟩
      rw [fdAdd_unknown uninit checked found]
      simp [setEvents, push, PollItem.withEvents]

/-- Callbacks of other keys are unchanged. -/
theorem fdAdd_other_callbacks :
    (polling.fdAdd uninit desc).2.callback_.filter (fun other => other.key ≠ desc.key) =
      polling.callback_.filter fun other => other.key ≠ desc.key := by
  by_cases checked : desc.bk ≠ none ∧ (0 ≤ desc.fd ∨ desc.socket ≠ none)
  · rw [fdAdd_callback uninit checked]
    split_ifs
    · rfl
    · simp
  · rw [fdAdd_refused uninit checked]

/-- Items of other keys are unchanged. -/
theorem fdAdd_other_items :
    (polling.fdAdd uninit desc).2.fd_.filter (fun item => item.key ≠ desc.key) =
      polling.fd_.filter fun item => item.key ≠ desc.key := by
  by_cases checked : desc.bk ≠ none ∧ (0 ≤ desc.fd ∨ desc.socket ≠ none)
  · cases found : polling.fdFind desc.key with
    | some index =>
        obtain ⟨item, there, same⟩ := fdFind_some found
        rw [fdAdd_known uninit checked found]
        exact filter_modify_eq there (by simp [same]) (by simp [same])
    | none =>
        rw [fdAdd_unknown uninit checked found]
        let stored := polling.push desc uninit checked found
        have last : stored.fd_[polling.fd_.length]? =
            some ⟨desc.fd, desc.socket, 0, uninit⟩ := by simp [stored, push]
        have kept : (stored.setEvents polling.fd_.length desc.events).fd_.filter
            (fun item => item.key ≠ desc.key) = stored.fd_.filter fun item => item.key ≠ desc.key :=
          filter_modify_eq last (by simp [PollItem.key, FileDesc.key])
            (by simp [PollItem.key, FileDesc.key, PollItem.withEvents])
        refine kept.trans ?_
        simp [stored, push, PollItem.key, FileDesc.key]
  · rw [fdAdd_refused uninit checked]

/-- Where no other descriptor has its key, an accepted descriptor is the callback of its key. -/
theorem mem_fdAdd (checked : desc.bk ≠ none ∧ (0 ≤ desc.fd ∨ desc.socket ≠ none))
    (agrees : ∀ other ∈ polling.callback_, other.key = desc.key → other = desc) :
    desc ∈ (polling.fdAdd uninit desc).2.callback_ := by
  rw [fdAdd_callback uninit checked]
  split_ifs with known
  · rw [polling.keys_eq_callback] at known
    obtain ⟨other, member, same⟩ := List.mem_map.mp known
    exact agrees other member same ▸ member
  · exact List.mem_append_right _ (List.mem_singleton_self desc)

end Add

/-- A callback of a set is dispatched for the next event on its key. -/
theorem next_dispatch {polling : Polling} {desc : FileDesc} (member : desc ∈ polling.callback_)
    {revents : PollKey → Nat} {onFd : Nat → FileDesc → List FdCall} {uninit : Nat → Nat → Nat}
    (leaves : LeavesSet (polling.setRevents revents) onFd uninit)
    (ready : readyDesc revents desc = true) :
    (dispatched (fdPoll (some revents) onFd uninit polling).2.1).filter
      (fun other => other.key = desc.key) = [desc] := by
  obtain ⟨-, -, dispatches, -⟩ := fdPoll_of_leavesSet leaves
  rw [dispatches, List.drop_zero]
  have distinct : (polling.callback_.map FileDesc.key).Nodup :=
    polling.keys_eq_callback ▸ polling.keys_nodup
  exact filter_key_eq (distinct.sublist (List.filter_sublist.map FileDesc.key))
    (List.mem_filter.mpr ⟨member, ready⟩)

end Polling

/-- An accepted descriptor is upserted if and only if its key stood for no other descriptor. -/
theorem upserted_iff {polling : Polling} {desc : FileDesc} (uninit : Nat)
    (checked : desc.bk ≠ none ∧ (0 ≤ desc.fd ∨ desc.socket ≠ none)) :
    Upserted polling desc (polling.fdAdd uninit desc).2 ↔
      ∀ other ∈ polling.callback_, other.key = desc.key → other = desc := by
  constructor
  · rintro ⟨⟨index, item, -, -, -, stored, -⟩, -⟩ other member same
    have there := List.mem_of_getElem? stored
    have kept : other ∈ (polling.fdAdd uninit desc).2.callback_ := by
      rw [Polling.fdAdd_callback uninit checked]
      split_ifs
      · exact member
      · exact List.mem_append_left _ member
    exact Polling.callback_unique kept there same
  · intro agrees
    have member := Polling.mem_fdAdd uninit checked agrees
    obtain ⟨index, item, there, same, events⟩ := polling.fdAdd_entry uninit checked
    obtain ⟨callback, callback_there, callback_key⟩ := Polling.exists_callback there
    obtain rfl : callback = desc := Polling.callback_unique (List.mem_of_getElem? callback_there)
      member (callback_key.trans same)
    refine ⟨⟨index, item, there, same, events, callback_there, fun index' item' there' same' => ?_⟩,
      fun _ _ _ leaves ready => Polling.next_dispatch member leaves ready,
      Polling.fdAdd_other_callbacks uninit, Polling.fdAdd_other_items uninit⟩
    exact Polling.position_unique there' there (same'.trans same.symm)

/-! ## What a run of calls registers -/

/-- Registering puts a descriptor in the place of the one with its key, or last. -/
def register (desc : FileDesc) (registered : List FileDesc) : List FileDesc :=
  if ∃ other ∈ registered, other.key = desc.key then
    registered.map fun other => if other.key = desc.key then desc else other
  else
    registered ++ [desc]

/-- What a call means for the registered descriptors. -/
def FdCall.meaning : FdCall → List FileDesc → List FileDesc
  | .fdAdd desc, registered =>
      if desc.bk ≠ none ∧ (0 ≤ desc.fd ∨ desc.socket ≠ none) then
        register desc registered
      else
        registered
  | .fdRemove desc, registered => registered.filter fun other => other.key ≠ desc.key

/-- No call registers a descriptor under the key of another one. -/
def Agreeing : List FdCall → List FileDesc → Prop
  | [], _ => True
  | call :: calls, registered =>
      (∀ desc, call = .fdAdd desc → ∀ other ∈ registered, other.key = desc.key → other = desc) ∧
        Agreeing calls (call.meaning registered)

/-- The tables hold what is registered: its callbacks, and the events that these ask for. -/
structure Mirrors (registered : List FileDesc) (polling : Polling) : Prop where
  /-- The callbacks are the registered descriptors. -/
  callbacks : polling.callback_ = registered
  /-- Every item polls what the callback of its key asks for. -/
  events : ∀ desc ∈ polling.callback_, ∀ item ∈ polling.fd_, item.key = desc.key →
    item.events = desc.events

namespace Mirrors

variable {registered : List FileDesc} {polling : Polling}

theorem fdAdd (mirrors : Mirrors registered polling) {desc : FileDesc} (uninit : Nat)
    (agrees : ∀ other ∈ registered, other.key = desc.key → other = desc) :
    Mirrors (FdCall.meaning (.fdAdd desc) registered) (polling.fdAdd uninit desc).2 := by
  obtain ⟨rfl, events⟩ := mirrors
  simp only [FdCall.meaning]
  split_ifs with checked
  · have callbacks := polling.fdAdd_callback uninit checked
    refine ⟨?_, fun other member item there same => ?_⟩
    · have keys : desc.key ∈ polling.keys ↔ ∃ other ∈ polling.callback_, other.key = desc.key := by
        rw [polling.keys_eq_callback, List.mem_map]
      rw [callbacks, register, if_congr keys rfl rfl]
      split_ifs with known
      · have replaced : ∀ other ∈ polling.callback_,
            (if other.key = desc.key then desc else other) = other := by
          intro other member
          split_ifs with same
          · exact (agrees other member same).symm
          · rfl
        exact ((List.map_congr_left replaced).trans (List.map_id _)).symm
      · rfl
    · by_cases own : other.key = desc.key
      · obtain rfl : other = desc :=
          Polling.callback_unique member (Polling.mem_fdAdd uninit checked agrees) own
        obtain ⟨index, entry, entry_there, entry_key, entry_events⟩ :=
          polling.fdAdd_entry uninit checked
        obtain rfl : item = entry := Polling.item_unique there
          (List.mem_of_getElem? entry_there) (same.trans entry_key.symm)
        exact entry_events
      · -- Neither the callback nor the item is the one that was added.
        have member_before : other ∈ polling.callback_.filter fun other => other.key ≠ desc.key :=
          polling.fdAdd_other_callbacks uninit ▸ List.mem_filter.mpr ⟨member, by simpa using own⟩
        have there_before : item ∈ polling.fd_.filter fun item => item.key ≠ desc.key :=
          polling.fdAdd_other_items uninit ▸
            List.mem_filter.mpr ⟨there, by simpa [same] using own⟩
        exact events other (List.mem_of_mem_filter member_before) item
          (List.mem_of_mem_filter there_before) same
  · rw [Polling.fdAdd_refused uninit checked]
    exact ⟨rfl, events⟩

theorem fdRemove (mirrors : Mirrors registered polling) (desc : FileDesc) :
    Mirrors (FdCall.meaning (.fdRemove desc) registered) (polling.fdRemove desc) := by
  obtain ⟨rfl, events⟩ := mirrors
  obtain ⟨callbacks, items⟩ := polling.fdRemove_eq_filter desc
  refine ⟨callbacks, fun other member item there same => ?_⟩
  rw [callbacks] at member
  rw [items] at there
  exact events other (List.mem_of_mem_filter member) item (List.mem_of_mem_filter there) same

/-- As long as the calls agree, the tables follow them. -/
theorem performFdCalls (calls : List FdCall) (uninit : Nat → Nat)
    (mirrors : Mirrors registered polling) (agreeing : Agreeing calls registered) :
    Mirrors (calls.foldl (fun registered call => call.meaning registered) registered)
      (C3qo.performFdCalls uninit calls polling).2 := by
  induction calls generalizing uninit registered polling with
  | nil => exact mirrors
  | cons call calls ih =>
      obtain ⟨agrees, rest⟩ := agreeing
      cases call with
      | fdAdd desc => exact ih _ (mirrors.fdAdd (uninit 0) (agrees desc rfl)) rest
      | fdRemove desc => exact ih _ (mirrors.fdRemove desc) rest

end Mirrors

/-- Registering an accepted descriptor is an upsert if and only if its key was not registered, or
with that descriptor; a refused one changes nothing. A run of calls in which no descriptor meets
another one under its key leaves the tables as the calls mean them. -/
theorem fdAdd_upserts_iff (polling : Polling) (uninit : Nat) (desc : FileDesc) :
    (desc.bk ≠ none ∧ (0 ≤ desc.fd ∨ desc.socket ≠ none) →
      (polling.fdAdd uninit desc).1 = true ∧
        (Upserted polling desc (polling.fdAdd uninit desc).2 ↔
          ∀ other ∈ polling.callback_, other.key = desc.key → other = desc)) ∧
    ((polling.fdAdd uninit desc).1 = false → (polling.fdAdd uninit desc).2 = polling) ∧
    ∀ calls memory, Agreeing calls [] →
      Mirrors (calls.foldl (fun registered call => call.meaning registered) [])
        (performFdCalls memory calls .empty).2 := by
  have accepted : desc.bk ≠ none ∧ (0 ≤ desc.fd ∨ desc.socket ≠ none) →
      (polling.fdAdd uninit desc).1 = true := by
    intro checked
    cases found : polling.fdFind desc.key with
    | some index => rw [Polling.fdAdd_known uninit checked found]
    | none => rw [Polling.fdAdd_unknown uninit checked found]
  refine ⟨fun checked => ⟨accepted checked, upserted_iff uninit checked⟩, fun refused => ?_,
    fun calls memory agreeing => ?_⟩
  · by_cases checked : desc.bk ≠ none ∧ (0 ≤ desc.fd ∨ desc.socket ≠ none)
    · rw [accepted checked] at refused
      cases refused
    · rw [Polling.fdAdd_refused uninit checked]
  · exact Mirrors.performFdCalls calls memory ⟨rfl, by simp [Polling.empty]⟩ agreeing

/-- With another descriptor there, one is registered, and then again under its key. -/
theorem fdAdd_upserts_known :
    let other := (⟨some 1, 4, none, true, true⟩ : FileDesc)
    let desc := (⟨some 0, 3, none, true, false⟩ : FileDesc)
    let polling := (performFdCalls (fun _ => 0) [.fdAdd other, .fdAdd desc] .empty).2
    desc.key ∈ polling.keys ∧ (polling.fdAdd 0 desc).1 = true ∧
      Upserted polling desc (polling.fdAdd 0 desc).2 ∧
      Mirrors [other, desc]
        (performFdCalls (fun _ => 0) [.fdAdd other, .fdAdd desc, .fdAdd desc] .empty).2 := by
  intro other desc polling
  obtain ⟨accepts, -, runs⟩ := fdAdd_upserts_iff polling 0 desc
  obtain ⟨accepted, upserted⟩ := accepts (by decide)
  refine ⟨by decide, accepted, upserted.mpr (by decide), ?_⟩
  refine runs [.fdAdd other, .fdAdd desc, .fdAdd desc] (fun _ => 0) ?_
  simp [Agreeing, FdCall.meaning, register, other, desc, FileDesc.key]

/-- The failing call: a file descriptor that is known goes to another block, for write events too.
The call succeeds, and the events asked for go to the first block. -/
theorem fdAdd_not_upserts :
    let first := (⟨some 0, 3, none, true, false⟩ : FileDesc)
    let second := (⟨some 1, 3, none, true, true⟩ : FileDesc)
    let polling := (Polling.empty.fdAdd 0 first).2
    (polling.fdAdd 0 second).1 = true ∧
      ¬ Upserted polling second (polling.fdAdd 0 second).2 := by
  intro first second polling
  refine ⟨by decide, ?_⟩
  rintro ⟨⟨index, item, -, -, -, stored, -⟩, -⟩
  exact absurd (List.mem_of_getElem? stored) (by decide)

end C3qo
