import C3qo.Journal
import C3qo.HookZmq

/-!
# The store of blocks

What `c3qo` is for, without pointers, sockets and data flows: a store of blocks by identifier, in
which commands add, start, stop, connect, configure and remove blocks. A block is known by how
many blocks had been added before it, also after it has been removed.
-/

namespace C3qo

open Journal

/-- The configuration of a hook. -/
structure Settings where
  /-- Either client or server. -/
  client : Bool
  /-- ZMQ socket type. -/
  type_ : Int
  /-- Identity of the hook. -/
  name : String
  /-- Address to connect or bind. -/
  addr : String
  deriving DecidableEq

/-- A block in the store. -/
structure Entry where
  /-- How many blocks had been added before. -/
  number : Nat
  /-- Block type. -/
  type_ : String
  /-- Block state. -/
  started : Bool
  /-- The number of the block that it is bound to. -/
  sink : Option Nat
  /-- Its configuration, if it is a hook. -/
  settings : Option Settings
  deriving DecidableEq

/-- A store of blocks. -/
@[ext] structure Store where
  /-- The blocks by identifier. -/
  entries : Int → Option Entry
  /-- How many blocks have been added. -/
  next : Nat
  /-- The end of the program has been requested. -/
  terminated : Bool

namespace Store

/-- Nothing in it, and nothing to run yet. -/
def empty : Store := ⟨fun _ => none, 0, true⟩

/-- The store with another block under an identifier, or none. -/
def set (store : Store) (id : Int) (entry : Option Entry) : Store :=
  { store with entries := Function.update store.entries id entry }

/-- Rewrite or drop the block under an identifier, unless there is none or it is refused. -/
def revise (store : Store) (id : Int) (revised : Entry → Option (Option Entry)) : Bool × Store :=
  match (store.entries id).bind revised with
  | none => (false, store)
  | some entry => (true, store.set id entry)

/-- The configuration of a new block, for the types that there are. -/
def newborn (type_ : String) : Option (Option Settings) :=
  if type_ = "hello" then some none
  else if type_ = "trans_pb" then some none
  else if type_ = "hook_zmq" then some (some ⟨false, ZMQ_PAIR, "", "tcp://127.0.0.1:6666"⟩)
  else none

/-- Execute a command: whether it succeeds, and what it leaves. -/
def execute : Command → Store → Bool × Store
  | .add id type_, store =>
      match store.entries id, newborn type_ with
      | none, some settings =>
          (true, { store.set id (some ⟨store.next, type_, false, none, settings⟩) with
            next := store.next + 1 })
      | _, _ => (false, store)
  | .start id, store => store.revise id fun entry => some (some { entry with started := true })
  | .stop id, store => store.revise id fun entry => some (some { entry with started := false })
  | .del id, store => store.revise id fun entry => if entry.started then none else some none
  | .bind id _ dest, store => store.revise id fun entry =>
      (store.entries dest).map fun target => some { entry with sink := some target.number }
  | .hookZmq id client type_ name addr, store => store.revise id fun entry =>
      entry.settings.map fun _ => some { entry with settings := some ⟨client, type_, name, addr⟩ }
  | .term, store => (true, { store with terminated := true })
  | .notSet, store => (false, store)

theorem revise_of_some {store : Store} {id : Int} {revised : Entry → Option (Option Entry)}
    {entry : Option Entry} (done : (store.entries id).bind revised = some entry) :
    store.revise id revised = (true, store.set id entry) := by
  simp only [revise, done]

theorem revise_of_none {store : Store} {id : Int} {revised : Entry → Option (Option Entry)}
    (refused : (store.entries id).bind revised = none) :
    store.revise id revised = (false, store) := by
  simp only [revise, refused]

@[simp] theorem entries_set (store : Store) (id : Int) (entry : Option Entry) :
    (store.set id entry).entries id = entry := Function.update_self ..

theorem entries_set_of_ne (store : Store) {id other : Int} (entry : Option Entry)
    (different : other ≠ id) : (store.set id entry).entries other = store.entries other :=
  Function.update_of_ne different ..

/-- All blocks are of the types that there are. -/
def Typed (store : Store) : Prop :=
  ∀ id entry, store.entries id = some entry → (newborn entry.type_).isSome = true

theorem Typed.set {store : Store} (typed : store.Typed) (id : Int) {entry : Option Entry}
    (known : ∀ block, entry = some block → (newborn block.type_).isSome = true) :
    (store.set id entry).Typed := by
  intro other block there
  by_cases same : other = id
  · rw [same, entries_set] at there
    exact known block there
  · rw [entries_set_of_ne _ _ same] at there
    exact typed other block there

/-- Rewriting a block does not change its type. -/
theorem Typed.revise {store : Store} (typed : store.Typed) (id : Int)
    {revised : Entry → Option (Option Entry)}
    (kept : ∀ old new, revised old = some (some new) → new.type_ = old.type_) :
    (store.revise id revised).2.Typed := by
  rcases done : (store.entries id).bind revised with _ | entry
  · rw [revise_of_none done]
    exact typed
  · rw [revise_of_some done]
    refine typed.set id fun block same => ?_
    subst same
    obtain ⟨old, there, rewritten⟩ := Option.bind_eq_some_iff.mp done
    rw [kept old block rewritten]
    exact typed id old there

/-- Commands keep blocks of the types that there are. -/
theorem typed_execute (command : Command) {store : Store} (typed : store.Typed) :
    (store.execute command).2.Typed := by
  cases command with
  | add id type_ =>
      simp only [execute]
      split
      · rename_i settings free known
        have added : (store.set id (some ⟨store.next, type_, false, none, settings⟩)).Typed := by
          apply typed.set id
          rintro block ⟨⟩
          exact Option.isSome_iff_exists.mpr ⟨settings, known⟩
        exact added
      · exact typed
  | start id => exact typed.revise id fun old new same => by cases same; rfl
  | stop id => exact typed.revise id fun old new same => by cases same; rfl
  | del id =>
      refine typed.revise id fun old new same => ?_
      split_ifs at same
      cases same
  | bind id port dest =>
      refine typed.revise id fun old new same => ?_
      obtain ⟨target, -, rewritten⟩ := Option.map_eq_some_iff.mp same
      cases rewritten
      rfl
  | hookZmq id client type_ name addr =>
      refine typed.revise id fun old new same => ?_
      obtain ⟨settings, -, rewritten⟩ := Option.map_eq_some_iff.mp same
      cases rewritten
      rfl
  | term => exact typed
  | notSet => exact typed

/-- Only TERM requests the end of the program. -/
theorem terminated_execute (command : Command) (store : Store) :
    (store.execute command).2.terminated = (store.terminated || decide (command = .term)) := by
  have revised : ∀ id rewrite, command ≠ .term → (store.revise id rewrite).2.terminated =
      (store.terminated || decide (command = .term)) := by
    intro id rewrite other
    rw [decide_eq_false other, Bool.or_false]
    unfold revise
    split <;> rfl
  cases command with
  | add id type_ =>
      simp only [execute]
      split <;> simp [set]
  | start id => exact revised id _ (by simp)
  | stop id => exact revised id _ (by simp)
  | del id => exact revised id _ (by simp)
  | bind id port dest => exact revised id _ (by simp)
  | hookZmq id client type_ name addr => exact revised id _ (by simp)
  | term => exact (Bool.or_true _).symm
  | notSet => exact (Bool.or_false _).symm

/-- The end of the program has been requested if it was before, or by one of the commands. -/
theorem terminated_replay (commands : List Command) (store : Store) :
    (replay execute commands store).2.terminated =
      (store.terminated || decide (.term ∈ commands)) := by
  induction commands generalizing store with
  | nil => simp
  | cons command commands ih =>
      change (replay execute commands (store.execute command).2).2.terminated = _
      rw [ih, terminated_execute, Bool.or_assoc]
      simp [eq_comm]

end Store

/-- The commands that `main` executes itself. -/
def setup (identity : String) : List Command :=
  [.add (-1) "hook_zmq", .hookZmq (-1) true ZMQ_DEALER identity "tcp://127.0.0.1:1664",
    .start (-1), .add (-2) "trans_pb", .start (-2), .bind (-1) 0 (-2), .bind (-2) 0 (-1)]

/-- The store when the main loop is entered. -/
def Store.entered (identity : String) : Store :=
  { (replay Store.execute (setup identity) Store.empty).2 with terminated := false }

end C3qo
