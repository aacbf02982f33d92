import C3qo.Manager

/-!
# Data flows

`block::process_data_`: data moves from a block to its sink, and on to the sink of that one as
long as `data_` asks to forward it. The loop has no bound of its own, so the model counts rounds.
Using an object that has been destroyed is a fault.
-/

namespace C3qo

/-- Why a run of the model stops without a result. -/
inductive Fault
  /-- The rounds given to the model are used up. -/
  | outOfFuel
  /-- A block is used after its destruction. -/
  | dangling (ref : BlockRef)
  /-- A block has been destroyed while one of its own functions was running. -/
  | underFoot (ref : BlockRef)
  /-- A block is used as a kind of block that it is not. -/
  | badCast (ref : BlockRef)
  deriving DecidableEq

variable {F W : Type}

/-- `block::process_data_`, over the `data_` callback of each block. -/
def processData (data_ : BlockRef → Manager F W → Except Fault (Bool × Manager F W)) :
    Nat → BlockRef → Manager F W → Except Fault (Manager F W)
  | 0, _, _ => .error .outOfFuel
  | fuel + 1, current, manager =>
      match manager.blocks.deref current with
      | none => .error (.dangling current)
      | some block =>
          match block.sink_ with
          | none => .ok manager
          | some sink =>
              match manager.blocks.deref sink with
              | none => .error (.dangling sink)
              | some _ =>
                  match data_ sink manager with
                  | .error fault => .error fault
                  | .ok (true, manager) => processData data_ fuel sink manager
                  | .ok (false, manager) => .ok manager

section

variable {data_ : BlockRef → Manager F W → Except Fault (Bool × Manager F W)} {fuel : Nat}
  {current sink : BlockRef} {manager : Manager F W} {block target : Block}

theorem processData_of_unbound (object : manager.blocks.deref current = some block)
    (unbound : block.sink_ = none) :
    processData data_ (fuel + 1) current manager = .ok manager := by
  simp [processData, object, unbound]

theorem processData_of_dangling (object : manager.blocks.deref current = some block)
    (bound : block.sink_ = some sink) (dead : manager.blocks.deref sink = none) :
    processData data_ (fuel + 1) current manager = .error (.dangling sink) := by
  simp [processData, object, bound, dead]

/-- A flow hands its data to the sink, and goes on from there if that asks for it. -/
theorem processData_of_bound (object : manager.blocks.deref current = some block)
    (bound : block.sink_ = some sink) (live : manager.blocks.deref sink = some target) :
    processData data_ (fuel + 1) current manager =
      match data_ sink manager with
      | .error fault => .error fault
      | .ok (true, manager) => processData data_ fuel sink manager
      | .ok (false, manager) => .ok manager := by
  simp only [processData, object, bound, live]

/-- A flow keeps what the `data_` callbacks keep. -/
theorem processData_preserves {Holds : Manager F W → Prop}
    (kept : ∀ sink before forward after, Holds before →
      data_ sink before = .ok (forward, after) → Holds after)
    {after : Manager F W} (start : Holds manager)
    (done : processData data_ fuel current manager = .ok after) : Holds after := by
  induction fuel generalizing current manager with
  | zero => cases done
  | succ fuel ih =>
      unfold processData at done
      split at done
      · cases done
      · split at done
        · obtain rfl := Except.ok.inj done
          exact start
        · split at done
          · cases done
          · split at done
            · cases done
            · rename_i next handed
              exact ih (kept _ _ _ next start handed) done
            · rename_i next handed
              obtain rfl := Except.ok.inj done
              exact kept _ _ _ _ start handed

end

end C3qo
