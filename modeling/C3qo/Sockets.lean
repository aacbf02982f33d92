import C3qo.Blocks
import Mathlib.Logic.Function.Basic

/-!
# Who holds which socket

A hook that is started claims the context that was made for it and the socket created there. The
claims are kept apart by the contexts, no matter which addresses the library gives out again, and
starting and stopping a hook add and remove its claim.
-/

namespace C3qo

/-- What a started hook holds. -/
structure Claim where
  /-- Its context. -/
  ctx : Nat
  /-- Its descriptor. -/
  desc : FileDesc
  deriving DecidableEq

/-- The socket that is held, or null if none was created. -/
def Claim.socket (claim : Claim) : Pointer := claim.desc.socket

/-- The claims are those of different blocks on different contexts, and each claimed socket is
open in its context. -/
structure Custody (claims : BlockRef → Option Claim) (zmq : Zmq) : Prop where
  /-- No context is claimed twice. -/
  apart : ∀ ref other claim claim', claims ref = some claim → claims other = some claim' →
    claim.ctx = claim'.ctx → ref = other
  /-- Claimed contexts have been made before. -/
  old : ∀ ref claim, claims ref = some claim → claim.ctx < zmq.calls
  /-- So have the contexts of open sockets. -/
  created : ∀ address socket, zmq.lookup address = some socket → socket.ctx < zmq.calls
  /-- A claimed socket is open in the claimed context. -/
  opened : ∀ ref claim address, claims ref = some claim → claim.socket = some address →
    ∃ socket, zmq.lookup (some address) = some socket ∧ socket.ctx = claim.ctx

/-- Besides, nothing else is open. -/
structure Tidy (claims : BlockRef → Option Claim) (zmq : Zmq) : Prop
    extends Custody claims zmq where
  /-- The open contexts are the claimed ones. -/
  contexts : ∀ ctx, ctx ∈ zmq.contexts ↔ ∃ ref claim, claims ref = some claim ∧ claim.ctx = ctx
  /-- The open sockets are claimed. -/
  owned : ∀ address socket, zmq.lookup (some address) = some socket →
    ∃ ref claim, claims ref = some claim ∧ claim.socket = some address

namespace Zmq

/-- The answer of `zmq_socket` in a new context: null, or the address of a socket that has been
opened there. -/
theorem create_cases (platform : Platform) (zmq : Zmq) :
    ((zmq.ctxNew.2.socket platform zmq.calls).1 = none ∧
        ∀ other, (zmq.ctxNew.2.socket platform zmq.calls).2.lookup other = zmq.lookup other) ∨
      ∃ address socket, (zmq.ctxNew.2.socket platform zmq.calls).1 = some address ∧
        socket.ctx = zmq.calls ∧ zmq.lookup (some address) = none ∧
        ∀ other, (zmq.ctxNew.2.socket platform zmq.calls).2.lookup other =
          if other = some address then some socket else zmq.lookup other := by
  unfold socket
  split
  · exact .inl ⟨rfl, fun _ => rfl⟩
  · rename_i address _
    split_ifs with taken
    · exact .inl ⟨rfl, fun _ => rfl⟩
    · refine .inr ⟨address, ⟨zmq.calls, [], [], []⟩, rfl, rfl,
        Finmap.lookup_eq_none.mpr taken, fun other => ?_⟩
      cases other with
      | none => rfl
      | some other =>
          simp only [Option.some.injEq]
          split_ifs with same
          · subst same
            exact Finmap.lookup_insert _
          · exact Finmap.lookup_insert_of_ne _ same

theorem contexts_create (platform : Platform) (zmq : Zmq) :
    (zmq.ctxNew.2.socket platform zmq.calls).2.contexts = insert zmq.calls zmq.contexts := by
  unfold socket
  split
  · rfl
  · split_ifs <;> rfl

theorem calls_create (platform : Platform) (zmq : Zmq) :
    (zmq.ctxNew.2.socket platform zmq.calls).2.calls = zmq.calls + 2 := by
  unfold socket
  split
  · rfl
  · split_ifs <;> rfl

theorem lookup_close (zmq : Zmq) (address other : Pointer) :
    (zmq.close address).lookup other = if other = address then none else zmq.lookup other := by
  split_ifs with same
  · subst same
    cases other with
    | none => rfl
    | some other => exact Finmap.lookup_erase _ _
  · exact zmq.lookup_close_of_ne (Ne.symm same)

theorem calls_close (zmq : Zmq) (address : Pointer) :
    (zmq.close address).calls = zmq.calls + 1 := by
  cases address <;> rfl

theorem contexts_close (zmq : Zmq) (address : Pointer) :
    (zmq.close address).contexts = zmq.contexts := by
  cases address <;> rfl

end Zmq

/-! ## Custody -/

namespace Custody

variable {claims : BlockRef → Option Claim} {before after : Zmq}

theorem keeps (custody : Custody claims before) (kept : before.Keeps after) :
    Custody claims after := by
  refine ⟨custody.apart, fun ref claim held => ?_, fun address socket there => ?_,
    fun ref claim address held named => ?_⟩
  · exact Nat.lt_of_lt_of_le (custody.old ref claim held) kept.calls
  · obtain ⟨socket', there', same⟩ := kept.symm_opened there
    rw [← same]
    exact Nat.lt_of_lt_of_le (custody.created address socket' there') kept.calls
  · obtain ⟨socket, there, same⟩ := custody.opened ref claim address held named
    obtain ⟨socket', there', same'⟩ := kept.opened there
    exact ⟨socket', there', same'.trans same⟩

/-- No socket is claimed twice. -/
theorem socket_inj (custody : Custody claims before) {ref other : BlockRef} {claim claim' : Claim}
    {address : Nat} (held : claims ref = some claim) (held' : claims other = some claim')
    (named : claim.socket = some address) (named' : claim'.socket = some address) :
    ref = other := by
  obtain ⟨socket, there, own⟩ := custody.opened ref claim address held named
  obtain ⟨socket', there', own'⟩ := custody.opened other claim' address held' named'
  obtain rfl := Option.some.inj (there.symm.trans there')
  exact custody.apart ref other claim claim' held held' (own.symm.trans own')

/-- The context made for a new claim is not the one of an old claim, and its socket is none that
was open before. -/
theorem claim (custody : Custody claims before) (platform : Platform) (ref : BlockRef)
    (made : Claim) (ctx : made.ctx = before.calls)
    (socket : made.socket = (before.ctxNew.2.socket platform before.calls).1) :
    Custody (Function.update claims ref (some made))
      (before.ctxNew.2.socket platform before.calls).2 := by
  have later := before.calls_create platform
  have answer := before.create_cases platform
  have new_or_old : ∀ other claim, Function.update claims ref (some made) other = some claim →
      other = ref ∧ claim = made ∨ claims other = some claim := by
    intro other claim held
    rw [Function.update_apply] at held
    split_ifs at held with same
    · exact .inl ⟨same, (Option.some.inj held).symm⟩
    · exact .inr held
  refine ⟨fun left right first second held held' same => ?_, fun other claim held => ?_,
    fun address open_ there => ?_, fun other claim address held named => ?_⟩
  · rcases new_or_old left first held with ⟨here, rfl⟩ | old <;>
      rcases new_or_old right second held' with ⟨here', rfl⟩ | old'
    · exact here.trans here'.symm
    · exact absurd (ctx.symm.trans same) (Nat.ne_of_gt (custody.old right second old'))
    · exact absurd (same.trans ctx) (Nat.ne_of_lt (custody.old left first old))
    · exact custody.apart left right first second old old' same
  · rcases new_or_old other claim held with ⟨-, rfl⟩ | held
    · omega
    · have old := custody.old other claim held
      omega
  · rcases answer with ⟨-, others⟩ | ⟨fresh, new, -, made_in, -, others⟩ <;> rw [others] at there
    · have old := custody.created address open_ there
      omega
    · split_ifs at there
      · obtain rfl := Option.some.inj there
        omega
      · have old := custody.created address open_ there
        omega
  · rcases new_or_old other claim held with ⟨-, rfl⟩ | held
    · rw [socket] at named
      rcases answer with ⟨null, -⟩ | ⟨fresh, new, given, made_in, -, others⟩
      · rw [null] at named
        cases named
      · obtain rfl := Option.some.inj (given.symm.trans named)
        exact ⟨new, (others _).trans (if_pos rfl), made_in.trans ctx.symm⟩
    · obtain ⟨open_, there, same⟩ := custody.opened other claim address held named
      rcases answer with ⟨-, others⟩ | ⟨fresh, new, -, -, free, others⟩
      · exact ⟨open_, (others _).trans there, same⟩
      · refine ⟨open_, (others _).trans ((if_neg ?_).trans there), same⟩
        rintro reused
        rw [reused, free] at there
        cases there

/-- What one block gives up is not what another one holds. -/
theorem release (custody : Custody claims before) {ref : BlockRef} {claim : Claim}
    (held : claims ref = some claim) :
    Custody (Function.update claims ref none)
      ((before.close claim.socket).ctxTerm claim.ctx) := by
  have later : before.calls < ((before.close claim.socket).ctxTerm claim.ctx).calls := by
    simp only [Zmq.ctxTerm, Zmq.tick, Zmq.calls_close]
    omega
  have lookup : ∀ other, ((before.close claim.socket).ctxTerm claim.ctx).lookup other =
      if other = claim.socket then none else before.lookup other := before.lookup_close _
  have others : ∀ other held', Function.update claims ref none other = some held' →
      other ≠ ref ∧ claims other = some held' := by
    intro other held' kept
    rw [Function.update_apply] at kept
    split_ifs at kept with same
    exact ⟨same, kept⟩
  refine ⟨fun left right first second kept kept' same => ?_, fun other held' kept => ?_,
    fun address socket there => ?_, fun other held' address kept named => ?_⟩
  · exact custody.apart left right first second (others left first kept).2
      (others right second kept').2 same
  · exact (custody.old other held' (others other held' kept).2).trans later
  · rw [lookup] at there
    split_ifs at there
    exact (custody.created address socket there).trans later
  · obtain ⟨different, kept⟩ := others other held' kept
    obtain ⟨socket, there, own⟩ := custody.opened other held' address kept named
    refine ⟨socket, (lookup _).trans ((if_neg ?_).trans there), own⟩
    exact fun shared => different (custody.socket_inj kept held named shared.symm)

end Custody

/-! ## Tidiness -/

namespace Tidy

variable {claims : BlockRef → Option Claim} {before after : Zmq}

/-- Without claims nothing is open. -/
theorem unclaimed : Tidy (fun _ => none) .empty := by
  refine ⟨⟨?_, ?_, ?_, ?_⟩, ?_, ?_⟩
  · intro _ _ _ _ held
    cases held
  · intro _ _ held
    cases held
  · intro address _ there
    cases address <;> cases there
  · intro _ _ _ held
    cases held
  · exact fun ctx => iff_of_false (Finset.notMem_empty ctx) fun ⟨_, _, held, _⟩ => by cases held
  · intro _ _ there
    cases there

theorem keeps (tidy : Tidy claims before) (kept : before.Keeps after) : Tidy claims after := by
  refine ⟨tidy.toCustody.keeps kept, fun ctx => ?_, fun address socket there => ?_⟩
  · rw [kept.contexts]
    exact tidy.contexts ctx
  · obtain ⟨socket', there', -⟩ := kept.symm_opened there
    exact tidy.owned address socket' there'

theorem claim (tidy : Tidy claims before) (platform : Platform) {ref : BlockRef}
    (free : claims ref = none) (made : Claim) (ctx : made.ctx = before.calls)
    (socket : made.socket = (before.ctxNew.2.socket platform before.calls).1) :
    Tidy (Function.update claims ref (some made))
      (before.ctxNew.2.socket platform before.calls).2 := by
  have kept : ∀ other claim, claims other = some claim →
      Function.update claims ref (some made) other = some claim := by
    intro other claim held
    rw [Function.update_of_ne, held]
    rintro rfl
    rw [free] at held
    cases held
  refine ⟨tidy.toCustody.claim platform ref made ctx socket, fun other => ?_,
    fun address open_ there => ?_⟩
  · rw [Zmq.contexts_create, Finset.mem_insert, tidy.contexts]
    constructor
    · rintro (rfl | ⟨owner, claim, held, rfl⟩)
      · exact ⟨ref, made, Function.update_self .., ctx⟩
      · exact ⟨owner, claim, kept owner claim held, rfl⟩
    · rintro ⟨owner, claim, held, rfl⟩
      rw [Function.update_apply] at held
      split_ifs at held
      · obtain rfl := Option.some.inj held
        exact .inl ctx
      · exact .inr ⟨owner, claim, held, rfl⟩
  · rcases before.create_cases platform with ⟨-, others⟩ | ⟨fresh, new, given, -, -, others⟩ <;>
      rw [others] at there
    · obtain ⟨owner, claim, held, named⟩ := tidy.owned address open_ there
      exact ⟨owner, claim, kept owner claim held, named⟩
    · split_ifs at there with same
      · exact ⟨ref, made, Function.update_self .., socket.trans (given.trans same.symm)⟩
      · obtain ⟨owner, claim, held, named⟩ := tidy.owned address open_ there
        exact ⟨owner, claim, kept owner claim held, named⟩

theorem release (tidy : Tidy claims before) {ref : BlockRef} {claim : Claim}
    (held : claims ref = some claim) :
    Tidy (Function.update claims ref none)
      ((before.close claim.socket).ctxTerm claim.ctx) := by
  refine ⟨tidy.toCustody.release held, fun ctx => ?_, fun address socket there => ?_⟩
  · simp only [Zmq.ctxTerm, Zmq.contexts_close, Finset.mem_erase, tidy.contexts,
      Function.update_apply]
    constructor
    · rintro ⟨different, other, other', held', rfl⟩
      refine ⟨other, other', ?_, rfl⟩
      rw [if_neg, held']
      rintro rfl
      obtain rfl := Option.some.inj (held.symm.trans held')
      exact different rfl
    · rintro ⟨other, other', held', rfl⟩
      split_ifs at held' with same
      exact ⟨fun shared => same (tidy.apart other ref other' claim held' held shared),
        other, other', held', rfl⟩
  · have there' : (before.close claim.socket).lookup (some address) = some socket := there
    rw [Zmq.lookup_close] at there'
    split_ifs at there' with own
    obtain ⟨other, other', held', named⟩ := tidy.owned address socket there'
    refine ⟨other, other', ?_, named⟩
    rw [Function.update_of_ne, held']
    rintro rfl
    obtain rfl := Option.some.inj (held.symm.trans held')
    exact own named.symm

end Tidy

/-! ## The claims of the blocks -/

/-- What a hook holds while it is started. -/
def HookZmq.claim (hook : HookZmq) : Claim := ⟨hook.zmq_ctx_, hook.zmq_sock_⟩

/-- What a block of a kind holds while it is started. -/
def Derived.claim : Derived → Option Claim
  | .hookZmq hook => some hook.claim
  | _ => none

namespace World

variable {world : World} {blocks : Registry} {ref : BlockRef} {block : Block}

/-- What the started blocks hold. -/
def claims (world : World) (blocks : Registry) (ref : BlockRef) : Option Claim :=
  if blocks.started ref then world.derived.lookup ref >>= Derived.claim else none

theorem claims_eq_some_iff {claim : Claim} : world.claims blocks ref = some claim ↔
    blocks.started ref = true ∧ ∃ hook, world.derived.lookup ref = some (.hookZmq hook) ∧
      claim = hook.claim := by
  unfold claims
  split_ifs with running
  · rcases kind : world.derived.lookup ref with _ | ⟨_ | _ | hook⟩ <;>
      simp [Derived.claim, running, eq_comm]
  · simp [running]

theorem claims_of_hook (running : blocks.started ref = true) {hook : HookZmq}
    (there : world.derived.lookup ref = some (.hookZmq hook)) :
    world.claims blocks ref = some hook.claim :=
  claims_eq_some_iff.mpr ⟨running, hook, there, rfl⟩

/-- Only the started blocks and what they hold matter. -/
theorem claims_congr {world' : World} {blocks' : Registry}
    (started : ∀ ref, blocks'.started ref = blocks.started ref)
    (held : ∀ ref, blocks.started ref = true →
      world'.derived.lookup ref >>= Derived.claim = world.derived.lookup ref >>= Derived.claim) :
    world'.claims blocks' = world.claims blocks := by
  funext ref
  unfold claims
  rw [started]
  split_ifs with running
  · exact held ref running
  · rfl

theorem claims_insert {platform : Platform} {factory : Factory} {after : World} {built : Bool}
    (answer : constructor platform factory blocks.next world = (built, after)) (id : Int)
    (type_ : String) (free : blocks.get id = none) :
    after.claims (blocks.insert id type_ free) = world.claims blocks := by
  obtain ⟨-, -, -, others⟩ := constructor_frame answer
  refine claims_congr (blocks.started_insert id type_ free) fun other running => ?_
  rw [others other (Registry.ne_next_of_started running)]

theorem claims_destructor (object : blocks.deref ref = some block)
    (idle : block.is_started_ = false) :
    (world.destructor ref).claims (blocks.remove block.id_) = world.claims blocks := by
  refine claims_congr (Registry.started_remove object idle) fun other running => ?_
  rw [destructor, Finmap.lookup_erase_ne (Registry.ne_of_started object idle running)]

/-- A hook that starts claims what it has been given. -/
theorem claims_start_hook (platform : Platform) (object : blocks.deref ref = some block)
    {hook : HookZmq} (there : world.derived.lookup ref = some (.hookZmq hook)) :
    (world.start_ platform ref).claims (blocks.setStarted ref true) =
      Function.update (world.claims blocks) ref
        (some (hook.start_ platform ref world.polling world.zmq).1.claim) := by
  funext other
  by_cases same : other = ref
  · subst same
    rw [Function.update_self]
    refine claims_of_hook ?_ ?_
    · rw [Registry.started_setStarted object, if_pos rfl]
    · simp only [start_, there]
      exact Finmap.lookup_insert _
  · rw [Function.update_of_ne same]
    unfold claims
    rw [Registry.started_setStarted object, if_neg same]
    simp only [start_, there, withHook]
    rw [Finmap.lookup_insert_of_ne _ same]

/-- Starting a block that is not a hook claims nothing. -/
theorem claims_setStarted_other (object : blocks.deref ref = some block)
    (idle : block.is_started_ = false)
    (other : ∀ hook, world.derived.lookup ref ≠ some (.hookZmq hook)) :
    world.claims (blocks.setStarted ref true) = world.claims blocks := by
  funext ref'
  unfold claims
  rw [Registry.started_setStarted object]
  by_cases same : ref' = ref
  · subst same
    rw [if_pos rfl, Registry.started_of_deref object, idle]
    rcases kind : world.derived.lookup ref' with _ | ⟨_ | _ | hook⟩
    · rfl
    · rfl
    · rfl
    · exact absurd kind (other hook)
  · rw [if_neg same]

/-- A block that stops gives up what it holds. -/
theorem claims_stop (object : blocks.deref ref = some block) :
    (world.stop_ ref).claims (blocks.setStarted ref false) =
      Function.update (world.claims blocks) ref none := by
  have derived : (world.stop_ ref).derived = world.derived := by
    unfold stop_
    split <;> rfl
  funext other
  unfold claims
  rw [Registry.started_setStarted object, derived]
  by_cases same : other = ref
  · subst same
    rw [if_pos rfl, Function.update_self]
    rfl
  · rw [if_neg same, Function.update_of_ne same]

theorem claims_of_idle (object : blocks.deref ref = some block)
    (idle : block.is_started_ = false) : world.claims blocks ref = none := by
  unfold claims
  rw [Registry.started_of_deref object, idle]
  rfl

theorem claims_of_other (other : ∀ hook, world.derived.lookup ref ≠ some (.hookZmq hook)) :
    world.claims blocks ref = none := by
  by_contra held
  obtain ⟨claim, held⟩ := Option.ne_none_iff_exists'.mp held
  obtain ⟨-, hook, there, -⟩ := claims_eq_some_iff.mp held
  exact other hook there

/-- Starting a block that is a hook opens a socket for it; starting another one opens nothing. -/
theorem custody_start (platform : Platform) (custody : Custody (world.claims blocks) world.zmq)
    (object : blocks.deref ref = some block) (idle : block.is_started_ = false) :
    Custody ((world.start_ platform ref).claims (blocks.setStarted ref true))
      (world.start_ platform ref).zmq := by
  by_cases hook : ∃ hook, world.derived.lookup ref = some (.hookZmq hook)
  · obtain ⟨hook, there⟩ := hook
    rw [claims_start_hook platform object there]
    obtain ⟨ctx, socket, kept⟩ := hook.start_opens platform ref world.polling world.zmq
    simp only [start_, there]
    exact (custody.claim platform ref (hook.start_ platform ref world.polling world.zmq).1.claim
      ctx socket).keeps kept
  · rw [start_of_other (not_exists.mp hook),
      claims_setStarted_other object idle (not_exists.mp hook)]
    exact custody

theorem custody_stop (custody : Custody (world.claims blocks) world.zmq)
    (object : blocks.deref ref = some block) (running : block.is_started_ = true) :
    Custody ((world.stop_ ref).claims (blocks.setStarted ref false)) (world.stop_ ref).zmq := by
  rw [claims_stop object]
  by_cases hook : ∃ hook, world.derived.lookup ref = some (.hookZmq hook)
  · obtain ⟨hook, there⟩ := hook
    have held := claims_of_hook ((Registry.started_of_deref object).trans running) there
    simp only [stop_, there]
    exact custody.release held
  · have free : world.claims blocks ref = none := claims_of_other (not_exists.mp hook)
    rw [stop_of_other (not_exists.mp hook), ← free, Function.update_eq_self]
    exact custody

end World

end C3qo
