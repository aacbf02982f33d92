import C3qo.Memory
import Mathlib.Data.Finmap

/-!
# Block objects and the block map

`bk_map_` and the heap of block objects it points into. The structure carries what ties the two
together: every key leads to a live object with that identifier, every live object is in the map
under its identifier, and the next object to be built has never been used.
-/

namespace C3qo

/-- `struct block`, without the manager that all blocks share. -/
structure Block where
  /-- Block ID. -/
  id_ : Int
  /-- Block type. -/
  type_ : String
  /-- Block state. -/
  is_started_ : Bool
  /-- Block binding. -/
  sink_ : Option BlockRef
  deriving DecidableEq

/-- The blocks of a manager. -/
structure Registry where
  /-- The map from identifiers to blocks. -/
  bk_map_ : Finmap fun _ : Int => BlockRef
  /-- The objects that have been built and not destroyed. -/
  objects : Finmap fun _ : BlockRef => Block
  /-- The next object to be built. -/
  next : BlockRef
  /-- Every key leads to a live object with that identifier. -/
  mapped : ∀ id ref, bk_map_.lookup id = some ref →
    ∃ block, objects.lookup ref = some block ∧ block.id_ = id
  /-- Every live object is in the map under its identifier. -/
  registered : ∀ ref block, objects.lookup ref = some block →
    bk_map_.lookup block.id_ = some ref
  /-- Live objects have been built before. -/
  fresh : ∀ ref block, objects.lookup ref = some block → ref < next

namespace Registry

/-- No blocks. -/
def empty : Registry := ⟨∅, ∅, 0, by simp, by simp, by simp⟩

/-- The block in the map under an identifier. -/
def get (registry : Registry) (id : Int) : Option BlockRef := registry.bk_map_.lookup id

/-- The live object behind a pointer, or `none` if it has been destroyed. -/
def deref (registry : Registry) (ref : BlockRef) : Option Block := registry.objects.lookup ref

/-- The block under an identifier together with its object. -/
def find (registry : Registry) (id : Int) : Option (BlockRef × Block) :=
  registry.get id >>= fun ref => (registry.deref ref).map fun block => (ref, block)

/-- The block is in the map. -/
def Live (registry : Registry) (ref : BlockRef) : Prop := (registry.deref ref).isSome

instance (registry : Registry) (ref : BlockRef) : Decidable (registry.Live ref) :=
  inferInstanceAs (Decidable (_ = true))

@[ext] theorem ext {left right : Registry} (maps : left.bk_map_ = right.bk_map_)
    (objects : left.objects = right.objects) (next : left.next = right.next) : left = right := by
  cases left
  cases right
  congr

theorem id_of_deref {registry : Registry} {ref : BlockRef} {block : Block}
    (object : registry.deref ref = some block) : registry.get block.id_ = some ref :=
  registry.registered ref block object

theorem deref_of_get {registry : Registry} {id : Int} {ref : BlockRef}
    (there : registry.get id = some ref) :
    ∃ block, registry.deref ref = some block ∧ block.id_ = id :=
  registry.mapped id ref there

/-- The map holds each live block under exactly one key. -/
theorem get_eq_some_iff {registry : Registry} {id : Int} {ref : BlockRef} :
    registry.get id = some ref ↔ ∃ block, registry.deref ref = some block ∧ block.id_ = id := by
  constructor
  · exact deref_of_get
  · rintro ⟨block, object, rfl⟩
    exact id_of_deref object

/-- A block is in the map under one identifier only. -/
theorem get_inj {registry : Registry} {id other : Int} {ref : BlockRef}
    (there : registry.get id = some ref) (there' : registry.get other = some ref) : id = other := by
  obtain ⟨block, object, rfl⟩ := deref_of_get there
  obtain ⟨block', object', rfl⟩ := deref_of_get there'
  exact congrArg Block.id_ (Option.some.inj (object.symm.trans object'))

/-- Blocks with different identifiers are different. -/
theorem ne_of_get {registry : Registry} {id other : Int} {ref ref' : BlockRef}
    (different : other ≠ id) (there : registry.get id = some ref)
    (there' : registry.get other = some ref') : ref' ≠ ref := by
  rintro rfl
  exact different (get_inj there' there)

theorem find_eq_some_iff {registry : Registry} {id : Int} {ref : BlockRef} {block : Block} :
    registry.find id = some (ref, block) ↔
      registry.deref ref = some block ∧ block.id_ = id := by
  simp only [find, Option.bind_eq_bind, Option.bind_eq_some_iff, Option.map_eq_some_iff,
    Prod.mk.injEq]
  constructor
  · rintro ⟨_, there, _, object, rfl, rfl⟩
    obtain ⟨block, same, id⟩ := deref_of_get there
    obtain rfl := Option.some.inj (object.symm.trans same)
    exact ⟨object, id⟩
  · rintro ⟨object, rfl⟩
    exact ⟨ref, id_of_deref object, block, object, rfl, rfl⟩

theorem find_eq_none_iff {registry : Registry} {id : Int} :
    registry.find id = none ↔ registry.get id = none := by
  constructor
  · intro missing
    by_contra there
    obtain ⟨ref, there⟩ := Option.ne_none_iff_exists'.mp there
    obtain ⟨block, object, same⟩ := deref_of_get there
    rw [find_eq_some_iff.mpr ⟨object, same⟩] at missing
    cases missing
  · intro missing
    simp [find, missing]

theorem live_iff {registry : Registry} {ref : BlockRef} :
    registry.Live ref ↔ ∃ block, registry.deref ref = some block :=
  Option.isSome_iff_exists

/-- A block is in the map exactly if it is live. -/
theorem live_iff_mapped {registry : Registry} {ref : BlockRef} :
    registry.Live ref ↔ ∃ id, registry.get id = some ref := by
  rw [live_iff]
  constructor
  · rintro ⟨block, object⟩
    exact ⟨block.id_, id_of_deref object⟩
  · rintro ⟨id, there⟩
    exact (deref_of_get there).imp fun block found => found.1

theorem deref_next (registry : Registry) : registry.deref registry.next = none := by
  by_contra there
  obtain ⟨block, object⟩ := Option.ne_none_iff_exists'.mp there
  exact Nat.lt_irrefl _ (registry.fresh _ _ object)

/-! ## Updates -/

/-- Build a stopped and unbound block, and put it under a free identifier. -/
def insert (registry : Registry) (id : Int) (type_ : String) (free : registry.get id = none) :
    Registry where
  bk_map_ := registry.bk_map_.insert id registry.next
  objects := registry.objects.insert registry.next ⟨id, type_, false, none⟩
  next := registry.next + 1
  mapped := by
    intro other ref there
    by_cases same : other = id
    · subst same
      rw [Finmap.lookup_insert] at there
      obtain rfl := Option.some.inj there
      exact ⟨_, Finmap.lookup_insert _, rfl⟩
    · rw [Finmap.lookup_insert_of_ne _ same] at there
      obtain ⟨block, object, rfl⟩ := registry.mapped other ref there
      have old := Nat.ne_of_lt (registry.fresh ref block object)
      exact ⟨block, (Finmap.lookup_insert_of_ne _ old).trans object, rfl⟩
  registered := by
    intro ref block object
    by_cases same : ref = registry.next
    · subst same
      rw [Finmap.lookup_insert] at object
      obtain rfl := Option.some.inj object
      exact Finmap.lookup_insert _
    · rw [Finmap.lookup_insert_of_ne _ same] at object
      have there := registry.registered ref block object
      refine (Finmap.lookup_insert_of_ne _ ?_).trans there
      rintro rfl
      exact absurd (free.symm.trans there) (by simp)
  fresh := by
    intro ref block object
    by_cases same : ref = registry.next
    · exact same ▸ Nat.lt_succ_self _
    · rw [Finmap.lookup_insert_of_ne _ same] at object
      exact Nat.lt_succ_of_lt (registry.fresh ref block object)

/-- Rewrite an object, its identifier apart. -/
def modify (registry : Registry) (ref : BlockRef) (f : Block → Block)
    (keeps : ∀ block, (f block).id_ = block.id_) : Registry :=
  match found : registry.deref ref with
  | none => registry
  | some old =>
      { registry with
        objects := registry.objects.insert ref (f old)
        mapped := by
          intro id other there
          obtain ⟨block, object, rfl⟩ := registry.mapped id other there
          by_cases same : other = ref
          · subst same
            obtain rfl := Option.some.inj (found.symm.trans object)
            exact ⟨_, Finmap.lookup_insert _, keeps old⟩
          · exact ⟨block, (Finmap.lookup_insert_of_ne _ same).trans object, rfl⟩
        registered := by
          intro other block object
          by_cases same : other = ref
          · subst same
            rw [Finmap.lookup_insert] at object
            obtain rfl := Option.some.inj object
            rw [keeps]
            exact registry.registered other old found
          · rw [Finmap.lookup_insert_of_ne _ same] at object
            exact registry.registered other block object
        fresh := by
          intro other block object
          by_cases same : other = ref
          · subst same
            exact registry.fresh other old found
          · rw [Finmap.lookup_insert_of_ne _ same] at object
            exact registry.fresh other block object }

/-- Set `is_started_` of a block. -/
def setStarted (registry : Registry) (ref : BlockRef) (started : Bool) : Registry :=
  registry.modify ref (fun block => { block with is_started_ := started }) fun _ => rfl

/-- Set `sink_` of a block. -/
def setSink (registry : Registry) (ref sink : BlockRef) : Registry :=
  registry.modify ref (fun block => { block with sink_ := some sink }) fun _ => rfl

/-- Take an identifier out of the map, and destroy its block. -/
def remove (registry : Registry) (id : Int) : Registry :=
  match found : registry.get id with
  | none => registry
  | some old =>
      { registry with
        bk_map_ := registry.bk_map_.erase id
        objects := registry.objects.erase old
        mapped := by
          intro other ref there
          have different : other ≠ id := by
            rintro rfl
            rw [Finmap.lookup_erase] at there
            cases there
          rw [Finmap.lookup_erase_ne different] at there
          obtain ⟨block, object, rfl⟩ := registry.mapped other ref there
          refine ⟨block, (Finmap.lookup_erase_ne ?_).trans object, rfl⟩
          rintro rfl
          obtain ⟨block', object', rfl⟩ := registry.mapped id ref found
          exact different (Option.some.inj (object.symm.trans object') ▸ rfl)
        registered := by
          intro ref block object
          have different : ref ≠ old := by
            rintro rfl
            rw [Finmap.lookup_erase] at object
            cases object
          rw [Finmap.lookup_erase_ne different] at object
          have there := registry.registered ref block object
          refine (Finmap.lookup_erase_ne ?_).trans there
          rintro rfl
          exact different (Option.some.inj (there.symm.trans found))
        fresh := by
          intro ref block object
          have different : ref ≠ old := by
            rintro rfl
            rw [Finmap.lookup_erase] at object
            cases object
          rw [Finmap.lookup_erase_ne different] at object
          exact registry.fresh ref block object }

@[simp] theorem next_insert (registry : Registry) (id : Int) (type_ : String)
    (free : registry.get id = none) : (registry.insert id type_ free).next = registry.next + 1 :=
  rfl

theorem deref_insert (registry : Registry) (id : Int) (type_ : String)
    (free : registry.get id = none) (ref : BlockRef) :
    (registry.insert id type_ free).deref ref =
      if ref = registry.next then some ⟨id, type_, false, none⟩ else registry.deref ref := by
  split_ifs with same
  · subst same
    exact Finmap.lookup_insert _
  · exact Finmap.lookup_insert_of_ne _ same

theorem live_insert {registry : Registry} {id : Int} {type_ : String}
    {free : registry.get id = none} {ref : BlockRef} (live : registry.Live ref) :
    (registry.insert id type_ free).Live ref := by
  obtain ⟨block, object⟩ := live_iff.mp live
  have old := Nat.ne_of_lt (registry.fresh ref block object)
  exact live_iff.mpr ⟨block, by rw [deref_insert, if_neg old, object]⟩

@[simp] theorem next_modify (registry : Registry) (ref : BlockRef) (f : Block → Block)
    (keeps : ∀ block, (f block).id_ = block.id_) :
    (registry.modify ref f keeps).next = registry.next := by
  unfold modify
  split <;> rfl

@[simp] theorem get_modify (registry : Registry) (ref : BlockRef) (f : Block → Block)
    (keeps : ∀ block, (f block).id_ = block.id_) (id : Int) :
    (registry.modify ref f keeps).get id = registry.get id := by
  unfold modify
  split <;> rfl

theorem deref_modify (registry : Registry) (ref : BlockRef) (f : Block → Block)
    (keeps : ∀ block, (f block).id_ = block.id_) (other : BlockRef) :
    (registry.modify ref f keeps).deref other =
      if other = ref then (registry.deref ref).map f else registry.deref other := by
  unfold modify
  split
  · rename_i missing
    split_ifs with same
    · rw [same, missing]
      rfl
    · rfl
  · rename_i old found
    split_ifs with same
    · subst same
      exact (Finmap.lookup_insert _).trans (congrArg (Option.map f) found).symm
    · exact Finmap.lookup_insert_of_ne _ same

@[simp] theorem next_setStarted (registry : Registry) (ref : BlockRef) (started : Bool) :
    (registry.setStarted ref started).next = registry.next :=
  next_modify ..

@[simp] theorem get_setStarted (registry : Registry) (ref : BlockRef) (started : Bool) (id : Int) :
    (registry.setStarted ref started).get id = registry.get id :=
  get_modify ..

@[simp] theorem live_setStarted (registry : Registry) (ref : BlockRef) (started : Bool)
    (other : BlockRef) : (registry.setStarted ref started).Live other ↔ registry.Live other := by
  simp [live_iff_mapped]

theorem deref_setStarted (registry : Registry) (ref : BlockRef) (started : Bool)
    (other : BlockRef) :
    (registry.setStarted ref started).deref other =
      if other = ref then
        (registry.deref ref).map fun block => { block with is_started_ := started }
      else
        registry.deref other :=
  deref_modify ..

@[simp] theorem next_setSink (registry : Registry) (ref sink : BlockRef) :
    (registry.setSink ref sink).next = registry.next :=
  next_modify ..

@[simp] theorem get_setSink (registry : Registry) (ref sink : BlockRef) (id : Int) :
    (registry.setSink ref sink).get id = registry.get id :=
  get_modify ..

@[simp] theorem live_setSink (registry : Registry) (ref sink other : BlockRef) :
    (registry.setSink ref sink).Live other ↔ registry.Live other := by
  simp [live_iff_mapped]

theorem deref_setSink (registry : Registry) (ref sink other : BlockRef) :
    (registry.setSink ref sink).deref other =
      if other = ref then
        (registry.deref ref).map fun block => { block with sink_ := some sink }
      else
        registry.deref other :=
  deref_modify ..

@[simp] theorem next_remove (registry : Registry) (id : Int) :
    (registry.remove id).next = registry.next := by
  unfold remove
  split <;> rfl

theorem get_remove (registry : Registry) (id other : Int) :
    (registry.remove id).get other = if other = id then none else registry.get other := by
  unfold remove
  split
  · rename_i missing
    split_ifs with same
    · rw [same, missing]
    · rfl
  · split_ifs with same
    · subst same
      exact Finmap.lookup_erase _ _
    · exact Finmap.lookup_erase_ne same

theorem deref_remove {registry : Registry} {id : Int} {old : BlockRef}
    (found : registry.get id = some old) (ref : BlockRef) :
    (registry.remove id).deref ref = if ref = old then none else registry.deref ref := by
  unfold remove
  split
  · rename_i missing
    exact absurd (missing.symm.trans found) (by simp)
  · rename_i old' found'
    obtain rfl := Option.some.inj (found.symm.trans found')
    split_ifs with same
    · subst same
      exact Finmap.lookup_erase _ _
    · exact Finmap.lookup_erase_ne same

theorem live_remove {registry : Registry} {id : Int} {old : BlockRef}
    (found : registry.get id = some old) (ref : BlockRef) :
    (registry.remove id).Live ref ↔ registry.Live ref ∧ ref ≠ old := by
  simp only [live_iff, deref_remove found]
  split_ifs with same <;> simp [same]

/-! ## Blocks by identifier -/

theorem get_insert (registry : Registry) (id : Int) (type_ : String)
    (free : registry.get id = none) (other : Int) :
    (registry.insert id type_ free).get other =
      if other = id then some registry.next else registry.get other := by
  split_ifs with same
  · subst same
    exact Finmap.lookup_insert _
  · exact Finmap.lookup_insert_of_ne _ same

theorem find_insert (registry : Registry) (id : Int) (type_ : String)
    (free : registry.get id = none) (other : Int) :
    (registry.insert id type_ free).find other =
      if other = id then some (registry.next, ⟨id, type_, false, none⟩)
      else registry.find other := by
  split_ifs with same
  · subst same
    exact find_eq_some_iff.mpr ⟨by rw [deref_insert, if_pos rfl], rfl⟩
  · simp only [find, get_insert, if_neg same]
    cases there : registry.get other with
    | none => rfl
    | some ref =>
        obtain ⟨block, object, -⟩ := deref_of_get there
        have old := Nat.ne_of_lt (registry.fresh ref block object)
        simp [deref_insert, old]

theorem find_modify {registry : Registry} {id : Int} {ref : BlockRef} {block : Block}
    (found : registry.find id = some (ref, block)) (f : Block → Block)
    (keeps : ∀ block, (f block).id_ = block.id_) (other : Int) :
    (registry.modify ref f keeps).find other =
      if other = id then some (ref, f block) else registry.find other := by
  obtain ⟨object, rfl⟩ := find_eq_some_iff.mp found
  split_ifs with same
  · subst same
    exact find_eq_some_iff.mpr ⟨by rw [deref_modify, if_pos rfl, object]; rfl, keeps block⟩
  · simp only [find, get_modify]
    cases there : registry.get other with
    | none => rfl
    | some ref' =>
        have different : ref' ≠ ref := ne_of_get same (id_of_deref object) there
        simp [deref_modify, different]

theorem find_setStarted {registry : Registry} {id : Int} {ref : BlockRef} {block : Block}
    (found : registry.find id = some (ref, block)) (started : Bool) (other : Int) :
    (registry.setStarted ref started).find other =
      if other = id then some (ref, { block with is_started_ := started })
      else registry.find other :=
  find_modify found _ _ other

theorem find_setSink {registry : Registry} {id : Int} {ref : BlockRef} {block : Block}
    (found : registry.find id = some (ref, block)) (sink : BlockRef) (other : Int) :
    (registry.setSink ref sink).find other =
      if other = id then some (ref, { block with sink_ := some sink }) else registry.find other :=
  find_modify found _ _ other

theorem find_remove {registry : Registry} {id : Int} {ref : BlockRef} {block : Block}
    (found : registry.find id = some (ref, block)) (other : Int) :
    (registry.remove id).find other = if other = id then none else registry.find other := by
  obtain ⟨object, rfl⟩ := find_eq_some_iff.mp found
  have there := id_of_deref object
  split_ifs with same
  · exact find_eq_none_iff.mpr (by rw [get_remove, if_pos same])
  · simp only [find, get_remove, if_neg same]
    cases there' : registry.get other with
    | none => rfl
    | some ref' =>
        have different : ref' ≠ ref := ne_of_get same there there'
        simp [deref_remove there, different]

theorem find_of_get {registry : Registry} {id : Int} {ref : BlockRef}
    (there : registry.get id = some ref) : ∃ block, registry.find id = some (ref, block) := by
  obtain ⟨block, object, same⟩ := deref_of_get there
  exact ⟨block, find_eq_some_iff.mpr ⟨object, same⟩⟩

theorem get_of_find {registry : Registry} {id : Int} {ref : BlockRef} {block : Block}
    (found : registry.find id = some (ref, block)) : registry.get id = some ref := by
  obtain ⟨object, rfl⟩ := find_eq_some_iff.mp found
  exact id_of_deref object

/-! ## Started blocks -/

/-- `is_started_` of a block; what is not a block is not started. -/
def started (registry : Registry) (ref : BlockRef) : Bool :=
  match registry.deref ref with
  | some block => block.is_started_
  | none => false

theorem started_of_deref {registry : Registry} {ref : BlockRef} {block : Block}
    (object : registry.deref ref = some block) : registry.started ref = block.is_started_ := by
  simp only [started, object]

theorem live_of_started {registry : Registry} {ref : BlockRef}
    (running : registry.started ref = true) : registry.Live ref := by
  unfold started at running
  split at running
  · rename_i block object
    exact live_iff.mpr ⟨block, object⟩
  · cases running

/-- A started block is none that is not started. -/
theorem ne_of_started {registry : Registry} {ref other : BlockRef} {block : Block}
    (object : registry.deref ref = some block) (idle : block.is_started_ = false)
    (running : registry.started other = true) : other ≠ ref := by
  rintro rfl
  rw [started_of_deref object, idle] at running
  cases running

/-- No block is started before it is built. -/
theorem ne_next_of_started {registry : Registry} {ref : BlockRef}
    (running : registry.started ref = true) : ref ≠ registry.next := by
  rintro rfl
  simp [started, deref_next] at running

/-- A block is built stopped. -/
@[simp] theorem started_insert (registry : Registry) (id : Int) (type_ : String)
    (free : registry.get id = none) (ref : BlockRef) :
    (registry.insert id type_ free).started ref = registry.started ref := by
  simp only [started, deref_insert]
  split_ifs with same
  · rw [same, deref_next]
  · rfl

theorem started_setStarted {registry : Registry} {ref : BlockRef} {block : Block}
    (object : registry.deref ref = some block) (running : Bool) (other : BlockRef) :
    (registry.setStarted ref running).started other =
      if other = ref then running else registry.started other := by
  simp only [started, deref_setStarted]
  split_ifs with same
  · rw [object]
    rfl
  · rfl

@[simp] theorem started_setSink (registry : Registry) (ref sink other : BlockRef) :
    (registry.setSink ref sink).started other = registry.started other := by
  simp only [started, deref_setSink]
  split_ifs with same
  · subst same
    cases registry.deref other <;> rfl
  · rfl

/-- Only blocks that are not started lose their object. -/
theorem started_remove {registry : Registry} {ref : BlockRef} {block : Block}
    (object : registry.deref ref = some block) (idle : block.is_started_ = false)
    (other : BlockRef) : (registry.remove block.id_).started other = registry.started other := by
  simp only [started, deref_remove (id_of_deref object)]
  split_ifs with same
  · rw [same, object]
    exact idle.symm
  · rfl

end Registry

end C3qo
