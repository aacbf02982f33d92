import Mathlib.Data.List.Basic
import Mathlib.Data.List.Pairwise

/-!
# Reassembly of messages

Messages travel in parts, each of which says whether another part of the same message follows. A
sender that gives up in the middle of a message leaves parts that say so, and the reader takes the
first part of the next message for their continuation.
-/

namespace Reassembly

variable {α : Type*}

/-- The parts of a message, each with the mark that another one follows. -/
def marked : List α → List (α × Bool)
  | [] => []
  | part :: parts => (part, !parts.isEmpty) :: marked parts

/-- The complete messages that the parts make up, the first of them continuing what is pending. -/
def messagesAfter : List α → List (α × Bool) → List (List α)
  | _, [] => []
  | pending, (part, true) :: parts => messagesAfter (pending ++ [part]) parts
  | pending, (part, false) :: parts => (pending ++ [part]) :: messagesAfter [] parts

/-- What is pending after the parts. -/
def pendingAfter : List α → List (α × Bool) → List α
  | pending, [] => pending
  | pending, (part, true) :: parts => pendingAfter (pending ++ [part]) parts
  | _, (_, false) :: parts => pendingAfter [] parts

/-- An attempt to send a message, of which some first parts have been taken. -/
structure Attempt (α : Type*) where
  /-- The parts of the message. -/
  parts : List α
  /-- How many of them have been taken. -/
  taken : Nat

namespace Attempt

/-- All parts have been taken. -/
def Whole (attempt : Attempt α) : Prop := attempt.taken = attempt.parts.length

/-- Some parts have been taken, but not all of them. -/
def Broken (attempt : Attempt α) : Prop :=
  0 < attempt.taken ∧ attempt.taken < attempt.parts.length

instance instDecidableWhole (attempt : Attempt α) : Decidable attempt.Whole :=
  inferInstanceAs (Decidable (_ = _))

instance instDecidableBroken (attempt : Attempt α) : Decidable attempt.Broken :=
  inferInstanceAs (Decidable (_ ∧ _))

/-- The parts that have been taken. -/
def wire (attempt : Attempt α) : List (α × Bool) := (marked attempt.parts).take attempt.taken

/-- A message with some parts, of which no more are taken than there are. -/
structure Valid (attempt : Attempt α) : Prop where
  /-- There are some parts. -/
  some_part : attempt.parts ≠ []
  /-- No more are taken. -/
  taken_le : attempt.taken ≤ attempt.parts.length

end Attempt

/-- The messages of the attempts that were whole. -/
def delivered (attempts : List (Attempt α)) : List (List α) :=
  (attempts.filter fun attempt => attempt.Whole).map Attempt.parts

theorem delivered_of_whole {attempt : Attempt α} (whole : attempt.Whole)
    (attempts : List (Attempt α)) :
    delivered (attempt :: attempts) = attempt.parts :: delivered attempts := by
  simp [delivered, whole]

theorem delivered_of_not_whole {attempt : Attempt α} (other : ¬ attempt.Whole)
    (attempts : List (Attempt α)) : delivered (attempt :: attempts) = delivered attempts := by
  simp [delivered, other]

theorem length_marked (parts : List α) : (marked parts).length = parts.length := by
  induction parts with
  | nil => rfl
  | cons part parts ih => simp [marked, ih]

theorem messagesAfter_append (pending : List α) (left right : List (α × Bool)) :
    messagesAfter pending (left ++ right) =
      messagesAfter pending left ++ messagesAfter (pendingAfter pending left) right := by
  induction left generalizing pending with
  | nil => rfl
  | cons part left ih =>
      obtain ⟨part, _ | _⟩ := part
      · exact congrArg (List.cons _) (ih [])
      · exact ih (pending ++ [part])

/-- A whole message ends what was pending. -/
theorem messagesAfter_marked (pending : List α) {parts : List α} (some_part : parts ≠ []) :
    messagesAfter pending (marked parts) = [pending ++ parts] ∧
      pendingAfter pending (marked parts) = [] := by
  induction parts generalizing pending with
  | nil => exact absurd rfl some_part
  | cons part parts ih =>
      cases parts with
      | nil => exact ⟨rfl, rfl⟩
      | cons next parts =>
          obtain ⟨messages, rest⟩ := ih (pending ++ [part]) (by simp)
          refine ⟨?_, rest⟩
          rw [List.append_assoc] at messages
          exact messages

/-- A broken message only adds to what is pending. -/
theorem messagesAfter_take (pending : List α) {parts : List α} {taken : Nat}
    (short : taken < parts.length) :
    messagesAfter pending ((marked parts).take taken) = [] ∧
      pendingAfter pending ((marked parts).take taken) = pending ++ parts.take taken := by
  induction parts generalizing pending taken with
  | nil => exact absurd short (Nat.not_lt_zero _)
  | cons part parts ih =>
      cases taken with
      | zero => exact ⟨rfl, (List.append_nil _).symm⟩
      | succ taken =>
          have short' : taken < parts.length := Nat.lt_of_succ_lt_succ short
          obtain ⟨messages, rest⟩ := ih (pending ++ [part]) short'
          have more : (!parts.isEmpty) = true := by
            cases parts with
            | nil => exact absurd short' (Nat.not_lt_zero _)
            | cons => rfl
          rw [marked, more, List.take_succ_cons, List.take_succ_cons]
          refine ⟨messages, rest.trans ?_⟩
          rw [List.append_assoc]
          rfl

/-- What follows some pending parts is read as it was sent exactly if nothing is pending that a
later whole message could complete, and no broken message is left to one. -/
theorem messagesAfter_wire_iff (pending : List α) {attempts : List (Attempt α)}
    (valid : ∀ attempt ∈ attempts, attempt.Valid) :
    messagesAfter pending (attempts.flatMap Attempt.wire) = delivered attempts ↔
      attempts.Pairwise (fun earlier later => ¬ (earlier.Broken ∧ later.Whole)) ∧
        (pending ≠ [] → ∀ attempt ∈ attempts, ¬ attempt.Whole) := by
  induction attempts generalizing pending with
  | nil => simp [messagesAfter, delivered]
  | cons attempt attempts ih =>
      obtain ⟨some_part, taken_le⟩ := valid attempt List.mem_cons_self
      have ih := fun pending => ih pending fun other member =>
        valid other (List.mem_cons_of_mem _ member)
      rw [List.flatMap_cons, messagesAfter_append, List.pairwise_cons]
      by_cases whole : attempt.Whole
      · obtain ⟨messages, rest⟩ := messagesAfter_marked pending some_part
        have wire : attempt.wire = marked attempt.parts := by
          rw [Attempt.wire, show attempt.taken = _ from whole, ← length_marked, List.take_length]
        have unbroken : ¬ attempt.Broken := fun broken => Nat.ne_of_lt broken.2 whole
        rw [wire, messages, rest, delivered_of_whole whole, List.singleton_append,
          List.cons.injEq, List.append_left_eq_self, ih []]
        constructor
        · rintro ⟨rfl, later, -⟩
          exact ⟨⟨fun _ _ both => unbroken both.1, later⟩, fun some_left => absurd rfl some_left⟩
        · rintro ⟨⟨-, later⟩, alone⟩
          refine ⟨?_, later, fun some_left => absurd rfl some_left⟩
          by_contra some_left
          exact alone some_left attempt List.mem_cons_self whole
      · have short : attempt.taken < attempt.parts.length := Nat.lt_of_le_of_ne taken_le whole
        obtain ⟨messages, rest⟩ := messagesAfter_take pending short
        have left_over : pending ++ attempt.parts.take attempt.taken ≠ [] ↔
            pending ≠ [] ∨ attempt.Broken := by
          have taken_iff : attempt.parts.take attempt.taken ≠ [] ↔ attempt.Broken := by
            rw [ne_eq, List.take_eq_nil_iff, not_or, Attempt.Broken, and_iff_left short,
              and_iff_left some_part, Nat.pos_iff_ne_zero]
          rw [← taken_iff, ne_eq, List.append_eq_nil_iff, not_and_or]
        rw [Attempt.wire, messages, rest, delivered_of_not_whole whole, List.nil_append, ih,
          left_over, List.forall_mem_cons]
        constructor
        · rintro ⟨later, alone⟩
          exact ⟨⟨fun other member both => alone (.inr both.1) other member both.2, later⟩,
            fun some_left => ⟨whole, alone (.inl some_left)⟩⟩
        · rintro ⟨⟨apart, later⟩, alone⟩
          refine ⟨later, ?_⟩
          rintro (some_left | broken) other member
          · exact (alone some_left).2 other member
          · exact fun whole => apart other member ⟨broken, whole⟩

end Reassembly
