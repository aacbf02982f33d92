import C3qo.CallTree

/-!
# The topic of commands

`trans_pb::data_` compares as many bytes with `PROTO.CMD` as the first part of the message has.
Proper prefixes of that topic, the empty one among them, are therefore taken for it, and a part
that continues it with a NUL makes the comparison go on behind the literal.
-/

namespace C3qo

/-- The topic of commands. -/
def commandTopic : Bytes := ascii "PROTO.CMD"

/-- How many bytes of either string `memcmp` looks at: up to the first that differs. -/
def compared : (Nat → UInt8) → Bytes → Nat
  | _, [] => 0
  | memory, byte :: bytes =>
      if memory 0 = byte then compared (fun index => memory (index + 1)) bytes + 1 else 1

/-- A comparison stays inside the literal where the bytes do not continue it with a NUL. -/
theorem compared_le {text bytes : Bytes} (after : Nat → UInt8)
    (other : ¬ text ++ [0] <+: bytes) :
    compared (cString text after) bytes ≤ text.length + 1 := by
  induction text generalizing bytes with
  | nil =>
      cases bytes with
      | nil => exact Nat.zero_le _
      | cons byte bytes =>
          have different : cString [] after 0 ≠ byte := by
            rintro rfl
            exact other (List.prefix_append [0] bytes)
          rw [compared, if_neg different]
          exact Nat.le_refl 1
  | cons first text ih =>
      cases bytes with
      | nil => exact Nat.zero_le _
      | cons byte bytes =>
          rw [compared, cString_cons_zero, cString_cons_succ]
          split_ifs with same
          · subst same
            have rest := ih fun inside => other ((List.cons_prefix_cons).mpr ⟨rfl, inside⟩)
            simpa using rest
          · simp

theorem compared_le_length (memory : Nat → UInt8) (bytes : Bytes) :
    compared memory bytes ≤ bytes.length := by
  induction bytes generalizing memory with
  | nil => exact Nat.le_refl 0
  | cons byte bytes ih =>
      rw [compared]
      split_ifs
      · exact Nat.succ_le_succ (ih _)
      · simp

/-- Bytes that continue the literal with a NUL and go on are compared with what is behind it. -/
theorem lt_compared (text : Bytes) (after : Nat → UInt8) (byte : UInt8) (rest : Bytes) :
    text.length + 1 < compared (cString text after) (text ++ 0 :: byte :: rest) := by
  induction text with
  | nil =>
      have nul : cString [] after 0 = 0 := rfl
      rw [List.nil_append, compared, if_pos nul, compared]
      split_ifs <;> simp
  | cons first text ih =>
      rw [List.cons_append, compared, cString_cons_zero, if_pos rfl, cString_cons_succ]
      simpa using ih

section

variable (platform : Platform) (fuel : Nat) (running : List BlockRef) (ref : BlockRef)
  (manager : BlockManager) (vdata : Option Buffer)

/-- The buffer has two parts, the first of which is the given topic. -/
def Titled (vdata : Option Buffer) (topic : Bytes) : Prop :=
  ∃ title payload, vdata = some ⟨[title, payload]⟩ ∧ title.bytes = topic

/-- `data_` parses the second part, and once that has returned it replies with the result, unless
the command has destroyed a block whose function is running. -/
def AnswersCommand (calls : List FlowCall) : Prop :=
  ∃ title payload, vdata = some ⟨[title, payload]⟩ ∧
    let start := commanded manager ref vdata payload.bytes
    ∃ later, calls = .data_ ref vdata manager :: .command ref payload.bytes start :: later ∧
      ∀ is_ok after, protoCommandParse platform payload.bytes start = .ok (is_ok, after) →
        destroyedOf after (ref :: running) = none → ∃ rest, later = .reply ref is_ok after :: rest

/-- `data_` returns having called nothing and changed nothing. -/
def RejectsMessage (calls : List FlowCall) (result : Except Fault (Bool × BlockManager)) : Prop :=
  calls = [.data_ ref vdata manager] ∧ result = .ok (false, received manager ref vdata)

/-- `data_` answers the messages with the topic of commands and rejects the others, and of no
topic does `memcmp` look at more than the literal with its NUL has. -/
structure AcceptsExactly (looked : Bytes → Nat) : Prop where
  /-- Commands are answered. -/
  accepts : Titled vdata commandTopic → AnswersCommand platform running ref manager vdata
    (blockDataCalls platform (fuel + 1) running vdata ref manager).1
  /-- Everything else is rejected. -/
  rejects : ¬ Titled vdata commandTopic → RejectsMessage ref manager vdata
    (blockDataCalls platform (fuel + 1) running vdata ref manager).1
    (blockData platform (fuel + 1) running vdata ref manager)
  /-- The comparison stays inside both strings. -/
  inside : ∀ topic, Titled vdata topic →
    looked topic ≤ topic.length ∧ looked topic ≤ commandTopic.length + 1

end

section

variable {platform : Platform} {fuel : Nat} {running : List BlockRef} {ref : BlockRef}
  {manager : BlockManager} {vdata : Option Buffer}

theorem Titled.unique {topic topic' : Bytes} (titled : Titled vdata topic)
    (titled' : Titled vdata topic') : topic = topic' := by
  obtain ⟨title, payload, rfl, rfl⟩ := titled
  obtain ⟨title', payload', same, rfl⟩ := titled'
  cases same
  rfl

theorem titled_ofParts (first second topic : Bytes) :
    Titled (some (Buffer.ofParts [first, second])) topic ↔ first = topic := by
  constructor
  · rintro ⟨title, payload, same, rfl⟩
    have parts : [BufferPart.ofBytes first, BufferPart.ofBytes second] = [title, payload] :=
      congrArg Buffer.parts_ (Option.some.inj same)
    obtain ⟨rfl, -⟩ := List.cons.inj parts
    exact (BufferPart.bytes_ofBytes first).symm
  · rintro rfl
    exact ⟨BufferPart.ofBytes first, BufferPart.ofBytes second, rfl, BufferPart.bytes_ofBytes first⟩

/-- The topics that compare equal to the one of commands. -/
def TakenForTopic (platform : Platform) (topic : Bytes) : Prop :=
  memcmpEq (cString commandTopic platform.literal) topic = true

theorem isCommand_iff_taken {payload : Bytes} :
    IsCommand platform vdata payload ↔ ∃ title part, vdata = some ⟨[title, part]⟩ ∧
      TakenForTopic platform title.bytes ∧ part.bytes = payload := Iff.rfl

theorem takenForTopic_self (platform : Platform) : TakenForTopic platform commandTopic :=
  (memcmpEq_cString _ _ _).mpr (.inl (List.prefix_refl _))

/-- A command is answered, whatever its second part makes the interpreter do. -/
theorem answersCommand_of_isCommand (kind : manager.kind ref = some .transPb) {payload : Bytes}
    (command : IsCommand platform vdata payload) :
    AnswersCommand platform running ref manager vdata
      (blockDataCalls platform (fuel + 1) running vdata ref manager).1 := by
  obtain ⟨title, part, same, -, rfl⟩ := id command
  refine ⟨title, part, same, ?_⟩
  rw [blockDataCalls_command kind command]
  dsimp only
  cases parsed : protoCommandParse platform part.bytes (commanded manager ref vdata part.bytes) with
  | error fault => exact ⟨[], rfl, fun _ _ done => by cases done⟩
  | ok executed =>
      obtain ⟨is_ok, after⟩ := executed
      dsimp only
      cases alive : destroyedOf after (ref :: running) with
      | some destroyed =>
          refine ⟨[], rfl, fun _ _ done spared => ?_⟩
          cases done
          rw [alive] at spared
          cases spared
      | none =>
          refine ⟨_, rfl, fun _ _ done _ => ?_⟩
          cases done
          exact ⟨_, rfl⟩

/-- Acceptance is exact where the comparison is. -/
theorem acceptsExactly_iff (kind : manager.kind ref = some .transPb) (looked : Bytes → Nat) :
    AcceptsExactly platform fuel running ref manager vdata looked ↔
      ∀ topic, Titled vdata topic → (TakenForTopic platform topic → topic = commandTopic) ∧
        looked topic ≤ topic.length ∧ looked topic ≤ commandTopic.length + 1 := by
  constructor
  · refine fun exact topic titled => ⟨fun taken => ?_, exact.inside topic titled⟩
    by_contra different
    obtain ⟨calls, -⟩ := exact.rejects fun command => different (titled.unique command)
    obtain ⟨title, payload, same, rfl⟩ := titled
    have answers : AnswersCommand platform running ref manager vdata
        (blockDataCalls platform (fuel + 1) running vdata ref manager).1 :=
      answersCommand_of_isCommand kind
        (isCommand_iff_taken.mpr ⟨title, payload, same, taken, rfl⟩)
    obtain ⟨_, _, -, _, answered, -⟩ := answers
    rw [calls] at answered
    cases answered
  · intro comparison
    refine ⟨fun titled => ?_, fun other => ?_, fun topic titled => (comparison topic titled).2⟩
    · obtain ⟨title, payload, same, topic⟩ := titled
      have taken : TakenForTopic platform title.bytes := topic ▸ takenForTopic_self platform
      exact answersCommand_of_isCommand kind
        (isCommand_iff_taken.mpr ⟨title, payload, same, taken, rfl⟩)
    · have plain : ∀ payload, ¬ IsCommand platform vdata payload := by
        rintro payload ⟨title, part, same, taken, -⟩
        have titled : Titled vdata title.bytes := ⟨title, part, same, rfl⟩
        exact other ((comparison _ titled).1 taken ▸ titled)
      refine ⟨?_, blockData_transPb kind plain⟩
      rw [blockDataCalls_plain fun payload _ => plain payload]

/-- A topic is not taken for the one of commands by mistake, and the comparison stays inside the
literal, exactly if it neither is a proper prefix of that nor continues it with a NUL. -/
theorem comparison_iff (platform : Platform) (topic : Bytes) :
    ((TakenForTopic platform topic → topic = commandTopic) ∧
        compared (cString commandTopic platform.literal) topic ≤ commandTopic.length + 1) ↔
      ¬ (topic <+: commandTopic ∧ topic ≠ commandTopic) ∧ ¬ commandTopic ++ [0] <+: topic := by
  constructor
  · rintro ⟨exact, short⟩
    refine ⟨fun ⟨part, different⟩ => different (exact ((memcmpEq_cString _ _ _).mpr (.inl part))),
      ?_⟩
    rintro ⟨rest, rfl⟩
    cases rest with
    | nil =>
        have taken : TakenForTopic platform (commandTopic ++ [0] ++ []) :=
          (memcmpEq_cString _ _ _).mpr (.inr ⟨[], List.append_nil _, rfl⟩)
        exact absurd (congrArg List.length (exact taken)) (by simp)
    | cons byte rest =>
        have long := lt_compared commandTopic platform.literal byte rest
        rw [List.append_assoc] at short
        exact absurd short (Nat.not_le.mpr long)
  · rintro ⟨noPart, noNul⟩
    refine ⟨fun taken => ?_, compared_le platform.literal noNul⟩
    rcases (memcmpEq_cString _ _ _).mp taken with part | ⟨rest, rfl, -⟩
    · by_contra different
      exact noPart ⟨part, different⟩
    · exact absurd ⟨rest, by simp⟩ noNul

end

/-- Command messages are accepted exactly if the first of two parts neither is a proper prefix of
`PROTO.CMD` nor continues it with a NUL. If `memcmp` counts as looking at all the bytes that it is
given, where they differ and beyond, the part must not be longer than the literal either. -/
theorem data_acceptsExactly_iff (platform : Platform) (fuel : Nat) (running : List BlockRef)
    (ref : BlockRef) (manager : BlockManager) (kind : manager.kind ref = some .transPb)
    (vdata : Option Buffer) :
    (AcceptsExactly platform fuel running ref manager vdata
        (compared (cString commandTopic platform.literal)) ↔
      ∀ topic, Titled vdata topic →
        ¬ (topic <+: commandTopic ∧ topic ≠ commandTopic) ∧ ¬ commandTopic ++ [0] <+: topic) ∧
    (AcceptsExactly platform fuel running ref manager vdata List.length ↔
      ∀ topic, Titled vdata topic →
        (¬ (topic <+: commandTopic ∧ topic ≠ commandTopic) ∧ ¬ commandTopic ++ [0] <+: topic) ∧
          topic.length ≤ commandTopic.length + 1) := by
  constructor
  · rw [acceptsExactly_iff kind]
    refine forall₂_congr fun topic _ => ?_
    rw [← comparison_iff platform topic, and_iff_right (compared_le_length _ topic)]
  · rw [acceptsExactly_iff kind]
    refine forall₂_congr fun topic _ => ?_
    rw [← comparison_iff platform topic, and_iff_right (Nat.le_refl _)]
    constructor
    · rintro ⟨exact, short⟩
      exact ⟨⟨exact, (compared_le_length _ topic).trans short⟩, short⟩
    · rintro ⟨⟨exact, -⟩, short⟩
      exact ⟨exact, short⟩

/-- The manager of `c3qo` and a message with the topic of commands. -/
theorem data_acceptsExactly_command :
    let platform := Platform.plain fun _ => some (.start 5)
    let buf := Buffer.ofParts [ascii "PROTO.CMD", [18, 2, 8, 5]]
    AcceptsExactly platform 1 [] 1 (c3qoMain platform "c3qo") (some buf)
      (compared (cString commandTopic platform.literal)) := by
  intro platform buf
  refine (data_acceptsExactly_iff platform 1 [] 1 (c3qoMain platform "c3qo") (by decide +kernel)
    (some buf)).1.mpr ?_
  rintro topic titled
  obtain rfl := (titled_ofParts _ _ _).mp titled
  decide +kernel

/-- A message with the topic `P` is taken for a command. -/
theorem data_accepts_short_topic :
    let platform := Platform.plain fun _ => some (.start 5)
    let manager := c3qoMain platform "c3qo"
    let buf := Buffer.ofParts [ascii "P", [18, 2, 8, 5]]
    manager.kind 1 = some .transPb ∧ ¬ Titled (some buf) commandTopic ∧
      (blockDataCalls platform 1 [] (some buf) 1 manager).1.countP FlowCall.isCommand = 1 ∧
      ¬ AcceptsExactly platform 0 [] 1 manager (some buf)
        (compared (cString commandTopic platform.literal)) := by
  intro platform manager buf
  have other : ¬ Titled (some buf) commandTopic := by
    rw [titled_ofParts]
    decide
  have parses : (blockDataCalls platform 1 [] (some buf) 1 manager).1.countP
      FlowCall.isCommand = 1 := by decide +kernel
  refine ⟨by decide +kernel, other, parses, fun exact => ?_⟩
  rw [(exact.rejects other).1] at parses
  cases parses

end C3qo
