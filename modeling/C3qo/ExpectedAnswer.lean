import C3qo.Ncli

/-!
# The answer that `ncli` expects

`ncli::data_` compares as many bytes of the topic and of the status as the message brings. A part
that is shorter than what is expected, the empty one included, passes for it, and so does one that
continues it with its NUL and the bytes that follow in memory. The answer is told apart from
everything else exactly where topic and status do not both pass without both being what they pass
for.
-/

namespace C3qo

/-- The topic of replies. -/
def replyTopic : Bytes := ascii "PROTO.CMD.REP"

/-- The bytes of a part pass for a text: a prefix of it, or the text with its NUL and as many of
the bytes after it as there are. -/
def PassesFor (text : Bytes) (after : Nat → UInt8) (bytes : Bytes) : Prop :=
  bytes <+: text ∨ ∃ rest, bytes = text ++ 0 :: rest ∧ memcmpEq after rest = true

namespace Ncli

/-- `received_answer_` after `ncli::data_`. -/
def receive (platform : Platform) (ncli : Ncli) (buf : Buffer) (received_answer_ : Bool) : Bool :=
  if ncli.data_ platform buf then true else received_answer_

/-- The first part, if there is one, compares equal to the peer that is addressed. -/
def Addressed (ncli : Ncli) (buf : Buffer) : Prop :=
  ∀ peer, buf.parts_.head? = some peer →
    memcmpEq (cString ncli.ncli_peer_ ncli.peerMemory) peer.bytes = true

/-- The expected answer: three parts, the topic of replies and the expected return. -/
def Expected (ncli : Ncli) (buf : Buffer) : Prop :=
  ∃ peer topic status, buf.parts_ = [peer, topic, status] ∧ topic.bytes = replyTopic ∧
    status.bytes = ncli.ncli_cmd_ret_

/-- `data_` takes the expected answer and nothing else. -/
structure TakesExpected (platform : Platform) (ncli : Ncli) (buf : Buffer) : Prop where
  /-- The expected answer is received. -/
  takes : ncli.Expected buf → ∀ received_answer_, ncli.receive platform buf received_answer_ = true
  /-- Everything else leaves `received_answer_` as it is. -/
  leaves : ¬ ncli.Expected buf → ∀ received_answer_,
    ncli.receive platform buf received_answer_ = received_answer_

section

variable {platform : Platform} {ncli : Ncli} {buf : Buffer}

/-- What `data_` takes is known from its parts. -/
theorem data_iff (addressed : ncli.Addressed buf) :
    ncli.data_ platform buf = true ↔
      ∃ peer topic status, buf.parts_ = [peer, topic, status] ∧
        PassesFor replyTopic platform.literal topic.bytes ∧
        PassesFor ncli.ncli_cmd_ret_ ncli.retMemory status.bytes := by
  unfold data_
  split
  · rename_i peer topic status parts
    have first := addressed peer (by rw [parts]; rfl)
    simp only [first, Bool.true_and, Bool.and_eq_true, memcmpEq_cString]
    constructor
    · exact fun passes => ⟨peer, topic, status, parts, passes⟩
    · rintro ⟨peer', topic', status', parts', passes⟩
      cases parts.symm.trans parts'
      exact passes
  · rename_i other
    constructor
    · exact fun taken => by cases taken
    · rintro ⟨peer, topic, status, parts, -⟩
      exact absurd parts (other peer topic status)

/-- A text passes for itself. -/
theorem passesFor_self (text : Bytes) (after : Nat → UInt8) : PassesFor text after text :=
  .inl (List.prefix_refl text)

theorem data_of_expected (addressed : ncli.Addressed buf) (expected : ncli.Expected buf) :
    ncli.data_ platform buf = true := by
  obtain ⟨peer, topic, status, parts, topic_eq, status_eq⟩ := expected
  refine (data_iff addressed).mpr ⟨peer, topic, status, parts, ?_, ?_⟩
  · rw [topic_eq]
    exact passesFor_self _ _
  · rw [status_eq]
    exact passesFor_self _ _

/-- A message in three parts that begins with the peer. -/
theorem addressed_ofParts {peer : Bytes} (topic status : Bytes)
    (same : memcmpEq (cString ncli.ncli_peer_ ncli.peerMemory) peer = true) :
    ncli.Addressed (.ofParts [peer, topic, status]) := by
  intro first there
  obtain rfl : BufferPart.ofBytes peer = first := Option.some.inj there
  rw [BufferPart.bytes_ofBytes]
  exact same

/-- A reply of `trans_pb` is taken exactly if its status begins the expected return. -/
theorem data_reply_iff {peer : Bytes} (is_ok : Bool)
    (same : memcmpEq (cString ncli.ncli_peer_ ncli.peerMemory) peer = true) :
    let status := ascii (if is_ok then "OK" else "KO")
    ncli.data_ platform (.ofParts [peer, replyTopic, status]) = true ↔
      status <+: ncli.ncli_cmd_ret_ := by
  intro status
  have noNul : 0 ∉ status := by cases is_ok <;> decide
  have parts : (Buffer.ofParts [peer, replyTopic, status]).parts_ =
      [.ofBytes peer, .ofBytes replyTopic, .ofBytes status] := rfl
  rw [data_iff (addressed_ofParts replyTopic status same)]
  constructor
  · rintro ⟨first, topic, last, parts', -, passes⟩
    cases parts.symm.trans parts'
    rw [BufferPart.bytes_ofBytes] at passes
    rcases passes with short | ⟨rest, whole, -⟩
    · exact short
    · exact absurd (whole ▸ by simp) noNul
  · intro short
    refine ⟨_, _, _, parts, ?_, ?_⟩
    · rw [BufferPart.bytes_ofBytes]
      exact passesFor_self replyTopic platform.literal
    · rw [BufferPart.bytes_ofBytes]
      exact .inl short

end

end Ncli

/-- When the first part is the addressed peer, `data_` takes the expected answer and nothing else,
exactly if topic and status do not both pass for what is expected without both being that. -/
theorem data_takesExpected_iff (platform : Platform) (ncli : Ncli) (buf : Buffer)
    (addressed : ncli.Addressed buf) :
    ncli.TakesExpected platform buf ↔
      ∀ peer topic status, buf.parts_ = [peer, topic, status] →
        PassesFor replyTopic platform.literal topic.bytes →
        PassesFor ncli.ncli_cmd_ret_ ncli.retMemory status.bytes →
          topic.bytes = replyTopic ∧ status.bytes = ncli.ncli_cmd_ret_ := by
  constructor
  · intro exact_ peer topic status parts topic_passes status_passes
    have taken : ncli.data_ platform buf = true :=
      (Ncli.data_iff addressed).mpr ⟨peer, topic, status, parts, topic_passes, status_passes⟩
    by_contra different
    have other : ¬ ncli.Expected buf := by
      rintro ⟨peer', topic', status', parts', equal⟩
      cases parts.symm.trans parts'
      exact different equal
    have left := exact_.leaves other false
    rw [Ncli.receive, if_pos taken] at left
    cases left
  · intro told
    constructor
    · intro expected received_answer_
      exact if_pos (Ncli.data_of_expected addressed expected)
    · intro other received_answer_
      refine if_neg fun taken => other ?_
      obtain ⟨peer, topic, status, parts, topic_passes, status_passes⟩ :=
        (Ncli.data_iff addressed).mp taken
      exact ⟨peer, topic, status, parts, told peer topic status parts topic_passes status_passes⟩

/-- A reply that succeeded, to a run that expects just that. -/
theorem data_takesExpected_ok :
    let platform := Platform.plain fun _ => none
    let ncli : Ncli := ⟨ascii "c3qo", [1], ascii "OK", fun _ => 0, fun _ => 0⟩
    ncli.TakesExpected platform
      (.ofParts [ascii "c3qo" ++ [0], ascii "PROTO.CMD.REP", ascii "OK"]) := by
  intro platform ncli
  refine (data_takesExpected_iff platform ncli _
    (Ncli.addressed_ofParts _ _ (by decide))).mpr ?_
  intro peer topic status parts _ _
  cases parts
  exact ⟨BufferPart.bytes_ofBytes _, BufferPart.bytes_ofBytes _⟩

/-- A run that expects `OKAY` takes the reply `OK` for it. -/
theorem data_takes_prefix :
    let platform := Platform.plain fun _ => none
    let ncli : Ncli := ⟨ascii "c3qo", [1], ascii "OKAY", fun _ => 0, fun _ => 0⟩
    let buf := Buffer.ofParts [ascii "c3qo" ++ [0], ascii "PROTO.CMD.REP", ascii "OK"]
    ncli.Addressed buf ∧ ¬ ncli.Expected buf ∧ ncli.receive platform buf false = true ∧
      ¬ ncli.TakesExpected platform buf := by
  intro platform ncli buf
  have other : ¬ ncli.Expected buf := by
    rintro ⟨peer, topic, status, parts, -, equal⟩
    cases parts
    exact absurd equal (by decide)
  have taken : ncli.receive platform buf false = true := by decide
  refine ⟨Ncli.addressed_ofParts _ _ (by decide), other, taken, fun exact_ => ?_⟩
  rw [exact_.leaves other] at taken
  cases taken

end C3qo
