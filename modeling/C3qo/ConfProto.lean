import C3qo.NcliOptions
import C3qo.Protobuf

/-!
# Commands on the wire

What `ncli` and `c3qo` rely on of the code that is generated from `conf.proto`, and the encoding of
`conf.proto` in the format of protocol buffers, which has it.
-/

namespace C3qo

/-- `command__unpack` inverts `command__pack`, which needs at least one byte for a command whose
oneof is set. -/
structure Codec (unpack : Bytes → Option Command) (pack : CommandStruct → Bytes) : Prop where
  /-- What has been packed is unpacked. -/
  unpack_pack : ∀ cmd, unpack (pack cmd) = some cmd.read
  /-- A member of the oneof takes some bytes. -/
  pack_ne_nil : ∀ cmd, cmd ≠ .notSet → pack cmd ≠ []

namespace ConfProto

open Protobuf

/-- A field of type `int32`, sign-extended to 64 bits. -/
def int32 (number : Nat) (n : Int32) : List Field := numberField number (n.toInt % 2 ^ 64).toNat

/-- A field of type `bool`. -/
def bool (number : Nat) (flag : Bool) : List Field := numberField number flag.toNat

/-- A field of type `string`, for which null is the empty string. -/
def string (number : Nat) (text : Option String) : List Field :=
  bytesField number (text.getD "").toUTF8.data.toList

/-- The value of a field of type `int32`. -/
def getInt32 (number : Nat) (fields : List Field) : Int :=
  (Int32.ofNat (getNumber number fields)).toInt

/-- The value of a field of type `bool`. -/
def getBool (number : Nat) (fields : List Field) : Bool := getNumber number fields ≠ 0

/-- The value of a field of type `string`. -/
def getString (number : Nat) (fields : List Field) : String :=
  (String.fromUTF8? ⟨(getBytes number fields).toArray⟩).getD ""

/-- A member of the oneof that is a message. -/
def message (number : Nat) (fields : List Field) : List Field := [⟨number, .bytes (encode fields)⟩]

/-- The fields of `Command`. -/
def fields : CommandStruct → List Field
  | .add id type_ => message 1 (int32 1 id ++ string 2 type_)
  | .start id => message 2 (int32 1 id)
  | .stop id => message 3 (int32 1 id)
  | .del id => message 4 (int32 1 id)
  | .bind id port dest => message 5 (int32 1 id ++ int32 2 port ++ int32 3 dest)
  | .hookZmq id client type_ name addr =>
      message 6 (int32 1 id ++ bool 2 client ++ int32 3 type_ ++ string 4 name ++ string 5 addr)
  | .term term => [⟨7, .varint term.toNat⟩]
  | .notSet => []

/-- The command that one member of the oneof stands for. -/
def member : Field → Option Command
  | ⟨7, .varint _⟩ => some .term
  | ⟨number, .bytes data⟩ =>
      (decode data).bind fun fields =>
        let id := getInt32 1 fields
        match number with
        | 1 => some (.add id (getString 2 fields))
        | 2 => some (.start id)
        | 3 => some (.stop id)
        | 4 => some (.del id)
        | 5 => some (.bind id (getInt32 2 fields) (getInt32 3 fields))
        | 6 => some (.hookZmq id (getBool 2 fields) (getInt32 3 fields) (getString 4 fields)
            (getString 5 fields))
        | _ => none
  | _ => none

/-- `command__pack`. -/
def pack (cmd : CommandStruct) : Bytes := encode (fields cmd)

/-- `command__unpack`: the last member of the oneof is the command. -/
def unpack (data : Bytes) : Option Command :=
  (decode data).map fun fields => (fields.reverse.findSome? member).getD .notSet

/-! ## Packing and unpacking -/

theorem getInt32_eq {number : Nat} {n : Int32} {fields : List Field}
    (written : find number fields = find number (int32 number n)) :
    getInt32 number fields = n.toInt := by
  have low := n.le_toInt
  have high := n.toInt_lt
  rw [getInt32, getNumber_eq written, Int32.toInt_ofNat',
    Int.toNat_of_nonneg (Int.emod_nonneg _ (by decide)), Int.bmod_def]
  simp only [Int32.size]
  omega

theorem getBool_eq {number : Nat} {flag : Bool} {fields : List Field}
    (written : find number fields = find number (bool number flag)) :
    getBool number fields = flag := by
  rw [getBool, getNumber_eq written]
  cases flag <;> rfl

theorem getString_eq {number : Nat} {text : Option String} {fields : List Field}
    (written : find number fields = find number (string number text)) :
    getString number fields = text.getD "" := by
  have utf8 : String.fromUTF8? (text.getD "").toUTF8 = some (text.getD "") :=
    dif_pos (text.getD "").isValidUTF8
  rw [getString, getBytes_eq written, Array.toArray_toList, utf8, Option.getD_some]

@[simp] theorem find_int32_of_ne {number number' : Nat} (different : number' ≠ number)
    (n : Int32) : find number (int32 number' n) = none :=
  find_numberField_of_ne different _

@[simp] theorem find_bool_of_ne {number number' : Nat} (different : number' ≠ number)
    (flag : Bool) : find number (bool number' flag) = none :=
  find_numberField_of_ne different _

@[simp] theorem find_string_of_ne {number number' : Nat} (different : number' ≠ number)
    (text : Option String) : find number (string number' text) = none :=
  find_bytesField_of_ne different _

theorem unpack_message (number : Nat) (sent : List Field) :
    unpack (encode (message number sent)) =
      some ((member ⟨number, .bytes (encode sent)⟩).getD .notSet) := by
  simp [unpack, message, decode_encode]

theorem unpack_pack (cmd : CommandStruct) : unpack (pack cmd) = some cmd.read := by
  cases cmd with
  | add id type_ =>
      have read_id : getInt32 1 (int32 1 id ++ string 2 type_) = id.toInt :=
        getInt32_eq (by simp [find_append])
      have read_type : getString 2 (int32 1 id ++ string 2 type_) = type_.getD "" :=
        getString_eq (by simp [find_append])
      simp only [pack, fields, unpack_message, member, decode_encode, Option.bind_some, read_id,
        read_type, Option.getD_some, CommandStruct.read]
  | start id =>
      simp only [pack, fields, unpack_message, member, decode_encode, Option.bind_some,
        getInt32_eq rfl, Option.getD_some, CommandStruct.read]
  | stop id =>
      simp only [pack, fields, unpack_message, member, decode_encode, Option.bind_some,
        getInt32_eq rfl, Option.getD_some, CommandStruct.read]
  | del id =>
      simp only [pack, fields, unpack_message, member, decode_encode, Option.bind_some,
        getInt32_eq rfl, Option.getD_some, CommandStruct.read]
  | bind id port dest =>
      let sent := int32 1 id ++ int32 2 port ++ int32 3 dest
      have read_id : getInt32 1 sent = id.toInt := getInt32_eq (by simp [sent, find_append])
      have read_port : getInt32 2 sent = port.toInt := getInt32_eq (by simp [sent, find_append])
      have read_dest : getInt32 3 sent = dest.toInt := getInt32_eq (by simp [sent, find_append])
      change unpack (encode (message 5 sent)) = _
      simp only [unpack_message, member, decode_encode, Option.bind_some, read_id, read_port,
        read_dest, Option.getD_some, CommandStruct.read]
  | hookZmq id client type_ name addr =>
      let sent :=
        int32 1 id ++ bool 2 client ++ int32 3 type_ ++ string 4 name ++ string 5 addr
      have read_id : getInt32 1 sent = id.toInt := getInt32_eq (by simp [sent, find_append])
      have read_client : getBool 2 sent = client := getBool_eq (by simp [sent, find_append])
      have read_type : getInt32 3 sent = type_.toInt := getInt32_eq (by simp [sent, find_append])
      have read_name : getString 4 sent = name.getD "" :=
        getString_eq (by simp [sent, find_append])
      have read_addr : getString 5 sent = addr.getD "" :=
        getString_eq (by simp [sent, find_append])
      change unpack (encode (message 6 sent)) = _
      simp only [unpack_message, member, decode_encode, Option.bind_some, read_id, read_client,
        read_type, read_name, read_addr, Option.getD_some, CommandStruct.read]
  | term term =>
      simp [pack, fields, unpack, member, decode_encode, CommandStruct.read]
  | notSet => rfl

theorem pack_ne_nil (cmd : CommandStruct) (set : cmd ≠ .notSet) : pack cmd ≠ [] := by
  have filled (field : Field) : encode [field] ≠ [] := by
    simpa [encode] using field.encode_ne_nil
  cases cmd with
  | notSet => exact absurd rfl set
  | _ => exact filled _

/-- The encoding has what both programs rely on. -/
theorem codec : Codec unpack pack := ⟨unpack_pack, pack_ne_nil⟩

end ConfProto

end C3qo
