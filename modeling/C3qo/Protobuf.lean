import Mathlib.Data.List.Basic
import Mathlib.Tactic.SplitIfs

/-!
# The wire format of protocol buffers

A message is a sequence of numbered fields, each with a number of any size or a string of bytes as
its value. Fields with the default value are left out. Of several fields with one number the last
one counts.
-/

namespace Protobuf

/-- A number in base 128, the lowest digit first. All bytes but the last have their high bit set. -/
def varint (n : Nat) : List UInt8 :=
  if n < 128 then [.ofNat n] else .ofNat (n % 128 + 128) :: varint (n / 128)

/-- The number at the start of the bytes, and what follows it. -/
def readVarint : List UInt8 → Option (Nat × List UInt8)
  | [] => none
  | byte :: bytes =>
      if byte.toNat < 128 then
        some (byte.toNat, bytes)
      else
        (readVarint bytes).map fun (high, rest) => (byte.toNat - 128 + 128 * high, rest)

/-- The value of a field. -/
inductive Value
  /-- Wire type 0. -/
  | varint (n : Nat)
  /-- Wire type 2. -/
  | bytes (data : List UInt8)
  deriving DecidableEq

/-- A field of a message. -/
structure Field where
  /-- The number of the field. -/
  number : Nat
  /-- Its value. -/
  value : Value
  deriving DecidableEq

/-- The bytes of a field: number and wire type, then the value. -/
def Field.encode : Field → List UInt8
  | ⟨number, .varint n⟩ => Protobuf.varint (8 * number) ++ Protobuf.varint n
  | ⟨number, .bytes data⟩ => Protobuf.varint (8 * number + 2) ++ Protobuf.varint data.length ++ data

/-- The field at the start of the bytes, and what follows it. -/
def readField (bytes : List UInt8) : Option (Field × List UInt8) :=
  match readVarint bytes with
  | none => none
  | some (tag, bytes) =>
      match readVarint bytes with
      | none => none
      | some (n, bytes) =>
          match tag % 8 with
          | 0 => some (⟨tag / 8, .varint n⟩, bytes)
          | 2 =>
              if n ≤ bytes.length then
                some (⟨tag / 8, .bytes (bytes.take n)⟩, bytes.drop n)
              else
                none
          | _ => none

/-- The bytes of a message. -/
def encode (fields : List Field) : List UInt8 := fields.flatMap Field.encode

/-- The fields of a message that has at most a given number of them. -/
def readFields : Nat → List UInt8 → Option (List Field)
  | _, [] => some []
  | 0, _ => none
  | fuel + 1, bytes =>
      match readField bytes with
      | none => none
      | some (field, bytes) => (readFields fuel bytes).map (field :: ·)

/-- The fields of a message. -/
def decode (bytes : List UInt8) : Option (List Field) := readFields bytes.length bytes

/-- The last value given to a field, if any. -/
def find (number : Nat) (fields : List Field) : Option Value :=
  fields.reverse.findSome? fun field => if field.number = number then some field.value else none

/-- A field with a number, left out if that is 0. -/
def numberField (number n : Nat) : List Field := if n = 0 then [] else [⟨number, .varint n⟩]

/-- A field with bytes, left out if there are none. -/
def bytesField (number : Nat) (data : List UInt8) : List Field :=
  if data = [] then [] else [⟨number, .bytes data⟩]

/-- The value of a field with a number. -/
def getNumber (number : Nat) (fields : List Field) : Nat :=
  match find number fields with
  | some (.varint n) => n
  | _ => 0

/-- The value of a field with bytes. -/
def getBytes (number : Nat) (fields : List Field) : List UInt8 :=
  match find number fields with
  | some (.bytes data) => data
  | _ => []

/-! ## Reading what has been written -/

theorem readVarint_varint (n : Nat) (rest : List UInt8) :
    readVarint (varint n ++ rest) = some (n, rest) := by
  induction n using Nat.strongRecOn with
  | ind n ih =>
      rw [varint]
      split_ifs with small
      · have byte : (UInt8.ofNat n).toNat = n := UInt8.toNat_ofNat_of_lt (by change n < 256; omega)
        simp [readVarint, byte, small]
      · have byte : (UInt8.ofNat (n % 128 + 128)).toNat = n % 128 + 128 :=
          UInt8.toNat_ofNat_of_lt (by change _ < 256; omega)
        have high : ¬ n % 128 + 128 < 128 := by omega
        simp only [List.cons_append, readVarint, byte, high, ↓reduceIte, ih (n / 128) (by omega),
          Option.map_some, Option.some.injEq, Prod.mk.injEq, and_true]
        omega

theorem varint_ne_nil (n : Nat) : varint n ≠ [] := by
  rw [varint]
  split_ifs <;> simp

theorem readField_encode (field : Field) (rest : List UInt8) :
    readField (field.encode ++ rest) = some (field, rest) := by
  obtain ⟨number, value⟩ := field
  cases value with
  | varint n =>
      have type_ : 8 * number % 8 = 0 := by omega
      have tag : 8 * number / 8 = number := by omega
      simp [Field.encode, readField, readVarint_varint, type_]
  | bytes data =>
      have type_ : (8 * number + 2) % 8 = 2 := by omega
      have tag : (8 * number + 2) / 8 = number := by omega
      simp [Field.encode, readField, readVarint_varint, type_, tag]

theorem Field.encode_ne_nil (field : Field) : field.encode ≠ [] := by
  obtain ⟨number, value⟩ := field
  cases value <;> simp [encode, varint_ne_nil]

theorem readFields_encode (fields : List Field) {fuel : Nat} (enough : fields.length ≤ fuel) :
    readFields fuel (encode fields) = some fields := by
  induction fields generalizing fuel with
  | nil => cases fuel <;> rfl
  | cons field fields ih =>
      obtain _ | fuel := fuel
      · cases enough
      · obtain ⟨byte, bytes, first⟩ := List.exists_cons_of_ne_nil field.encode_ne_nil
        have whole : encode (field :: fields) = byte :: (bytes ++ encode fields) := by
          rw [encode, List.flatMap_cons, first]
          rfl
        have read : readField (byte :: (bytes ++ encode fields)) = some (field, encode fields) := by
          rw [← List.cons_append, ← first]
          exact readField_encode field _
        rw [whole, readFields]
        · simp only [read, ih (Nat.le_of_succ_le_succ enough), Option.map_some]
        · simp

/-- What has been encoded is decoded. -/
theorem decode_encode (fields : List Field) : decode (encode fields) = some fields := by
  refine readFields_encode fields ?_
  induction fields with
  | nil => exact Nat.zero_le _
  | cons field fields ih =>
      have some_byte := List.length_pos_of_ne_nil field.encode_ne_nil
      rw [encode, List.flatMap_cons, List.length_append, List.length_cons]
      exact Nat.add_comm .. ▸ Nat.add_le_add some_byte ih

theorem find_append (number : Nat) (fields fields' : List Field) :
    find number (fields ++ fields') = (find number fields').or (find number fields) := by
  simp [find, List.findSome?_append]

@[simp] theorem find_numberField_of_ne {number number' : Nat} (different : number' ≠ number)
    (n : Nat) : find number (numberField number' n) = none := by
  unfold numberField
  split_ifs <;> simp [find, different]

@[simp] theorem find_bytesField_of_ne {number number' : Nat} (different : number' ≠ number)
    (data : List UInt8) : find number (bytesField number' data) = none := by
  unfold bytesField
  split_ifs <;> simp [find, different]

/-- A number is read back where no other field has its number. -/
theorem getNumber_eq {number n : Nat} {fields : List Field}
    (written : find number fields = find number (numberField number n)) :
    getNumber number fields = n := by
  rw [getNumber, written, numberField]
  split_ifs with zero
  · exact zero.symm
  · simp [find]

/-- Bytes are read back where no other field has their number. -/
theorem getBytes_eq {number : Nat} {data : List UInt8} {fields : List Field}
    (written : find number fields = find number (bytesField number data)) :
    getBytes number fields = data := by
  rw [getBytes, written, bytesField]
  split_ifs with empty
  · exact empty.symm
  · simp [find]

end Protobuf
