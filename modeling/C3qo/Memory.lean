import Mathlib.Data.List.Basic

/-!
# Bytes, pointers and buffers

The values every other module passes around: raw bytes, `void *` addresses, the identity of a
block object, the C string comparison of the message handlers, and the multi-part buffers that
flow between blocks.
-/

namespace C3qo

/-- A byte string. -/
abbrev Bytes := List UInt8

/-- A `void *`: null, or an address. -/
abbrev Pointer := Option Nat

/-- The identity of a block object. Two allocations never share one. -/
abbrev BlockRef := Nat

/-- The bytes of a string literal of the source, without its final NUL. -/
def ascii (literal : String) : Bytes :=
  literal.toList.map fun char => UInt8.ofNat char.toNat

/-- The memory from the start of a C string: its bytes, its NUL, and whatever follows it. -/
def cString (text : Bytes) (after : Nat → UInt8) : Nat → UInt8 :=
  fun index => ((text ++ [0])[index]?).getD (after (index - (text.length + 1)))

/-- `memcmp(memory, data, len) == 0` where `data` holds the `len` bytes compared. -/
def memcmpEq : (Nat → UInt8) → Bytes → Bool
  | _, [] => true
  | memory, byte :: bytes => memory 0 == byte && memcmpEq (fun index => memory (index + 1)) bytes

@[simp] theorem memcmpEq_nil (memory : Nat → UInt8) : memcmpEq memory [] = true := rfl

theorem cString_cons_zero (byte : UInt8) (text : Bytes) (after : Nat → UInt8) :
    cString (byte :: text) after 0 = byte := rfl

theorem cString_cons_succ (byte : UInt8) (text : Bytes) (after : Nat → UInt8) :
    (fun index => cString (byte :: text) after (index + 1)) = cString text after := by
  funext index
  simp [cString]

theorem cString_nil_succ (after : Nat → UInt8) :
    (fun index => cString [] after (index + 1)) = after := by
  funext index
  simp [cString]

/-- The bytes that compare equal to a C string are its prefixes, and its extensions through the
NUL into the memory that follows. -/
theorem memcmpEq_cString (text bytes : Bytes) (after : Nat → UInt8) :
    memcmpEq (cString text after) bytes = true ↔
      bytes <+: text ∨ ∃ rest, bytes = text ++ 0 :: rest ∧ memcmpEq after rest = true := by
  induction text generalizing bytes with
  | nil =>
      cases bytes with
      | nil => simp
      | cons byte bytes =>
          simp only [memcmpEq, cString_nil_succ, Bool.and_eq_true, beq_iff_eq]
          constructor
          · rintro ⟨head, tail⟩
            exact .inr ⟨bytes, by simpa [cString] using head.symm, tail⟩
          · rintro (short | ⟨rest, whole, tail⟩)
            · simp at short
            · obtain ⟨rfl, rfl⟩ : byte = 0 ∧ bytes = rest := by simpa using whole
              exact ⟨rfl, tail⟩
  | cons first text ih =>
      cases bytes with
      | nil => simp
      | cons byte bytes =>
          simp only [memcmpEq, cString_cons_zero, cString_cons_succ, Bool.and_eq_true, beq_iff_eq,
            ih, List.cons_prefix_cons, List.cons_append, List.cons.injEq]
          constructor
          · rintro ⟨rfl, short | ⟨rest, rfl, tail⟩⟩
            · exact .inl ⟨rfl, short⟩
            · exact .inr ⟨rest, ⟨rfl, rfl⟩, tail⟩
          · rintro (⟨rfl, short⟩ | ⟨rest, ⟨rfl, rfl⟩, tail⟩)
            · exact ⟨rfl, .inl short⟩
            · exact ⟨rfl, .inr ⟨rest, rfl, tail⟩⟩

/-- One part of a message: an array one byte longer than the length it is given out with. -/
structure BufferPart where
  /-- The allocated array. -/
  data : Bytes
  /-- The length of the part, its terminator not counted. -/
  len : Nat
  /-- The array holds the part and one more byte. -/
  allocated : data.length = len + 1
  deriving DecidableEq

namespace BufferPart

/-- The bytes of the part. -/
def bytes (part : BufferPart) : Bytes := part.data.take part.len

/-- The part that `buffer::push_back` allocates: a copy of the data and a null byte. -/
def ofBytes (data : Bytes) : BufferPart where
  data := data ++ [0]
  len := data.length
  allocated := by simp

@[simp] theorem bytes_ofBytes (data : Bytes) : (ofBytes data).bytes = data := by
  simp [bytes, ofBytes]

end BufferPart

/-- A complete message with several parts. -/
structure Buffer where
  /-- The parts, in order. -/
  parts_ : List BufferPart
  deriving DecidableEq

namespace Buffer

/-- A buffer that has just been declared. -/
def empty : Buffer := ⟨[]⟩

/-- `buffer::push_back`: add a part to the buffer. -/
def pushBack (buf : Buffer) (data : Bytes) : Buffer :=
  ⟨buf.parts_ ++ [BufferPart.ofBytes data]⟩

/-- The buffer that pushing these parts one after the other builds. -/
def ofParts (parts : List Bytes) : Buffer := parts.foldl pushBack empty

end Buffer

end C3qo
