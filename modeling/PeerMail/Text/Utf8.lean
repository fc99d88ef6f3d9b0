import PeerMail.Bytes

/-!
# UTF-8

The bytes of a text and back.  Bytes that are no text are refused with the
place and kind of the first fault (`Fault`): a character that cannot go on
after so many bytes, or an input that ends inside a character.
-/

namespace PeerMail.Utf8

/-- The bytes of a text. -/
def encode (text : String) : Bytes := text.toByteArray.data.toList

/-- The text with the given bytes, if they are well formed. -/
def decode? (bytes : Bytes) : Option String := String.fromUTF8? ⟨bytes.toArray⟩

/-- Every text is read back from its bytes. -/
@[simp] theorem decode?_encode (text : String) : decode? (encode text) = some text := by
  have hbytes : (⟨(encode text).toArray⟩ : ByteArray) = text.toByteArray := by simp [encode]
  simp only [decode?, String.fromUTF8?, hbytes]
  rw [dif_pos text.isValidUTF8]
  rfl

/-! ## Where the first fault is -/

/-- The first fault of ill-formed bytes. -/
inductive Fault where
  /-- At `index`, the first `length` bytes begin no character. -/
  | invalid (length index : Nat)
  /-- The character at `index` lacks its last bytes. -/
  | incomplete (index : Nat)
deriving DecidableEq, Repr

/-- The fault in words. -/
def Fault.message : Fault → String
  | .invalid length index => s!"invalid utf-8 sequence of {length} bytes from index {index}"
  | .incomplete index => s!"incomplete utf-8 byte sequence from index {index}"

/-- The ranges of the bytes that have to follow a leading byte. -/
def follow? (lead : UInt8) : Option (List (UInt8 × UInt8)) :=
  let tail : UInt8 × UInt8 := (0x80, 0xBF)
  if lead ≤ 0x7F then some []
  else if lead < 0xC2 then none
  else if lead ≤ 0xDF then some [tail]
  else if lead = 0xE0 then some [(0xA0, 0xBF), tail]
  else if lead = 0xED then some [(0x80, 0x9F), tail]
  else if lead ≤ 0xEF then some [tail, tail]
  else if lead = 0xF0 then some [(0x90, 0xBF), tail, tail]
  else if lead ≤ 0xF3 then some [tail, tail, tail]
  else if lead = 0xF4 then some [(0x80, 0x8F), tail, tail]
  else none

/-- Walks over the bytes; the character at `index` has `seen` bytes so far and owes `owed`. -/
def scan (index seen : Nat) (owed : List (UInt8 × UInt8)) : Bytes → Option Fault
  | [] => if owed.isEmpty then none else some (.incomplete index)
  | byte :: rest =>
      match owed with
      | [] =>
          match follow? byte with
          | none => some (.invalid 1 index)
          | some [] => scan (index + 1) 0 [] rest
          | some owed => scan index 1 owed rest
      | (low, high) :: owed =>
          if low ≤ byte ∧ byte ≤ high then
            if owed.isEmpty then scan (index + seen + 1) 0 [] rest
            else scan index (seen + 1) owed rest
          else some (.invalid seen index)

/-- The first fault of a byte string, if it has one. -/
def fault? (bytes : Bytes) : Option Fault := scan 0 0 [] bytes

/-- The text with the given bytes, or the first fault. -/
def decode (bytes : Bytes) : Except Fault String :=
  match decode? bytes with
  | some text => .ok text
  | none => .error ((fault? bytes).getD (.incomplete 0))

end PeerMail.Utf8
