/-!
# Byte strings

A byte string is a list of bytes.  This file holds what every format of the
library shares: numbers of a fixed width in either byte order, splitting into
blocks, padding, and the exclusive or of two strings.
-/

namespace PeerMail

/-- A byte string, first byte first. -/
abbrev Bytes := List UInt8

namespace Bytes

/-! ## Numbers -/

/-- The number whose base-256 digits are the bytes, least significant first. -/
def toNatLE : Bytes → Nat
  | [] => 0
  | byte :: rest => byte.toNat + 256 * toNatLE rest

/-- The number whose base-256 digits are the bytes, most significant first. -/
def toNatBE (bytes : Bytes) : Nat := toNatLE bytes.reverse

/-- The lowest `width` base-256 digits of a number, least significant first. -/
def ofNatLE : (width : Nat) → Nat → Bytes
  | 0, _ => []
  | width + 1, value => UInt8.ofNat value :: ofNatLE width (value / 256)

/-- The lowest `width` base-256 digits of a number, most significant first. -/
def ofNatBE (width value : Nat) : Bytes := (ofNatLE width value).reverse

@[simp] theorem length_ofNatLE (width value : Nat) : (ofNatLE width value).length = width := by
  induction width generalizing value with
  | zero => rfl
  | succ width ih => simp [ofNatLE, ih]

@[simp] theorem length_ofNatBE (width value : Nat) : (ofNatBE width value).length = width := by
  simp [ofNatBE]

/-- Digits that are written are read back, up to the width. -/
theorem toNatLE_ofNatLE (width value : Nat) :
    toNatLE (ofNatLE width value) = value % Nat.pow 256 width := by
  induction width generalizing value with
  | zero => simp [ofNatLE, toNatLE, Nat.mod_one]
  | succ width ih =>
      have hbyte : (UInt8.ofNat value).toNat = value % 256 := rfl
      have hpower : Nat.pow 256 (width + 1) = 256 * Nat.pow 256 width := Nat.mul_comm _ _
      rw [ofNatLE, toNatLE, ih, hbyte, hpower, Nat.mod_mul]

/-- A number read from a byte string fits the string's width. -/
theorem toNatLE_lt (bytes : Bytes) : toNatLE bytes < Nat.pow 256 bytes.length := by
  induction bytes with
  | nil => simp [toNatLE]
  | cons byte rest ih =>
      have hbyte : byte.toNat < 256 := byte.toNat_lt
      have hpower : Nat.pow 256 (rest.length + 1) = 256 * Nat.pow 256 rest.length :=
        Nat.mul_comm _ _
      simp only [toNatLE, List.length_cons, hpower]
      omega

/-! ## Blocks -/

/-- The first `count` blocks of `size` bytes; a block past the end is short. -/
def blocks (size : Nat) : (count : Nat) → Bytes → List Bytes
  | 0, _ => []
  | count + 1, bytes => bytes.take size :: blocks size count (bytes.drop size)

/-- All blocks of `size` bytes, the last one possibly short; none of an empty string. -/
def split (size : Nat) (bytes : Bytes) : List Bytes :=
  blocks size ((bytes.length + (size - 1)) / size) bytes

/-- The string with zeros behind it up to `size` bytes. -/
def padRight (size : Nat) (bytes : Bytes) : Bytes :=
  bytes ++ List.replicate (size - bytes.length) 0

/-- Exclusive or, byte by byte, as long as the shorter string. -/
def xor (left right : Bytes) : Bytes := List.zipWith (· ^^^ ·) left right

/-! ## Words -/

/-- The 32-bit words of a string, least significant byte first; a short rest is dropped. -/
def words32LE : Bytes → List UInt32
  | a :: b :: c :: d :: rest => UInt32.ofNat (toNatLE [a, b, c, d]) :: words32LE rest
  | _ => []

/-- The bytes of 32-bit words, least significant byte first. -/
def ofWords32LE (words : List UInt32) : Bytes :=
  words.flatMap fun word => ofNatLE 4 word.toNat

/-- The bytes of an ASCII text. -/
def ofAscii (text : String) : Bytes := text.toList.map fun c => UInt8.ofNat c.toNat

end Bytes

end PeerMail
