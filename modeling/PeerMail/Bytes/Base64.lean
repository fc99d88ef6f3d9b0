import PeerMail.Bytes

/-!
# Base64 text for names

The URL-safe alphabet without padding.  Three bytes are four digits; one or two
bytes at the end are two or three digits, and the unused low bits of the last
digit have to be zero, so a byte string has one text.
-/

namespace PeerMail.Base64

/-- The digit of a number below 64. -/
def digit (value : Nat) : Char :=
  if value < 26 then Char.ofNat (65 + value)
  else if value < 52 then Char.ofNat (71 + value)
  else if value < 62 then Char.ofNat (value - 4)
  else if value = 62 then '-'
  else '_'

/-- The value of a digit. -/
def value? (c : Char) : Option Nat :=
  let code := c.toNat
  if 65 ≤ code ∧ code ≤ 90 then some (code - 65)
  else if 97 ≤ code ∧ code ≤ 122 then some (code - 71)
  else if 48 ≤ code ∧ code ≤ 57 then some (code + 4)
  else if c = '-' then some 62
  else if c = '_' then some 63
  else none

/-- The digits of a byte string. -/
def encode : Bytes → List Char
  | [] => []
  | [a] => [digit (a.toNat / 4), digit (a.toNat % 4 * 16)]
  | [a, b] =>
      [digit (a.toNat / 4), digit (a.toNat % 4 * 16 + b.toNat / 16), digit (b.toNat % 16 * 4)]
  | a :: b :: c :: rest =>
      digit (a.toNat / 4) :: digit (a.toNat % 4 * 16 + b.toNat / 16) ::
        digit (b.toNat % 16 * 4 + c.toNat / 64) :: digit (c.toNat % 64) :: encode rest

/-- The byte string with the given digits. -/
def decode? : List Char → Option Bytes
  | [] => some []
  | [_] => none
  | [p, q] => do
      let p ← value? p
      let q ← value? q
      if q % 16 = 0 then some [UInt8.ofNat (4 * p + q / 16)] else none
  | [p, q, r] => do
      let p ← value? p
      let q ← value? q
      let r ← value? r
      if r % 4 = 0 then
        some [UInt8.ofNat (4 * p + q / 16), UInt8.ofNat (q % 16 * 16 + r / 4)]
      else none
  | p :: q :: r :: s :: rest => do
      let p ← value? p
      let q ← value? q
      let r ← value? r
      let s ← value? s
      let rest ← decode? rest
      return UInt8.ofNat (4 * p + q / 16) :: UInt8.ofNat (q % 16 * 16 + r / 4) ::
        UInt8.ofNat (r % 4 * 64 + s) :: rest

/-- The digits as text. -/
def text (bytes : Bytes) : String := String.ofList (encode bytes)

end PeerMail.Base64
