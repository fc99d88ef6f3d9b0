import PeerMail.Bytes

/-!
# Poly1305

The one-time authenticator of RFC 8439: the message blocks, each with a one bit
above it, are the coefficients of a polynomial that is evaluated at the clamped
first half of the key modulo 2^130 - 5; the second half is added modulo 2^128.
-/

namespace PeerMail.Poly1305

/-- The modulus. -/
def prime : Nat := Nat.pow 2 130 - 5

/-- The mask that clears 22 bits of the point of evaluation. -/
def clampMask : Nat := 0x0ffffffc0ffffffc0ffffffc0fffffff

/-- A block as a number, with a one bit just above its last byte. -/
def coefficient (block : Bytes) : Nat := Bytes.toNatLE block + Nat.pow 256 block.length

/-- The polynomial of the blocks at `point`, started from `sum`. -/
def evaluate (point sum : Nat) (blocks : List Bytes) : Nat :=
  blocks.foldl (fun sum block => (sum + coefficient block) * point % prime) sum

/-- The 16-byte tag of a message under a 32-byte one-time key. -/
def tag (key message : Bytes) : Bytes :=
  let point := Bytes.toNatLE (key.take 16) &&& clampMask
  let offset := Bytes.toNatLE (key.drop 16)
  Bytes.ofNatLE 16 (evaluate point 0 (Bytes.split 16 message) + offset)

@[simp] theorem length_tag (key message : Bytes) : (tag key message).length = 16 := by
  simp [tag]

end PeerMail.Poly1305
