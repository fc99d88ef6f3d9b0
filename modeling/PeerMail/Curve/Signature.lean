import PeerMail.Curve.Edwards
import PeerMail.Curve.Montgomery
import PeerMail.Hash.Sha2

/-!
# Ed25519 signatures

Signing with a derived nonce, and verification without cofactor: the first half of a
signature has to equal the recomputed point byte for byte, with the key's bytes
hashed as they are given.  Keys of small order are allowed.
-/

namespace PeerMail.Ed25519

/-- Length of a secret seed and of a public key. -/
def keyLength : Nat := 32

/-- Length of a signature. -/
def signatureLength : Nat := 64

/-- The secret scalar: the first half of the hashed seed, clamped. -/
def secretScalar (seed : Bytes) : Nat := X25519.clamp ((sha512 seed).take 32)

/-- The public key of a seed. -/
def publicKey (seed : Bytes) : Bytes := (Point.base.times (secretScalar seed)).toBytes

/-- The scalar that binds a signature to commitment, key and data. -/
def challenge (commitment key data : Bytes) : Nat :=
  Bytes.toNatLE (sha512 (commitment ++ key ++ data)) % Point.order

/-- The 64-byte signature over data. -/
def sign (seed data : Bytes) : Bytes :=
  let secret := secretScalar seed
  let key := publicKey seed
  let nonce := Bytes.toNatLE (sha512 ((sha512 seed).drop 32 ++ data)) % Point.order
  let commitment := (Point.base.times nonce).toBytes
  let response := (nonce + challenge commitment key data * secret) % Point.order
  commitment ++ Bytes.ofNatLE 32 response

/-- Whether a signature over data verifies under a key.  A key that is no point, a signature of
another length and a second half that is not below the group order fail. -/
def verify (key data signature : Bytes) : Bool :=
  match Point.ofBytes? key with
  | none => false
  | some point =>
      let commitment := signature.take 32
      let response := Bytes.toNatLE (signature.drop 32)
      decide (key.length = keyLength) && decide (signature.length = signatureLength) &&
        decide (response < Point.order) &&
        decide (((Point.base.times response).add
          (point.neg.times (challenge commitment key data))).toBytes = commitment)

@[simp] theorem length_publicKey (seed : Bytes) : (publicKey seed).length = 32 := by
  simp [publicKey]

@[simp] theorem length_sign (seed data : Bytes) : (sign seed data).length = 64 := by
  simp [sign]

end PeerMail.Ed25519
