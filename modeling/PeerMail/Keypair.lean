import PeerMail.Cipher.XChaCha20Poly1305
import PeerMail.Curve.Signature
import PeerMail.Hash.Derivation
import PeerMail.Identity
import PeerMail.Wire.Error

/-!
# Keys, signatures and sealed boxes

Every peer and every thread has one pair of keys.  It signs, and boxes can be
sealed to its public half: the key is taken to the Montgomery curve, agreed
with a fresh ephemeral key, and the agreed secret is turned into the key of the
cipher, together with both public values.  A box holds the ephemeral key, the
nonce and the cipher text, one after the other.
-/

namespace PeerMail

/-! ## Public keys -/

namespace PublicKey

/-- The point of a public key. -/
def point (key : Bytes) : Except WireError Point :=
  if key.length = Ed25519.keyLength then
    match Point.ofBytes? key with
    | some point => .ok point
    | none => .error (.invalidKey "signature error: Cannot decompress Edwards point")
  else
    .error (.invalidKey s!"expected 32 key bytes, got {key.length}")

/-- Refuses bytes that are no public key. -/
def validate (key : Bytes) : Except WireError Unit := do
  let _ ← point key

/-- Refuses a signature that does not verify over the data, for whatever reason. -/
def verify (key data signature : Bytes) : Except WireError Unit :=
  if Ed25519.verify key data signature then .ok () else .error .badSignature

end PublicKey

/-! ## Pairs of keys -/

/-- A pair of keys, kept as its 32 secret bytes. -/
structure Keypair where
  secret : Bytes.Exactly 32
deriving DecidableEq

namespace Keypair

/-- The pair with the given secret bytes. -/
def ofSecret (bytes : Bytes) : Except WireError Keypair :=
  match Bytes.exactly? 32 bytes with
  | some secret => .ok ⟨secret⟩
  | none => .error (.invalidKey s!"expected 32 secret bytes, got {bytes.length}")

/-- The 32 bytes of the public key. -/
def publicKey (pair : Keypair) : Bytes := Ed25519.publicKey pair.secret.val

/-- The name of the peer that owns the pair. -/
def peerId (pair : Keypair) : PeerId := .ofKey pair.publicKey

/-- The 64-byte signature over data. -/
def sign (pair : Keypair) (data : Bytes) : Bytes := Ed25519.sign pair.secret.val data

/-- A record of the pair without its secret. -/
def brief (pair : Keypair) : String :=
  "Keypair \x7b peer_id: " ++ pair.peerId.brief ++ ", secret: \"[REDACTED]\" \x7d"

end Keypair

/-! ## Sealed boxes -/

namespace SealedBox

/-- Length of the ephemeral key in front. -/
def ephemeralLength : Nat := 32

/-- Length of the nonce behind it. -/
def nonceLength : Nat := 24

/-- What a box is longer than its content. -/
def overhead : Nat := ephemeralLength + nonceLength + XChaCha20Poly1305.tagLength

/-- The random values that go into one box. -/
structure Entropy where
  secret : Bytes.Exactly 32
  nonce : Bytes.Exactly 24

/-- The key of the cipher, from the agreed secret and both public values. -/
def cipherKey (shared ephemeral recipient : Bytes) : Bytes :=
  deriveKey shared (Bytes.ofAscii "threadpost-seal-v1" ++ ephemeral ++ recipient)

/-- The box that only the owner of the public key can open. -/
def sealTo (recipient plaintext : Bytes) (entropy : Entropy) : Except WireError Bytes := do
  PublicKey.validate recipient
  let target := X25519.ofEdwards recipient
  let ephemeral := X25519.multiply entropy.secret.val X25519.basePoint
  let shared := X25519.multiply entropy.secret.val target
  let key := cipherKey shared ephemeral target
  return ephemeral ++ entropy.nonce.val ++
    XChaCha20Poly1305.encrypt key entropy.nonce.val plaintext

end SealedBox

/-- The 32 bytes on the Montgomery curve that boxes for this pair are sealed to. -/
def Keypair.sealingKey (pair : Keypair) : Bytes := X25519.ofEdwards pair.publicKey

/-- The secret on the Montgomery curve that opens boxes for this pair. -/
def Keypair.openingSecret (pair : Keypair) : Bytes := (sha512 pair.secret.val).take 32

/-- The content of a box sealed to this pair.  Every failure is the same fault. -/
def Keypair.openBox (pair : Keypair) (box : Bytes) : Except WireError Bytes :=
  if box.length < SealedBox.overhead then
    .error .decryptFailed
  else
    let ephemeral := box.take SealedBox.ephemeralLength
    let rest := box.drop SealedBox.ephemeralLength
    let nonce := rest.take SealedBox.nonceLength
    let shared := X25519.multiply pair.openingSecret ephemeral
    let key := SealedBox.cipherKey shared ephemeral pair.sealingKey
    match XChaCha20Poly1305.decrypt key nonce (rest.drop SealedBox.nonceLength) with
    | some plaintext => .ok plaintext
    | none => .error .decryptFailed

end PeerMail
