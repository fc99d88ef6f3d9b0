import PeerMail.Hash.Sha2

/-!
# Keyed hashing and key derivation

HMAC over SHA-256 and the extract-and-expand key derivation built on it, with no
salt and for one block of 32 bytes of output, which is all the library asks for.
-/

namespace PeerMail

/-- HMAC-SHA-256 with a key of at most 64 bytes. -/
def hmacSha256 (key message : Bytes) : Bytes :=
  let key := Bytes.padRight 64 key
  sha256 (key.map (· ^^^ 0x5c) ++ sha256 (key.map (· ^^^ 0x36) ++ message))

/-- The 32 bytes that follow from secret key material and a public context. -/
def deriveKey (material context : Bytes) : Bytes :=
  hmacSha256 (hmacSha256 (List.replicate 32 0) material) (context ++ [1])

end PeerMail
