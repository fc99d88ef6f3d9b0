import PeerMail.Proofs.Wire.Honest

/-!
# Sealed boxes open to what was sealed in them

The stream cipher undoes itself, and the tag at the end of a cipher text fits only the text
before it.  So a cipher text opens to a plain text exactly if it was made from it
(`XChaCha20Poly1305.decrypt_eq_some_iff`), under any key and nonce.

A box adds a head of 56 bytes, an ephemeral key and a nonce, and the owner finds the key of the
cipher from the head and its own secret (`Keypair.boxKey`).  A box opens to a plain text exactly if
the rest of it is the cipher text under that key and nonce (`Keypair.openBox_eq_ok_iff`).  The one
who seals it comes to the key another way; where both ways meet (`Keypair.Agrees`), the box opens.
-/

namespace PeerMail

/-! ## The stream cipher undoes itself -/

theorem Bytes.xor_xor {data stream : Bytes} (h : data.length ≤ stream.length) :
    Bytes.xor (Bytes.xor data stream) stream = data := by
  induction data generalizing stream with
  | nil => rfl
  | cons byte rest ih =>
      cases stream with
      | nil => simp at h
      | cons mask masks =>
          have hrest : Bytes.xor (Bytes.xor rest masks) masks = rest :=
            ih (Nat.le_of_succ_le_succ h)
          have hbyte : byte ^^^ mask ^^^ mask = byte := by
            rw [UInt8.xor_assoc, UInt8.xor_self, UInt8.xor_zero]
          show (byte ^^^ mask ^^^ mask) :: Bytes.xor (Bytes.xor rest masks) masks = byte :: rest
          rw [hbyte, hrest]

theorem ChaCha20.crypt_crypt (key nonce : Bytes) (counter : Nat) (data : Bytes) :
    crypt key nonce counter (crypt key nonce counter data) = data := by
  have hstream : data.length ≤ (keyStream key nonce ((data.length + 63) / 64) counter).length := by
    rw [length_keyStream]
    omega
  rw [crypt, length_crypt]
  exact Bytes.xor_xor hstream

namespace XChaCha20Poly1305

variable {key nonce plaintext ciphertext : Bytes}

theorem crypt_crypt (key nonce data : Bytes) : crypt key nonce (crypt key nonce data) = data :=
  ChaCha20.crypt_crypt _ _ 1 data

/-- What has been encrypted is decrypted. -/
theorem decrypt_encrypt (key nonce plaintext : Bytes) :
    decrypt key nonce (encrypt key nonce plaintext) = some plaintext := by
  have hsize : (encrypt key nonce plaintext).length - tagLength =
      (crypt key nonce plaintext).length := by
    rw [length_encrypt, Nat.add_sub_cancel, crypt, ChaCha20.length_crypt]
  have hbody : (encrypt key nonce plaintext).take (crypt key nonce plaintext).length =
      crypt key nonce plaintext := List.take_left
  have htag : (encrypt key nonce plaintext).drop (crypt key nonce plaintext).length =
      tag key nonce (crypt key nonce plaintext) := List.drop_left
  have hfits : tagLength ≤ (encrypt key nonce plaintext).length := by
    rw [length_encrypt]
    exact Nat.le_add_left _ _
  simp only [decrypt, hsize, hbody, htag, hfits, and_self, if_true, crypt_crypt]

/-- What can be decrypted has been encrypted. -/
theorem eq_encrypt_of_decrypt (h : decrypt key nonce ciphertext = some plaintext) :
    ciphertext = encrypt key nonce plaintext := by
  simp only [decrypt] at h
  split at h
  · next hfits =>
      obtain rfl := Option.some.inj h
      calc ciphertext
          = ciphertext.take (ciphertext.length - tagLength) ++
              ciphertext.drop (ciphertext.length - tagLength) := (List.take_append_drop _ _).symm
        _ = encrypt key nonce
              (crypt key nonce (ciphertext.take (ciphertext.length - tagLength))) := by
            rw [encrypt, crypt_crypt, hfits.2]
  · cases h

/-- A cipher text opens to a plain text exactly if it was made from it. -/
theorem decrypt_eq_some_iff :
    decrypt key nonce ciphertext = some plaintext ↔ ciphertext = encrypt key nonce plaintext := by
  constructor
  · exact eq_encrypt_of_decrypt
  · rintro rfl
    exact decrypt_encrypt key nonce plaintext

end XChaCha20Poly1305

/-! ## Parts of a box -/

namespace SealedBox

/-- The ephemeral key at the front of a box. -/
def ephemeral (box : Bytes) : Bytes := box.take ephemeralLength

/-- The nonce behind it. -/
def nonce (box : Bytes) : Bytes := (box.drop ephemeralLength).take nonceLength

/-- The cipher text behind both. -/
def body (box : Bytes) : Bytes := (box.drop ephemeralLength).drop nonceLength

/-- A box is its first 56 bytes and its cipher text. -/
theorem take_append_body (box : Bytes) : box.take 56 ++ body box = box := by
  rw [body, List.drop_drop]
  exact List.take_append_drop 56 box

/-- The first 56 bytes are the ephemeral key and the nonce. -/
theorem ephemeral_append_nonce (box : Bytes) : ephemeral box ++ nonce box = box.take 56 :=
  List.take_add.symm

end SealedBox

/-! ## Boxes for a pair of keys -/

namespace Keypair

open SealedBox

variable {pair : Keypair} {plaintext box other : Bytes} {entropy : Entropy}

/-- The key of the cipher in a box with this ephemeral key, as the owner of the pair finds it. -/
def boxKey (pair : Keypair) (ephemeral : Bytes) : Bytes :=
  cipherKey (X25519.multiply pair.openingSecret ephemeral) ephemeral pair.sealingKey

/-- Both sides of a box compute the same shared secret: the one who seals it from the ephemeral
secret and the public key, the owner from its own secret and the ephemeral public key. -/
def Agrees (pair : Keypair) (entropy : Entropy) : Prop :=
  X25519.multiply entropy.secret.val pair.sealingKey =
    X25519.multiply pair.openingSecret (X25519.multiply entropy.secret.val X25519.basePoint)

/-- Too short a box does not open. -/
theorem openBox_of_short (pair : Keypair) (h : box.length < overhead) :
    pair.openBox box = .error .decryptFailed := if_pos h

/-- A box opens to a plain text exactly if its body is the cipher text under the owner's key. -/
theorem openBox_eq_ok_iff :
    pair.openBox box = .ok plaintext ↔ ephemeralLength + nonceLength ≤ box.length ∧
      body box =
        XChaCha20Poly1305.encrypt (pair.boxKey (ephemeral box)) (nonce box) plaintext := by
  by_cases hshort : box.length < overhead
  · -- a body that is a cipher text leaves room for its tag
    rw [openBox_of_short pair hshort]
    refine ⟨fun h => (nomatch h), ?_⟩
    rintro ⟨hhead, hbody⟩
    have hlength := congrArg List.length hbody
    simp only [body, List.length_drop, XChaCha20Poly1305.length_encrypt] at hlength
    simp only [overhead] at hshort
    omega
  · have hhead : ephemeralLength + nonceLength ≤ box.length :=
      Nat.le_trans (Nat.le_add_right _ _) (Nat.le_of_not_lt hshort)
    have hopen : pair.openBox box = .ok plaintext ↔ XChaCha20Poly1305.decrypt
        (pair.boxKey (ephemeral box)) (nonce box) (body box) = some plaintext := by
      rw [openBox, if_neg hshort, boxKey, ephemeral, nonce, body]
      dsimp only
      split
      · next found hdecrypt =>
          rw [hdecrypt]
          simp
      · next hdecrypt =>
          rw [hdecrypt]
          simp
    rw [hopen, XChaCha20Poly1305.decrypt_eq_some_iff]
    exact ⟨fun hbody => ⟨hhead, hbody⟩, And.right⟩

/-- A box is as long as its content and 72 bytes. -/
theorem length_of_openBox (h : pair.openBox box = .ok plaintext) :
    box.length = plaintext.length + 72 := by
  obtain ⟨hhead, hbody⟩ := openBox_eq_ok_iff.mp h
  have hlength := congrArg List.length hbody
  simp only [body, List.length_drop, XChaCha20Poly1305.length_encrypt, ephemeralLength, nonceLength,
    XChaCha20Poly1305.tagLength] at hlength hhead
  omega

/-- The head and the content determine a box. -/
theorem eq_of_openBox (hephemeral : ephemeral box = ephemeral other)
    (hnonce : nonce box = nonce other) (h : pair.openBox box = .ok plaintext)
    (hother : pair.openBox other = .ok plaintext) : box = other := by
  obtain ⟨-, hbody⟩ := openBox_eq_ok_iff.mp h
  obtain ⟨-, hbody'⟩ := openBox_eq_ok_iff.mp hother
  rw [← take_append_body box, ← take_append_body other, ← ephemeral_append_nonce,
    ← ephemeral_append_nonce, hbody, hbody', hephemeral, hnonce]

/-- A box that is sealed to the pair, part by part. -/
theorem sealTo_publicKey (pair : Keypair) (plaintext : Bytes) (entropy : Entropy) :
    ∃ box, sealTo pair.publicKey plaintext entropy = .ok box ∧
      ephemeralLength + nonceLength ≤ box.length ∧
      ephemeral box = X25519.multiply entropy.secret.val X25519.basePoint ∧
      nonce box = entropy.nonce.val ∧
      body box = XChaCha20Poly1305.encrypt
        (cipherKey (X25519.multiply entropy.secret.val pair.sealingKey) (ephemeral box)
          pair.sealingKey) (nonce box) plaintext := by
  have hephemeral : (X25519.multiply entropy.secret.val X25519.basePoint).length =
      ephemeralLength := X25519.length_multiply _ _
  have hnonce : entropy.nonce.val.length = nonceLength := entropy.nonce.property
  refine ⟨_, bind_eq_ok_iff.mpr ⟨(), pair.validate_publicKey, rfl⟩, ?_⟩
  rw [ephemeral, nonce, body, List.append_assoc, List.take_left' hephemeral,
    List.drop_left' hephemeral, List.take_left' hnonce, List.drop_left' hnonce]
  refine ⟨?_, rfl, rfl, rfl⟩
  rw [List.length_append, List.length_append, hephemeral, hnonce, ← Nat.add_assoc]
  exact Nat.le_add_right _ _

/-- **Boxes open to what was sealed in them, and to nothing else.**  Where both sides agree on the
secret, any plain text can be sealed to the pair, and the box opens to it.  Conversely a box that
opens is its first 56 bytes and the cipher text of its content under the key that they lead to, so
the content and those bytes determine it.  Less than 72 bytes are never a box. -/
theorem openBox_exact (pair : Keypair) :
    (∀ plaintext entropy, pair.Agrees entropy →
      ∃ box, sealTo pair.publicKey plaintext entropy = .ok box ∧
        pair.openBox box = .ok plaintext ∧ box.length = plaintext.length + 72) ∧
    (∀ box plaintext, pair.openBox box = .ok plaintext →
      box = box.take 56 ++
        XChaCha20Poly1305.encrypt (pair.boxKey (ephemeral box)) (nonce box) plaintext ∧
      box.length = plaintext.length + 72) ∧
    (∀ box other plaintext, ephemeral box = ephemeral other → nonce box = nonce other →
      pair.openBox box = .ok plaintext → pair.openBox other = .ok plaintext → box = other) ∧
    (∀ box : Bytes, box.length < 72 → pair.openBox box = .error .decryptFailed) := by
  refine ⟨fun plaintext entropy hagrees => ?_, fun box plaintext hopens => ?_,
    fun box other plaintext => eq_of_openBox, fun box => pair.openBox_of_short⟩
  · obtain ⟨box, hsealed, hhead, hephemeral, -, hbody⟩ := pair.sealTo_publicKey plaintext entropy
    have hopens : pair.openBox box = .ok plaintext := by
      rw [hagrees, ← hephemeral] at hbody
      exact openBox_eq_ok_iff.mpr ⟨hhead, hbody⟩
    exact ⟨box, hsealed, hopens, length_of_openBox hopens⟩
  · obtain ⟨-, hbody⟩ := openBox_eq_ok_iff.mp hopens
    rw [← hbody]
    exact ⟨(take_append_body box).symm, length_of_openBox hopens⟩

/-! ### An empty box -/

/-- The owner of a box. -/
def boxOwner : Keypair := ⟨⟨List.replicate 32 11, rfl⟩⟩

/-- The random values of a box for the owner. -/
def boxEntropy : Entropy := ⟨⟨List.replicate 32 12, rfl⟩, ⟨List.replicate 24 13, rfl⟩⟩

/-- Nothing can be sealed, too: the box has 72 bytes, it is the only one with its head that holds
nothing, and with its last byte missing it does not open. -/
theorem empty_box_opens :
    boxOwner.Agrees boxEntropy ∧
    ∃ box, sealTo boxOwner.publicKey [] boxEntropy = .ok box ∧
      boxOwner.openBox box = .ok [] ∧ box.length = 72 ∧
      box = box.take 56 ++
        XChaCha20Poly1305.encrypt (boxOwner.boxKey (ephemeral box)) (nonce box) [] ∧
      (∀ other, ephemeral other = ephemeral box → nonce other = nonce box →
        boxOwner.openBox other = .ok [] → other = box) ∧
      (box.take 71).length < 72 ∧ boxOwner.openBox (box.take 71) = .error .decryptFailed := by
  have hagrees : boxOwner.Agrees boxEntropy := by
    unfold Agrees
    decide +kernel
  obtain ⟨hsealing, hopening, hunique, hshort⟩ := openBox_exact boxOwner
  obtain ⟨box, hsealed, hopens, hlength⟩ := hsealing [] boxEntropy hagrees
  have hcut : (box.take 71).length < 72 := Nat.lt_succ_of_le (List.length_take_le 71 box)
  exact ⟨hagrees, box, hsealed, hopens, hlength, (hopening box [] hopens).1,
    fun other hephemeral hnonce hother => hunique other box [] hephemeral hnonce hother hopens,
    hcut, hshort _ hcut⟩

end Keypair

end PeerMail
