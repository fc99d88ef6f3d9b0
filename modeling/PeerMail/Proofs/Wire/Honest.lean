import PeerMail.Proofs.Curve.Signature
import PeerMail.Proofs.Text.Names
import PeerMail.Proofs.Wire.Codec

/-!
# What honest peers make

The records of honest peers are as their readers want them.  A signature of a pair of
keys verifies under its public key (`verify_sign`), which is a valid key.  Sealing a
box and opening it go different ways to a shared secret; where the two ways meet, a box
that is sealed to a pair opens to its content (`Keypair.Opens`), and then an invitation
can be built and read back, and its box opens to the secret of the thread.
-/

namespace PeerMail

/-! ## Keys -/

theorem PublicKey.validate_of_verify {key data signature : Bytes}
    (h : PublicKey.verify key data signature = .ok ()) : PublicKey.validate key = .ok () := by
  unfold verify Ed25519.verify at h
  cases hpoint : Point.ofBytes? key with
  | none => simp [hpoint] at h
  | some point =>
      have hlength : key.length = Ed25519.keyLength := by
        by_contra hne
        simp [hpoint, hne] at h
      simp [validate, PublicKey.point, hlength, hpoint, bind, Except.bind, pure, Except.pure]

namespace Keypair

/-- The box that some bytes are sealed in for the pair, which opens to them. -/
structure Opens (pair : Keypair) (plaintext : Bytes) (entropy : SealedBox.Entropy) (box : Bytes) :
    Prop where
  sealed : SealedBox.sealTo pair.publicKey plaintext entropy = .ok box
  opened : pair.openBox box = .ok plaintext

variable {entropy : SealedBox.Entropy}

/-- A signature of the pair verifies under its public key. -/
theorem verify_sign (pair : Keypair) (data : Bytes) :
    PublicKey.verify pair.publicKey data (pair.sign data) = .ok () :=
  if_pos (Ed25519.verify_sign pair.secret.val data)

theorem validate_publicKey (pair : Keypair) : PublicKey.validate pair.publicKey = .ok () :=
  PublicKey.validate_of_verify (pair.verify_sign [])

/-- A box is longer than its content by what stands before and behind it. -/
theorem length_sealTo {recipient plaintext box : Bytes}
    (h : SealedBox.sealTo recipient plaintext entropy = .ok box) :
    box.length = plaintext.length + SealedBox.overhead := by
  obtain ⟨_, -, hbox⟩ := bind_eq_ok_iff.mp h
  obtain rfl := pure_eq_ok_iff.mp hbox
  have hnonce := entropy.nonce.property
  simp [SealedBox.overhead, SealedBox.ephemeralLength, SealedBox.nonceLength]
  omega

end Keypair

/-! ## Invitations -/

namespace ThreadBlock

variable {invitee thread : Keypair} {entropy : SealedBox.Entropy} {box : Bytes} {parents : List Cid}

/-- The invitation with a box for the invited peer. -/
def boxed (invitee : Keypair) (box : Bytes) (parents : List Cid) : ThreadBlock :=
  ⟨.invite, invitee.peerId.text, box, parents⟩

theorem invite_of_opens (h : invitee.Opens thread.secret.val entropy box) :
    invite invitee.peerId invitee.publicKey thread parents entropy =
      .ok (boxed invitee box parents) :=
  bind_eq_ok_iff.mpr ⟨box, h.sealed, rfl⟩

/-- An invitation fits its written form. -/
theorem fits_boxed (hparents : parents.length < 2 ^ 32)
    (h : invitee.Opens thread.secret.val entropy box) : (boxed invitee box parents).Fits := by
  have hbox := Keypair.length_sealTo h.sealed
  have hsecret := thread.secret.property
  have htext := PeerId.length_encode_text invitee.peerId
  constructor
  case target => exact Nat.lt_of_le_of_lt htext.le (by decide)
  case targetKey =>
    show box.length < 2 ^ 32
    rw [hbox, hsecret]
    decide
  case parents => exact hparents

end ThreadBlock

end PeerMail
