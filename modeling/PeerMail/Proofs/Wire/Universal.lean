import PeerMail.Proofs.Curve.Signature
import PeerMail.Wire.Envelope

/-!
# Signatures that fit every message

An accepted envelope stays acceptable under another message exactly if the key's point
cannot tell the challenges of the two messages apart.  So what makes a signature fit
every message is a key of small order (`refuses_some_iff`).  Keys that belong to a seed
have the full group order, and the signatures of their owners are bound to the
challenge itself (`refuses_some_of_seed_iff`).  At the other end stand the keys of the
neutral point, under which messages do not matter at all (`verify_neutral_iff`).
-/

namespace PeerMail.Envelope

open Ed25519 (challenge response)

variable {key seed signature : Bytes} {message : Message}

theorem verify_eq (key signature : Bytes) (message : Message) :
    verify ⟨key, message, signature⟩ =
      if Ed25519.verify key message.toBytes signature then .ok (.ofKey key)
      else .error .badSignature := by
  unfold verify PublicKey.verify
  split <;> rfl

theorem verify_eq_ok_iff :
    verify ⟨key, message, signature⟩ = .ok (.ofKey key) ↔
      Ed25519.verify key message.toBytes signature = true := by
  rw [verify_eq]
  split
  case isTrue h => simp [h]
  case isFalse h => simp [h]

theorem verify_eq_error_iff :
    verify ⟨key, message, signature⟩ = .error .badSignature ↔
      ¬ Ed25519.verify key message.toBytes signature = true := by
  rw [verify_eq]
  split
  case isTrue h => simp [h]
  case isFalse h => simp [h]

/-! ## All keys -/

/-- **Which signatures fit every message.**  A signature is refused for some message exactly if it
is refused for all of them, or if the challenges of two messages differ modulo the order of the
key's point. -/
theorem refuses_some_iff (key signature : Bytes) :
    (∃ message, verify ⟨key, message, signature⟩ = .error .badSignature) ↔
      (∀ message, verify ⟨key, message, signature⟩ = .error .badSignature) ∨
      ∃ point, CurveGroup.ofBytes? key = some point ∧ ∃ message message' : Message,
        ¬ challenge (signature.take 32) key message.toBytes ≡
          challenge (signature.take 32) key message'.toBytes [MOD addOrderOf point] := by
  simp only [verify_eq_error_iff]
  constructor
  · rintro ⟨message, hrefused⟩
    by_cases hall : ∀ message : Message, ¬ Ed25519.verify key message.toBytes signature = true
    · exact .inl hall
    · obtain ⟨message', haccepted⟩ := not_forall_not.mp hall
      obtain ⟨-, -, -, point, hpoint, -⟩ := Ed25519.verify_iff.mp haccepted
      refine .inr ⟨point, hpoint, message, message', fun hsame => hrefused ?_⟩
      exact (Ed25519.verify_iff_of_verify haccepted hpoint).mpr hsame
  · rintro (hall | ⟨point, hpoint, message, message', hdiffer⟩)
    · exact ⟨.ofPayload (.ping 0), hall _⟩
    · by_contra hnone
      have haccepted (message : Message) :
          Ed25519.verify key message.toBytes signature = true :=
        not_not.mp (not_exists.mp hnone message)
      exact hdiffer ((Ed25519.verify_iff_of_verify (haccepted message') hpoint).mp
        (haccepted message))

/-! ## Keys of seeds -/

/-- Under the key of a seed a signature that is accepted once is refused for some message, unless
all messages have one challenge. -/
theorem refuses_some_of_seed_iff (seed signature : Bytes) :
    (∃ message, verify ⟨Ed25519.publicKey seed, message, signature⟩ = .error .badSignature) ↔
      (∀ message, verify ⟨Ed25519.publicKey seed, message, signature⟩ = .error .badSignature) ∨
      ∃ message message' : Message,
        challenge (signature.take 32) (Ed25519.publicKey seed) message.toBytes ≠
          challenge (signature.take 32) (Ed25519.publicKey seed) message'.toBytes := by
  have hkey := Ed25519.ofBytes?_publicKey seed
  rw [refuses_some_iff]
  simp only [hkey, Option.some.injEq, exists_eq_left', Ed25519.addOrderOf_publicKey]
  refine or_congr_right (exists_congr fun message => exists_congr fun message' => not_congr ?_)
  constructor
  · intro h
    exact h.eq_of_lt_of_lt (Ed25519.challenge_lt _ _ _) (Ed25519.challenge_lt _ _ _)
  · intro h
    rw [h]

/-! ## Keys of the neutral point -/

/-- Under a key of the neutral point the message does not matter: there is one accepted signature
for each response below the group order. -/
theorem verify_neutral_iff (hneutral : Field.ofBytes key = 1) :
    verify ⟨key, message, signature⟩ = .ok (.ofKey key) ↔
      key.length = Ed25519.keyLength ∧ signature.length = Ed25519.signatureLength ∧
      response signature < Point.order ∧
      (Point.base.times (response signature)).toBytes = signature.take 32 := by
  have hpoint : CurveGroup.ofBytes? key = some 0 := CurveGroup.ofBytes?_eq_zero_iff.mpr hneutral
  rw [verify_eq_ok_iff, Ed25519.verify_iff]
  refine and_congr_right fun _ => and_congr_right fun _ => and_congr_right fun hresponse => ?_
  simp only [hpoint, Option.some.injEq, exists_eq_left', smul_zero, sub_zero]
  rw [Ed25519.basePoint,
    Ed25519.toBytes_nsmul Point.onCurve_base (hresponse.trans Ed25519.order_lt)]

/-- A key of the neutral point with a signature that fits every message. -/
theorem universal_signature :
    ¬ ∀ key signature : Bytes, key.length = Ed25519.keyLength →
      signature.length = Ed25519.signatureLength →
      ∃ message : Message, verify ⟨key, message, signature⟩ = .error .badSignature := by
  intro hclaim
  obtain ⟨message, hrefused⟩ :=
    hclaim (1 :: List.replicate 31 0) (1 :: List.replicate 63 0) (by decide) (by decide)
  have haccepted : verify ⟨1 :: List.replicate 31 0, message, 1 :: List.replicate 63 0⟩ =
      .ok (.ofKey (1 :: List.replicate 31 0)) :=
    (verify_neutral_iff (by decide +kernel)).mpr (by decide +kernel)
  rw [hrefused] at haccepted
  cases haccepted

end PeerMail.Envelope
