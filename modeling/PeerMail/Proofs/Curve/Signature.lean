import PeerMail.Curve.Signature
import PeerMail.Proofs.Curve.Encoding

/-!
# Signatures in the group of the curve

Verification recomputes the first half of a signature from the second, the key and
the challenge.  In the group this is one equation (`verify_iff`): the response times
the base point, less the challenge times the key's point, has the first half as its
bytes.  It holds for what is signed (`verify_sign`), because the base point vanishes
under the group order.
-/

namespace PeerMail.Ed25519

open CurveGroup

variable {key data data' signature seed : Bytes} {point : CurveGroup}

/-- The base point. -/
def basePoint : CurveGroup := of Point.onCurve_base

/-- The second half of a signature as a number. -/
def response (signature : Bytes) : ℕ := Bytes.toNatLE (signature.drop 32)

theorem challenge_lt (commitment key data : Bytes) :
    challenge commitment key data < Point.order :=
  Nat.mod_lt _ (by decide)

theorem order_lt : Point.order < 2 ^ 256 := by decide

theorem toBytes_nsmul {p : Point} (hp : p.OnCurve) {factor : ℕ} (hfactor : factor < 2 ^ 256) :
    (factor • of hp).toBytes = (p.times factor).toBytes := by
  rw [← of_times hp hfactor, toBytes_of]

/-! ## Verification -/

/-- The point that verification compares with the first half. -/
theorem toBytes_recomputed {p : Point} (hp : p.OnCurve) {response challenge : ℕ}
    (hresponse : response < 2 ^ 256) (hchallenge : challenge < 2 ^ 256) :
    (response • basePoint - challenge • of hp).toBytes =
      ((Point.base.times response).add (p.neg.times challenge)).toBytes := by
  rw [sub_eq_add_neg, ← smul_neg, ← of_neg, basePoint, ← of_times Point.onCurve_base hresponse,
    ← of_times hp.neg hchallenge, ← of_add, toBytes_of]

/-- What verification asks for. -/
theorem verify_iff :
    verify key data signature = true ↔
      key.length = keyLength ∧ signature.length = signatureLength ∧
      response signature < Point.order ∧
      ∃ point, ofBytes? key = some point ∧
        (response signature • basePoint -
          challenge (signature.take 32) key data • point).toBytes = signature.take 32 := by
  have hchallenge : challenge (signature.take 32) key data < 2 ^ 256 :=
    (challenge_lt _ _ _).trans order_lt
  unfold verify
  cases hpoint : Point.ofBytes? key with
  | none =>
      have hnone : ∀ point, ofBytes? key ≠ some point := by
        intro point h
        obtain ⟨_, hsome, -⟩ := ofBytes?_eq_some_iff.mp h
        simp [hpoint] at hsome
      simp [hnone]
  | some p =>
      have hsome : ofBytes? key = some (of (Point.onCurve_of_ofBytes? hpoint)) :=
        ofBytes?_eq_some_iff.mpr ⟨p, hpoint, rfl⟩
      simp only [Bool.and_eq_true, decide_eq_true_eq, hsome, Option.some.injEq, exists_eq_left']
      change ((_ ∧ _) ∧ response signature < Point.order) ∧ _ ↔ _
      rw [and_assoc, and_assoc]
      refine and_congr_right fun _ => and_congr_right fun _ => and_congr_right fun hresponse => ?_
      rw [toBytes_recomputed _ (hresponse.trans order_lt) hchallenge]
      rfl

/-- The base point vanishes under the group order. -/
theorem order_nsmul_basePoint : Point.order • basePoint = 0 := by
  rw [basePoint, ← of_times Point.onCurve_base order_lt, ← of_zero, of_eq_of_iff]
  show (Point.base.times Point.order).scale Point.zero.z =
    Point.zero.scale (Point.base.times Point.order).z
  decide +kernel

/-! ## Signing -/

/-- A clamped number is a multiple of eight. -/
theorem clamp_eq (secret : Bytes) :
    ∃ m, X25519.clamp secret = 8 * m ∧ 0 < m ∧ m < 2 ^ 252 := by
  refine ⟨Bytes.toNatLE secret % Nat.pow 2 254 / 8 + Nat.pow 2 251, ?_⟩
  unfold X25519.clamp
  norm_num
  omega

theorem secretScalar_lt (seed : Bytes) : secretScalar seed < 2 ^ 256 := by
  obtain ⟨m, hscalar, -, hlt⟩ := clamp_eq ((sha512 seed).take 32)
  rw [secretScalar, hscalar]
  omega

theorem publicKey_eq (seed : Bytes) :
    publicKey seed = (secretScalar seed • basePoint).toBytes :=
  (toBytes_nsmul Point.onCurve_base (secretScalar_lt seed)).symm

theorem ofBytes?_publicKey (seed : Bytes) :
    ofBytes? (publicKey seed) = some (secretScalar seed • basePoint) := by
  rw [publicKey_eq, ofBytes?_toBytes]

/-- A signature verifies under the key of the seed that made it. -/
theorem verify_sign (seed data : Bytes) :
    verify (publicKey seed) data (sign seed data) = true := by
  let nonce := Bytes.toNatLE (sha512 ((sha512 seed).drop 32 ++ data)) % Point.order
  let commitment := (Point.base.times nonce).toBytes
  let factor := challenge commitment (publicKey seed) data
  let answer := (nonce + factor * secretScalar seed) % Point.order
  have hnonce : nonce < 2 ^ 256 := (Nat.mod_lt _ (by decide)).trans order_lt
  have hanswer : answer < Point.order := Nat.mod_lt _ (by decide)
  have hfirst : (sign seed data).take 32 = commitment :=
    List.take_left' (Point.length_toBytes _)
  have hsecond : response (sign seed data) = answer := by
    have hdrop : (sign seed data).drop 32 = Bytes.ofNatLE 32 answer :=
      List.drop_left' (Point.length_toBytes _)
    rw [response, hdrop, Bytes.toNatLE_ofNatLE, Nat.mod_eq_of_lt (hanswer.trans (by decide))]
  refine verify_iff.mpr ⟨length_publicKey seed, length_sign seed data, hsecond ▸ hanswer,
    secretScalar seed • basePoint, ?_, ?_⟩
  · exact ofBytes?_publicKey seed
  · rw [hfirst, hsecond]
    have hmod : answer • basePoint = (nonce + factor * secretScalar seed) • basePoint :=
      (nsmul_eq_mod_nsmul _ order_nsmul_basePoint).symm
    have hsum : answer • basePoint - factor • secretScalar seed • basePoint =
        nonce • basePoint := by
      rw [hmod, add_nsmul, mul_nsmul', add_sub_cancel_right]
    exact (congrArg CurveGroup.toBytes hsum).trans (toBytes_nsmul Point.onCurve_base hnonce)

/-! ## Orders of keys -/

instance : Fact (Nat.Prime Point.order) := ⟨Point.prime_order⟩

/-- The secret scalar does not vanish modulo the group order. -/
theorem not_order_dvd_secretScalar (seed : Bytes) : ¬ Point.order ∣ secretScalar seed := by
  intro hdvd
  obtain ⟨m, hscalar, hpositive, hlt⟩ := clamp_eq ((sha512 seed).take 32)
  have hcoprime : Nat.Coprime Point.order 8 := by decide
  have hle : Point.order ≤ m := by
    rw [secretScalar, hscalar] at hdvd
    exact Nat.le_of_dvd hpositive (hcoprime.dvd_of_dvd_mul_left hdvd)
  exact absurd (hle.trans_lt hlt) (by decide)

/-- The key of a seed has the order of the base point. -/
theorem addOrderOf_publicKey (seed : Bytes) :
    addOrderOf (secretScalar seed • basePoint) = Point.order := by
  have hbase : addOrderOf basePoint = Point.order := by
    refine addOrderOf_eq_prime order_nsmul_basePoint ?_
    rw [basePoint, ← of_zero, ne_eq, of_eq_of_iff]
    show ¬ Point.base.scale Point.zero.z = Point.zero.scale Point.base.z
    decide
  refine addOrderOf_eq_prime ?_ fun hzero => not_order_dvd_secretScalar seed ?_
  · rw [smul_comm, order_nsmul_basePoint, smul_zero]
  · rw [← hbase]
    exact addOrderOf_dvd_of_nsmul_eq_zero hzero

/-! ## Other data -/

/-- A signature that verifies for some data verifies for other data exactly if the key's point
cannot tell their challenges apart. -/
theorem verify_iff_of_verify (h : verify key data signature = true)
    (hpoint : ofBytes? key = some point) :
    verify key data' signature = true ↔
      challenge (signature.take 32) key data' ≡
        challenge (signature.take 32) key data [MOD addOrderOf point] := by
  obtain ⟨hkey, hsignature, hresponse, point', hpoint', hsum⟩ := verify_iff.mp h
  obtain rfl : point' = point := Option.some.inj (hpoint'.symm.trans hpoint)
  rw [← nsmul_eq_nsmul_iff_modEq]
  constructor
  · intro hother
    obtain ⟨-, -, -, point'', hpoint'', hsum'⟩ := verify_iff.mp hother
    obtain rfl : point'' = point' := Option.some.inj (hpoint''.symm.trans hpoint')
    exact sub_right_injective (toBytes_injective (hsum'.trans hsum.symm))
  · intro hsame
    refine verify_iff.mpr ⟨hkey, hsignature, hresponse, point', hpoint', ?_⟩
    rw [hsame, hsum]

end PeerMail.Ed25519
