import Mathlib.Algebra.Field.ZMod
import Mathlib.Algebra.Ring.Fin
import Mathlib.Data.ZMod.Basic
import Mathlib.FieldTheory.Finite.Basic
import Mathlib.Tactic.LinearCombination
import Mathlib.Tactic.Ring
import PeerMail.Proofs.Curve.Prime

/-!
# Arithmetic of the field

The elements form an integral domain in which `power` computes powers, `inverse`
inverts, and `sqrtRatio?` finds square roots of quotients.  The coefficient of
the curve is no square, which is what makes the addition of points complete.
-/

namespace PeerMail.Field

open scoped Fin.CommRing

instance : Fact (Nat.Prime prime) := ⟨prime_prime⟩

instance : IsDomain Field := (ZMod.finEquiv prime).toMulEquiv.isDomain _

variable {u v x y : Field}

/-! ## Powers and inverses -/

theorem powLoop_eq (bits exponent : ℕ) (hbits : exponent < 2 ^ bits) (square result : Field) :
    powLoop bits square exponent result = result * square ^ exponent := by
  induction bits generalizing exponent square result with
  | zero =>
      obtain rfl : exponent = 0 := by simpa using hbits
      simp [powLoop]
  | succ bits ih =>
      have hhalf : exponent / 2 < 2 ^ bits := by rw [pow_succ] at hbits; omega
      rw [powLoop, ih _ hhalf, ← pow_two, ← pow_mul]
      split
      case isTrue hodd =>
        rw [mul_assoc, ← pow_succ']
        congr 2
        omega
      case isFalse heven =>
        congr 2
        omega

theorem power_eq {exponent : ℕ} (hbits : exponent < 2 ^ 255) : x.power exponent = x ^ exponent := by
  rw [power, powLoop_eq 255 exponent hbits, one_mul]

theorem pow_pred (hx : x ≠ 0) : x ^ (prime - 1) = 1 := by
  apply (ZMod.finEquiv prime).injective
  rw [map_pow, map_one]
  exact ZMod.pow_card_sub_one_eq_one fun h => hx ((map_eq_zero_iff _
    (ZMod.finEquiv prime).injective).mp h)

theorem mul_inverse (hx : x ≠ 0) : x * x.inverse = 1 := by
  rw [inverse, power_eq (by decide), ← pow_succ', ← pow_pred hx]
  rfl

/-! ## Squares -/

/-- Minus one is a square. -/
theorem imaginary_mul_self : imaginary * imaginary = -1 := by decide +kernel

theorem coefficient_pow : Point.d ^ ((prime - 1) / 2) = -1 := by
  rw [← power_eq (by decide)]
  decide +kernel

/-- The curve's coefficient is no square. -/
theorem eq_zero_of_sq_eq (h : u * u = Point.d * (v * v)) : v = 0 := by
  by_contra hv
  have hexponent : 2 * ((prime - 1) / 2) = prime - 1 := by decide
  have hcoefficient : u ^ (prime - 1) = -1 := by
    have hpow := congrArg (· ^ ((prime - 1) / 2)) h
    simp only [mul_pow, ← pow_add, ← two_mul, hexponent, pow_pred hv, coefficient_pow] at hpow
    simpa using hpow
  have hu : u ≠ 0 := by
    rintro rfl
    rw [zero_pow (by decide)] at hcoefficient
    exact absurd hcoefficient (by decide)
  exact absurd ((pow_pred hu).symm.trans hcoefficient) (by decide)

/-! ## Parity -/

theorem parity_neg (hx : x ≠ 0) : (-x).val % 2 = 1 - x.val % 2 := by
  have hpositive : x.val ≠ 0 := fun h => hx (Fin.ext h)
  have hlt : x.val < prime := x.isLt
  have hodd : prime % 2 = 1 := by decide
  have hless : prime - x.val < prime := by omega
  rw [Fin.val_neg', Nat.mod_eq_of_lt hless]
  omega

/-- An element and its negative are told apart by their parity. -/
theorem eq_of_parity (hsquare : x * x = y * y) (hparity : x.val % 2 = y.val % 2) : x = y := by
  obtain h | rfl := mul_self_eq_mul_self_iff.mp hsquare
  · exact h
  · by_cases hy : y = 0
    · rw [hy, neg_zero]
    · rw [parity_neg hy] at hparity
      omega

/-! ## Square roots of quotients -/

/-- What is found is a square root of the quotient, and even. -/
theorem of_sqrtRatio? (h : sqrtRatio? u v = some x) : v * x * x = u ∧ x.val % 2 = 0 := by
  simp only [sqrtRatio?, Option.map_eq_some_iff] at h
  obtain ⟨root, hroot, rfl⟩ := h
  have hsquare : v * root * root = u := by
    split at hroot
    case isTrue hcheck =>
      obtain rfl := Option.some.inj hroot
      exact hcheck
    case isFalse =>
      split at hroot
      case isTrue hcheck =>
        obtain rfl := Option.some.inj hroot
        linear_combination imaginary * imaginary * hcheck - u * imaginary_mul_self
      case isFalse => cases hroot
  split
  case isTrue heven => exact ⟨hsquare, heven⟩
  case isFalse hodd =>
    have hne : root ≠ 0 := by
      rintro rfl
      exact hodd rfl
    refine ⟨by linear_combination hsquare, ?_⟩
    rw [parity_neg hne]
    omega

/-- The first guess at the root of a square is a root up to a fourth root of one. -/
theorem candidate_eq (hv : v ≠ 0) (h : v * x * x = u) :
    u * (v * v * v) * (u * (v * v * v) * (v * v * v) * v).power ((prime - 5) / 8) =
      x * x * (x * x) ^ ((prime - 5) / 8) := by
  have hexponent : 4 + 8 * ((prime - 5) / 8) = prime - 1 := by decide
  have hpred : v ^ 4 * (v ^ 8) ^ ((prime - 5) / 8) = 1 := by
    rw [← pow_mul, ← pow_add, hexponent, pow_pred hv]
  have hbase : u * (v * v * v) * (v * v * v) * v = v ^ 8 * (x * x) := by rw [← h]; ring
  rw [power_eq (by decide), hbase, mul_pow, ← h]
  linear_combination x * x * (x * x) ^ ((prime - 5) / 8) * hpred

/-- A square root of a quotient that has one is found. -/
theorem exists_sqrtRatio? (hv : v ≠ 0) (h : v * x * x = u) : ∃ y, sqrtRatio? u v = some y := by
  have hsign : x ^ ((prime - 1) / 2) = 1 ∨ x ^ ((prime - 1) / 2) = -1 ∨ x = 0 := by
    by_cases hx : x = 0
    · exact .inr (.inr hx)
    · have hsquare : x ^ ((prime - 1) / 2) * x ^ ((prime - 1) / 2) = 1 := by
        rw [← pow_add, ← pow_pred hx]
        rfl
      obtain hplus | hminus := mul_self_eq_one_iff.mp hsquare
      · exact .inl hplus
      · exact .inr (.inl hminus)
  have hcheck : v * (x * x * (x * x) ^ ((prime - 5) / 8)) * (x * x * (x * x) ^ ((prime - 5) / 8)) =
      u * x ^ ((prime - 1) / 2) := by
    have hexponent : (prime - 1) / 2 = 2 + 4 * ((prime - 5) / 8) := by decide
    rw [hexponent, ← h]
    ring
  simp only [sqrtRatio?, candidate_eq hv h, hcheck]
  obtain hplus | hminus | rfl := hsign
  · simp [hplus]
  · rw [hminus, mul_neg_one]
    by_cases hu : -u = u <;> simp [hu]
  · simp [← h]

end PeerMail.Field
