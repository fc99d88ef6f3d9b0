import Mathlib.GroupTheory.OrderOfElement
import PeerMail.Proofs.Curve.Addition

/-!
# The group of the curve

Up to a common factor of the coordinates, the points of the curve form an abelian
group (`CurveGroup`), and doubling and adding along the bits of a factor computes its
multiples (`of_times`).

The one law that takes work is associativity.  Both ways of bracketing have the same
numerators over the same denominators once the equations of the three points are used:
`x_mul` and `y_mul` use those of the outer points, which come in where a coordinate
meets a product of two numerators, and `mixed_add` and `straight_add` those of the
middle one.
-/

namespace PeerMail

open scoped Fin.CommRing

namespace Point

variable {p q r : Point}

theorem add_comm (p q : Point) : p.add q = q.add p := by
  apply Point.ext <;> simp only [add] <;> ring

/-! ## Associativity -/

theorem OnCurve.x_mul (hp : p.OnCurve) (q : Point) :
    p.x * (mixed p q * straight p q) =
      p.x * (p.z * p.t) * (q.x * q.x + q.y * q.y) +
        (2 * p.y * (p.z * p.t) - p.x * (p.z * p.z) - d * p.x * (p.t * p.t)) * (q.x * q.y) := by
  unfold mixed straight
  linear_combination (p.x * (q.x * q.x + q.y * q.y) + 2 * p.y * (q.x * q.y)) * hp.product -
    p.x * (q.x * q.y) * hp.equation

theorem OnCurve.y_mul (hp : p.OnCurve) (q : Point) :
    p.y * (mixed p q * straight p q) =
      p.y * (p.z * p.t) * (q.x * q.x + q.y * q.y) +
        (2 * p.x * (p.z * p.t) + p.y * (p.z * p.z) + d * p.y * (p.t * p.t)) * (q.x * q.y) := by
  unfold mixed straight
  linear_combination (p.y * (q.x * q.x + q.y * q.y) + 2 * p.x * (q.x * q.y)) * hp.product +
    p.y * (q.x * q.y) * hp.equation

/-- Both ways of bracketing lead to one first coordinate. -/
theorem OnCurve.mixed_add (hp : p.OnCurve) (hq : q.OnCurve) (hr : r.OnCurve) :
    mixed (p.add q) r * (middle p (q.add r) + shift p (q.add r)) =
      mixed p (q.add r) * (middle (p.add q) r + shift (p.add q) r) := by
  have hpx := hp.x_mul q
  have hpy := hp.y_mul q
  have hrx := hr.x_mul q
  have hry := hr.y_mul q
  simp only [add_eq, mixed, straight, middle, shift, scale] at hpx hpy hrx hry ⊢
  linear_combination 16 * (
    d * p.t * (p.x * q.y + p.y * q.x) * (p.z * q.z - d * (p.t * q.t)) * hry +
    d * p.t * (p.y * q.y + p.x * q.x) * (p.z * q.z + d * (p.t * q.t)) * hrx -
    d * r.t * (q.y * r.y + q.x * r.x) * (q.z * r.z + d * (q.t * r.t)) * hpx -
    d * r.t * (q.x * r.y + q.y * r.x) * (q.z * r.z - d * (q.t * r.t)) * hpy +
    (d * r.t * (p.z * p.z) * (p.x * (q.y * r.y + q.x * r.x) * (q.z * r.z + d * (q.t * r.t)) -
        p.y * (q.x * r.y + q.y * r.x) * (q.z * r.z - d * (q.t * r.t))) -
      d * q.z * (r.z * r.z + d * (r.t * r.t)) * (p.z * p.t) *
        (p.x * (q.x * r.x - q.y * r.y) - p.y * (q.x * r.y - q.y * r.x)) +
      d * d * r.z * (p.t * p.t) * (p.x * (q.y * r.y + q.x * r.x) * (q.z * r.t - q.t * r.z) -
        p.y * (q.x * r.y + q.y * r.x) * (q.z * r.t + q.t * r.z))) * hq.product +
    d * d * q.t * p.t * r.t *
      (p.z * r.t * (p.x * (q.x * r.x - q.y * r.y) - p.y * (q.x * r.y - q.y * r.x)) -
       p.t * r.z * (p.x * (q.y * r.y + q.x * r.x) - p.y * (q.x * r.y + q.y * r.x))) * hq.equation)

/-- Both ways of bracketing lead to one second coordinate. -/
theorem OnCurve.straight_add (hp : p.OnCurve) (hq : q.OnCurve) (hr : r.OnCurve) :
    straight (p.add q) r * (middle p (q.add r) - shift p (q.add r)) =
      straight p (q.add r) * (middle (p.add q) r - shift (p.add q) r) := by
  have hpx := hp.x_mul q
  have hpy := hp.y_mul q
  have hrx := hr.x_mul q
  have hry := hr.y_mul q
  simp only [add_eq, mixed, straight, middle, shift, scale] at hpx hpy hrx hry ⊢
  linear_combination 16 * (
    -d * p.t * (p.y * q.y + p.x * q.x) * (p.z * q.z + d * (p.t * q.t)) * hry -
    d * p.t * (p.x * q.y + p.y * q.x) * (p.z * q.z - d * (p.t * q.t)) * hrx +
    d * r.t * (q.y * r.y + q.x * r.x) * (q.z * r.z + d * (q.t * r.t)) * hpy +
    d * r.t * (q.x * r.y + q.y * r.x) * (q.z * r.z - d * (q.t * r.t)) * hpx +
    (d * r.t * (p.z * p.z) * (p.y * (q.y * r.y + q.x * r.x) * (q.z * r.z + d * (q.t * r.t)) -
        p.x * (q.x * r.y + q.y * r.x) * (q.z * r.z - d * (q.t * r.t))) +
      d * q.z * (r.z * r.z + d * (r.t * r.t)) * (p.z * p.t) *
        (p.y * (q.x * r.x - q.y * r.y) - p.x * (q.x * r.y - q.y * r.x)) +
      d * d * r.z * (p.t * p.t) * (p.y * (q.y * r.y + q.x * r.x) * (q.z * r.t - q.t * r.z) -
        p.x * (q.x * r.y + q.y * r.x) * (q.z * r.t + q.t * r.z))) * hq.product +
    d * d * q.t * p.t * r.t *
      (p.z * r.t * (p.x * (q.x * r.y - q.y * r.x) - p.y * (q.x * r.x - q.y * r.y)) +
       p.t * r.z * (p.x * (q.x * r.y + q.y * r.x) - p.y * (q.y * r.y + q.x * r.x))) * hq.equation)

/-- Sums may be bracketed either way. -/
theorem OnCurve.add_assoc (hp : p.OnCurve) (hq : q.OnCurve) (hr : r.OnCurve) :
    Same ((p.add q).add r) (p.add (q.add r)) := by
  have hx := hp.mixed_add hq hr
  have hy := hp.straight_add hq hr
  refine OnCurve.same ((hp.add hq).add hr) (hp.add (hq.add hr)) ?_ ?_
  · rw [add_eq (p.add q), add_eq p (q.add r)]
    simp only [scale]
    linear_combination 16 * (middle (p.add q) r - shift (p.add q) r) *
      (middle p (q.add r) - shift p (q.add r)) * hx
  · rw [add_eq (p.add q), add_eq p (q.add r)]
    simp only [scale]
    linear_combination 16 * (middle (p.add q) r + shift (p.add q) r) *
      (middle p (q.add r) + shift p (q.add r)) * hy

/-! ## Neutral point and reflection -/

theorem OnCurve.neg_add_self (hp : p.OnCurve) : Same (p.neg.add p) zero := by
  refine OnCurve.same (hp.neg.add hp) onCurve_zero ?_ ?_
  · simp only [Point.add, Point.neg, zero]
    ring
  · simp only [Point.add, Point.neg, zero]
    linear_combination 4 * (p.z * p.z - d * (p.t * p.t)) * hp.equation

theorem OnCurve.zero_add (hp : p.OnCurve) : Same (zero.add p) p := by
  refine OnCurve.same (onCurve_zero.add hp) hp ?_ ?_ <;> simp only [Point.add, zero] <;> ring

/-! ## The group -/

/-- Points of the curve are compared up to a common factor. -/
instance pointSetoid : Setoid { p : Point // p.OnCurve } where
  r p q := Same p.val q.val
  iseqv :=
    ⟨fun p => .refl p.val, Same.symm, fun {_ q _} hpq hqr => hpq.trans q.property.z_ne hqr⟩

end Point

/-- The points of the curve. -/
def CurveGroup : Type := Quotient Point.pointSetoid

namespace CurveGroup

open Point

/-- The point of the curve with the given coordinates. -/
def of {p : Point} (hp : p.OnCurve) : CurveGroup := Quotient.mk pointSetoid ⟨p, hp⟩

variable {p q : Point}

theorem of_eq_of_iff (hp : p.OnCurve) (hq : q.OnCurve) : of hp = of hq ↔ Same p q :=
  Quotient.eq

instance : Zero CurveGroup := ⟨of onCurve_zero⟩

instance : Add CurveGroup :=
  ⟨Quotient.lift₂ (fun p q => of (p.property.add q.property)) (by
    rintro ⟨p, hp⟩ ⟨q, hq⟩ ⟨p', hp'⟩ ⟨q', hq'⟩ hpp hqq
    refine (of_eq_of_iff _ _).mpr ?_
    have hsum : Same (p.add q) (p.add q') := Same.add_left hq.z_ne hqq p
    have hsum' : Same (p.add q') (p'.add q') := by
      rw [Point.add_comm p, Point.add_comm p']
      exact Same.add_left hp.z_ne hpp q'
    exact hsum.trans (hp.add hq').z_ne hsum')⟩

instance : Neg CurveGroup :=
  ⟨Quotient.lift (fun p => of p.property.neg) fun _ _ h => (of_eq_of_iff _ _).mpr (Same.neg h)⟩

theorem of_zero : of onCurve_zero = 0 := rfl

theorem of_add (hp : p.OnCurve) (hq : q.OnCurve) : of (hp.add hq) = of hp + of hq := rfl

theorem of_neg (hp : p.OnCurve) : of hp.neg = -of hp := rfl

instance : AddCommGroup CurveGroup where
  add_assoc := by
    rintro ⟨p, hp⟩ ⟨q, hq⟩ ⟨r, hr⟩
    exact (of_eq_of_iff _ _).mpr (hp.add_assoc hq hr)
  zero_add := by
    rintro ⟨p, hp⟩
    exact (of_eq_of_iff _ _).mpr hp.zero_add
  add_zero := by
    rintro ⟨p, hp⟩
    refine (of_eq_of_iff (hp.add onCurve_zero) hp).mpr ?_
    rw [Point.add_comm]
    exact hp.zero_add
  neg_add_cancel := by
    rintro ⟨p, hp⟩
    exact (of_eq_of_iff _ _).mpr hp.neg_add_self
  add_comm := by
    rintro ⟨p, hp⟩ ⟨q, hq⟩
    refine (of_eq_of_iff (hp.add hq) (hq.add hp)).mpr ?_
    rw [Point.add_comm]
  nsmul := nsmulRec
  zsmul := zsmulRec

/-! ## Multiples -/

theorem of_timesLoop (bits factor : ℕ) (hp : p.OnCurve) (hq : q.OnCurve)
    (hloop : (timesLoop bits p factor q).OnCurve) :
    of hloop = of hq + (factor % 2 ^ bits) • of hp := by
  induction bits generalizing factor p q with
  | zero =>
      rw [pow_zero, Nat.mod_one, zero_nsmul, add_zero]
      rfl
  | succ bits ih =>
      have hmod : factor % 2 ^ (bits + 1) = factor % 2 + 2 * (factor / 2 % 2 ^ bits) := by
        rw [pow_succ', Nat.mod_mul]
      have hdouble : (factor / 2 % 2 ^ bits) • of (hp.add hp) =
          (2 * (factor / 2 % 2 ^ bits)) • of hp := by
        rw [of_add hp hp, ← two_nsmul, smul_smul, mul_comm]
      rw [hmod, add_nsmul, ← hdouble]
      by_cases hodd : factor % 2 = 1
      · have hsum := ih (factor / 2) (hp.add hp) (hq.add hp)
          (by simpa only [timesLoop, if_pos hodd] using hloop)
        rw [hodd, one_nsmul, ← add_assoc, ← of_add hq hp, ← hsum]
        simp only [timesLoop, if_pos hodd]
      · have heven : factor % 2 = 0 := by omega
        have hsum := ih (factor / 2) (hp.add hp) hq
          (by simpa only [timesLoop, if_neg hodd] using hloop)
        rw [heven, zero_nsmul, zero_add, ← hsum]
        simp only [timesLoop, if_neg hodd]

/-- Doubling and adding computes multiples. -/
theorem of_times {factor : ℕ} (hp : p.OnCurve) (hfactor : factor < 2 ^ 256) :
    of (hp.times factor) = factor • of hp := by
  have hloop := of_timesLoop 256 factor hp onCurve_zero (hp.times factor)
  rwa [of_zero, zero_add, Nat.mod_eq_of_lt hfactor] at hloop

end CurveGroup

end PeerMail
