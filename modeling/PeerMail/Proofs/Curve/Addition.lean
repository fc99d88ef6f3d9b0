import PeerMail.Proofs.Curve.Field

/-!
# The addition of points

The sum of two points of the curve is a point of the curve, whichever two they
are: the denominators vanish for no pair, because the coefficient is no square
(`denominator_ne`).  Points are compared up to a common factor of their four
coordinates (`Same`), which sums and reflections respect.
-/

namespace PeerMail.Point

open scoped Fin.CommRing

attribute [ext] Point

variable {p q r q' : Point} {c e : Field}

/-- The equations of the curve in extended coordinates. -/
structure OnCurve (p : Point) : Prop where
  z_ne : p.z ≠ 0
  product : p.x * p.y = p.z * p.t
  equation : p.y * p.y - p.x * p.x = p.z * p.z + d * (p.t * p.t)

/-! ## One point in several coordinates -/

/-- All four coordinates multiplied by one factor. -/
def scale (p : Point) (c : Field) : Point := ⟨p.x * c, p.y * c, p.z * c, p.t * c⟩

/-- Whether two points differ by a factor only. -/
def Same (p q : Point) : Prop := p.scale q.z = q.scale p.z

theorem scale_scale (p : Point) (c e : Field) : (p.scale c).scale e = p.scale (c * e) := by
  simp only [scale, mul_assoc]

theorem scale_injective (hc : c ≠ 0) (h : p.scale c = q.scale c) : p = q := by
  simp only [scale, mk.injEq, mul_left_inj' hc] at h
  exact Point.ext h.1 h.2.1 h.2.2.1 h.2.2.2

@[refl] theorem Same.refl (p : Point) : Same p p := rfl

theorem Same.symm (h : Same p q) : Same q p := Eq.symm h

theorem Same.trans (hq : q.z ≠ 0) (hpq : Same p q) (hqr : Same q r) : Same p r := by
  refine scale_injective hq ?_
  calc (p.scale r.z).scale q.z = (p.scale q.z).scale r.z := by
        rw [scale_scale, scale_scale, mul_comm]
    _ = (q.scale r.z).scale p.z := by rw [hpq, scale_scale, scale_scale, mul_comm]
    _ = (r.scale p.z).scale q.z := by rw [hqr, scale_scale, scale_scale, mul_comm]

theorem same_of_scale (he : e ≠ 0) (h : p.scale c = q.scale e) : Same p q := by
  have hz : p.z * c = q.z * e := congrArg Point.z h
  refine scale_injective he ?_
  rw [scale_scale, ← hz, mul_comm, ← scale_scale, h, scale_scale, scale_scale, mul_comm]

/-- The first two coordinates tell points of the curve apart. -/
theorem OnCurve.same (hp : p.OnCurve) (hq : q.OnCurve) (hx : p.x * q.z = q.x * p.z)
    (hy : p.y * q.z = q.y * p.z) : Same p q := by
  refine Point.ext hx hy (mul_comm _ _) ?_
  refine mul_left_cancel₀ (mul_ne_zero hp.z_ne hq.z_ne) ?_
  show p.z * q.z * (p.t * q.z) = p.z * q.z * (q.t * p.z)
  linear_combination -q.z * q.z * hp.product + p.z * p.z * hq.product + p.y * q.z * hx +
    q.x * p.z * hy

/-! ## The sum in terms of its factors -/

/-- The numerator of the first coordinate of a sum. -/
def mixed (p q : Point) : Field := p.x * q.y + p.y * q.x

/-- The numerator of the second coordinate of a sum. -/
def straight (p q : Point) : Field := p.y * q.y + p.x * q.x

/-- What the two denominators of a sum have in common. -/
def middle (p q : Point) : Field := p.z * q.z

/-- What the two denominators of a sum differ in. -/
def shift (p q : Point) : Field := d * (p.t * q.t)

theorem add_eq (p q : Point) : p.add q =
    scale ⟨mixed p q * (middle p q - shift p q), straight p q * (middle p q + shift p q),
      (middle p q - shift p q) * (middle p q + shift p q), mixed p q * straight p q⟩ 4 := by
  apply Point.ext <;> simp only [add, scale, mixed, straight, middle, shift] <;> ring

theorem add_scale (p q : Point) (c e : Field) :
    (p.scale c).add (q.scale e) = (p.add q).scale (c * e * (c * e)) := by
  apply Point.ext <;> simp only [add, scale] <;> ring

theorem OnCurve.straight_sub_mixed (hp : p.OnCurve) (hq : q.OnCurve) :
    straight p q * straight p q - mixed p q * mixed p q =
      (p.z * p.z + d * (p.t * p.t)) * (q.z * q.z + d * (q.t * q.t)) := by
  unfold straight mixed
  linear_combination (q.y * q.y - q.x * q.x) * hp.equation +
    (p.z * p.z + d * (p.t * p.t)) * hq.equation

theorem OnCurve.mixed_mul_straight (hp : p.OnCurve) (hq : q.OnCurve) :
    mixed p q * straight p q =
      p.z * p.t * (q.x * q.x + q.y * q.y) + q.z * q.t * (p.x * p.x + p.y * p.y) := by
  unfold straight mixed
  linear_combination (q.x * q.x + q.y * q.y) * hp.product + (p.x * p.x + p.y * p.y) * hq.product

theorem OnCurve.straight_add_mixed (hp : p.OnCurve) (hq : q.OnCurve) :
    straight p q * straight p q + mixed p q * mixed p q =
      (p.x * p.x + p.y * p.y) * (q.x * q.x + q.y * q.y) + 4 * (p.z * p.t * (q.z * q.t)) := by
  unfold straight mixed
  linear_combination 4 * (q.x * q.y) * hp.product + 4 * (p.z * p.t) * hq.product

theorem OnCurve.sq_sum (hp : p.OnCurve) :
    (p.x * p.x + p.y * p.y) * (p.x * p.x + p.y * p.y) =
      (p.z * p.z + d * (p.t * p.t)) * (p.z * p.z + d * (p.t * p.t)) +
        4 * (p.z * p.t * (p.z * p.t)) := by
  linear_combination (p.y * p.y - p.x * p.x + p.z * p.z + d * (p.t * p.t)) * hp.equation +
    4 * (p.x * p.y + p.z * p.t) * hp.product

/-! ## The sum is a point -/

/-- If a denominator vanished, the coefficient would be the square of a quotient. -/
theorem OnCurve.sq_of_denominator (hp : p.OnCurve) (hq : q.OnCurve) {sign root : Field}
    (hsign : sign * sign = 1) (hroot : root * root = -1)
    (h : middle p q = sign * shift p q) :
    q.z * (root * p.x + sign * p.y) * (q.z * (root * p.x + sign * p.y)) =
      d * (p.t * (root * q.x + q.y) * (p.t * (root * q.x + q.y))) := by
  unfold middle shift at h
  linear_combination
    (q.z * q.z * (p.x * p.x) - d * (p.t * p.t) * (q.x * q.x)) * hroot +
    (q.z * q.z * (p.y * p.y) + d * d * (p.t * p.t) * (q.t * q.t) +
      2 * root * d * (p.t * p.t) * q.z * q.t) * hsign +
    q.z * q.z * hp.equation + 2 * root * sign * (q.z * q.z) * hp.product -
    d * (p.t * p.t) * hq.equation - 2 * root * d * (p.t * p.t) * hq.product +
    (p.z * q.z + sign * d * (p.t * q.t) + 2 * root * sign * (q.z * p.t)) * h

/-- No denominator of a sum vanishes. -/
theorem OnCurve.denominator_ne (hp : p.OnCurve) (hq : q.OnCurve) {sign : Field}
    (hsign : sign * sign = 1) : middle p q ≠ sign * shift p q := by
  intro h
  have hzero (root : Field) (hroot : root * root = -1) : p.t * (root * q.x + q.y) = 0 :=
    Field.eq_zero_of_sq_eq (hp.sq_of_denominator hq hsign hroot h)
  have hproduct : p.z * q.z ≠ 0 := mul_ne_zero hp.z_ne hq.z_ne
  have hpt : p.t ≠ 0 := by
    intro hpt
    exact hproduct (by simpa [middle, shift, hpt] using h)
  have hplus := (mul_eq_zero.mp (hzero Field.imaginary Field.imaginary_mul_self)).resolve_left hpt
  have hminus := (mul_eq_zero.mp (hzero (-Field.imaginary)
    (by rw [neg_mul_neg, Field.imaginary_mul_self]))).resolve_left hpt
  have hqy : q.y = 0 := by
    have htwice : 2 * q.y = 0 := by linear_combination hplus + hminus
    exact (mul_eq_zero.mp htwice).resolve_left (by decide)
  have hqt : q.t = 0 := by
    have := hq.product
    rw [hqy, mul_zero] at this
    exact (mul_eq_zero.mp this.symm).resolve_left hq.z_ne
  exact hproduct (by simpa [middle, shift, hqt] using h)

theorem OnCurve.add_z_ne (hp : p.OnCurve) (hq : q.OnCurve) : (p.add q).z ≠ 0 := by
  have hminus : middle p q - shift p q ≠ 0 := fun h =>
    hp.denominator_ne hq (one_mul 1) (by linear_combination h)
  have hplus : middle p q + shift p q ≠ 0 := fun h =>
    hp.denominator_ne hq (neg_mul_neg 1 1) (by linear_combination h)
  rw [add_eq]
  exact mul_ne_zero (mul_ne_zero hminus hplus) (by decide)

theorem OnCurve.add (hp : p.OnCurve) (hq : q.OnCurve) : (p.add q).OnCurve where
  z_ne := hp.add_z_ne hq
  product := by rw [add_eq]; simp only [scale]; ring
  equation := by
    rw [add_eq]
    simp only [scale]
    have hdifference := hp.straight_sub_mixed hq
    have hproduct := hp.mixed_mul_straight hq
    have hsum := hp.straight_add_mixed hq
    have hsquare := hp.sq_sum
    have hsquare' := hq.sq_sum
    generalize mixed p q = e, straight p q = h at *
    unfold middle shift
    linear_combination 16 * ((p.z * q.z) * (p.z * q.z) + d * (p.t * q.t) * (d * (p.t * q.t))) *
        hdifference +
      32 * (p.z * q.z) * (d * (p.t * q.t)) * hsum -
      16 * d * (e * h + p.z * p.t * (q.x * q.x + q.y * q.y) +
        q.z * q.t * (p.x * p.x + p.y * p.y)) * hproduct -
      16 * d * (p.z * p.t * (p.z * p.t)) * hsquare' - 16 * d * (q.z * q.t * (q.z * q.t)) * hsquare

theorem OnCurve.neg (hp : p.OnCurve) : p.neg.OnCurve where
  z_ne := hp.z_ne
  product := by simp only [Point.neg]; linear_combination -hp.product
  equation := by simp only [Point.neg]; linear_combination hp.equation

theorem onCurve_zero : zero.OnCurve := ⟨by decide, by decide, by decide +kernel⟩

theorem onCurve_base : base.OnCurve := ⟨by decide, rfl, by decide +kernel⟩

/-! ## Sums and factors -/

theorem Same.add_left (hq : q.z ≠ 0) (h : Same q q') (p : Point) :
    Same (p.add q) (p.add q') := by
  have hscaled : (p.add q).scale (q'.z * q'.z) = (p.add q').scale (q.z * q.z) := by
    have hsum := congrArg (p.scale 1).add h
    simpa only [add_scale, one_mul] using hsum
  exact same_of_scale (mul_ne_zero hq hq) hscaled

theorem Same.neg (h : Same p q) : Same p.neg q.neg := by
  have hneg (p : Point) (c : Field) : (p.scale c).neg = p.neg.scale c := by
    apply Point.ext <;> simp [scale, Point.neg]
  have := congrArg Point.neg h
  rwa [hneg, hneg] at this

/-! ## Multiples -/

/-- What holds of the neutral point and of a point, and of sums, holds of the multiples. -/
theorem times_induction {motive : Point → Prop} (hzero : motive zero)
    (hadd : ∀ p q, motive p → motive q → motive (p.add q)) (factor : ℕ) (hp : motive p) :
    motive (p.times factor) := by
  have hloop (bits : ℕ) : ∀ (factor : ℕ) {p q : Point}, motive p → motive q →
      motive (timesLoop bits p factor q) := by
    induction bits with
    | zero => exact fun _ _ _ _ hq => hq
    | succ bits ih =>
        intro factor p q hp hq
        refine ih (factor / 2) (hadd p p hp hp) ?_
        split
        · exact hadd q p hq hp
        · exact hq
  exact hloop 256 factor hp hzero

theorem OnCurve.times (hp : p.OnCurve) (factor : ℕ) : (p.times factor).OnCurve :=
  times_induction onCurve_zero (fun _ _ => OnCurve.add) factor hp

end PeerMail.Point
