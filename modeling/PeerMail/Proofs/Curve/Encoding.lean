import PeerMail.Proofs.Curve.Group

/-!
# Points and their bytes

The 32 bytes of a point determine it: the second coordinate is written in full, and
leaves a choice of two for the first, which the topmost bit decides.  Reading the bytes
finds the point again, and bytes that are read at all give a point of the curve.
-/

namespace PeerMail

open scoped Fin.CommRing

namespace Point

variable {p q : Point} {bytes : Bytes}

/-! ## Coordinates in the plane -/

/-- The first coordinate of a point of the plane. -/
def abscissa (p : Point) : Field := p.x * p.z.inverse

/-- The second coordinate of a point of the plane. -/
def ordinate (p : Point) : Field := p.y * p.z.inverse

theorem OnCurve.plane_equation (hp : p.OnCurve) :
    p.ordinate * p.ordinate - p.abscissa * p.abscissa =
      1 + d * (p.abscissa * p.ordinate * (p.abscissa * p.ordinate)) := by
  have hscale := Field.mul_inverse hp.z_ne
  unfold abscissa ordinate
  generalize p.z.inverse = scale at *
  linear_combination scale * scale * hp.equation + (p.z * scale + 1) * hscale +
    d * (scale * scale) * (p.t + p.x * p.y * scale) * (-p.t * hscale - scale * hp.product)

theorem same_iff_plane (hp : p.OnCurve) (hq : q.OnCurve) :
    Same p q ↔ p.abscissa = q.abscissa ∧ p.ordinate = q.ordinate := by
  have hscale := Field.mul_inverse hp.z_ne
  have hscale' := Field.mul_inverse hq.z_ne
  unfold abscissa ordinate
  constructor
  · intro h
    have hx : p.x * q.z = q.x * p.z := congrArg Point.x h
    have hy : p.y * q.z = q.y * p.z := congrArg Point.y h
    generalize p.z.inverse = scale at *
    generalize q.z.inverse = scale' at *
    constructor
    · linear_combination scale * scale' * hx - p.x * scale * hscale' + q.x * scale' * hscale
    · linear_combination scale * scale' * hy - p.y * scale * hscale' + q.y * scale' * hscale
  · rintro ⟨hx, hy⟩
    generalize p.z.inverse = scale at *
    generalize q.z.inverse = scale' at *
    refine hp.same hq ?_ ?_
    · linear_combination p.z * q.z * hx - p.x * q.z * hscale + q.x * p.z * hscale'
    · linear_combination p.z * q.z * hy - p.y * q.z * hscale + q.y * p.z * hscale'

/-- The factor that turns the square of the first coordinate into a polynomial of the second. -/
theorem factor_ne (y : Field) : d * y * y + 1 ≠ 0 := by
  intro hzero
  have hsquare : Field.imaginary * Field.imaginary = d * (y * y) := by
    linear_combination Field.imaginary_mul_self - hzero
  rw [Field.eq_zero_of_sq_eq hsquare] at hzero
  simp at hzero

theorem OnCurve.factor_mul_sq (hp : p.OnCurve) :
    (d * p.ordinate * p.ordinate + 1) * p.abscissa * p.abscissa = p.ordinate * p.ordinate - 1 := by
  linear_combination -hp.plane_equation

/-- Points of the curve with one second coordinate are reflections of each other. -/
theorem OnCurve.sq_abscissa (hp : p.OnCurve) (hq : q.OnCurve) (h : p.ordinate = q.ordinate) :
    p.abscissa * p.abscissa = q.abscissa * q.abscissa := by
  have hfactor := hp.factor_mul_sq
  rw [h] at hfactor
  refine mul_left_cancel₀ (factor_ne q.ordinate) ?_
  linear_combination hfactor - hq.factor_mul_sq

/-! ## Writing -/

/-- The number that the bytes of a point stand for. -/
def number (p : Point) : ℕ := p.ordinate.val + p.abscissa.val % 2 * Nat.pow 2 255

theorem number_lt (p : Point) : p.number < Nat.pow 256 32 := by
  have hlt : p.ordinate.val < 2 ^ 255 := p.ordinate.isLt.trans (by decide)
  unfold number
  norm_num at hlt ⊢
  omega

theorem number_mod (p : Point) : p.number % Nat.pow 2 255 = p.ordinate.val := by
  have hlt : p.ordinate.val < 2 ^ 255 := p.ordinate.isLt.trans (by decide)
  unfold number
  norm_num at hlt ⊢
  omega

theorem number_div (p : Point) : p.number / Nat.pow 2 255 % 2 = p.abscissa.val % 2 := by
  have hlt : p.ordinate.val < 2 ^ 255 := p.ordinate.isLt.trans (by decide)
  unfold number
  norm_num at hlt ⊢
  omega

theorem toNatLE_toBytes (p : Point) : Bytes.toNatLE p.toBytes = p.number := by
  show Bytes.toNatLE (Bytes.ofNatLE 32 p.number) = _
  rw [Bytes.toNatLE_ofNatLE, Nat.mod_eq_of_lt p.number_lt]

/-- The bytes of a point of the curve determine it. -/
theorem OnCurve.toBytes_eq_iff (hp : p.OnCurve) (hq : q.OnCurve) :
    p.toBytes = q.toBytes ↔ Same p q := by
  rw [same_iff_plane hp hq]
  constructor
  · intro h
    have hnumber : p.number = q.number := by rw [← toNatLE_toBytes, h, toNatLE_toBytes]
    have hy : p.ordinate = q.ordinate := Fin.ext (by rw [← number_mod, hnumber, number_mod])
    have hparity : p.abscissa.val % 2 = q.abscissa.val % 2 := by
      rw [← number_div, hnumber, number_div]
    exact ⟨Field.eq_of_parity (hp.sq_abscissa hq hy) hparity, hy⟩
  · rintro ⟨hx, hy⟩
    show Bytes.ofNatLE 32 p.number = Bytes.ofNatLE 32 q.number
    rw [number, number, hx, hy]

/-! ## Reading -/

theorem onCurve_of_ofBytes? (h : ofBytes? bytes = some p) : p.OnCurve := by
  simp only [ofBytes?, Option.map_eq_some_iff] at h
  obtain ⟨root, hroot, rfl⟩ := h
  have hsquare := (Field.of_sqrtRatio? hroot).1
  refine ⟨one_ne_zero, (one_mul _).symm, ?_⟩
  simp only [affine]
  split <;> linear_combination -hsquare

theorem ofBytes_toBytes (p : Point) : Field.ofBytes p.toBytes = p.ordinate := by
  refine Fin.ext ?_
  show Bytes.toNatLE p.toBytes % Nat.pow 2 255 % Field.prime = p.ordinate.val
  rw [toNatLE_toBytes, number_mod, Nat.mod_eq_of_lt p.ordinate.isLt]

/-- The bytes of a point of the curve are read as that point. -/
theorem OnCurve.ofBytes?_toBytes (hp : p.OnCurve) :
    ∃ q, ofBytes? p.toBytes = some q ∧ Same q p := by
  obtain ⟨root, hroot⟩ := Field.exists_sqrtRatio? (factor_ne p.ordinate) hp.factor_mul_sq
  obtain ⟨hsquare, heven⟩ := Field.of_sqrtRatio? hroot
  have hsquares : root * root = p.abscissa * p.abscissa := by
    refine mul_left_cancel₀ (factor_ne p.ordinate) ?_
    linear_combination hsquare - hp.factor_mul_sq
  have hchosen : (if p.abscissa.val % 2 = 1 then -root else root) = p.abscissa := by
    split
    case isTrue hodd =>
      have hne : root ≠ 0 := by
        rintro rfl
        rw [mul_zero] at hsquares
        rw [mul_self_eq_zero.mp hsquares.symm] at hodd
        exact absurd hodd (by decide)
      refine Field.eq_of_parity (by rw [neg_mul_neg, hsquares]) ?_
      rw [Field.parity_neg hne, heven, hodd]
    case isFalse hnot => exact Field.eq_of_parity hsquares (by omega)
  have hread : ofBytes? p.toBytes = some (affine p.abscissa p.ordinate) := by
    simp only [ofBytes?, ofBytes_toBytes, hroot, toNatLE_toBytes, number_div, Option.map_some,
      decide_eq_true_eq, hchosen]
  have hscale := Field.mul_inverse hp.z_ne
  refine ⟨_, hread, (onCurve_of_ofBytes? hread).same hp ?_ ?_⟩
  · simp only [affine, abscissa]
    linear_combination p.x * hscale
  · simp only [affine, ordinate]
    linear_combination p.y * hscale

theorem coordinates_of_ofBytes? (h : ofBytes? bytes = some p) :
    p.y = Field.ofBytes bytes ∧ p.z = 1 := by
  simp only [ofBytes?, Option.map_eq_some_iff] at h
  obtain ⟨root, -, rfl⟩ := h
  exact ⟨rfl, rfl⟩

/-- Bytes whose second coordinate is one are read as the neutral point. -/
theorem ofBytes?_of_one (h : Field.ofBytes bytes = 1) : ofBytes? bytes = some zero := by
  have hroot (v : Field) : Field.sqrtRatio? 0 v = some 0 := by simp [Field.sqrtRatio?]
  simp [ofBytes?, h, hroot, affine, zero]

end Point

/-! ## Elements of the group -/

namespace CurveGroup

open Point

variable {bytes : Bytes}

/-- The point whose bytes are given. -/
def ofBytes? (bytes : Bytes) : Option CurveGroup :=
  (Point.ofBytes? bytes).pmap (fun _ hp => of hp) fun _ h => onCurve_of_ofBytes? h

/-- The bytes of a point. -/
def toBytes : CurveGroup → Bytes :=
  Quotient.lift (fun p => p.val.toBytes) fun p q h => (p.property.toBytes_eq_iff q.property).mpr h

@[simp] theorem toBytes_of {p : Point} (hp : p.OnCurve) : (of hp).toBytes = p.toBytes := rfl

theorem toBytes_injective : Function.Injective toBytes := by
  rintro ⟨p, hp⟩ ⟨q, hq⟩ h
  exact (of_eq_of_iff hp hq).mpr ((hp.toBytes_eq_iff hq).mp h)

theorem ofBytes?_eq_some_iff {point : CurveGroup} :
    ofBytes? bytes = some point ↔
      ∃ p, ∃ h : Point.ofBytes? bytes = some p, of (onCurve_of_ofBytes? h) = point := by
  rw [ofBytes?, Option.pmap_eq_some_iff]
  constructor
  · rintro ⟨p, _, h, rfl⟩
    exact ⟨p, h, rfl⟩
  · rintro ⟨p, h, rfl⟩
    exact ⟨p, onCurve_of_ofBytes? h, h, rfl⟩

/-- What is written is read back. -/
theorem ofBytes?_toBytes (point : CurveGroup) : ofBytes? point.toBytes = some point := by
  obtain ⟨p, hp⟩ := point
  obtain ⟨q, hread, hsame⟩ := hp.ofBytes?_toBytes
  exact ofBytes?_eq_some_iff.mpr ⟨q, hread, (of_eq_of_iff _ hp).mpr hsame⟩

/-- The bytes of the neutral point are those whose second coordinate is one. -/
theorem ofBytes?_eq_zero_iff : ofBytes? bytes = some 0 ↔ Field.ofBytes bytes = 1 := by
  rw [ofBytes?_eq_some_iff]
  constructor
  · rintro ⟨p, hread, hzero⟩
    obtain ⟨hy, hz⟩ := coordinates_of_ofBytes? hread
    have hsame : p.y * (1 : Field) = 1 * p.z := congrArg Point.y ((of_eq_of_iff _ _).mp hzero)
    rw [← hy, ← mul_one p.y, hsame, hz, one_mul]
  · intro h
    exact ⟨Point.zero, ofBytes?_of_one h, rfl⟩

end CurveGroup

end PeerMail
