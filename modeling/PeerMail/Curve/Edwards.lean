import PeerMail.Curve.Field

/-!
# The twisted Edwards curve of the signatures

Points of -x^2 + y^2 = 1 + d x^2 y^2 over 2^255 - 19, in extended coordinates,
with the addition that covers every pair of points, multiples, and the 32-byte
form: the y coordinate with the parity of x in the topmost bit.
-/

namespace PeerMail

/-- A point as x = X/Z, y = Y/Z, xy = T/Z. -/
structure Point where
  x : Field
  y : Field
  z : Field
  t : Field
deriving DecidableEq

namespace Point

/-- The coefficient of the curve. -/
def d : Field := -121665 * Field.inverse 121666

/-- The number of points in the subgroup of the base point. -/
def order : Nat := Nat.pow 2 252 + 27742317777372353535851937790883648493

/-- The neutral point. -/
def zero : Point := ⟨0, 1, 1, 0⟩

/-- The point with the given affine coordinates. -/
def affine (x y : Field) : Point := ⟨x, y, 1, x * y⟩

/-- The base point. -/
def base : Point := affine
  (Field.ofNat 15112221349535400772501151409588531511454012693041857206046113283949847762202)
  (Field.ofNat 46316835694926478169428394003475163141307993866256225615783033603165251855960)

/-- The sum of two points. -/
def add (p q : Point) : Point :=
  let a := (p.y - p.x) * (q.y - q.x)
  let b := (p.y + p.x) * (q.y + q.x)
  let c := 2 * d * p.t * q.t
  let m := 2 * p.z * q.z
  let e := b - a
  let f := m - c
  let g := m + c
  let h := b + a
  ⟨e * f, g * h, f * g, e * h⟩

/-- The point reflected in the y axis. -/
def neg (p : Point) : Point := ⟨-p.x, p.y, p.z, -p.t⟩

/-- Doubles and adds along the lowest `bits` bits of the factor. -/
def timesLoop : (bits : Nat) → (double : Point) → (factor : Nat) → (result : Point) → Point
  | 0, _, _, result => result
  | bits + 1, double, factor, result =>
      timesLoop bits (double.add double) (factor / 2)
        (if factor % 2 = 1 then result.add double else result)

/-- The multiple of a point by a factor below 2^256. -/
def times (p : Point) (factor : Nat) : Point := timesLoop 256 p factor zero

/-! ## Byte form -/

/-- The 32-byte form of a point. -/
def toBytes (p : Point) : Bytes :=
  let scale := p.z.inverse
  let x := p.x * scale
  let y := p.y * scale
  Bytes.ofNatLE 32 (y.val + x.val % 2 * Nat.pow 2 255)

@[simp] theorem length_toBytes (p : Point) : p.toBytes.length = 32 := by simp [toBytes]

/-- The point with a 32-byte form.  The y coordinate may be given beyond the modulus, and a
point with x = 0 may carry either parity; bytes whose y belongs to no point are refused. -/
def ofBytes? (bytes : Bytes) : Option Point :=
  let y := Field.ofBytes bytes
  let odd : Bool := Bytes.toNatLE bytes / Nat.pow 2 255 % 2 = 1
  (Field.sqrtRatio? (y * y - 1) (d * y * y + 1)).map fun x => affine (if odd then -x else x) y

end Point

end PeerMail
