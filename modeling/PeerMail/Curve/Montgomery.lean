import PeerMail.Curve.Field

/-!
# Key agreement on the Montgomery curve

The function X25519: the multiple of a point of y^2 = x^3 + 486662 x^2 + x
by a clamped scalar, computed on x coordinates alone with a ladder.
-/

namespace PeerMail.X25519

/-- Clears the three lowest bits and the topmost one, and sets the one below it. -/
def clamp (secret : Bytes) : Nat :=
  Bytes.toNatLE secret % Nat.pow 2 254 / 8 * 8 + Nat.pow 2 254

/-- Two neighbouring multiples, each as a quotient of two field elements. -/
structure Pair where
  x₂ : Field
  z₂ : Field
  x₃ : Field
  z₃ : Field

/-- The two multiples exchanged. -/
def Pair.swap (pair : Pair) : Pair := ⟨pair.x₃, pair.z₃, pair.x₂, pair.z₂⟩

/-- Doubles the first multiple and adds both for the second. -/
def Pair.step (point : Field) (pair : Pair) : Pair :=
  let a := pair.x₂ + pair.z₂
  let b := pair.x₂ - pair.z₂
  let c := pair.x₃ + pair.z₃
  let e := pair.x₃ - pair.z₃
  let aa := a * a
  let bb := b * b
  let da := e * a
  let cb := c * b
  let difference := aa - bb
  ⟨aa * bb, difference * (aa + 121665 * difference),
    (da + cb) * (da + cb), point * ((da - cb) * (da - cb))⟩

/-- Climbs along the lowest `bits` bits of the scalar, highest first. -/
def ladder (point : Field) (scalar : Nat) : (bits : Nat) → Pair → Pair
  | 0, pair => pair
  | bits + 1, pair =>
      let odd : Bool := scalar / Nat.pow 2 bits % 2 = 1
      let next := if odd then (pair.swap.step point).swap else pair.step point
      ladder point scalar bits next

/-- The multiple of an x coordinate by a clamped secret, in 32 bytes. -/
def multiply (secret point : Bytes) : Bytes :=
  let x := Field.ofBytes point
  let final := ladder x (clamp secret) 255 ⟨1, 0, x, 1⟩
  (final.x₂ * final.z₂.inverse).toBytes

/-- The Montgomery coordinate (1 + y) / (1 - y) of an Edwards point in its byte form, which the y
coordinate determines; zero at the neutral point. -/
def ofEdwards (point : Bytes) : Bytes :=
  let y := Field.ofBytes point
  Field.toBytes ((1 + y) * Field.inverse (1 - y))

/-- The x coordinate of the base point. -/
def basePoint : Bytes := Field.toBytes 9

@[simp] theorem length_multiply (secret point : Bytes) : (multiply secret point).length = 32 := by
  simp [multiply]

end PeerMail.X25519
