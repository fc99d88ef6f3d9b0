import PeerMail.Bytes

/-!
# The field of 2^255 - 19 elements

Numbers modulo 2^255 - 19, with powers, inverses and square roots.  The modulus
is 5 modulo 8, so a square root is found as a power of the quotient, corrected
by a square root of minus one where needed.
-/

namespace PeerMail

/-- The modulus. -/
def Field.prime : Nat := Nat.pow 2 255 - 19

instance : @NeZero Nat Zero.ofOfNat0 Field.prime :=
  @NeZero.mk Nat Zero.ofOfNat0 Field.prime (by decide)

/-- A number modulo 2^255 - 19. -/
abbrev Field := Fin Field.prime

namespace Field

/-- The element with the given value modulo the modulus. -/
def ofNat (value : Nat) : Field := Fin.ofNat prime value

/-- The element in 32 bytes, least significant first; the topmost bit is ignored. -/
def ofBytes (bytes : Bytes) : Field := ofNat (Bytes.toNatLE bytes % Nat.pow 2 255)

/-- The least value of an element in 32 bytes, least significant first. -/
def toBytes (x : Field) : Bytes := Bytes.ofNatLE 32 x.val

@[simp] theorem length_toBytes (x : Field) : x.toBytes.length = 32 := by simp [toBytes]

/-- Squares and multiplies along the lowest `bits` bits of the exponent. -/
def powLoop : (bits : Nat) → (square : Field) → (exponent : Nat) → (result : Field) → Field
  | 0, _, _, result => result
  | bits + 1, square, exponent, result =>
      powLoop bits (square * square) (exponent / 2)
        (if exponent % 2 = 1 then result * square else result)

/-- A power with an exponent below 2^255. -/
def power (x : Field) (exponent : Nat) : Field := powLoop 255 x exponent 1

/-- The inverse; zero for zero. -/
def inverse (x : Field) : Field := x.power (prime - 2)

/-- A square root of minus one. -/
def imaginary : Field := power 2 ((prime - 1) / 4)

/-- The even square root of `u / v`, if there is one. -/
def sqrtRatio? (u v : Field) : Option Field :=
  let v3 := v * v * v
  let candidate := u * v3 * (u * v3 * v3 * v).power ((prime - 5) / 8)
  let check := v * candidate * candidate
  let found : Option Field :=
    if check = u then some candidate
    else if check = -u then some (candidate * imaginary)
    else none
  found.map fun x => if x.val % 2 = 0 then x else -x

end Field

end PeerMail
