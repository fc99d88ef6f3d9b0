import Mathlib.NumberTheory.LucasPrimality
import Mathlib.Tactic.NormNum.Prime
import PeerMail.Curve.Edwards

/-!
# The modulus of the field and the group order are primes

Lucas's test proves a number prime from an element of full order modulo it and the
primes that divide its predecessor.  `prime_of_check` states the test for a list of
such elements, with powers that a computation can take, squared and multiplied along
the bits of the exponent.
-/

namespace PeerMail

/-! ## Lucas's test -/

namespace Lucas

/-- The power modulo `modulus` along the lowest `bits` bits of the exponent. -/
def powMod (modulus : ℕ) : (bits base exponent : ℕ) → ℕ
  | 0, _, _ => 1 % modulus
  | bits + 1, base, exponent =>
      let even := powMod modulus bits (base * base % modulus) (exponent / 2)
      if exponent % 2 = 1 then even * base % modulus else even

theorem powMod_eq (modulus bits base exponent : ℕ) (hbits : exponent < 2 ^ bits) :
    powMod modulus bits base exponent = base ^ exponent % modulus := by
  induction bits generalizing base exponent with
  | zero =>
      obtain rfl : exponent = 0 := by simpa using hbits
      rfl
  | succ bits ih =>
      have hhalf : exponent / 2 < 2 ^ bits := by rw [pow_succ] at hbits; omega
      have hsquare : (base * base % modulus) ^ (exponent / 2) % modulus =
          base ^ (2 * (exponent / 2)) % modulus := by
        rw [← Nat.pow_mod, pow_mul, sq]
      simp only [powMod, ih _ _ hhalf, hsquare]
      split
      case isTrue hodd =>
        rw [Nat.mod_mul_mod, ← pow_succ]
        congr 2
        omega
      case isFalse heven =>
        congr 2
        omega

/-- A number with an element of full order modulo it, and the primes of its predecessor. -/
structure Entry where
  p : ℕ
  witness : ℕ
  factors : List ℕ

/-- Whether the element has full order. -/
def Entry.check (entry : Entry) : Bool :=
  entry.factors.prod + 1 = entry.p && entry.p < 2 ^ 256 &&
    powMod entry.p 256 entry.witness (entry.p - 1) = 1 % entry.p &&
    entry.factors.all fun q =>
      powMod entry.p 256 entry.witness ((entry.p - 1) / q) ≠ 1 % entry.p

/-- Whether the entries pass in order, with factors that are known or come before. -/
def check : (known : List ℕ) → List Entry → Bool
  | _, [] => true
  | known, entry :: rest =>
      entry.factors.all (· ∈ known) && entry.check && check (entry.p :: known) rest

theorem cast_pow_eq_one_iff (p witness exponent : ℕ) :
    (witness : ZMod p) ^ exponent = 1 ↔ witness ^ exponent % p = 1 % p := by
  rw [← Nat.cast_pow, ← Nat.cast_one, ZMod.natCast_eq_natCast_iff']

theorem Entry.prime {entry : Entry} (hfactors : ∀ q ∈ entry.factors, q.Prime)
    (hcheck : entry.check = true) : entry.p.Prime := by
  obtain ⟨p, witness, factors⟩ := entry
  simp only [Entry.check, Bool.and_eq_true, decide_eq_true_eq, List.all_eq_true] at hcheck
  obtain ⟨⟨⟨hprod, hlt⟩, hfull⟩, hpart⟩ := hcheck
  have hpower (exponent : ℕ) (hle : exponent ≤ p - 1) :
      powMod p 256 witness exponent = witness ^ exponent % p :=
    powMod_eq p 256 witness exponent (by omega)
  refine lucas_primality p witness ?_ fun q hq hdvd => ?_
  · rw [cast_pow_eq_one_iff, ← hpower _ le_rfl]
    exact hfull
  · have hpred : p - 1 = factors.prod := by omega
    have hmem : q ∈ factors := by
      obtain ⟨r, hr, hqr⟩ := (Prime.dvd_prod_iff hq.prime).mp (hpred ▸ hdvd)
      rwa [(Nat.prime_dvd_prime_iff_eq hq (hfactors r hr)).mp hqr]
    rw [ne_eq, cast_pow_eq_one_iff, ← hpower _ (Nat.div_le_self _ _)]
    exact hpart q hmem

/-- Entries that pass are about primes. -/
theorem prime_of_check {known : List ℕ} {entries : List Entry} (hknown : ∀ q ∈ known, q.Prime)
    (hcheck : check known entries = true) : ∀ p ∈ entries.map Entry.p, p.Prime := by
  induction entries generalizing known with
  | nil => simp
  | cons entry rest ih =>
      simp only [check, Bool.and_eq_true, List.all_eq_true, decide_eq_true_eq] at hcheck
      obtain ⟨⟨hfactors, hentry⟩, hrest⟩ := hcheck
      have hprime : entry.p.Prime := Entry.prime (fun q hq => hknown q (hfactors q hq)) hentry
      have hmore : ∀ q ∈ entry.p :: known, q.Prime := by
        rintro q (_ | ⟨_, hq⟩)
        · exact hprime
        · exact hknown q hq
      rintro other (_ | ⟨_, hother⟩)
      · exact hprime
      · exact ih hmore hrest other hother

/-! ## The two numbers -/

/-- The primes from which the others are certified. -/
def smallPrimes : List ℕ :=
  [2, 3, 5, 7, 11, 13, 19, 23, 31, 41, 43, 47, 73, 107, 127, 223, 269, 307, 353, 1361, 2437, 2851,
    4153, 5879, 30703, 57467, 65147, 75707, 82163, 132049, 132667, 137849, 409477, 430751, 531581,
    569003, 1224481, 1923133, 8574133]

theorem prime_of_mem_smallPrimes : ∀ q ∈ smallPrimes, q.Prime := by
  norm_num [smallPrimes]

/-- The primes that lead to the modulus. -/
def modulusEntries : List Entry := [
  ⟨2773320623, 5, [2, 2437, 569003]⟩,
  ⟨72106336199, 7, [2, 13, 2773320623]⟩,
  ⟨1919519569386763, 2, [2, 3, 7, 19, 47, 47, 127, 8574133]⟩,
  ⟨31757755568855353, 10, [2, 2, 2, 3, 31, 107, 223, 4153, 430751]⟩,
  ⟨75445702479781427272750846543864801, 7,
    [2, 2, 2, 2, 2, 3, 3, 5, 5, 75707, 72106336199, 1919519569386763]⟩,
  ⟨74058212732561358302231226437062788676166966415465897661863160754340907, 2,
    [2, 3, 353, 57467, 132049, 1923133, 31757755568855353, 75445702479781427272750846543864801]⟩,
  ⟨Field.prime, 2,
    [2, 2, 3, 65147, 74058212732561358302231226437062788676166966415465897661863160754340907]⟩]

/-- The primes that lead to the group order. -/
def orderEntries : List Entry := [
  ⟨14741173, 2, [2, 2, 3, 3, 409477]⟩,
  ⟨58964693, 2, [2, 2, 14741173]⟩,
  ⟨3044861653679985063343, 5, [2, 3, 11, 30703, 82163, 132667, 137849]⟩,
  ⟨198211423230930754013084525763697, 5,
    [2, 2, 2, 2, 3, 23, 58964693, 3044861653679985063343]⟩,
  ⟨292386187, 2, [2, 3, 3, 3, 3, 307, 5879]⟩,
  ⟨213441916511, 13, [2, 5, 73, 292386187]⟩,
  ⟨1257559732178653, 2, [2, 2, 3, 7, 23, 531581, 1224481]⟩,
  ⟨4434155615661930479, 17, [2, 41, 43, 1257559732178653]⟩,
  ⟨172054593956031949258510691, 2, [2, 5, 1361, 2851, 4434155615661930479]⟩,
  ⟨19757330305831588566944191468367130476339, 2,
    [2, 269, 213441916511, 172054593956031949258510691]⟩,
  ⟨276602624281642239937218680557139826668747, 2,
    [2, 7, 19757330305831588566944191468367130476339]⟩,
  ⟨Point.order, 2, [2, 2, 3, 11, 198211423230930754013084525763697,
    276602624281642239937218680557139826668747]⟩]

end Lucas

/-- The modulus of the field is prime. -/
theorem Field.prime_prime : Nat.Prime Field.prime :=
  Lucas.prime_of_check Lucas.prime_of_mem_smallPrimes
    (show Lucas.check Lucas.smallPrimes Lucas.modulusEntries = true by decide +kernel)
    Field.prime (by simp [Lucas.modulusEntries])

/-- The order of the base point is prime. -/
theorem Point.prime_order : Nat.Prime Point.order :=
  Lucas.prime_of_check Lucas.prime_of_mem_smallPrimes
    (show Lucas.check Lucas.smallPrimes Lucas.orderEntries = true by decide +kernel)
    Point.order (by simp [Lucas.orderEntries])

end PeerMail
