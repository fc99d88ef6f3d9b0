import PeerMail.Bytes.Lanes

/-!
# ChaCha20

The stream cipher of RFC 8439: a block function over a square of sixteen words
(constants, key, counter, nonce), whose output for successive counters is the
key stream, and the derivation of a fresh key from a key and sixteen bytes that
stretches the nonce to twenty-four bytes.
-/

namespace PeerMail.ChaCha20

/-! ## The permutation -/

/-- The quarter round, on all four columns at once. -/
def quarterRound (s : Square) : Square :=
  let a := s.a.add s.b
  let d := (s.d.xor a).turn 16
  let c := s.c.add d
  let b := (s.b.xor c).turn 12
  let a := a.add b
  let d := (d.xor a).turn 8
  let c := c.add d
  let b := (b.xor c).turn 7
  ⟨a, b, c, d⟩

/-- A round on the columns and a round on the diagonals. -/
def doubleRound (s : Square) : Square :=
  (quarterRound (quarterRound s).diagonals).columns

/-- The given number of double rounds. -/
def doubleRounds : (count : Nat) → Square → Square
  | 0, s => s
  | count + 1, s => doubleRounds count (doubleRound s)

/-! ## Blocks and the key stream -/

/-- The words of `expand 32-byte k`. -/
def constants : Lanes := ⟨0x61707865, 0x3320646e, 0x79622d32, 0x6b206574⟩

/-- The starting square: constants, 32 key bytes, and 16 bytes of counter and nonce. -/
def start (key input : Bytes) : Square :=
  let words := Bytes.words32LE key
  ⟨constants, .ofList (words.take 4), .ofList (words.drop 4), .ofList (Bytes.words32LE input)⟩

/-- The 64 bytes of key stream for a counter and a 12-byte nonce. -/
def block (key : Bytes) (counter : Nat) (nonce : Bytes) : Bytes :=
  let initial := start key (Bytes.ofNatLE 4 counter ++ nonce)
  Bytes.ofWords32LE ((doubleRounds 10 initial).add initial).toList

/-- The key stream of `count` blocks, from the given counter on. -/
def keyStream (key nonce : Bytes) : (count : Nat) → (counter : Nat) → Bytes
  | 0, _ => []
  | count + 1, counter => block key counter nonce ++ keyStream key nonce count (counter + 1)

/-- Encryption, which is also decryption: the data combined with the key stream. -/
def crypt (key nonce : Bytes) (counter : Nat) (data : Bytes) : Bytes :=
  Bytes.xor data (keyStream key nonce ((data.length + 63) / 64) counter)

/-! ## Nonces of twenty-four bytes -/

/-- The key that a key and sixteen bytes lead to: rows one and four of the permuted square. -/
def subkey (key input : Bytes) : Bytes :=
  let final := doubleRounds 10 (start key input)
  Bytes.ofWords32LE (final.a.toList ++ final.d.toList)

/-! ## Lengths -/

theorem length_ofWords32LE (words : List UInt32) :
    (Bytes.ofWords32LE words).length = 4 * words.length := by
  induction words with
  | nil => rfl
  | cons word rest ih =>
      have ih' : (List.flatMap (fun w : UInt32 => Bytes.ofNatLE 4 w.toNat) rest).length
          = 4 * rest.length := ih
      simp only [Bytes.ofWords32LE, List.flatMap_cons, List.length_append,
        Bytes.length_ofNatLE, List.length_cons, ih']
      omega

@[simp] theorem length_block (key : Bytes) (counter : Nat) (nonce : Bytes) :
    (block key counter nonce).length = 64 := by
  rw [block, length_ofWords32LE]
  rfl

@[simp] theorem length_keyStream (key nonce : Bytes) (count counter : Nat) :
    (keyStream key nonce count counter).length = 64 * count := by
  induction count generalizing counter with
  | zero => rfl
  | succ count ih =>
      simp only [keyStream, List.length_append, length_block, ih]
      omega

/-- The cipher text is as long as the data. -/
@[simp] theorem length_crypt (key nonce : Bytes) (counter : Nat) (data : Bytes) :
    (crypt key nonce counter data).length = data.length := by
  simp only [crypt, Bytes.xor, List.length_zipWith, length_keyStream]
  omega

end PeerMail.ChaCha20
