import PeerMail.Bytes

/-!
# SHA-256 and SHA-512

The two hash functions share one construction and differ in the
word: its width, its rotation counts, the number of rounds and the constants.
`Variant` collects those decisions, the rest is written once over them.  The
message schedule is a window of sixteen words that moves along by one in each
round.
-/

namespace PeerMail

namespace Sha2

/-- What the construction needs of a machine word. -/
class Word (W : Type) extends Add W, XorOp W, AndOp W, Complement W where
  size : Nat
  ofNat : Nat → W
  toNat : W → Nat
  /-- The word turned right by a number of bits. -/
  turn : Nat → W → W
  /-- The word shifted right by a number of bits. -/
  shift : Nat → W → W

instance : Word UInt32 where
  size := 4
  ofNat := UInt32.ofNat
  toNat := UInt32.toNat
  turn count word := (word >>> UInt32.ofNat count) ||| (word <<< UInt32.ofNat (32 - count))
  shift count word := word >>> UInt32.ofNat count

instance : Word UInt64 where
  size := 8
  ofNat := UInt64.ofNat
  toNat := UInt64.toNat
  turn count word := (word >>> UInt64.ofNat count) ||| (word <<< UInt64.ofNat (64 - count))
  shift count word := word >>> UInt64.ofNat count

/-- The eight working words. -/
structure State (W : Type) where
  a : W
  b : W
  c : W
  d : W
  e : W
  f : W
  g : W
  h : W

/-- The decisions in which the members of the family differ. -/
structure Variant (W : Type) where
  /-- Turns of the word `a` in a round. -/
  upper : Nat × Nat × Nat
  /-- Turns of the word `e` in a round. -/
  lower : Nat × Nat × Nat
  /-- Two turns and a shift of the second oldest word of the schedule. -/
  early : Nat × Nat × Nat
  /-- Two turns and a shift of the second newest word of the schedule. -/
  late : Nat × Nat × Nat
  constants : List W
  initial : State W

variable {W : Type} [Word W]

/-! ## Rounds -/

/-- Exclusive or of three turns of a word. -/
def turns (counts : Nat × Nat × Nat) (word : W) : W :=
  Word.turn counts.1 word ^^^ Word.turn counts.2.1 word ^^^ Word.turn counts.2.2 word

/-- Exclusive or of two turns and a shift of a word. -/
def turnsShift (counts : Nat × Nat × Nat) (word : W) : W :=
  Word.turn counts.1 word ^^^ Word.turn counts.2.1 word ^^^ Word.shift counts.2.2 word

/-- One round with its constant and its word of the schedule. -/
def round (variant : Variant W) (s : State W) (constant word : W) : State W :=
  let choice := (s.e &&& s.f) ^^^ (~~~ s.e &&& s.g)
  let majority := (s.a &&& s.b) ^^^ (s.a &&& s.c) ^^^ (s.b &&& s.c)
  let first := s.h + turns variant.lower s.e + choice + constant + word
  let second := turns variant.upper s.a + majority
  ⟨first + second, s.a, s.b, s.c, s.d + first, s.e, s.f, s.g⟩

/-- The word that follows a window of sixteen words of the schedule. -/
def nextWord (variant : Variant W) (window : List W) : W :=
  let word (index : Nat) := window.getD index (Word.ofNat 0)
  turnsShift variant.late (word 14) + word 9 + turnsShift variant.early (word 1) + word 0

/-- One round for each constant, the window moving along. -/
def rounds (variant : Variant W) : (constants window : List W) → State W → State W
  | constant :: constants, word :: window, s =>
      rounds variant constants (window ++ [nextWord variant (word :: window)])
        (round variant s constant word)
  | _, _, s => s

/-- Sums word by word. -/
def State.add (s t : State W) : State W :=
  ⟨s.a + t.a, s.b + t.b, s.c + t.c, s.d + t.d, s.e + t.e, s.f + t.f, s.g + t.g, s.h + t.h⟩

/-! ## Messages -/

/-- The state after one more block of sixteen words. -/
def compress (variant : Variant W) (s : State W) (block : Bytes) : State W :=
  let words := (Bytes.split (Word.size W) block).map fun bytes =>
    (Word.ofNat (Bytes.toNatBE bytes) : W)
  s.add (rounds variant variant.constants words s)

/-- The message with a one bit, zeros and its length in bits behind it: whole blocks. -/
def pad (size : Nat) (message : Bytes) : Bytes :=
  let block := 16 * size
  let used := message.length + 1 + 2 * size
  message ++ [0x80] ++ List.replicate ((block - used % block) % block) 0 ++
    Bytes.ofNatBE (2 * size) (8 * message.length)

/-- The words of a state, in order. -/
def State.toList (s : State W) : List W := [s.a, s.b, s.c, s.d, s.e, s.f, s.g, s.h]

/-- The bytes of a state, most significant byte of each word first. -/
def State.toBytes (s : State W) : Bytes :=
  s.toList.flatMap fun word => Bytes.ofNatBE (Word.size W) (Word.toNat word)

/-- The hash of a message. -/
def hash (variant : Variant W) (message : Bytes) : Bytes :=
  let blocks := Bytes.split (16 * Word.size W) (pad (Word.size W) message)
  (blocks.foldl (compress variant) variant.initial).toBytes

@[simp] theorem State.length_toBytes (s : State W) : s.toBytes.length = 8 * Word.size W := by
  simp only [State.toBytes, State.toList, List.flatMap_cons, List.flatMap_nil,
    List.length_append, Bytes.length_ofNatBE, List.length_nil]
  omega

end Sha2

/-! ## The two members in use -/

/-- The decisions of SHA-256. -/
def Sha2.sha256 : Sha2.Variant UInt32 where
  upper := (2, 13, 22)
  lower := (6, 11, 25)
  early := (7, 18, 3)
  late := (17, 19, 10)
  constants := [
    0x428a2f98, 0x71374491, 0xb5c0fbcf, 0xe9b5dba5, 0x3956c25b, 0x59f111f1,
    0x923f82a4, 0xab1c5ed5, 0xd807aa98, 0x12835b01, 0x243185be, 0x550c7dc3,
    0x72be5d74, 0x80deb1fe, 0x9bdc06a7, 0xc19bf174, 0xe49b69c1, 0xefbe4786,
    0x0fc19dc6, 0x240ca1cc, 0x2de92c6f, 0x4a7484aa, 0x5cb0a9dc, 0x76f988da,
    0x983e5152, 0xa831c66d, 0xb00327c8, 0xbf597fc7, 0xc6e00bf3, 0xd5a79147,
    0x06ca6351, 0x14292967, 0x27b70a85, 0x2e1b2138, 0x4d2c6dfc, 0x53380d13,
    0x650a7354, 0x766a0abb, 0x81c2c92e, 0x92722c85, 0xa2bfe8a1, 0xa81a664b,
    0xc24b8b70, 0xc76c51a3, 0xd192e819, 0xd6990624, 0xf40e3585, 0x106aa070,
    0x19a4c116, 0x1e376c08, 0x2748774c, 0x34b0bcb5, 0x391c0cb3, 0x4ed8aa4a,
    0x5b9cca4f, 0x682e6ff3, 0x748f82ee, 0x78a5636f, 0x84c87814, 0x8cc70208,
    0x90befffa, 0xa4506ceb, 0xbef9a3f7, 0xc67178f2]
  initial := ⟨
    0x6a09e667, 0xbb67ae85, 0x3c6ef372, 0xa54ff53a,
    0x510e527f, 0x9b05688c, 0x1f83d9ab, 0x5be0cd19⟩

/-- The decisions of SHA-512. -/
def Sha2.sha512 : Sha2.Variant UInt64 where
  upper := (28, 34, 39)
  lower := (14, 18, 41)
  early := (1, 8, 7)
  late := (19, 61, 6)
  constants := [
    0x428a2f98d728ae22, 0x7137449123ef65cd, 0xb5c0fbcfec4d3b2f, 0xe9b5dba58189dbbc,
    0x3956c25bf348b538, 0x59f111f1b605d019, 0x923f82a4af194f9b, 0xab1c5ed5da6d8118,
    0xd807aa98a3030242, 0x12835b0145706fbe, 0x243185be4ee4b28c, 0x550c7dc3d5ffb4e2,
    0x72be5d74f27b896f, 0x80deb1fe3b1696b1, 0x9bdc06a725c71235, 0xc19bf174cf692694,
    0xe49b69c19ef14ad2, 0xefbe4786384f25e3, 0x0fc19dc68b8cd5b5, 0x240ca1cc77ac9c65,
    0x2de92c6f592b0275, 0x4a7484aa6ea6e483, 0x5cb0a9dcbd41fbd4, 0x76f988da831153b5,
    0x983e5152ee66dfab, 0xa831c66d2db43210, 0xb00327c898fb213f, 0xbf597fc7beef0ee4,
    0xc6e00bf33da88fc2, 0xd5a79147930aa725, 0x06ca6351e003826f, 0x142929670a0e6e70,
    0x27b70a8546d22ffc, 0x2e1b21385c26c926, 0x4d2c6dfc5ac42aed, 0x53380d139d95b3df,
    0x650a73548baf63de, 0x766a0abb3c77b2a8, 0x81c2c92e47edaee6, 0x92722c851482353b,
    0xa2bfe8a14cf10364, 0xa81a664bbc423001, 0xc24b8b70d0f89791, 0xc76c51a30654be30,
    0xd192e819d6ef5218, 0xd69906245565a910, 0xf40e35855771202a, 0x106aa07032bbd1b8,
    0x19a4c116b8d2d0c8, 0x1e376c085141ab53, 0x2748774cdf8eeb99, 0x34b0bcb5e19b48a8,
    0x391c0cb3c5c95a63, 0x4ed8aa4ae3418acb, 0x5b9cca4f7763e373, 0x682e6ff3d6b2b8a3,
    0x748f82ee5defb2fc, 0x78a5636f43172f60, 0x84c87814a1f0ab72, 0x8cc702081a6439ec,
    0x90befffa23631e28, 0xa4506cebde82bde9, 0xbef9a3f7b2c67915, 0xc67178f2e372532b,
    0xca273eceea26619c, 0xd186b8c721c0c207, 0xeada7dd6cde0eb1e, 0xf57d4f7fee6ed178,
    0x06f067aa72176fba, 0x0a637dc5a2c898a6, 0x113f9804bef90dae, 0x1b710b35131c471b,
    0x28db77f523047d84, 0x32caab7b40c72493, 0x3c9ebe0a15c9bebc, 0x431d67c49c100d4c,
    0x4cc5d4becb3e42b6, 0x597f299cfc657e2a, 0x5fcb6fab3ad6faec, 0x6c44198c4a475817]
  initial := ⟨
    0x6a09e667f3bcc908, 0xbb67ae8584caa73b, 0x3c6ef372fe94f82b, 0xa54ff53a5f1d36f1,
    0x510e527fade682d1, 0x9b05688c2b3e6c1f, 0x1f83d9abfb41bd6b, 0x5be0cd19137e2179⟩

/-- The 32-byte SHA-256 hash of a message. -/
def sha256 (message : Bytes) : Bytes := Sha2.hash Sha2.sha256 message

/-- The 64-byte SHA-512 hash of a message. -/
def sha512 (message : Bytes) : Bytes := Sha2.hash Sha2.sha512 message

@[simp] theorem length_sha256 (message : Bytes) : (sha256 message).length = 32 :=
  Sha2.State.length_toBytes _

end PeerMail
