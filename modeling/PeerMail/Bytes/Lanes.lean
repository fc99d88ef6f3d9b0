import PeerMail.Bytes

/-!
# Four words side by side

The ChaCha permutation and its relatives keep their state as a square of four
rows of four 32-bit words and treat the four words of a row alike.  A row is
`Lanes`, a square is `Square`; rotating the rows by their index turns diagonals
into columns and back.
-/

namespace PeerMail

/-- Four 32-bit words that are worked on alike. -/
structure Lanes where
  w0 : UInt32
  w1 : UInt32
  w2 : UInt32
  w3 : UInt32
deriving DecidableEq

namespace Lanes

/-- The same operation in each lane. -/
@[inline] def map₂ (op : UInt32 → UInt32 → UInt32) (a b : Lanes) : Lanes :=
  ⟨op a.w0 b.w0, op a.w1 b.w1, op a.w2 b.w2, op a.w3 b.w3⟩

/-- Sums modulo 2^32. -/
def add (a b : Lanes) : Lanes := map₂ (· + ·) a b

/-- Exclusive or. -/
def xor (a b : Lanes) : Lanes := map₂ (· ^^^ ·) a b

/-- A word turned left by `count` bits, `0 < count < 32`. -/
@[inline] def turnWord (count word : UInt32) : UInt32 :=
  (word <<< count) ||| (word >>> (32 - count))

/-- Every word turned left by `count` bits. -/
def turn (count : UInt32) (a : Lanes) : Lanes :=
  ⟨turnWord count a.w0, turnWord count a.w1, turnWord count a.w2, turnWord count a.w3⟩

/-- The lanes moved to the left by one, the first becoming the last. -/
def rotate1 (a : Lanes) : Lanes := ⟨a.w1, a.w2, a.w3, a.w0⟩

/-- The lanes moved to the left by two. -/
def rotate2 (a : Lanes) : Lanes := ⟨a.w2, a.w3, a.w0, a.w1⟩

/-- The lanes moved to the left by three. -/
def rotate3 (a : Lanes) : Lanes := ⟨a.w3, a.w0, a.w1, a.w2⟩

/-- The words, first lane first. -/
def toList (a : Lanes) : List UInt32 := [a.w0, a.w1, a.w2, a.w3]

/-- The lanes with the words of a list; missing words are zero. -/
def ofList : List UInt32 → Lanes
  | [a, b, c, d] => ⟨a, b, c, d⟩
  | words => ⟨words.getD 0 0, words.getD 1 0, words.getD 2 0, words.getD 3 0⟩

end Lanes

/-- Sixteen 32-bit words as four rows. -/
structure Square where
  a : Lanes
  b : Lanes
  c : Lanes
  d : Lanes
deriving DecidableEq

namespace Square

/-- Each row rotated by its index, so that diagonals stand in columns. -/
def diagonals (s : Square) : Square := ⟨s.a, s.b.rotate1, s.c.rotate2, s.d.rotate3⟩

/-- Each row rotated back. -/
def columns (s : Square) : Square := ⟨s.a, s.b.rotate3, s.c.rotate2, s.d.rotate1⟩

/-- Sums modulo 2^32, word by word. -/
def add (s t : Square) : Square :=
  ⟨s.a.add t.a, s.b.add t.b, s.c.add t.c, s.d.add t.d⟩

/-- The sixteen words, row by row. -/
def toList (s : Square) : List UInt32 :=
  s.a.toList ++ s.b.toList ++ s.c.toList ++ s.d.toList

/-- The square with the given words, row by row; missing words are zero. -/
def ofList (words : List UInt32) : Square :=
  ⟨.ofList (words.take 4), .ofList ((words.drop 4).take 4),
    .ofList ((words.drop 8).take 4), .ofList ((words.drop 12).take 4)⟩

end Square

end PeerMail
