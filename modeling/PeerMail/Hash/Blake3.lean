import PeerMail.Bytes.Lanes

/-!
# BLAKE3

The content hash.  A message is cut into chunks of 1024 bytes, each chunk is
hashed block by block, and the chunk results are joined pairwise, level by
level, until one node is left; an odd node at the end of a level moves up
unchanged, so every left subtree is full.  A node is kept as the input of its
last compression (`Node`), because only the root is compressed with the root
mark.
-/

namespace PeerMail

namespace Blake3

/-! ## Compression -/

/-- The starting words, those of SHA-256. -/
def startWords : List UInt32 := [
    0x6a09e667, 0xbb67ae85, 0x3c6ef372, 0xa54ff53a,
    0x510e527f, 0x9b05688c, 0x1f83d9ab, 0x5be0cd19]

/-- Marks the first block of a chunk. -/
def chunkStart : Nat := 1

/-- Marks the last block of a chunk. -/
def chunkEnd : Nat := 2

/-- Marks a node that joins two others. -/
def parent : Nat := 4

/-- Marks the root. -/
def root : Nat := 8

/-- The mixing step on all four columns, with two message words for each. -/
def mix (s : Square) (x y : Lanes) : Square :=
  let a := (s.a.add s.b).add x
  let d := (s.d.xor a).turn 16
  let c := s.c.add d
  let b := (s.b.xor c).turn 20
  let a := (a.add b).add y
  let d := (d.xor a).turn 24
  let c := c.add d
  let b := (b.xor c).turn 25
  ⟨a, b, c, d⟩

/-- Mixes columns with the first half of the message and diagonals with the second. -/
def round (s : Square) (message : List UInt32) : Square :=
  let word (index : Nat) : UInt32 := message.getD index 0
  let s := mix s ⟨word 0, word 2, word 4, word 6⟩ ⟨word 1, word 3, word 5, word 7⟩
  let s := mix s.diagonals ⟨word 8, word 10, word 12, word 14⟩ ⟨word 9, word 11, word 13, word 15⟩
  s.columns

/-- Where each word of the next round's message is taken from. -/
def order : List Nat := [2, 6, 3, 10, 7, 0, 4, 13, 1, 11, 12, 5, 9, 14, 15, 8]

/-- The given number of rounds, the message reordered between them. -/
def rounds : (count : Nat) → Square → List UInt32 → Square
  | 0, s, _ => s
  | count + 1, s, message =>
      rounds count (round s message) (order.map fun index => message.getD index 0)

/-- A compression about to be made. -/
structure Node where
  chaining : List UInt32
  block : Bytes
  /-- The number of the chunk; zero for joining nodes. -/
  counter : Nat
  /-- The sum of the marks. -/
  marks : Nat

/-- The first eight words that come out, with further marks. -/
def Node.compress (node : Node) (marks : Nat) : List UInt32 :=
  let message := Bytes.words32LE (Bytes.padRight 64 node.block)
  let start : Square := {
    a := .ofList (node.chaining.take 4)
    b := .ofList (node.chaining.drop 4)
    c := .ofList (startWords.take 4)
    d := ⟨UInt32.ofNat node.counter, UInt32.ofNat (node.counter / Nat.pow 2 32),
      UInt32.ofNat node.block.length, UInt32.ofNat (node.marks + marks)⟩ }
  let s := rounds 7 start message
  (s.a.xor s.c).toList ++ (s.b.xor s.d).toList

/-- The words that a node hands to its parent. -/
def Node.chainingValue (node : Node) : List UInt32 := node.compress 0

/-! ## Chunks and the tree -/

/-- The node of the last block of a chunk, with all earlier blocks compressed. -/
def chunkNode (counter : Nat) : (chaining : List UInt32) → (marks : Nat) → List Bytes → Node
  | chaining, marks, [] => ⟨chaining, [], counter, marks + chunkEnd⟩
  | chaining, marks, [block] => ⟨chaining, block, counter, marks + chunkEnd⟩
  | chaining, marks, block :: rest =>
      chunkNode counter (Node.chainingValue ⟨chaining, block, counter, marks⟩) 0 rest

/-- The nodes of the chunks, numbered from `counter`. -/
def chunkNodes : (counter : Nat) → List Bytes → List Node
  | _, [] => []
  | counter, chunk :: rest =>
      chunkNode counter startWords chunkStart (Bytes.split 64 chunk) ::
        chunkNodes (counter + 1) rest

/-- The node that joins two nodes. -/
def join (left right : Node) : Node :=
  ⟨startWords, Bytes.ofWords32LE (left.chainingValue ++ right.chainingValue), 0, parent⟩

/-- One level up: neighbours joined, an odd last node kept. -/
def level : List Node → List Node
  | left :: right :: rest => join left right :: level rest
  | nodes => nodes

/-- The node left after enough levels. -/
def top : (levels : Nat) → List Node → Node
  | levels + 1, left :: right :: rest => top levels (level (left :: right :: rest))
  | _, node :: _ => node
  | _, [] => chunkNode 0 startWords chunkStart []

end Blake3

/-- The 32-byte BLAKE3 hash of a message. -/
def blake3 (message : Bytes) : Bytes :=
  let nodes := Blake3.chunkNodes 0 (Bytes.split 1024 message)
  Bytes.ofWords32LE ((Blake3.top nodes.length nodes).compress Blake3.root)

@[simp] theorem length_blake3 (message : Bytes) : (blake3 message).length = 32 := by
  simp [blake3, Blake3.Node.compress, Lanes.toList, Bytes.ofWords32LE]

end PeerMail
