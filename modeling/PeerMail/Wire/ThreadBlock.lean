import PeerMail.Keypair
import PeerMail.MessagePack.Record
import PeerMail.Text.Quoted

/-!
# Thread blocks

A thread grows by blocks.  A block says what it is, what it is about and which
blocks it follows; an invitation also carries the thread's secret, sealed to
the invited peer.  A signed block holds the bytes of a block, the signature of
the thread key over them, and where they belong.
-/

namespace PeerMail

/-! ## Kinds of blocks -/

/-- What a block is. -/
inductive BlockType where
  | invite
  | photo
  | comment
  | like
deriving DecidableEq

namespace BlockType

/-- The kinds in the order of their positions. -/
def all : List BlockType := [invite, photo, comment, like]

/-- The name used in written blocks. -/
def name : BlockType → String
  | invite => "Invite"
  | photo => "Photo"
  | comment => "Comment"
  | like => "Like"

/-- The name used in messages to people. -/
def display : BlockType → String
  | invite => "INVITE"
  | photo => "PHOTO"
  | comment => "COMMENT"
  | like => "LIKE"

end BlockType

/-! ## Blocks -/

/-- A block of a thread. -/
structure ThreadBlock where
  kind : BlockType
  /-- What it is about; of an invitation, the text of the invited peer's name. -/
  target : String
  /-- Of an invitation, the box with the thread secret. -/
  targetKey : Bytes
  parents : List Cid
deriving DecidableEq

namespace ThreadBlock

open MessagePack (Value)

/-- A block without a key. -/
def content (kind : BlockType) (target : String) (parents : List Cid) : ThreadBlock :=
  ⟨kind, target, [], parents⟩

/-- The invitation of a peer to the thread with the given key. -/
def invite (invitee : PeerId) (inviteeKey : Bytes) (thread : Keypair) (parents : List Cid)
    (entropy : SealedBox.Entropy) : Except WireError ThreadBlock := do
  let box ← SealedBox.sealTo inviteeKey thread.secret.val entropy
  return ⟨.invite, invitee.text, box, parents⟩

/-- A record of the block without its key. -/
def brief (block : ThreadBlock) : String :=
  "ThreadBlock \x7b block_type: " ++ block.kind.name ++ ", target: " ++ Text.quote block.target ++
    ", target_key: \"[REDACTED]\", parents: [" ++
    ", ".intercalate (block.parents.map Cid.brief) ++ "] \x7d"

/-- The names of the members. -/
def memberNames : List String := ["block_type", "target", "target_key", "parents"]

/-- The block as a value. -/
def toValue (block : ThreadBlock) : Value :=
  .array [.ofString block.kind.name, .ofString block.target, .ofBytes block.targetKey,
    .array (block.parents.map fun cid => .ofBytes cid.bytes)]

/-- A kind of block, by name or position, alone or with nothing as its content. -/
def kindOfValue? (value : Value) : Option BlockType := do
  let (position, content) ← value.choice? (BlockType.all.map BlockType.name)
  match content with
  | none | some .nil => BlockType.all[position]?
  | some _ => none

/-- The name of a block. -/
def cidOfValue? (value : Value) : Option Cid := do
  (Bytes.exactly? 32 (← value.exactBytes? 32)).map Cid.mk

/-- The block that a value stands for. -/
def ofValue? (room : Nat) (value : Value) : Option ThreadBlock := do
  match ← value.record? memberNames room with
  | [some kind, some target, some targetKey, some parents] =>
      let kind ← kindOfValue? kind
      let target ← target.string?
      let targetKey ← targetKey.bytes?
      let parents ← (← parents.list?).mapM cidOfValue?
      return ⟨kind, target, targetKey, parents⟩
  | _ => none

/-- The bytes of a block. -/
def toBytes (block : ThreadBlock) : Bytes := block.toValue.write

/-- The block at the front of a byte string. -/
def ofBytes (bytes : Bytes) : Except WireError ThreadBlock :=
  match Value.read? bytes >>= ofValue? (Value.maxLevels - 2) with
  | some block => .ok block
  | none => .error (.deserialization "not a thread block")

end ThreadBlock

/-! ## Signed blocks -/

/-- A block with its signature and the thread it belongs to. -/
structure SignedBlock where
  id : Cid
  thread : ThreadId
  threadName : String
  /-- The public key of the peer who made the block. -/
  issuerKey : Bytes
  data : Bytes
  /-- The signature of the thread key over `data`. -/
  signature : Bytes
deriving DecidableEq

namespace SignedBlock

/-- The block signed with the key of its thread. -/
def sign (thread issuer : Keypair) (threadName : String) (block : ThreadBlock) : SignedBlock :=
  let data := block.toBytes
  { id := .ofData data
    thread := .ofKey thread.publicKey
    threadName
    issuerKey := issuer.publicKey
    data
    signature := thread.sign data }

/-- The block inside. -/
def block (signed : SignedBlock) : Except WireError ThreadBlock := ThreadBlock.ofBytes signed.data

end SignedBlock

end PeerMail
