import PeerMail.Bytes.Base64
import PeerMail.Bytes.Hex
import PeerMail.Hash.Blake3
import PeerMail.Hash.Sha2

/-!
# Names

Peers and threads are named by the hash of a public key, each kind under a
domain of its own, and written in base64.  A block is named by the hash of its
content, written in hexadecimal.  A queued message has a name that grows with
time and is written as a UUID.
-/

namespace PeerMail

/-- Byte strings of one length. -/
abbrev Bytes.Exactly (size : Nat) := { bytes : Bytes // bytes.length = size }

/-- The byte string, if it has the length. -/
def Bytes.exactly? (size : Nat) (bytes : Bytes) : Option (Bytes.Exactly size) :=
  if h : bytes.length = size then some ⟨bytes, h⟩ else none

theorem Bytes.exactly?_eq_some_iff {size : Nat} {bytes : Bytes} {found : Bytes.Exactly size} :
    Bytes.exactly? size bytes = some found ↔ found.val = bytes := by
  unfold Bytes.exactly?
  constructor
  · intro h
    split at h
    · cases h
      rfl
    · cases h
  · rintro rfl
    rw [dif_pos found.property]

/-- A hash of 32 bytes. -/
abbrev Digest := Bytes.Exactly 32

/-- The hash of a public key under a domain. -/
def Digest.ofKey (domain : String) (key : Bytes) : Digest :=
  ⟨sha256 (Bytes.ofAscii domain ++ key), length_sha256 _⟩

/-- The digest with a base64 text. -/
def Digest.parse? (text : String) : Option Digest := do
  Bytes.exactly? 32 (← Base64.decode? text.toList)

/-! ## Peers -/

/-- The name of a peer, derived from the peer's public key. -/
structure PeerId where
  digest : Digest
deriving DecidableEq

namespace PeerId

/-- The name that belongs to a public key. -/
def ofKey (key : Bytes) : PeerId := ⟨.ofKey "threadpost-peer-id-v1" key⟩

/-- The name with the given 32 bytes. -/
def ofBytes? (bytes : Bytes) : Option PeerId := (Bytes.exactly? 32 bytes).map PeerId.mk

/-- The 32 bytes of a name. -/
def bytes (peer : PeerId) : Bytes := peer.digest.val

/-- The base64 text of a name. -/
def text (peer : PeerId) : String := Base64.text peer.bytes

/-- The name with a base64 text. -/
def parse? (text : String) : Option PeerId := (Digest.parse? text).map PeerId.mk

/-- A short form that tells names apart in records. -/
def brief (peer : PeerId) : String :=
  "PeerId(" ++ String.ofList (peer.text.toList.take 8) ++ ")"

end PeerId

/-! ## Threads -/

/-- The name of a thread, derived from the key that verifies its blocks. -/
structure ThreadId where
  digest : Digest
deriving DecidableEq

namespace ThreadId

/-- The name that belongs to a verification key. -/
def ofKey (key : Bytes) : ThreadId := ⟨.ofKey "threadpost-thread-id-v1" key⟩

/-- The name with the given 32 bytes. -/
def ofBytes? (bytes : Bytes) : Option ThreadId := (Bytes.exactly? 32 bytes).map ThreadId.mk

/-- The 32 bytes of a name. -/
def bytes (thread : ThreadId) : Bytes := thread.digest.val

/-- The base64 text of a name. -/
def text (thread : ThreadId) : String := Base64.text thread.bytes

/-- A short form that tells names apart in records. -/
def brief (thread : ThreadId) : String :=
  "ThreadId(" ++ String.ofList (thread.text.toList.take 8) ++ ")"

end ThreadId

/-! ## Blocks -/

/-- The name of a block: the hash of its content. -/
structure Cid where
  digest : Digest
deriving DecidableEq

namespace Cid

/-- The name of content. -/
def ofData (data : Bytes) : Cid := ⟨blake3 data, length_blake3 data⟩

/-- Whether the content is the one that the name stands for. -/
def Names (cid : Cid) (data : Bytes) : Prop := ofData data = cid

instance (cid : Cid) (data : Bytes) : Decidable (cid.Names data) :=
  inferInstanceAs (Decidable (ofData data = cid))

/-- The 32 bytes of a name. -/
def bytes (cid : Cid) : Bytes := cid.digest.val

/-- The lowercase hexadecimal text of a name. -/
def text (cid : Cid) : String := Hex.text cid.bytes

/-- The name with a hexadecimal text, in digits of either case. -/
def parse? (text : String) : Option Cid := do
  let bytes ← Hex.decode? text.toList
  (Bytes.exactly? 32 bytes).map Cid.mk

/-- A short form that tells names apart in records. -/
def brief (cid : Cid) : String :=
  "Cid(" ++ String.ofList (cid.text.toList.take 12) ++ ")"

end Cid

/-! ## Queued messages -/

/-- The name of a queued message; names compare as byte strings. -/
structure MessageId where
  value : Bytes.Exactly 16
deriving DecidableEq

namespace MessageId

/-- The name with the given 16 bytes. -/
def ofBytes? (bytes : Bytes) : Option MessageId := (Bytes.exactly? 16 bytes).map MessageId.mk

/-- The 16 bytes of a name. -/
def bytes (id : MessageId) : Bytes := id.value.val

/-- The name of a moment: 48 bits of milliseconds and 74 bits that tell the names of one
millisecond apart, around the version 7 and variant 2 marks of a UUID. -/
def ofTime (milliseconds counter : Nat) : MessageId :=
  let high := milliseconds % Nat.pow 2 48 * Nat.pow 2 16 + 7 * Nat.pow 2 12 +
    counter / Nat.pow 2 62 % Nat.pow 2 12
  let low := 2 * Nat.pow 2 62 + counter % Nat.pow 2 62
  ⟨Bytes.ofNatBE 8 high ++ Bytes.ofNatBE 8 low, by simp⟩

/-- The UUID text of sixteen bytes. -/
def uuidText (bytes : Bytes) : String :=
  let digits := Hex.encode bytes
  let part (start count : Nat) := (digits.drop start).take count
  String.ofList (part 0 8 ++ '-' :: part 8 4 ++ '-' :: part 12 4 ++ '-' :: part 16 4 ++
    '-' :: part 20 12)

/-- The UUID text of a name. -/
def text (id : MessageId) : String := uuidText id.bytes

/-- The text under the name of the type. -/
def brief (id : MessageId) : String := "MessageId(" ++ id.text ++ ")"

/-- The version mark of a UUID. -/
def version (id : MessageId) : Nat := (id.bytes.getD 6 0).toNat / 16

/-- The variant mark of a UUID. -/
def variant (id : MessageId) : Nat := (id.bytes.getD 8 0).toNat / 64

end MessageId

end PeerMail
