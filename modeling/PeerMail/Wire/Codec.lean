import PeerMail.Wire.Message

/-!
# Messages as bytes

A message is the record of its tag and its payload, a payload the choice among
seven records.  The written form is the one that signatures cover; reading
takes every form that records and choices have, and ignores what comes after.
-/

namespace PeerMail

open MessagePack (Value)

/-! ## Signed blocks -/

namespace SignedBlock

/-- The names of the members. -/
def memberNames : List String :=
  ["id", "thread_id", "thread_name", "issuer_public_key", "data", "signature"]

/-- The signed block as a value. -/
def toValue (signed : SignedBlock) : Value :=
  .array [.ofBytes signed.id.bytes, .ofBytes signed.thread.bytes, .ofString signed.threadName,
    .ofBytes signed.issuerKey, .ofBytes signed.data, .ofBytes signed.signature]

/-- The signed block that a value stands for. -/
def ofValue? (room : Nat) (value : Value) : Option SignedBlock := do
  match ← value.record? memberNames room with
  | [some id, some thread, some threadName, some issuerKey, some data, some signature] =>
      let id ← ThreadBlock.cidOfValue? id
      let thread ← ThreadId.ofBytes? (← thread.exactBytes? 32)
      let threadName ← threadName.string?
      let issuerKey ← issuerKey.bytes?
      let data ← data.bytes?
      let signature ← signature.bytes?
      return ⟨id, thread, threadName, issuerKey, data, signature⟩
  | _ => none

end SignedBlock

/-! ## Payloads -/

namespace Payload

/-- The names of the alternatives, by position. -/
def names : List String :=
  ["Ping", "ThreadBlock", "OfflineAck", "OfflineRelay", "Block", "CidList", "Error"]

/-- The name of an alternative. -/
def name : Payload → String
  | ping _ => "Ping"
  | threadBlock _ => "ThreadBlock"
  | offlineAck _ => "OfflineAck"
  | offlineRelay _ => "OfflineRelay"
  | block _ _ => "Block"
  | cidList _ => "CidList"
  | error _ _ => "Error"

/-- The record inside an alternative, as a value. -/
def content : Payload → Value
  | ping nonce => .array [.unsigned nonce.toNat]
  | threadBlock signed => signed.toValue
  | offlineAck peer => .array [.ofBytes peer]
  | offlineRelay ciphertext => .array [.ofBytes ciphertext]
  | block cid data => .array [.ofString cid, .ofBytes data]
  | cidList cids => .array [.array (cids.map .ofString)]
  | error code text => .array [.unsigned code.toNat, .ofString text]

/-- The payload as a value. -/
def toValue (payload : Payload) : Value := .ofChoice payload.name payload.content

/-- The record of one member. -/
def single? (name : String) (room : Nat) (value : Value) : Option Value := do
  match ← value.record? [name] room with
  | [some member] => some member
  | _ => none

/-- The record of two members. -/
def pair? (first second : String) (room : Nat) (value : Value) : Option (Value × Value) := do
  match ← value.record? [first, second] room with
  | [some a, some b] => some (a, b)
  | _ => none

/-- The payload with the alternative at a position and the record inside it. -/
def ofContent? (room position : Nat) (content : Value) : Option Payload :=
  match position with
  | 0 => do
      let nonce ← single? "nonce" room content
      return ping (UInt64.ofNat (← nonce.nat? (Nat.pow 2 64)))
  | 1 => (SignedBlock.ofValue? room content).map threadBlock
  | 2 => do
      let peer ← single? "peer_id" room content
      return offlineAck (← peer.bytes?)
  | 3 => do
      let ciphertext ← single? "ciphertext" room content
      return offlineRelay (← ciphertext.bytes?)
  | 4 => do
      let (cid, data) ← pair? "cid" "raw_data" room content
      return block (← cid.string?) (← data.bytes?)
  | 5 => do
      let cids ← single? "cids" room content
      return cidList (← (← cids.list?).mapM Value.string?)
  | 6 => do
      let (code, text) ← pair? "code" "message" room content
      return error (UInt32.ofNat (← code.nat? (Nat.pow 2 32))) (← text.string?)
  | _ => none

/-- The payload that a value stands for. -/
def ofValue? (room : Nat) (value : Value) : Option Payload := do
  match ← value.choice? names with
  | (position, some content) => ofContent? room position content
  | (_, none) => none

end Payload

/-! ## Messages -/

namespace Message

/-- The names of the members. -/
def memberNames : List String := ["msg_type", "payload"]

/-- The message as a value. -/
def toValue (message : Message) : Value :=
  .array [.unsigned message.tag.toNat,
    match message.payload with
    | none => .nil
    | some payload => payload.toValue]

/-- The message that a value stands for.  A map may leave out the payload. -/
def ofValue? (room : Nat) (value : Value) : Option Message := do
  match ← value.record? memberNames room with
  | [some tag, payload] =>
      let tag ← tag.byte?
      match payload with
      | none | some .nil => return ⟨tag, none⟩
      | some payload => return ⟨tag, some (← Payload.ofValue? (room - 1) payload)⟩
  | _ => none

/-- The bytes of a message, which signatures cover. -/
def toBytes (message : Message) : Bytes := message.toValue.write

/-- The message at the front of a byte string. -/
def ofBytes (bytes : Bytes) : Except WireError Message :=
  match Value.read? bytes >>= ofValue? (Value.maxLevels - 2) with
  | some message => .ok message
  | none => .error (.deserialization "not a message")

end Message

end PeerMail
