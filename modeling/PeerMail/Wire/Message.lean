import PeerMail.Wire.ThreadBlock

/-!
# Messages

A message is a tag and a payload.  The tag travels as a plain byte, so that
messages of kinds not known here still have a place; whether a tag is known,
and whether it fits the payload, is for the receiver to decide.
-/

namespace PeerMail

/-! ## Kinds of messages -/

/-- The kinds of messages that are known. -/
inductive MessageType where
  /-- Is anybody there? Answered with itself. -/
  | ping
  | threadBlock
  /-- Takes back a pointer to mail at a relay. -/
  | offlineAck
  /-- A sealed envelope that waited at a relay. -/
  | offlineRelay
  /-- A block named by its content. -/
  | block
  /-- Which of these blocks are missing? -/
  | store
  | error
deriving DecidableEq

namespace MessageType

/-- The kinds in the order of their tags. -/
def all : List MessageType := [ping, threadBlock, offlineAck, offlineRelay, block, store, error]

/-- The tag of a kind. -/
def tag : MessageType → UInt8
  | ping => 0
  | threadBlock => 1
  | offlineAck => 2
  | offlineRelay => 3
  | block => 4
  | store => 5
  | error => 6

/-- The kind with a tag. -/
def ofTag? : UInt8 → Option MessageType
  | 0 => some ping
  | 1 => some threadBlock
  | 2 => some offlineAck
  | 3 => some offlineRelay
  | 4 => some block
  | 5 => some store
  | 6 => some error
  | _ => none

/-- The name used in messages to people. -/
def display : MessageType → String
  | ping => "PING"
  | threadBlock => "THREAD_BLOCK"
  | offlineAck => "OFFLINE_ACK"
  | offlineRelay => "OFFLINE_RELAY"
  | block => "BLOCK"
  | store => "STORE"
  | error => "ERROR"

@[simp] theorem ofTag?_tag (kind : MessageType) : ofTag? kind.tag = some kind := by
  cases kind <;> rfl

theorem ofTag?_eq_some_iff {tag : UInt8} {kind : MessageType} :
    ofTag? tag = some kind ↔ tag = kind.tag := by
  constructor
  · intro h
    unfold ofTag? at h
    split at h <;> cases h <;> rfl
  · rintro rfl
    exact ofTag?_tag kind

end MessageType

/-! ## Payloads and messages -/

/-- What a message carries. -/
inductive Payload where
  | ping (nonce : UInt64)
  | threadBlock (signed : SignedBlock)
  /-- The text of a peer's name, as bytes. -/
  | offlineAck (peer : Bytes)
  | offlineRelay (ciphertext : Bytes)
  | block (cid : String) (data : Bytes)
  | cidList (cids : List String)
  | error (code : UInt32) (text : String)
deriving DecidableEq

namespace Payload

/-- The kind of message that a payload belongs to. -/
def kind : Payload → MessageType
  | ping _ => .ping
  | threadBlock _ => .threadBlock
  | offlineAck _ => .offlineAck
  | offlineRelay _ => .offlineRelay
  | block _ _ => .block
  | cidList _ => .store
  | error _ _ => .error

/-- The acknowledgement on behalf of a peer. -/
def ackFor (peer : PeerId) : Payload := offlineAck (Utf8.encode peer.text)

/-- A block together with its name. -/
def blockFor (data : Bytes) : Payload := block (Cid.ofData data).text data

/-- A record of a sealed envelope that shows only its length. -/
def briefRelay (ciphertext : Bytes) : String :=
  "OfflineRelay \x7b ciphertext: \"[" ++ toString ciphertext.length ++ " bytes]\" \x7d"

end Payload

/-- A tag and what the message carries, which need not agree. -/
structure Message where
  tag : UInt8
  payload : Option Payload
deriving DecidableEq

namespace Message

/-- The message whose tag agrees with its payload. -/
def ofPayload (payload : Payload) : Message := ⟨payload.kind.tag, some payload⟩

/-- The notice that something failed. -/
def failure (code : UInt32) (text : String) : Message := ofPayload (.error code text)

/-- The kind that the tag stands for. -/
def kind (message : Message) : Except WireError MessageType :=
  match MessageType.ofTag? message.tag with
  | some kind => .ok kind
  | none => .error (.invalidMessageType message.tag)

end Message

end PeerMail
