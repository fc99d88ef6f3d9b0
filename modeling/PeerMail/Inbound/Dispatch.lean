import PeerMail.Thread.Apply

/-!
# Handling inbound messages

Every known kind of message has a handler; a message of another kind is
accepted and does nothing.

| kind          | effect                                            | reply        |
|---------------|---------------------------------------------------|--------------|
| PING          | none                                              | the message  |
| THREAD_BLOCK  | the block is applied to its thread                | none         |
| OFFLINE_ACK   | the sender's pointer is taken back                | none         |
| OFFLINE_RELAY | the envelope inside is opened and handled         | none         |
| BLOCK         | the block is stored                               | none         |
| STORE         | none                                              | what is missing |
| ERROR         | none                                              | none         |

A message that came out of a relay envelope may not be another one, so the
handling of the inner message needs no further recursion.
-/

namespace PeerMail

/-- Who sent a message, and how it came. -/
structure Inbound where
  sender : PeerId
  /-- Whether the message came out of a relay envelope. -/
  relayed : Bool
deriving DecidableEq

/-- What a message comes to: perhaps a reply, or a reason why it failed. -/
abbrev Reply := Except ProtocolError (Option Message)

namespace LocalState

/-! ## Handlers -/

/-- The text of a peer's name in an acknowledgement. -/
def parseAck (bytes : Bytes) : Except ProtocolError PeerId :=
  match Utf8.decode bytes with
  | .error fault => .error (.wire (.invalidPeerId ("not utf-8: " ++ fault.message)))
  | .ok text =>
      match PeerId.parse? text with
      | some peer => .ok peer
      | none => .error (.wire (.invalidPeerId text))

/-- Refuses a sender who may not take back the pointer kept for it. -/
def authorizeAck (db : Database) (sender : PeerId) : Except ProtocolError Unit := do
  match ← (db.pointer? sender).mapError .storage with
  | none => throw .pointerNotFound
  | some pointer => if pointer.cancel = some sender then return () else throw .unauthorized

/-- Takes back the pointer kept for the sender.  The name in the acknowledgement has to be one,
and is not used. -/
def handleAck (state : LocalState) (sender : PeerId) (bytes : Bytes) :
    Except ProtocolError LocalState := do
  let _ ← parseAck bytes
  authorizeAck state.db sender
  let (_, db) ← (state.db.deletePointer sender).mapError .storage
  return { state with db }

/-- Stores a block under its name. -/
def handleBlock (state : LocalState) (text : String) (data : Bytes) :
    Except ProtocolError LocalState := do
  match Cid.parse? text with
  | none => throw (.wire (.invalidCid text))
  | some cid =>
      if cid.Names data then
        let blocks ← (state.blocks.put cid data).mapError .storeWriteFailed
        return { state with blocks }
      else
        throw (.blockMismatch cid)

/-- The names of the listed blocks that are missing; what is no name is passed over. -/
def missing (state : LocalState) (texts : List String) : List String :=
  texts.filterMap fun text =>
    match Cid.parse? text with
    | some cid => if state.has cid then none else some cid.text
    | none => none

/-- An outcome that leaves a new state on success and the old one on failure. -/
def settle (state : LocalState) : Except ProtocolError LocalState → Reply × LocalState
  | .ok state => (.ok none, state)
  | .error reason => (.error reason, state)

/-! ## Dispatch -/

/-- Hands a message to the handler of its kind.  `relay` handles sealed envelopes. -/
def dispatchWith (relay : LocalState → Bytes → Reply × LocalState) (self : Keypair) (row : String)
    (sender : PeerId) (state : LocalState) (message : Message) : Reply × LocalState :=
  match MessageType.ofTag? message.tag with
  | none => (.ok none, state)
  | some kind =>
      match message.payload with
      | none => (.error (.emptyPayload kind), state)
      | some payload =>
          match kind, payload with
          | .ping, _ => (.ok (some message), state)
          | .threadBlock, .threadBlock signed =>
              let (result, state) := state.apply self row signed
              (result.map fun _ => none, state)
          | .offlineAck, .offlineAck bytes => state.settle (state.handleAck sender bytes)
          | .offlineRelay, .offlineRelay ciphertext => relay state ciphertext
          | .block, .block cid data => state.settle (state.handleBlock cid data)
          | .store, .cidList texts =>
              (.ok (some (.ofPayload (.cidList (state.missing texts)))), state)
          | .error, .error _ _ => (.ok none, state)
          | kind, payload => (.error (.payloadMismatch kind payload.kind), state)

/-- Handles a message that came out of a relay envelope. -/
def dispatchRelayed (self : Keypair) (row : String) (sender : PeerId) (state : LocalState)
    (message : Message) : Reply × LocalState :=
  dispatchWith (fun state _ => (.error .nestedRelay, state)) self row sender state message

/-- The sender and the message inside a sealed envelope. -/
def openRelay (self : Keypair) (ciphertext : Bytes) :
    Except ProtocolError (PeerId × Message) := do
  let plaintext ← (self.openBox ciphertext).mapError .wire
  (Envelope.authenticate plaintext).mapError .wire

/-- Handles the message inside a sealed envelope; its reply is dropped. -/
def handleRelay (self : Keypair) (row : String) (state : LocalState) (ciphertext : Bytes) :
    Reply × LocalState :=
  match openRelay self ciphertext with
  | .error reason => (.error reason, state)
  | .ok (sender, message) =>
      let (reply, state) := dispatchRelayed self row sender state message
      (reply.map fun _ => none, state)

/-- Handles an authenticated message. -/
def dispatch (self : Keypair) (row : String) (inbound : Inbound) (state : LocalState)
    (message : Message) : Reply × LocalState :=
  if inbound.relayed then dispatchRelayed self row inbound.sender state message
  else dispatchWith (handleRelay self row) self row inbound.sender state message

/-! ## Raw bytes -/

/-- Whether a failed message of this kind is answered with a notice. -/
def answersFailure : MessageType → Bool
  | .store => true
  | .offlineRelay => true
  | _ => false

/-- The reply to a message: a notice in place of a reason, for kinds that are answered so. -/
def answer (message : Message) (reply : Reply) : Reply :=
  match reply, MessageType.ofTag? message.tag with
  | .error reason, some kind =>
      if answersFailure kind then .ok (some reason.notice) else .error reason
  | reply, _ => reply

/-- Opens raw bytes and handles the message inside. -/
def receive (self : Keypair) (row : String) (state : LocalState) (raw : Bytes) :
    Reply × LocalState :=
  match Envelope.authenticate raw with
  | .error fault => (.error (.wire fault), state)
  | .ok (sender, message) =>
      let (reply, state) := dispatch self row ⟨sender, false⟩ state message
      (answer message reply, state)

end LocalState

end PeerMail
