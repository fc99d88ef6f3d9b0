import PeerMail.Wire.Codec

/-!
# Envelopes

A message with the sender's public key and a signature over the message's
bytes.  Who sent a message is never read from the wire: it is the name that
belongs to the key that verified the signature.
-/

namespace PeerMail

open MessagePack (Value)

/-- A signed message. -/
structure Envelope where
  senderKey : Bytes
  message : Message
  signature : Bytes
deriving DecidableEq

namespace Envelope

/-- The message signed by a sender. -/
def sign (sender : Keypair) (message : Message) : Envelope :=
  ⟨sender.publicKey, message, sender.sign message.toBytes⟩

/-- The name of the sender, if the signature verifies. -/
def verify (envelope : Envelope) : Except WireError PeerId := do
  PublicKey.verify envelope.senderKey envelope.message.toBytes envelope.signature
  return .ofKey envelope.senderKey

/-- The names of the members. -/
def memberNames : List String := ["sender_public_key", "message", "signature"]

/-- The envelope as a value. -/
def toValue (envelope : Envelope) : Value :=
  .array [.ofBytes envelope.senderKey, envelope.message.toValue, .ofBytes envelope.signature]

/-- The envelope that a value stands for. -/
def ofValue? (room : Nat) (value : Value) : Option Envelope := do
  match ← value.record? memberNames room with
  | [some senderKey, some message, some signature] =>
      let senderKey ← senderKey.bytes?
      let message ← Message.ofValue? (room - 1) message
      let signature ← signature.bytes?
      return ⟨senderKey, message, signature⟩
  | _ => none

/-- The bytes of an envelope. -/
def toBytes (envelope : Envelope) : Bytes := envelope.toValue.write

/-- The envelope at the front of a byte string. -/
def ofBytes (bytes : Bytes) : Except WireError Envelope :=
  match Value.read? bytes >>= ofValue? (Value.maxLevels - 2) with
  | some envelope => .ok envelope
  | none => .error (.malformedEnvelope "not an envelope")

/-- The sender and the message of raw bytes. -/
def authenticate (raw : Bytes) : Except WireError (PeerId × Message) := do
  let envelope ← ofBytes raw
  let sender ← envelope.verify
  return (sender, envelope.message)

end Envelope

/-- The envelope sealed to a recipient and wrapped for delivery by a relay. -/
def Message.relay (recipientKey : Bytes) (envelope : Envelope) (entropy : SealedBox.Entropy) :
    Except WireError Message := do
  let ciphertext ← SealedBox.sealTo recipientKey envelope.toBytes entropy
  return .ofPayload (.offlineRelay ciphertext)

end PeerMail
