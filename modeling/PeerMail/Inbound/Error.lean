import PeerMail.Store.Error
import PeerMail.Thread.Admission
import PeerMail.Thread.Registry
import PeerMail.Wire.Message

/-!
# Why an inbound message fails

Each reason has a text and a number.  The number travels in the notice that
answers a failed request, so it is part of the protocol.
-/

namespace PeerMail

/-- Why an inbound message fails. -/
inductive ProtocolError where
  | wire (fault : WireError)
  /-- A message of a known kind carries nothing. -/
  | emptyPayload (kind : MessageType)
  /-- The payload belongs to another kind of message. -/
  | payloadMismatch (expected actual : MessageType)
  | unauthorized
  | pointerNotFound
  | admission (reason : AdmissionError)
  /-- The key of an invitation leads to another thread. -/
  | threadIdMismatch
  | invalidIssuerKey (reason : String)
  | blockMismatch (cid : Cid)
  /-- A relayed message carries another relayed message. -/
  | nestedRelay
  | storeWriteFailed (fault : StorageError)
  | storage (fault : StorageError)
  | thread (reason : ThreadError)
deriving DecidableEq

namespace ProtocolError

/-- The reason in words. -/
def message : ProtocolError → String
  | wire fault => fault.message
  | emptyPayload kind => kind.display ++ " message has no payload"
  | payloadMismatch expected actual =>
      "payload mismatch: expected " ++ expected.display ++ ", got " ++ actual.display
  | unauthorized => "peer is not authorized to delete pointer"
  | pointerNotFound => "pointer not found"
  | admission reason => reason.message
  | threadIdMismatch => "thread id does not match invite key"
  | invalidIssuerKey reason => "invalid issuer key: " ++ reason
  | blockMismatch cid => "block content does not match " ++ cid.text
  | nestedRelay => "nested offline relay"
  | storeWriteFailed fault => "block store write failed: " ++ fault.message
  | storage fault => "storage error: " ++ fault.message
  | thread reason => "thread error: " ++ reason.message

/-- The number of a fault in wire data. -/
def wireCode : WireError → UInt32
  | .malformedEnvelope _ | .deserialization _ | .invalidMessageType _ => 1
  | .badSignature => 2
  | .decryptFailed => 5
  | .invalidPeerId _ | .invalidCid _ => 17
  | .invalidKey _ | .crypto _ | .serialization _ => 99

/-- The number of a reason. -/
def code : ProtocolError → UInt32
  | wire fault => wireCode fault
  | emptyPayload _ => 3
  | unauthorized => 4
  | admission .threadAlreadyExists => 6
  | admission .invalidInviteTarget => 7
  | admission .threadNotFound => 8
  | admission (.unsupported _) => 9
  | storeWriteFailed _ => 10
  | payloadMismatch _ _ => 11
  | blockMismatch _ => 12
  | nestedRelay => 13
  | threadIdMismatch => 14
  | invalidIssuerKey _ => 15
  | pointerNotFound => 16
  | storage _ => 18
  | thread _ => 19

/-- The notice that answers a failed request. -/
def notice (reason : ProtocolError) : Message := .failure reason.code reason.message

end ProtocolError

end PeerMail
