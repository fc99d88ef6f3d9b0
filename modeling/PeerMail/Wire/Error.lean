/-!
# Faults in wire data

What can go wrong while bytes are written, read, signed, sealed or opened.
-/

namespace PeerMail

/-- A fault in wire data. -/
inductive WireError where
  /-- A value has no written form. -/
  | serialization (reason : String)
  /-- Bytes are no message or thread block. -/
  | deserialization (reason : String)
  /-- Bytes are no envelope. -/
  | malformedEnvelope (reason : String)
  /-- A signature does not verify, or cannot be checked. -/
  | badSignature
  | invalidKey (reason : String)
  | decryptFailed
  | crypto (reason : String)
  | invalidPeerId (text : String)
  | invalidCid (text : String)
  /-- No kind of message has this tag. -/
  | invalidMessageType (tag : UInt8)
deriving DecidableEq

/-- The fault in words. -/
def WireError.message : WireError → String
  | .serialization reason => "serialization failed: " ++ reason
  | .deserialization reason => "deserialization failed: " ++ reason
  | .malformedEnvelope reason => "malformed envelope: " ++ reason
  | .badSignature => "bad signature"
  | .invalidKey reason => "invalid key: " ++ reason
  | .decryptFailed => "decryption failed"
  | .crypto reason => "crypto error: " ++ reason
  | .invalidPeerId text => "invalid peer id: " ++ text
  | .invalidCid text => "invalid cid: " ++ text
  | .invalidMessageType tag => "invalid message type: " ++ toString tag.toNat

end PeerMail
