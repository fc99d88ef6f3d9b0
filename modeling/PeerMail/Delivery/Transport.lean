import PeerMail.Wire.Envelope

/-!
# Direct connections

Whether a node is online, to which peers it is connected, and what has been
sent over the connections.  The next check and the next sending can be made to
fail once.
-/

namespace PeerMail

/-- Why a message was not sent over a connection. -/
inductive TransportError where
  | offline
  | unreachable (peer : PeerId)
  | checkFailed (reason : String)
  | sendFailed (reason : String)
deriving DecidableEq

/-- The reason in words. -/
def TransportError.message : TransportError → String
  | .offline => "node is offline"
  | .unreachable peer => "peer unreachable: " ++ peer.text
  | .checkFailed reason => "connection check failed: " ++ reason
  | .sendFailed reason => "send failed: " ++ reason

/-- An envelope on its way to a peer. -/
structure Sent where
  peer : PeerId
  envelope : Envelope
deriving DecidableEq

/-- The connections of a node. -/
structure Transport where
  online : Bool
  connected : List PeerId
  sent : List Sent
  /-- Why the next check fails. -/
  failNextCheck : Option String
  /-- Why the next sending fails. -/
  failNextSend : Option String

namespace Transport

/-- No connections and nothing sent. -/
def fresh (online : Bool) : Transport := ⟨online, [], [], none, none⟩

/-- With a connection to a peer. -/
def connect (transport : Transport) (peer : PeerId) : Transport :=
  if peer ∈ transport.connected then transport
  else { transport with connected := peer :: transport.connected }

/-- Without a connection to a peer. -/
def disconnect (transport : Transport) (peer : PeerId) : Transport :=
  { transport with connected := transport.connected.filter fun other => !(other == peer) }

/-- What was sent to a peer, oldest first. -/
def sentTo (transport : Transport) (peer : PeerId) : List Envelope :=
  (transport.sent.filter fun sent => sent.peer == peer).map Sent.envelope

/-- Whether there is a connection to a peer.  A failure that was asked for is used up. -/
def check (transport : Transport) (peer : PeerId) : Except TransportError Bool × Transport :=
  match transport.failNextCheck with
  | some reason => (.error (.checkFailed reason), { transport with failNextCheck := none })
  | none => (.ok (decide (peer ∈ transport.connected)), transport)

/-- Sends an envelope to a peer.  A failure that was asked for is used up, unless the sending
fails for want of a connection. -/
def send (transport : Transport) (peer : PeerId) (envelope : Envelope) :
    Except TransportError Unit × Transport :=
  if !transport.online then (.error .offline, transport)
  else if peer ∉ transport.connected then (.error (.unreachable peer), transport)
  else
    match transport.failNextSend with
    | some reason => (.error (.sendFailed reason), { transport with failNextSend := none })
    | none => (.ok (), { transport with sent := transport.sent ++ [⟨peer, envelope⟩] })

/-- Checks for a connection and sends an envelope over it. -/
def deliver (transport : Transport) (peer : PeerId) (envelope : Envelope) :
    Except TransportError Unit × Transport :=
  if !transport.online then (.error .offline, transport)
  else
    match transport.check peer with
    | (.error reason, transport) => (.error reason, transport)
    | (.ok false, transport) => (.error (.unreachable peer), transport)
    | (.ok true, transport) => transport.send peer envelope

end Transport

end PeerMail
