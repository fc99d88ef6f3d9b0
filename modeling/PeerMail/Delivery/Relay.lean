import PeerMail.Wire.Envelope

/-!
# Handing envelopes to relays

A relay keeps an envelope for a peer that cannot be reached, at the inboxes
where the peer collects its mail.
-/

namespace PeerMail

/-- Why a relay did not take an envelope. -/
inductive RelayError where
  | rejected (reason : String)
  | noInboxes (peer : PeerId)
deriving DecidableEq

/-- The reason in words. -/
def RelayError.message : RelayError → String
  | .rejected reason => "relay rejected envelope: " ++ reason
  | .noInboxes peer => "no inboxes for " ++ peer.text

/-- An envelope handed to a relay. -/
structure Handoff where
  peer : PeerId
  envelope : Envelope
  inboxes : List String
deriving DecidableEq

/-- The way to the relays. -/
structure Relay where
  handoffs : List Handoff
  rejecting : Option String

namespace Relay

/-- Nothing handed over and nothing refused. -/
def fresh : Relay := ⟨[], none⟩

/-- What was handed over for a peer, oldest first. -/
def handoffsFor (relay : Relay) (peer : PeerId) : List Handoff :=
  relay.handoffs.filter fun handoff => handoff.peer == peer

/-- Hands over an envelope for a peer at its inboxes. -/
def handOver (relay : Relay) (peer : PeerId) (envelope : Envelope) (inboxes : List String) :
    Except RelayError Relay :=
  if inboxes.isEmpty then .error (.noInboxes peer)
  else
    match relay.rejecting with
    | some reason => .error (.rejected reason)
    | none => .ok { relay with handoffs := relay.handoffs ++ [⟨peer, envelope, inboxes⟩] }

end Relay

end PeerMail
