import PeerMail.Store.Error
import PeerMail.Store.Table
import PeerMail.Wire.Envelope

/-!
# Rows of the outbound queue

A queued message is stored as a row of plain bytes, and a row may hold bytes
that have no meaning.  Such a row is not delivered; it is set aside together
with the reason.
-/

namespace PeerMail

/-- A message that waits for delivery. -/
structure QueuedMessage where
  id : MessageId
  peer : PeerId
  envelope : Envelope
  enqueuedAt : Int64
deriving DecidableEq

/-- A row of the queue. -/
structure QueueRow where
  id : Bytes
  peer : Bytes
  envelope : Bytes
  enqueuedAt : Int64
deriving DecidableEq

/-- The table of the queue. -/
abbrev QueueTable := Table QueueRow QueueRow.id

/-- The name of the queue in faults. -/
def queueName : String := "outbox_messages"

/-- The row of a message. -/
def QueuedMessage.toRow (message : QueuedMessage) : QueueRow :=
  ⟨message.id.bytes, message.peer.bytes, message.envelope.toBytes, message.enqueuedAt⟩

/-- The message in a row. -/
def QueueRow.decode (row : QueueRow) : Except StorageError QueuedMessage :=
  match MessageId.ofBytes? row.id, PeerId.ofBytes? row.peer, Envelope.ofBytes row.envelope with
  | none, _, _ => .error (.corrupt queueName "invalid id")
  | some _, none, _ => .error (.corrupt queueName "invalid peer_id")
  | some _, some _, .error fault => .error (.corrupt queueName fault.message)
  | some id, some peer, .ok envelope => .ok ⟨id, peer, envelope, row.enqueuedAt⟩

/-- A row that was set aside. -/
structure QuarantineRow where
  row : QueueRow
  reason : String
deriving DecidableEq

/-- The table of rows that were set aside. -/
abbrev QuarantineTable := Table QuarantineRow fun quarantined => quarantined.row.id

end PeerMail
