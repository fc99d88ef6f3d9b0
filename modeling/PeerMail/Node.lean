import PeerMail.Delivery.Schedule
import PeerMail.Inbound.Dispatch

/-!
# A node

A peer with its keys, its settings, its database and its collaborators: the
connections, the way to the relays, the registry of threads and the block
store.  It seals and queues outbound messages, flushes the queue, and handles
what comes in.
-/

namespace PeerMail

/-! ## Faults -/

/-- Why a node fails. -/
inductive NodeError where
  | storage (fault : StorageError)
  | wire (fault : WireError)
  | protocol (reason : ProtocolError)
deriving DecidableEq

/-- The reason in words. -/
def NodeError.message : NodeError → String
  | .storage fault => "storage error: " ++ fault.message
  | .wire fault => "wire error: " ++ fault.message
  | .protocol reason => "protocol error: " ++ reason.message

/-! ## Nodes -/

/-- A running peer. -/
structure Node where
  identity : Keypair
  settings : Settings
  db : Database
  transport : Transport
  relay : Relay
  threads : Registry
  blocks : BlockStore
  faults : Faults

namespace Node

/-- Opens the database and starts a node with fresh collaborators. -/
def start (identity : Keypair) (settings : Settings) (disk : Database.Disk) (online : Bool) :
    Except NodeError Node := do
  let db ← (Database.openAt settings.storage.database disk).mapError .storage
  return ⟨identity, settings, db, .fresh online, .fresh, .empty, .empty, {}⟩

/-- Stops the node and starts it again with the same collaborators. -/
def restart (node : Node) : Except NodeError Node := do
  let disk : Database.Disk := ⟨true, some node.db⟩
  let db ← (Database.openAt node.settings.storage.database disk).mapError .storage
  return { node with db }

/-- The name of the peer. -/
def peerId (node : Node) : PeerId := node.identity.peerId

/-! ## Inbound -/

/-- What inbound messages act on. -/
def localState (node : Node) : LocalState := ⟨node.threads, node.db, node.blocks, node.faults⟩

/-- The node with what inbound messages left behind. -/
def withLocalState (node : Node) (state : LocalState) : Node :=
  { node with threads := state.threads, db := state.db, blocks := state.blocks }

/-- Handles an authenticated message.  A new member gets the row name `row`. -/
def dispatch (node : Node) (row : String) (inbound : Inbound) (message : Message) :
    Reply × Node :=
  let (reply, state) := LocalState.dispatch node.identity row inbound node.localState message
  (reply, node.withLocalState state)

/-- Handles raw bytes.  A new member gets the row name `row`. -/
def receive (node : Node) (row : String) (raw : Bytes) :
    Except NodeError (Option Message) × Node :=
  let (reply, state) := LocalState.receive node.identity row node.localState raw
  (reply.mapError .protocol, node.withLocalState state)

/-! ## Outbound -/

/-- What the outbound side works with. -/
def outgoing (node : Node) : Outgoing := ⟨node.db, node.transport, node.relay⟩

/-- The node with what the outbound side left behind. -/
def withOutgoing (node : Node) (outgoing : Outgoing) : Node :=
  { node with db := outgoing.db, transport := outgoing.transport, relay := outgoing.relay }

/-- Seals a message and queues it for a peer, under a new name and the present second. -/
def send (node : Node) (id : MessageId) (now : Int64) (peer : PeerId) (message : Message) :
    Except NodeError Node := do
  let envelope := Envelope.sign node.identity message
  let db ← (node.db.addMessage ⟨id, peer, envelope, now⟩).mapError .storage
  return { node with db }

/-- Flushes the queue. -/
def flush (node : Node) : FlushReport × Node :=
  let (report, outgoing) := node.outgoing.flush node.settings.outbox.pageSize
  (report, node.withOutgoing outgoing)

/-- Flushes the queue a number of times, one flush after the other, with one account of all. -/
def flushMany : (count : Nat) → Node → FlushReport × Node
  | 0, node => ({}, node)
  | 1, node => node.flush
  | count + 2, node =>
      let (first, node) := node.flush
      let (later, node) := flushMany (count + 1) node
      (first.andThen later, node)

/-- The number of messages that wait for delivery. -/
def pending (node : Node) : Except StorageError Nat := node.db.countMessages

/-- Runs the task that flushes on schedule, woken a number of times, until the awaited number of
messages waits. -/
def runSchedule (node : Node) (awaited wakes : Nat) : Node :=
  node.withOutgoing (FlushTask.run node.settings.outbox awaited wakes node.outgoing)

end Node

end PeerMail
