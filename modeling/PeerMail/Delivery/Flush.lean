import PeerMail.Delivery.Pages
import PeerMail.Delivery.Relay
import PeerMail.Delivery.Transport
import PeerMail.Store.Database

/-!
# Flushing the outbound queue

A flush loads the queue a page at a time, splits each page by destination, lets a
worker for each destination attempt its messages, and then removes those that were
accepted.  A message that was not accepted stays for the next flush.

The walk is written over any queue and any way of delivery (`FlushServices`), each
of which may fail at any time.  A delivery may even take its worker down: then
nothing is known of what this worker has delivered, and the flush goes on without
it.  `Outgoing` is the real way, where a message goes over a connection if there is
one and otherwise to a relay; it answers every time.
-/

namespace PeerMail

/-! ## Outcomes of a delivery -/

/-- How a message left. -/
inductive Route where
  | direct
  | relayed
deriving DecidableEq

/-- Why a message stayed. -/
inductive DeliveryError where
  /-- No connection, and no inbox is known. -/
  | noRoute (peer : PeerId)
  /-- The relay did not take it. -/
  | relay (reason : RelayError)
  | storage (fault : StorageError)
deriving DecidableEq

/-- The reason in words. -/
def DeliveryError.message : DeliveryError → String
  | .noRoute peer => "no route to " ++ peer.text
  | .relay reason => "relay hand-off failed: " ++ reason.message
  | .storage fault => "contact lookup failed: " ++ fault.message

/-! ## The walk -/

/-- The queue and the way of delivery that a flush works with. -/
structure FlushServices (World : Type) where
  /-- The next messages behind a given one, at most so many. -/
  list : World → Option MessageId → Nat → Except StorageError (List QueuedMessage) × World
  /-- One attempt to deliver an envelope.  Without an outcome the worker breaks off. -/
  deliver : World → PeerId → Envelope → Option (Except DeliveryError Route) × World
  delete : World → MessageId → Except StorageError Bool × World
  count : World → Except StorageError Nat × World

namespace FlushServices

variable {World : Type}

/-- The account with one more message that left. -/
def countRoute (report : FlushReport) : Route → FlushReport
  | .direct => { report with direct := report.direct + 1 }
  | .relayed => { report with relayed := report.relayed + 1 }

/-- A worker attempts its messages one after the other, and hands in those that were accepted with
the way they left, unless it breaks off. -/
def deliverGroup (services : FlushServices World) :
    List QueuedMessage → World → Option (List (MessageId × Route)) × World
  | [], world => (some [], world)
  | message :: rest, world =>
      match services.deliver world message.peer message.envelope with
      | (none, world) => (none, world)
      | (some outcome, world) =>
          let (accepted, world) := deliverGroup services rest world
          (accepted.map ((outcome.toOption.map (message.id, ·)).toList ++ ·), world)

/-- The workers finish one after the other.  Gives the names of the messages that they hand in;
those of a worker that breaks off are not among them. -/
def deliverAll (services : FlushServices World) :
    List (PeerGroup QueuedMessage) → FlushReport → World → List MessageId × FlushReport × World
  | [], report, world => ([], report, world)
  | group :: rest, report, world =>
      match services.deliverGroup group.items world with
      | (none, world) => deliverAll services rest report world
      | (some accepted, world) =>
          let (ids, report, world) :=
            deliverAll services rest ((accepted.map Prod.snd).foldl countRoute report) world
          (accepted.map Prod.fst ++ ids, report, world)

/-- Removes accepted messages. -/
def deleteAll (services : FlushServices World) :
    List MessageId → FlushReport → World → FlushReport × World
  | [], report, world => (report, world)
  | id :: rest, report, world =>
      match services.delete world id with
      | (.ok _, world) =>
          deleteAll services rest { report with deleted := report.deleted + 1 } world
      | (.error _, world) => deleteAll services rest report world

/-- Attempts a page and removes what was accepted. -/
def flushPage (services : FlushServices World) (page : List QueuedMessage) (report : FlushReport)
    (world : World) : FlushReport × World :=
  let report := { report with
    pages := report.pages + 1
    attempted := report.attempted + page.length }
  let (ids, report, world) :=
    deliverAll services (partitionByPeer QueuedMessage.peer page) report world
  deleteAll services ids report world

/-- Walks over at most `maxPages` pages, up to an empty page or one that does not load. -/
def walk (services : FlushServices World) :
    (maxPages : Nat) → PageCursor → FlushReport → World → FlushReport × World
  | 0, _, report, world => (report, world)
  | maxPages + 1, cursor, report, world =>
      match services.list world cursor.after cursor.pageSize with
      | (.error _, world) => (report, world)
      | (.ok page, world) =>
          match cursor.advance? (page.map QueuedMessage.id) with
          | none => (report, world)
          | some cursor =>
              let (report, world) := flushPage services page report world
              walk services maxPages cursor report world

/-- Walks over the queue from its start and counts what is left in it. -/
def flush (services : FlushServices World) (maxPages pageSize : Nat) (world : World) :
    FlushReport × World :=
  let (report, world) := walk services maxPages (.start pageSize) {} world
  match services.count world with
  | (.ok pending, world) => ({ report with pending }, world)
  | (.error _, world) => ({ report with pending := report.attempted - report.deleted }, world)

end FlushServices

/-! ## Connections first, relays second -/

/-- What the outbound side of a node works with. -/
structure Outgoing where
  db : Database
  transport : Transport
  relay : Relay

namespace Outgoing

/-- Hands an envelope to a relay at the inboxes that are known for its peer. -/
def handOver (outgoing : Outgoing) (peer : PeerId) (envelope : Envelope) :
    Except DeliveryError Outgoing := do
  match ← (outgoing.db.contact? peer).mapError .storage with
  | none => throw (.noRoute peer)
  | some contact =>
      if contact.inboxes.isEmpty then throw (.noRoute peer)
      let relay ← (outgoing.relay.handOver peer envelope contact.inboxes).mapError .relay
      return { outgoing with relay }

/-- Delivers an envelope over a connection, or else to a relay. -/
def deliver (outgoing : Outgoing) (peer : PeerId) (envelope : Envelope) :
    Except DeliveryError Route × Outgoing :=
  match outgoing.transport.deliver peer envelope with
  | (.ok (), transport) => (.ok .direct, { outgoing with transport })
  | (.error _, transport) =>
      let outgoing := { outgoing with transport }
      match outgoing.handOver peer envelope with
      | .ok outgoing => (.ok .relayed, outgoing)
      | .error reason => (.error reason, outgoing)

/-- The queue of the database and the delivery above, in which no worker breaks off. -/
def services : FlushServices Outgoing where
  list outgoing after limit :=
    let (page, db) := outgoing.db.listMessages after limit
    (page, { outgoing with db })
  deliver outgoing peer envelope :=
    let (outcome, outgoing) := outgoing.deliver peer envelope
    (some outcome, outgoing)
  delete outgoing id :=
    match outgoing.db.deleteMessage id with
    | .ok (existed, db) => (.ok existed, { outgoing with db })
    | .error fault => (.error fault, outgoing)
  count outgoing := (outgoing.db.countMessages, outgoing)

/-- Flushes the queue.  Every page but the last holds a row that no later page holds, so one page
more than there are rows is enough. -/
def flush (outgoing : Outgoing) (pageSize : Nat) : FlushReport × Outgoing :=
  services.flush ((outgoing.db.queue.map Table.size).getD 0 + 1) pageSize outgoing

end Outgoing

end PeerMail
