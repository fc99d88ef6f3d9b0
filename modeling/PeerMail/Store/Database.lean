import PeerMail.Store.Directory
import PeerMail.Store.Queue

/-!
# The database of a node

Five tables: the outbound queue, the rows of it that were set aside, members of
threads, contacts and pointers.  A table may be missing; every operation on it
fails then.  An operation that fails leaves the database as it was, which the
types say: only success comes with a new database.  The one exception is
`listMessages`, which sets undecodable rows aside one by one.
-/

namespace PeerMail

/-- The tables, of which any may be missing. -/
structure Database where
  queue : Option QueueTable
  quarantine : Option QuarantineTable
  members : Option MemberTable
  contacts : Option ContactTable
  pointers : Option PointerTable
  /-- Whether the queue refuses to lose rows. -/
  queueLocked : Bool

namespace Database

/-- The database with all tables and no rows. -/
def empty : Database where
  queue := some .empty
  quarantine := some .empty
  members := some .empty
  contacts := some .empty
  pointers := some .empty
  queueLocked := false

instance : Inhabited Database := ⟨empty⟩

/-- The database with every missing table put in place, without rows. -/
def withAllTables (db : Database) : Database :=
  { db with
    queue := some (db.queue.getD .empty)
    quarantine := some (db.quarantine.getD .empty)
    members := some (db.members.getD .empty)
    contacts := some (db.contacts.getD .empty)
    pointers := some (db.pointers.getD .empty) }

/-- A table that has to be there. -/
def require {α : Type} (name : String) : Option α → Except StorageError α
  | some table => .ok table
  | none => .error (.database ("no such table: " ++ name))

/-- The outcome of adding a row under a key that has to be new. -/
def unique {α : Type} (name : String) : Option α → Except StorageError α
  | some table => .ok table
  | none => .error (.database ("UNIQUE constraint failed: " ++ name))

/-! ## The queue -/

/-- Adds a row to the queue. -/
def addRow (db : Database) (row : QueueRow) : Except StorageError Database := do
  let queue ← require queueName db.queue
  let queue ← unique "outbox_messages.id" (queue.insert? row)
  return { db with queue := some queue }

/-- Queues a message. -/
def addMessage (db : Database) (message : QueuedMessage) : Except StorageError Database :=
  db.addRow message.toRow

/-- Removes a row of the queue, and says whether there was one. -/
def deleteRow (db : Database) (id : Bytes) : Except StorageError (Bool × Database) := do
  let queue ← require queueName db.queue
  match queue.find? id with
  | none => return (false, db)
  | some _ =>
      if db.queueLocked then
        throw (.database "deletes are blocked")
      else
        return (true, { db with queue := some (queue.erase id) })

/-- Removes a message, and says whether it was queued. -/
def deleteMessage (db : Database) (id : MessageId) : Except StorageError (Bool × Database) :=
  db.deleteRow id.bytes

/-- The number of rows in the queue. -/
def countMessages (db : Database) : Except StorageError Nat := do
  return (← require queueName db.queue).size

/-- Moves a row of the queue to the rows set aside, over an earlier one with its key. -/
def setAside (db : Database) (id : Bytes) (reason : String) : Except StorageError Database := do
  let quarantine ← require "outbox_quarantine" db.quarantine
  let queue ← require queueName db.queue
  let quarantine := match queue.find? id with
    | some row => quarantine.put ⟨row, reason⟩
    | none => quarantine
  let (_, db) ← db.deleteRow id
  return { db with quarantine := some quarantine }

/-- The number of rows set aside. -/
def countQuarantined (db : Database) : Except StorageError Nat := do
  return (← require "outbox_quarantine" db.quarantine).size

/-- The rows set aside, in key order. -/
def quarantined (db : Database) : Except StorageError (List QuarantineRow) := do
  return (← require "outbox_quarantine" db.quarantine).rows

/-- The first rows of a page.  A size of 2^63 or more is no limit. -/
def page (limit : Nat) (rows : List QueueRow) : List QueueRow :=
  if limit < Nat.pow 2 63 then rows.take limit else rows

/-- Decodes the rows of a page and sets aside those that cannot be decoded. -/
def sweep : Database → List QueueRow → Except StorageError (List QueuedMessage) × Database
  | db, [] => (.ok [], db)
  | db, row :: rest =>
      match row.decode with
      | .ok message =>
          let (messages, db) := sweep db rest
          (messages.map (message :: ·), db)
      | .error fault =>
          match db.setAside row.id fault.message with
          | .ok db => sweep db rest
          | .error fault => (.error fault, db)

/-- Reads pages from the same bound until one holds a message or no row is left. -/
def listFrom (bound : Bytes) (limit : Nat) :
    (fuel : Nat) → Database → Except StorageError (List QueuedMessage) × Database
  | 0, db => (.ok [], db)
  | fuel + 1, db =>
      match require queueName db.queue with
      | .error fault => (.error fault, db)
      | .ok queue =>
          match page limit (queue.after bound) with
          | [] => (.ok [], db)
          | rows =>
              match sweep db rows with
              | (.ok [], db) => listFrom bound limit fuel db
              | found => found

/-- The next messages of the queue in order, at most `limit` of them, after a given one.  Every
reading but the last shortens the queue, so as many readings as it has rows are enough. -/
def listMessages (db : Database) (after : Option MessageId) (limit : Nat) :
    Except StorageError (List QueuedMessage) × Database :=
  let bound := (after.map MessageId.bytes).getD []
  listFrom bound limit ((db.queue.map Table.size).getD 0 + 1) db

/-! ## Members -/

/-- Adds a row to the table of members: its name has to be new, and so has its peer in its
thread. -/
def addMemberRow (db : Database) (row : MemberRow) : Except StorageError Database := do
  let members ← require "peers" db.members
  if members.rows.any fun other => other.peer == row.peer && other.thread == row.thread then
    throw (.database "UNIQUE constraint failed: peers.peer_id, peers.thread_id")
  let members ← unique "peers.row" (members.insert? row)
  return { db with members := some members }

/-- Adds a member to a thread. -/
def addMember (db : Database) (member : Member) : Except StorageError Database :=
  db.addMemberRow member.toRow

/-- The members of a thread, by the names of their rows. -/
def threadMembers (db : Database) (thread : ThreadId) : Except StorageError (List Member) := do
  let members ← require "peers" db.members
  (members.rows.filter fun row => row.thread == thread.bytes).mapM MemberRow.decode

/-! ## Contacts -/

/-- Puts a row of the table of contacts in place of an earlier one. -/
def putContactRow (db : Database) (row : ContactRow) : Except StorageError Database := do
  let contacts ← require "contacts" db.contacts
  return { db with contacts := some (contacts.put row) }

/-- Notes the inboxes of a peer in place of earlier ones. -/
def setInboxes (db : Database) (peer : PeerId) (inboxes : List String) :
    Except StorageError Database :=
  db.putContactRow (Contact.toRow ⟨peer, inboxes⟩)

/-- The inboxes of a peer, if any are noted. -/
def contact? (db : Database) (peer : PeerId) : Except StorageError (Option Contact) := do
  let contacts ← require "contacts" db.contacts
  match contacts.find? peer.bytes with
  | none => return none
  | some row => return some ⟨peer, ← row.decode⟩

/-! ## Pointers -/

/-- Puts a row of the table of pointers in place of an earlier one. -/
def putPointerRow (db : Database) (row : PointerRow) : Except StorageError Database := do
  let pointers ← require "pointers" db.pointers
  return { db with pointers := some (pointers.put row) }

/-- Notes a pointer in place of an earlier one for its peer. -/
def addPointer (db : Database) (pointer : Pointer) : Except StorageError Database :=
  db.putPointerRow pointer.toRow

/-- The pointer for a peer, if there is one. -/
def pointer? (db : Database) (peer : PeerId) : Except StorageError (Option Pointer) := do
  let pointers ← require "pointers" db.pointers
  match pointers.find? peer.bytes with
  | none => return none
  | some row => return some (← row.decode)

/-- Removes the pointer for a peer, and says whether there was one. -/
def deletePointer (db : Database) (peer : PeerId) : Except StorageError (Bool × Database) := do
  let pointers ← require "pointers" db.pointers
  match pointers.find? peer.bytes with
  | none => return (false, db)
  | some _ => return (true, { db with pointers := some (pointers.erase peer.bytes) })

/-! ## Damage -/

/-- The database without one of its tables.  The lock of the queue goes with the queue. -/
def dropTable (db : Database) (name : String) : Except StorageError Database := do
  match name with
  | "outbox_messages" =>
      let _ ← require name db.queue
      return { db with queue := none, queueLocked := false }
  | "outbox_quarantine" =>
      let _ ← require name db.quarantine
      return { db with quarantine := none }
  | "peers" =>
      let _ ← require name db.members
      return { db with members := none }
  | "contacts" =>
      let _ ← require name db.contacts
      return { db with contacts := none }
  | "pointers" =>
      let _ ← require name db.pointers
      return { db with pointers := none }
  | _ => throw (.database ("no such table: " ++ name))

/-- The database with the queue locked against losing rows, or unlocked. -/
def lockQueue (db : Database) (locked : Bool) : Except StorageError Database := do
  if locked then
    let _ ← require queueName db.queue
    return { db with queueLocked := true }
  else
    return { db with queueLocked := false }

/-! ## Opening -/

/-- The path of a database that lives in memory only. -/
def inMemoryPath : String := ":memory:"

/-- What is on the disk at a path: whether its directory is there, and the database kept in it. -/
structure Disk where
  directory : Bool
  stored : Option Database

/-- Opens the database at a path.  One in memory starts empty; one on the disk keeps its rows
and gets back missing tables. -/
def openAt (path : String) (disk : Disk) : Except StorageError Database :=
  if path = inMemoryPath then .ok empty
  else if path.isEmpty then .error (.invalidPath path)
  else if disk.directory then .ok ((disk.stored.getD empty).withAllTables)
  else .error (.database "unable to open database file")

end Database

end PeerMail
