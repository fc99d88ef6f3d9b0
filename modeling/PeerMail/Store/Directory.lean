import PeerMail.Json.Text
import PeerMail.Store.Error
import PeerMail.Store.Table
import PeerMail.Identity
import PeerMail.Text.Utf8

/-!
# Rows about other peers

Who belongs to a thread, at which inboxes a peer collects mail, and who may
take back the pointer to a peer's mail at a relay.
-/

namespace PeerMail

/-! ## Members of threads -/

/-- A peer that belongs to a thread. -/
structure Member where
  row : String
  peer : PeerId
  thread : ThreadId
  key : Bytes
deriving DecidableEq

/-- A row of the table of members. -/
structure MemberRow where
  row : String
  peer : Bytes
  thread : Bytes
  key : Bytes
deriving DecidableEq

/-- The table of members, by the names of their rows. -/
abbrev MemberTable := Table MemberRow fun member => Utf8.encode member.row

/-- The owner of a public key as a member of a thread. -/
def Member.ofKey (row : String) (thread : ThreadId) (key : Bytes) : Member :=
  ⟨row, .ofKey key, thread, key⟩

/-- The row of a member. -/
def Member.toRow (member : Member) : MemberRow :=
  ⟨member.row, member.peer.bytes, member.thread.bytes, member.key⟩

/-- The member in a row. -/
def MemberRow.decode (row : MemberRow) : Except StorageError Member :=
  match PeerId.ofBytes? row.peer, ThreadId.ofBytes? row.thread with
  | none, _ => .error (.corrupt "peers" "invalid peer_id")
  | some _, none => .error (.corrupt "peers" "invalid thread_id")
  | some peer, some thread => .ok ⟨row.row, peer, thread, row.key⟩

/-! ## Contacts -/

/-- The inboxes at which a peer collects mail. -/
structure Contact where
  peer : PeerId
  inboxes : List String
deriving DecidableEq

/-- A row of the table of contacts; the inboxes are a JSON text. -/
structure ContactRow where
  peer : Bytes
  inboxes : String
deriving DecidableEq

/-- The table of contacts. -/
abbrev ContactTable := Table ContactRow ContactRow.peer

/-- The row of a contact. -/
def Contact.toRow (contact : Contact) : ContactRow :=
  ⟨contact.peer.bytes, Json.ofStringList contact.inboxes⟩

/-- The inboxes in a row. -/
def ContactRow.decode (row : ContactRow) : Except StorageError (List String) :=
  match Json.stringList? row.inboxes with
  | some inboxes => .ok inboxes
  | none => .error (.corrupt "contacts" "not an array of strings")

/-! ## Pointers -/

/-- A note that mail for a peer waits at a relay. -/
structure Pointer where
  peer : PeerId
  address : String
  /-- The only peer that may take the pointer back. -/
  cancel : Option PeerId
  createdAt : Int64
deriving DecidableEq

/-- A row of the table of pointers. -/
structure PointerRow where
  peer : Bytes
  address : String
  cancel : Option Bytes
  createdAt : Int64
deriving DecidableEq

/-- The table of pointers. -/
abbrev PointerTable := Table PointerRow PointerRow.peer

/-- The row of a pointer. -/
def Pointer.toRow (pointer : Pointer) : PointerRow :=
  ⟨pointer.peer.bytes, pointer.address, pointer.cancel.map PeerId.bytes, pointer.createdAt⟩

/-- The pointer in a row, which is looked up by its peer. -/
def PointerRow.decode (row : PointerRow) : Except StorageError Pointer := do
  let cancel ← match row.cancel with
    | none => pure none
    | some bytes =>
        match PeerId.ofBytes? bytes with
        | some peer => pure (some peer)
        | none => throw (.corrupt "pointers" "invalid cancel_id")
  match PeerId.ofBytes? row.peer with
  | some peer => return ⟨peer, row.address, cancel, row.createdAt⟩
  | none => throw (.corrupt "pointers" "invalid peer_id")

end PeerMail
