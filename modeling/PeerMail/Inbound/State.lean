import PeerMail.BlockStore
import PeerMail.Inbound.Error
import PeerMail.Store.Database

/-!
# What inbound messages act on

The registry of threads, the database and the block store of a node, together
with faults of them that can be switched on.
-/

namespace PeerMail

/-- Faults of the collaborators, as a node sees them. -/
structure Faults where
  /-- Looking up a thread finds nothing. -/
  lookupHidden : Bool := false
  /-- Removing a thread fails and removes nothing. -/
  removeFails : Bool := false
  /-- Asking for a block fails. -/
  hasFails : Bool := false
  /-- Noting a member of a thread fails, and why. -/
  memberFault : Option StorageError := none
deriving DecidableEq

/-- What inbound messages act on. -/
structure LocalState where
  threads : Registry
  db : Database
  blocks : BlockStore
  faults : Faults

namespace LocalState

/-- The thread under a name, as the node sees it. -/
def lookup (state : LocalState) (id : ThreadId) : Option Thread :=
  if state.faults.lookupHidden then none else state.threads.lookup id

/-- Stops following a thread, if that does not fail. -/
def remove (state : LocalState) (id : ThreadId) : Except ThreadError LocalState :=
  if state.faults.removeFails then
    .error (.notFound id)
  else do
    return { state with threads := ← state.threads.remove id }

/-- Notes a member of a thread, if that does not fail. -/
def addMember (state : LocalState) (member : Member) : Except StorageError LocalState :=
  match state.faults.memberFault with
  | some fault => .error fault
  | none => do
      return { state with db := ← state.db.addMember member }

/-- Whether a block is there; a failed question counts as no. -/
def has (state : LocalState) (cid : Cid) : Bool :=
  !state.faults.hasFails && state.blocks.has cid

end LocalState

end PeerMail
