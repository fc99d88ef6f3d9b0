import PeerMail.Identity
import PeerMail.Store.Error

/-!
# The block store

Blocks by name.  Writing can be switched off.
-/

namespace PeerMail

/-- The blocks of a node. -/
structure BlockStore where
  /-- Each name with its content, no name twice. -/
  blocks : List (Cid × Bytes)
  readOnly : Bool

namespace BlockStore

/-- The store without blocks. -/
def empty : BlockStore := ⟨[], false⟩

instance : Inhabited BlockStore := ⟨empty⟩

/-- The content under a name. -/
def get? (store : BlockStore) (cid : Cid) : Option Bytes := store.blocks.lookup cid

/-- Whether there is a block with a name. -/
def has (store : BlockStore) (cid : Cid) : Bool := (store.get? cid).isSome

/-- The number of blocks. -/
def size (store : BlockStore) : Nat := store.blocks.length

/-- Stores a block in place of an earlier one with its name. -/
def put (store : BlockStore) (cid : Cid) (data : Bytes) : Except StorageError BlockStore :=
  if store.readOnly then
    .error (.unavailable "block store is read-only")
  else
    .ok { store with blocks := (cid, data) :: store.blocks.filter fun block => !(block.1 == cid) }

end BlockStore

end PeerMail
