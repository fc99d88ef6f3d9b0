import PeerMail.Keypair

/-!
# The registry of threads

The threads that a node follows, each under the name that its key leads to,
with the names of the blocks applied to it in order of arrival.
-/

namespace PeerMail

/-- Why the registry refuses an operation. -/
inductive ThreadError where
  | alreadyExists (thread : ThreadId)
  | notFound (thread : ThreadId)
  | duplicateBlock (thread : ThreadId) (block : Cid)
deriving DecidableEq

/-- The reason in words. -/
def ThreadError.message : ThreadError → String
  | .alreadyExists thread => "thread already exists: " ++ thread.text
  | .notFound thread => "thread not found: " ++ thread.text
  | .duplicateBlock thread block =>
      "block " ++ block.text ++ " already applied to thread " ++ thread.text

/-- A thread that is followed. -/
structure Thread where
  name : String
  key : Keypair
deriving DecidableEq

namespace Thread

/-- The name that the key leads to. -/
def id (thread : Thread) : ThreadId := .ofKey thread.key.publicKey

/-- Refuses a signature over data that the thread's key does not verify. -/
def verify (thread : Thread) (data signature : Bytes) : Except WireError Unit :=
  PublicKey.verify thread.key.publicKey data signature

end Thread

/-- A thread under its name, with the blocks applied to it, oldest first. -/
structure ThreadEntry where
  id : ThreadId
  thread : Thread
  chain : List Cid
deriving DecidableEq

/-- The threads that are followed, oldest first. -/
structure Registry where
  entries : List ThreadEntry

namespace Registry

/-- The registry without threads. -/
def empty : Registry := ⟨[]⟩

instance : Inhabited Registry := ⟨empty⟩

/-- The entry under a name. -/
def find? (registry : Registry) (id : ThreadId) : Option ThreadEntry :=
  registry.entries.find? fun entry => entry.id == id

/-- The thread under a name. -/
def lookup (registry : Registry) (id : ThreadId) : Option Thread :=
  (registry.find? id).map ThreadEntry.thread

/-- The blocks applied to a thread, oldest first; none if it is not followed. -/
def chain (registry : Registry) (id : ThreadId) : List Cid :=
  ((registry.find? id).map ThreadEntry.chain).getD []

/-- The number of threads. -/
def size (registry : Registry) : Nat := registry.entries.length

/-- Follows a thread that is not followed yet. -/
def create (registry : Registry) (name : String) (key : Keypair) :
    Except ThreadError (Thread × Registry) :=
  let thread : Thread := ⟨name, key⟩
  match registry.find? thread.id with
  | some _ => .error (.alreadyExists thread.id)
  | none => .ok (thread, ⟨registry.entries ++ [⟨thread.id, thread, []⟩]⟩)

/-- Stops following a thread and forgets its blocks. -/
def remove (registry : Registry) (id : ThreadId) : Except ThreadError Registry :=
  match registry.find? id with
  | some _ => .ok ⟨registry.entries.filter fun entry => !(entry.id == id)⟩
  | none => .error (.notFound id)

/-- Appends a block to a thread that does not hold it yet. -/
def append (registry : Registry) (id : ThreadId) (block : Cid) : Except ThreadError Registry :=
  match registry.find? id with
  | none => .error (.notFound id)
  | some entry =>
      if block ∈ entry.chain then
        .error (.duplicateBlock id block)
      else
        .ok ⟨registry.entries.map fun entry =>
          if entry.id = id then { entry with chain := entry.chain ++ [block] } else entry⟩

end Registry

end PeerMail
