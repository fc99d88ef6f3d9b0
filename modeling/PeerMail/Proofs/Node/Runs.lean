import PeerMail.Node
import PeerMail.Proofs.Delivery.Frames
import PeerMail.Proofs.Inbound.Relay
import PeerMail.Proofs.Inbound.Soundness
import PeerMail.Proofs.Thread.Atomicity

/-!
# Runs of a node

A run is a list of events, in any order and any number: bytes arrive, messages are
queued and flushed, contacts and pointers are noted, and writes start or stop to
fail.  Whatever happens, the stores of the node agree and nothing that was there
is taken away (`run_sound`).

Only received bytes touch threads, members and stored blocks; every other event is
a frame (`SameStores`).  So the induction over events needs `LocalState.Sound.receive`
and `LocalState.receive_grows` and nothing else about the events.
-/

namespace PeerMail.Node

/-! ## Events -/

/-- What can happen to a running node. -/
inductive Event where
  /-- Bytes arrive; a new member gets the row name `row`. -/
  | receive (row : String) (raw : Bytes)
  /-- A message is to be queued. -/
  | send (id : MessageId) (now : Int64) (peer : PeerId) (message : Message)
  /-- The queue is flushed. -/
  | flush
  /-- The inboxes of a peer are noted. -/
  | setInboxes (peer : PeerId) (inboxes : List String)
  /-- A pointer is noted. -/
  | addPointer (pointer : Pointer)
  /-- Writing blocks is switched off or on. -/
  | blockWrites (readOnly : Bool)
  /-- From now on noting a member fails, or fails no longer. -/
  | memberWrites (fault : Option StorageError)
  /-- The queue is locked against losing rows, or unlocked. -/
  | queueDeletes (locked : Bool)
  /-- Connections and relays change in whatever way. -/
  | network (transport : Transport) (relay : Relay)

/-- The bytes that an event brings. -/
def Event.bytes? : Event → Option Bytes
  | .receive _ raw => some raw
  | _ => none

/-- The node with a new database, if there is one. -/
def withDatabase (node : Node) : Except StorageError Database → Node
  | .ok db => { node with db }
  | .error _ => node

/-- The node after an event; what fails leaves it as it was. -/
def after (node : Node) : Event → Node
  | .receive row raw => (node.receive row raw).2
  | .send id now peer message =>
      match node.send id now peer message with
      | .ok node => node
      | .error _ => node
  | .flush => node.flush.2
  | .setInboxes peer inboxes => node.withDatabase (node.db.setInboxes peer inboxes)
  | .addPointer pointer => node.withDatabase (node.db.addPointer pointer)
  | .blockWrites readOnly => { node with blocks := { node.blocks with readOnly } }
  | .memberWrites memberFault => { node with faults := { node.faults with memberFault } }
  | .queueDeletes locked => node.withDatabase (node.db.lockQueue locked)
  | .network transport relay => { node with transport, relay }

/-- The node after some events, the first one first. -/
def run (node : Node) (events : List Event) : Node := events.foldl after node

/-- The bytes that some events bring, in order. -/
def received (events : List Event) : List Bytes := events.filterMap Event.bytes?

variable {node : Node} {event : Event}

theorem run_nil (node : Node) : node.run [] = node := rfl

theorem run_cons (node : Node) (event : Event) (rest : List Event) :
    node.run (event :: rest) = (node.after event).run rest := rfl

theorem run_append (node : Node) (events later : List Event) :
    node.run (events ++ later) = (node.run events).run later := by
  simp [run, List.foldl_append]

theorem received_append (events later : List Event) :
    received (events ++ later) = received events ++ received later := by
  simp [received, List.filterMap_append]

/-! ## Events that touch no thread, member or block -/

/-- The nodes have one owner and the same threads, members and blocks, and removing a thread fails
in both or in neither. -/
structure SameStores (before after : Node) : Prop where
  identity : after.identity = before.identity
  threads : after.threads = before.threads
  members : after.db.members = before.db.members
  blocks : after.blocks.blocks = before.blocks.blocks
  removeFails : after.faults.removeFails = before.faults.removeFails

namespace SameStores

variable {before after : Node} {owner : Keypair} {raws : List Bytes}

theorem refl (node : Node) : SameStores node node := ⟨rfl, rfl, rfl, rfl, rfl⟩

theorem sound (h : SameStores before after) (hsound : before.localState.Sound owner raws) :
    after.localState.Sound owner raws := by
  obtain ⟨hthreads, hmembers, hblocks⟩ := hsound
  constructor
  case threads =>
    show after.threads.Sound owner raws
    rw [h.threads]
    exact hthreads
  case members =>
    show ∃ members, after.db.members = some members ∧ Roster after.threads.ids members.rows
    rw [h.members, h.threads]
    exact hmembers
  case blocks =>
    show ∀ block ∈ after.blocks.blocks, block.1 = Cid.ofData block.2
    rw [h.blocks]
    exact hblocks

theorem grows (h : SameStores before after) : before.localState.Grows after.localState := by
  constructor
  case threads =>
    show before.threads.Kept after.threads
    rw [h.threads]
    exact .refl _
  case blocks =>
    intro cid hcid
    rw [BlockStore.has_iff] at hcid ⊢
    show ∃ data, (cid, data) ∈ after.blocks.blocks
    rw [h.blocks]
    exact hcid

end SameStores

theorem withDatabase_sameStores {outcome : Except StorageError Database}
    (h : ∀ db, outcome = .ok db → db.members = node.db.members) :
    SameStores node (node.withDatabase outcome) := by
  cases outcome with
  | error fault => exact .refl node
  | ok db => exact ⟨rfl, rfl, h db rfl, rfl, rfl⟩

theorem send_sameStores {id : MessageId} {now : Int64} {peer : PeerId} {message : Message}
    {next : Node} (h : node.send id now peer message = .ok next) : SameStores node next := by
  simp only [send, Database.addMessage, bind_eq_ok_iff, mapError_eq_ok_iff, pure_eq_ok_iff] at h
  obtain ⟨db, hdb, rfl⟩ := h
  exact ⟨rfl, rfl, (Database.addRow_sameDirectory hdb).members, rfl, rfl⟩

theorem flush_sameStores (node : Node) : SameStores node node.flush.2 :=
  ⟨rfl, rfl, (Outgoing.flush_sameDirectory node.outgoing _).members, rfl, rfl⟩

/-- Every event but the arrival of bytes leaves the three stores alone. -/
theorem after_sameStores (h : event.bytes? = none) : SameStores node (node.after event) := by
  cases event with
  | receive row raw => cases h
  | send id now peer message =>
      cases hsend : node.send id now peer message with
      | ok next =>
          simp only [after, hsend]
          exact send_sameStores hsend
      | error fault =>
          simp only [after, hsend]
          exact .refl node
  | flush => exact flush_sameStores node
  | setInboxes peer inboxes =>
      exact withDatabase_sameStores fun _ => Database.setInboxes_members
  | addPointer pointer => exact withDatabase_sameStores fun _ => Database.addPointer_members
  | blockWrites readOnly => exact ⟨rfl, rfl, rfl, rfl, rfl⟩
  | memberWrites fault => exact ⟨rfl, rfl, rfl, rfl, rfl⟩
  | queueDeletes locked => exact withDatabase_sameStores fun _ => Database.lockQueue_members
  | network transport relay => exact ⟨rfl, rfl, rfl, rfl, rfl⟩

/-! ## Invariants -/

/-- A node of the given owner whose stores agree, and which can remove threads. -/
structure Sound (owner : Keypair) (raws : List Bytes) (node : Node) : Prop where
  identity : node.identity = owner
  removes : node.faults.removeFails = false
  stores : node.localState.Sound owner raws

theorem after_receive (node : Node) (row : String) (raw : Bytes) :
    node.after (.receive row raw) =
      node.withLocalState (LocalState.receive node.identity row node.localState raw).2 := rfl

theorem threads_withLocalState (node : Node) (state : LocalState) :
    (node.withLocalState state).threads = state.threads := rfl

theorem Sound.after {owner : Keypair} {raws : List Bytes} (h : node.Sound owner raws)
    (event : Event) : (node.after event).Sound owner (raws ++ received [event]) := by
  cases hbytes : event.bytes? with
  | none =>
      -- nothing is received, and nothing happens to the three stores
      have hsame : SameStores node (node.after event) := after_sameStores hbytes
      refine ⟨hsame.identity.trans h.identity, hsame.removeFails.trans h.removes, ?_⟩
      simpa [received, hbytes] using hsame.sound h.stores
  | some raw =>
      cases event with
      | receive row raw =>
          have hstores := h.stores.receive h.removes row raw
          rw [← h.identity] at hstores ⊢
          exact ⟨rfl, h.removes, hstores.threads, hstores.members, hstores.blocks⟩
      | _ => cases hbytes

/-- No event takes anything away. -/
theorem after_grows (node : Node) (event : Event) :
    node.localState.Grows (node.after event).localState := by
  cases hbytes : event.bytes? with
  | none => exact (after_sameStores hbytes).grows
  | some raw =>
      cases event with
      | receive row raw =>
          have hgrows := LocalState.receive_grows node.identity row node.localState raw
          exact ⟨hgrows.threads, hgrows.blocks⟩
      | _ => cases hbytes

theorem run_grows (node : Node) (events : List Event) :
    node.localState.Grows (node.run events).localState := by
  induction events generalizing node with
  | nil => exact .refl _
  | cons event rest ih => exact (after_grows node event).trans (ih (node.after event))

theorem Sound.run {owner : Keypair} {raws : List Bytes} (h : node.Sound owner raws)
    (events : List Event) : (node.run events).Sound owner (raws ++ received events) := by
  induction events generalizing node raws with
  | nil => simpa [received, Node.run] using h
  | cons event rest ih =>
      have hrest := ih (h.after event)
      rw [List.append_assoc, ← received_append] at hrest
      exact hrest

theorem start_sound {identity : Keypair} {settings : Settings} {disk : Database.Disk}
    {online : Bool} (hstart : start identity settings disk online = .ok node)
    (hempty : node.db = .empty) : node.Sound identity [] := by
  simp only [start, bind_eq_ok_iff, pure_eq_ok_iff] at hstart
  obtain ⟨db, -, rfl⟩ := hstart
  refine ⟨rfl, rfl, ?_⟩
  show LocalState.Sound identity [] ⟨.empty, db, .empty, {}⟩
  rw [show db = .empty from hempty]
  exact LocalState.untouched_sound identity {}

/-- **The stores of a node agree in every run**, and no event removes, renames or re-keys a
thread, drops a block or changes a chain other than at its end. -/
theorem run_sound {identity : Keypair} {settings : Settings} {disk : Database.Disk} {online : Bool}
    (hstart : start identity settings disk online = .ok node) (hempty : node.db = .empty)
    (events later : List Event) :
    (node.run events).localState.Sound identity (received events) ∧
      (node.run events).localState.Grows (node.run (events ++ later)).localState := by
  have hsound := (start_sound hstart hempty).run events
  rw [run_append]
  exact ⟨hsound.stores, run_grows _ later⟩

/-! ## A node that is invited twice -/

/-- An invitation under its proper name. -/
def namedInvitation : SignedBlock :=
  { misnamedInvitation with id := Cid.ofData misnamedInvitation.data }

/-- The invitation in an envelope of nobody in particular. -/
def invitationBytes : Bytes := (anonymous (.ofPayload (.threadBlock namedInvitation))).toBytes

/-- A node that has just been opened. -/
def invitedNode : Node :=
  ⟨exampleInvitee, .inMemory, .empty, .fresh false, .fresh, .empty, .empty, {}⟩

/-- The node while members cannot be noted. -/
def failingNode : Node := invitedNode.after (.memberWrites (some (.unavailable "members")))

/-- At first the inviter cannot be noted, then it can. -/
def invitedTwice : List Event :=
  [.memberWrites (some (.unavailable "members")), .receive "row" invitationBytes,
    .memberWrites none, .receive "row" invitationBytes]

theorem namedInvitation_invites : Invites exampleInvitee namedInvitation exampleThreadKey :=
  misnamedInvitation_invites.renamed _

theorem invitationBytes_opened : Envelope.authenticate invitationBytes =
    .ok (.ofKey (1 :: List.replicate 31 0), .ofPayload (.threadBlock namedInvitation)) := by
  decide +kernel

theorem failingNode_receive : failingNode.after (.receive "row" invitationBytes) = failingNode := by
  have huntracked : failingNode.localState.threads.find? namedInvitation.thread = none := rfl
  have hfault : failingNode.localState.addMember (namedInvitation.inviter "row") =
      .error (.unavailable "members") := rfl
  have happly := LocalState.apply_eq_of_not_noted (LocalState.lookup_eq_none huntracked)
    namedInvitation_invites huntracked hfault
  rw [after_receive, LocalState.receive_threadBlock invitationBytes_opened,
    show failingNode.identity = exampleInvitee from rfl, happly]
  rfl

theorem invitedNode_receive : (invitedNode.after (.receive "row" invitationBytes)).threads =
    (Registry.withThread .empty namedInvitation.threadName exampleThreadKey).withBlock
      namedInvitation.thread namedInvitation.id := by
  have huntracked : invitedNode.localState.threads.find? namedInvitation.thread = none := rfl
  have hnames : namedInvitation.id.Names namedInvitation.data := rfl
  obtain ⟨noted, hnoted⟩ : ∃ noted,
      invitedNode.localState.addMember (namedInvitation.inviter "row") = .ok noted := ⟨_, rfl⟩
  have happly := LocalState.apply_eq_of_noted (LocalState.lookup_eq_none huntracked)
    namedInvitation_invites huntracked hnoted
  rw [if_pos hnames] at happly
  rw [after_receive, LocalState.receive_threadBlock invitationBytes_opened, threads_withLocalState,
    show invitedNode.identity = exampleInvitee from rfl, happly]
  rfl

theorem run_invitedTwice :
    (invitedNode.run invitedTwice).threads.chain namedInvitation.thread = [namedInvitation.id] := by
  have hback : failingNode.after (.memberWrites none) = invitedNode := rfl
  have hrun : invitedNode.run invitedTwice =
      invitedNode.after (.receive "row" invitationBytes) := by
    calc invitedNode.run invitedTwice
        = (failingNode.after (.receive "row" invitationBytes)).run
            [.memberWrites none, .receive "row" invitationBytes] := by
          rw [invitedTwice, run_cons, run_cons, failingNode]
      _ = (failingNode.after (.memberWrites none)).run [.receive "row" invitationBytes] := by
          rw [failingNode_receive, run_cons]
      _ = invitedNode.after (.receive "row" invitationBytes) := by
          rw [hback, run_cons, run_nil]
  rw [hrun, invitedNode_receive, Registry.chain, Registry.find?_withBlock,
    Registry.find?_withThread rfl, if_pos namedInvitation_invites.thread]
  simp [namedInvitation_invites.thread]

/-- The invitation ends up in the chain of its thread, and the node is sound. -/
theorem invited_node_sound :
    start exampleInvitee .inMemory ⟨false, none⟩ false = .ok invitedNode ∧
      (invitedNode.run invitedTwice).threads.chain namedInvitation.thread = [namedInvitation.id] ∧
      (invitedNode.run invitedTwice).localState.Sound exampleInvitee (received invitedTwice) ∧
      (invitedNode.run invitedTwice).localState.Grows
        (invitedNode.run (invitedTwice ++ [.flush])).localState := by
  have hstart : start exampleInvitee .inMemory ⟨false, none⟩ false = .ok invitedNode := rfl
  exact ⟨hstart, run_invitedTwice, run_sound hstart rfl invitedTwice [.flush]⟩

end PeerMail.Node
