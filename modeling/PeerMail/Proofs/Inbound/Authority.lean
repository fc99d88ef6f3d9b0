import PeerMail.Node
import PeerMail.Proofs.Inbound.Effects
import PeerMail.Proofs.Inbound.Relay
import PeerMail.Proofs.Store.Frames
import PeerMail.Proofs.Thread.Outcomes

/-!
# Who may change what

Bytes that arrive are handled for the sender of the innermost envelope in them: the
one inside the box that they carry, or else the one that they are
(`Envelope.innermost?`).  `receive_frame` says what that sender can bring about, for
any bytes and any node.  It is one of three things, and the node is the same in every
other respect: the sender's own pointer is removed, a block is stored under the hash
of its content, or one thread gets a new entry or one more block, together with at
most one member.

The second half of the statement is about failure.  Whatever there is to report, be it
an error, a notice or an echo, the node is as it was, unless the message is an
invitation; the one that fails late is `misnamed_invitation_keeps_thread`.
-/

namespace PeerMail

/-! ## The innermost envelope -/

namespace Envelope

/-- The envelope at the front of a byte string, if its signature verifies. -/
def verified? (raw : Bytes) : Option Envelope :=
  match ofBytes raw with
  | .ok envelope =>
      if Ed25519.verify envelope.senderKey envelope.message.toBytes envelope.signature then
        some envelope
      else none
  | .error _ => none

/-- The sealed envelope inside a message, if it is a relay message. -/
def carried? (message : Message) : Option Bytes :=
  match message.payload with
  | some (.offlineRelay ciphertext) =>
      if message.tag = MessageType.offlineRelay.tag then some ciphertext else none
  | _ => none

/-- The envelope whose message is handled: the one that a relay message carries, or else the one
at the front. -/
def innermost? (self : Keypair) (raw : Bytes) : Option Envelope := do
  let outer ← verified? raw
  match carried? outer.message with
  | none => return outer
  | some ciphertext => verified? (← (self.openBox ciphertext).toOption)

variable {self : Keypair} {raw : Bytes} {sender : PeerId} {message : Message}

theorem authenticate_eq_ok_iff :
    authenticate raw = .ok (sender, message) ↔ ∃ envelope, verified? raw = some envelope ∧
      PeerId.ofKey envelope.senderKey = sender ∧ envelope.message = message := by
  simp only [authenticate, verify, PublicKey.verify, verified?, bind_eq_ok_iff, pure_eq_ok_iff,
    Prod.mk.injEq]
  cases ofBytes raw with
  | error fault => simp
  | ok envelope =>
      by_cases h : Ed25519.verify envelope.senderKey envelope.message.toBytes envelope.signature <;>
        simp [h]

theorem carried?_eq_some_iff {ciphertext : Bytes} :
    carried? message = some ciphertext ↔ message = .ofPayload (.offlineRelay ciphertext) := by
  obtain ⟨tag, payload⟩ := message
  cases payload with
  | none => simp [carried?, Message.ofPayload]
  | some payload =>
      cases payload <;> simp [carried?, Message.ofPayload, Payload.kind, and_comm]

/-- A message that is brought and carries nothing is that of the innermost envelope. -/
theorem innermost?_of_brings (h : Brings self raw sender message) (hlast : carried? message = none) :
    ∃ envelope, innermost? self raw = some envelope ∧
      PeerId.ofKey envelope.senderKey = sender ∧ envelope.message = message := by
  rcases h with hdirect | ⟨carrier, ciphertext, plaintext, hraw, hbox, hinner⟩
  · obtain ⟨envelope, hverified, hsender, rfl⟩ := authenticate_eq_ok_iff.mp hdirect
    exact ⟨envelope, by simp [innermost?, hverified, hlast], hsender, rfl⟩
  · obtain ⟨outer, houter, -, hmessage⟩ := authenticate_eq_ok_iff.mp hraw
    obtain ⟨envelope, hverified, hsender, rfl⟩ := authenticate_eq_ok_iff.mp hinner
    have hcarried := carried?_eq_some_iff.mpr hmessage
    refine ⟨envelope, ?_, hsender, rfl⟩
    simp [innermost?, houter, hcarried, hbox, hverified, Except.toOption]

end Envelope

/-! ## What a block does to its thread -/

/-- Every thread stands under the name that its key leads to.  The operations of a registry keep it
so. -/
def Registry.Keyed (registry : Registry) : Prop :=
  ∀ entry ∈ registry.entries, entry.id = entry.thread.id

namespace Registry.Keyed

variable {registry next : Registry} {id : ThreadId} {name : String} {key : Keypair} {block : Cid}

theorem empty : Registry.empty.Keyed := by
  simp [Keyed, Registry.empty]

theorem withThread (h : registry.Keyed) : (registry.withThread name key).Keyed := by
  intro entry hentry
  rcases List.mem_append.mp hentry with hold | hnew
  · exact h entry hold
  · rw [List.mem_singleton.mp hnew]
    rfl

theorem withBlock (h : registry.Keyed) : (registry.withBlock id block).Keyed := by
  intro entry hentry
  obtain ⟨old, hold, rfl⟩ := List.mem_map.mp hentry
  split
  · exact h old hold
  · exact h old hold

theorem remove (h : registry.Keyed) (hremove : registry.remove id = .ok next) : next.Keyed := by
  unfold Registry.remove at hremove
  split at hremove
  · cases hremove
    exact fun entry hentry => h entry (List.mem_filter.mp hentry).1
  · cases hremove

/-- A thread is found under the name that its key leads to. -/
theorem id_of_lookup {thread : Thread} (h : registry.Keyed)
    (hlookup : registry.lookup id = some thread) : thread.id = id := by
  obtain ⟨entry, hentry, rfl⟩ := Option.map_eq_some_iff.mp hlookup
  obtain ⟨hmem, hid⟩ := find?_eq_some hentry
  exact (h entry hmem).symm.trans hid

end Registry.Keyed

/-- What a signed block does to the entry of its thread: the thread is new and perhaps holds the
block, or the block comes at the end of its chain. -/
inductive SignedBlock.EntryChange (signed : SignedBlock) :
    Option ThreadEntry → Option ThreadEntry → Prop where
  | created {key : Keypair} (named : ThreadId.ofKey key.publicKey = signed.thread) :
      EntryChange signed none (some ⟨signed.thread, ⟨signed.threadName, key⟩, []⟩)
  | joined {key : Keypair} (named : ThreadId.ofKey key.publicKey = signed.thread)
      (names : signed.id.Names signed.data) :
      EntryChange signed none (some ⟨signed.thread, ⟨signed.threadName, key⟩, [signed.id]⟩)
  | extended {entry : ThreadEntry} (fresh : signed.id ∉ entry.chain)
      (names : signed.id.Names signed.data) :
      EntryChange signed (some entry) (some { entry with chain := entry.chain ++ [signed.id] })

/-- The registries differ in the entry of the thread that a signed block names, and in no other. -/
structure SignedBlock.OneThread (signed : SignedBlock) (before after : Registry) : Prop where
  change : signed.EntryChange (before.find? signed.thread) (after.find? signed.thread)
  others : ∀ id, id ≠ signed.thread → after.find? id = before.find? id

/-- The table of members is the same, or it has one more row, for the thread of a signed block. -/
inductive SignedBlock.OneMember (signed : SignedBlock) (row : String) :
    Option MemberTable → Option MemberTable → Prop where
  | same {members : Option MemberTable} : OneMember signed row members members
  | added {before after : MemberTable}
      (rows : after.rows.Perm ((signed.inviter row).toRow :: before.rows)) :
      OneMember signed row (some before) (some after)

namespace SignedBlock

variable {signed : SignedBlock} {registry : Registry} {key : Keypair} {row : String}

theorem oneThread_withThread (huntracked : registry.find? signed.thread = none)
    (hnamed : ThreadId.ofKey key.publicKey = signed.thread) :
    signed.OneThread registry (registry.withThread signed.threadName key) := by
  have hfind : ∀ id, (registry.withThread signed.threadName key).find? id =
      if ThreadId.ofKey key.publicKey = id then
        some ⟨.ofKey key.publicKey, ⟨signed.threadName, key⟩, []⟩
      else registry.find? id :=
    fun id => Registry.find?_withThread (hnamed ▸ huntracked)
  constructor
  · rw [huntracked, hfind, if_pos hnamed, hnamed]
    exact .created hnamed
  · intro id hid
    rw [hfind, if_neg (fun heq => hid (heq.symm.trans hnamed))]

/-- Appending a block is felt in its own thread only. -/
theorem find?_withBlock_other {id : ThreadId} (hid : id ≠ signed.thread) :
    (registry.withBlock signed.thread signed.id).find? id = registry.find? id := by
  rw [Registry.find?_withBlock]
  cases hfound : registry.find? id with
  | none => rfl
  | some entry =>
      have hentry : entry.id ≠ signed.thread := (Registry.find?_eq_some hfound).2 ▸ hid
      simp [hentry]

theorem find?_withBlock_self {entry : ThreadEntry}
    (hfound : registry.find? signed.thread = some entry) :
    (registry.withBlock signed.thread signed.id).find? signed.thread =
      some { entry with chain := entry.chain ++ [signed.id] } := by
  rw [Registry.find?_withBlock, hfound, Option.map_some, if_pos (Registry.find?_eq_some hfound).2]

theorem oneThread_withBlock {entry : ThreadEntry}
    (hfound : registry.find? signed.thread = some entry) (hfresh : signed.id ∉ entry.chain)
    (hnames : signed.id.Names signed.data) :
    signed.OneThread registry (registry.withBlock signed.thread signed.id) := by
  constructor
  · rw [hfound, find?_withBlock_self hfound]
    exact .extended hfresh hnames
  · exact fun id hid => find?_withBlock_other hid

theorem oneThread_withThread_withBlock (huntracked : registry.find? signed.thread = none)
    (hnamed : ThreadId.ofKey key.publicKey = signed.thread) (hnames : signed.id.Names signed.data) :
    signed.OneThread registry
      ((registry.withThread signed.threadName key).withBlock signed.thread signed.id) := by
  have hfollowed := oneThread_withThread huntracked hnamed
  have hfound : (registry.withThread signed.threadName key).find? signed.thread =
      some ⟨signed.thread, ⟨signed.threadName, key⟩, []⟩ := by
    rw [Registry.find?_withThread (hnamed ▸ huntracked), if_pos hnamed, hnamed]
  constructor
  · rw [huntracked, find?_withBlock_self hfound]
    exact .joined hnamed hnames
  · intro id hid
    rw [find?_withBlock_other hid, hfollowed.others id hid]

end SignedBlock

/-! ## Changes of a node -/

namespace Node

/-- What arriving bytes can do to a node: nothing, or one thing that the sender of the innermost
envelope in them may do. -/
inductive Change (row : String) (raw : Bytes) (node : Node) : Node → Prop where
  /-- Nothing has changed. -/
  | nothing : Change row raw node node
  /-- The sender has taken back the pointer that is kept for it and names it as its canceller. -/
  | retracted {envelope : Envelope} {bytes : Bytes} {pointers : PointerTable}
      {held : PointerRow} {pointer : Pointer}
      (innermost : Envelope.innermost? node.identity raw = some envelope)
      (message : envelope.message = .ofPayload (.offlineAck bytes))
      (table : node.db.pointers = some pointers)
      (found : pointers.find? (PeerId.ofKey envelope.senderKey).bytes = some held)
      (decoded : held.decode = .ok pointer)
      (authorized : pointer.cancel = some (.ofKey envelope.senderKey)) :
      Change row raw node { node with
        db := { node.db with
          pointers := some (pointers.erase (PeerId.ofKey envelope.senderKey).bytes) } }
  /-- A block has been stored under the hash of its content. -/
  | stored {envelope : Envelope} {text : String} {data : Bytes}
      (innermost : Envelope.innermost? node.identity raw = some envelope)
      (message : envelope.message = .ofPayload (.block text data))
      (named : Cid.parse? text = some (.ofData data)) :
      Change row raw node { node with
        blocks := { node.blocks with
          blocks := (.ofData data, data) ::
            node.blocks.blocks.filter fun block => !(block.1 == .ofData data) } }
  /-- One thread, the one that a signed block names, has been created or extended. -/
  | threaded {envelope : Envelope} {signed : SignedBlock} {threads : Registry}
      {members : Option MemberTable}
      (innermost : Envelope.innermost? node.identity raw = some envelope)
      (message : envelope.message = .ofPayload (.threadBlock signed))
      (thread : signed.OneThread node.threads threads)
      (member : signed.OneMember row node.db.members members) :
      Change row raw node { node with threads, db := { node.db with members } }

/-- The innermost envelope holds an invitation. -/
def BringsInvitation (self : Keypair) (raw : Bytes) : Prop :=
  ∃ envelope signed block, Envelope.innermost? self raw = some envelope ∧
    envelope.message = .ofPayload (.threadBlock signed) ∧ signed.block = .ok block ∧
      block.kind = .invite

end Node

namespace LocalState

variable {self : Keypair} {row : String} {raw : Bytes} {state next noted : LocalState}
  {sender : PeerId} {message : Message} {signed : SignedBlock}

/-! ## What the effects are -/

theorem authorizeAck_eq_ok_iff {db : Database} :
    authorizeAck db sender = .ok () ↔
      ∃ pointers held pointer, db.pointers = some pointers ∧
        pointers.find? sender.bytes = some held ∧ held.decode = .ok pointer ∧
          pointer.cancel = some sender := by
  simp only [authorizeAck, Database.pointer?, bind_eq_ok_iff, mapError_eq_ok_iff,
    Database.require_eq_ok_iff]
  constructor
  · rintro ⟨found, ⟨pointers, htable, hfound⟩, hcancel⟩
    cases hheld : pointers.find? sender.bytes with
    | none =>
        rw [hheld] at hfound
        cases pure_eq_ok_iff.mp hfound
        cases hcancel
    | some held =>
        rw [hheld] at hfound
        obtain ⟨pointer, hdecode, hpointer⟩ := bind_eq_ok_iff.mp hfound
        cases pure_eq_ok_iff.mp hpointer
        refine ⟨pointers, held, pointer, htable, hheld, hdecode, ?_⟩
        by_contra hne
        simp [hne] at hcancel
  · rintro ⟨pointers, held, pointer, htable, hheld, hdecode, hcancel⟩
    refine ⟨some pointer, ⟨pointers, htable, ?_⟩, by simp [hcancel]⟩
    rw [hheld]
    exact bind_eq_ok_iff.mpr ⟨pointer, hdecode, rfl⟩

theorem deletePointer_of_found {db : Database} {pointers : PointerTable} {held : PointerRow}
    (htable : db.pointers = some pointers) (hfound : pointers.find? sender.bytes = some held) :
    db.deletePointer sender =
      .ok (true, { db with pointers := some (pointers.erase sender.bytes) }) := by
  simp only [Database.deletePointer, htable, Database.require, bind, Except.bind, hfound]
  rfl

/-- Noting a member adds one row, under a new name. -/
theorem oneMember_of_noted (h : state.addMember (signed.inviter row) = .ok noted) :
    ∃ members, noted = { state with db := { state.db with members } } ∧
      signed.OneMember row state.db.members members := by
  obtain ⟨-, db, hadd, rfl⟩ := addMember_eq_ok_iff.mp h
  obtain ⟨table, htable, -, hname, rfl⟩ := Database.addMember_eq_ok_iff.mp hadd
  refine ⟨_, rfl, ?_⟩
  rw [htable]
  exact .added (Table.perm_rows_put hname)

/-- Applying a block changes the thread that it names, if anything. -/
theorem apply_change (hkeyed : state.threads.Keyed) :
    (state.apply self row signed).2 = state ∨
      ∃ threads members, signed.OneThread state.threads threads ∧
        signed.OneMember row state.db.members members ∧
          (state.apply self row signed).2 =
            { state with threads, db := { state.db with members } } := by
  have houtcome := apply_outcome self row signed state
  generalize (state.apply self row signed).1 = result at houtcome
  generalize (state.apply self row signed).2 = final at houtcome ⊢
  cases houtcome with
  | refused => exact .inl rfl
  | stranded huntracked hinvites =>
      exact .inr ⟨_, _, SignedBlock.oneThread_withThread huntracked hinvites.thread, .same, rfl⟩
  | misnamed huntracked hinvites hadded =>
      obtain ⟨members, rfl, hmember⟩ := oneMember_of_noted hadded
      exact .inr ⟨_, members, SignedBlock.oneThread_withThread huntracked hinvites.thread, hmember,
        rfl⟩
  | joined huntracked hinvites hadded hnames =>
      obtain ⟨members, rfl, hmember⟩ := oneMember_of_noted hadded
      exact .inr ⟨_, members,
        SignedBlock.oneThread_withThread_withBlock huntracked hinvites.thread hnames, hmember, rfl⟩
  | @extended thread entry hknown hextends hfound hfresh hnames =>
      -- the thread stands under the name that the block gives, so that is the one that grows
      rw [hkeyed.id_of_lookup (find?_of_lookup hknown)] at hfound ⊢
      exact .inr ⟨_, _, SignedBlock.oneThread_withBlock hfound hfresh hnames, .same, rfl⟩

/-- A block that fails leaves everything as it was, unless it is an invitation. -/
theorem apply_failed {reason : ProtocolError}
    (hfailed : (state.apply self row signed).1 = .error reason)
    (hcontent : ∀ block, signed.block = .ok block → block.kind ≠ .invite) :
    (state.apply self row signed).2 = state := by
  have houtcome := apply_outcome self row signed state
  rw [hfailed] at houtcome
  generalize (state.apply self row signed).2 = final at houtcome ⊢
  have hnone : ∀ key, ¬ Invites self signed key := by
    rintro key ⟨⟨block, hblock, hkind, -⟩, -⟩
    exact hcontent block hblock hkind
  cases houtcome with
  | refused => rfl
  | misnamed _ hinvites => exact absurd hinvites (hnone _)
  | stranded _ hinvites => exact absurd hinvites (hnone _)

/-! ## Nothing changes where something is reported -/

/-- An outcome is silent, or it leaves the state as it was, or a block that was brought has
failed. -/
def Settled (self : Keypair) (row : String) (brought : PeerId → Message → Prop)
    (state : LocalState) (outcome : Reply × LocalState) : Prop :=
  outcome.1 = .ok none ∨ outcome.2 = state ∨
    ∃ sender signed reason, brought sender (.ofPayload (.threadBlock signed)) ∧
      state.apply self row signed = (.error reason, outcome.2)

variable {brought : PeerId → Message → Prop}

theorem settle_settled (outcome : Except ProtocolError LocalState) :
    Settled self row brought state (state.settle outcome) := by
  cases outcome with
  | ok next => exact .inl rfl
  | error reason => exact .inr (.inl rfl)

theorem applied_settled (hcause : brought sender (.ofPayload (.threadBlock signed))) :
    Settled self row brought state
      ((state.apply self row signed).1.map fun _ => none, (state.apply self row signed).2) := by
  cases hresult : (state.apply self row signed).1 with
  | ok done => exact .inl rfl
  | error reason => exact .inr (.inr ⟨sender, signed, reason, hcause, by rw [← hresult]⟩)

theorem dispatchWith_settled {relay : LocalState → Bytes → Reply × LocalState}
    (hcause : brought sender message)
    (hrelay : ∀ ciphertext, message = .ofPayload (.offlineRelay ciphertext) →
      Settled self row brought state (relay state ciphertext)) :
    Settled self row brought state (dispatchWith relay self row sender state message) := by
  obtain ⟨tag, payload⟩ := message
  unfold dispatchWith
  cases hkind : MessageType.ofTag? tag with
  | none => exact .inl rfl
  | some kind =>
      obtain rfl := MessageType.ofTag?_eq_some_iff.mp hkind
      cases payload with
      | none => exact .inr (.inl rfl)
      | some payload =>
          cases kind <;> cases payload <;> first
            | exact .inr (.inl rfl)
            | exact applied_settled hcause
            | exact settle_settled _
            | exact hrelay _ rfl

theorem handleRelay_settled {ciphertext : Bytes}
    (hcause : ∀ plaintext sender message, self.openBox ciphertext = .ok plaintext →
      Envelope.authenticate plaintext = .ok (sender, message) → brought sender message) :
    Settled self row brought state (handleRelay self row state ciphertext) := by
  unfold handleRelay
  cases hopen : openRelay self ciphertext with
  | error reason => exact .inr (.inl rfl)
  | ok opened =>
      obtain ⟨sender, message⟩ := opened
      simp only [openRelay, bind_eq_ok_iff, mapError_eq_ok_iff] at hopen
      obtain ⟨plaintext, hbox, hinner⟩ := hopen
      have hsettled : Settled self row brought state
          (dispatchRelayed self row sender state message) :=
        dispatchWith_settled (hcause plaintext sender message hbox hinner) fun _ _ => .inr (.inl rfl)
      rcases hsettled with hsilent | hrest
      · refine .inl ?_
        show (dispatchRelayed self row sender state message).1.map (fun _ => none) = .ok none
        rw [hsilent]
        rfl
      · exact .inr hrest

theorem receive_settled (self : Keypair) (row : String) (state : LocalState) (raw : Bytes) :
    Settled self row (Brings self raw) state (receive self row state raw) := by
  unfold receive
  cases hopen : Envelope.authenticate raw with
  | error fault => exact .inr (.inl rfl)
  | ok opened =>
      obtain ⟨sender, message⟩ := opened
      have hsettled : Settled self row (Brings self raw) state
          (dispatch self row ⟨sender, false⟩ state message) := by
        refine dispatchWith_settled (.inl hopen) fun ciphertext hmessage => ?_
        subst hmessage
        exact handleRelay_settled fun plaintext inner message hbox hinner =>
          .inr ⟨sender, ciphertext, plaintext, hopen, hbox, hinner⟩
      rcases hsettled with hsilent | hrest
      · refine .inl ?_
        show answer message (dispatch self row ⟨sender, false⟩ state message).1 = .ok none
        rw [hsilent]
        rfl
      · exact .inr hrest

end LocalState

/-! ## Bytes that arrive at a node -/

namespace Node

variable (node : Node) (row : String) (raw : Bytes)

theorem carried?_ofPayload {payload : Payload} (h : ∀ ciphertext, payload ≠ .offlineRelay ciphertext) :
    Envelope.carried? (.ofPayload payload) = none := by
  rw [Option.eq_none_iff_forall_ne_some]
  intro ciphertext hcarried
  have hmessage := Envelope.carried?_eq_some_iff.mp hcarried
  exact h ciphertext (Option.some.inj (congrArg Message.payload hmessage))

/-- Bytes make at most one change, and its author is the sender of the innermost envelope. -/
theorem receive_change (hkeyed : node.threads.Keyed) :
    Change row raw node (node.receive row raw).2 := by
  have heffect := LocalState.receive_effect node.identity row node.localState raw
  show Change row raw node (node.withLocalState
    (LocalState.receive node.identity row node.localState raw).2)
  generalize (LocalState.receive node.identity row node.localState raw).2 = final at heffect ⊢
  cases heffect with
  | nothing => exact .nothing
  | @applied sender signed hbrings =>
      obtain ⟨envelope, hinnermost, -, hmessage⟩ :=
        Envelope.innermost?_of_brings hbrings (carried?_ofPayload (by simp))
      have hkeyed : node.localState.threads.Keyed := hkeyed
      rcases LocalState.apply_change hkeyed with hsame | ⟨threads, members, hthread, hmember, hafter⟩
      · rw [hsame]
        exact .nothing
      · rw [hafter]
        exact .threaded hinnermost hmessage hthread hmember
  | @retracted sender bytes existed db hbrings hauthorized hdeleted =>
      obtain ⟨envelope, hinnermost, rfl, hmessage⟩ :=
        Envelope.innermost?_of_brings hbrings (carried?_ofPayload (by simp))
      obtain ⟨pointers, held, pointer, htable, hfound, hdecode, hcancel⟩ :=
        LocalState.authorizeAck_eq_ok_iff.mp hauthorized
      rw [LocalState.deletePointer_of_found htable hfound] at hdeleted
      cases hdeleted
      exact .retracted hinnermost hmessage htable hfound hdecode hcancel
  | @stored sender text data cid blocks hbrings hparsed hnames hput =>
      obtain ⟨envelope, hinnermost, -, hmessage⟩ :=
        Envelope.innermost?_of_brings hbrings (carried?_ofPayload (by simp))
      have hblocks : blocks = { node.blocks with
          blocks := (cid, data) :: node.blocks.blocks.filter fun block => !(block.1 == cid) } := by
        have hput : node.blocks.put cid data = .ok blocks := hput
        unfold BlockStore.put at hput
        split at hput
        · cases hput
        · exact (Except.ok.inj hput).symm
      obtain rfl : Cid.ofData data = cid := hnames
      rw [hblocks]
      exact .stored hinnermost hmessage hparsed

/-- Where there is anything to report, nothing has changed, unless it is about an invitation. -/
theorem receive_reported (hreported : (node.receive row raw).1 ≠ .ok none)
    (hcontent : ¬ BringsInvitation node.identity raw) : (node.receive row raw).2 = node := by
  have hsettled := LocalState.receive_settled node.identity row node.localState raw
  suffices hsame : (LocalState.receive node.identity row node.localState raw).2 =
      node.localState by
    show node.withLocalState (LocalState.receive node.identity row node.localState raw).2 = node
    rw [hsame]
    rfl
  rcases hsettled with hsilent | hsame | ⟨sender, signed, reason, hbrings, happly⟩
  · refine absurd ?_ hreported
    show ((LocalState.receive node.identity row node.localState raw).1).mapError _ = _
    rw [hsilent]
    rfl
  · exact hsame
  · obtain ⟨envelope, hinnermost, -, hmessage⟩ :=
      Envelope.innermost?_of_brings hbrings (carried?_ofPayload (by simp))
    have hfailed := LocalState.apply_failed (congrArg Prod.fst happly) fun block hblock hkind =>
      hcontent ⟨envelope, signed, block, hinnermost, hmessage, hblock, hkind⟩
    rw [happly] at hfailed
    exact hfailed

/-- **What arriving bytes can change**, and that a failure changes nothing unless it is that of an
invitation. -/
theorem receive_frame (hkeyed : node.threads.Keyed) :
    Change row raw node (node.receive row raw).2 ∧
      ((node.receive row raw).1 ≠ .ok none → ¬ BringsInvitation node.identity raw →
        (node.receive row raw).2 = node) :=
  ⟨receive_change node row raw hkeyed, receive_reported node row raw⟩

/-! ### A pointer that is taken back -/

/-- The pointer kept for the owner of the key that any data verifies with, who may take it back. -/
def anonymousPointer : Pointer :=
  ⟨.ofKey (1 :: List.replicate 31 0), "relay", some (.ofKey (1 :: List.replicate 31 0)), 0⟩

/-- A node that keeps the pointer. -/
def pointerKeeper : Node :=
  { relayRecipient with
    db := { Database.empty with pointers := some (Table.empty.put anonymousPointer.toRow) } }

/-- The acknowledgement of the pointer's owner. -/
def anonymousAck : Bytes := (anonymous (.ofPayload (.ackFor anonymousPointer.peer))).toBytes

/-- The acknowledgement takes back the pointer and nothing else. -/
theorem pointerKeeper_frame :
    pointerKeeper.threads.Keyed ∧
    (pointerKeeper.receive "row" anonymousAck).2.db.pointers.map Table.size = some 0 ∧
    Change "row" anonymousAck pointerKeeper (pointerKeeper.receive "row" anonymousAck).2 ∧
    ((pointerKeeper.receive "row" anonymousAck).1 ≠ .ok none →
      ¬ BringsInvitation pointerKeeper.identity anonymousAck →
        (pointerKeeper.receive "row" anonymousAck).2 = pointerKeeper) := by
  have hkeyed : pointerKeeper.threads.Keyed := Registry.Keyed.empty
  have hgone : (pointerKeeper.receive "row" anonymousAck).2.db.pointers.map Table.size = some 0 := by
    decide +kernel
  exact ⟨hkeyed, hgone, receive_frame pointerKeeper "row" anonymousAck hkeyed⟩

end Node

end PeerMail
