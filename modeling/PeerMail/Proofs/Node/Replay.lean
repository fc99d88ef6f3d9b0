import PeerMail.Proofs.Inbound.Authority
import PeerMail.Proofs.Node.Runs
import PeerMail.Proofs.Thread.Repetition

/-!
# Bytes that arrive again

Bytes may be delivered more than once, by a sender who got no answer or by somebody who
has kept a copy.  `receive_again` says that this does no harm: receiving bytes twice in a
row is receiving them once, and a thread block that was applied is refused from then on,
for the reason that its kind decides, and changes nothing.

What bytes do to a node depends on the innermost envelope in them and on nothing else
(`receive_innermost`).  So the first half is that every handler does nothing the second
time, and the second half is `LocalState.apply_repeated` together with the fact that no
event takes a thread or a block away (`run_grows`).
-/

namespace PeerMail

namespace LocalState

variable {self : Keypair} {row row' : String} {raw : Bytes} {state next : LocalState}
  {sender : PeerId} {message : Message} {fault : WireError}

/-! ## The innermost envelope decides -/

theorem verified?_of_unopened (h : Envelope.authenticate raw = .error fault) :
    Envelope.verified? raw = none := by
  rw [Option.eq_none_iff_forall_ne_some]
  intro envelope hverified
  have hopened := Envelope.authenticate_eq_ok_iff.mpr ⟨envelope, hverified, rfl, rfl⟩
  rw [h] at hopened
  cases hopened

/-- A message that carries no sealed envelope is handled alike whether it was relayed or not. -/
theorem dispatch_of_last (hlast : Envelope.carried? message = none) :
    (dispatch self row ⟨sender, false⟩ state message).2 =
      (dispatchRelayed self row sender state message).2 := by
  by_cases htag : message.tag = MessageType.offlineRelay.tag
  · rw [dispatchRelayed_of_relay htag]
    obtain ⟨tag, payload⟩ := message
    obtain rfl : tag = MessageType.offlineRelay.tag := htag
    cases payload with
    | none => rfl
    | some payload => cases payload <;> first | rfl | simp [Envelope.carried?] at hlast
  · rw [dispatchRelayed_eq_dispatch htag]

/-- Bytes change what the message of the innermost envelope in them changes. -/
theorem receive_innermost (self : Keypair) (row : String) (state : LocalState) (raw : Bytes) :
    (receive self row state raw).2 =
      match Envelope.innermost? self raw with
      | none => state
      | some envelope =>
          (dispatchRelayed self row (.ofKey envelope.senderKey) state envelope.message).2 := by
  cases hopened : Envelope.authenticate raw with
  | error fault =>
      rw [receive_of_unopened self row state hopened]
      simp [Envelope.innermost?, verified?_of_unopened hopened]
  | ok opened =>
      obtain ⟨sender, message⟩ := opened
      obtain ⟨outer, houter, rfl, rfl⟩ := Envelope.authenticate_eq_ok_iff.mp hopened
      cases hcarried : Envelope.carried? outer.message with
      | none =>
          rw [receive_of_opened self row state hopened, dispatch_of_last hcarried]
          simp [Envelope.innermost?, houter, hcarried]
      | some ciphertext =>
          have hrelay := Envelope.carried?_eq_some_iff.mp hcarried
          rw [hrelay] at hopened
          cases hbox : self.openBox ciphertext with
          | error fault =>
              rw [receive_of_opened self row state hopened]
              simp [Envelope.innermost?, houter, hcarried, hbox, dispatch, dispatchWith,
                Message.ofPayload, Payload.kind, handleRelay, openRelay, Except.mapError, bind,
                Except.bind, Except.toOption]
          | ok plaintext =>
              cases hinner : Envelope.authenticate plaintext with
              | error fault =>
                  rw [receive_relay_of_unopened row state hbox hopened hinner]
                  simp [Envelope.innermost?, houter, hcarried, hbox, Except.toOption,
                    verified?_of_unopened hinner]
              | ok inner =>
                  obtain ⟨sender, message⟩ := inner
                  obtain ⟨envelope, hverified, rfl, rfl⟩ :=
                    Envelope.authenticate_eq_ok_iff.mp hinner
                  rw [receive_relay_of_opened row state hbox hopened hinner]
                  simp [Envelope.innermost?, houter, hcarried, hbox, hverified, Except.toOption]

/-! ## Handlers the second time -/

/-- A pointer that was taken back is not there to be taken back again. -/
theorem handleAck_again {bytes : Bytes} (h : state.handleAck sender bytes = .ok next) :
    ∃ reason, next.handleAck sender bytes = .error reason := by
  simp only [handleAck, bind_eq_ok_iff, mapError_eq_ok_iff] at h
  obtain ⟨_, -, _, hauthorized, ⟨existed, db⟩, hdeleted, hnext⟩ := h
  obtain rfl := pure_eq_ok_iff.mp hnext
  obtain ⟨pointers, held, pointer, htable, hfound, -, -⟩ := authorizeAck_eq_ok_iff.mp hauthorized
  rw [deletePointer_of_found htable hfound] at hdeleted
  cases hdeleted
  cases hagain : ({ state with db := { state.db with
      pointers := some (pointers.erase sender.bytes) } } : LocalState).handleAck sender bytes with
  | error reason => exact ⟨reason, rfl⟩
  | ok last =>
      simp only [handleAck, bind_eq_ok_iff] at hagain
      obtain ⟨_, -, _, hauthorized', -⟩ := hagain
      obtain ⟨erased, held', -, herased, hfound', -, -⟩ := authorizeAck_eq_ok_iff.mp hauthorized'
      obtain rfl := Option.some.inj herased
      obtain ⟨hmem, hkey⟩ := Table.find?_eq_some_iff.mp hfound'
      simp [Table.erase, hkey] at hmem

/-- A block that was stored is stored in its own place. -/
theorem handleBlock_again {text : String} {data : Bytes}
    (h : state.handleBlock text data = .ok next) : next.handleBlock text data = .ok next := by
  unfold handleBlock at h ⊢
  cases hparse : Cid.parse? text with
  | none => simp [hparse] at h
  | some cid =>
      simp only [hparse] at h ⊢
      by_cases hnames : cid.Names data
      · rw [if_pos hnames] at h ⊢
        obtain ⟨blocks, hput, hnext⟩ := bind_eq_ok_iff.mp h
        obtain rfl := pure_eq_ok_iff.mp hnext
        obtain ⟨hwritable, rfl⟩ := BlockStore.put_eq_ok_iff.mp (mapError_eq_ok_iff.mp hput)
        refine bind_eq_ok_iff.mpr ⟨_, mapError_eq_ok_iff.mpr
          (BlockStore.put_eq_ok_iff.mpr ⟨hwritable, rfl⟩), ?_⟩
        simp [pure, Except.pure, List.filter_filter]
      · rw [if_neg hnames] at h
        cases h

/-- A message that is handled twice is handled once. -/
theorem dispatchRelayed_again (hrow : state.Unused row)
    (hrow' : (dispatchRelayed self row sender state message).2.Unused row') :
    (dispatchRelayed self row' sender (dispatchRelayed self row sender state message).2 message).2 =
      (dispatchRelayed self row sender state message).2 := by
  obtain ⟨tag, payload⟩ := message
  unfold dispatchRelayed dispatchWith at hrow' ⊢
  cases hkind : MessageType.ofTag? tag with
  | none => rfl
  | some kind =>
      cases payload with
      | none => rfl
      | some payload =>
          simp only [hkind] at hrow'
          cases kind <;> cases payload <;> try rfl
          case threadBlock.threadBlock signed => exact apply_twice hrow hrow'
          case offlineAck.offlineAck bytes =>
              cases hfirst : state.handleAck sender bytes with
              | error reason => simp [hfirst, settle]
              | ok next =>
                  obtain ⟨reason, hagain⟩ := handleAck_again hfirst
                  simp [settle, hagain, hfirst]
          case block.block text data =>
              cases hfirst : state.handleBlock text data with
              | error reason => simp [hfirst, settle]
              | ok next => simp [settle, handleBlock_again hfirst, hfirst]

/-- Bytes that are received twice in a row are received once. -/
theorem receive_twice (hrow : state.Unused row)
    (hrow' : (receive self row state raw).2.Unused row') :
    (receive self row' (receive self row state raw).2 raw).2 = (receive self row state raw).2 := by
  rw [receive_innermost self row'] at *
  rw [receive_innermost self row] at *
  cases hinnermost : Envelope.innermost? self raw with
  | none => rfl
  | some envelope =>
      rw [hinnermost] at hrow'
      exact dispatchRelayed_again hrow hrow'

/-! ## Blocks that were applied -/

/-- A block that is brought is applied. -/
theorem receive_of_brought {signed : SignedBlock}
    (hbrings : Brings self raw sender (.ofPayload (.threadBlock signed))) :
    (receive self row state raw).2 = (state.apply self row signed).2 := by
  obtain ⟨envelope, hinnermost, -, hmessage⟩ :=
    Envelope.innermost?_of_brings hbrings (Node.carried?_ofPayload (by simp))
  rw [receive_innermost, hinnermost]
  show (dispatchRelayed self row _ state envelope.message).2 = _
  rw [hmessage]
  rfl

/-- Receiving bytes switches no fault on or off. -/
theorem receive_faults (self : Keypair) (row : String) (state : LocalState) (raw : Bytes) :
    (receive self row state raw).2.faults = state.faults := by
  have heffect := receive_effect self row state raw
  generalize (receive self row state raw).2 = final at heffect ⊢
  cases heffect with
  | applied => exact apply_faults self row _ state
  | nothing | retracted | stored => rfl

end LocalState

namespace Node

variable {node : Node} {row row' : String} {raw : Bytes} {state : LocalState}

theorem localState_withLocalState (h : state.faults = node.faults) :
    (node.withLocalState state).localState = state := by
  cases state
  cases h
  rfl

theorem snd_receive (node : Node) (row : String) (raw : Bytes) : (node.receive row raw).2 =
    node.withLocalState (LocalState.receive node.identity row node.localState raw).2 := rfl

/-- No event gives a node another key or hides its threads from it. -/
theorem after_frame (node : Node) (event : Event) :
    (node.after event).identity = node.identity ∧
      (node.after event).faults.lookupHidden = node.faults.lookupHidden := by
  have hdatabase : ∀ outcome, (node.withDatabase outcome).identity = node.identity ∧
      (node.withDatabase outcome).faults.lookupHidden = node.faults.lookupHidden := by
    rintro (fault | db) <;> exact ⟨rfl, rfl⟩
  cases event with
  | send id now peer message =>
      cases hsend : node.send id now peer message with
      | ok next =>
          have hnext := hsend
          simp only [send, bind_eq_ok_iff, mapError_eq_ok_iff, pure_eq_ok_iff] at hnext
          obtain ⟨db, -, rfl⟩ := hnext
          simp [after, hsend]
      | error fault => simp [after, hsend]
  | setInboxes | addPointer | queueDeletes => exact hdatabase _
  | receive | flush | blockWrites | memberWrites | network => exact ⟨rfl, rfl⟩

theorem run_frame (node : Node) (events : List Event) :
    (node.run events).identity = node.identity ∧
      (node.run events).faults.lookupHidden = node.faults.lookupHidden := by
  induction events generalizing node with
  | nil => exact ⟨rfl, rfl⟩
  | cons event rest ih =>
      obtain ⟨hidentity, hlookup⟩ := after_frame node event
      obtain ⟨hidentity', hlookup'⟩ := ih (node.after event)
      exact ⟨hidentity'.trans hidentity, hlookup'.trans hlookup⟩

/-- A block that was applied is refused when the same bytes arrive again, with a notice in place
of the reason if they are a relay message. -/
theorem receive_applied {sender : PeerId} {signed : SignedBlock} {reason : ProtocolError}
    (hbrings : Brings node.identity raw sender (.ofPayload (.threadBlock signed)))
    (hrefused : node.localState.apply node.identity row signed = (.error reason, node.localState)) :
    (Envelope.authenticate raw = .ok (sender, .ofPayload (.threadBlock signed)) ∧
        node.receive row raw = (.error (.protocol reason), node)) ∨
      ((∃ carrier ciphertext,
          Envelope.authenticate raw = .ok (carrier, .ofPayload (.offlineRelay ciphertext))) ∧
        node.receive row raw = (.ok (some (.failure reason.code reason.message)), node)) := by
  have hhandled : LocalState.dispatchRelayed node.identity row sender node.localState
      (.ofPayload (.threadBlock signed)) = (.error reason, node.localState) := by
    show ((node.localState.apply node.identity row signed).1.map fun _ => none,
      (node.localState.apply node.identity row signed).2) = _
    rw [hrefused]
    rfl
  rcases hbrings with hdirect | ⟨carrier, ciphertext, plaintext, hraw, hbox, hinner⟩
  · refine .inl ⟨hdirect, ?_⟩
    have hreceived := LocalState.receive_of_opened node.identity row node.localState hdirect
    have htag : MessageType.threadBlock.tag ≠ MessageType.offlineRelay.tag := by decide
    rw [← LocalState.dispatchRelayed_eq_dispatch htag, hhandled] at hreceived
    simp only [receive, hreceived]
    rfl
  · refine .inr ⟨⟨carrier, ciphertext, hraw⟩, ?_⟩
    have hreceived := LocalState.receive_relay_of_opened row node.localState hbox hraw hinner
    rw [hhandled] at hreceived
    simp only [receive, hreceived]
    rfl

/-- **Bytes that arrive again do no harm.**  Received twice in a row they are received once.  If
they brought a thread block that was applied, then whatever has happened since, they are refused
and change nothing: an invitation because its thread exists, content because its thread holds it,
with an error if they came directly and with a notice of it if they were relayed. -/
theorem receive_again (node : Node) (row row' : String) (raw : Bytes) :
    (node.localState.Unused row → (node.receive row raw).2.localState.Unused row' →
      ((node.receive row raw).2.receive row' raw).2 = (node.receive row raw).2) ∧
    ∀ sender signed, Brings node.identity raw sender (.ofPayload (.threadBlock signed)) →
      (node.localState.apply node.identity row signed).1 = .ok () →
      ∀ events later, (node.receive row raw).2.run events = later →
        ∃ reason, signed.Repetition later.threads reason ∧
        ((Envelope.authenticate raw = .ok (sender, .ofPayload (.threadBlock signed)) ∧
            later.receive row' raw = (.error (.protocol reason), later)) ∨
          ((∃ carrier ciphertext,
              Envelope.authenticate raw = .ok (carrier, .ofPayload (.offlineRelay ciphertext))) ∧
            later.receive row' raw =
              (.ok (some (.failure reason.code reason.message)), later))) := by
  constructor
  · intro hrow hrow'
    have hfaults := LocalState.receive_faults node.identity row node.localState raw
    rw [snd_receive, localState_withLocalState hfaults] at hrow'
    rw [snd_receive, snd_receive, localState_withLocalState hfaults]
    exact congrArg node.withLocalState (LocalState.receive_twice hrow hrow')
  · intro sender signed hbrings happlied events later hlater
    have hstate : (LocalState.receive node.identity row node.localState raw).2 =
        (node.localState.apply node.identity row signed).2 := LocalState.receive_of_brought hbrings
    have hgrows := run_grows (node.receive row raw).2 events
    obtain ⟨hidentity, hlookup⟩ := run_frame (node.receive row raw).2 events
    rw [hlater] at hgrows hidentity hlookup
    rcases happly : node.localState.apply node.identity row signed with ⟨result, final⟩
    obtain rfl : result = .ok () := by rwa [happly] at happlied
    -- the registry after the block was applied is the one that has been kept since
    have hkept : final.threads.Kept later.localState.threads := by
      have hfinal : (node.receive row raw).2.threads = final.threads := by
        rw [snd_receive, hstate, happly]
        rfl
      exact hfinal ▸ hgrows.threads
    obtain ⟨reason, hreason, hrefused⟩ := LocalState.apply_repeated happly hkept hlookup row'
    have hidentity : later.identity = node.identity := hidentity
    rw [← hidentity] at hbrings hrefused
    exact ⟨reason, hreason, receive_applied hbrings hrefused⟩

/-! ### An invitation that arrives again -/

/-- The database of the node that has accepted the invitation. -/
def invitedDatabase : Database :=
  { Database.empty with members := some (Table.empty.put (namedInvitation.inviter "row").toRow) }

theorem invitedNode_applied :
    invitedNode.localState.apply invitedNode.identity "row" namedInvitation =
      (.ok (), ⟨(Registry.withThread .empty namedInvitation.threadName exampleThreadKey).withBlock
        namedInvitation.thread namedInvitation.id, invitedDatabase, .empty, {}⟩) := by
  have huntracked : invitedNode.localState.threads.find? namedInvitation.thread = none := rfl
  have hnoted : invitedNode.localState.addMember (namedInvitation.inviter "row") =
      .ok ⟨.empty, invitedDatabase, .empty, {}⟩ := rfl
  have hnames : namedInvitation.id.Names namedInvitation.data := rfl
  rw [show invitedNode.identity = exampleInvitee from rfl,
    LocalState.apply_eq_of_noted (LocalState.lookup_eq_none huntracked) namedInvitation_invites
      huntracked hnoted, if_pos hnames]
  rfl

/-- The node accepts the invitation once, and refuses it when it has flushed its queue. -/
theorem invitation_again :
    invitedNode.localState.Unused "row" ∧
    (invitedNode.receive "row" invitationBytes).2.localState.Unused "other" ∧
    (invitedNode.localState.apply invitedNode.identity "row" namedInvitation).1 = .ok () ∧
    ((invitedNode.receive "row" invitationBytes).2.receive "other" invitationBytes).2 =
      (invitedNode.receive "row" invitationBytes).2 ∧
    (((invitedNode.receive "row" invitationBytes).2.run [.flush]).receive "other"
      invitationBytes).1 = .error (.protocol (.admission .threadAlreadyExists)) := by
  have hrow : invitedNode.localState.Unused "row" := by
    rintro _ ⟨⟩
    rfl
  have hbrings : Brings invitedNode.identity invitationBytes (.ofKey (1 :: List.replicate 31 0))
      (.ofPayload (.threadBlock namedInvitation)) := .inl invitationBytes_opened
  have hrow' : (invitedNode.receive "row" invitationBytes).2.localState.Unused "other" := by
    have hstate : (invitedNode.localState.receive invitedNode.identity "row" invitationBytes).2 =
        (invitedNode.localState.apply invitedNode.identity "row" namedInvitation).2 :=
      LocalState.receive_of_brought hbrings
    rw [invitedNode_applied] at hstate
    rw [snd_receive, hstate]
    intro members hmembers
    obtain rfl := Option.some.inj hmembers
    rw [Table.find?_put, if_neg (by decide +kernel)]
    rfl
  have happlied : (invitedNode.localState.apply invitedNode.identity "row" namedInvitation).1 =
      .ok () := by rw [invitedNode_applied]
  obtain ⟨htwice, hlater⟩ := receive_again invitedNode "row" "other" invitationBytes
  refine ⟨hrow, hrow', happlied, htwice hrow hrow', ?_⟩
  obtain ⟨reason, hreason, hrefused⟩ := hlater _ _ hbrings happlied [.flush] _ rfl
  rcases hrefused with ⟨-, hrefused⟩ | ⟨⟨carrier, ciphertext, hrelay⟩, -⟩
  · rw [hrefused]
    obtain ⟨block, hblock, hkind, -⟩ := namedInvitation_invites.block
    cases hreason with
    | invitation => rfl
    | content hdecoded hphoto =>
        obtain rfl := Except.ok.inj (hblock.symm.trans hdecoded)
        rw [hkind] at hphoto
        cases hphoto
  · rw [invitationBytes_opened] at hrelay
    cases hrelay

end Node

end PeerMail
