import Mathlib.Control.Monad.Basic
import PeerMail.Node

/-!
# A relayed envelope is handled like a direct one

An envelope can reach a node over a connection, or sealed inside a relay
envelope that somebody else carries.  `receive_relayed` compares the two: unless
the inner message is a relay message itself, the node ends up in the same state,
and the carrier gets a notice of the very reason for which the inner message
fails when it comes directly.

The two ways share `dispatchWith` and differ in what happens to sealed envelopes,
which only messages of one kind reach (`dispatchWith_congr`).
-/

namespace PeerMail

namespace LocalState

variable {self : Keypair} {row : String} {sender carrier : PeerId} {state : LocalState}
  {message : Message} {raw plaintext ciphertext : Bytes} {fault : WireError}

/-! ## Messages that are not relayed again -/

/-- What happens to sealed envelopes matters for relay messages only. -/
theorem dispatchWith_congr (relay other : LocalState → Bytes → Reply × LocalState)
    (htag : message.tag ≠ MessageType.offlineRelay.tag) :
    dispatchWith relay self row sender state message =
      dispatchWith other self row sender state message := by
  unfold dispatchWith
  cases hkind : MessageType.ofTag? message.tag with
  | none => rfl
  | some kind =>
      have hne : kind ≠ .offlineRelay := by
        rintro rfl
        exact htag (MessageType.ofTag?_eq_some_iff.mp hkind)
      cases message.payload with
      | none => rfl
      | some payload => cases kind <;> cases payload <;> first | rfl | exact absurd rfl hne

theorem dispatchRelayed_eq_dispatch (htag : message.tag ≠ MessageType.offlineRelay.tag) :
    dispatchRelayed self row sender state message =
      dispatch self row ⟨sender, false⟩ state message :=
  dispatchWith_congr _ _ htag

/-! ## Messages that would be relayed again -/

/-- Why a relayed message that is a relay message fails. -/
def relayedAgain : Option Payload → ProtocolError
  | none => .emptyPayload .offlineRelay
  | some (.offlineRelay _) => .nestedRelay
  | some payload => .payloadMismatch .offlineRelay payload.kind

theorem dispatchRelayed_of_relay (htag : message.tag = MessageType.offlineRelay.tag) :
    dispatchRelayed self row sender state message =
      (.error (relayedAgain message.payload), state) := by
  have hkind : MessageType.ofTag? message.tag = some .offlineRelay :=
    MessageType.ofTag?_eq_some_iff.mpr htag
  unfold dispatchRelayed dispatchWith
  rw [hkind]
  cases hpayload : message.payload with
  | none => rfl
  | some payload => cases payload <;> rfl

/-! ## Raw bytes -/

variable (self row state)

theorem receive_of_unopened (h : Envelope.authenticate raw = .error fault) :
    receive self row state raw = (.error (.wire fault), state) := by
  simp [receive, h]

theorem receive_of_opened (h : Envelope.authenticate raw = .ok (sender, message)) :
    receive self row state raw =
      (answer message (dispatch self row ⟨sender, false⟩ state message).1,
        (dispatch self row ⟨sender, false⟩ state message).2) := by
  simp [receive, h]

section Relay

variable {self} (hbox : self.openBox ciphertext = .ok plaintext)
  (hraw : Envelope.authenticate raw = .ok (carrier, .ofPayload (.offlineRelay ciphertext)))

include hbox hraw

theorem receive_relay_of_unopened (h : Envelope.authenticate plaintext = .error fault) :
    receive self row state raw = (.ok (some (ProtocolError.wire fault).notice), state) := by
  have hopen : openRelay self ciphertext = .error (.wire fault) := by
    simp [openRelay, hbox, h, Except.mapError, bind, Except.bind]
  rw [receive_of_opened self row state hraw]
  simp [dispatch, dispatchWith, Message.ofPayload, Payload.kind, handleRelay, hopen, answer,
    answersFailure]

theorem receive_relay_of_opened (h : Envelope.authenticate plaintext = .ok (sender, message)) :
    receive self row state raw =
      (match (dispatchRelayed self row sender state message).1 with
        | .ok _ => .ok none
        | .error reason => .ok (some reason.notice),
        (dispatchRelayed self row sender state message).2) := by
  have hopen : openRelay self ciphertext = .ok (sender, message) := by
    simp [openRelay, hbox, h, Except.mapError, bind, Except.bind]
  rw [receive_of_opened self row state hraw]
  cases hreply : (dispatchRelayed self row sender state message).1 <;>
    simp [dispatch, dispatchWith, Message.ofPayload, Payload.kind, handleRelay, hopen, answer,
      answersFailure, hreply, Except.map]

end Relay

/-- A message that is no relay message is answered with a notice only if it is a request. -/
theorem answer_error (reason : ProtocolError)
    (htag : message.tag ≠ MessageType.offlineRelay.tag) :
    answer message (.error reason) =
      if message.tag = MessageType.store.tag then .ok (some reason.notice) else .error reason := by
  unfold answer
  cases hkind : MessageType.ofTag? message.tag with
  | none =>
      have hne : message.tag ≠ MessageType.store.tag := by
        intro hstore
        rw [hstore, MessageType.ofTag?_tag] at hkind
        cases hkind
      rw [if_neg hne]
  | some kind =>
      have hkind := MessageType.ofTag?_eq_some_iff.mp hkind
      rw [hkind] at htag ⊢
      cases kind <;> simp [answersFailure, MessageType.tag] at htag ⊢

end LocalState

/-! ## Both ways compared -/

namespace Node

variable (node : Node) (row : String) {carrier : PeerId} {raw plaintext ciphertext : Bytes}

/-- **A relayed envelope is handled like a direct one.**  The node is left in the same state, the
inner reply is dropped, and the carrier is told why the inner message fails.  An inner message
that is a relay message itself changes nothing and is refused unopened. -/
theorem receive_relayed (hbox : node.identity.openBox ciphertext = .ok plaintext)
    (hraw : Envelope.authenticate raw = .ok (carrier, .ofPayload (.offlineRelay ciphertext))) :
    (∀ fault, Envelope.authenticate plaintext = .error fault →
      (node.receive row raw).2 = (node.receive row plaintext).2 ∧
      (node.receive row raw).1 = .ok (some (.failure (ProtocolError.wire fault).code
        (ProtocolError.wire fault).message)) ∧
      (node.receive row plaintext).1 = .error (.protocol (.wire fault))) ∧
    (∀ sender message, Envelope.authenticate plaintext = .ok (sender, message) →
      message.tag ≠ MessageType.offlineRelay.tag →
      (node.receive row raw).2 = (node.receive row plaintext).2 ∧
      match (node.dispatch row ⟨sender, false⟩ message).1 with
      | .ok reply =>
          (node.receive row raw).1 = .ok none ∧ (node.receive row plaintext).1 = .ok reply
      | .error reason =>
          (node.receive row raw).1 = .ok (some (.failure reason.code reason.message)) ∧
          (node.receive row plaintext).1 =
            if message.tag = MessageType.store.tag then
              .ok (some (.failure reason.code reason.message))
            else .error (.protocol reason)) ∧
    (∀ sender message, Envelope.authenticate plaintext = .ok (sender, message) →
      message.tag = MessageType.offlineRelay.tag →
      (node.receive row raw).2 = node ∧
      ∃ reason : ProtocolError,
        (node.receive row raw).1 = .ok (some (.failure reason.code reason.message)) ∧
        reason = match message.payload with
          | none => .emptyPayload .offlineRelay
          | some (.offlineRelay _) => .nestedRelay
          | some payload => .payloadMismatch .offlineRelay payload.kind) := by
  refine ⟨fun fault hfault => ?_, fun sender message hopened htag => ?_,
    fun sender message hopened htag => ?_⟩
  · have hrelayed := LocalState.receive_relay_of_unopened row node.localState hbox hraw hfault
    have hdirect := LocalState.receive_of_unopened node.identity row node.localState hfault
    simp only [receive, hrelayed, hdirect, Except.mapError, ProtocolError.notice, and_self]
  · have hrelayed := LocalState.receive_relay_of_opened row node.localState hbox hraw hopened
    have hdirect := LocalState.receive_of_opened node.identity row node.localState hopened
    rw [LocalState.dispatchRelayed_eq_dispatch htag] at hrelayed
    simp only [receive, dispatch, hrelayed, hdirect, true_and]
    -- the two replies differ in the level at which a reason becomes a notice
    cases hreply : (LocalState.dispatch node.identity row ⟨sender, false⟩ node.localState
        message).1 with
    | ok reply => exact ⟨rfl, rfl⟩
    | error reason =>
        refine ⟨rfl, ?_⟩
        rw [LocalState.answer_error reason htag]
        split <;> rfl
  · have hrelayed := LocalState.receive_relay_of_opened row node.localState hbox hraw hopened
    rw [LocalState.dispatchRelayed_of_relay htag] at hrelayed
    simp only [receive, hrelayed]
    exact ⟨rfl, _, rfl, rfl⟩

/-! ### A request that carries nothing -/

theorem length_ones : (List.replicate 32 (1 : UInt8)).length = 32 := rfl

/-- A node that has seen nothing yet. -/
def relayRecipient : Node :=
  ⟨⟨⟨List.replicate 32 1, length_ones⟩⟩, .inMemory, .empty, .fresh false, .fresh, .empty, .empty, {}⟩

/-- A message under the key that any data verifies with. -/
def anonymous (message : Message) : Envelope :=
  ⟨1 :: List.replicate 31 0, message, 1 :: List.replicate 63 0⟩

/-- A request that carries nothing. -/
def emptyRequest : Message := ⟨MessageType.store.tag, none⟩

/-- The request in an envelope, sealed to the node. -/
def sealedRequest : Bytes :=
  [206, 141, 58, 209, 204, 182, 51, 236, 123, 112, 193, 120, 20, 165, 199, 110, 205, 2, 150,
      133, 5, 13, 52, 71, 69, 186, 5, 135, 14, 88, 125, 89] ++
    List.replicate 24 3 ++
    [221, 89, 118, 27, 209, 117, 109, 75, 83, 247, 123, 233, 251, 142, 214, 166, 115, 58, 6,
      110, 35, 104, 99, 77, 106, 86, 223, 114, 94, 68, 59, 184, 189, 8, 240, 126, 242, 36, 204,
      63, 108, 89, 4, 75, 104, 47, 175, 249, 8, 157, 151, 216, 151, 122, 215, 79, 194, 246, 91,
      251, 209, 87, 34, 248, 60, 204, 113, 140, 138, 227, 108, 6, 150, 107, 181, 81, 123, 188, 96,
      194, 146, 128, 212, 125, 143, 0, 198, 85, 51, 74, 202, 123, 163, 6, 206, 97, 72, 220, 63,
      77, 91, 246, 19, 204, 84, 78, 30, 220, 102, 252, 35, 109, 210, 104, 37, 58, 163, 71, 192,
      75, 208, 32]

/-- The carrier gets the notice that the sender would get. -/
theorem relayed_request_answered :
    relayRecipient.identity.openBox sealedRequest = .ok (anonymous emptyRequest).toBytes ∧
    Envelope.authenticate (anonymous (.ofPayload (.offlineRelay sealedRequest))).toBytes =
      .ok (.ofKey (1 :: List.replicate 31 0), .ofPayload (.offlineRelay sealedRequest)) ∧
    (relayRecipient.receive "row"
        (anonymous (.ofPayload (.offlineRelay sealedRequest))).toBytes).1 =
      .ok (some (.failure 3 "STORE message has no payload")) ∧
    (relayRecipient.receive "row" (anonymous emptyRequest).toBytes).1 =
      .ok (some (.failure 3 "STORE message has no payload")) := by
  have hbox : relayRecipient.identity.openBox sealedRequest =
      .ok (anonymous emptyRequest).toBytes := by decide +kernel
  have hraw : Envelope.authenticate
      (anonymous (.ofPayload (.offlineRelay sealedRequest))).toBytes =
        .ok (.ofKey (1 :: List.replicate 31 0), .ofPayload (.offlineRelay sealedRequest)) := by
    decide +kernel
  have hopened : Envelope.authenticate (anonymous emptyRequest).toBytes =
      .ok (.ofKey (1 :: List.replicate 31 0), emptyRequest) := by decide +kernel
  obtain ⟨-, hrelayed, hdirect⟩ :=
    (receive_relayed relayRecipient "row" hbox hraw).2.1 _ emptyRequest hopened (by decide)
  exact ⟨hbox, hraw, hrelayed, hdirect⟩

end Node

end PeerMail
