import PeerMail.Inbound.Dispatch
import PeerMail.Proofs.Thread.Atomicity

/-!
# Messages whose payload belongs to another kind

The tag of a message and its payload travel apart, so they may disagree.  Each handler
looks at the payload by itself before it does anything.  `dispatch_of_foreign` says what
comes of that, for every kind, every payload of another kind and every state: the
message fails under the names of both kinds and changes nothing, whether it came
directly or out of a relay envelope.

One kind is an exception.  A PING is answered with itself, and nobody looks at what it
carries (`echoed_foreign_payload`).
-/

namespace PeerMail.LocalState

variable {self : Keypair} {row : String} {sender : PeerId} {state : LocalState}
  {kind : MessageType} {payload : Payload}

/-- What is reported for a message whose payload belongs to another kind than its tag. -/
def foreignReply (kind : MessageType) (payload : Payload) : Reply :=
  match kind with
  | .ping => .ok (some ⟨kind.tag, some payload⟩)
  | kind => .error (.payloadMismatch kind payload.kind)

theorem foreignReply_eq_error_iff :
    foreignReply kind payload = .error (.payloadMismatch kind payload.kind) ↔ kind ≠ .ping := by
  cases kind <;> simp [foreignReply]

/-- No handler but the one of PING goes past a payload of another kind, whatever happens to sealed
envelopes. -/
theorem dispatchWith_of_foreign (relay : LocalState → Bytes → Reply × LocalState)
    (hforeign : payload.kind ≠ kind) :
    dispatchWith relay self row sender state ⟨kind.tag, some payload⟩ =
      (foreignReply kind payload, state) := by
  unfold dispatchWith
  rw [MessageType.ofTag?_tag]
  cases kind with
  | ping => rfl
  | threadBlock | offlineAck | offlineRelay | block | store | error =>
      cases payload <;> first | rfl | exact absurd rfl hforeign

/-- **A payload of another kind is refused exactly if the tag is not that of a PING**, under the
names of both kinds, and nothing is changed in either case.  A PING comes back as it is. -/
theorem dispatch_of_foreign (self : Keypair) (row : String) (inbound : Inbound)
    (state : LocalState) (hforeign : payload.kind ≠ kind) :
    (dispatch self row inbound state ⟨kind.tag, some payload⟩ =
        (.error (.payloadMismatch kind payload.kind), state) ↔ kind ≠ .ping) ∧
      (kind = .ping → dispatch self row inbound state ⟨kind.tag, some payload⟩ =
        (.ok (some ⟨kind.tag, some payload⟩), state)) := by
  have hboth : dispatch self row inbound state ⟨kind.tag, some payload⟩ =
      (foreignReply kind payload, state) := by
    unfold dispatch
    split
    · exact dispatchWith_of_foreign _ hforeign
    · exact dispatchWith_of_foreign _ hforeign
  rw [hboth]
  constructor
  · rw [Prod.mk.injEq, foreignReply_eq_error_iff]
    exact and_iff_left rfl
  · rintro rfl
    rfl

/-- A request for blocks that carries a block instead, out of a relay envelope. -/
theorem block_for_store_refused :
    (Payload.block "" []).kind ≠ .store ∧
      dispatch exampleInvitee "row" ⟨exampleThreadKey.peerId, true⟩ .untouched
          ⟨MessageType.store.tag, some (.block "" [])⟩ =
        (.error (.payloadMismatch .store .block), .untouched) :=
  ⟨by decide, (dispatch_of_foreign exampleInvitee "row" ⟨exampleThreadKey.peerId, true⟩ .untouched
    (by decide)).1.mpr (by decide)⟩

/-- A PING that carries a block is answered with itself. -/
theorem echoed_foreign_payload :
    ¬ ∀ (self : Keypair) (row : String) (inbound : Inbound) (state : LocalState)
        (kind : MessageType) (payload : Payload), payload.kind ≠ kind →
      dispatch self row inbound state ⟨kind.tag, some payload⟩ =
        (.error (.payloadMismatch kind payload.kind), state) := by
  intro hagree
  have hrefused := hagree exampleInvitee "row" ⟨exampleThreadKey.peerId, false⟩ .untouched .ping
    (.block "" []) (by decide)
  cases congrArg Prod.fst hrefused

end PeerMail.LocalState
