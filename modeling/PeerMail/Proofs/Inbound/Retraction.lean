import PeerMail.Proofs.Inbound.Authority
import PeerMail.Proofs.MessagePack.Members
import PeerMail.Proofs.Store.Pointers
import PeerMail.Proofs.Text.Base64

/-!
# Who may take back a pointer

An acknowledgement takes back the pointer that is kept for its sender.  It has to contain a name,
and the pointer has to name the sender as the one that may take it back.  `dispatch_ack_exact` says
that nothing else is needed and nothing else happens: only that pointer is removed, a failure
changes nothing, and it makes no difference which name the acknowledgement contains.
-/

namespace PeerMail

namespace LocalState

variable {state next : LocalState} {sender peer other : PeerId} {bytes : Bytes}

/-- An acknowledgement contains a name exactly if it is the text of one. -/
theorem parseAck_eq_ok_iff : parseAck bytes = .ok peer ↔ bytes = Utf8.encode peer.text := by
  have hread : parseAck bytes = .ok peer ↔
      ∃ text, Utf8.decode? bytes = some text ∧ PeerId.parse? text = some peer := by
    unfold parseAck Utf8.decode
    cases Utf8.decode? bytes with
    | none => simp
    | some text => cases hparse : PeerId.parse? text <;> simp [hparse]
  rw [hread]
  constructor
  · rintro ⟨text, hdecode, hparse⟩
    rw [← PeerId.parse?_eq_some_iff.mp hparse]
    exact (Utf8.decode?_eq_some_iff.mp hdecode).symm
  · rintro rfl
    exact ⟨peer.text, Utf8.decode?_encode peer.text, PeerId.parse?_eq_some_iff.mpr rfl⟩

/-- The sender may take back its pointer exactly if a row of the table says so. -/
theorem authorizeAck_eq_ok_iff_retractable {db : Database} :
    authorizeAck db sender = .ok () ↔ ∃ pointers held, db.Retractable sender pointers held := by
  rw [authorizeAck_eq_ok_iff]
  constructor
  · rintro ⟨pointers, held, pointer, htable, hfound, hdecode, hcancel⟩
    obtain ⟨hstored, hkeyed⟩ := Table.find?_eq_some_iff.mp hfound
    exact ⟨pointers, held, htable, hstored, hkeyed, pointer, hdecode, hcancel⟩
  · rintro ⟨pointers, held, htable, hstored, hkeyed, pointer, hdecode, hcancel⟩
    exact ⟨pointers, held, pointer, htable, Table.find?_eq_some_iff.mpr ⟨hstored, hkeyed⟩, hdecode,
      hcancel⟩

/-- An acknowledgement is accepted exactly if it contains a name and the sender may take back its
pointer, and then that pointer is gone. -/
theorem handleAck_eq_ok_iff :
    state.handleAck sender bytes = .ok next ↔
      (∃ peer : PeerId, bytes = Utf8.encode peer.text) ∧
        ∃ pointers held, state.db.Retractable sender pointers held ∧
          next = { state with db := state.db.withoutPointer pointers sender } := by
  have hdelete : ∀ {pointers held}, state.db.Retractable sender pointers held →
      state.db.deletePointer sender = .ok (true, state.db.withoutPointer pointers sender) :=
    fun h => deletePointer_of_found h.table (Table.find?_eq_some_iff.mpr ⟨h.stored, h.keyed⟩)
  simp only [handleAck, bind_eq_ok_iff, mapError_eq_ok_iff, pure_eq_ok_iff, parseAck_eq_ok_iff]
  constructor
  · rintro ⟨peer, hname, ⟨⟩, hauthorized, ⟨existed, db⟩, hdeleted, rfl⟩
    obtain ⟨pointers, held, hretractable⟩ := authorizeAck_eq_ok_iff_retractable.mp hauthorized
    rw [hdelete hretractable] at hdeleted
    cases hdeleted
    exact ⟨⟨peer, hname⟩, pointers, held, hretractable, rfl⟩
  · rintro ⟨⟨peer, hname⟩, pointers, held, hretractable, rfl⟩
    exact ⟨peer, hname, (), authorizeAck_eq_ok_iff_retractable.mpr ⟨pointers, held, hretractable⟩,
      _, hdelete hretractable, rfl⟩

/-- Of the name in an acknowledgement it only matters that it is one. -/
theorem handleAck_of_name (state : LocalState) (sender peer : PeerId) :
    state.handleAck sender (Utf8.encode peer.text) = do
      authorizeAck state.db sender
      let (_, db) ← (state.db.deletePointer sender).mapError .storage
      return { state with db } := by
  have hparse : parseAck (Utf8.encode peer.text) = .ok peer := parseAck_eq_ok_iff.mpr rfl
  rw [handleAck, hparse]
  rfl

/-- An acknowledgement is handled alike whether it came in a relay envelope or not. -/
theorem dispatch_ack (self : Keypair) (row : String) (inbound : Inbound) (state : LocalState)
    (bytes : Bytes) :
    dispatch self row inbound state (.ofPayload (.offlineAck bytes)) =
      state.settle (state.handleAck inbound.sender bytes) := by
  unfold dispatch
  split <;> rfl

/-- **An acknowledgement takes back the pointer kept for its sender, exactly if the sender is the one
that may.**  It succeeds exactly if it is the text of some name and the pointer under the sender's
name can be decoded and names the sender as its canceller.  Then that pointer is removed and no
other, and on every failure everything is as before.  Which name it is makes no difference. -/
theorem dispatch_ack_exact (self : Keypair) (row : String) (inbound : Inbound)
    (state : LocalState) :
    let outcome := fun bytes => dispatch self row inbound state (.ofPayload (.offlineAck bytes))
    (∀ bytes, (∃ reply, (outcome bytes).1 = .ok reply) ↔
      (∃ peer : PeerId, bytes = Utf8.encode peer.text) ∧
        ∃ pointers held, state.db.Retractable inbound.sender pointers held) ∧
    (∀ bytes reply, (outcome bytes).1 = .ok reply →
      ∃ pointers held left, state.db.Retractable inbound.sender pointers held ∧
        (outcome bytes).2 = { state with db := { state.db with pointers := some left } } ∧
        ∀ other, other ∈ left.rows ↔ other ∈ pointers.rows ∧ other ≠ held) ∧
    (∀ bytes reason, (outcome bytes).1 = .error reason → (outcome bytes).2 = state) ∧
    (∀ peer other : PeerId,
      outcome (Utf8.encode peer.text) = outcome (Utf8.encode other.text)) := by
  simp only [dispatch_ack]
  refine ⟨fun bytes => ?_, fun bytes reply hreply => ?_, fun bytes reason hreason => ?_,
    fun peer other => by rw [handleAck_of_name, handleAck_of_name]⟩
  · cases hhandled : state.handleAck inbound.sender bytes with
    | error reason =>
        simp only [settle, reduceCtorEq, exists_false, false_iff]
        rintro ⟨hname, pointers, held, hretractable⟩
        have hok := handleAck_eq_ok_iff.mpr ⟨hname, pointers, held, hretractable, rfl⟩
        rw [hhandled] at hok
        cases hok
    | ok next =>
        obtain ⟨hname, pointers, held, hretractable, -⟩ := handleAck_eq_ok_iff.mp hhandled
        exact ⟨fun _ => ⟨hname, pointers, held, hretractable⟩, fun _ => ⟨none, rfl⟩⟩
  · cases hhandled : state.handleAck inbound.sender bytes with
    | error reason =>
        rw [hhandled] at hreply
        cases hreply
    | ok next =>
        obtain ⟨-, pointers, held, hretractable, rfl⟩ := handleAck_eq_ok_iff.mp hhandled
        exact ⟨pointers, held, _, hretractable, rfl, fun other => hretractable.mem_erase_iff⟩
  · cases hhandled : state.handleAck inbound.sender bytes with
    | error reason => rfl
    | ok next =>
        rw [hhandled] at hreason
        cases hreason

/-! ### One pointer of two -/

/-- A peer whose mail waits at a relay. -/
def exampleRecipient : PeerId := ⟨⟨List.replicate 32 21, rfl⟩⟩

/-- Another such peer. -/
def exampleStranger : PeerId := ⟨⟨List.replicate 32 22, rfl⟩⟩

/-- The pointers of both, of which only the first may be taken back by its peer. -/
def examplePointers : PointerTable :=
  (Table.empty.put (Pointer.toRow ⟨exampleRecipient, "relay", some exampleRecipient, 0⟩)).put
    (Pointer.toRow ⟨exampleStranger, "relay", none, 0⟩)

/-- A state with these pointers. -/
def exampleHolder : LocalState :=
  ⟨.empty, { Database.empty with pointers := some examplePointers }, .empty, {}⟩

theorem exampleHolder_retractable :
    exampleHolder.db.Retractable exampleRecipient examplePointers
      (Pointer.toRow ⟨exampleRecipient, "relay", some exampleRecipient, 0⟩) where
  table := rfl
  stored := by decide +kernel
  keyed := rfl
  cancels := ⟨_, rfl, rfl⟩

/-- The acknowledgement takes back one of the pointers, although it contains the name of the other
peer. -/
theorem one_pointer_taken_back :
    let outcome := dispatch Node.pointerKeeper.identity "row" ⟨exampleRecipient, true⟩ exampleHolder
      (.ofPayload (.offlineAck (Utf8.encode exampleStranger.text)))
    (∃ reply, outcome.1 = .ok reply) ∧
      ∃ pointers held left, exampleHolder.db.Retractable exampleRecipient pointers held ∧
        outcome.2.db.pointers = some left ∧
        ∀ other, other ∈ left.rows ↔ other ∈ pointers.rows ∧ other ≠ held := by
  intro outcome
  obtain ⟨haccepted, hremoved, -, -⟩ := dispatch_ack_exact Node.pointerKeeper.identity "row"
    ⟨exampleRecipient, true⟩ exampleHolder
  have hreply : ∃ reply, outcome.1 = .ok reply :=
    (haccepted _).mpr ⟨⟨exampleStranger, rfl⟩, _, _, exampleHolder_retractable⟩
  obtain ⟨reply, hok⟩ := hreply
  obtain ⟨pointers, held, left, hretractable, hstate, hleft⟩ := hremoved _ reply hok
  exact ⟨⟨reply, hok⟩, pointers, held, left, hretractable, by rw [hstate], hleft⟩

end LocalState

end PeerMail
