import PeerMail.Inbound.Dispatch
import PeerMail.Proofs.Fallible

/-!
# What inbound bytes can change

Whatever arrives, a node changes in one of three ways or not at all (`Effect`): a
block is applied to its thread, the sender's pointer is taken back, or a block is
stored.  `receive_effect` says so for every byte string, and names the message
that caused the change together with who sent it: the message inside the bytes, or
the one inside the box that it carries (`Brings`).

A property that the three changes keep is kept by `receive`.
-/

namespace PeerMail

/-- The bytes bring a message of a sender to a handler: it is the message inside, or the message
inside the sealed envelope that the message inside carries. -/
def Brings (self : Keypair) (raw : Bytes) (sender : PeerId) (message : Message) : Prop :=
  Envelope.authenticate raw = .ok (sender, message) ∨
    ∃ carrier ciphertext plaintext,
      Envelope.authenticate raw = .ok (carrier, .ofPayload (.offlineRelay ciphertext)) ∧
        self.openBox ciphertext = .ok plaintext ∧
        Envelope.authenticate plaintext = .ok (sender, message)

namespace LocalState

/-- What a message that was brought can leave behind. -/
inductive Effect (self : Keypair) (row : String) (brought : PeerId → Message → Prop)
    (state : LocalState) : LocalState → Prop where
  /-- Nothing has changed. -/
  | nothing : Effect self row brought state state
  /-- A block was applied to its thread, with or without success. -/
  | applied {sender : PeerId} {signed : SignedBlock}
      (cause : brought sender (.ofPayload (.threadBlock signed))) :
      Effect self row brought state (state.apply self row signed).2
  /-- The pointer kept for the sender was taken back. -/
  | retracted {sender : PeerId} {bytes : Bytes} {existed : Bool} {db : Database}
      (cause : brought sender (.ofPayload (.offlineAck bytes)))
      (authorized : authorizeAck state.db sender = .ok ())
      (deleted : state.db.deletePointer sender = .ok (existed, db)) :
      Effect self row brought state { state with db }
  /-- A block was stored under its name. -/
  | stored {sender : PeerId} {text : String} {data : Bytes} {cid : Cid} {blocks : BlockStore}
      (cause : brought sender (.ofPayload (.block text data)))
      (parsed : Cid.parse? text = some cid) (names : cid.Names data)
      (put : state.blocks.put cid data = .ok blocks) :
      Effect self row brought state { state with blocks }

variable {self : Keypair} {row : String} {brought : PeerId → Message → Prop}
  {state next : LocalState} {sender : PeerId} {message : Message}

/-! ## Handlers -/

theorem handleAck_effect {bytes : Bytes}
    (hcause : brought sender (.ofPayload (.offlineAck bytes)))
    (h : state.handleAck sender bytes = .ok next) : Effect self row brought state next := by
  simp only [handleAck, bind_eq_ok_iff, mapError_eq_ok_iff] at h
  obtain ⟨_, _, _, hauthorized, ⟨existed, db⟩, hdeleted, hnext⟩ := h
  cases pure_eq_ok_iff.mp hnext
  exact .retracted hcause hauthorized hdeleted

theorem handleBlock_effect {text : String} {data : Bytes}
    (hcause : brought sender (.ofPayload (.block text data)))
    (h : state.handleBlock text data = .ok next) : Effect self row brought state next := by
  unfold handleBlock at h
  cases hparse : Cid.parse? text with
  | none => simp [hparse] at h
  | some cid =>
      simp only [hparse] at h
      split at h
      · next hnames =>
          obtain ⟨blocks, hput, hnext⟩ := bind_eq_ok_iff.mp h
          cases pure_eq_ok_iff.mp hnext
          exact .stored hcause hparse hnames (mapError_eq_ok_iff.mp hput)
      · cases h

theorem settle_effect {outcome : Except ProtocolError LocalState}
    (h : ∀ next, outcome = .ok next → Effect self row brought state next) :
    Effect self row brought state (state.settle outcome).2 := by
  cases outcome with
  | ok next => exact h next rfl
  | error reason => exact .nothing

/-! ## Dispatch -/

/-- A handler changes at most what its kind of message may change, provided that what happens to
sealed envelopes does. -/
theorem dispatchWith_effect {relay : LocalState → Bytes → Reply × LocalState}
    (hcause : brought sender message)
    (hrelay : ∀ ciphertext, message = .ofPayload (.offlineRelay ciphertext) →
      Effect self row brought state (relay state ciphertext).2) :
    Effect self row brought state (dispatchWith relay self row sender state message).2 := by
  obtain ⟨tag, payload⟩ := message
  unfold dispatchWith
  cases hkind : MessageType.ofTag? tag with
  | none => exact .nothing
  | some kind =>
      obtain rfl := MessageType.ofTag?_eq_some_iff.mp hkind
      cases payload with
      | none => exact .nothing
      | some payload =>
          cases kind <;> cases payload <;> first
            | exact .nothing
            | exact .applied hcause
            | exact settle_effect fun next => handleAck_effect hcause
            | exact settle_effect fun next => handleBlock_effect hcause
            | exact hrelay _ rfl

theorem dispatchRelayed_effect (hcause : brought sender message) :
    Effect self row brought state (dispatchRelayed self row sender state message).2 :=
  dispatchWith_effect hcause fun _ _ => .nothing

theorem handleRelay_effect {ciphertext : Bytes}
    (hcause : ∀ plaintext sender message, self.openBox ciphertext = .ok plaintext →
      Envelope.authenticate plaintext = .ok (sender, message) → brought sender message) :
    Effect self row brought state (handleRelay self row state ciphertext).2 := by
  unfold handleRelay
  cases hopen : openRelay self ciphertext with
  | error reason => exact .nothing
  | ok opened =>
      obtain ⟨sender, message⟩ := opened
      simp only [openRelay, bind_eq_ok_iff, mapError_eq_ok_iff] at hopen
      obtain ⟨plaintext, hbox, hinner⟩ := hopen
      exact dispatchRelayed_effect (hcause plaintext sender message hbox hinner)

/-- **Bytes change at most one thing**, and it is the message that they bring that does. -/
theorem receive_effect (self : Keypair) (row : String) (state : LocalState) (raw : Bytes) :
    Effect self row (Brings self raw) state (receive self row state raw).2 := by
  unfold receive
  cases hopen : Envelope.authenticate raw with
  | error fault => exact .nothing
  | ok opened =>
      obtain ⟨sender, message⟩ := opened
      refine dispatchWith_effect (.inl hopen) fun ciphertext hmessage => ?_
      subst hmessage
      exact handleRelay_effect fun plaintext inner message hbox hinner =>
        .inr ⟨sender, ciphertext, plaintext, hopen, hbox, hinner⟩

/-- A block that arrives over a connection is applied. -/
theorem receive_threadBlock {self : Keypair} {raw : Bytes} {signed : SignedBlock}
    (h : Envelope.authenticate raw = .ok (sender, .ofPayload (.threadBlock signed))) :
    (receive self row state raw).2 = (state.apply self row signed).2 := by
  unfold receive
  rw [h]
  rfl

end LocalState

end PeerMail
