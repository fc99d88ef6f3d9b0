import PeerMail.Proofs.Node.Journey
import PeerMail.Proofs.Node.Replay

/-!
# Finding out which blocks are missing

A peer offers a list of names and is told which of them are missing, sends these blocks, and
may ask again.  The reply to an offer is the list itself, in lowercase, without the texts that
are no names and the names of blocks that are stored (`BlockStore.lacking`).  No event of a node
drops a block, so what is missing only becomes less; and a block that arrives is stored, so when
all missing blocks have arrived nothing is missing any more (`store_negotiation`).
-/

namespace PeerMail

/-! ## What is missing -/

namespace BlockStore

variable {store later : BlockStore} {text : String} {texts : List String}

/-- The text is the name of a block, in digits of either case, and the block is not stored. -/
def Lacks (store : BlockStore) (text : String) : Prop :=
  ∃ cid : Cid, text.toLower = cid.text ∧ ∀ data, (cid, data) ∉ store.blocks

theorem lacks_iff : store.Lacks text ↔ ∃ cid ∈ Cid.parse? text, store.has cid = false := by
  simp only [Lacks, Option.mem_def, Cid.parse?_eq_some_iff, ← Bool.not_eq_true, has_iff,
    not_exists]

instance : Decidable (store.Lacks text) := decidable_of_iff _ lacks_iff.symm

/-- The listed names of blocks that are not stored, in lowercase. -/
def lacking (store : BlockStore) (texts : List String) : List String :=
  (texts.filter fun text => store.Lacks text).map String.toLower

theorem Lacks.of_grows (hgrows : ∀ cid, store.has cid = true → later.has cid = true)
    (h : later.Lacks text) : store.Lacks text := by
  rw [lacks_iff] at h ⊢
  obtain ⟨cid, hparse, hlacks⟩ := h
  refine ⟨cid, hparse, ?_⟩
  rw [← Bool.not_eq_true] at hlacks ⊢
  intro hhas
  exact hlacks (hgrows cid hhas)

/-- As a store grows it lacks less. -/
theorem lacking_sublist (hgrows : ∀ cid, store.has cid = true → later.has cid = true)
    (texts : List String) : (later.lacking texts).Sublist (store.lacking texts) := by
  refine List.Sublist.map _ (List.monotone_filter_right texts fun text htext => ?_)
  rw [decide_eq_true_eq] at htext ⊢
  exact htext.of_grows hgrows

/-- Nothing is lacking any more once all that was lacking is there. -/
theorem lacking_eq_nil (hgrows : ∀ cid, store.has cid = true → later.has cid = true)
    (hfilled : ∀ name ∈ store.lacking texts, ∀ cid : Cid, cid.text = name → later.has cid = true) :
    later.lacking texts = [] := by
  rw [lacking, List.map_eq_nil_iff, List.filter_eq_nil_iff]
  intro text htext hlacks
  rw [decide_eq_true_eq] at hlacks
  have hbefore : store.Lacks text := hlacks.of_grows hgrows
  have hname : text.toLower ∈ store.lacking texts :=
    List.mem_map_of_mem (List.mem_filter.mpr ⟨htext, decide_eq_true hbefore⟩)
  obtain ⟨cid, hcid, hmissing⟩ := hlacks
  obtain ⟨data, hdata⟩ := has_iff.mp (hfilled _ hname cid hcid.symm)
  exact hmissing data hdata

end BlockStore

namespace LocalState

variable {self : Keypair} {row : String} {raw : Bytes} {state : LocalState} {sender : PeerId}

theorem missing_eq (hanswers : state.faults.hasFails = false) (texts : List String) :
    state.missing texts = state.blocks.lacking texts := by
  have hhas : ∀ cid, state.has cid = state.blocks.has cid := by
    intro cid
    rw [has, hanswers, Bool.not_false, Bool.true_and]
  induction texts with
  | nil => rfl
  | cons text rest ih =>
      simp only [missing, BlockStore.lacking] at ih ⊢
      rw [List.filterMap_cons, ih, List.filter_cons]
      by_cases hlacks : state.blocks.Lacks text
      · obtain ⟨cid, hparse, hmissing⟩ := BlockStore.lacks_iff.mp hlacks
        have hlower : text.toLower = cid.text := Cid.parse?_eq_some_iff.mp hparse
        rw [Option.mem_def] at hparse
        simp [hparse, hhas, hmissing, hlacks, hlower]
      · cases hparse : Cid.parse? text with
        | none => simp [hlacks]
        | some cid =>
            have hheld : state.blocks.has cid = true := by
              by_contra hmissing
              rw [Bool.not_eq_true] at hmissing
              exact hlacks (BlockStore.lacks_iff.mpr ⟨cid, hparse, hmissing⟩)
            simp [hhas, hheld, hlacks]

/-! ## What receiving leaves alone -/

/-- Applying a block of a thread stores none. -/
theorem apply_blocks (self : Keypair) (row : String) (signed : SignedBlock) (state : LocalState) :
    (state.apply self row signed).2.blocks = state.blocks := by
  have houtcome := apply_outcome self row signed state
  generalize (state.apply self row signed).1 = result at houtcome
  generalize (state.apply self row signed).2 = final at houtcome ⊢
  cases houtcome with
  | refused | stranded | extended => rfl
  | misnamed _ _ hadded | joined _ _ hadded =>
      have hblocks := addMember_blocks hadded
      exact hblocks

theorem receive_readOnly (self : Keypair) (row : String) (state : LocalState) (raw : Bytes) :
    (receive self row state raw).2.blocks.readOnly = state.blocks.readOnly := by
  have heffect := receive_effect self row state raw
  generalize (receive self row state raw).2 = final at heffect ⊢
  cases heffect with
  | nothing | retracted => rfl
  | applied => rw [apply_blocks]
  | stored _ _ _ hput =>
      obtain ⟨-, rfl⟩ := BlockStore.put_eq_ok_iff.mp hput
      rfl

/-- A block that arrives is stored. -/
theorem has_of_brings {data : Bytes} (hwritable : state.blocks.readOnly = false)
    (hbrings : Brings self raw sender (.ofPayload (.blockFor data))) :
    (receive self row state raw).2.blocks.has (Cid.ofData data) = true := by
  obtain ⟨envelope, hinnermost, -, hmessage⟩ :=
    Envelope.innermost?_of_brings hbrings (Node.carried?_ofPayload (by simp [Payload.blockFor]))
  have hparse : Cid.parse? (Cid.ofData data).text = some (Cid.ofData data) :=
    Cid.parse?_eq_some_iff.mpr (Cid.ofData data).toLower_text
  have hnames : (Cid.ofData data).Names data := rfl
  obtain ⟨blocks, hput⟩ : ∃ blocks, state.blocks.put (Cid.ofData data) data = .ok blocks :=
    ⟨_, BlockStore.put_eq_ok_iff.mpr ⟨hwritable, rfl⟩⟩
  have hhandled : state.handleBlock (Cid.ofData data).text data = .ok { state with blocks } := by
    simp only [handleBlock, hparse, if_pos hnames, hput]
    rfl
  rw [receive_innermost, hinnermost]
  show (dispatchRelayed self row _ state envelope.message).2.blocks.has _ = true
  rw [hmessage]
  show (state.settle (state.handleBlock (Cid.ofData data).text data)).2.blocks.has _ = true
  rw [hhandled]
  obtain ⟨-, rfl⟩ := BlockStore.put_eq_ok_iff.mp hput
  exact BlockStore.has_iff.mpr ⟨data, List.mem_cons_self⟩

end LocalState

namespace Node

variable {node : Node} {row : String} {raw : Bytes}

theorem receive_offer {sender : PeerId} {texts : List String}
    (hanswers : node.faults.hasFails = false)
    (hopened : Envelope.authenticate raw = .ok (sender, .ofPayload (.cidList texts))) :
    node.receive row raw = (.ok (some (.ofPayload (.cidList (node.blocks.lacking texts)))), node) := by
  have hmissing : node.localState.missing texts = node.blocks.lacking texts :=
    LocalState.missing_eq hanswers texts
  rw [← hmissing]
  simp only [receive, LocalState.receive, hopened]
  rfl

/-! ## Blocks that arrive -/

/-- The event brings the block with a name, by itself or in a sealed envelope. -/
inductive Event.Supplies (recipient : Keypair) : String → Event → Prop where
  | received {row : String} {raw : Bytes} {sender : PeerId} {data : Bytes}
      (brings : Brings recipient raw sender (.ofPayload (.blockFor data))) :
      Supplies recipient (Cid.ofData data).text (.receive row raw)

/-- Whoever sends a block supplies it. -/
theorem Event.supplies_sign (recipient sender : Keypair) (row : String) {data : Bytes}
    (hdata : data.length < 2 ^ 32) :
    (Event.receive row (Envelope.sign sender (.ofPayload (.blockFor data))).toBytes).Supplies
      recipient (Cid.ofData data).text := by
  have hname : (Utf8.encode (Cid.ofData data).text).length = 64 := Cid.length_encode_text _
  have hfits : (Message.ofPayload (.blockFor data)).Fits := by
    rintro _ ⟨⟩
    exact ⟨by omega, hdata⟩
  exact .received (.inl (Envelope.authenticate_sign hfits))

/-- No event keeps a node from looking for blocks, and only one keeps it from storing them. -/
theorem after_storing (node : Node) (event : Event) :
    (node.after event).faults.hasFails = node.faults.hasFails ∧
      (event ≠ .blockWrites true → node.blocks.readOnly = false →
        (node.after event).blocks.readOnly = false) := by
  have hdatabase : ∀ outcome, (node.withDatabase outcome).faults = node.faults ∧
      (node.withDatabase outcome).blocks = node.blocks := by
    rintro (fault | db) <;> exact ⟨rfl, rfl⟩
  cases event with
  | receive row raw =>
      refine ⟨rfl, fun _ hwritable => ?_⟩
      have hsame := LocalState.receive_readOnly node.identity row node.localState raw
      exact hsame.trans hwritable
  | send id now peer message =>
      cases hsend : node.send id now peer message with
      | ok next =>
          have hnext := hsend
          simp only [send, bind_eq_ok_iff, mapError_eq_ok_iff, pure_eq_ok_iff] at hnext
          obtain ⟨db, -, rfl⟩ := hnext
          simp [after, hsend]
      | error fault => simp [after, hsend]
  | setInboxes peer inboxes =>
      obtain ⟨hfaults, hblocks⟩ := hdatabase (node.db.setInboxes peer inboxes)
      exact ⟨congrArg _ hfaults, fun _ hwritable => hblocks ▸ hwritable⟩
  | addPointer pointer =>
      obtain ⟨hfaults, hblocks⟩ := hdatabase (node.db.addPointer pointer)
      exact ⟨congrArg _ hfaults, fun _ hwritable => hblocks ▸ hwritable⟩
  | queueDeletes locked =>
      obtain ⟨hfaults, hblocks⟩ := hdatabase (node.db.lockQueue locked)
      exact ⟨congrArg _ hfaults, fun _ hwritable => hblocks ▸ hwritable⟩
  | blockWrites readOnly =>
      cases readOnly with
      | true => exact ⟨rfl, fun hne => absurd rfl hne⟩
      | false => exact ⟨rfl, fun _ _ => rfl⟩
  | flush | memberWrites | network => exact ⟨rfl, fun _ hwritable => hwritable⟩

theorem run_storing (node : Node) (events : List Event) :
    (node.run events).faults.hasFails = node.faults.hasFails ∧
      ((∀ event ∈ events, event ≠ .blockWrites true) → node.blocks.readOnly = false →
        (node.run events).blocks.readOnly = false) := by
  induction events generalizing node with
  | nil => exact ⟨rfl, fun _ hwritable => hwritable⟩
  | cons event rest ih =>
      obtain ⟨hanswers, hstores⟩ := after_storing node event
      obtain ⟨hanswers', hstores'⟩ := ih (node.after event)
      refine ⟨hanswers'.trans hanswers, fun hevents hwritable => ?_⟩
      exact hstores' (fun other hother => hevents other (List.mem_cons_of_mem _ hother))
        (hstores (hevents event List.mem_cons_self) hwritable)

theorem has_after_supplies {name : String} {event : Event} {cid : Cid}
    (hwritable : node.blocks.readOnly = false) (h : event.Supplies node.identity name)
    (hname : cid.text = name) : (node.after event).blocks.has cid = true := by
  cases h with
  | received hbrings =>
      obtain rfl := Cid.text_injective hname
      exact LocalState.has_of_brings hwritable hbrings

/-- A block that arrives in the course of a run is there at its end. -/
theorem has_run_supplies {name : String} {events : List Event} {cid : Cid}
    (hwritable : node.blocks.readOnly = false)
    (hevents : ∀ event ∈ events, event ≠ .blockWrites true)
    (h : ∃ event ∈ events, event.Supplies node.identity name) (hname : cid.text = name) :
    (node.run events).blocks.has cid = true := by
  obtain ⟨event, hevent, hsupplies⟩ := h
  obtain ⟨earlier, later, rfl⟩ := List.append_of_mem hevent
  have hearlier : (node.run earlier).blocks.readOnly = false :=
    (run_storing node earlier).2
      (fun other hother => hevents other (List.mem_append_left _ hother)) hwritable
  rw [← (run_frame node earlier).1] at hsupplies
  have harrived := has_after_supplies hearlier hsupplies hname
  rw [run_append, run_cons]
  exact (run_grows ((node.run earlier).after event) later).blocks cid harrived

/-! ## Offers -/

/-- **An offer is answered with what is missing, and what is missing only becomes less.**  A node
that gets an offer replies with those of the listed texts that are names of blocks, in digits of
either case, and not stored; they are in lowercase, in the order of the list and as often as in it.
Whatever happens afterwards, the reply to the same offer is a part of the first one, and it is empty
once all blocks in the first one have arrived, in whatever order and whatever else has happened, as
long as blocks can be stored. -/
theorem store_negotiation {node : Node} (hanswers : node.faults.hasFails = false)
    (texts : List String) (events : List Event) :
    let later := node.run events
    (∀ row raw sender, Envelope.authenticate raw = .ok (sender, .ofPayload (.cidList texts)) →
      node.receive row raw =
          (.ok (some (.ofPayload (.cidList (node.blocks.lacking texts)))), node) ∧
        later.receive row raw =
          (.ok (some (.ofPayload (.cidList (later.blocks.lacking texts)))), later)) ∧
    (later.blocks.lacking texts).Sublist (node.blocks.lacking texts) ∧
    (node.blocks.readOnly = false → (∀ event ∈ events, event ≠ .blockWrites true) →
      (∀ name ∈ node.blocks.lacking texts, ∃ event ∈ events, event.Supplies node.identity name) →
      later.blocks.lacking texts = []) := by
  intro later
  have hgrows : ∀ cid, node.blocks.has cid = true → later.blocks.has cid = true :=
    (run_grows node events).blocks
  have hlater : later.faults.hasFails = false := (run_storing node events).1.trans hanswers
  refine ⟨fun row raw sender hopened => ?_, BlockStore.lacking_sublist hgrows texts, ?_⟩
  · exact ⟨receive_offer hanswers hopened, receive_offer hlater hopened⟩
  · intro hwritable hevents hsupplied
    refine BlockStore.lacking_eq_nil hgrows fun name hname cid hcid => ?_
    exact has_run_supplies hwritable hevents (hsupplied name hname) hcid

/-! ### A block that is offered twice -/

/-- The name of the block with the single byte 7. -/
def sevenName : String := "448bd8dd9624154a690f8e84dc52d6f633ba7cd545c4d3c9b4e0f6a2f6fa71f4"

/-- The name in capitals, a text that is no name, and the name. -/
def offeredNames : List String :=
  ["448BD8DD9624154A690F8E84DC52D6F633BA7CD545C4D3C9B4E0F6A2F6FA71F4", "seven", sevenName]

/-- Somebody offers the block. -/
def sevenOffer : Bytes :=
  (Envelope.sign exampleThreadKey (.ofPayload (.cidList offeredNames))).toBytes

/-- The block is sent. -/
def sevenArrives : List Event :=
  [.receive "row" (Envelope.sign exampleThreadKey (.ofPayload (.blockFor [7]))).toBytes]

/-- It is missing until it arrives. -/
theorem offered_block_arrives :
    invitedNode.faults.hasFails = false ∧
    (invitedNode.receive "row" sevenOffer).1 =
      .ok (some (.ofPayload (.cidList [sevenName, sevenName]))) ∧
    ((invitedNode.run sevenArrives).receive "row" sevenOffer).1 =
      .ok (some (.ofPayload (.cidList []))) := by
  have hanswers : invitedNode.faults.hasFails = false := rfl
  have hname : (Cid.ofData [7]).text = sevenName := by decide +kernel
  have hlacking : invitedNode.blocks.lacking offeredNames = [sevenName, sevenName] := by
    decide +kernel
  have hfits : (Message.ofPayload (.cidList offeredNames)).Fits := by
    rintro _ ⟨⟩
    constructor <;> decide +kernel
  have hopened : Envelope.authenticate sevenOffer =
      .ok (exampleThreadKey.peerId, .ofPayload (.cidList offeredNames)) :=
    Envelope.authenticate_sign hfits
  obtain ⟨hreplies, -, hsettled⟩ := store_negotiation hanswers offeredNames sevenArrives
  obtain ⟨hfirst, hsecond⟩ := hreplies "row" sevenOffer _ hopened
  have hempty : (invitedNode.run sevenArrives).blocks.lacking offeredNames = [] := by
    refine hsettled rfl (by simp [sevenArrives]) fun name hmem => ?_
    rw [hlacking] at hmem
    obtain rfl : name = sevenName := by simpa using hmem
    rw [← hname]
    exact ⟨_, List.mem_singleton_self _, Event.supplies_sign _ _ _ (by decide)⟩
  rw [hfirst, hsecond, hlacking, hempty]
  exact ⟨hanswers, rfl, rfl⟩

end Node

end PeerMail
