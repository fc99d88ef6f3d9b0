import PeerMail.Proofs.Delivery.Contents
import PeerMail.Proofs.Delivery.Frames
import PeerMail.Proofs.Inbound.Relay
import PeerMail.Proofs.Wire.Honest

/-!
# From one node to another

A message is signed, queued, read back from the queue, attempted by a flush, written,
and read and verified by the node that it is for.  `delivered` follows it all the way,
over a connection or by way of a relay: what is handed over is the envelope that was
sealed, and the other node handles the message as one of the sender.

A queue of one message makes the walk of a flush short.  `flush_single` says that it is
one attempt to deliver that message.
-/

namespace PeerMail

/-! ## Honest envelopes -/

namespace Envelope

variable {sender : Keypair} {message : Message}

theorem fits_sign (h : message.Fits) : (sign sender message).Fits where
  senderKey := by
    show (Ed25519.publicKey sender.secret.val).length < 2 ^ 32
    rw [Ed25519.length_publicKey]
    decide
  message := h
  signature := by
    show (Ed25519.sign sender.secret.val message.toBytes).length < 2 ^ 32
    rw [Ed25519.length_sign]
    decide

/-- A written envelope of an honest sender authenticates as that sender's message. -/
theorem authenticate_sign (hfits : message.Fits) :
    authenticate (sign sender message).toBytes = .ok (sender.peerId, message) := by
  have hread := codec.reads_written (sign sender message) (fits_sign hfits) []
  rw [List.append_nil] at hread
  have hverify : (sign sender message).verify = .ok sender.peerId :=
    bind_eq_ok_iff.mpr ⟨(), sender.verify_sign _, rfl⟩
  exact bind_eq_ok_iff.mpr ⟨_, hread, bind_eq_ok_iff.mpr ⟨_, hverify, rfl⟩⟩

end Envelope

/-! ## Connections -/

namespace Transport

variable {transport next : Transport} {peer : PeerId} {envelope : Envelope}

/-- A peer can be reached over a connection. -/
structure Reaches (transport : Transport) (peer : PeerId) : Prop where
  online : transport.online = true
  connected : peer ∈ transport.connected
  check : transport.failNextCheck = none
  send : transport.failNextSend = none

theorem deliver_of_reaches (h : transport.Reaches peer) :
    transport.deliver peer envelope =
      (.ok (), { transport with sent := transport.sent ++ [⟨peer, envelope⟩] }) := by
  simp [deliver, check, send, h.online, h.connected, h.check, h.send]

theorem sent_check (transport : Transport) (peer : PeerId) :
    (transport.check peer).2.sent = transport.sent := by
  unfold check
  split <;> rfl

theorem sent_of_send_error {reason : TransportError}
    (h : transport.send peer envelope = (.error reason, next)) : next.sent = transport.sent := by
  unfold send at h
  split at h
  · cases h
    rfl
  · split at h
    · cases h
      rfl
    · split at h <;> cases h
      rfl

/-- An envelope that is not sent leaves no trace among those that were. -/
theorem sent_of_deliver_error {reason : TransportError}
    (h : transport.deliver peer envelope = (.error reason, next)) : next.sent = transport.sent := by
  have hcheck := sent_check transport peer
  unfold deliver at h
  split at h
  · cases h
    rfl
  · split at h
    · next heq =>
        rw [heq] at hcheck
        cases h
        exact hcheck
    · next heq =>
        rw [heq] at hcheck
        cases h
        exact hcheck
    · next heq =>
        rw [heq] at hcheck
        exact (sent_of_send_error h).trans hcheck

end Transport

/-! ## A queue of one message -/

namespace Database

variable {db next : Database} {queue : QueueTable} {message : QueuedMessage} {limit : Nat}

/-- Behind the row of a message there is no other row. -/
def EndsWith (db : Database) (message : QueuedMessage) : Prop :=
  ∃ queue, db.queue = some queue ∧ queue.after message.id.bytes = []

theorem listMessages_single (hqueue : db.queue = some queue) (hrows : queue.rows = [message.toRow])
    (hfits : message.envelope.Fits) (hlimit : 1 ≤ limit) :
    db.listMessages none limit = (.ok [message], db) := by
  have hafter : queue.after [] = [message.toRow] := by
    have hlength := message.id.value.property
    have hid : ([] : Bytes) < message.toRow.id := by
      rw [Bytes.nil_lt_iff]
      intro hnil
      have hnil : message.id.value.val = [] := hnil
      simp [hnil] at hlength
    simp [Table.after, hrows, hid]
  have hpage : page limit [message.toRow] = [message.toRow] := by
    unfold page
    split
    · exact List.take_of_length_le hlimit
    · rfl
  have hsweep : db.sweep [message.toRow] = (.ok [message], db) := by
    simp [sweep, message.decode_toRow hfits, Except.map]
  show db.listFrom [] limit _ = _
  simp only [listFrom, hqueue, require, hafter, hpage, hsweep]

theorem listMessages_behind (h : db.EndsWith message) :
    db.listMessages (some message.id) limit = (.ok [], db) := by
  obtain ⟨queue, hqueue, hafter⟩ := h
  have hpage : page limit [] = [] := by simp [page]
  show db.listFrom message.id.bytes limit _ = _
  simp only [listFrom, hqueue, require, hafter, hpage]

theorem endsWith_single (hqueue : db.queue = some queue) (hrows : queue.rows = [message.toRow]) :
    db.EndsWith message := by
  refine ⟨queue, hqueue, ?_⟩
  have hid : ¬ message.id.bytes < message.toRow.id := Bytes.lt_irrefl _
  simp [Table.after, hrows, hid]

theorem EndsWith.delete {id : MessageId} {existed : Bool} (h : db.EndsWith message)
    (hdelete : db.deleteMessage id = .ok (existed, next)) : next.EndsWith message := by
  obtain ⟨queue, hqueue, hafter⟩ := h
  obtain ⟨_, hsame, -, -, rfl⟩ := deleteRow_eq_ok_iff.mp hdelete
  obtain rfl := Option.some.inj (hqueue.symm.trans hsame)
  refine ⟨_, rfl, ?_⟩
  rw [Table.erase_eq_without, Table.after_without, hafter, List.filter_nil]

end Database

namespace Outgoing

variable {outgoing : Outgoing} {queue : QueueTable} {message : QueuedMessage}

/-- Where a delivery has led, when what was accepted has been removed or not. -/
structure Led (message : QueuedMessage) (delivered reached : Outgoing) : Prop where
  transport : reached.transport = delivered.transport
  relay : reached.relay = delivered.relay
  ends : reached.db.EndsWith message

theorem deleteAll_led {delivered reached : Outgoing} (h : Led message delivered reached)
    (ids : List MessageId) (report : FlushReport) :
    Led message delivered (services.deleteAll ids report reached).2 := by
  induction ids generalizing report reached with
  | nil => exact h
  | cons id rest ih =>
      simp only [FlushServices.deleteAll, services]
      cases hdelete : reached.db.deleteMessage id with
      | error fault => exact ih h report
      | ok deleted =>
          obtain ⟨existed, db⟩ := deleted
          have hnext : Led message delivered { reached with db } :=
            ⟨h.transport, h.relay, h.ends.delete hdelete⟩
          exact ih hnext _

theorem flushPage_led (hends : outgoing.db.EndsWith message) (report : FlushReport) :
    Led message (outgoing.deliver message.peer message.envelope).2
      (services.flushPage [message] report outgoing).2 := by
  have hgroups : partitionByPeer QueuedMessage.peer [message] = [⟨message.peer, [message]⟩] := by
    simp [partitionByPeer, addToGroups]
  have hservice : services.deliver outgoing message.peer message.envelope =
      (some (outgoing.deliver message.peer message.envelope).1,
        (outgoing.deliver message.peer message.envelope).2) := rfl
  have hdelivered : (outgoing.deliver message.peer message.envelope).2.db.EndsWith message := by
    rw [deliver_db]
    exact hends
  simp only [FlushServices.flushPage, hgroups, FlushServices.deliverAll,
    FlushServices.deliverGroup, hservice]
  generalize outgoing.deliver message.peer message.envelope = delivered at hdelivered ⊢
  exact deleteAll_led ⟨rfl, rfl, hdelivered⟩ _ _

/-- **The flush of a queue of one message is one attempt to deliver it.** -/
theorem flush_single (hqueue : outgoing.db.queue = some queue)
    (hrows : queue.rows = [message.toRow]) (hfits : message.envelope.Fits) (pageSize : Nat) :
    Led message (outgoing.deliver message.peer message.envelope).2
      (outgoing.flush pageSize).2 := by
  have hled : ∀ report, Led message (outgoing.deliver message.peer message.envelope).2
      (services.flushPage [message] report outgoing).2 :=
    flushPage_led (Database.endsWith_single hqueue hrows)
  have hfirst : services.list outgoing none (max pageSize 1) = (.ok [message], outgoing) := by
    simp only [services, Database.listMessages_single hqueue hrows hfits (Nat.le_max_right _ _)]
  have hlast : ∀ {reached : Outgoing}, reached.db.EndsWith message →
      services.list reached (some message.id) (max pageSize 1) = (.ok [], reached) := by
    intro reached hends
    simp only [services, Database.listMessages_behind hends]
  -- the first page is the message, the second one is empty
  have hwalk : services.walk 2 (.start pageSize) {} outgoing =
      services.flushPage [message] {} outgoing := by
    have hadvance : PageCursor.advance? ⟨none, max pageSize 1⟩ [message.id] =
        some ⟨some message.id, max pageSize 1⟩ := rfl
    have hends := (hled {}).ends
    simp only [FlushServices.walk, PageCursor.start, hfirst, List.map_cons, List.map_nil, hadvance]
    generalize services.flushPage [message] {} outgoing = flushed at hends ⊢
    simp only [hlast hends]
    rfl
  have hsize : (outgoing.db.queue.map Table.size).getD 0 + 1 = 2 := by
    rw [hqueue, Option.map_some, Option.getD_some, Table.size, hrows]
    rfl
  have hworld : (outgoing.flush pageSize).2 = (services.flushPage [message] {} outgoing).2 := by
    rw [flush, hsize, FlushServices.flush, hwalk]
    generalize services.flushPage [message] {} outgoing = flushed
    simp only [services]
    cases flushed.2.db.countMessages <;> rfl
  exact hworld ▸ hled {}

section Single

variable (outgoing message) (hqueue : outgoing.db.queue = some queue)
  (hrows : queue.rows = [message.toRow]) (hfits : message.envelope.Fits) (pageSize : Nat)

include hqueue hrows hfits

theorem flush_reaches (h : outgoing.transport.Reaches message.peer) :
    (outgoing.flush pageSize).2.transport.sent =
        outgoing.transport.sent ++ [⟨message.peer, message.envelope⟩] ∧
      (outgoing.flush pageSize).2.relay = outgoing.relay := by
  have hled := flush_single hqueue hrows hfits pageSize
  have hdeliver : outgoing.transport.deliver message.peer message.envelope =
      (.ok (), { outgoing.transport with
        sent := outgoing.transport.sent ++ [⟨message.peer, message.envelope⟩] }) :=
    Transport.deliver_of_reaches h
  rw [hled.transport, hled.relay, deliver, hdeliver]
  exact ⟨rfl, rfl⟩

theorem flush_hands_over {reason : TransportError} {contact : Contact}
    (hrefused : (outgoing.transport.deliver message.peer message.envelope).1 = .error reason)
    (hcontact : outgoing.db.contact? message.peer = .ok (some contact))
    (hinboxes : contact.inboxes ≠ []) (haccepts : outgoing.relay.rejecting = none) :
    (outgoing.flush pageSize).2.transport.sent = outgoing.transport.sent ∧
      (outgoing.flush pageSize).2.relay.handoffs =
        outgoing.relay.handoffs ++ [⟨message.peer, message.envelope, contact.inboxes⟩] := by
  have hled := flush_single hqueue hrows hfits pageSize
  rcases hdeliver : outgoing.transport.deliver message.peer message.envelope with
    ⟨result, transport⟩
  rw [hdeliver] at hrefused
  obtain rfl : result = .error reason := hrefused
  have hhand : handOver { outgoing with transport } message.peer message.envelope =
      .ok { outgoing with
        transport
        relay := { outgoing.relay with handoffs :=
          outgoing.relay.handoffs ++ [⟨message.peer, message.envelope, contact.inboxes⟩] } } := by
    simp [handOver, hcontact, Relay.handOver, hinboxes, haccepts, Except.mapError, bind,
      Except.bind]
  rw [hled.transport, hled.relay, deliver, hdeliver]
  simp only [hhand]
  exact ⟨Transport.sent_of_deliver_error hdeliver, trivial⟩

end Single

end Outgoing

/-! ## Both nodes -/

namespace LocalState

/-- A failed message is answered with a notice if it is a request or a relay message. -/
theorem answer_eq (message : Message) (reply : Reply) :
    answer message reply =
      match reply with
      | .ok reply => .ok reply
      | .error reason =>
          if message.tag = MessageType.store.tag ∨ message.tag = MessageType.offlineRelay.tag then
            .ok (some reason.notice)
          else .error reason := by
  cases reply with
  | ok reply => rfl
  | error reason =>
      by_cases hrelay : message.tag = MessageType.offlineRelay.tag
      · simp [answer, hrelay, answersFailure]
      · rw [answer_error reason hrelay]
        simp [hrelay]

end LocalState

namespace Node

variable {alice bob : Node} {message : Message}

/-- The node with a message queued as the only one. -/
def queueing (node : Node) (id : MessageId) (now : Int64) (peer : PeerId) (message : Message) :
    Node :=
  { node with
    db := { node.db with
      queue := some (Table.empty.put
        (QueuedMessage.toRow ⟨id, peer, .sign node.identity message, now⟩)) } }

theorem send_of_empty (hqueue : alice.db.queue = some .empty) (id : MessageId) (now : Int64)
    (peer : PeerId) (message : Message) :
    alice.send id now peer message = .ok (alice.queueing id now peer message) := by
  have hadd : alice.db.addMessage ⟨id, peer, .sign alice.identity message, now⟩ =
      .ok (alice.queueing id now peer message).db :=
    Database.addRow_eq_ok_iff.mpr ⟨.empty, hqueue, rfl, rfl⟩
  simp only [send, hadd]
  rfl

section Receive

variable {raw plaintext ciphertext : Bytes} {sender carrier : PeerId}

theorem receive_of_opened (row : String)
    (hopened : Envelope.authenticate raw = .ok (sender, message)) :
    bob.receive row raw =
      (match (bob.dispatch row ⟨sender, false⟩ message).1 with
        | .ok reply => .ok reply
        | .error reason =>
            if message.tag = MessageType.store.tag ∨ message.tag = MessageType.offlineRelay.tag then
              .ok (some (.failure reason.code reason.message))
            else .error (.protocol reason),
        (bob.dispatch row ⟨sender, false⟩ message).2) := by
  have hreceive := LocalState.receive_of_opened bob.identity row bob.localState hopened
  rw [LocalState.answer_eq] at hreceive
  simp only [receive, hreceive, dispatch]
  cases (LocalState.dispatch bob.identity row ⟨sender, false⟩ bob.localState message).1 with
  | ok reply => rfl
  | error reason =>
      dsimp only
      split <;> rfl

theorem receive_relay_of_opened (row : String)
    (hraw : Envelope.authenticate raw = .ok (carrier, .ofPayload (.offlineRelay ciphertext)))
    (hbox : bob.identity.openBox ciphertext = .ok plaintext)
    (hopened : Envelope.authenticate plaintext = .ok (sender, message)) :
    bob.receive row raw =
      (match (bob.dispatch row ⟨sender, true⟩ message).1 with
        | .ok _ => .ok none
        | .error reason => .ok (some (.failure reason.code reason.message)),
        (bob.dispatch row ⟨sender, true⟩ message).2) := by
  have hreceive := LocalState.receive_relay_of_opened row bob.localState hbox hraw hopened
  have hrelayed : LocalState.dispatch bob.identity row ⟨sender, true⟩ bob.localState message =
      LocalState.dispatchRelayed bob.identity row sender bob.localState message := rfl
  simp only [receive, hreceive, dispatch, hrelayed]
  cases (LocalState.dispatchRelayed bob.identity row sender bob.localState message).1 <;> rfl

end Receive

/-- **A message that is sent is handled by the node that it is for**, as one of the sender.  Over a
connection the flush sends the envelope that was sealed, and otherwise it hands it to the relay; in
either case the other node handles the message, directly or out of the relay message that somebody
brings. -/
theorem delivered (alice bob : Node) (hfits : message.Fits)
    (hqueue : alice.db.queue = some .empty) (id : MessageId) (now : Int64) (row : String) :
    let envelope := Envelope.sign alice.identity message
    let direct := bob.dispatch row ⟨alice.peerId, false⟩ message
    let relayed := bob.dispatch row ⟨alice.peerId, true⟩ message
    (∃ queued, alice.send id now bob.peerId message = .ok queued ∧
      (alice.transport.Reaches bob.peerId →
        queued.flush.2.transport.sent = alice.transport.sent ++ [⟨bob.peerId, envelope⟩] ∧
        queued.flush.2.relay = alice.relay) ∧
      ∀ reason contact, (alice.transport.deliver bob.peerId envelope).1 = .error reason →
        alice.db.contact? bob.peerId = .ok (some contact) → contact.inboxes ≠ [] →
        alice.relay.rejecting = none →
        queued.flush.2.transport.sent = alice.transport.sent ∧
        queued.flush.2.relay.handoffs =
          alice.relay.handoffs ++ [⟨bob.peerId, envelope, contact.inboxes⟩]) ∧
    bob.receive row envelope.toBytes =
      (match direct.1 with
        | .ok reply => .ok reply
        | .error reason =>
            if message.tag = MessageType.store.tag ∨ message.tag = MessageType.offlineRelay.tag then
              .ok (some (.failure reason.code reason.message))
            else .error (.protocol reason),
        direct.2) ∧
    ∀ raw carrier ciphertext,
      Envelope.authenticate raw = .ok (carrier, .ofPayload (.offlineRelay ciphertext)) →
      bob.identity.openBox ciphertext = .ok envelope.toBytes →
      bob.receive row raw =
        (match relayed.1 with
          | .ok _ => .ok none
          | .error reason => .ok (some (.failure reason.code reason.message)),
          relayed.2) := by
  intro envelope direct relayed
  have hfit : envelope.Fits := Envelope.fits_sign hfits
  have hopened : Envelope.authenticate envelope.toBytes = .ok (alice.peerId, message) :=
    Envelope.authenticate_sign hfits
  refine ⟨⟨_, send_of_empty hqueue id now bob.peerId message, fun hreaches => ?_, ?_⟩, ?_, ?_⟩
  · exact Outgoing.flush_reaches (alice.queueing id now bob.peerId message).outgoing
      ⟨id, bob.peerId, envelope, now⟩ rfl rfl hfit _ hreaches
  · intro reason contact hrefused hcontact hinboxes haccepts
    exact Outgoing.flush_hands_over (alice.queueing id now bob.peerId message).outgoing
      ⟨id, bob.peerId, envelope, now⟩ rfl rfl hfit _ hrefused hcontact hinboxes haccepts
  · exact receive_of_opened row hopened
  · exact fun raw carrier ciphertext hraw hbox => receive_relay_of_opened row hraw hbox hopened

/-! ### A greeting -/

/-- A node with a connection to the recipient. -/
def greeter : Node :=
  ⟨⟨⟨List.replicate 32 2, rfl⟩⟩, .inMemory, .empty,
    (Transport.fresh true).connect relayRecipient.peerId, .fresh, .empty, .empty, {}⟩

/-- The node without the connection, but with an inbox of the recipient. -/
def strandedGreeter : Node :=
  { greeter with
    db := { Database.empty with
      contacts := some (Table.empty.put (Contact.toRow ⟨relayRecipient.peerId, ["inbox"]⟩)) }
    transport := .fresh false }

/-- What the nodes have to say. -/
def greeting : Message := .ofPayload (.ping 7)

/-- The name under which the greeting is queued. -/
def greetingId : MessageId := ⟨⟨List.replicate 16 9, rfl⟩⟩

/-- The greeting in its envelope, sealed to the recipient. -/
def sealedGreeting : Bytes :=
  [164, 224, 146, 146, 182, 81, 194, 120, 185, 119, 44, 86, 159, 95, 169, 187, 19, 217, 6, 180, 106,
   182, 140, 157, 249, 220, 43, 68, 9, 248, 162, 9] ++
    List.replicate 24 3 ++
    [111, 141, 147, 95, 125, 156, 217, 219, 94, 33, 139, 30, 218, 204, 104, 39, 244, 147, 87, 25,
     108, 212, 173, 125, 72, 237, 19, 54, 185, 205, 1, 197, 127, 123, 58, 59, 173, 132, 255, 19,
     243, 176, 232, 206, 66, 69, 46, 21, 99, 169, 50, 152, 86, 64, 182, 249, 178, 223, 235, 60, 181,
     128, 201, 203, 119, 253, 14, 5, 194, 23, 29, 122, 57, 195, 37, 231, 208, 209, 40, 208, 122,
     230, 154, 163, 97, 139, 10, 157, 71, 38, 18, 230, 205, 5, 107, 45, 190, 210, 178, 30, 67, 204,
     20, 131, 56, 47, 74, 235, 233, 137, 250, 100, 58, 98, 25, 108, 147, 80, 230, 151, 15, 244, 247,
     35, 3, 6, 204, 190, 10, 174, 190, 150, 26, 253, 98, 48, 152, 30, 21, 149, 247, 38, 141, 27,
     189, 237, 2, 157, 204, 190, 215, 193, 227, 240, 39, 33, 94, 5, 13, 54, 126, 59, 97, 106, 242,
     40, 107, 117, 80, 239, 229, 11, 2, 102, 228, 142]

/-- The recipient answers the greeting that was sent, and handles the one that was relayed. -/
theorem greeting_delivered :
    (∃ queued, greeter.send greetingId 0 relayRecipient.peerId greeting = .ok queued ∧
      queued.flush.2.transport.sent =
        [⟨relayRecipient.peerId, .sign greeter.identity greeting⟩]) ∧
    (∃ queued, strandedGreeter.send greetingId 0 relayRecipient.peerId greeting = .ok queued ∧
      queued.flush.2.relay.handoffs =
        [⟨relayRecipient.peerId, .sign greeter.identity greeting, ["inbox"]⟩]) ∧
    relayRecipient.receive "row" (Envelope.sign greeter.identity greeting).toBytes =
      (.ok (some greeting), relayRecipient) ∧
    relayRecipient.receive "row" (anonymous (.ofPayload (.offlineRelay sealedGreeting))).toBytes =
      (.ok none, relayRecipient) := by
  have hfits : greeting.Fits := by
    rintro _ ⟨⟩
    trivial
  have hreaches : greeter.transport.Reaches relayRecipient.peerId :=
    ⟨rfl, List.mem_singleton_self _, rfl, rfl⟩
  have hcontact : strandedGreeter.db.contact? relayRecipient.peerId =
      .ok (some ⟨relayRecipient.peerId, ["inbox"]⟩) := by
    have hfound : (Table.empty.put (Contact.toRow ⟨relayRecipient.peerId, ["inbox"]⟩) :
        ContactTable).find? relayRecipient.peerId.bytes =
          some (Contact.toRow ⟨relayRecipient.peerId, ["inbox"]⟩) := by
      rw [Table.find?_put]
      exact if_pos rfl
    have hdecode : (Contact.toRow ⟨relayRecipient.peerId, ["inbox"]⟩).decode = .ok ["inbox"] := by
      rfl
    simp [strandedGreeter, Database.contact?, Database.require, hfound, hdecode, bind, Except.bind]
  have hraw : Envelope.authenticate
      (anonymous (.ofPayload (.offlineRelay sealedGreeting))).toBytes =
        .ok (.ofKey (1 :: List.replicate 31 0), .ofPayload (.offlineRelay sealedGreeting)) := by
    decide +kernel
  have hbox : relayRecipient.identity.openBox sealedGreeting =
      .ok (Envelope.sign greeter.identity greeting).toBytes := by decide +kernel
  obtain ⟨⟨queued, hsend, hsent, -⟩, hdirect, hrelayed⟩ :=
    delivered greeter relayRecipient hfits rfl greetingId 0 "row"
  obtain ⟨⟨waiting, hwaits, -, hhanded⟩, -, -⟩ :=
    delivered strandedGreeter relayRecipient hfits rfl
      greetingId 0 "row"
  refine ⟨⟨queued, hsend, (hsent hreaches).1⟩, ⟨waiting, hwaits, ?_⟩, hdirect,
    hrelayed _ _ _ hraw hbox⟩
  exact (hhanded _ _ rfl hcontact (by simp) rfl).2

end Node

end PeerMail
