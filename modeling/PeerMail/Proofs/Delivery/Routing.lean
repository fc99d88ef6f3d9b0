import PeerMail.Delivery.Flush
import PeerMail.Proofs.Delivery.Grouping
import PeerMail.Proofs.Delivery.Listing

/-!
# Which way a message leaves

As long as no failure of the connections has been asked for, what happens to a
message depends on its destination only: it goes over a connection if there is one,
else to a relay if one takes it at known inboxes, and else it stays (`way`).  A
delivery writes to one of the two logs or to none, and neither of the logs has a say
in what happens to the next message, so a row of deliveries is known from the
messages alone (`deliverAll_eq`).
-/

namespace PeerMail

/-! ## Ways -/

/-- The way to a destination. -/
inductive Way where
  /-- Over a connection. -/
  | direct
  /-- To a relay, at the inboxes of the peer. -/
  | relayed (inboxes : List String)
  /-- None: the message stays. -/
  | blocked
deriving DecidableEq

/-- How a message leaves, if it does. -/
def Way.route? : Way → Option Route
  | direct => some .direct
  | relayed _ => some .relayed
  | blocked => none

/-- What is counted for each route is the number of messages that have left by it. -/
theorem FlushServices.foldl_countRoute (taken : List Route) (report : FlushReport) :
    taken.foldl countRoute report = { report with
      direct := report.direct + taken.count .direct
      relayed := report.relayed + taken.count .relayed } := by
  induction taken generalizing report with
  | nil => rfl
  | cons route rest ih =>
      rw [List.foldl_cons, ih]
      cases route <;> simp [countRoute, Nat.add_assoc, Nat.add_comm 1]

namespace Outgoing

/-- No failure of the connections has been asked for. -/
structure Unarmed (outgoing : Outgoing) : Prop where
  check : outgoing.transport.failNextCheck = none
  send : outgoing.transport.failNextSend = none

/-- Over a connection if there is one, else to a relay that takes the message at the inboxes noted
for the peer. -/
def way (outgoing : Outgoing) (peer : PeerId) : Way :=
  if outgoing.transport.online = true ∧ peer ∈ outgoing.transport.connected then .direct
  else
    match outgoing.db.contact? peer with
    | .ok (some contact) =>
        if contact.inboxes = [] ∨ outgoing.relay.rejecting ≠ none then .blocked
        else .relayed contact.inboxes
    | _ => .blocked

end Outgoing

/-- What messages add to the log of the connections. -/
def sentVia (way : PeerId → Way) (messages : List QueuedMessage) : List Sent :=
  messages.filterMap fun message =>
    match way message.peer with
    | .direct => some ⟨message.peer, message.envelope⟩
    | _ => none

/-- What messages add to the log of the relay. -/
def handedVia (way : PeerId → Way) (messages : List QueuedMessage) : List Handoff :=
  messages.filterMap fun message =>
    match way message.peer with
    | .relayed inboxes => some ⟨message.peer, message.envelope, inboxes⟩
    | _ => none

/-- The number of messages that leave by a route. -/
def countVia (way : PeerId → Way) (route : Route) (messages : List QueuedMessage) : Nat :=
  messages.countP fun message => (way message.peer).route? == some route

/-- The messages that do not stay. -/
def leaving (way : PeerId → Way) (messages : List QueuedMessage) : List QueuedMessage :=
  messages.filter fun message => (way message.peer).route?.isSome

/-- What a worker hands in: the messages that do not stay, with the way they leave. -/
def acceptedVia (way : PeerId → Way) (messages : List QueuedMessage) : List (MessageId × Route) :=
  messages.flatMap fun message => ((way message.peer).route?.map (message.id, ·)).toList

variable {way : PeerId → Way} {message : QueuedMessage} {messages more : List QueuedMessage}

theorem ids_acceptedVia (way : PeerId → Way) (messages : List QueuedMessage) :
    (acceptedVia way messages).map Prod.fst = (leaving way messages).map QueuedMessage.id := by
  induction messages with
  | nil => rfl
  | cons message rest ih =>
      unfold acceptedVia leaving at ih ⊢
      rw [List.flatMap_cons, List.map_append, ih, List.filter_cons]
      cases (way message.peer).route? <;> simp

theorem count_acceptedVia (way : PeerId → Way) (route : Route) (messages : List QueuedMessage) :
    ((acceptedVia way messages).map Prod.snd).count route = countVia way route messages := by
  induction messages with
  | nil => rfl
  | cons message rest ih =>
      unfold acceptedVia countVia at ih ⊢
      rw [List.flatMap_cons, List.map_append, List.count_append, ih, List.countP_cons, Nat.add_comm]
      cases (way message.peer).route? <;> simp [List.count_singleton, beq_eq_decide]

theorem sentVia_append :
    sentVia way (messages ++ more) = sentVia way messages ++ sentVia way more :=
  List.filterMap_append

theorem handedVia_append :
    handedVia way (messages ++ more) = handedVia way messages ++ handedVia way more :=
  List.filterMap_append

/-- Every message that leaves does so by one of the two routes. -/
theorem length_leaving (way : PeerId → Way) (messages : List QueuedMessage) :
    (leaving way messages).length =
      countVia way .direct messages + countVia way .relayed messages := by
  induction messages with
  | nil => rfl
  | cons message rest ih =>
      unfold leaving countVia at ih ⊢
      rw [List.filter_cons, List.countP_cons, List.countP_cons]
      rcases (way message.peer).route? with _ | _ | _
      · simpa using ih
      · simp
        omega
      · simp
        omega

/-! ## One delivery -/

namespace Outgoing

variable {outgoing : Outgoing}

/-- What is left after an attempt to deliver messages. -/
def attempting (outgoing : Outgoing) (messages : List QueuedMessage) : Outgoing :=
  { outgoing with
    transport := { outgoing.transport with
      sent := outgoing.transport.sent ++ sentVia outgoing.way messages }
    relay := { outgoing.relay with
      handoffs := outgoing.relay.handoffs ++ handedVia outgoing.way messages } }

@[simp] theorem way_attempting : (outgoing.attempting messages).way = outgoing.way := rfl

theorem Unarmed.attempting (h : outgoing.Unarmed) (messages : List QueuedMessage) :
    (outgoing.attempting messages).Unarmed :=
  ⟨h.check, h.send⟩

theorem attempting_nil (outgoing : Outgoing) : outgoing.attempting [] = outgoing := by
  simp [attempting, sentVia, handedVia]

theorem attempting_append :
    (outgoing.attempting messages).attempting more = outgoing.attempting (messages ++ more) := by
  simp only [attempting, sentVia_append, handedVia_append, List.append_assoc]
  rfl

theorem attempting_of_blocked (h : outgoing.way message.peer = .blocked) :
    outgoing.attempting [message] = outgoing := by
  simp [attempting, sentVia, handedVia, h]

/-- Without a connection the transport refuses and forgets nothing. -/
theorem transport_deliver_of_not_connected {transport : Transport} {peer : PeerId}
    (envelope : Envelope) (hcheck : transport.failNextCheck = none)
    (h : ¬ (transport.online = true ∧ peer ∈ transport.connected)) :
    ∃ reason, transport.deliver peer envelope = (.error reason, transport) := by
  unfold Transport.deliver
  by_cases honline : transport.online = true
  · have hpeer : peer ∉ transport.connected := fun hmem => h ⟨honline, hmem⟩
    exact ⟨.unreachable peer, by simp [honline, Transport.check, hcheck, hpeer]⟩
  · exact ⟨.offline, by simp [honline]⟩

theorem deliver_of_direct (h : outgoing.Unarmed) (hway : outgoing.way message.peer = .direct) :
    outgoing.deliver message.peer message.envelope =
      (.ok .direct, outgoing.attempting [message]) := by
  have hconnected : outgoing.transport.online = true ∧
      message.peer ∈ outgoing.transport.connected := by
    by_contra hnot
    rw [way, if_neg hnot] at hway
    split at hway
    · split at hway <;> cases hway
    · cases hway
  have hsend : outgoing.transport.deliver message.peer message.envelope =
      (.ok (), { outgoing.transport with
        sent := outgoing.transport.sent ++ [⟨message.peer, message.envelope⟩] }) := by
    simp [Transport.deliver, Transport.check, Transport.send, hconnected.1, hconnected.2, h.check,
      h.send]
  simp [deliver, hsend, attempting, sentVia, handedVia, hway]

theorem not_connected_of_way (hway : outgoing.way message.peer ≠ .direct) :
    ¬ (outgoing.transport.online = true ∧ message.peer ∈ outgoing.transport.connected) := by
  intro hconnected
  rw [way, if_pos hconnected] at hway
  exact hway rfl

theorem deliver_of_not_direct (h : outgoing.Unarmed) (hway : outgoing.way message.peer ≠ .direct) :
    outgoing.deliver message.peer message.envelope =
      match outgoing.handOver message.peer message.envelope with
      | .ok outgoing => (.ok .relayed, outgoing)
      | .error reason => (.error reason, outgoing) := by
  obtain ⟨reason, hrefused⟩ :=
    transport_deliver_of_not_connected message.envelope h.check (not_connected_of_way hway)
  unfold deliver
  generalize outgoing.transport.deliver message.peer message.envelope = outcome at hrefused
  subst hrefused
  rfl

theorem deliver_of_relayed (h : outgoing.Unarmed) {inboxes : List String}
    (hway : outgoing.way message.peer = .relayed inboxes) :
    outgoing.deliver message.peer message.envelope =
      (.ok .relayed, outgoing.attempting [message]) := by
  have hdirect : outgoing.way message.peer ≠ .direct := by simp [hway]
  have hhand : outgoing.handOver message.peer message.envelope =
      .ok (outgoing.attempting [message]) := by
    have hlogs : outgoing.attempting [message] = { outgoing with
        relay := { outgoing.relay with
          handoffs := outgoing.relay.handoffs ++
            [⟨message.peer, message.envelope, inboxes⟩] } } := by
      simp [attempting, sentVia, handedVia, hway]
    rw [hlogs]
    rw [way, if_neg (not_connected_of_way hdirect)] at hway
    split at hway
    · next contact hcontact =>
        split at hway
        · cases hway
        · next hopen =>
            obtain ⟨hne, haccepts⟩ : contact.inboxes ≠ [] ∧ outgoing.relay.rejecting = none := by
              simpa using hopen
            cases hway
            simp [handOver, hcontact, Relay.handOver, hne, haccepts, Except.mapError, bind,
              Except.bind]
    · cases hway
  rw [deliver_of_not_direct h hdirect, hhand]

theorem deliver_of_blocked (h : outgoing.Unarmed) (hway : outgoing.way message.peer = .blocked) :
    ∃ reason, outgoing.deliver message.peer message.envelope = (.error reason, outgoing) := by
  have hdirect : outgoing.way message.peer ≠ .direct := by simp [hway]
  have hhand : ∃ reason, outgoing.handOver message.peer message.envelope = .error reason := by
    rw [way, if_neg (not_connected_of_way hdirect)] at hway
    unfold handOver
    cases hcontact : outgoing.db.contact? message.peer with
    | error fault => exact ⟨.storage fault, by simp [Except.mapError, bind, Except.bind]⟩
    | ok found =>
        cases found with
        | none => exact ⟨.noRoute message.peer, by simp [Except.mapError, bind, Except.bind]⟩
        | some contact =>
            by_cases hempty : contact.inboxes = []
            · exact ⟨.noRoute message.peer, by
                simp [hempty, Except.mapError, bind, Except.bind]⟩
            · have hrejecting : outgoing.relay.rejecting ≠ none := by
                intro haccepts
                simp [hcontact, hempty, haccepts] at hway
              obtain ⟨reason, hreason⟩ := Option.ne_none_iff_exists'.mp hrejecting
              exact ⟨.relay (.rejected reason), by
                simp [hempty, Relay.handOver, hreason, Except.mapError, bind, Except.bind]⟩
  obtain ⟨reason, hreason⟩ := hhand
  exact ⟨reason, by rw [deliver_of_not_direct h hdirect, hreason]⟩

/-- A delivery goes the way there is, and leaves its entry in the log of that way. -/
theorem deliver_eq (h : outgoing.Unarmed) (message : QueuedMessage) :
    ∃ outcome, outgoing.deliver message.peer message.envelope =
        (outcome, outgoing.attempting [message]) ∧
      outcome.toOption = (outgoing.way message.peer).route? := by
  cases hway : outgoing.way message.peer with
  | direct => exact ⟨_, deliver_of_direct h hway, rfl⟩
  | relayed inboxes => exact ⟨_, deliver_of_relayed h hway, rfl⟩
  | blocked =>
      obtain ⟨reason, hstays⟩ := deliver_of_blocked h hway
      rw [attempting_of_blocked hway]
      exact ⟨_, hstays, rfl⟩

end Outgoing

end PeerMail
