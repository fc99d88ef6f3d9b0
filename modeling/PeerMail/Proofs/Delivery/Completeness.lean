import PeerMail.Proofs.Delivery.Walk

/-!
# What a flush comes to

With a database that does not fail and connections that no failure has been asked
of, a flush is known from the queue and the ways to the destinations (`Flushed`):
every message that can be decoded is attempted once, and in the order of the queue
among those for its destination; those that have a way leave by it; the others stay;
and what cannot be decoded is set aside.

`flush_settles` says so for any queue, any contacts, any connections and any size of
a page.  It also says that the bounds on readings and pages are never what ends a
flush.
-/

namespace PeerMail

variable {way : PeerId → Way} {queue : QueueTable} {quarantine : QuarantineTable}
  {messages attempts : List QueuedMessage} {peer : PeerId} {row : QueueRow}

/-! ## Bounds that are never reached -/

namespace FlushServices

variable {World : Type} {services other : FlushServices World}

theorem deliverGroup_congr (h : services.deliver = other.deliver) (messages : List QueuedMessage)
    (world : World) : services.deliverGroup messages world = other.deliverGroup messages world := by
  induction messages generalizing world with
  | nil => rfl
  | cons message rest ih =>
      simp only [deliverGroup, h]
      split
      · rfl
      · rw [ih]

theorem deliverAll_congr (h : services.deliver = other.deliver)
    (groups : List (PeerGroup QueuedMessage)) (report : FlushReport) (world : World) :
    services.deliverAll groups report world = other.deliverAll groups report world := by
  induction groups generalizing report world with
  | nil => rfl
  | cons group rest ih =>
      simp only [deliverAll, deliverGroup_congr h]
      split
      · rw [ih]
      · rw [ih]

theorem deleteAll_congr (h : services.delete = other.delete) (ids : List MessageId)
    (report : FlushReport) (world : World) :
    services.deleteAll ids report world = other.deleteAll ids report world := by
  induction ids generalizing report world with
  | nil => rfl
  | cons id rest ih =>
      simp only [deleteAll, h]
      split
      · rw [ih]
      · rw [ih]

/-- How pages are read does not matter once a page is there. -/
theorem flushPage_congr (hdeliver : services.deliver = other.deliver)
    (hdelete : services.delete = other.delete) (page : List QueuedMessage) (report : FlushReport)
    (world : World) : services.flushPage page report world = other.flushPage page report world := by
  simp only [flushPage, deliverAll_congr hdeliver, deleteAll_congr hdelete]

end FlushServices

namespace Outgoing

variable {outgoing : Outgoing} {readings maxPages maxPages' : Nat}

/-- The services with at most so many readings of the queue for one page. -/
def servicesWithin (readings : Nat) : FlushServices Outgoing :=
  { services with
    list := fun outgoing after limit =>
      let (page, db) := outgoing.db.listFrom (boundOf after) limit readings
      (page, { outgoing with db }) }

theorem list_within (h : outgoing.db.Holds queue quarantine) (hreadings : queue.size < readings)
    (after : Option MessageId) (limit : Nat) :
    (servicesWithin readings).list outgoing after limit = services.list outgoing after limit := by
  have hrows := length_after_lt queue (boundOf after)
  have hsame : outgoing.db.listFrom (boundOf after) limit readings =
      outgoing.db.listMessages after limit := by
    rw [Database.listMessages, h.queue]
    exact Database.listFrom_readings h (by omega) hrows
  simp only [servicesWithin, services, hsame]

/-- Enough pages and enough readings are as good as any other number of them. -/
theorem walk_within (cursor : PageCursor) (report : FlushReport) (hunarmed : outgoing.Unarmed)
    (hholds : outgoing.db.Holds queue quarantine) (hlimit : 1 ≤ cursor.pageSize)
    (hreadings : queue.size < readings)
    (hpages : (queue.after (boundOf cursor.after)).length < maxPages)
    (hpages' : (queue.after (boundOf cursor.after)).length < maxPages') :
    (servicesWithin readings).walk maxPages cursor report outgoing =
      services.walk maxPages' cursor report outgoing := by
  induction maxPages generalizing outgoing queue quarantine cursor report maxPages' with
  | zero => omega
  | succ maxPages ih =>
      obtain ⟨maxPages', rfl⟩ : ∃ less, maxPages' = less + 1 := ⟨maxPages' - 1, by omega⟩
      simp only [FlushServices.walk, list_within hholds hreadings]
      by_cases hnone : messagesIn (queue.after (boundOf cursor.after)) = []
      · rw [list_of_none hholds hlimit hnone]
        simp [PageCursor.advance?_nil]
      · obtain ⟨part, rest, last, hpage⟩ := exists_page hunarmed hholds hlimit hnone
        -- both walks deal with the same page and go on from the same place
        have hless := hpage.shorter
        have hsize : (queue.without (leavesVia outgoing.way part)).size ≤ queue.size :=
          List.length_filter_le _ _
        rw [hpage.listed]
        dsimp only
        rw [hpage.moved]
        dsimp only
        have hdeliver : (servicesWithin readings).deliver = services.deliver := rfl
        have hdelete : (servicesWithin readings).delete = services.delete := rfl
        rw [FlushServices.flushPage_congr hdeliver hdelete, hpage.flushed]
        dsimp only
        refine ih _ _ hunarmed.reached (holds_reached hholds.unlocked) hlimit (by omega) ?_ ?_
        · rw [hpage.next]
          omega
        · rw [hpage.next]
          omega

end Outgoing

/-! ## The logs, destination by destination -/

theorem sentVia_filter (way : PeerId → Way) (messages : List QueuedMessage) (peer : PeerId) :
    ((sentVia way messages).filter fun sent => sent.peer == peer) =
      if way peer = .direct then
        (messages.filter fun message => message.peer == peer).map QueuedMessage.attempt
      else [] := by
  induction messages with
  | nil => simp [sentVia]
  | cons message rest ih =>
      have hcons : sentVia way (message :: rest) = sentVia way [message] ++ sentVia way rest :=
        List.filterMap_append (l := [message])
      rw [hcons, List.filter_append, ih]
      by_cases hpeer : message.peer = peer
      · subst hpeer
        cases hway : way message.peer <;> simp [sentVia, hway, QueuedMessage.attempt]
      · cases hway : way message.peer <;> simp [sentVia, hway, hpeer]

theorem handedVia_filter (way : PeerId → Way) (messages : List QueuedMessage) (peer : PeerId) :
    ((handedVia way messages).filter fun handoff => handoff.peer == peer) =
      match way peer with
      | .relayed inboxes =>
          (messages.filter fun message => message.peer == peer).map
            fun message => ⟨peer, message.envelope, inboxes⟩
      | _ => [] := by
  induction messages with
  | nil => cases way peer <;> simp [handedVia]
  | cons message rest ih =>
      have hcons : handedVia way (message :: rest) =
          handedVia way [message] ++ handedVia way rest :=
        List.filterMap_append (l := [message])
      rw [hcons, List.filter_append, ih]
      by_cases hpeer : message.peer = peer
      · subst hpeer
        cases hway : way message.peer <;> simp [handedVia, hway]
      · cases hway : way message.peer <;> cases way peer <;> simp [handedVia, hway, hpeer]

/-! ## Rows without a name -/

/-- A row without a name is never listed and cannot be decoded. -/
theorem messagesIn_after_nil (queue : QueueTable) :
    messagesIn (queue.after []) = messagesIn queue.rows := by
  unfold messagesIn Table.after
  rw [List.filterMap_filter]
  refine List.filterMap_congr fun row _ => ?_
  by_cases hid : row.id = []
  · have hcorrupt : row.message? = none := by
      rw [QueueRow.message?_eq_none_iff]
      exact ⟨.corrupt queueName "invalid id", by
        simp [QueueRow.decode, hid, MessageId.ofBytes?, Bytes.exactly?]⟩
    simp [hcorrupt]
  · simp [Bytes.nil_lt_iff.mpr hid]

theorem stays_iff (hrow : row ∈ queue.rows) :
    leavesVia way (queue.after []) row = false ↔
      row.id = [] ∨ ∃ message, row.decode = .ok message ∧ way message.peer = .blocked := by
  have hmem : row ∈ queue.after [] ↔ row.id ≠ [] := by
    rw [Table.mem_after, Bytes.nil_lt_iff]
    exact and_iff_right hrow
  by_cases hid : row.id = []
  · simp [leavesVia, hmem, hid]
  · cases hmessage : row.message? with
    | none =>
        obtain ⟨fault, hfault⟩ := QueueRow.message?_eq_none_iff.mp hmessage
        simp [leavesVia, hmem, hid, hmessage, hfault]
    | some message =>
        have hdecode := QueueRow.message?_eq_some_iff.mp hmessage
        cases hway : way message.peer <;>
          simp [leavesVia, hmem, hid, hmessage, hdecode, hway, Way.route?]

/-! ## The whole flush -/

/-- The envelopes in a queue for a destination, in order. -/
def envelopesFor (queue : QueueTable) (peer : PeerId) : List Envelope :=
  ((messagesIn queue.rows).filter fun message => message.peer == peer).map QueuedMessage.envelope

/-- What a flush comes to, given the queue and the rows set aside before it. -/
structure Flushed (before : Outgoing) (queue : QueueTable) (quarantine : QuarantineTable)
    (attempts : List Sent) (report : FlushReport) (after : Outgoing) : Prop where
  /-- Every message that can be decoded is attempted once, and nothing else is. -/
  once : attempts.Perm ((messagesIn queue.rows).map QueuedMessage.attempt)
  /-- For every destination the attempts are in the order of the queue. -/
  ordered : ∀ peer, (attempts.filter fun attempt => attempt.peer == peer).map Sent.envelope =
    envelopesFor queue peer
  /-- Over a connection goes what is for a connected peer. -/
  sent : ∀ peer, after.transport.sentTo peer = before.transport.sentTo peer ++
    if before.way peer = .direct then envelopesFor queue peer else []
  /-- To the relay goes what is for a peer with inboxes, at these inboxes. -/
  handed : ∀ peer, after.relay.handoffsFor peer = before.relay.handoffsFor peer ++
    match before.way peer with
    | .relayed inboxes => (envelopesFor queue peer).map fun envelope => ⟨peer, envelope, inboxes⟩
    | _ => []
  /-- Messages without a way stay, and so does a row without a name. -/
  left : ∃ left, after.db.queue = some left ∧ report.pending = left.size ∧
    ∀ row, row ∈ left.rows ↔ row ∈ queue.rows ∧ (row.id = [] ∨
      ∃ message, row.decode = .ok message ∧ before.way message.peer = .blocked)
  /-- Every other row that cannot be decoded is set aside, with the reason, and nothing else is. -/
  aside : ∃ aside, after.db.quarantine = some aside ∧
    (∀ row ∈ queue.rows, row.id ≠ [] → ∀ fault, row.decode = .error fault →
      aside.find? row.id = some ⟨row, fault.message⟩) ∧
    ∀ key, (∀ row ∈ queue.rows, row.id = key → row.id = [] ∨
      ∃ message, row.decode = .ok message) → aside.find? key = quarantine.find? key
  directory : before.db.SameDirectory after.db
  transport : after.transport = { before.transport with sent := after.transport.sent }
  relay : after.relay = { before.relay with handoffs := after.relay.handoffs }
  attempted : report.attempted = (messagesIn queue.rows).length
  direct : report.direct = countVia before.way .direct (messagesIn queue.rows)
  relayed : report.relayed = countVia before.way .relayed (messagesIn queue.rows)
  deleted : report.deleted = report.direct + report.relayed

namespace Outgoing

variable {outgoing : Outgoing}

theorem sent_reached (hsame : SameByPeer QueuedMessage.peer attempts (messagesIn queue.rows))
    (left : QueueTable) (peer : PeerId) :
    (outgoing.reached attempts left quarantine).transport.sentTo peer =
      outgoing.transport.sentTo peer ++
        if outgoing.way peer = .direct then envelopesFor queue peer else [] := by
  show ((outgoing.transport.sent ++ sentVia outgoing.way attempts).filter
    fun sent => sent.peer == peer).map Sent.envelope = _
  rw [List.filter_append, List.map_append, sentVia_filter, hsame peer]
  split
  · rw [List.map_map]
    rfl
  · rfl

theorem handed_reached (hsame : SameByPeer QueuedMessage.peer attempts (messagesIn queue.rows))
    (left : QueueTable) (peer : PeerId) :
    (outgoing.reached attempts left quarantine).relay.handoffsFor peer =
      outgoing.relay.handoffsFor peer ++
        match outgoing.way peer with
        | .relayed inboxes =>
            (envelopesFor queue peer).map fun envelope => ⟨peer, envelope, inboxes⟩
        | _ => [] := by
  show (outgoing.relay.handoffs ++ handedVia outgoing.way attempts).filter
    (fun handoff => handoff.peer == peer) = _
  rw [List.filter_append, handedVia_filter, hsame peer]
  cases outgoing.way peer with
  | relayed inboxes =>
      simp only [envelopesFor, List.map_map]
      rfl
  | _ => rfl

/-- A flush that has gone through the whole queue has settled it. -/
theorem flushed_of_reached (quarantine : QuarantineTable)
    (hsame : SameByPeer QueuedMessage.peer attempts (messagesIn queue.rows)) (pages : Nat) :
    Flushed outgoing queue quarantine (attempts.map QueuedMessage.attempt)
      { account outgoing.way (messagesIn queue.rows) {} with
        pages, pending := (queue.without (leavesVia outgoing.way (queue.after []))).size }
      (outgoing.reached attempts (queue.without (leavesVia outgoing.way (queue.after [])))
        (setAsideAll quarantine (queue.after []))) := by
  constructor
  case once => exact hsame.perm.map _
  case ordered =>
    intro peer
    rw [List.filter_map, List.map_map, envelopesFor, ← hsame peer]
    rfl
  case sent => exact fun peer => sent_reached hsame _ peer
  case handed => exact fun peer => handed_reached hsame _ peer
  case left =>
    refine ⟨_, rfl, rfl, fun row => ?_⟩
    rw [Table.mem_rows_without]
    exact and_congr_right stays_iff
  case aside =>
    refine ⟨_, rfl, ?_, ?_⟩
    · intro row hrow hid fault hfault
      refine find?_setAsideAll_of_corrupt (queue.sorted_after []) ?_ hfault
      exact Table.mem_after.mpr ⟨hrow, Bytes.nil_lt_iff.mpr hid⟩
    · intro key hkey
      refine find?_setAsideAll_of_other fun row hrow hid => ?_
      obtain ⟨hmem, hnamed⟩ := Table.mem_after.mp hrow
      exact (hkey row hmem hid).resolve_left (Bytes.nil_lt_iff.mp hnamed)
  case directory => exact ⟨rfl, rfl, rfl, rfl⟩
  case transport => rfl
  case relay => rfl
  case attempted => exact Nat.zero_add _
  case direct => exact Nat.zero_add _
  case relayed => exact Nat.zero_add _
  case deleted =>
    show 0 + (leaving outgoing.way (messagesIn queue.rows)).length =
      0 + countVia outgoing.way .direct (messagesIn queue.rows) +
        (0 + countVia outgoing.way .relayed (messagesIn queue.rows))
    rw [length_leaving]
    omega

/-- **A flush settles the queue**: it ends by itself, and what it comes to is known. -/
theorem flush_settles (hholds : outgoing.db.Holds queue quarantine) (hunarmed : outgoing.Unarmed)
    (pageSize : Nat) :
    (∀ readings maxPages, queue.size < readings → queue.size < maxPages →
      (servicesWithin readings).flush maxPages pageSize outgoing = outgoing.flush pageSize) ∧
    ∃ attempts,
      services.recording.flush (queue.size + 1) pageSize (outgoing, []) =
        ((outgoing.flush pageSize).1, (outgoing.flush pageSize).2, attempts) ∧
      Flushed outgoing queue quarantine attempts (outgoing.flush pageSize).1
        (outgoing.flush pageSize).2 := by
  have hlimit : 1 ≤ (PageCursor.start pageSize).pageSize := Nat.le_max_right pageSize 1
  have hrows : (queue.after (boundOf (PageCursor.start pageSize).after)).length < queue.size + 1 :=
    length_after_lt queue _
  have hflush : outgoing.flush pageSize =
      services.flush (queue.size + 1) pageSize outgoing := by
    rw [Outgoing.flush, hholds.queue]
    rfl
  constructor
  · intro readings maxPages hreadings hpages
    rw [hflush]
    unfold FlushServices.flush
    rw [walk_within _ _ hunarmed hholds hlimit hreadings (by omega) hrows]
    rfl
  · obtain ⟨attempts, pages, hsame, hwalk⟩ :=
      walk_eq (.start pageSize) {} [] hunarmed hholds hlimit hrows
    rw [show boundOf (PageCursor.start pageSize).after = [] from rfl] at hsame hwalk
    rw [messagesIn_after_nil] at hsame hwalk
    -- the walk goes through the whole queue, and nothing is left to do but to count
    have hrecorded : services.recording.flush (queue.size + 1) pageSize (outgoing, []) =
        ({ account outgoing.way (messagesIn queue.rows) {} with
            pages, pending := (queue.without (leavesVia outgoing.way (queue.after []))).size },
          outgoing.reached attempts (queue.without (leavesVia outgoing.way (queue.after [])))
            (setAsideAll quarantine (queue.after [])),
          attempts.map QueuedMessage.attempt) := by
      simp only [FlushServices.flush, hwalk, FlushServices.recording_count, List.nil_append]
      rfl
    -- without the record it is the flush itself
    obtain ⟨record, hplain⟩ :=
      FlushServices.flush_recording services_unbroken (queue.size + 1) pageSize outgoing []
    rw [← hflush, hrecorded, Prod.mk.injEq, Prod.mk.injEq] at hplain
    refine ⟨attempts.map QueuedMessage.attempt, ?_, ?_⟩
    · rw [hrecorded, ← hplain.1, ← hplain.2.1]
    · rw [← hplain.1, ← hplain.2.1]
      exact flushed_of_reached quarantine hsame pages

/-! ### A queue with every kind of row -/

/-- The peer whose name repeats a byte. -/
def examplePeer (byte : UInt8) : PeerId := ⟨⟨List.replicate 32 byte, by simp⟩⟩

/-- A message for that peer, with nothing in it. -/
def exampleMessage (id byte : UInt8) : QueuedMessage :=
  ⟨⟨⟨List.replicate 16 id, by simp⟩⟩, examplePeer byte, ⟨[], ⟨0, none⟩, []⟩, 0⟩

/-- A row without a name, one whose name is too short, and messages for three peers. -/
def exampleQueue : QueueTable :=
  ((((Table.empty.put ⟨[], [], [], 0⟩).put (exampleMessage 1 7).toRow).put ⟨[2], [], [], 0⟩).put
    (exampleMessage 3 8).toRow).put (exampleMessage 4 9).toRow

/-- There is a connection to the first peer, inboxes of the second, and a damaged contact for the
third. -/
def exampleOutgoing : Outgoing where
  db := { Database.empty with
    queue := some exampleQueue
    contacts := some ((Table.empty.put (Contact.toRow ⟨examplePeer 8, ["inbox"]⟩)).put
      ⟨(examplePeer 9).bytes, "inbox"⟩) }
  transport := (Transport.fresh true).connect (examplePeer 7)
  relay := .fresh

/-- One message is sent, one is handed over and one stays, on pages of two. -/
theorem exampleOutgoing_flushed :
    (exampleOutgoing.flush 2).1 = ⟨2, 3, 1, 1, 2, 2⟩ ∧
    (∀ readings maxPages, exampleQueue.size < readings → exampleQueue.size < maxPages →
      (servicesWithin readings).flush maxPages 2 exampleOutgoing = exampleOutgoing.flush 2) ∧
    ∃ attempts, Flushed exampleOutgoing exampleQueue .empty attempts (exampleOutgoing.flush 2).1
      (exampleOutgoing.flush 2).2 := by
  have hholds : exampleOutgoing.db.Holds exampleQueue .empty := ⟨rfl, rfl, rfl⟩
  have hunarmed : exampleOutgoing.Unarmed := ⟨by decide, by decide⟩
  obtain ⟨hends, attempts, -, hflushed⟩ := flush_settles hholds hunarmed 2
  exact ⟨by decide +kernel, hends, attempts, hflushed⟩

end Outgoing

end PeerMail
