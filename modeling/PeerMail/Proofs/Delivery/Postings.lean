import Mathlib.Data.Finmap
import Mathlib.Data.Finset.Sort
import PeerMail.Proofs.Delivery.Completeness
import PeerMail.Proofs.Delivery.Contents

/-!
# The queue is a map

To whoever uses it the queue is a finite map from names to what was queued under them, which can be
read in the order of the names.  The table behind it holds rows of plain bytes, and its answers
might differ from those of a map in two ways: a row might not mean what was put into it, and a
reading might set rows aside.  Neither happens to rows that the queue itself has written
(`queue_answers`).

What relates a database to a map is `Represents`: the rows of the queue are the messages of the map
in order.  One request keeps it and gets the same answer from both (`Represents.serve`).
-/

namespace PeerMail

/-! ## Maps of messages -/

/-- What is queued under a name. -/
structure Posting where
  peer : PeerId
  envelope : Envelope
  enqueuedAt : Int64
deriving DecidableEq

/-- What the message queues under its name. -/
def QueuedMessage.posting (message : QueuedMessage) : Posting :=
  ⟨message.peer, message.envelope, message.enqueuedAt⟩

/-- The message that queues it under a name. -/
def Posting.named (posting : Posting) (id : MessageId) : QueuedMessage :=
  ⟨id, posting.peer, posting.envelope, posting.enqueuedAt⟩

namespace MessageId

/-- The first name does not come after the second one. -/
def Le (first second : MessageId) : Prop := first.bytes ≤ second.bytes

instance : DecidableRel Le := fun first second =>
  inferInstanceAs (Decidable (first.bytes ≤ second.bytes))

instance : IsTrans MessageId Le := ⟨fun _ _ _ => List.le_trans⟩

instance : Std.Antisymm Le :=
  ⟨fun _ _ h h' => Database.bytes_eq_iff.mp (List.le_antisymm h h')⟩

instance : Std.Total Le := ⟨fun first second => List.le_total first.bytes second.bytes⟩

end MessageId

/-- Names with what is queued under them. -/
abbrev Postings := Finmap fun _ : MessageId => Posting

namespace Postings

variable {postings : Postings} {message other : QueuedMessage} {id : MessageId}

/-- The message under a name. -/
def message? (postings : Postings) (id : MessageId) : Option QueuedMessage :=
  (postings.lookup id).map fun posting => posting.named id

/-- The messages in the order of their names. -/
def messages (postings : Postings) : List QueuedMessage :=
  (postings.keys.sort MessageId.Le).filterMap postings.message?

theorem message?_eq_some_iff :
    postings.message? id = some message ↔
      message.id = id ∧ postings.lookup id = some message.posting := by
  obtain ⟨name, peer, envelope, enqueuedAt⟩ := message
  simp only [message?, Option.map_eq_some_iff, Posting.named, QueuedMessage.posting,
    QueuedMessage.mk.injEq]
  constructor
  · rintro ⟨posting, hposting, rfl, rfl, rfl, rfl⟩
    exact ⟨rfl, hposting⟩
  · rintro ⟨rfl, hposting⟩
    exact ⟨_, hposting, rfl, rfl, rfl, rfl⟩

theorem mem_messages : message ∈ postings.messages ↔
    postings.lookup message.id = some message.posting := by
  simp only [messages, List.mem_filterMap, Finset.mem_sort, Finmap.mem_keys, message?_eq_some_iff]
  constructor
  · rintro ⟨id, -, rfl, hposting⟩
    exact hposting
  · intro hposting
    exact ⟨message.id, Finmap.mem_iff.mpr ⟨_, hposting⟩, rfl, hposting⟩

/-- A name is there if a message is queued under it. -/
theorem mem_iff : id ∈ postings ↔ ∃ message ∈ postings.messages, message.id = id := by
  rw [Finmap.mem_iff]
  constructor
  · rintro ⟨posting, hposting⟩
    exact ⟨posting.named id, mem_messages.mpr hposting, rfl⟩
  · rintro ⟨message, hmessage, rfl⟩
    exact ⟨_, mem_messages.mp hmessage⟩

theorem ids_messages (postings : Postings) :
    postings.messages.map QueuedMessage.id = postings.keys.sort MessageId.Le := by
  -- something is queued under every name of the map, so none of them is left out
  have hids : ∀ ids : List MessageId, (∀ id ∈ ids, id ∈ postings) →
      (ids.filterMap postings.message?).map QueuedMessage.id = ids := by
    intro ids hall
    induction ids with
    | nil => rfl
    | cons id rest ih =>
        obtain ⟨posting, hposting⟩ := Finmap.mem_iff.mp (hall id List.mem_cons_self)
        have hmessage : postings.message? id = some (posting.named id) := by
          rw [message?, hposting, Option.map_some]
        rw [List.filterMap_cons_some hmessage, List.map_cons,
          ih fun other hother => hall other (List.mem_cons_of_mem _ hother)]
        rfl
  refine hids _ fun id hid => ?_
  rwa [Finset.mem_sort, Finmap.mem_keys] at hid

theorem length_messages (postings : Postings) : postings.messages.length = postings.keys.card := by
  rw [← Finset.length_sort MessageId.Le, ← ids_messages, List.length_map]

theorem sorted_messages (postings : Postings) :
    postings.messages.Pairwise fun a b => a.id.bytes < b.id.bytes := by
  have hsorted := Finset.pairwise_sort postings.keys MessageId.Le
  have hnodup := Finset.sort_nodup postings.keys MessageId.Le
  have hids : (postings.keys.sort MessageId.Le).Pairwise fun a b => a.bytes < b.bytes := by
    refine (hsorted.and hnodup).imp fun {first second} h => ?_
    refine Bytes.lt_of_not_lt_of_ne (List.not_lt.mpr h.1) fun heq => ?_
    exact h.2 (Database.bytes_eq_iff.mp heq).symm
  rw [← ids_messages, List.pairwise_map] at hids
  exact hids

/-! ### Messages that come and go -/

/-- The map with a message under its name. -/
def add (postings : Postings) (message : QueuedMessage) : Postings :=
  postings.insert message.id message.posting

/-- The map without a name. -/
def drop (postings : Postings) (id : MessageId) : Postings := postings.erase id

theorem mem_messages_add : other ∈ (postings.add message).messages ↔
    other = message ∨ other ∈ postings.messages ∧ other.id ≠ message.id := by
  have hsame : other.id = message.id → other.posting = message.posting → other = message := by
    intro hid hposting
    exact congrArg₂ Posting.named hposting hid
  rw [mem_messages, mem_messages, add]
  by_cases hid : other.id = message.id
  · rw [hid, Finmap.lookup_insert]
    constructor
    · intro hposting
      exact .inl (hsame hid (Option.some.inj hposting).symm)
    · rintro (rfl | ⟨-, hne⟩)
      · rfl
      · exact absurd rfl hne
  · rw [Finmap.lookup_insert_of_ne _ hid]
    constructor
    · intro hposting
      exact .inr ⟨hposting, hid⟩
    · rintro (rfl | ⟨hposting, -⟩)
      · exact absurd rfl hid
      · exact hposting

theorem mem_messages_drop : message ∈ (postings.drop id).messages ↔
    message ∈ postings.messages ∧ message.id ≠ id := by
  rw [mem_messages, mem_messages, drop]
  by_cases hid : message.id = id
  · subst hid
    simp [Finmap.lookup_erase]
  · simp [Finmap.lookup_erase_ne hid, hid]

end Postings

/-! ## Requests -/

/-- What the queue can be asked. -/
inductive QueueRequest where
  | add (message : QueuedMessage)
  | delete (id : MessageId)
  | list (after : Option MessageId) (limit : Nat)
  | count

/-- What it answers. -/
inductive QueueAnswer where
  | added (result : Except StorageError Unit)
  | deleted (result : Except StorageError Bool)
  | listed (result : Except StorageError (List QueuedMessage))
  | counted (result : Except StorageError Nat)
deriving DecidableEq

/-- The texts and lists of what is added are shorter than `2 ^ 32`. -/
def QueueRequest.Fits : QueueRequest → Prop
  | add message => message.envelope.Fits
  | delete _ | list _ _ | count => True

/-- Serves requests one after the other and keeps the answers. -/
def serveAll {σ : Type} (serve : σ → QueueRequest → QueueAnswer × σ) (state : σ) :
    List QueueRequest → List QueueAnswer × σ
  | [] => ([], state)
  | request :: rest =>
      let (answer, next) := serve state request
      let (answers, final) := serveAll serve next rest
      (answer :: answers, final)

/-- What a database answers, and what it is afterwards; what fails leaves it as it was. -/
def Database.serve (db : Database) : QueueRequest → QueueAnswer × Database
  | .add message =>
      match db.addMessage message with
      | .ok next => (.added (.ok ()), next)
      | .error fault => (.added (.error fault), db)
  | .delete id =>
      match db.deleteMessage id with
      | .ok (existed, next) => (.deleted (.ok existed), next)
      | .error fault => (.deleted (.error fault), db)
  | .list after limit =>
      let (found, next) := db.listMessages after limit
      (.listed found, next)
  | .count => (.counted db.countMessages, db)

/-- The messages behind a name in order, all of them if no name is given. -/
def Postings.behind (postings : Postings) (after : Option MessageId) : List QueuedMessage :=
  postings.messages.filter fun message => ∀ id ∈ after, id.bytes < message.id.bytes

/-- The first messages of a list.  A limit of `2 ^ 63` or more does not limit it. -/
def firstMessages (limit : Nat) (messages : List QueuedMessage) : List QueuedMessage :=
  if limit < 2 ^ 63 then messages.take limit else messages

/-- What a map answers, and what it is afterwards. -/
def Postings.serve (postings : Postings) : QueueRequest → QueueAnswer × Postings
  | .add message =>
      if message.id ∈ postings then
        (.added (.error (.database "UNIQUE constraint failed: outbox_messages.id")), postings)
      else (.added (.ok ()), postings.add message)
  | .delete id => (.deleted (.ok (decide (id ∈ postings))), postings.drop id)
  | .list after limit => (.listed (.ok (firstMessages limit (postings.behind after))), postings)
  | .count => (.counted (.ok postings.keys.card), postings)

/-! ## Rows of messages -/

variable {db : Database} {postings : Postings} {queue : QueueTable} {message : QueuedMessage}

namespace Postings

/-- The rows of a queue that holds the messages and nothing else. -/
def rows (postings : Postings) : List QueueRow := postings.messages.map QueuedMessage.toRow

theorem mem_rows {row : QueueRow} :
    row ∈ postings.rows ↔ ∃ message ∈ postings.messages, message.toRow = row :=
  List.mem_map

theorem sorted_rows (postings : Postings) : postings.rows.Pairwise fun a b => a.id < b.id :=
  List.pairwise_map.mpr postings.sorted_messages

theorem find?_eq_none_iff {id : MessageId} (hrows : queue.rows = postings.rows) :
    queue.find? id.bytes = none ↔ id ∉ postings := by
  rw [Table.find?_eq_none_iff, hrows, mem_iff]
  constructor
  · rintro hnone ⟨message, hmessage, rfl⟩
    exact hnone message.toRow (mem_rows.mpr ⟨message, hmessage, rfl⟩) rfl
  · intro hnone row hrow heq
    obtain ⟨message, hmessage, rfl⟩ := mem_rows.mp hrow
    exact hnone ⟨message, hmessage, Database.bytes_eq_iff.mp heq⟩

theorem rows_put (hrows : queue.rows = postings.rows) (message : QueuedMessage) :
    (queue.put message.toRow).rows = (postings.add message).rows := by
  refine Table.rows_eq_of_mem_iff (sorted_rows _) fun row => ?_
  rw [Table.mem_rows_put, hrows, mem_rows, mem_rows]
  constructor
  · rintro (rfl | ⟨⟨other, hother, rfl⟩, hne⟩)
    · exact ⟨message, mem_messages_add.mpr (.inl rfl), rfl⟩
    · have hid : other.id ≠ message.id := fun heq => hne (congrArg MessageId.bytes heq)
      exact ⟨other, mem_messages_add.mpr (.inr ⟨hother, hid⟩), rfl⟩
  · rintro ⟨other, hother, rfl⟩
    rcases mem_messages_add.mp hother with rfl | ⟨hold, hne⟩
    · exact .inl rfl
    · exact .inr ⟨⟨other, hold, rfl⟩, fun heq => hne (Database.bytes_eq_iff.mp heq)⟩

theorem rows_erase (hrows : queue.rows = postings.rows) (id : MessageId) :
    (queue.erase id.bytes).rows = (postings.drop id).rows := by
  refine Table.rows_eq_of_mem_iff (sorted_rows _) fun row => ?_
  rw [Table.erase_eq_without, Table.mem_rows_without, hrows, mem_rows, mem_rows]
  constructor
  · rintro ⟨⟨message, hmessage, rfl⟩, hkey⟩
    have hne : message.id ≠ id := by
      rintro rfl
      simp [QueuedMessage.toRow] at hkey
    exact ⟨message, mem_messages_drop.mpr ⟨hmessage, hne⟩, rfl⟩
  · rintro ⟨message, hmessage, rfl⟩
    obtain ⟨hold, hne⟩ := mem_messages_drop.mp hmessage
    exact ⟨⟨message, hold, rfl⟩, beq_eq_false_iff_ne.mpr fun heq =>
      hne (Database.bytes_eq_iff.mp heq)⟩

/-- The empty byte string comes before all names, so reading from it is reading from the start. -/
theorem after_rows (hrows : queue.rows = postings.rows) (after : Option MessageId) :
    queue.after ((after.map MessageId.bytes).getD []) =
      (postings.behind after).map QueuedMessage.toRow := by
  have hempty : ∀ id : MessageId, ([] : Bytes) < id.bytes := by
    intro id
    rw [Bytes.nil_lt_iff]
    intro hnil
    have hlength : id.bytes.length = 16 := id.value.property
    rw [hnil] at hlength
    cases hlength
  rw [Table.after, hrows, rows, List.filter_map, behind]
  congr 1
  refine List.filter_congr fun message _ => ?_
  show decide (_ < message.id.bytes) = decide _
  rw [decide_eq_decide]
  cases after with
  | none => simp [hempty]
  | some id => simp

end Postings

/-- Rows of messages are decoded, and none of them is set aside. -/
theorem Database.sweep_toRow {messages : List QueuedMessage}
    (hfits : ∀ message ∈ messages, message.envelope.Fits) :
    db.sweep (messages.map QueuedMessage.toRow) = (.ok messages, db) := by
  induction messages with
  | nil => rfl
  | cons message rest ih =>
      have hdecode := message.decode_toRow (hfits message List.mem_cons_self)
      have hrest := ih fun other hother => hfits other (List.mem_cons_of_mem _ hother)
      simp only [List.map_cons, Database.sweep, hdecode, hrest]
      rfl

theorem Database.page_toRow (limit : Nat) (messages : List QueuedMessage) :
    Database.page limit (messages.map QueuedMessage.toRow) =
      (firstMessages limit messages).map QueuedMessage.toRow := by
  have hbound : Nat.pow 2 63 = 2 ^ 63 := rfl
  unfold Database.page firstMessages
  rw [hbound]
  split
  · exact List.map_take.symm
  · rfl

theorem firstMessages_sublist (limit : Nat) (messages : List QueuedMessage) :
    (firstMessages limit messages).Sublist messages := by
  unfold firstMessages
  split
  · exact List.take_sublist limit messages
  · exact List.Sublist.refl messages

/-! ## Databases that hold a map -/

/-- The rows of the queue are the messages of the map, and no row has been set aside. -/
structure Represents (db : Database) (postings : Postings) : Prop where
  unlocked : db.queueLocked = false
  quarantine : db.quarantine = some .empty
  queue : ∃ queue, db.queue = some queue ∧ queue.rows = postings.rows
  fits : ∀ message ∈ postings.messages, message.envelope.Fits

namespace Represents

theorem empty : Represents .empty ∅ := by
  have hnone : (∅ : Postings).messages = [] := by
    rw [List.eq_nil_iff_forall_not_mem]
    intro message hmessage
    rw [Postings.mem_messages, Finmap.lookup_empty] at hmessage
    cases hmessage
  refine ⟨rfl, rfl, ⟨.empty, rfl, ?_⟩, ?_⟩
  · rw [Postings.rows, hnone]
    rfl
  · rw [hnone]
    exact fun message hmessage => absurd hmessage List.not_mem_nil

theorem add (h : Represents db postings) (hfits : message.envelope.Fits)
    (hnew : message.id ∉ postings) :
    ∃ next, db.addMessage message = .ok next ∧ Represents next (postings.add message) := by
  obtain ⟨queue, hqueue, hrows⟩ := h.queue
  have hfree : queue.find? message.toRow.id = none := (Postings.find?_eq_none_iff hrows).mpr hnew
  refine ⟨_, Database.addRow_eq_ok_iff.mpr ⟨queue, hqueue, hfree, rfl⟩, h.unlocked, h.quarantine,
    ⟨_, rfl, Postings.rows_put hrows message⟩, fun other hother => ?_⟩
  rcases Postings.mem_messages_add.mp hother with rfl | ⟨hold, -⟩
  · exact hfits
  · exact h.fits other hold

/-- A name that is there is not taken a second time. -/
theorem add_again (h : Represents db postings) (hold : message.id ∈ postings) :
    db.addMessage message =
      .error (.database "UNIQUE constraint failed: outbox_messages.id") := by
  obtain ⟨queue, hqueue, hrows⟩ := h.queue
  have htaken : (queue.find? message.toRow.id).isSome = true := by
    rw [Option.isSome_iff_ne_none]
    exact fun hnone => (Postings.find?_eq_none_iff hrows).mp hnone hold
  simp only [Database.addMessage, Database.addRow, hqueue, Database.require, Table.insert?, htaken,
    if_true, Database.unique, bind, Except.bind]
  rfl

theorem delete (h : Represents db postings) (id : MessageId) :
    ∃ next, db.deleteMessage id = .ok (decide (id ∈ postings), next) ∧
      Represents next (postings.drop id) := by
  obtain ⟨queue, hqueue, hrows⟩ := h.queue
  have hexisted : decide (id ∈ postings) = (queue.find? id.bytes).isSome := by
    rw [Bool.eq_iff_iff, decide_eq_true_eq, Option.isSome_iff_ne_none, Ne,
      Postings.find?_eq_none_iff hrows, not_not]
  refine ⟨_, Database.deleteRow_eq_ok_iff.mpr ⟨queue, hqueue, hexisted, fun _ => h.unlocked, rfl⟩,
    h.unlocked, h.quarantine, ⟨_, rfl, Postings.rows_erase hrows id⟩, fun message hmessage => ?_⟩
  exact h.fits message (Postings.mem_messages_drop.mp hmessage).1

theorem list (h : Represents db postings) (after : Option MessageId) (limit : Nat) :
    db.listMessages after limit = (.ok (firstMessages limit (postings.behind after)), db) := by
  obtain ⟨queue, hqueue, hrows⟩ := h.queue
  have hfits : ∀ message ∈ firstMessages limit (postings.behind after), message.envelope.Fits := by
    intro message hmessage
    have hbehind := (firstMessages_sublist limit (postings.behind after)).subset hmessage
    exact h.fits message (List.mem_filter.mp hbehind).1
  simp only [Database.listMessages, Database.listFrom, hqueue, Database.require,
    Postings.after_rows hrows, Database.page_toRow]
  -- the first page is the answer, since a page is only read again behind rows that are set aside
  cases hfound : firstMessages limit (postings.behind after) with
  | nil => rfl
  | cons first rest =>
      rw [hfound] at hfits
      have hsweep : db.sweep ((first :: rest).map QueuedMessage.toRow) = (.ok (first :: rest), db) :=
        Database.sweep_toRow hfits
      rw [List.map_cons] at hsweep ⊢
      simp only [hsweep]

theorem count (h : Represents db postings) : db.countMessages = .ok postings.keys.card := by
  obtain ⟨queue, hqueue, hrows⟩ := h.queue
  simp only [Database.countMessages, hqueue, Database.require, bind, Except.bind, pure, Except.pure,
    Table.size, hrows, Postings.rows, List.length_map, Postings.length_messages]

/-! ### One request, and a number of them -/

/-- **A database answers like the map that it holds**, and holds what the map has become. -/
theorem serve (h : Represents db postings) {request : QueueRequest} (hfits : request.Fits) :
    (db.serve request).1 = (postings.serve request).1 ∧
      Represents (db.serve request).2 (postings.serve request).2 := by
  cases request with
  | add message =>
      by_cases hold : message.id ∈ postings
      · simp only [Database.serve, Postings.serve, h.add_again hold, if_pos hold]
        exact ⟨trivial, h⟩
      · obtain ⟨next, hnext, hafter⟩ := h.add hfits hold
        simp only [Database.serve, Postings.serve, hnext, if_neg hold]
        exact ⟨trivial, hafter⟩
  | delete id =>
      obtain ⟨next, hnext, hafter⟩ := h.delete id
      simp only [Database.serve, Postings.serve, hnext]
      exact ⟨trivial, hafter⟩
  | list after limit =>
      simp only [Database.serve, Postings.serve, h.list after limit]
      exact ⟨trivial, h⟩
  | count =>
      simp only [Database.serve, Postings.serve, h.count]
      exact ⟨trivial, h⟩

theorem serveAll (h : Represents db postings) {requests : List QueueRequest}
    (hfits : ∀ request ∈ requests, request.Fits) :
    (PeerMail.serveAll Database.serve db requests).1 =
        (PeerMail.serveAll Postings.serve postings requests).1 ∧
      Represents (PeerMail.serveAll Database.serve db requests).2
        (PeerMail.serveAll Postings.serve postings requests).2 := by
  induction requests generalizing db postings with
  | nil => exact ⟨rfl, h⟩
  | cons request rest ih =>
      obtain ⟨hanswer, hnext⟩ := h.serve (hfits request List.mem_cons_self)
      obtain ⟨hanswers, hfinal⟩ :=
        ih hnext fun other hother => hfits other (List.mem_cons_of_mem _ hother)
      exact ⟨congrArg₂ List.cons hanswer hanswers, hfinal⟩

end Represents

/-- **The queue is a map.**  A database that is opened for the first time answers any number of
requests as a map does that holds nothing at first, provided that what is added is not too long; and
it never sets a row aside. -/
theorem queue_answers {path : String} {directory : Bool} {db : Database}
    (hopened : Database.openAt path ⟨directory, none⟩ = .ok db) {requests : List QueueRequest}
    (hfits : ∀ request ∈ requests, request.Fits) :
    (serveAll Database.serve db requests).1 = (serveAll Postings.serve ∅ requests).1 ∧
      (serveAll Database.serve db requests).2.quarantined = .ok [] := by
  have hempty : db = .empty := by
    unfold Database.openAt at hopened
    split_ifs at hopened <;> cases hopened <;> rfl
  have hrepresents : Represents db ∅ := hempty ▸ .empty
  obtain ⟨hanswers, hfinal⟩ := hrepresents.serveAll hfits
  refine ⟨hanswers, ?_⟩
  rw [Database.quarantined, hfinal.quarantine]
  rfl

/-! ### A name that is taken -/

open Outgoing (exampleMessage)

/-- Two messages are queued, a third one has a name that is taken, and one is removed. -/
def exampleRequests : List QueueRequest :=
  [.add (exampleMessage 3 7), .add (exampleMessage 1 8), .add (exampleMessage 3 9),
    .list none (2 ^ 63), .list (some (exampleMessage 1 8).id) 1, .delete (exampleMessage 3 7).id,
    .count]

theorem exampleRequests_answered :
    Database.openAt Database.inMemoryPath ⟨false, none⟩ = .ok .empty ∧
    (∀ request ∈ exampleRequests, request.Fits) ∧
    (serveAll Postings.serve ∅ exampleRequests).1 =
      [.added (.ok ()), .added (.ok ()),
        .added (.error (.database "UNIQUE constraint failed: outbox_messages.id")),
        .listed (.ok [exampleMessage 1 8, exampleMessage 3 7]), .listed (.ok [exampleMessage 3 7]),
        .deleted (.ok true), .counted (.ok 1)] ∧
    (serveAll Database.serve .empty exampleRequests).2.quarantined = .ok [] := by
  have hopened : Database.openAt Database.inMemoryPath ⟨false, none⟩ = .ok .empty := rfl
  have hempty : (⟨[], ⟨0, none⟩, []⟩ : Envelope).Fits := ⟨by decide, by rintro _ ⟨⟩, by decide⟩
  have hmessage : ∀ id byte, (exampleMessage id byte).envelope.Fits := fun _ _ => hempty
  have hfits : ∀ request ∈ exampleRequests, request.Fits := by
    simp [exampleRequests, QueueRequest.Fits, hmessage]
  obtain ⟨hanswers, hquarantine⟩ := queue_answers hopened hfits
  refine ⟨hopened, hfits, hanswers.symm.trans ?_, hquarantine⟩
  decide +kernel

end PeerMail
