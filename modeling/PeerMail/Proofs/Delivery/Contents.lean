import PeerMail.Proofs.Delivery.Walk
import PeerMail.Proofs.Wire.Codec

/-!
# The messages in the queue

What waits in the queue are the messages in its rows, in the order of their names.  A
new message joins them, a removed one leaves, and setting aside a row that is no message
changes nothing.

So a reading changes nothing either, whether it succeeds or fails, and whatever state the
tables are in (`listFrom_found`): what it finds is a first part of the messages behind its
bound, and it finds nothing only if there are none.  What a walk needs to know of a page is
where its messages lie between the old cursor and the new one (`Taken`).
-/

namespace PeerMail

/-- A stored message is what its row means. -/
theorem QueuedMessage.decode_toRow {message : QueuedMessage} (h : message.envelope.Fits) :
    message.toRow.decode = .ok message := by
  obtain ⟨⟨id, hid⟩, ⟨peer, hpeer⟩, envelope, enqueuedAt⟩ := message
  have henvelope : Envelope.ofBytes envelope.toBytes = .ok envelope := by
    simpa using Envelope.codec.reads_written envelope h []
  simp [toRow, QueueRow.decode, MessageId.ofBytes?, MessageId.bytes, PeerId.ofBytes?, PeerId.bytes,
    Bytes.exactly?, hid, hpeer, henvelope]

namespace Database

open Outgoing (boundOf length_after_lt)

/-- The messages in the queue. -/
def waiting (db : Database) : List QueuedMessage := messagesIn ((db.queue.map Table.rows).getD [])

variable {db next : Database} {message other : QueuedMessage} {queue : QueueTable} {row : QueueRow}
  {rows rest : List QueueRow} {page : List QueuedMessage} {bound : Bytes} {fuel limit : Nat}

theorem waiting_of_queue (h : db.queue = some queue) : db.waiting = messagesIn queue.rows := by
  rw [waiting, h]
  rfl

theorem sorted_messagesIn (h : rows.Pairwise fun a b => a.id < b.id) :
    (messagesIn rows).Pairwise fun a b => a.id.bytes < b.id.bytes := by
  refine h.filterMap _ fun first second hlt message hmessage other hother => ?_
  rw [id_of_decode (QueueRow.message?_eq_some_iff.mp hmessage),
    id_of_decode (QueueRow.message?_eq_some_iff.mp hother)]
  exact hlt

/-- The messages wait in the order of their names. -/
theorem sorted_waiting (db : Database) : db.waiting.Pairwise fun a b => a.id.bytes < b.id.bytes := by
  unfold waiting
  cases db.queue with
  | none => exact .nil
  | some queue => exact sorted_messagesIn queue.sorted

/-- Messages in order have different names. -/
theorem nodup_ids_of_sorted {messages : List QueuedMessage}
    (h : messages.Pairwise fun a b => a.id.bytes < b.id.bytes) :
    (messages.map QueuedMessage.id).Nodup := by
  refine List.pairwise_map.mpr (h.imp fun hlt heq => ?_)
  exact Bytes.ne_of_lt hlt (congrArg MessageId.bytes heq)

/-! ## Rows that come and go -/

theorem messagesIn_filter (wanted : Bytes → Bool) :
    messagesIn (rows.filter fun row => wanted row.id) =
      (messagesIn rows).filter fun message => wanted message.id.bytes := by
  induction rows with
  | nil => rfl
  | cons first rest ih =>
      cases hdecode : first.decode with
      | error fault =>
          rw [messagesIn_cons_error hdecode, ← ih, List.filter_cons]
          split
          · exact messagesIn_cons_error hdecode
          · rfl
      | ok message =>
          rw [messagesIn_cons_ok hdecode, List.filter_cons, List.filter_cons, id_of_decode hdecode]
          split
          · rw [messagesIn_cons_ok hdecode, ih]
          · exact ih

/-- Leaving out rows that are no messages leaves the messages as they are. -/
theorem messagesIn_without {dropped : QueueRow → Bool}
    (h : ∀ row ∈ queue.rows, dropped row = true → row.message? = none) :
    messagesIn (queue.without dropped).rows = messagesIn queue.rows := by
  show (queue.rows.filter fun row => !dropped row).filterMap QueueRow.message? = _
  rw [List.filterMap_filter]
  refine List.filterMap_congr fun row hrow => ?_
  cases hdropped : dropped row with
  | false => rfl
  | true => exact (h row hrow hdropped).symm

theorem mem_waiting_of_addMessage (hfits : message.envelope.Fits)
    (h : db.addMessage message = .ok next) :
    other ∈ next.waiting ↔ other = message ∨ other ∈ db.waiting := by
  obtain ⟨queue, hqueue, hnew, rfl⟩ := addRow_eq_ok_iff.mp h
  have hperm := Table.perm_rows_put hnew
  have hmessages : (messagesIn (queue.put message.toRow).rows).Perm
      (message :: messagesIn queue.rows) := by
    rw [← messagesIn_cons_ok (message.decode_toRow hfits)]
    exact hperm.filterMap _
  rw [waiting_of_queue hqueue, waiting_of_queue rfl, hmessages.mem_iff, List.mem_cons]

theorem bytes_eq_iff {first second : MessageId} : first.bytes = second.bytes ↔ first = second := by
  constructor
  · intro h
    obtain ⟨first⟩ := first
    obtain ⟨second⟩ := second
    exact congrArg MessageId.mk (Subtype.ext h)
  · rintro rfl
    rfl

theorem waiting_of_deleteMessage {id : MessageId} {existed : Bool}
    (h : db.deleteMessage id = .ok (existed, next)) :
    next.waiting = db.waiting.filter fun message => !(message.id.bytes == id.bytes) := by
  obtain ⟨queue, hqueue, -, -, rfl⟩ := deleteRow_eq_ok_iff.mp h
  rw [waiting_of_queue hqueue, waiting_of_queue rfl]
  exact messagesIn_filter fun key => !(key == id.bytes)

theorem mem_waiting_of_deleteMessage {id : MessageId} {existed : Bool}
    (h : db.deleteMessage id = .ok (existed, next)) :
    message ∈ next.waiting ↔ message ∈ db.waiting ∧ message.id ≠ id := by
  rw [waiting_of_deleteMessage h, List.mem_filter]
  simp [bytes_eq_iff]

theorem messagesIn_erase {fault : StorageError} (hrow : row ∈ queue.rows)
    (hdecode : row.decode = .error fault) :
    messagesIn (queue.erase row.id).rows = messagesIn queue.rows := by
  rw [Table.erase_eq_without]
  refine messagesIn_without fun other hother hkey => ?_
  have hsame : other = row := Table.eq_of_key_eq hother hrow (eq_of_beq hkey)
  rw [hsame]
  exact QueueRow.message?_eq_none_iff.mpr ⟨fault, hdecode⟩

theorem waiting_of_setAside {fault : StorageError} {reason : String} (hqueue : db.queue = some queue)
    (hrow : row ∈ queue.rows) (hdecode : row.decode = .error fault)
    (h : db.setAside row.id reason = .ok next) : next.waiting = db.waiting := by
  obtain ⟨quarantine, same, -, hsame, -, rfl⟩ := setAside_eq_ok_iff.mp h
  obtain rfl := Option.some.inj (hqueue.symm.trans hsame)
  rw [waiting_of_queue hqueue, waiting_of_queue rfl]
  exact messagesIn_erase hrow hdecode

/-! ## Readings -/

/-- Decoding a page leaves the messages as they are, also when it fails; when it succeeds it finds
the messages of the page and leaves no other row of it. -/
theorem sweep_found (hqueue : db.queue = some queue) (hrows : rows.Sublist queue.rows) :
    (db.sweep rows).2.waiting = db.waiting ∧
      ∀ messages, (db.sweep rows).1 = .ok messages → messages = messagesIn rows ∧
        (db.sweep rows).2.queue = some (queue.without (corruptIn rows)) := by
  induction rows generalizing db queue with
  | nil =>
      refine ⟨rfl, fun messages hmessages => ⟨(Except.ok.inj hmessages).symm, ?_⟩⟩
      rw [Table.without_eq_self fun row _ => by simp [corruptIn]]
      exact hqueue
  | cons row rest ih =>
      have hrow : row ∈ queue.rows := hrows.subset List.mem_cons_self
      cases hdecode : row.decode with
      | ok message =>
          obtain ⟨hwaiting, hfound⟩ := ih hqueue ((List.sublist_cons_self row rest).trans hrows)
          simp only [sweep, hdecode]
          refine ⟨hwaiting, fun messages hmessages => ?_⟩
          obtain ⟨others, hothers, rfl⟩ := map_eq_ok_iff.mp hmessages
          obtain ⟨rfl, hafter⟩ := hfound others hothers
          rw [messagesIn_cons_ok hdecode, ← without_corruptIn_of_ok hdecode]
          exact ⟨rfl, hafter⟩
      | error fault =>
          simp only [sweep, hdecode]
          cases haside : db.setAside row.id fault.message with
          | error reason => exact ⟨rfl, fun messages hmessages => by cases hmessages⟩
          | ok next =>
              have hsame := waiting_of_setAside hqueue hrow hdecode haside
              obtain ⟨quarantine, same, -, hqueue', -, hnext⟩ := setAside_eq_ok_iff.mp haside
              obtain rfl := Option.some.inj (hqueue.symm.trans hqueue')
              have hshorter : next.queue = some (queue.erase row.id) := congrArg Database.queue hnext
              -- the row that leaves is none of those that follow
              have hlater := (List.pairwise_cons.mp (queue.sorted.sublist hrows)).1
              have hkept : rest.filter (fun other => !(other.id == row.id)) = rest := by
                refine List.filter_eq_self.mpr fun other hother => ?_
                simpa using (Bytes.ne_of_lt (hlater other hother)).symm
              have hsub : rest.Sublist (queue.erase row.id).rows := by
                rw [← hkept]
                exact ((List.sublist_cons_self row rest).trans hrows).filter _
              obtain ⟨hwaiting, hfound⟩ := ih hshorter hsub
              rw [erase_without_corruptIn hrow hdecode] at hfound
              rw [messagesIn_cons_error hdecode]
              exact ⟨hwaiting.trans hsame, hfound⟩

/-- **A reading finds a first part of what waits behind its bound**, and takes no message away. -/
theorem listFrom_found (hqueue : db.queue = some queue) (hlimit : 1 ≤ limit)
    (hfuel : (queue.after bound).length < fuel) :
    (db.listFrom bound limit fuel).2.waiting = db.waiting ∧
      ∀ page, (db.listFrom bound limit fuel).1 = .ok page →
        ∃ others, messagesIn (queue.after bound) = page ++ others ∧ (page = [] → others = []) := by
  induction fuel generalizing db queue with
  | zero => omega
  | succ fuel ih =>
      obtain ⟨rest, hpage⟩ := page_isPrefix limit (queue.after bound)
      have hnil : Database.page limit (queue.after bound) = [] ↔ queue.after bound = [] :=
        page_eq_nil_iff hlimit
      have hsub : (Database.page limit (queue.after bound)).Sublist queue.rows :=
        (page_isPrefix limit _).sublist.trans (queue.after_sublist bound)
      simp only [listFrom, hqueue, require]
      generalize Database.page limit (queue.after bound) = rows at hpage hnil hsub
      obtain ⟨hwaiting, hfound⟩ := sweep_found hqueue hsub
      cases rows with
      | nil =>
          refine ⟨rfl, fun page hok => ?_⟩
          rw [hnil.mp rfl]
          exact ⟨[], by rw [← Except.ok.inj hok]; rfl, fun _ => rfl⟩
      | cons first others =>
          rcases hsweep : db.sweep (first :: others) with ⟨fault | _ | ⟨message, messages⟩, swept⟩
          · simp only [hsweep] at ⊢ hwaiting
            exact ⟨hwaiting, fun page hok => by cases hok⟩
          · -- the whole page was corrupt, so what is found comes from the next reading
            simp only [hsweep] at ⊢ hwaiting hfound
            obtain ⟨hnone, hafter⟩ := hfound [] rfl
            have hbehind := after_without_corruptIn hpage.symm hnone.symm
            have hshorter := length_rest_lt (by simp) hpage
            obtain ⟨hsame, hread⟩ := ih hafter (by rw [hbehind]; omega)
            refine ⟨hsame.trans hwaiting, fun page hok => ?_⟩
            obtain ⟨later, hlater, hend⟩ := hread page hok
            refine ⟨later, ?_, hend⟩
            rw [← hpage, messagesIn_append, ← hnone, List.nil_append, ← hlater, hbehind]
          · simp only [hsweep] at ⊢ hwaiting hfound
            obtain ⟨hmessages, -⟩ := hfound _ rfl
            refine ⟨hwaiting, fun page hok => ⟨messagesIn rest, ?_, fun hempty => ?_⟩⟩
            · rw [← hpage, messagesIn_append, ← hmessages, ← Except.ok.inj hok]
            · rw [← Except.ok.inj hok] at hempty
              cases hempty

/-- What `listMessages` finds is a first part of the messages that wait behind a given one. -/
theorem listMessages_found (db : Database) (after : Option MessageId) (hlimit : 1 ≤ limit) :
    (db.listMessages after limit).2.waiting = db.waiting ∧
      ∀ page, (db.listMessages after limit).1 = .ok page →
        ∃ others, (db.waiting.filter fun message => decide (boundOf after < message.id.bytes)) =
          page ++ others ∧ (page = [] → others = []) := by
  cases hqueue : db.queue with
  | none =>
      have hlist : db.listMessages after limit =
          (.error (.database ("no such table: " ++ queueName)), db) := by
        simp only [listMessages, listFrom, hqueue, require]
      rw [hlist]
      exact ⟨rfl, fun page hok => by cases hok⟩
  | some queue =>
      have hlist : db.listMessages after limit =
          db.listFrom (boundOf after) limit (queue.size + 1) := by
        rw [listMessages, hqueue]
        rfl
      rw [hlist, waiting_of_queue hqueue,
        ← messagesIn_filter fun key => decide (boundOf after < key)]
      rw [← waiting_of_queue hqueue]
      exact listFrom_found hqueue hlimit (length_after_lt queue (boundOf after))

/-- A page without room for a message is empty. -/
theorem listFrom_zero {bound : Bytes} {fuel : Nat} {page : List QueuedMessage}
    (h : (db.listFrom bound 0 fuel).1 = .ok page) : page = [] := by
  cases fuel with
  | zero => exact (Except.ok.inj h).symm
  | succ fuel =>
      rw [listFrom] at h
      split at h
      · cases h
      · simpa [Database.page] using h.symm

/-- What is listed lies behind the name that it is asked from, whatever the limit is. -/
theorem lt_of_listMessages {after : Option MessageId} {page : List QueuedMessage}
    (h : (db.listMessages after limit).1 = .ok page) (hmessage : message ∈ page) :
    boundOf after < message.id.bytes := by
  cases limit with
  | zero =>
      rw [listFrom_zero h] at hmessage
      cases hmessage
  | succ limit =>
      obtain ⟨others, hfound, -⟩ :=
        (db.listMessages_found after (Nat.le_add_left 1 limit)).2 page h
      have hmem := hfound ▸ List.mem_append_left others hmessage
      exact of_decide_eq_true (List.mem_filter.mp hmem).2

end Database

/-! ## Pages at a cursor -/

namespace Outbox

open Outgoing (boundOf)

variable {db : Database} {cursor : PageCursor} {page : List QueuedMessage} {last : MessageId}
  {message : QueuedMessage}

/-- The messages that a walk has not reached yet. -/
def ahead (db : Database) (cursor : PageCursor) : List QueuedMessage :=
  db.waiting.filter fun message => decide (boundOf cursor.after < message.id.bytes)

theorem mem_ahead_iff :
    message ∈ ahead db cursor ↔ message ∈ db.waiting ∧ boundOf cursor.after < message.id.bytes := by
  simp [ahead]

/-- The page holds what lies ahead up to the name of its last message, where the cursor goes. -/
structure Taken (db : Database) (cursor : PageCursor) (page : List QueuedMessage)
    (last : MessageId) : Prop where
  advances : cursor.advance? (page.map QueuedMessage.id) = some { cursor with after := some last }
  ends : ∃ message ∈ page, message.id = last
  mem_iff : ∀ message, message ∈ page ↔ message ∈ ahead db cursor ∧ message.id.bytes ≤ last.bytes
  sorted : page.Pairwise fun first second => first.id.bytes < second.id.bytes

/-- A page that has been read is taken from what lies ahead, and it is empty only if nothing does. -/
theorem taken_of_listed (hsize : 1 ≤ cursor.pageSize)
    (h : (db.listMessages cursor.after cursor.pageSize).1 = .ok page) :
    (page = [] ∧ ahead db cursor = []) ∨ ∃ last, Taken db cursor page last := by
  obtain ⟨others, hfound, hnone⟩ := (db.listMessages_found cursor.after hsize).2 page h
  have hahead : ahead db cursor = page ++ others := hfound
  by_cases hempty : page = []
  · refine .inl ⟨hempty, ?_⟩
    rw [hahead, hempty, hnone hempty]
    rfl
  · obtain ⟨last, hadvance, hlast, hlatest⟩ :=
      cursor.advance?_of_ne_nil (mt List.map_eq_nil_iff.mp hempty)
    have hsorted : (page ++ others).Pairwise fun a b => a.id.bytes < b.id.bytes :=
      hahead ▸ db.sorted_waiting.filter _
    obtain ⟨hpage, -, hacross⟩ := List.pairwise_append.mp hsorted
    obtain ⟨latest, hmem, rfl⟩ := List.mem_map.mp hlast
    refine .inr ⟨latest.id, hadvance, ⟨latest, hmem, rfl⟩, fun message => ?_, hpage⟩
    rw [hahead]
    constructor
    · intro hmessage
      exact ⟨List.mem_append_left others hmessage, hlatest _ (List.mem_map_of_mem hmessage)⟩
    · rintro ⟨hmessage, hle⟩
      rcases List.mem_append.mp hmessage with hmessage | hother
      · exact hmessage
      · -- what is not on the page comes after its last message
        exact absurd (hacross latest hmem message hother) (List.not_lt.mpr hle)

namespace Taken

theorem mem_waiting (h : Taken db cursor page last) (hmessage : message ∈ page) :
    message ∈ db.waiting :=
  (mem_ahead_iff.mp ((h.mem_iff message).mp hmessage).1).1

theorem lt_last (h : Taken db cursor page last) : boundOf cursor.after < last.bytes := by
  obtain ⟨message, hmessage, rfl⟩ := h.ends
  exact (mem_ahead_iff.mp ((h.mem_iff message).mp hmessage).1).2

end Taken

end Outbox

end PeerMail
