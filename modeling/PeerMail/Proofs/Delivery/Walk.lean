import PeerMail.Proofs.Delivery.Cursor
import PeerMail.Proofs.Delivery.Recording
import PeerMail.Proofs.Delivery.Routing

/-!
# The walk over the queue

A walk alternates between reading a page and dealing with it, and both shorten the
table that it walks over: a reading takes the corrupt rows of the part that it goes
through, and the page takes the messages that have been accepted.

What carries the induction is where the next page begins.  The cursor stands behind
the last message of the part, and every row of the part behind that message was
corrupt and is gone; so behind the cursor there is exactly the rest (`after_settled`).
The walk is then known from the rows behind its start (`walk_eq`), whatever the size
of a page is.
-/

namespace PeerMail

/-! ## Rows that leave the queue -/

/-- Whether a row is one of the given rows and does not stay: it is corrupt, or its message
leaves. -/
def leavesVia (way : PeerId → Way) (rows : List QueueRow) (row : QueueRow) : Bool :=
  decide (row ∈ rows) &&
    match row.message? with
    | none => true
    | some message => (way message.peer).route?.isSome

variable {way : PeerId → Way} {row : QueueRow} {part rest : List QueueRow}
  {message : QueuedMessage} {messages page attempts more : List QueuedMessage}
  {queue : QueueTable} {quarantine : QuarantineTable} {bound : Bytes} {last : MessageId}

theorem leavesVia_append (row : QueueRow) :
    leavesVia way (part ++ rest) row = (leavesVia way part row || leavesVia way rest row) := by
  unfold leavesVia
  simp only [List.mem_append, Bool.decide_or, Bool.and_or_distrib_right]

/-- Taking the corrupt rows and then the accepted messages is taking the rows that leave. -/
theorem without_leaving (hpart : part ⊆ queue.rows)
    (hmessages : ∀ message, message ∈ messages ↔ message ∈ messagesIn part) :
    (queue.without (corruptIn part)).without
        (fun row => (leaving way messages).any fun message => message.id.bytes == row.id) =
      queue.without (leavesVia way part) := by
  -- a message of the part that has the name of a row is the message in that row
  have hsource : ∀ row ∈ queue.rows, ∀ message ∈ messages, message.id.bytes = row.id →
      row ∈ part ∧ row.decode = .ok message := by
    intro row hrow message hmessage hid
    obtain ⟨source, hsource, hdecode⟩ := mem_messagesIn.mp ((hmessages message).mp hmessage)
    have hsame : source = row :=
      Table.eq_of_key_eq (hpart hsource) hrow ((id_of_decode hdecode).symm.trans hid)
    exact hsame ▸ ⟨hsource, hdecode⟩
  rw [Table.without_without]
  refine Table.without_congr fun row hrow => ?_
  by_cases hmem : row ∈ part
  · cases hmessage : row.message? with
    | none => simp [corruptIn, leavesVia, hmem, hmessage]
    | some message =>
        have hdecode := QueueRow.message?_eq_some_iff.mp hmessage
        have hfirst : corruptIn part row = false := by simp [corruptIn, hmessage]
        have hsecond : leavesVia way part row = (way message.peer).route?.isSome := by
          simp [leavesVia, hmem, hmessage]
        rw [hfirst, hsecond, Bool.false_or, Bool.eq_iff_iff, List.any_eq_true]
        constructor
        · rintro ⟨other, hother, hid⟩
          obtain ⟨hother, hopen⟩ := List.mem_filter.mp hother
          have hsame := (hsource row hrow other hother (eq_of_beq hid)).2
          rw [hdecode] at hsame
          cases hsame
          exact hopen
        · intro hopen
          have hin := (hmessages message).mpr (mem_messagesIn.mpr ⟨row, hmem, hdecode⟩)
          refine ⟨message, List.mem_filter.mpr ⟨hin, hopen⟩, ?_⟩
          rw [id_of_decode hdecode]
          exact beq_self_eq_true row.id
  · have hfirst : corruptIn part row = false := by simp [corruptIn, hmem]
    have hsecond : leavesVia way part row = false := by simp [leavesVia, hmem]
    rw [hfirst, hsecond, Bool.false_or, Bool.eq_false_iff]
    intro hany
    obtain ⟨other, hother, hid⟩ := List.any_eq_true.mp hany
    exact hmem (hsource row hrow other (List.mem_filter.mp hother).1 (eq_of_beq hid)).1

/-- **Behind the cursor there is exactly the rest.** -/
theorem after_settled (way : PeerId → Way) (hafter : queue.after bound = part ++ rest)
    (hlast : last ∈ (messagesIn part).map QueuedMessage.id)
    (hlatest : ∀ id ∈ (messagesIn part).map QueuedMessage.id, id.bytes ≤ last.bytes) :
    (queue.without (leavesVia way part)).after last.bytes = rest := by
  obtain ⟨message, hmessage, rfl⟩ := List.mem_map.mp hlast
  obtain ⟨source, hsource, hdecode⟩ := mem_messagesIn.mp hmessage
  have hid := id_of_decode hdecode
  have hbehind : bound < message.id.bytes := by
    have hmem : source ∈ queue.after bound := by
      rw [hafter]
      exact List.mem_append_left rest hsource
    rw [hid]
    exact (Table.mem_after.mp hmem).2
  -- what comes after the last message of the part is corrupt, and has left
  have hpart : (part.filter fun row => decide (message.id.bytes < row.id)).filter
      (fun row => !leavesVia way part row) = [] := by
    refine List.filter_eq_nil_iff.mpr fun row hrow => ?_
    obtain ⟨hrow, hlater⟩ := List.mem_filter.mp hrow
    have hcorrupt : row.message? = none := by
      rw [Option.eq_none_iff_forall_not_mem]
      intro other hother
      have hother := QueueRow.message?_eq_some_iff.mp hother
      have hle := hlatest other.id
        (List.mem_map.mpr ⟨other, mem_messagesIn.mpr ⟨row, hrow, hother⟩, rfl⟩)
      rw [id_of_decode hother] at hle
      exact List.not_lt.mpr hle (of_decide_eq_true hlater)
    simp [leavesVia, hrow, hcorrupt]
  have hrest : (rest.filter fun row => decide (message.id.bytes < row.id)).filter
      (fun row => !leavesVia way part row) = rest := by
    have hsorted := queue.sorted_after bound
    rw [hafter] at hsorted
    rw [List.filter_filter]
    refine List.filter_eq_self.mpr fun row hrow => ?_
    have hlater : message.id.bytes < row.id :=
      hid ▸ (List.pairwise_append.mp hsorted).2.2 source hsource row hrow
    have hnot := Database.not_mem_of_after_eq hafter hrow
    simp [leavesVia, hlater, hnot]
  rw [Table.after_without, Table.after_of_lt hbehind, hafter, List.filter_append,
    List.filter_append, hpart, hrest, List.nil_append]

/-! ## The account -/

/-- The account of a flush with some more messages in it. -/
def account (way : PeerId → Way) (messages : List QueuedMessage) (report : FlushReport) :
    FlushReport :=
  { report with
    attempted := report.attempted + messages.length
    direct := report.direct + countVia way .direct messages
    relayed := report.relayed + countVia way .relayed messages
    deleted := report.deleted + (leaving way messages).length }

theorem account_nil (report : FlushReport) : account way [] report = report := by
  simp [account, countVia, leaving]

theorem account_append (report : FlushReport) (pages : Nat) :
    account way more { account way messages report with pages } =
      { account way (messages ++ more) report with pages } := by
  simp [account, countVia, leaving, Nat.add_assoc]

/-! ## One page -/

namespace Outgoing

variable {outgoing : Outgoing} {report : FlushReport} {cursor : PageCursor}

/-- What is left after an attempt to deliver messages, with this queue and these rows set aside. -/
def reached (outgoing : Outgoing) (attempts : List QueuedMessage) (queue : QueueTable)
    (quarantine : QuarantineTable) : Outgoing :=
  { outgoing.attempting attempts with db := outgoing.db.holding queue quarantine }

theorem way_reached : (outgoing.reached attempts queue quarantine).way = outgoing.way := rfl

theorem reached_reached (queue' : QueueTable) (quarantine' : QuarantineTable) :
    (outgoing.reached attempts queue quarantine).reached more queue' quarantine' =
      outgoing.reached (attempts ++ more) queue' quarantine' := by
  have hlogs : ((outgoing.attempting attempts).attempting more) =
      outgoing.attempting (attempts ++ more) := attempting_append
  unfold reached
  rw [← hlogs]
  rfl

theorem Unarmed.reached (h : outgoing.Unarmed) :
    (outgoing.reached attempts queue quarantine).Unarmed :=
  ⟨h.check, h.send⟩

theorem holds_reached (h : outgoing.db.queueLocked = false) :
    (outgoing.reached attempts queue quarantine).db.Holds queue quarantine :=
  ⟨rfl, rfl, h⟩

theorem services_unbroken : services.Unbroken := by
  rintro outgoing peer envelope ⟨⟩

/-- A worker attempts all its messages, and hands in those that leave. -/
theorem deliverGroup_eq (h : outgoing.Unarmed) (messages : List QueuedMessage) :
    services.deliverGroup messages outgoing =
      (some (acceptedVia outgoing.way messages), outgoing.attempting messages) := by
  induction messages generalizing outgoing with
  | nil => simp [FlushServices.deliverGroup, acceptedVia, attempting_nil]
  | cons message rest ih =>
      obtain ⟨outcome, hdeliver, houtcome⟩ := deliver_eq h message
      have hrest := ih (h.attempting [message])
      rw [way_attempting, attempting_append, List.singleton_append] at hrest
      simp only [FlushServices.deliverGroup, services] at hrest ⊢
      rw [hdeliver]
      dsimp only
      rw [hrest, houtcome]
      rfl

/-- Every message is attempted, and those that leave are accepted. -/
theorem deliverAll_eq (h : outgoing.Unarmed) (groups : List (PeerGroup QueuedMessage))
    (report : FlushReport) :
    services.deliverAll groups report outgoing =
      ((leaving outgoing.way (groups.flatMap PeerGroup.items)).map QueuedMessage.id,
        { report with
          direct := report.direct +
            countVia outgoing.way .direct (groups.flatMap PeerGroup.items)
          relayed := report.relayed +
            countVia outgoing.way .relayed (groups.flatMap PeerGroup.items) },
        outgoing.attempting (groups.flatMap PeerGroup.items)) := by
  induction groups generalizing outgoing report with
  | nil => simp [FlushServices.deliverAll, leaving, countVia, attempting_nil]
  | cons group rest ih =>
      rw [FlushServices.deliverAll, deliverGroup_eq h]
      dsimp only
      rw [ih (h.attempting group.items), way_attempting, attempting_append,
        FlushServices.foldl_countRoute, ids_acceptedVia, count_acceptedVia, count_acceptedVia]
      simp [leaving, countVia, Nat.add_assoc]

/-- Every deletion works. -/
theorem deleteAll_eq (h : outgoing.db.Holds queue quarantine) (messages : List QueuedMessage)
    (report : FlushReport) :
    services.deleteAll (messages.map QueuedMessage.id) report outgoing =
      ({ report with deleted := report.deleted + messages.length },
        { outgoing with
          db := outgoing.db.holding
            (queue.without fun row => messages.any fun message => message.id.bytes == row.id)
            quarantine }) := by
  induction messages generalizing outgoing queue report with
  | nil =>
      have hsame : queue.without (fun row => ([] : List QueuedMessage).any
          fun message => message.id.bytes == row.id) = queue :=
        Table.without_eq_self fun row _ => rfl
      rw [hsame, h.eq_holding]
      rfl
  | cons message rest ih =>
      have hdelete : services.delete outgoing message.id =
          (.ok (queue.find? message.id.bytes).isSome, { outgoing with
            db := outgoing.db.holding (queue.erase message.id.bytes) quarantine }) := by
        have hrow : outgoing.db.deleteMessage message.id =
            .ok ((queue.find? message.id.bytes).isSome,
              outgoing.db.holding (queue.erase message.id.bytes) quarantine) := by
          refine Database.deleteRow_eq_ok_iff.mpr ⟨queue, h.queue, rfl, fun _ => h.unlocked, ?_⟩
          rw [Database.holding, ← h.quarantine]
        simp only [services, hrow]
      have hnext : (queue.erase message.id.bytes).without
          (fun row => rest.any fun message => message.id.bytes == row.id) =
            queue.without fun row => (message :: rest).any
              fun message => message.id.bytes == row.id := by
        rw [Table.erase_eq_without, Table.without_without]
        refine Table.without_congr fun row _ => ?_
        rw [List.any_cons, Bool.beq_comm]
      rw [List.map_cons, FlushServices.deleteAll, hdelete]
      dsimp only
      rw [ih (h.holding _ _)]
      dsimp only
      rw [Database.holding_holding, hnext, List.length_cons, Nat.add_comm rest.length,
        Nat.add_assoc]

/-- A page takes from the queue what leaves. -/
theorem flushPage_eq (hunarmed : outgoing.Unarmed) (hholds : outgoing.db.Holds queue quarantine)
    (page : List QueuedMessage) (report : FlushReport) :
    services.flushPage page report outgoing =
      ({ account outgoing.way page report with pages := report.pages + 1 },
        outgoing.reached (FlushServices.inGroups page)
          (queue.without fun row =>
            (leaving outgoing.way page).any fun message => message.id.bytes == row.id)
          quarantine) := by
  have hperm : (FlushServices.inGroups page).Perm page := (sameByPeer_partition _ page).perm
  have hleaving : (leaving outgoing.way (FlushServices.inGroups page)).Perm
      (leaving outgoing.way page) := hperm.filter _
  have hqueue : (queue.without fun row => (leaving outgoing.way (FlushServices.inGroups page)).any
      fun message => message.id.bytes == row.id) =
        queue.without fun row => (leaving outgoing.way page).any
          fun message => message.id.bytes == row.id :=
    Table.without_congr fun row _ => hleaving.any_eq
  have hattempted : (outgoing.attempting (FlushServices.inGroups page)).db.Holds queue quarantine :=
    hholds
  simp only [FlushServices.flushPage, deliverAll_eq hunarmed]
  rw [← FlushServices.inGroups, deleteAll_eq hattempted, hqueue, hleaving.length_eq]
  unfold countVia
  rw [hperm.countP_eq, hperm.countP_eq]
  rfl

/-! ## All pages -/

/-- The bytes behind which the next page begins. -/
def boundOf (after : Option MessageId) : Bytes := (after.map MessageId.bytes).getD []

theorem length_after_lt (queue : QueueTable) (bound : Bytes) :
    (queue.after bound).length < queue.size + 1 := by
  have hle := (queue.after_sublist bound).length_le
  have hsize : queue.size = queue.rows.length := rfl
  omega

theorem list_eq (h : outgoing.db.Holds queue quarantine) (after : Option MessageId) {limit : Nat}
    (hlimit : 1 ≤ limit) :
    ∃ part rest, queue.after (boundOf after) = part ++ rest ∧ (messagesIn part = [] → rest = []) ∧
      services.list outgoing after limit = (.ok (messagesIn part),
        outgoing.reached [] (queue.without (corruptIn part)) (setAsideAll quarantine part)) := by
  obtain ⟨part, rest, hafter, hend, hlist⟩ :=
    Database.listFrom_eq h hlimit (length_after_lt queue (boundOf after))
  refine ⟨part, rest, hafter, hend, ?_⟩
  have hmessages : outgoing.db.listMessages after limit =
      outgoing.db.listFrom (boundOf after) limit (queue.size + 1) := by
    rw [Database.listMessages, h.queue]
    rfl
  simp only [services, hmessages, hlist, reached, attempting_nil]

/-- At the end of the queue there are corrupt rows at most, and they are set aside. -/
theorem list_of_none (h : outgoing.db.Holds queue quarantine) {after : Option MessageId}
    {limit : Nat} (hlimit : 1 ≤ limit) (hnone : messagesIn (queue.after (boundOf after)) = []) :
    services.list outgoing after limit = (.ok [], outgoing.reached []
      (queue.without (leavesVia outgoing.way (queue.after (boundOf after))))
      (setAsideAll quarantine (queue.after (boundOf after)))) := by
  obtain ⟨part, rest, hafter, hend, hlist⟩ := list_eq h after hlimit
  have hpart : messagesIn part = [] := by
    rw [hafter, messagesIn_append] at hnone
    exact (List.append_eq_nil_iff.mp hnone).1
  rw [hend hpart, List.append_nil] at hafter
  have hqueue : queue.without (corruptIn part) =
      queue.without (leavesVia outgoing.way part) := by
    refine Table.without_congr fun row _ => ?_
    by_cases hmem : row ∈ part
    · have hcorrupt := List.filterMap_eq_nil_iff.mp hpart row hmem
      simp [corruptIn, leavesVia, hmem, hcorrupt]
    · simp [corruptIn, leavesVia, hmem]
  rw [hlist, hpart, hqueue, hafter]

/-- The next page goes through a part of the rows behind the cursor, and leaves the cursor in front
of the rest. -/
structure Page (outgoing : Outgoing) (queue : QueueTable) (quarantine : QuarantineTable)
    (cursor : PageCursor) (part rest : List QueueRow) (last : MessageId) : Prop where
  behind : queue.after (boundOf cursor.after) = part ++ rest
  shorter : rest.length < (queue.after (boundOf cursor.after)).length
  listed : services.list outgoing cursor.after cursor.pageSize = (.ok (messagesIn part),
    outgoing.reached [] (queue.without (corruptIn part)) (setAsideAll quarantine part))
  moved : cursor.advance? ((messagesIn part).map QueuedMessage.id) =
    some { cursor with after := some last }
  flushed : ∀ report, services.flushPage (messagesIn part) report
      (outgoing.reached [] (queue.without (corruptIn part)) (setAsideAll quarantine part)) =
    ({ account outgoing.way (messagesIn part) report with pages := report.pages + 1 },
      outgoing.reached (FlushServices.inGroups (messagesIn part))
        (queue.without (leavesVia outgoing.way part)) (setAsideAll quarantine part))
  next : (queue.without (leavesVia outgoing.way part)).after (boundOf (some last)) = rest

theorem exists_page (hunarmed : outgoing.Unarmed) (hholds : outgoing.db.Holds queue quarantine)
    (hlimit : 1 ≤ cursor.pageSize)
    (hsome : messagesIn (queue.after (boundOf cursor.after)) ≠ []) :
    ∃ part rest last, Page outgoing queue quarantine cursor part rest last := by
  obtain ⟨part, rest, hafter, hend, hlist⟩ := list_eq hholds cursor.after hlimit
  have hfound : messagesIn part ≠ [] := by
    intro hnone
    rw [hafter, hend hnone, List.append_nil] at hsome
    exact hsome hnone
  have hne : part ≠ [] := by
    rintro rfl
    exact hfound rfl
  have hpart : part ⊆ queue.rows := by
    intro row hrow
    exact (queue.after_sublist _).subset (hafter ▸ List.mem_append_left rest hrow)
  obtain ⟨last, hmoved, hlast, hlatest⟩ :=
    cursor.advance?_of_ne_nil (mt List.map_eq_nil_iff.mp hfound)
  refine ⟨part, rest, last, hafter, Database.length_rest_lt hne hafter.symm, hlist, hmoved, ?_,
    after_settled outgoing.way hafter hlast hlatest⟩
  intro report
  rw [flushPage_eq hunarmed.reached (holds_reached hholds.unlocked), way_reached,
    reached_reached, List.nil_append, without_leaving hpart fun _ => Iff.rfl]

/-- **The whole walk**, known from the rows behind its start. -/
theorem walk_eq {maxPages : Nat} (cursor : PageCursor) (report : FlushReport) (record : List Sent)
    (hunarmed : outgoing.Unarmed) (hholds : outgoing.db.Holds queue quarantine)
    (hlimit : 1 ≤ cursor.pageSize)
    (hpages : (queue.after (boundOf cursor.after)).length < maxPages) :
    ∃ attempts pages,
      SameByPeer QueuedMessage.peer attempts (messagesIn (queue.after (boundOf cursor.after))) ∧
      services.recording.walk maxPages cursor report (outgoing, record) =
        ({ account outgoing.way (messagesIn (queue.after (boundOf cursor.after))) report with
            pages },
          outgoing.reached attempts
            (queue.without (leavesVia outgoing.way (queue.after (boundOf cursor.after))))
            (setAsideAll quarantine (queue.after (boundOf cursor.after))),
          record ++ attempts.map QueuedMessage.attempt) := by
  induction maxPages generalizing outgoing queue quarantine cursor report record with
  | zero => omega
  | succ maxPages ih =>
      simp only [FlushServices.walk, FlushServices.recording_list]
      by_cases hnone : messagesIn (queue.after (boundOf cursor.after)) = []
      · -- there is nothing to deliver any more
        refine ⟨[], report.pages, ?_, ?_⟩
        · rw [hnone]
          exact fun peer => rfl
        · rw [list_of_none hholds hlimit hnone, hnone, account_nil]
          simp [PageCursor.advance?_nil]
      · obtain ⟨part, rest, last, hpage⟩ := exists_page hunarmed hholds hlimit hnone
        have hshorter : rest.length < maxPages := by
          have hless := hpage.shorter
          omega
        -- the rest is walked over from what the page leaves behind
        obtain ⟨attempts, pages, hsame, hwalk⟩ :=
          ih { cursor with after := some last }
            { account outgoing.way (messagesIn part) report with pages := report.pages + 1 }
            (record ++ (FlushServices.inGroups (messagesIn part)).map QueuedMessage.attempt)
            hunarmed.reached (holds_reached hholds.unlocked) hlimit
            (by rw [hpage.next]; exact hshorter)
        rw [hpage.next] at hsame hwalk
        have hqueue : (queue.without (leavesVia outgoing.way part)).without
            (leavesVia outgoing.way rest) =
              queue.without (leavesVia outgoing.way (part ++ rest)) := by
          rw [Table.without_without]
          exact Table.without_congr fun row _ => (leavesVia_append row).symm
        refine ⟨FlushServices.inGroups (messagesIn part) ++ attempts, pages, ?_, ?_⟩
        · rw [hpage.behind, messagesIn_append]
          exact (sameByPeer_partition QueuedMessage.peer (messagesIn part)).append hsame
        · rw [hpage.listed]
          dsimp only
          rw [hpage.moved]
          dsimp only
          rw [FlushServices.flushPage_recording services_unbroken, hpage.flushed]
          dsimp only
          rw [hwalk, way_reached, reached_reached, hqueue, account_append, hpage.behind,
            messagesIn_append, setAsideAll_append, List.map_append, List.append_assoc]

end Outgoing

end PeerMail
