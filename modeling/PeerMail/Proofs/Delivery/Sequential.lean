import PeerMail.Proofs.Delivery.Frames
import PeerMail.Proofs.Delivery.Steps

/-!
# A flush on its own

`Outgoing.flush` runs a flush from its beginning to its end with nothing in between, and
delivers over the real connections and relays.  That is one of the sequences of steps
(`flush_reachable`): the workers of a page finish one after the other, and no step fails
but those that fail in the database.

The walk is followed page by page.  A page takes at least one message from those that wait
behind the cursor, so the walk ends before the number of pages that it may use is reached.
-/

namespace PeerMail.Outbox

open Outgoing (boundOf services deliver_db)

variable {pageSize caller : Nat} {db db' : Database} {flush flush' flush'' : Flush}
  {cursor : PageCursor} {report : FlushReport} {present : Option (List QueuedMessage)}

/-- From every state with this database and this flush under way, some steps lead to the other
database and the flush further on. -/
def Leads (pageSize : Nat) (db : Database) (flush : Flush) (db' : Database) (flush' : Flush) :
    Prop :=
  ∀ state : State, state.db = db → state.running = some flush →
    ∃ next, Reachable pageSize state next ∧ next.db = db' ∧ next.running = some flush' ∧
      next.finished = state.finished

theorem Reachable.trans {first second third : State} (h : Reachable pageSize first second)
    (h' : Reachable pageSize second third) : Reachable pageSize first third := by
  induction h' with
  | start => exact h
  | step _ step ih => exact ih.step step

namespace Leads

theorem refl (db : Database) (flush : Flush) : Leads pageSize db flush db flush :=
  fun state hdb hrunning => ⟨state, .start, hdb, hrunning, rfl⟩

theorem trans {db'' : Database} (h : Leads pageSize db flush db' flush')
    (h' : Leads pageSize db' flush' db'' flush'') : Leads pageSize db flush db'' flush'' := by
  intro state hdb hrunning
  obtain ⟨middle, hfirst, hdb', hrunning', hfinished⟩ := h state hdb hrunning
  obtain ⟨last, hsecond, hdb'', hrunning'', hfinished'⟩ := h' middle hdb' hrunning'
  exact ⟨last, Reachable.trans hfirst hsecond, hdb'', hrunning'', hfinished'.trans hfinished⟩

/-- A single step. -/
theorem single (h : ∀ state : State, state.db = db → state.running = some flush →
    ∃ next, Step pageSize state next ∧ next.db = db' ∧ next.running = some flush' ∧
      next.finished = state.finished) : Leads pageSize db flush db' flush' := by
  intro state hdb hrunning
  obtain ⟨next, hstep, hrest⟩ := h state hdb hrunning
  exact ⟨next, Reachable.start.step hstep, hrest⟩

end Leads

/-! ## Delivering a page -/

theorem deliverGroup_db (messages : List QueuedMessage) (outgoing : Outgoing) :
    (services.deliverGroup messages outgoing).2.db = outgoing.db := by
  induction messages generalizing outgoing with
  | nil => rfl
  | cons message rest ih => exact (ih _).trans (deliver_db outgoing message.peer message.envelope)

/-- The workers of a page do not touch the database. -/
theorem deliverAll_db (groups : List (PeerGroup QueuedMessage)) (report : FlushReport)
    (outgoing : Outgoing) : (services.deliverAll groups report outgoing).2.2.db = outgoing.db := by
  induction groups generalizing report outgoing with
  | nil => rfl
  | cons group rest ih =>
      have hkept := deliverGroup_db group.items outgoing
      simp only [FlushServices.deliverAll]
      rcases hgroup : services.deliverGroup group.items outgoing with ⟨_ | accepted, middle⟩
      · rw [hgroup] at hkept
        exact (ih report middle).trans hkept
      · rw [hgroup] at hkept
        exact (ih _ middle).trans hkept

section

variable {after : List Worker} {accepted : List (MessageId × Route)} {joined : List MessageId}

theorem leads_attempt (message : QueuedMessage) (todo : List QueuedMessage)
    (outcome : Except DeliveryError Route) :
    Leads pageSize
      db ⟨caller, .delivering cursor (⟨message :: todo, accepted⟩ :: after) joined, report, present⟩
      db ⟨caller, .delivering cursor
        (⟨todo, accepted ++ (outcome.toOption.map (message.id, ·)).toList⟩ :: after) joined,
        report, present⟩ :=
  .single fun _ hdb hrunning =>
    ⟨_, @Step.attempt _ _ _ _ [] after message todo accepted joined outcome hrunning rfl, hdb, rfl, rfl⟩

/-- A worker goes through its messages. -/
theorem leads_worker (messages : List QueuedMessage) (outgoing : Outgoing) :
    ∃ more final, services.deliverGroup messages outgoing = (some more, final) ∧
      Leads pageSize
        db ⟨caller, .delivering cursor (⟨messages, accepted⟩ :: after) joined, report, present⟩
        db ⟨caller, .delivering cursor (⟨[], accepted ++ more⟩ :: after) joined, report,
          present⟩ := by
  induction messages generalizing outgoing accepted with
  | nil =>
      refine ⟨[], outgoing, rfl, ?_⟩
      rw [List.append_nil]
      exact .refl db _
  | cons message rest ih =>
      rcases hdeliver : outgoing.deliver message.peer message.envelope with ⟨outcome, middle⟩
      have hservice : services.deliver outgoing message.peer message.envelope =
          (some outcome, middle) := by
        simp only [services, hdeliver]
      obtain ⟨more, final, hrest, hleads⟩ :=
        @ih (accepted ++ (outcome.toOption.map (message.id, ·)).toList) middle
      refine ⟨(outcome.toOption.map (message.id, ·)).toList ++ more, final, ?_, ?_⟩
      · simp only [FlushServices.deliverGroup, hservice, hrest, Option.map_some]
      · rw [← List.append_assoc]
        exact (leads_attempt message rest outcome).trans hleads

end

/-- The workers of a page finish one after the other. -/
theorem leads_workers (groups : List (PeerGroup QueuedMessage)) (outgoing : Outgoing)
    (report : FlushReport) (joined : List MessageId) :
    ∃ ids report' final,
      services.deliverAll groups report outgoing = (ids, report', final) ∧
      Leads pageSize
        db ⟨caller, .delivering cursor (groups.map fun group => ⟨group.items, []⟩) joined, report,
          present⟩
        db ⟨caller, .delivering cursor [] (joined ++ ids), report', present⟩ := by
  induction groups generalizing outgoing report joined with
  | nil =>
      refine ⟨[], report, outgoing, rfl, ?_⟩
      rw [List.append_nil]
      exact .refl db _
  | cons group rest ih =>
      obtain ⟨more, middle, hgroup, hleads⟩ := leads_worker group.items outgoing
      obtain ⟨ids, report', final, hrest, hleads'⟩ := ih middle
        ((more.map Prod.snd).foldl FlushServices.countRoute report) (joined ++ more.map Prod.fst)
      refine ⟨more.map Prod.fst ++ ids, report', final, ?_, ?_⟩
      · simp only [FlushServices.deliverAll, hgroup, hrest]
      · refine hleads.trans (.trans (.single fun state hdb hrunning => ?_)
          (List.append_assoc joined _ _ ▸ hleads'))
        exact ⟨_, @Step.join _ _ _ _ [] _ more joined hrunning rfl, hdb, rfl, rfl⟩

/-- What was accepted is removed, as far as the database lets it. -/
theorem leads_deletes (ids : List MessageId) (outgoing : Outgoing) (report : FlushReport) :
    Leads pageSize
      outgoing.db ⟨caller, .deleting cursor ids, report, present⟩
      (services.deleteAll ids report outgoing).2.db
      ⟨caller, .deleting cursor [], (services.deleteAll ids report outgoing).1, present⟩ := by
  induction ids generalizing outgoing report with
  | nil => exact .refl outgoing.db _
  | cons id rest ih =>
      cases hdelete : outgoing.db.deleteMessage id with
      | error fault =>
          have hservice : services.delete outgoing id = (.error fault, outgoing) := by
            simp only [services, hdelete]
          simp only [FlushServices.deleteAll, hservice]
          refine .trans (.single fun state hdb hrunning => ?_) (ih outgoing report)
          exact ⟨_, .deleteFails hrunning rfl, hdb, rfl, rfl⟩
      | ok deleted =>
          obtain ⟨existed, db⟩ := deleted
          have hservice : services.delete outgoing id = (.ok existed, { outgoing with db }) := by
            simp only [services, hdelete]
          simp only [FlushServices.deleteAll, hservice]
          refine .trans (.single fun state hdb hrunning => ?_) (ih { outgoing with db } _)
          exact ⟨_, .delete hrunning rfl (hdb ▸ hdelete), rfl, rfl, rfl⟩

/-- A page is dealt with. -/
theorem leads_page (page : List QueuedMessage) (outgoing : Outgoing) (report : FlushReport) :
    Leads pageSize
      outgoing.db ⟨caller, .delivering cursor (workersFor page) [], { report with
        pages := report.pages + 1
        attempted := report.attempted + page.length }, present⟩
      (services.flushPage page report outgoing).2.db
      ⟨caller, .loading cursor, (services.flushPage page report outgoing).1, present⟩ := by
  obtain ⟨ids, report', middle, hdeliver, hleads⟩ :=
    leads_workers (partitionByPeer QueuedMessage.peer page) outgoing { report with
      pages := report.pages + 1
      attempted := report.attempted + page.length } []
  have hdb : middle.db = outgoing.db := by
    rw [← deliverAll_db (partitionByPeer QueuedMessage.peer page) _ outgoing, hdeliver]
  have hdeletes : Leads pageSize middle.db ⟨caller, .deleting cursor ids, report', present⟩ _ _ :=
    leads_deletes ids middle report'
  rw [hdb] at hdeletes
  have hpage : services.flushPage page report outgoing = services.deleteAll ids report' middle := by
    simp only [FlushServices.flushPage, hdeliver]
  rw [hpage]
  refine hleads.trans (.trans (.single fun state hdb hrunning => ?_)
    (hdeletes.trans (.single fun state hdb hrunning => ?_)))
  · exact ⟨_, .settle hrunning rfl, hdb, rfl, rfl⟩
  · exact ⟨_, .turn hrunning rfl, hdb, rfl, rfl⟩

/-! ## The walk -/

theorem deleteAll_waiting (ids : List MessageId) (report : FlushReport) (outgoing : Outgoing) :
    (services.deleteAll ids report outgoing).2.db.waiting.Sublist outgoing.db.waiting := by
  induction ids generalizing report outgoing with
  | nil => exact .refl _
  | cons id rest ih =>
      simp only [FlushServices.deleteAll, services]
      cases hdelete : outgoing.db.deleteMessage id with
      | error fault => exact ih report outgoing
      | ok deleted =>
          obtain ⟨existed, db⟩ := deleted
          have hfewer : db.waiting.Sublist outgoing.db.waiting := by
            rw [Database.waiting_of_deleteMessage hdelete]
            exact List.filter_sublist
          exact (ih _ { outgoing with db }).trans hfewer

theorem flushPage_waiting (page : List QueuedMessage) (report : FlushReport) (outgoing : Outgoing) :
    (services.flushPage page report outgoing).2.db.waiting.Sublist outgoing.db.waiting := by
  have hdelete := fun ids report' outgoing' => deleteAll_waiting ids report' outgoing'
  unfold FlushServices.flushPage
  refine (hdelete _ _ _).trans ?_
  rw [deliverAll_db]

/-- A page takes its last message, if nothing else, from those that lie ahead. -/
theorem Taken.length_ahead_lt {page : List QueuedMessage} {last : MessageId}
    (h : Taken db cursor page last) (hfewer : db'.waiting.Sublist db.waiting) :
    (ahead db' { cursor with after := some last }).length < (ahead db cursor).length := by
  have hbound : boundOf cursor.after < last.bytes := h.lt_last
  have hpart : (ahead db' { cursor with after := some last }).Sublist
      ((ahead db cursor).filter fun other => decide (last.bytes < other.id.bytes)) := by
    have hsame : (ahead db cursor).filter (fun other => decide (last.bytes < other.id.bytes)) =
        db.waiting.filter fun other => decide (last.bytes < other.id.bytes) := by
      rw [ahead, List.filter_filter]
      refine List.filter_congr fun other _ => ?_
      by_cases hlater : last.bytes < other.id.bytes
      · simp [hlater, List.lt_trans hbound hlater]
      · simp [hlater]
    rw [hsame]
    exact hfewer.filter _
  have hshorter : ((ahead db cursor).filter fun other =>
      decide (last.bytes < other.id.bytes)).length < (ahead db cursor).length := by
    obtain ⟨message, hmessage, hlast⟩ := h.ends
    refine List.length_filter_lt_length_iff_exists.mpr ⟨message, ?_, ?_⟩
    · exact ((h.mem_iff message).mp hmessage).1
    · simp [hlast, Bytes.lt_irrefl]
  exact Nat.lt_of_le_of_lt hpart.length_le hshorter

theorem walk_leads {maxPages : Nat} (cursor : PageCursor) (report : FlushReport)
    (outgoing : Outgoing) (present : Option (List QueuedMessage)) (hsize : 1 ≤ cursor.pageSize)
    (hpages : (ahead outgoing.db cursor).length < maxPages) :
    ∃ present' complete, Leads pageSize
      outgoing.db ⟨caller, .loading cursor, report, present⟩
      (services.walk maxPages cursor report outgoing).2.db
      ⟨caller, .leaving complete, (services.walk maxPages cursor report outgoing).1, present'⟩ := by
  induction maxPages generalizing cursor report outgoing present with
  | zero => omega
  | succ maxPages ih =>
      have hsame := (outgoing.db.listMessages_found cursor.after hsize).1
      have htaken := fun page => @taken_of_listed outgoing.db cursor page hsize
      rcases hlist : outgoing.db.listMessages cursor.after cursor.pageSize with ⟨result, db⟩
      rw [hlist] at hsame htaken
      have hservice : services.list outgoing cursor.after cursor.pageSize =
          (result, { outgoing with db }) := by
        simp only [services, hlist]
      have hload : Leads pageSize outgoing.db ⟨caller, .loading cursor, report, present⟩ db
          (Flush.loaded ⟨caller, .loading cursor, report, present⟩ cursor outgoing.db.waiting
            result) := by
        refine .single fun state hdb hrunning => ⟨_, .load hrunning rfl, ?_, ?_, rfl⟩
        · rw [hdb, hlist]
        · rw [hdb, hlist]
      cases result with
      | error fault =>
          simp only [FlushServices.walk, hservice]
          exact ⟨present, false, hload⟩
      | ok page =>
          rcases htaken page rfl with ⟨rfl, -⟩ | ⟨last, htaken⟩
          · simp only [FlushServices.walk, hservice]
            exact ⟨_, true, hload⟩
          · simp only [FlushServices.walk, hservice, htaken.advances]
            rw [htaken.loaded] at hload
            have hfewer : (services.flushPage page report { outgoing with db }).2.db.waiting.Sublist
                outgoing.db.waiting := hsame ▸ flushPage_waiting page report { outgoing with db }
            have hshorter := htaken.length_ahead_lt hfewer
            obtain ⟨present', complete, hrest⟩ := ih { cursor with after := some last }
              (services.flushPage page report { outgoing with db }).1
              (services.flushPage page report { outgoing with db }).2
              (some (present.getD outgoing.db.waiting)) hsize (by omega)
            exact ⟨present', complete,
              hload.trans ((leads_page page { outgoing with db } report).trans hrest)⟩

/-! ## The whole flush -/

theorem length_ahead_le (db : Database) (cursor : PageCursor) :
    (ahead db cursor).length ≤ (db.queue.map Table.size).getD 0 := by
  refine Nat.le_trans (List.length_filter_le _ _) ?_
  cases hqueue : db.queue with
  | none => simp [Database.waiting, hqueue]
  | some queue =>
      rw [Database.waiting_of_queue hqueue]
      exact List.length_filterMap_le _ _

/-- **A flush on its own is one sequence of steps**, with the same account and the same database at
its end. -/
theorem flush_reachable (outgoing : Outgoing) (pageSize : Nat) {state : State}
    (hdb : state.db = outgoing.db) (hfree : state.running = none) (hnew : caller ∉ state.callers) :
    ∃ next finished, Reachable pageSize state next ∧
      next.db = (outgoing.flush pageSize).2.db ∧ next.running = none ∧
      next.finished = state.finished ++ [finished] ∧ finished.caller = caller ∧
      finished.report = (outgoing.flush pageSize).1 := by
  have hpages : (ahead outgoing.db (.start pageSize)).length <
      (outgoing.db.queue.map Table.size).getD 0 + 1 :=
    Nat.lt_succ_of_le (length_ahead_le outgoing.db (.start pageSize))
  obtain ⟨present, complete, hwalk⟩ : ∃ present complete, Leads pageSize outgoing.db
      ⟨caller, .loading (.start pageSize), {}, none⟩ _ ⟨caller, .leaving complete, _, present⟩ :=
    walk_leads (.start pageSize) {} outgoing none (Nat.le_max_right pageSize 1) hpages
  have hacquire : Reachable pageSize state { state with
      running := some ⟨caller, .loading (.start pageSize), {}, none⟩
      callers := caller :: state.callers } := Reachable.start.step (.acquire hfree hnew)
  obtain ⟨last, hreach, hlast, hrunning, hfinished⟩ := hwalk { state with
    running := some ⟨caller, .loading (.start pageSize), {}, none⟩
    callers := caller :: state.callers } hdb rfl
  have hbegun := Reachable.trans hacquire hreach
  unfold Outgoing.flush FlushServices.flush
  rcases hwalked : services.walk ((outgoing.db.queue.map Table.size).getD 0 + 1)
    (.start pageSize) {} outgoing with ⟨report, final⟩
  rw [hwalked] at hlast hrunning
  simp only [services]
  cases hcount : final.db.countMessages with
  | ok pending =>
      have hrelease := hbegun.step (@Step.release _ _ _ _ (some pending) hrunning rfl
        (by rintro _ ⟨⟩; rw [hlast]; exact hcount))
      exact ⟨_, _, hrelease, hlast, rfl, congrArg (· ++ _) hfinished, rfl, rfl⟩
  | error fault =>
      have hrelease := hbegun.step (@Step.release _ _ _ _ none hrunning rfl
        (by rintro _ ⟨⟩))
      exact ⟨_, _, hrelease, hlast, rfl, congrArg (· ++ _) hfinished, rfl, rfl⟩

end PeerMail.Outbox
