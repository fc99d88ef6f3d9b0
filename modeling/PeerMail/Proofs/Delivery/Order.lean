import PeerMail.Proofs.Delivery.Interleaving

/-!
# In which order messages are delivered

A flush attempts the messages for a destination in the order of their names, and does
not stop at one that is refused.  So a message can be overtaken: it is refused, a later
one for the same peer is accepted, and the next flush delivers the first one
(`failed_parcel_overtaken`).  There is no other way in which that happens
(`overtaken_only_after_refusal`), as long as messages are stored in the order of their
names.

What carries the proof is what a flush knows of the messages that wait: behind its
cursor there is none that it has not attempted or is about to attempt
(`InOrder.passed`).  A message that is attempted later than one with a greater name was
waiting then, so the flush that attempted the other one had attempted it first
(`Behind`).
-/

namespace PeerMail.Outbox

variable {pageSize : Nat} {db : Database} {state next : State} {flush flush' : Flush}
  {cursor : PageCursor} {message other : QueuedMessage}
  {attempts before after : List Attempt} {caller : Nat}

/-! ## Messages that come later are stored later -/

/-- The messages were stored in the order of their names, behind those from before. -/
def State.Ascending (db : Database) (state : State) : Prop :=
  ∃ added, state.stored = added ++ db.waiting ∧
    (db.waiting ++ added.reverse).Pairwise fun first second => first.id.bytes < second.id.bytes

theorem Step.stored (h : Step pageSize state next) :
    next.stored = state.stored ∨ ∃ message, next.stored = message :: state.stored := by
  cases h with
  | store => exact .inr ⟨_, rfl⟩
  | _ => exact .inl rfl

theorem Reachable.stored (h : Reachable pageSize (.start db) state) :
    ∃ added, state.stored = added ++ db.waiting := by
  induction h with
  | start => exact ⟨[], rfl⟩
  | step _ step ih =>
      obtain ⟨added, hadded⟩ := ih
      rcases step.stored with hsame | ⟨message, hmore⟩
      · exact ⟨added, hsame.trans hadded⟩
      · exact ⟨message :: added, by rw [hmore, hadded, List.cons_append]⟩

/-- The last message that was stored comes after all others, and these are in order as well. -/
theorem State.Ascending.of_cons (h : next.Ascending db)
    (hnext : next.stored = message :: state.stored)
    (hstored : ∃ added, state.stored = added ++ db.waiting) :
    state.Ascending db ∧ ∀ other ∈ state.stored, other.id.bytes < message.id.bytes := by
  obtain ⟨added, hadded, hsorted⟩ := h
  obtain ⟨old, hold⟩ := hstored
  obtain rfl : added = message :: old := by
    have hfull : added ++ db.waiting = (message :: old) ++ db.waiting := by
      rw [← hadded, hnext, hold, List.cons_append]
    exact List.append_cancel_right hfull
  rw [List.reverse_cons, ← List.append_assoc] at hsorted
  obtain ⟨hfront, -, hlast⟩ := List.pairwise_append.mp hsorted
  refine ⟨⟨old, hold, hfront⟩, fun other hother => ?_⟩
  have hmem : other ∈ db.waiting ++ old.reverse := by
    rw [hold] at hother
    simpa [or_comm] using hother
  exact hlast other hmem message (List.mem_singleton_self message)

/-! ## Messages that come behind others -/

/-- Among some attempts there is one of the message by the caller. -/
def Tried (attempts : List Attempt) (caller : Nat) (message : QueuedMessage) : Prop :=
  ∃ attempt ∈ attempts, attempt.caller = caller ∧ attempt.message = message

/-- Every caller that has attempted a message with a greater name for the same peer had attempted
this one before. -/
def Behind (attempts : List Attempt) (message : QueuedMessage) : Prop :=
  ∀ before attempt after, attempts = before ++ attempt :: after →
    attempt.message.peer = message.peer → message.id.bytes < attempt.id.bytes →
    Tried before attempt.caller message

theorem concat_eq_append_cons {x y : Attempt} (h : attempts ++ [x] = before ++ y :: after) :
    (before = attempts ∧ y = x) ∨ ∃ rest, attempts = before ++ y :: rest := by
  rcases List.eq_nil_or_concat after with rfl | ⟨rest, last, rfl⟩
  · obtain ⟨hbefore, hlast⟩ := List.append_inj' h rfl
    exact .inl ⟨hbefore.symm, (List.singleton_inj.mp hlast).symm⟩
  · refine .inr ⟨rest, ?_⟩
    rw [List.concat_eq_append, ← List.cons_append, ← List.append_assoc] at h
    exact (List.append_inj' h rfl).1

theorem Behind.concat {attempt : Attempt} (h : Behind attempts message)
    (hlast : attempt.message.peer = message.peer → message.id.bytes < attempt.id.bytes →
      Tried attempts attempt.caller message) : Behind (attempts ++ [attempt]) message := by
  intro before found after hsplit hpeer hid
  rcases concat_eq_append_cons hsplit with ⟨rfl, rfl⟩ | ⟨rest, hsplit⟩
  · exact hlast hpeer hid
  · exact h before found rest hsplit hpeer hid

/-- Nothing is behind a name that comes after all others. -/
theorem behind_of_latest (h : ∀ attempt ∈ attempts, attempt.id.bytes < message.id.bytes) :
    Behind attempts message := by
  rintro before attempt after rfl - hid
  have hlater := h attempt (by simp)
  exact absurd hid (Bytes.lt_asymm hlater)

/-! ## The invariant -/

/-- The workers of a page. -/
def Phase.workers : Phase → List Worker
  | delivering _ workers _ => workers
  | _ => []

/-- Two workers have no destination in common. -/
def Worker.Apart (first second : Worker) : Prop :=
  ∀ message ∈ first.todo, ∀ other ∈ second.todo, message.peer ≠ other.peer

/-- What holds between a flush under way and the messages that wait. -/
structure InOrder (state : State) (flush : Flush) : Prop where
  /-- What is to be attempted waits. -/
  pending_waiting : ∀ message ∈ flush.phase.pending, message ∈ state.db.waiting
  /-- What waits and has been passed has been attempted or is to be attempted. -/
  passed : ∀ cursor, flush.phase.cursor? = some cursor → ∀ message ∈ state.db.waiting,
    Passed cursor message.id →
      message ∈ flush.phase.pending ∨ Tried state.attempts flush.caller message
  /-- The cursor stands at a message that was stored. -/
  placed : ∀ cursor, flush.phase.cursor? = some cursor → ∀ last, cursor.after = some last →
    ∃ message ∈ state.stored, message.id = last
  sorted : ∀ worker ∈ flush.phase.workers,
    worker.todo.Pairwise fun first second => first.id.bytes < second.id.bytes
  apart : flush.phase.workers.Pairwise Worker.Apart

/-- What every step keeps, as long as messages are stored in the order of their names. -/
structure Orderly (state : State) : Prop where
  consistent : Consistent state
  waiting_behind : ∀ message ∈ state.db.waiting, Behind state.attempts message
  attempts_behind : ∀ before attempt after, state.attempts = before ++ attempt :: after →
    Behind before attempt.message
  flushing : ∀ flush, state.running = some flush → InOrder state flush

theorem orderly_start (db : Database) : Orderly (.start db) where
  consistent := consistent_start db
  waiting_behind := by simp [State.start, Behind]
  attempts_behind := by simp [State.start]
  flushing := nofun

/-! ## Steps without an attempt -/

/-- A flush goes on in order when nothing appears that it has passed. -/
theorem InOrder.mono (h : InOrder state flush) (hcaller : flush'.caller = flush.caller)
    (hcursor : ∀ cursor, flush'.phase.cursor? = some cursor → flush.phase.cursor? = some cursor)
    (hpending : flush'.phase.pending = flush.phase.pending)
    (hworkers : flush'.phase.workers.Sublist flush.phase.workers)
    (hattempts : next.attempts = state.attempts)
    (hstored : ∀ message ∈ state.stored, message ∈ next.stored)
    (hkept : ∀ message ∈ flush.phase.pending, message ∈ next.db.waiting)
    (hwaiting : ∀ message ∈ next.db.waiting, message ∈ state.db.waiting ∨
      ∀ cursor, flush.phase.cursor? = some cursor → ¬ Passed cursor message.id) :
    InOrder next flush' where
  pending_waiting := hpending ▸ hkept
  passed := by
    rw [hpending, hcaller, hattempts]
    intro cursor hcursor' message hmessage hpassed
    rcases hwaiting message hmessage with hold | hnew
    · exact h.passed cursor (hcursor cursor hcursor') message hold hpassed
    · exact absurd hpassed (hnew cursor (hcursor cursor hcursor'))
  placed := fun cursor hcursor' last hlast => by
    obtain ⟨message, hmessage, hid⟩ := h.placed cursor (hcursor cursor hcursor') last hlast
    exact ⟨message, hstored message hmessage, hid⟩
  sorted := fun worker hworker => h.sorted worker (hworkers.subset hworker)
  apart := h.apart.sublist hworkers

/-- A flush that has nothing to attempt and no place in the queue is in order. -/
theorem inOrder_leaving {complete : Bool} (hphase : flush.phase = .leaving complete) :
    InOrder state flush where
  pending_waiting := by simp [hphase, Phase.pending]
  passed := by simp [hphase, Phase.cursor?]
  placed := by simp [hphase, Phase.cursor?]
  sorted := by simp [hphase, Phase.workers]
  apart := by simp [hphase, Phase.workers]

namespace Orderly

/-- What waited before is all that matters where no attempt is made. -/
theorem quiet (h : Orderly state) (hconsistent : Consistent next)
    (hattempts : next.attempts = state.attempts)
    (hwaiting : ∀ message ∈ next.db.waiting, message ∈ state.db.waiting)
    (hflushing : ∀ flush, next.running = some flush → InOrder next flush) : Orderly next where
  consistent := hconsistent
  waiting_behind := by
    rw [hattempts]
    exact fun message hmessage => h.waiting_behind message (hwaiting message hmessage)
  attempts_behind := hattempts ▸ h.attempts_behind
  flushing := hflushing

/-- The flush goes on, and messages may have left the queue that it is not about to attempt. -/
theorem onward (h : Orderly state) (hconsistent : Consistent next)
    (hrunning : state.running = some flush) (hnext : next.running = some flush')
    (hattempts : next.attempts = state.attempts) (hstored : next.stored = state.stored)
    (hwaiting : ∀ message ∈ next.db.waiting, message ∈ state.db.waiting)
    (hkept : ∀ message ∈ flush.phase.pending, message ∈ next.db.waiting)
    (hcaller : flush'.caller = flush.caller)
    (hcursor : ∀ cursor, flush'.phase.cursor? = some cursor → flush.phase.cursor? = some cursor)
    (hpending : flush'.phase.pending = flush.phase.pending)
    (hworkers : flush'.phase.workers.Sublist flush.phase.workers) : Orderly next := by
  refine h.quiet hconsistent hattempts hwaiting fun found hfound => ?_
  obtain rfl := Option.some.inj (hnext.symm.trans hfound)
  exact (h.flushing flush hrunning).mono hcaller hcursor hpending hworkers hattempts
    (fun _ hmem => hstored ▸ hmem) hkept fun message hmessage => .inl (hwaiting message hmessage)

/-- A message that is stored has not been passed, and nothing that was attempted comes after it. -/
theorem store (h : Orderly state) {made : List QueuedMessage} {db : Database}
    (hconsistent : Consistent { state with db, made, stored := message :: state.stored })
    (hfits : message.envelope.Fits) (hadded : state.db.addMessage message = .ok db)
    (hlater : ∀ other ∈ state.stored, other.id.bytes < message.id.bytes) :
    Orderly { state with db, made, stored := message :: state.stored } := by
  have hwaiting : ∀ other, other ∈ db.waiting ↔ other = message ∨ other ∈ state.db.waiting :=
    fun _ => Database.mem_waiting_of_addMessage hfits hadded
  refine ⟨hconsistent, fun other hother => ?_, h.attempts_behind, fun flush hrunning => ?_⟩
  · rcases (hwaiting other).mp hother with rfl | hold
    · exact behind_of_latest fun attempt hattempt =>
        hlater _ (h.consistent.attempted_stored attempt hattempt)
    · exact h.waiting_behind other hold
  · have hinorder := h.flushing flush hrunning
    refine hinorder.mono rfl (fun _ hcursor => hcursor) rfl (.refl _) rfl
      (fun _ hmem => List.mem_cons_of_mem _ hmem)
      (fun other hother => (hwaiting other).mpr (.inr (hinorder.pending_waiting other hother)))
      fun other hother => ?_
    rcases (hwaiting other).mp hother with rfl | hold
    · -- the cursor stands at a message that was stored before
      refine .inr fun cursor hcursor hpassed => ?_
      obtain ⟨last, hlast, hle⟩ := hpassed
      obtain ⟨old, hold, rfl⟩ := hinorder.placed cursor hcursor last hlast
      exact absurd (hlater old hold) (List.not_lt.mpr hle)
    · exact .inl hold

theorem acquire (h : Orderly state)
    (hconsistent : Consistent { state with
      running := some ⟨caller, .loading (.start pageSize), {}, none⟩
      callers := caller :: state.callers }) :
    Orderly { state with
      running := some ⟨caller, .loading (.start pageSize), {}, none⟩
      callers := caller :: state.callers } := by
  refine h.quiet hconsistent rfl (fun _ hmem => hmem) fun flush hrunning => ?_
  obtain rfl := Option.some.inj hrunning
  constructor
  case passed =>
    rintro cursor ⟨⟩ message - ⟨last, hlast, -⟩
    cases hlast
  case placed =>
    rintro cursor ⟨⟩ last hlast
    cases hlast
  all_goals simp [Phase.pending, Phase.workers]

end Orderly

/-! ## Loading a page -/

theorem sorted_workersFor {page : List QueuedMessage}
    (h : page.Pairwise fun first second => first.id.bytes < second.id.bytes) :
    ∀ worker ∈ workersFor page,
      worker.todo.Pairwise fun first second => first.id.bytes < second.id.bytes := by
  intro worker hworker
  rw [workersFor, partitionByPeer_eq, List.map_map] at hworker
  obtain ⟨peer, -, rfl⟩ := List.mem_map.mp hworker
  exact h.filter _

theorem apart_workersFor (page : List QueuedMessage) : (workersFor page).Pairwise Worker.Apart := by
  rw [workersFor, partitionByPeer_eq, List.map_map]
  refine List.pairwise_map.mpr ((nodup_destinations QueuedMessage.peer page).imp ?_)
  intro first second hne message hmessage other hother heq
  have hfirst := (List.mem_filter.mp hmessage).2
  have hsecond := (List.mem_filter.mp hother).2
  exact hne ((eq_of_beq hfirst).symm.trans (heq.trans (eq_of_beq hsecond)))

namespace Orderly

/-- A page that is loaded goes to workers in the order of the queue. -/
theorem inOrder_page (h : Orderly state) (hrunning : state.running = some flush)
    (hphase : flush.phase = .loading cursor) (htaken : Taken state.db cursor page last)
    (report : FlushReport) (present : Option (List QueuedMessage)) :
    InOrder state
      { flush with
        phase := .delivering { cursor with after := some last } (workersFor page) []
        report
        present } := by
  have hinorder := h.flushing flush hrunning
  have hcursor : flush.phase.cursor? = some cursor := by rw [hphase]; rfl
  have hperm := pending_workersFor page
  constructor
  case pending_waiting =>
    exact fun message hmessage => htaken.mem_waiting (hperm.mem_iff.mp hmessage)
  case passed =>
    rintro _ ⟨⟩ message hmessage hpassed
    by_cases hbefore : Passed cursor message.id
    · rcases hinorder.passed cursor hcursor message hmessage hbefore with hpending | htried
      · rw [hphase] at hpending
        cases hpending
      · exact .inr htried
    · exact .inl (hperm.mem_iff.mpr (htaken.mem_of_passed hmessage hbefore hpassed))
  case placed =>
    rintro _ ⟨⟩ _ ⟨⟩
    obtain ⟨message, hmessage, hid⟩ := htaken.ends
    exact ⟨message, h.consistent.waiting_stored message (htaken.mem_waiting hmessage), hid⟩
  case sorted => exact sorted_workersFor htaken.sorted
  case apart => exact apart_workersFor page

theorem load (h : Orderly state) (hrunning : state.running = some flush)
    (hphase : flush.phase = .loading cursor)
    (hconsistent : Consistent { state with
      db := (state.db.listMessages cursor.after cursor.pageSize).2
      running := some (flush.loaded cursor state.db.waiting
        (state.db.listMessages cursor.after cursor.pageSize).1) }) :
    Orderly { state with
      db := (state.db.listMessages cursor.after cursor.pageSize).2
      running := some (flush.loaded cursor state.db.waiting
        (state.db.listMessages cursor.after cursor.pageSize).1) } := by
  have hsize : 1 ≤ cursor.pageSize :=
    (h.consistent.walking flush hrunning).pageSize cursor (by rw [hphase]; rfl)
  have hsame := (state.db.listMessages_found cursor.after hsize).1
  refine h.quiet hconsistent rfl (fun message hmessage => hsame ▸ hmessage) fun found hrun => ?_
  obtain rfl := Option.some.inj hrun
  cases hresult : (state.db.listMessages cursor.after cursor.pageSize).1 with
  | error fault => exact inOrder_leaving rfl
  | ok page =>
      rcases taken_of_listed hsize hresult with ⟨rfl, -⟩ | ⟨last, htaken⟩
      · exact inOrder_leaving rfl
      · rw [htaken.loaded]
        have hinorder := h.inOrder_page hrunning hphase htaken
        exact (hinorder _ _).mono rfl (fun _ hcursor => hcursor) rfl (.refl _) rfl
          (fun _ hmem => hmem)
          (fun message hmessage => hsame ▸ (hinorder {} none).pending_waiting message hmessage)
          fun message hmessage => .inl (hsame ▸ hmessage)

end Orderly

/-! ## An attempt -/

section Attempt

variable {front back : List Worker} {todo : List QueuedMessage}
  {accepted : List (MessageId × Route)} {joined : List MessageId}

/-- Of the messages for one peer, a worker attempts the one with the least name first. -/
theorem InOrder.lt_of_pending (h : InOrder state flush)
    (hphase : flush.phase =
      .delivering cursor (front ++ ⟨message :: todo, accepted⟩ :: back) joined)
    (hother : other ∈ flush.phase.pending) (hpeer : other.peer = message.peer) :
    other = message ∨ message.id.bytes < other.id.bytes := by
  have hsorted := h.sorted ⟨message :: todo, accepted⟩ (by simp [hphase, Phase.workers])
  have hapart := h.apart
  rw [hphase] at hother hapart
  obtain ⟨-, hback, hfront⟩ := List.pairwise_append.mp hapart
  have hmessage : message ∈ (⟨message :: todo, accepted⟩ : Worker).todo := List.mem_cons_self
  obtain ⟨worker, hworker, hmem⟩ := List.mem_flatMap.mp hother
  rcases List.mem_append.mp hworker with hworker | hworker
  · exact absurd hpeer (hfront worker hworker _ List.mem_cons_self other hmem message hmessage)
  · rcases List.mem_cons.mp hworker with rfl | hworker
    · rcases List.mem_cons.mp hmem with rfl | hmem
      · exact .inl rfl
      · exact .inr ((List.pairwise_cons.mp hsorted).1 other hmem)
    · have hne := (List.pairwise_cons.mp hback).1 worker hworker message hmessage other hmem
      exact absurd hpeer.symm hne

/-- A worker that has attempted a message still has the rest in order. -/
theorem sorted_attempt (more : List (MessageId × Route))
    (h : ∀ worker ∈ front ++ ⟨message :: todo, accepted⟩ :: back,
      worker.todo.Pairwise fun first second => first.id.bytes < second.id.bytes) :
    ∀ worker ∈ front ++ ⟨todo, accepted ++ more⟩ :: back,
      worker.todo.Pairwise fun first second => first.id.bytes < second.id.bytes := by
  intro worker hworker
  rcases List.mem_append.mp hworker with hworker | hworker
  · exact h worker (List.mem_append_left _ hworker)
  · rcases List.mem_cons.mp hworker with rfl | hworker
    · exact (List.pairwise_cons.mp (h ⟨message :: todo, accepted⟩ (by simp))).2
    · exact h worker (List.mem_append_right _ (List.mem_cons_of_mem _ hworker))

/-- A worker that has attempted a message has the same destination as before, or none. -/
theorem apart_attempt (more : List (MessageId × Route))
    (h : (front ++ ⟨message :: todo, accepted⟩ :: back).Pairwise Worker.Apart) :
    (front ++ ⟨todo, accepted ++ more⟩ :: back).Pairwise Worker.Apart := by
  have hleft : ∀ worker, Worker.Apart worker ⟨message :: todo, accepted⟩ →
      Worker.Apart worker ⟨todo, accepted ++ more⟩ :=
    fun worker hold other hother next hnext =>
      hold other hother next (List.mem_cons_of_mem _ hnext)
  have hright : ∀ worker, Worker.Apart ⟨message :: todo, accepted⟩ worker →
      Worker.Apart ⟨todo, accepted ++ more⟩ worker :=
    fun worker hold other hother => hold other (List.mem_cons_of_mem _ hother)
  obtain ⟨hfront, hback, hacross⟩ := List.pairwise_append.mp h
  obtain ⟨hhead, hback⟩ := List.pairwise_cons.mp hback
  refine List.pairwise_append.mpr ⟨hfront, List.pairwise_cons.mpr
    ⟨fun worker hworker => hright worker (hhead worker hworker), hback⟩, ?_⟩
  intro worker hworker worker' hworker'
  rcases List.mem_cons.mp hworker' with rfl | hworker'
  · exact hleft worker (hacross worker hworker _ List.mem_cons_self)
  · exact hacross worker hworker worker' (List.mem_cons_of_mem _ hworker')

theorem InOrder.attempt (h : InOrder state flush) (outcome : Except DeliveryError Route)
    (hphase : flush.phase =
      .delivering cursor (front ++ ⟨message :: todo, accepted⟩ :: back) joined)
    (more : List (MessageId × Route)) :
    InOrder { state with attempts := state.attempts ++ [⟨flush.caller, message, outcome⟩] }
      { flush with
        phase := .delivering cursor (front ++ ⟨todo, accepted ++ more⟩ :: back) joined } := by
  have hcursor : flush.phase.cursor? = some cursor := by rw [hphase]; rfl
  have hperm : flush.phase.pending.Perm (message ::
      (Phase.delivering cursor (front ++ ⟨todo, accepted ++ more⟩ :: back) joined).pending) := by
    rw [hphase]
    exact pending_attempt more
  have hrest : ∀ other ∈ (Phase.delivering cursor (front ++ ⟨todo, accepted ++ more⟩ :: back)
      joined).pending, other ∈ flush.phase.pending :=
    fun other hother => hperm.mem_iff.mpr (List.mem_cons_of_mem message hother)
  have hsorted := h.sorted
  have hapart := h.apart
  rw [hphase] at hsorted hapart
  constructor
  case pending_waiting => exact fun other hother => h.pending_waiting other (hrest other hother)
  case passed =>
    rintro _ ⟨⟩ other hother hpassed
    rcases h.passed cursor hcursor other hother hpassed with hpending | ⟨attempt, hattempt, hmade⟩
    · rcases List.mem_cons.mp (hperm.mem_iff.mp hpending) with rfl | hpending
      · exact .inr ⟨_, List.mem_append_right _ (List.mem_singleton_self _), rfl, rfl⟩
      · exact .inl hpending
    · exact .inr ⟨attempt, List.mem_append_left _ hattempt, hmade⟩
  case placed =>
    rintro _ ⟨⟩ last hlast
    exact h.placed cursor hcursor last hlast
  case sorted => exact sorted_attempt more hsorted
  case apart => exact apart_attempt more hapart

theorem Orderly.attempt (h : Orderly state) (hrunning : state.running = some flush)
    (outcome : Except DeliveryError Route)
    (hphase : flush.phase =
      .delivering cursor (front ++ ⟨message :: todo, accepted⟩ :: back) joined)
    {more : List (MessageId × Route)}
    (hconsistent : Consistent { state with
      attempts := state.attempts ++ [⟨flush.caller, message, outcome⟩]
      running := some { flush with
        phase := .delivering cursor (front ++ ⟨todo, accepted ++ more⟩ :: back) joined } }) :
    Orderly { state with
      attempts := state.attempts ++ [⟨flush.caller, message, outcome⟩]
      running := some { flush with
        phase := .delivering cursor (front ++ ⟨todo, accepted ++ more⟩ :: back) joined } } := by
  have hinorder := h.flushing flush hrunning
  have hwalking := h.consistent.walking flush hrunning
  have hcursor : flush.phase.cursor? = some cursor := by rw [hphase]; rfl
  have hmessage : message ∈ flush.phase.pending := by
    rw [hphase]
    exact (pending_attempt []).mem_iff.mpr List.mem_cons_self
  have hbehind := h.waiting_behind message (hinorder.pending_waiting message hmessage)
  refine ⟨hconsistent, fun other hother => ?_, fun before attempt after hsplit => ?_,
    fun found hfound => ?_⟩
  · refine (h.waiting_behind other hother).concat fun hpeer hid => ?_
    -- the cursor has passed the message, and so the one that is behind it
    obtain ⟨last, hlast, hle⟩ := hwalking.pending_passed cursor hcursor message hmessage
    have hpassed : Passed cursor other.id := ⟨last, hlast, List.le_trans (List.le_of_lt hid) hle⟩
    rcases hinorder.passed cursor hcursor other hother hpassed with hpending | htried
    · rcases hinorder.lt_of_pending hphase hpending hpeer.symm with rfl | hlater
      · exact absurd hid (Bytes.lt_irrefl _)
      · exact absurd hlater (Bytes.lt_asymm hid)
    · exact htried
  · rcases concat_eq_append_cons hsplit with ⟨rfl, rfl⟩ | ⟨rest, hsplit⟩
    · exact hbehind
    · exact h.attempts_behind before attempt rest hsplit
  · obtain rfl := Option.some.inj hfound
    have hgoes := hinorder.attempt outcome hphase more
    exact hgoes.mono rfl (fun _ hcursor => hcursor) rfl (.refl _) rfl (fun _ hmem => hmem)
      hgoes.pending_waiting fun _ hmem => .inl hmem

end Attempt

/-! ## All steps -/

/-- Every step keeps the order. -/
theorem Orderly.step (h : Orderly state) (hstep : Step pageSize state next)
    (hlater : ∀ message, next.stored = message :: state.stored →
      ∀ other ∈ state.stored, other.id.bytes < message.id.bytes) : Orderly next := by
  have hconsistent := h.consistent.step hstep
  cases hstep with
  | make | storeFails =>
      exact h.quiet hconsistent rfl (fun _ hmem => hmem) fun flush hrunning =>
        let hinorder := h.flushing flush hrunning
        ⟨hinorder.pending_waiting, hinorder.passed, hinorder.placed, hinorder.sorted,
          hinorder.apart⟩
  | store made fits added => exact h.store hconsistent fits added (hlater _ rfl)
  | acquire free new => exact h.acquire hconsistent
  | load running phase => exact h.load running phase hconsistent
  | setAside running phase table held corrupt aside =>
      have hwaiting := Database.waiting_of_setAside table held corrupt aside
      refine h.onward hconsistent running running rfl rfl (fun _ hmem => hwaiting ▸ hmem) ?_ rfl
        (fun _ hcursor => hcursor) rfl (.refl _)
      exact fun message hmessage =>
        hwaiting ▸ (h.flushing _ running).pending_waiting message hmessage
  | loadFails running phase =>
      refine h.quiet hconsistent rfl (fun _ hmem => hmem) fun found hfound => ?_
      obtain rfl := Option.some.inj hfound
      exact inOrder_leaving rfl
  | attempt outcome running phase => exact h.attempt running outcome phase hconsistent
  | join running phase | settle running phase | deleteFails running phase
  | turn running phase =>
      refine h.onward hconsistent running rfl rfl rfl (fun _ hmem => hmem)
        (h.flushing _ running).pending_waiting rfl ?_ ?_ ?_
      all_goals simp [phase, Phase.cursor?, Phase.pending, Phase.workers]
  | delete running phase deleted =>
      refine h.onward hconsistent running rfl rfl rfl
        (fun _ hmem => ((Database.mem_waiting_of_deleteMessage deleted).mp hmem).1) ?_ rfl ?_ ?_ ?_
      all_goals simp [phase, Phase.cursor?, Phase.pending, Phase.workers]
  | release running phase count =>
      exact h.quiet hconsistent rfl (fun _ hmem => hmem) (by rintro _ ⟨⟩)

theorem Reachable.orderly (h : Reachable pageSize (.start db) state)
    (hascending : state.Ascending db) : Orderly state := by
  induction h with
  | start => exact orderly_start db
  | @step state next before step ih =>
      have hstored := before.stored
      rcases step.stored with hsame | ⟨message, hmore⟩
      · obtain ⟨added, hadded, hsorted⟩ := hascending
        refine (ih ⟨added, hsame ▸ hadded, hsorted⟩).step step fun message hmore => ?_
        rw [hsame] at hmore
        exact absurd hmore (List.cons_ne_self message state.stored).symm
      · obtain ⟨hbefore, hlater⟩ := hascending.of_cons hmore hstored
        refine (ih hbefore).step step fun other hother => ?_
        obtain rfl : message = other := (List.cons.inj (hmore.symm.trans hother)).1
        exact hlater

/-! ## The order of deliveries -/

theorem pairwise_of_split {R : Attempt → Attempt → Prop}
    (h : ∀ before first middle second after,
      attempts = before ++ first :: middle ++ second :: after → R first second) :
    attempts.Pairwise R := by
  induction attempts with
  | nil => exact .nil
  | cons first rest ih =>
      have hrest : rest.Pairwise R := ih fun before third middle second after hsplit =>
        h (first :: before) third middle second after (by simp [hsplit])
      refine List.pairwise_cons.mpr ⟨fun second hsecond => ?_, hrest⟩
      obtain ⟨middle, after, rfl⟩ := List.append_of_mem hsecond
      exact h [] first middle second after rfl

namespace Orderly

section

variable {state : State} {middle : List Attempt} {earlier first second : Attempt}
  (h : Orderly state) (hstuck : state.stuck = [])

include h hstuck

section

variable (hsplit : state.attempts = before ++ first :: middle ++ second :: after)

include hsplit

/-- A message that is attempted again was refused, and by another flush. -/
theorem refused_of_again (hearlier : earlier ∈ before ++ first :: middle)
    (hid : earlier.id = second.id) :
    earlier.caller ≠ second.caller ∧ ∃ reason, earlier.outcome = .error reason := by
  have honce := h.consistent.sound.once
  have hretried := h.consistent.sound.retried
  rw [hsplit] at honce hretried
  refine ⟨(List.pairwise_append.mp honce).2.2 earlier hearlier second List.mem_cons_self hid, ?_⟩
  cases houtcome : earlier.outcome with
  | error reason => exact ⟨reason, rfl⟩
  | ok route =>
      -- what was accepted has been removed
      have hstays := (List.pairwise_append.mp hretried).2.2 earlier hearlier second
        List.mem_cons_self hid ⟨route, houtcome⟩
      rw [hstuck] at hstays
      cases hstays

/-- The flush that attempted the later message had attempted the one that it overtook, which was
refused. -/
theorem refused_of_overtaken (hpeer : first.message.peer = second.message.peer)
    (hid : second.id.bytes < first.id.bytes) :
    ∃ earlier ∈ before, earlier.caller = first.caller ∧ earlier.message = second.message ∧
      ∃ reason, earlier.outcome = .error reason := by
  obtain ⟨earlier, hearlier, hcaller, hmessage⟩ :=
    h.attempts_behind _ second after hsplit before first middle rfl hpeer hid
  have hrefused := h.refused_of_again hstuck hsplit (List.mem_append_left _ hearlier)
    (congrArg QueuedMessage.id hmessage)
  exact ⟨earlier, hearlier, hcaller, hmessage, hrefused.2⟩

/-- Of two attempts for one peer the second is for a later message, or its message was refused
before the first by the same flush, or the two are for one message. -/
theorem cases_of_split (hpeer : first.message.peer = second.message.peer) :
    first.id.bytes < second.id.bytes ∨ ∃ earlier ∈ before ++ first :: middle,
      earlier.caller = first.caller ∧ earlier.id = second.id ∧
        earlier.message.peer = second.message.peer := by
  by_cases hlt : first.id.bytes < second.id.bytes
  · exact .inl hlt
  · by_cases heq : first.id.bytes = second.id.bytes
    · exact .inr ⟨first, by simp, rfl, Database.bytes_eq_iff.mp heq, hpeer⟩
    · obtain ⟨earlier, hearlier, hcaller, hmessage, -⟩ :=
        h.refused_of_overtaken hstuck hsplit hpeer (Bytes.lt_of_not_lt_of_ne hlt heq)
      exact .inr ⟨earlier, List.mem_append_left _ hearlier, hcaller,
        congrArg QueuedMessage.id hmessage, congrArg QueuedMessage.peer hmessage⟩

end

/-- A flush attempts the messages for a peer in order. -/
theorem sorted_of_caller (caller : Nat) (peer : PeerId) :
    (state.attempts.filter fun attempt =>
      attempt.caller == caller && attempt.message.peer == peer).Pairwise
        fun first second => first.id.bytes < second.id.bytes := by
  have hpairs : state.attempts.Pairwise fun first second => first.caller = second.caller →
      first.message.peer = second.message.peer → first.id.bytes < second.id.bytes := by
    refine pairwise_of_split fun before first middle second after hsplit hcaller hpeer => ?_
    rcases h.cases_of_split hstuck hsplit hpeer with hlt | ⟨earlier, hearlier, hsame, hid, -⟩
    · exact hlt
    · have hother := (h.refused_of_again hstuck hsplit hearlier hid).1
      exact absurd (hsame.trans hcaller) hother
  refine (hpairs.filter _).imp_of_mem fun hfirst hsecond hlt => ?_
  have hfirst := (List.mem_filter.mp hfirst).2
  have hsecond := (List.mem_filter.mp hsecond).2
  simp only [Bool.and_eq_true, beq_iff_eq] at hfirst hsecond
  exact hlt (hfirst.1.trans hsecond.1.symm) (hfirst.2.trans hsecond.2.symm)

/-- If a peer takes every message, it gets them in order. -/
theorem sorted_of_accepted (peer : PeerId)
    (hall : ∀ attempt ∈ state.attempts, attempt.message.peer = peer → attempt.Accepted) :
    (state.attempts.filter fun attempt => attempt.message.peer == peer).Pairwise
      fun first second => first.id.bytes < second.id.bytes := by
  have hpairs : state.attempts.Pairwise fun first second => first.message.peer = peer →
      second.message.peer = peer → first.id.bytes < second.id.bytes := by
    refine pairwise_of_split fun before first middle second after hsplit hfirst hsecond => ?_
    rcases h.cases_of_split hstuck hsplit (hfirst.trans hsecond.symm) with
      hlt | ⟨earlier, hearlier, -, hid, hpeer⟩
    · exact hlt
    · obtain ⟨-, reason, hrefused⟩ := h.refused_of_again hstuck hsplit hearlier hid
      obtain ⟨route, haccepted⟩ := hall earlier (hsplit ▸ List.mem_append_left _ hearlier)
        (hpeer.trans hsecond)
      rw [hrefused] at haccepted
      cases haccepted
  refine (hpairs.filter _).imp_of_mem fun hfirst hsecond hlt => ?_
  exact hlt (eq_of_beq (List.mem_filter.mp hfirst).2) (eq_of_beq (List.mem_filter.mp hsecond).2)

end

end Orderly

/-- **A message is overtaken only after it was refused.**  Where messages are stored in the order of
their names and what is accepted can be removed, one that is attempted after a later one for the
same peer had been attempted, and refused, by the flush that attempted the later one.  So every
flush attempts the messages for a peer in their order, and if no attempt for a peer is refused the
messages are delivered to it in their order. -/
theorem overtaken_only_after_refusal (h : Reachable pageSize (.start db) state)
    (hascending : state.Ascending db) (hstuck : state.stuck = []) :
    (∀ before first middle second after,
      state.attempts = before ++ first :: middle ++ second :: after →
      first.message.peer = second.message.peer → second.id.bytes < first.id.bytes →
      ∃ earlier ∈ before, earlier.caller = first.caller ∧ earlier.message = second.message ∧
        ∃ reason, earlier.outcome = .error reason) ∧
    (∀ caller peer, (state.attempts.filter fun attempt =>
        attempt.caller == caller && attempt.message.peer == peer).Pairwise
          fun first second => first.id.bytes < second.id.bytes) ∧
    ∀ peer, (∀ attempt ∈ state.attempts, attempt.message.peer = peer → attempt.Accepted) →
      (state.attempts.filter fun attempt => attempt.message.peer == peer).Pairwise
        fun first second => first.id.bytes < second.id.bytes := by
  have horderly := h.orderly hascending
  exact ⟨fun before first middle second after => horderly.refused_of_overtaken hstuck,
    horderly.sorted_of_caller hstuck, horderly.sorted_of_accepted hstuck⟩

/-! ### A message that is overtaken -/

/-- A later message for the same peer. -/
def laterParcel : QueuedMessage :=
  ⟨⟨List.replicate 16 8, rfl⟩, parcel.peer, ⟨[8], ⟨43, none⟩, []⟩, 0⟩

theorem fits_laterParcel : laterParcel.envelope.Fits := by
  refine ⟨by decide, fun payload hpayload => ?_, by decide⟩
  cases hpayload

/-- The first message is refused and the later one accepted, and the next flush delivers the first
one. -/
theorem parcel_overtaken :
    ∃ state, Reachable 16 (.start .empty) state ∧ state.Ascending .empty ∧ state.stuck = [] ∧
      (state.attempts.map fun attempt => (attempt.caller, attempt.message)) =
        [(0, parcel), (0, laterParcel), (1, parcel)] ∧
      ∃ earlier ∈ state.attempts.take 1, earlier.caller = 0 ∧ earlier.message = parcel ∧
        ∃ reason, earlier.outcome = .error reason := by
  have hmade := Reachable.start.step (@Step.make 16 (.start .empty) parcel nofun)
  have hstored := hmade.step (@Step.store 16 _ [] [] parcel _ rfl fits_parcel rfl)
  have hmade := hstored.step (@Step.make 16 _ laterParcel (by decide))
  have hstored := hmade.step (@Step.store 16 _ [] [] laterParcel _ rfl fits_laterParcel rfl)
  have hlocked := hstored.step (@Step.acquire 16 _ 0 rfl nofun)
  have hloaded := hlocked.step (.load rfl rfl)
  have hrefused := hloaded.step (@Step.attempt 16 _ _ _ [] [] parcel [laterParcel] [] []
    (.error (.noRoute parcel.peer)) rfl rfl)
  have haccepted := hrefused.step (@Step.attempt 16 _ _ _ [] [] laterParcel [] [] []
    (.ok .direct) rfl rfl)
  have hjoined := haccepted.step (@Step.join 16 _ _ _ [] [] _ [] rfl rfl)
  have hsettled := hjoined.step (.settle rfl rfl)
  have hdeleted := hsettled.step (@Step.delete 16 _ _ _ laterParcel.id [] true _ rfl rfl rfl)
  have hturned := hdeleted.step (.turn rfl rfl)
  have hended := hturned.step (.load rfl rfl)
  have hreleased := hended.step (@Step.release 16 _ _ true none rfl rfl nofun)
  have hlocked := hreleased.step (@Step.acquire 16 _ 1 rfl (by decide))
  have hloaded := hlocked.step (.load rfl rfl)
  have hagain := hloaded.step (@Step.attempt 16 _ _ _ [] [] parcel [] [] [] (.ok .direct) rfl rfl)
  refine ⟨_, hagain, ⟨[laterParcel, parcel], rfl, by decide⟩, rfl, rfl, ?_⟩
  exact (overtaken_only_after_refusal hagain ⟨[laterParcel, parcel], rfl, by decide⟩ rfl).1
    [_] _ [] _ [] rfl rfl (by decide)

/-- A queue of both messages, of which the next sending fails. -/
def overtaking : Outgoing where
  db := { Database.empty with
    queue := some ((Table.empty.put parcel.toRow).put laterParcel.toRow) }
  transport := { (Transport.fresh true).connect parcel.peer with failNextSend := some "reset" }
  relay := .fresh

/-- A peer does not always get its messages in the order of the queue, even if the tables of
messages and contacts are there and can be read and written. -/
theorem failed_parcel_overtaken :
    ¬ ∀ (outgoing : Outgoing) (queue : QueueTable) (quarantine : QuarantineTable) (pageSize : Nat)
        (peer : PeerId), outgoing.db.Holds queue quarantine →
      (∀ other, ∃ found, outgoing.db.contact? other = .ok found) → outgoing.transport.sent = [] →
      (((outgoing.flush pageSize).2.flush pageSize).2.transport.sentTo peer).Sublist
        ((outgoing.db.waiting.filter fun message => message.peer == peer).map
          QueuedMessage.envelope) := by
  intro hordered
  have hsublist := hordered overtaking _ _ 16 parcel.peer ⟨rfl, rfl, rfl⟩
    (fun other => ⟨none, rfl⟩) rfl
  have hsent : ((overtaking.flush 16).2.flush 16).2.transport.sentTo parcel.peer =
      [laterParcel.envelope, parcel.envelope] := by decide +kernel
  have hwaiting : (overtaking.db.waiting.filter fun message => message.peer == parcel.peer).map
      QueuedMessage.envelope = [parcel.envelope, laterParcel.envelope] := by decide +kernel
  rw [hsent, hwaiting] at hsublist
  revert hsublist
  decide

end PeerMail.Outbox
