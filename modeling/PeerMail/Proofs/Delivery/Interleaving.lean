import PeerMail.Proofs.Delivery.Steps

/-!
# Nothing is lost or doubled, whatever the order of steps

`Sound` is what holds in every state that additions and flushes can reach, in whatever
order their steps come and whichever of them fail (`interleaving_sound`).

One invariant carries it.  A message that has been accepted and still waits is one that
could not be removed, or the running flush is about to remove it (`Consistent.settled`); so
when a page is loaded, and nothing is about to be removed, every message on it that has
been accepted before is stuck.  Within a flush the cursor tells apart what has been dealt
with and what is to come (`Walking`): attempts lie at or before it, and of the messages
that were present at first those behind it still wait.  New messages may appear on either
side.
-/

namespace PeerMail.Outbox

open Outgoing (boundOf)

/-! ## What is to be shown -/

variable {pageSize : Nat} {start state next : State} {flush : Flush} {cursor : PageCursor}
  {message other : QueuedMessage} {page : List QueuedMessage} {id last : MessageId} {caller : Nat}

/-- The caller has attempted the message. -/
def State.Attempted (state : State) (caller : Nat) (message : QueuedMessage) : Prop :=
  ∃ attempt ∈ state.attempts, attempt.caller = caller ∧ attempt.message = message

/-- No message is lost, and none is delivered twice without need. -/
structure Sound (state : State) : Prop where
  /-- What was stored waits or has been accepted. -/
  kept : ∀ message ∈ state.stored, message ∈ state.db.waiting ∨
    ∃ attempt ∈ state.attempts, attempt.message = message ∧ attempt.Accepted
  /-- No flush attempts a message twice. -/
  once : state.attempts.Pairwise fun first second =>
    first.id = second.id → first.caller ≠ second.caller
  /-- What is attempted again after it was accepted could not be removed. -/
  retried : state.attempts.Pairwise fun first second =>
    first.id = second.id → first.Accepted → (first.caller, first.id) ∈ state.stuck
  /-- A flush whose pages all loaded has attempted what was there when it began. -/
  swept : ∀ finished ∈ state.finished, finished.complete = true →
    ∃ present, finished.present = some present ∧
      ∀ message ∈ present, state.Attempted finished.caller message

/-! ## The invariant -/

namespace Phase

/-- The messages that the workers have not attempted yet. -/
def pending : Phase → List QueuedMessage
  | delivering _ workers _ => workers.flatMap Worker.todo
  | _ => []

/-- The messages that have been accepted and are about to be removed. -/
def due : Phase → List MessageId
  | delivering _ workers joined =>
      joined ++ workers.flatMap fun worker => worker.accepted.map Prod.fst
  | deleting _ accepted => accepted
  | _ => []

/-- The place in the queue, until the walk is over. -/
def cursor? : Phase → Option PageCursor
  | loading cursor | delivering cursor _ _ | deleting cursor _ => some cursor
  | leaving _ => none

end Phase

/-- The name is not behind the cursor. -/
def Passed (cursor : PageCursor) (id : MessageId) : Prop :=
  ∃ last, cursor.after = some last ∧ id.bytes ≤ last.bytes

theorem not_passed_iff : ¬ Passed cursor id ↔ boundOf cursor.after < id.bytes := by
  unfold Passed boundOf
  cases cursor.after with
  | none =>
      have hne : id.bytes ≠ [] := by
        intro hnil
        have hlength := id.value.property
        rw [show id.value.val = [] from hnil] at hlength
        cases hlength
      simpa using Bytes.nil_lt_iff.mpr hne
  | some last => simp [List.not_le]

/-- Which callers are about to remove which message. -/
def State.due (state : State) : List (Nat × MessageId) :=
  match state.running with
  | none => []
  | some flush => flush.phase.due.map (flush.caller, ·)

/-- What holds between a flush under way and the rest of the state. -/
structure Walking (state : State) (flush : Flush) : Prop where
  known : flush.caller ∈ state.callers
  /-- What is to be attempted was stored, is attempted once, and is stuck if it was accepted
  before. -/
  pending_stored : ∀ message ∈ flush.phase.pending, message ∈ state.stored
  pending_once : (flush.phase.pending.map QueuedMessage.id).Nodup
  pending_new : ∀ message ∈ flush.phase.pending, ∀ attempt ∈ state.attempts,
    attempt.id = message.id → attempt.caller ≠ flush.caller ∧
      (attempt.Accepted → (attempt.caller, attempt.id) ∈ state.stuck)
  /-- What is to be removed was accepted. -/
  due_accepted : ∀ id ∈ flush.phase.due, ∃ attempt ∈ state.attempts,
    attempt.caller = flush.caller ∧ attempt.id = id ∧ attempt.Accepted
  /-- The cursor has passed what has been attempted and what is to be attempted. -/
  attempted_passed : ∀ cursor, flush.phase.cursor? = some cursor → ∀ attempt ∈ state.attempts,
    attempt.caller = flush.caller → Passed cursor attempt.id
  pending_passed : ∀ cursor, flush.phase.cursor? = some cursor →
    ∀ message ∈ flush.phase.pending, Passed cursor message.id
  /-- Of what was present at first, the part that the cursor has passed is dealt with, and the
  rest still waits. -/
  present_passed : ∀ cursor, flush.phase.cursor? = some cursor → ∀ message ∈ flush.present.getD [],
    Passed cursor message.id → message ∈ flush.phase.pending ∨ state.Attempted flush.caller message
  present_ahead : ∀ cursor, flush.phase.cursor? = some cursor → ∀ message ∈ flush.present.getD [],
    ¬ Passed cursor message.id → message ∈ state.db.waiting
  present_swept : flush.phase = .leaving true → ∃ present, flush.present = some present ∧
    ∀ message ∈ present, state.Attempted flush.caller message
  /-- Before the first page is loaded the cursor has passed nothing. -/
  unloaded : flush.present = none → ∀ cursor, flush.phase.cursor? = some cursor →
    cursor.after = none
  pageSize : ∀ cursor, flush.phase.cursor? = some cursor → 1 ≤ cursor.pageSize

/-- What every step keeps. -/
structure Consistent (state : State) : Prop where
  made_named : ∀ message ∈ state.made, message.id ∈ state.names
  stored_named : ∀ message ∈ state.stored, message.id ∈ state.names
  distinct : ((state.made ++ state.stored).map QueuedMessage.id).Nodup
  waiting_stored : ∀ message ∈ state.db.waiting, message ∈ state.stored
  attempted_stored : ∀ attempt ∈ state.attempts, attempt.message ∈ state.stored
  attempted_known : ∀ attempt ∈ state.attempts, attempt.caller ∈ state.callers
  sound : Sound state
  /-- What was accepted and waits nevertheless is stuck or about to be removed. -/
  settled : ∀ attempt ∈ state.attempts, attempt.Accepted → attempt.message ∈ state.db.waiting →
    (attempt.caller, attempt.id) ∈ state.stuck ∨ (attempt.caller, attempt.id) ∈ state.due
  walking : ∀ flush, state.running = some flush → Walking state flush

theorem consistent_start (db : Database) : Consistent (.start db) where
  made_named := by simp [State.start]
  stored_named := fun message hmessage => List.mem_map_of_mem hmessage
  distinct := Database.nodup_ids_of_sorted db.sorted_waiting
  waiting_stored := fun message hmessage => hmessage
  attempted_stored := by simp [State.start]
  attempted_known := by simp [State.start]
  sound :=
    { kept := fun message hmessage => .inl hmessage
      once := .nil
      retried := .nil
      swept := by simp [State.start] }
  settled := by simp [State.start]
  walking := by simp [State.start]

namespace Consistent

/-- Stored messages of one name are the same. -/
theorem eq_of_id_eq (h : Consistent state) (hmessage : message ∈ state.stored)
    (hother : other ∈ state.stored) (hid : message.id = other.id) : message = other := by
  have hsub := (List.sublist_append_right state.made state.stored).map QueuedMessage.id
  exact List.inj_on_of_nodup_map (h.distinct.sublist hsub) hmessage hother hid

/-- Only the running flush removes anything. -/
theorem settled_of_due_nil (h : Consistent state) (hdue : state.due = []) {attempt : Attempt}
    (hattempt : attempt ∈ state.attempts) (haccepted : attempt.Accepted)
    (hwaiting : attempt.message ∈ state.db.waiting) : (attempt.caller, attempt.id) ∈ state.stuck := by
  rcases h.settled attempt hattempt haccepted hwaiting with hstuck | hmem
  · exact hstuck
  · rw [hdue] at hmem
    cases hmem

end Consistent

/-! ## Steps of additions -/

/-- A flush goes on as before when more is known, and nothing is missing behind its cursor. -/
theorem Walking.mono (h : Walking state flush) (hattempts : next.attempts = state.attempts)
    (hstuck : ∀ pair ∈ state.stuck, pair ∈ next.stuck)
    (hcallers : ∀ caller ∈ state.callers, caller ∈ next.callers)
    (hstored : ∀ message ∈ state.stored, message ∈ next.stored)
    (hwaiting : ∀ cursor, flush.phase.cursor? = some cursor → ∀ message ∈ state.db.waiting,
      ¬ Passed cursor message.id → message ∈ next.db.waiting) : Walking next flush where
  known := hcallers _ h.known
  pending_stored := fun message hmessage => hstored message (h.pending_stored message hmessage)
  pending_once := h.pending_once
  pending_new := by
    rw [hattempts]
    intro message hmessage attempt hattempt hid
    obtain ⟨hcaller, hretried⟩ := h.pending_new message hmessage attempt hattempt hid
    exact ⟨hcaller, fun haccepted => hstuck _ (hretried haccepted)⟩
  due_accepted := by
    rw [hattempts]
    exact h.due_accepted
  attempted_passed := by
    rw [hattempts]
    exact h.attempted_passed
  pending_passed := h.pending_passed
  present_passed := by
    unfold State.Attempted
    rw [hattempts]
    exact h.present_passed
  present_ahead := fun cursor hcursor message hmessage hahead =>
    hwaiting cursor hcursor message (h.present_ahead cursor hcursor message hmessage hahead) hahead
  present_swept := by
    unfold State.Attempted
    rw [hattempts]
    exact h.present_swept
  unloaded := h.unloaded
  pageSize := h.pageSize

/-- A flush goes on as before when nothing that it looks at is taken away. -/
theorem Walking.same (h : Walking state flush) (hattempts : next.attempts = state.attempts)
    (hstuck : next.stuck = state.stuck) (hcallers : next.callers = state.callers)
    (hstored : ∀ message ∈ state.stored, message ∈ next.stored)
    (hwaiting : ∀ message ∈ state.db.waiting, message ∈ next.db.waiting) : Walking next flush :=
  h.mono hattempts (fun _ hpair => hstuck ▸ hpair) (fun _ hcaller => hcallers ▸ hcaller) hstored
    fun _ _ message hmessage _ => hwaiting message hmessage

namespace Consistent

theorem make (h : Consistent state) (hnew : message.id ∉ state.names) :
    Consistent { state with
      made := message :: state.made
      names := message.id :: state.names } :=
  { h with
    made_named := fun other hother => by
      rcases List.mem_cons.mp hother with rfl | hother
      · exact List.mem_cons_self
      · exact List.mem_cons_of_mem _ (h.made_named other hother)
    stored_named := fun other hother => List.mem_cons_of_mem _ (h.stored_named other hother)
    distinct := by
      refine List.nodup_cons.mpr ⟨fun hmem => hnew ?_, h.distinct⟩
      obtain ⟨other, hother, hid⟩ := List.mem_map.mp hmem
      rw [← hid]
      exact (List.mem_append.mp hother).elim (h.made_named other) (h.stored_named other)
    sound := ⟨h.sound.kept, h.sound.once, h.sound.retried, h.sound.swept⟩
    walking := fun flush hrunning => (h.walking flush hrunning).same rfl rfl rfl
      (fun _ hmem => hmem) fun _ hmem => hmem }

theorem drop (h : Consistent state) {before after : List QueuedMessage}
    (hmade : state.made = before ++ message :: after) :
    Consistent { state with made := before ++ after } := by
  have hsub : (before ++ after).Sublist state.made := by
    rw [hmade]
    exact (List.sublist_cons_self message after).append_left before
  exact { h with
    made_named := fun other hother => h.made_named other (hsub.subset hother)
    distinct := h.distinct.sublist ((hsub.append_right state.stored).map QueuedMessage.id)
    sound := ⟨h.sound.kept, h.sound.once, h.sound.retried, h.sound.swept⟩
    walking := fun flush hrunning => (h.walking flush hrunning).same rfl rfl rfl
      (fun _ hmem => hmem) fun _ hmem => hmem }

theorem store (h : Consistent state) {before after : List QueuedMessage} {db : Database}
    (hmade : state.made = before ++ message :: after) (hfits : message.envelope.Fits)
    (hadded : state.db.addMessage message = .ok db) :
    Consistent { state with
      db
      made := before ++ after
      stored := message :: state.stored } := by
  have hwaiting : ∀ other, other ∈ db.waiting ↔ other = message ∨ other ∈ state.db.waiting :=
    fun _ => Database.mem_waiting_of_addMessage hfits hadded
  have hmem : message ∈ state.made := by simp [hmade]
  have hsub : ∀ other ∈ before ++ after, other ∈ state.made := by
    rw [hmade]
    exact fun other hother =>
      ((List.sublist_cons_self message after).append_left before).subset hother
  -- the message is none of those that were stored before it
  have hfresh : ∀ other ∈ state.stored, other.id ≠ message.id := by
    intro other hother hid
    have hdisjoint := (List.nodup_append.mp (List.map_append ▸ h.distinct)).2.2
    exact hdisjoint _ (List.mem_map_of_mem hmem) _ (List.mem_map_of_mem hother) hid.symm
  have hold : ∀ attempt ∈ state.attempts, attempt.message ∈ db.waiting →
      attempt.message ∈ state.db.waiting := by
    intro attempt hattempt hmessage
    rcases (hwaiting _).mp hmessage with heq | hmessage
    · exact absurd (congrArg QueuedMessage.id heq) (hfresh _ (h.attempted_stored attempt hattempt))
    · exact hmessage
  exact { h with
    made_named := fun other hother => h.made_named other (hsub other hother)
    stored_named := fun other hother => by
      rcases List.mem_cons.mp hother with rfl | hother
      · exact h.made_named other hmem
      · exact h.stored_named other hother
    distinct := by
      have hperm : (before ++ after ++ message :: state.stored).Perm (state.made ++ state.stored) := by
        rw [hmade]
        exact List.perm_middle.trans (List.perm_middle.append_right state.stored).symm
      exact (hperm.map QueuedMessage.id).nodup_iff.mpr h.distinct
    waiting_stored := fun other hother => by
      rcases (hwaiting other).mp hother with rfl | hother
      · exact List.mem_cons_self
      · exact List.mem_cons_of_mem _ (h.waiting_stored other hother)
    attempted_stored := fun attempt hattempt =>
      List.mem_cons_of_mem _ (h.attempted_stored attempt hattempt)
    sound :=
      { h.sound with
        kept := fun other hother => by
          rcases List.mem_cons.mp hother with rfl | hother
          · exact .inl ((hwaiting _).mpr (.inl rfl))
          · exact (h.sound.kept other hother).imp_left fun hmem => (hwaiting other).mpr (.inr hmem)
        swept := h.sound.swept }
    settled := fun attempt hattempt haccepted hmessage =>
      h.settled attempt hattempt haccepted (hold attempt hattempt hmessage)
    walking := fun flush hrunning => (h.walking flush hrunning).same rfl rfl rfl
      (fun _ hmem => List.mem_cons_of_mem _ hmem) fun other hmem => (hwaiting other).mpr (.inr hmem) }

end Consistent

/-! ## Steps that only the flush sees -/

/-- A flush goes on as before when it regards the same messages in another way. -/
theorem Walking.rephase (h : Walking state flush) {flush' : Flush}
    (hcaller : flush'.caller = flush.caller) (hpresent : flush'.present = flush.present)
    (hpending : flush'.phase.pending = flush.phase.pending)
    (hdue : ∀ id ∈ flush'.phase.due, id ∈ flush.phase.due)
    (hcursor : flush'.phase.cursor? = flush.phase.cursor?) (hstays : flush'.phase ≠ .leaving true) :
    Walking state flush' where
  known := hcaller ▸ h.known
  pending_stored := hpending ▸ h.pending_stored
  pending_once := hpending ▸ h.pending_once
  pending_new := by
    rw [hpending, hcaller]
    exact h.pending_new
  due_accepted := fun id hid => hcaller ▸ h.due_accepted id (hdue id hid)
  attempted_passed := by
    rw [hcursor, hcaller]
    exact h.attempted_passed
  pending_passed := by
    rw [hcursor, hpending]
    exact h.pending_passed
  present_passed := by
    rw [hcursor, hpresent, hpending, hcaller]
    exact h.present_passed
  present_ahead := by
    rw [hcursor, hpresent]
    exact h.present_ahead
  present_swept := fun hleaving => absurd hleaving hstays
  unloaded := by
    rw [hpresent, hcursor]
    exact h.unloaded
  pageSize := hcursor ▸ h.pageSize

/-- A flush at the end of its walk has nothing to attempt and nothing to remove. -/
theorem walking_leaving {complete : Bool} (hphase : flush.phase = .leaving complete)
    (hknown : flush.caller ∈ state.callers)
    (hswept : complete = true → ∃ present, flush.present = some present ∧
      ∀ message ∈ present, state.Attempted flush.caller message) :
    Walking state flush where
  known := hknown
  pending_stored := by simp [hphase, Phase.pending]
  pending_once := by simp [hphase, Phase.pending]
  pending_new := by simp [hphase, Phase.pending]
  due_accepted := by simp [hphase, Phase.due]
  attempted_passed := by simp [hphase, Phase.cursor?]
  pending_passed := by simp [hphase, Phase.cursor?]
  present_passed := by simp [hphase, Phase.cursor?]
  present_ahead := by simp [hphase, Phase.cursor?]
  present_swept := by
    intro hleaving
    rw [hphase] at hleaving
    exact hswept (Phase.leaving.inj hleaving)
  unloaded := by simp [hphase, Phase.cursor?]
  pageSize := by simp [hphase, Phase.cursor?]

namespace Consistent

theorem due_of_running (hrunning : state.running = some flush) :
    state.due = flush.phase.due.map (flush.caller, ·) := by
  rw [State.due, hrunning]

/-- The flush goes on, and the database may lose rows that are no messages. -/
theorem onward (h : Consistent state) (hrunning : state.running = some flush) {flush' : Flush}
    {db : Database} (hwaiting : db.waiting = state.db.waiting)
    (hcaller : flush'.caller = flush.caller)
    (hdue : ∀ id ∈ flush.phase.due, id ∈ flush'.phase.due) (hwalking : Walking state flush') :
    Consistent { state with db, running := some flush' } :=
  { h with
    waiting_stored := fun other hother => h.waiting_stored other (hwaiting ▸ hother)
    sound :=
      { h.sound with
        kept := fun other hother => (h.sound.kept other hother).imp_left fun hmem => hwaiting ▸ hmem
        swept := h.sound.swept }
    settled := fun attempt hattempt haccepted hmessage => by
      refine (h.settled attempt hattempt haccepted (hwaiting ▸ hmessage)).imp_right fun hmem => ?_
      rw [due_of_running hrunning] at hmem
      obtain ⟨id, hid, heq⟩ := List.mem_map.mp hmem
      rw [due_of_running rfl, ← heq, ← hcaller]
      exact List.mem_map_of_mem (hdue id hid)
    walking := fun found hfound => by
      obtain rfl := Option.some.inj hfound
      exact hwalking.same rfl rfl rfl (fun _ hmem => hmem) fun _ hmem => hwaiting ▸ hmem }

theorem acquire (h : Consistent state) (hfree : state.running = none)
    (hnew : caller ∉ state.callers) :
    Consistent { state with
      running := some ⟨caller, .loading (.start pageSize), {}, none⟩
      callers := caller :: state.callers } := by
  have hothers : ∀ attempt ∈ state.attempts, attempt.caller ≠ caller :=
    fun attempt hattempt heq => hnew (heq ▸ h.attempted_known attempt hattempt)
  have hwalking : Walking { state with
      running := some ⟨caller, .loading (.start pageSize), {}, none⟩
      callers := caller :: state.callers } ⟨caller, .loading (.start pageSize), {}, none⟩ := by
    constructor
    case known => exact List.mem_cons_self
    case attempted_passed =>
      exact fun cursor _ attempt hattempt heq => absurd heq (hothers attempt hattempt)
    case unloaded =>
      intro _ cursor hcursor
      obtain rfl := Option.some.inj hcursor
      rfl
    case pageSize =>
      intro cursor hcursor
      obtain rfl := Option.some.inj hcursor
      exact Nat.le_max_right pageSize 1
    all_goals simp [Phase.pending, Phase.due]
  exact { h with
    attempted_known := fun attempt hattempt =>
      List.mem_cons_of_mem _ (h.attempted_known attempt hattempt)
    sound := { h.sound with swept := h.sound.swept }
    settled := fun attempt hattempt haccepted hmessage =>
      .inl (h.settled_of_due_nil (by rw [State.due, hfree]) hattempt haccepted hmessage)
    walking := fun found hfound => by
      obtain rfl := Option.some.inj hfound
      exact hwalking }

theorem setAside (h : Consistent state) (hrunning : state.running = some flush) {db : Database}
    (hwaiting : db.waiting = state.db.waiting) : Consistent { state with db } := by
  have hsame := h.onward hrunning hwaiting rfl (fun _ hid => hid) (h.walking flush hrunning)
  rwa [← hrunning] at hsame

theorem loadFails (h : Consistent state) (hrunning : state.running = some flush)
    (hphase : flush.phase = .loading cursor) :
    Consistent (state.going { flush with phase := .leaving false }) := by
  refine h.onward hrunning rfl rfl ?_ (walking_leaving rfl (h.walking flush hrunning).known nofun)
  simp [hphase, Phase.due]

theorem join (h : Consistent state) (hrunning : state.running = some flush)
    {before after : List Worker} {accepted : List (MessageId × Route)} {joined : List MessageId}
    (hphase : flush.phase = .delivering cursor (before ++ ⟨[], accepted⟩ :: after) joined)
    {report : FlushReport} :
    Consistent (state.going { flush with
      phase := .delivering cursor (before ++ after) (joined ++ accepted.map Prod.fst)
      report }) := by
  have hpending : (before ++ after).flatMap Worker.todo = flush.phase.pending := by
    simp [hphase, Phase.pending]
  have hdue : ∀ id, id ∈ flush.phase.due ↔
      id ∈ (Phase.delivering cursor (before ++ after) (joined ++ accepted.map Prod.fst)).due := by
    intro id
    simp only [hphase, Phase.due, List.flatMap_append, List.flatMap_cons, List.mem_append]
    tauto
  refine h.onward hrunning rfl rfl (fun id => (hdue id).mp) ?_
  exact (h.walking flush hrunning).rephase rfl rfl hpending (fun id => (hdue id).mpr)
    (by rw [hphase]; rfl) nofun

theorem settle (h : Consistent state) (hrunning : state.running = some flush)
    {joined : List MessageId} (hphase : flush.phase = .delivering cursor [] joined) :
    Consistent (state.going { flush with phase := .deleting cursor joined }) := by
  have hdue : flush.phase.due = joined := by simp [hphase, Phase.due]
  refine h.onward hrunning rfl rfl (fun id hid => hdue ▸ hid) ?_
  exact (h.walking flush hrunning).rephase rfl rfl (by rw [hphase]; rfl) (fun id hid => hdue ▸ hid)
    (by rw [hphase]; rfl) nofun

theorem turn (h : Consistent state) (hrunning : state.running = some flush)
    (hphase : flush.phase = .deleting cursor []) :
    Consistent (state.going { flush with phase := .loading cursor }) := by
  refine h.onward hrunning rfl rfl (by simp [hphase, Phase.due]) ?_
  exact (h.walking flush hrunning).rephase rfl rfl (by rw [hphase]; rfl) nofun
    (by rw [hphase]; rfl) nofun

end Consistent

/-! ## Loading a page -/

theorem Passed.mono (h : Passed cursor id)
    (hlast : boundOf cursor.after < last.bytes) : Passed { cursor with after := some last } id := by
  obtain ⟨old, hold, hle⟩ := h
  rw [hold] at hlast
  exact ⟨last, rfl, List.le_trans hle (List.le_of_lt hlast)⟩

theorem mem_ahead_iff_not_passed {db : Database} :
    message ∈ ahead db cursor ↔ message ∈ db.waiting ∧ ¬ Passed cursor message.id := by
  rw [mem_ahead_iff, not_passed_iff]

namespace Taken

variable {db : Database}

theorem not_passed (h : Taken db cursor page last) (hmessage : message ∈ page) :
    ¬ Passed cursor message.id :=
  (mem_ahead_iff_not_passed.mp ((h.mem_iff message).mp hmessage).1).2

theorem passed (h : Taken db cursor page last) (hmessage : message ∈ page) :
    Passed { cursor with after := some last } message.id :=
  ⟨last, rfl, ((h.mem_iff message).mp hmessage).2⟩

/-- Everything that waits between the old place of the cursor and the new one is on the page. -/
theorem mem_of_passed (h : Taken db cursor page last) (hwaiting : message ∈ db.waiting)
    (hbefore : ¬ Passed cursor message.id)
    (hpassed : Passed { cursor with after := some last } message.id) : message ∈ page := by
  obtain ⟨_, hlast, hle⟩ := hpassed
  obtain rfl := Option.some.inj hlast
  exact (h.mem_iff message).mpr ⟨mem_ahead_iff_not_passed.mpr ⟨hwaiting, hbefore⟩, hle⟩

end Taken

/-- What the flush regards as present once a page is loaded. -/
theorem Walking.present_of_loading (h : Walking state flush) (hphase : flush.phase = .loading cursor) :
    ∀ message ∈ flush.present.getD state.db.waiting,
      (Passed cursor message.id → state.Attempted flush.caller message) ∧
      (¬ Passed cursor message.id → message ∈ state.db.waiting) := by
  have hcursor : flush.phase.cursor? = some cursor := by rw [hphase]; rfl
  intro message hmessage
  cases hpresent : flush.present with
  | none =>
      rw [hpresent] at hmessage
      refine ⟨fun hpassed => ?_, fun _ => hmessage⟩
      obtain ⟨last, hlast, -⟩ := hpassed
      rw [h.unloaded hpresent cursor hcursor] at hlast
      cases hlast
  | some present =>
      have hmem : message ∈ flush.present.getD [] := by
        rw [hpresent] at hmessage ⊢
        exact hmessage
      refine ⟨fun hpassed => ?_, h.present_ahead cursor hcursor message hmem⟩
      rcases h.present_passed cursor hcursor message hmem hpassed with hpending | hattempted
      · rw [hphase] at hpending
        cases hpending
      · exact hattempted

theorem pending_workersFor (page : List QueuedMessage) :
    ((workersFor page).flatMap Worker.todo).Perm page := by
  have hitems : (workersFor page).flatMap Worker.todo =
      (partitionByPeer QueuedMessage.peer page).flatMap PeerGroup.items := by
    rw [workersFor, List.flatMap_map]
  rw [hitems]
  exact (sameByPeer_partition QueuedMessage.peer page).perm

theorem due_workersFor (page : List QueuedMessage) (cursor : PageCursor) :
    (Phase.delivering cursor (workersFor page) []).due = [] := by
  simp [Phase.due, workersFor, List.flatMap_map]

namespace Consistent

/-- A page that is loaded goes to workers: every message on it is new to this flush, and stuck if
it was accepted before. -/
theorem walking_page (h : Consistent state) (hrunning : state.running = some flush)
    (hphase : flush.phase = .loading cursor) (htaken : Taken state.db cursor page last)
    {report : FlushReport} :
    Walking state
      { flush with
        phase := .delivering { cursor with after := some last } (workersFor page) []
        report
        present := some (flush.present.getD state.db.waiting) } := by
  have hwalking := h.walking flush hrunning
  have hcursor : flush.phase.cursor? = some cursor := by rw [hphase]; rfl
  have hpresent := hwalking.present_of_loading hphase
  have hperm := pending_workersFor page
  have hpage : ∀ message ∈ (workersFor page).flatMap Worker.todo, message ∈ page :=
    fun message => hperm.mem_iff.mp
  constructor
  case known => exact hwalking.known
  case pending_stored =>
    intro message hmessage
    exact h.waiting_stored message (htaken.mem_waiting (hpage message hmessage))
  case pending_once =>
    exact (hperm.map QueuedMessage.id).nodup_iff.mpr (Database.nodup_ids_of_sorted htaken.sorted)
  case pending_new =>
    intro message hmessage attempt hattempt hid
    have hwaiting := htaken.mem_waiting (hpage message hmessage)
    refine ⟨fun hcaller => htaken.not_passed (hpage message hmessage) ?_, fun haccepted => ?_⟩
    · rw [← hid]
      exact hwalking.attempted_passed cursor hcursor attempt hattempt hcaller
    · have hdue : state.due = [] := by
        rw [due_of_running hrunning, hphase]
        rfl
      have hsame : attempt.message = message :=
        h.eq_of_id_eq (h.attempted_stored attempt hattempt) (h.waiting_stored message hwaiting) hid
      exact h.settled_of_due_nil hdue hattempt haccepted (hsame ▸ hwaiting)
  case due_accepted =>
    intro id hid
    rw [due_workersFor] at hid
    cases hid
  case attempted_passed =>
    rintro _ ⟨⟩ attempt hattempt hcaller
    exact (hwalking.attempted_passed cursor hcursor attempt hattempt hcaller).mono htaken.lt_last
  case pending_passed =>
    rintro _ ⟨⟩ message hmessage
    exact htaken.passed (hpage message hmessage)
  case present_passed =>
    rintro _ ⟨⟩ message hmessage hpassed
    obtain ⟨hattempted, hwaiting⟩ := hpresent message hmessage
    by_cases hbefore : Passed cursor message.id
    · exact .inr (hattempted hbefore)
    · exact .inl (hperm.mem_iff.mpr (htaken.mem_of_passed (hwaiting hbefore) hbefore hpassed))
  case present_ahead =>
    rintro _ ⟨⟩ message hmessage hnot
    exact (hpresent message hmessage).2 fun hbefore => hnot (hbefore.mono htaken.lt_last)
  case present_swept => exact nofun
  case unloaded => exact nofun
  case pageSize =>
    rintro _ ⟨⟩
    exact hwalking.pageSize cursor hcursor

/-- When nothing lies ahead, the flush has attempted all that was present. -/
theorem attempted_of_ahead_eq_nil (h : Consistent state) (hrunning : state.running = some flush)
    (hphase : flush.phase = .loading cursor) (hnone : ahead state.db cursor = []) :
    ∀ message ∈ flush.present.getD state.db.waiting, state.Attempted flush.caller message := by
  intro message hmessage
  obtain ⟨hattempted, hwaiting⟩ :=
    (h.walking flush hrunning).present_of_loading hphase message hmessage
  by_cases hpassed : Passed cursor message.id
  · exact hattempted hpassed
  · have hmem := mem_ahead_iff_not_passed.mpr ⟨hwaiting hpassed, hpassed⟩
    rw [hnone] at hmem
    cases hmem

theorem load (h : Consistent state) (hrunning : state.running = some flush)
    (hphase : flush.phase = .loading cursor) :
    Consistent { state with
      db := (state.db.listMessages cursor.after cursor.pageSize).2
      running := some (flush.loaded cursor state.db.waiting
        (state.db.listMessages cursor.after cursor.pageSize).1) } := by
  have hwalking := h.walking flush hrunning
  have hsize : 1 ≤ cursor.pageSize := hwalking.pageSize cursor (by rw [hphase]; rfl)
  have hsame := (state.db.listMessages_found cursor.after hsize).1
  have hnone : ∀ flush' : Flush, ∀ id ∈ flush.phase.due, id ∈ flush'.phase.due := by
    simp [hphase, Phase.due]
  cases hresult : (state.db.listMessages cursor.after cursor.pageSize).1 with
  | error fault =>
      exact h.onward hrunning hsame rfl (hnone _) (walking_leaving rfl hwalking.known nofun)
  | ok page =>
      rcases taken_of_listed hsize hresult with ⟨rfl, hahead⟩ | ⟨last, htaken⟩
      · rw [Flush.loaded_nil]
        refine h.onward hrunning hsame rfl (hnone _) (walking_leaving rfl hwalking.known fun _ => ?_)
        exact ⟨_, rfl, h.attempted_of_ahead_eq_nil hrunning hphase hahead⟩
      · rw [htaken.loaded]
        exact h.onward hrunning hsame rfl (hnone _) (h.walking_page hrunning hphase htaken)

end Consistent

/-! ## Attempts -/

theorem State.Attempted.concat {attempt : Attempt} (h : state.Attempted caller message)
    (hattempts : next.attempts = state.attempts ++ [attempt]) : next.Attempted caller message := by
  obtain ⟨earlier, hearlier, hmade⟩ := h
  exact ⟨earlier, hattempts ▸ List.mem_append_left _ hearlier, hmade⟩

section

variable {before after : List Worker} {todo : List QueuedMessage}
  {accepted : List (MessageId × Route)} {joined : List MessageId}

theorem pending_attempt (more : List (MessageId × Route)) :
    (Phase.delivering cursor (before ++ ⟨message :: todo, accepted⟩ :: after) joined).pending.Perm
      (message :: (Phase.delivering cursor (before ++ ⟨todo, accepted ++ more⟩ :: after)
        joined).pending) := by
  simp only [Phase.pending, List.flatMap_append, List.flatMap_cons, List.cons_append]
  exact List.perm_middle

theorem mem_due_attempt (message : QueuedMessage) {more : List (MessageId × Route)} :
    id ∈ (Phase.delivering cursor (before ++ ⟨todo, accepted ++ more⟩ :: after) joined).due ↔
      id ∈ (Phase.delivering cursor (before ++ ⟨message :: todo, accepted⟩ :: after) joined).due ∨
        id ∈ more.map Prod.fst := by
  simp only [Phase.due, List.flatMap_append, List.flatMap_cons, List.mem_append, List.map_append]
  tauto

/-- What is accepted in an attempt, as the worker keeps it. -/
theorem mem_accepted_iff {outcome : Except DeliveryError Route} :
    id ∈ (outcome.toOption.map (message.id, ·)).toList.map Prod.fst ↔
      id = message.id ∧ ∃ route, outcome = .ok route := by
  cases outcome <;> simp [Except.toOption]

theorem Walking.attempt (h : Walking state flush) (outcome : Except DeliveryError Route)
    (hphase : flush.phase =
      .delivering cursor (before ++ ⟨message :: todo, accepted⟩ :: after) joined) :
    Walking { state with attempts := state.attempts ++ [⟨flush.caller, message, outcome⟩] }
      { flush with
        phase := .delivering cursor
          (before ++ ⟨todo, accepted ++ (outcome.toOption.map (message.id, ·)).toList⟩ :: after)
          joined } := by
  have hcursor : flush.phase.cursor? = some cursor := by rw [hphase]; rfl
  have hperm := hphase ▸ pending_attempt (outcome.toOption.map (message.id, ·)).toList
  have hpassed := h.pending_passed cursor hcursor
  obtain ⟨hfirst, honce⟩ := List.nodup_cons.mp ((hperm.map QueuedMessage.id).nodup_iff.mp h.pending_once)
  have hmessage : message ∈ flush.phase.pending := hperm.mem_iff.mpr List.mem_cons_self
  have hrest : ∀ other ∈ (Phase.delivering cursor (before ++ ⟨todo, accepted ++
      (outcome.toOption.map (message.id, ·)).toList⟩ :: after) joined).pending,
        other ∈ flush.phase.pending :=
    fun other hother => hperm.mem_iff.mpr (List.mem_cons_of_mem message hother)
  constructor
  case known => exact h.known
  case pending_stored => exact fun other hother => h.pending_stored other (hrest other hother)
  case pending_once => exact honce
  case pending_new =>
    intro other hother attempt hattempt hid
    rcases List.mem_append.mp hattempt with hattempt | hattempt
    · exact h.pending_new other (hrest other hother) attempt hattempt hid
    · obtain rfl := List.mem_singleton.mp hattempt
      exact absurd (List.mem_map.mpr ⟨other, hother, hid.symm⟩) hfirst
  case due_accepted =>
    intro id hid
    rcases (mem_due_attempt message).mp hid with hid | hid
    · obtain ⟨attempt, hattempt, hmade⟩ := h.due_accepted id (hphase ▸ hid)
      exact ⟨attempt, List.mem_append_left _ hattempt, hmade⟩
    · obtain ⟨rfl, haccepted⟩ := mem_accepted_iff.mp hid
      exact ⟨_, List.mem_append_right _ (List.mem_singleton_self _), rfl, rfl, haccepted⟩
  case attempted_passed =>
    intro cursor' hcursor' attempt hattempt hcaller
    obtain rfl := Option.some.inj hcursor'
    rcases List.mem_append.mp hattempt with hattempt | hattempt
    · exact h.attempted_passed cursor hcursor attempt hattempt hcaller
    · obtain rfl := List.mem_singleton.mp hattempt
      exact hpassed message hmessage
  case pending_passed =>
    intro cursor' hcursor' other hother
    obtain rfl := Option.some.inj hcursor'
    exact hpassed other (hrest other hother)
  case present_passed =>
    intro cursor' hcursor' other hother hpass
    obtain rfl := Option.some.inj hcursor'
    rcases h.present_passed cursor hcursor other hother hpass with hpending | hattempted
    · rcases List.mem_cons.mp (hperm.mem_iff.mp hpending) with rfl | hpending
      · exact .inr ⟨_, List.mem_append_right _ (List.mem_singleton_self _), rfl, rfl⟩
      · exact .inl hpending
    · exact .inr (hattempted.concat rfl)
  case present_ahead =>
    intro cursor' hcursor'
    obtain rfl := Option.some.inj hcursor'
    exact h.present_ahead cursor hcursor
  case present_swept => exact nofun
  case unloaded =>
    intro hpresent cursor' hcursor'
    obtain rfl := Option.some.inj hcursor'
    exact h.unloaded hpresent cursor hcursor
  case pageSize =>
    intro cursor' hcursor'
    obtain rfl := Option.some.inj hcursor'
    exact h.pageSize cursor hcursor

theorem Consistent.attempt (h : Consistent state) (hrunning : state.running = some flush)
    (outcome : Except DeliveryError Route)
    (hphase : flush.phase =
      .delivering cursor (before ++ ⟨message :: todo, accepted⟩ :: after) joined) :
    Consistent { state with
      attempts := state.attempts ++ [⟨flush.caller, message, outcome⟩]
      running := some { flush with
        phase := .delivering cursor
          (before ++ ⟨todo, accepted ++ (outcome.toOption.map (message.id, ·)).toList⟩ :: after)
          joined } } := by
  have hwalking := h.walking flush hrunning
  have hmessage : message ∈ flush.phase.pending := by
    rw [hphase]
    exact (pending_attempt []).mem_iff.mpr List.mem_cons_self
  have hnew := hwalking.pending_new message hmessage
  exact { h with
    attempted_stored := fun attempt hattempt => by
      rcases List.mem_append.mp hattempt with hattempt | hattempt
      · exact h.attempted_stored attempt hattempt
      · obtain rfl := List.mem_singleton.mp hattempt
        exact hwalking.pending_stored message hmessage
    attempted_known := fun attempt hattempt => by
      rcases List.mem_append.mp hattempt with hattempt | hattempt
      · exact h.attempted_known attempt hattempt
      · obtain rfl := List.mem_singleton.mp hattempt
        exact hwalking.known
    sound :=
      { kept := fun other hother => by
          refine (h.sound.kept other hother).imp_right ?_
          rintro ⟨attempt, hattempt, hmade⟩
          exact ⟨attempt, List.mem_append_left _ hattempt, hmade⟩
        once := by
          refine List.pairwise_append.mpr ⟨h.sound.once, List.pairwise_singleton _ _, ?_⟩
          intro earlier hearlier later hlater hid
          obtain rfl := List.mem_singleton.mp hlater
          exact (hnew earlier hearlier hid).1
        retried := by
          refine List.pairwise_append.mpr ⟨h.sound.retried, List.pairwise_singleton _ _, ?_⟩
          intro earlier hearlier later hlater hid
          obtain rfl := List.mem_singleton.mp hlater
          exact (hnew earlier hearlier hid).2
        swept := fun ended hended hcomplete => by
          obtain ⟨present, hpresent, hattempted⟩ := h.sound.swept ended hended hcomplete
          exact ⟨present, hpresent, fun other hother => (hattempted other hother).concat rfl⟩ }
    settled := fun attempt hattempt haccepted hwaiting => by
      rw [due_of_running rfl]
      rcases List.mem_append.mp hattempt with hattempt | hattempt
      · refine (h.settled attempt hattempt haccepted hwaiting).imp_right fun hmem => ?_
        rw [due_of_running hrunning] at hmem
        obtain ⟨id, hid, heq⟩ := List.mem_map.mp hmem
        rw [← heq]
        exact List.mem_map_of_mem ((mem_due_attempt message).mpr (.inl (hphase ▸ hid)))
      · obtain rfl := List.mem_singleton.mp hattempt
        exact .inr (List.mem_map_of_mem
          ((mem_due_attempt message).mpr (.inr (mem_accepted_iff.mpr ⟨rfl, haccepted⟩))))
    walking := fun found hfound => by
      obtain rfl := Option.some.inj hfound
      exact (hwalking.attempt outcome hphase).same rfl rfl rfl (fun _ hmem => hmem) fun _ hmem => hmem }

end

/-! ## Removing what was accepted -/

/-- What is to be removed lies before the cursor. -/
theorem Walking.due_passed (h : Walking state flush)
    (hcursor : flush.phase.cursor? = some cursor) (hid : id ∈ flush.phase.due) : Passed cursor id := by
  obtain ⟨attempt, hattempt, hcaller, rfl, -⟩ := h.due_accepted id hid
  exact h.attempted_passed cursor hcursor attempt hattempt hcaller

namespace Consistent

theorem delete (h : Consistent state) (hrunning : state.running = some flush) {rest : List MessageId}
    {existed : Bool} {db : Database} (hphase : flush.phase = .deleting cursor (id :: rest))
    (hdeleted : state.db.deleteMessage id = .ok (existed, db)) {report : FlushReport} :
    Consistent { state with
      db
      running := some { flush with phase := .deleting cursor rest, report } } := by
  have hwalking := h.walking flush hrunning
  have hcursor : flush.phase.cursor? = some cursor := by rw [hphase]; rfl
  have hdue : id ∈ flush.phase.due := by simp [hphase, Phase.due]
  have hwaiting : ∀ other, other ∈ db.waiting ↔ other ∈ state.db.waiting ∧ other.id ≠ id :=
    fun _ => Database.mem_waiting_of_deleteMessage hdeleted
  have hgoes : Walking state { flush with phase := .deleting cursor rest, report } :=
    hwalking.rephase rfl rfl (by rw [hphase]; rfl)
      (fun other hother => by rw [hphase]; exact List.mem_cons_of_mem id hother)
      (by rw [hphase]; rfl) nofun
  exact { h with
    waiting_stored := fun other hother => h.waiting_stored other ((hwaiting other).mp hother).1
    sound :=
      { h.sound with
        kept := fun other hother => by
          rcases h.sound.kept other hother with hmem | haccepted
          · by_cases hid : other.id = id
            · obtain ⟨attempt, hattempt, -, hmade, haccepted⟩ := hwalking.due_accepted id hdue
              have hsame : attempt.message = other := h.eq_of_id_eq
                (h.attempted_stored attempt hattempt) hother (hmade.trans hid.symm)
              exact .inr ⟨attempt, hattempt, hsame, haccepted⟩
            · exact .inl ((hwaiting other).mpr ⟨hmem, hid⟩)
          · exact .inr haccepted
        swept := h.sound.swept }
    settled := fun attempt hattempt haccepted hmessage => by
      obtain ⟨hmessage, hother⟩ := (hwaiting _).mp hmessage
      refine (h.settled attempt hattempt haccepted hmessage).imp_right fun hmem => ?_
      rw [due_of_running hrunning, hphase] at hmem
      obtain ⟨due, hmem, heq⟩ := List.mem_map.mp hmem
      have hname : due = attempt.id := congrArg Prod.snd heq
      rw [due_of_running rfl, ← heq]
      rcases List.mem_cons.mp hmem with rfl | hmem
      · exact absurd hname.symm hother
      · exact List.mem_map_of_mem hmem
    walking := fun found hfound => by
      obtain rfl := Option.some.inj hfound
      refine hgoes.mono rfl (fun _ hpair => hpair) (fun _ hknown => hknown) (fun _ hmem => hmem) ?_
      intro cursor' hcursor' other hother hahead
      obtain rfl := Option.some.inj hcursor'
      refine (hwaiting other).mpr ⟨hother, fun heq => hahead ?_⟩
      exact heq ▸ hwalking.due_passed hcursor hdue }

theorem deleteFails (h : Consistent state) (hrunning : state.running = some flush)
    {rest : List MessageId} (hphase : flush.phase = .deleting cursor (id :: rest)) :
    Consistent { state with
      running := some { flush with phase := .deleting cursor rest }
      stuck := (flush.caller, id) :: state.stuck } := by
  have hgoes : Walking state { flush with phase := .deleting cursor rest } :=
    (h.walking flush hrunning).rephase rfl rfl (by rw [hphase]; rfl)
      (fun other hother => by rw [hphase]; exact List.mem_cons_of_mem id hother)
      (by rw [hphase]; rfl) nofun
  exact { h with
    sound :=
      { h.sound with
        retried := h.sound.retried.imp fun hretried hid haccepted =>
          List.mem_cons_of_mem _ (hretried hid haccepted)
        swept := h.sound.swept }
    settled := fun attempt hattempt haccepted hmessage => by
      rcases h.settled attempt hattempt haccepted hmessage with hstuck | hmem
      · exact .inl (List.mem_cons_of_mem _ hstuck)
      · rw [due_of_running hrunning, hphase] at hmem
        obtain ⟨due, hmem, heq⟩ := List.mem_map.mp hmem
        rw [due_of_running rfl, ← heq]
        rcases List.mem_cons.mp hmem with rfl | hmem
        · exact .inl List.mem_cons_self
        · exact .inr (List.mem_map_of_mem hmem)
    walking := fun found hfound => by
      obtain rfl := Option.some.inj hfound
      exact hgoes.mono rfl (fun _ hpair => List.mem_cons_of_mem _ hpair) (fun _ hknown => hknown)
        (fun _ hmem => hmem) fun _ _ _ hmem _ => hmem }

theorem release (h : Consistent state) (hrunning : state.running = some flush) {complete : Bool}
    (hphase : flush.phase = .leaving complete) {report : FlushReport} :
    Consistent { state with
      running := none
      finished := state.finished ++ [⟨flush.caller, report, flush.present, complete⟩] } := by
  have hdue : state.due = [] := by
    rw [due_of_running hrunning, hphase]
    rfl
  exact { h with
    sound :=
      { h.sound with
        swept := fun ended hended hcomplete => by
          rcases List.mem_append.mp hended with hended | hended
          · exact h.sound.swept ended hended hcomplete
          · obtain rfl := List.mem_singleton.mp hended
            have hleaving : flush.phase = .leaving true := hphase.trans (congrArg _ hcomplete)
            exact (h.walking flush hrunning).present_swept hleaving }
    settled := fun attempt hattempt haccepted hwaiting =>
      .inl (h.settled_of_due_nil hdue hattempt haccepted hwaiting)
    walking := nofun }

end Consistent

/-! ## All steps -/

/-- Every step keeps what is consistent. -/
theorem Consistent.step (h : Consistent state) (hstep : Step pageSize state next) :
    Consistent next := by
  cases hstep with
  | make new => exact h.make new
  | store made fits added => exact h.store made fits added
  | storeFails made => exact h.drop made
  | acquire free new => exact h.acquire free new
  | load running phase => exact h.load running phase
  | setAside running phase table held corrupt aside =>
      exact h.setAside running (Database.waiting_of_setAside table held corrupt aside)
  | loadFails running phase => exact h.loadFails running phase
  | attempt outcome running phase => exact h.attempt running outcome phase
  | join running phase => exact h.join running phase
  | settle running phase => exact h.settle running phase
  | delete running phase deleted => exact h.delete running phase deleted
  | deleteFails running phase => exact h.deleteFails running phase
  | turn running phase => exact h.turn running phase
  | release running phase count => exact h.release running phase

theorem Reachable.consistent {db : Database} (h : Reachable pageSize (.start db) state) :
    Consistent state := by
  induction h with
  | start => exact consistent_start db
  | step before step ih => exact ih.step step

/-- **Additions and flushes in any order.**  Whatever the steps are and whichever of them fail, at
every moment no message that was stored is lost, no flush attempts a message twice, a message that
was accepted is attempted again only if it could not be removed, and a flush whose pages all loaded
has attempted everything that was there when it began. -/
theorem interleaving_sound {db : Database} (h : Reachable pageSize (.start db) state) : Sound state :=
  h.consistent.sound

/-! ### A message that is delivered twice -/

/-- A message for somebody. -/
def parcel : QueuedMessage :=
  ⟨⟨List.replicate 16 7, rfl⟩, ⟨List.replicate 32 1, rfl⟩, unknownKind, 0⟩

theorem fits_parcel : parcel.envelope.Fits := by
  refine ⟨by decide, fun payload hpayload => ?_, by decide⟩
  cases hpayload

/-- The message is stored, a flush hands it to a relay and fails to remove it, and so the next
flush attempts it once more. -/
theorem parcel_twice :
    ∃ state, Reachable 1 (.start .empty) state ∧ Sound state ∧
      (state.attempts.map fun attempt => (attempt.caller, attempt.message)) =
        [(0, parcel), (1, parcel)] ∧
      state.stuck = [(0, parcel.id)] ∧ state.db.waiting = [parcel] := by
  have hmade := Reachable.start.step (@Step.make 1 (.start .empty) parcel nofun)
  have hstored := hmade.step (@Step.store 1 _ [] [] parcel _ rfl fits_parcel rfl)
  have hlocked := hstored.step (@Step.acquire 1 _ 0 rfl nofun)
  have hloaded := hlocked.step (.load rfl rfl)
  have hrelayed := hloaded.step (@Step.attempt 1 _ _ _ [] [] parcel [] [] [] (.ok .relayed) rfl rfl)
  have hjoined := hrelayed.step (@Step.join 1 _ _ _ [] [] _ [] rfl rfl)
  have hsettled := hjoined.step (.settle rfl rfl)
  have hstuck := hsettled.step (.deleteFails rfl rfl)
  have hturned := hstuck.step (.turn rfl rfl)
  have hended := hturned.step (.load rfl rfl)
  have hreleased := hended.step (@Step.release 1 _ _ true none rfl rfl nofun)
  have hlocked := hreleased.step (@Step.acquire 1 _ 1 rfl (by decide))
  have hloaded := hlocked.step (.load rfl rfl)
  have hagain := hloaded.step (@Step.attempt 1 _ _ _ [] [] parcel [] [] [] (.ok .direct) rfl rfl)
  exact ⟨_, hagain, interleaving_sound hagain, rfl, rfl, rfl⟩

end PeerMail.Outbox
