import PeerMail.Delivery.Flush

/-!
# A flush that keeps a record of its attempts

An attempt that fails leaves no trace in the queue or in a log, so "attempted once"
cannot be read off what a flush leaves behind.  `recording` adds a record to any
services: every attempt to deliver is written down, whatever comes of it.

As long as no worker breaks off (`Unbroken`), the record changes nothing else
(`flush_recording`), and the attempts on a page are the messages of the page in the
order of their groups (`flushPage_recording`).
-/

namespace PeerMail

/-- The attempt to deliver a message. -/
def QueuedMessage.attempt (message : QueuedMessage) : Sent := ⟨message.peer, message.envelope⟩

namespace FlushServices

variable {World : Type}

/-- The messages of a page, those for one destination together. -/
def inGroups (page : List QueuedMessage) : List QueuedMessage :=
  (partitionByPeer QueuedMessage.peer page).flatMap PeerGroup.items

/-- No worker breaks off. -/
def Unbroken (services : FlushServices World) : Prop :=
  ∀ world peer envelope, (services.deliver world peer envelope).1 ≠ none

/-- The services with a record of all attempts to deliver, oldest first. -/
def recording (services : FlushServices World) : FlushServices (World × List Sent) where
  list state after limit :=
    let (page, world) := services.list state.1 after limit
    (page, world, state.2)
  deliver state peer envelope :=
    let (outcome, world) := services.deliver state.1 peer envelope
    (outcome, world, state.2 ++ [⟨peer, envelope⟩])
  delete state id :=
    let (existed, world) := services.delete state.1 id
    (existed, world, state.2)
  count state :=
    let (pending, world) := services.count state.1
    (pending, world, state.2)

variable {services : FlushServices World}

theorem Unbroken.deliver (h : services.Unbroken) (world : World) (peer : PeerId)
    (envelope : Envelope) :
    ∃ outcome next, services.deliver world peer envelope = (some outcome, next) := by
  have hanswered := h world peer envelope
  rcases hdeliver : services.deliver world peer envelope with ⟨_ | outcome, next⟩
  · rw [hdeliver] at hanswered
    exact (hanswered rfl).elim
  · exact ⟨outcome, next, rfl⟩

/-- A worker that does not break off hands in what was accepted. -/
theorem Unbroken.deliverGroup (h : services.Unbroken) (messages : List QueuedMessage)
    (world : World) :
    ∃ accepted final, services.deliverGroup messages world = (some accepted, final) := by
  induction messages generalizing world with
  | nil => exact ⟨[], world, rfl⟩
  | cons message rest ih =>
      obtain ⟨outcome, next, hdeliver⟩ := h.deliver world message.peer message.envelope
      obtain ⟨accepted, final, hrest⟩ := ih next
      simp only [FlushServices.deliverGroup, hdeliver, hrest]
      exact ⟨_, final, rfl⟩

section Equations

variable (world : World) (record : List Sent)

@[simp] theorem recording_list (after : Option MessageId) (limit : Nat) :
    services.recording.list (world, record) after limit =
      ((services.list world after limit).1, (services.list world after limit).2, record) := rfl

@[simp] theorem recording_deliver (peer : PeerId) (envelope : Envelope) :
    services.recording.deliver (world, record) peer envelope =
      ((services.deliver world peer envelope).1, (services.deliver world peer envelope).2,
        record ++ [⟨peer, envelope⟩]) := rfl

@[simp] theorem recording_delete (id : MessageId) :
    services.recording.delete (world, record) id =
      ((services.delete world id).1, (services.delete world id).2, record) := rfl

@[simp] theorem recording_count :
    services.recording.count (world, record) =
      ((services.count world).1, (services.count world).2, record) := rfl

end Equations

theorem deliverGroup_recording (h : services.Unbroken) (messages : List QueuedMessage)
    (world : World) (record : List Sent) :
    services.recording.deliverGroup messages (world, record) =
      ((services.deliverGroup messages world).1, (services.deliverGroup messages world).2,
        record ++ messages.map QueuedMessage.attempt) := by
  induction messages generalizing world record with
  | nil => simp [deliverGroup]
  | cons message rest ih =>
      obtain ⟨outcome, next, hdeliver⟩ := h.deliver world message.peer message.envelope
      simp [deliverGroup, recording_deliver, hdeliver, ih, QueuedMessage.attempt]

theorem deliverAll_recording (h : services.Unbroken) (groups : List (PeerGroup QueuedMessage))
    (report : FlushReport) (world : World) (record : List Sent) :
    services.recording.deliverAll groups report (world, record) =
      ((services.deliverAll groups report world).1,
        (services.deliverAll groups report world).2.1,
        (services.deliverAll groups report world).2.2,
        record ++ (groups.flatMap PeerGroup.items).map QueuedMessage.attempt) := by
  induction groups generalizing report world record with
  | nil => simp [deliverAll]
  | cons group rest ih =>
      obtain ⟨accepted, final, hgroup⟩ := h.deliverGroup group.items world
      simp [deliverAll, deliverGroup_recording h, hgroup, ih]

theorem deleteAll_recording (ids : List MessageId) (report : FlushReport) (world : World)
    (record : List Sent) :
    services.recording.deleteAll ids report (world, record) =
      ((services.deleteAll ids report world).1, (services.deleteAll ids report world).2,
        record) := by
  induction ids generalizing report world with
  | nil => rfl
  | cons id rest ih =>
      simp only [deleteAll, recording_delete]
      rcases services.delete world id with ⟨fault | existed, world⟩
      · simp [ih]
      · simp [ih]

theorem flushPage_recording (h : services.Unbroken) (page : List QueuedMessage)
    (report : FlushReport) (world : World) (record : List Sent) :
    services.recording.flushPage page report (world, record) =
      ((services.flushPage page report world).1, (services.flushPage page report world).2,
        record ++ (inGroups page).map QueuedMessage.attempt) := by
  simp only [flushPage, deliverAll_recording h, deleteAll_recording, inGroups]

theorem walk_recording (h : services.Unbroken) (maxPages : Nat) (cursor : PageCursor)
    (report : FlushReport) (world : World) (record : List Sent) :
    ∃ attempts, services.recording.walk maxPages cursor report (world, record) =
      ((services.walk maxPages cursor report world).1,
        (services.walk maxPages cursor report world).2, record ++ attempts) := by
  induction maxPages generalizing cursor report world record with
  | zero => exact ⟨[], by simp [walk]⟩
  | succ maxPages ih =>
      simp only [walk, recording_list]
      rcases services.list world cursor.after cursor.pageSize with ⟨fault | page, world⟩
      · exact ⟨[], by simp⟩
      · dsimp only
        cases cursor.advance? (page.map QueuedMessage.id) with
        | none => exact ⟨[], by simp⟩
        | some cursor =>
            dsimp only
            rw [flushPage_recording h]
            obtain ⟨attempts, hrest⟩ := ih cursor (services.flushPage page report world).1
              (services.flushPage page report world).2
              (record ++ (inGroups page).map QueuedMessage.attempt)
            exact ⟨(inGroups page).map QueuedMessage.attempt ++ attempts, by
              rw [hrest, List.append_assoc]⟩

/-- A record changes nothing but the record. -/
theorem flush_recording (h : services.Unbroken) (maxPages pageSize : Nat) (world : World)
    (record : List Sent) :
    ∃ attempts, services.recording.flush maxPages pageSize (world, record) =
      ((services.flush maxPages pageSize world).1, (services.flush maxPages pageSize world).2,
        record ++ attempts) := by
  obtain ⟨attempts, hwalk⟩ := walk_recording h maxPages (.start pageSize) {} world record
  refine ⟨attempts, ?_⟩
  simp only [flush, hwalk, recording_count]
  rcases services.count (services.walk maxPages (.start pageSize) {} world).2 with
    ⟨fault | pending, world⟩
  · rfl
  · rfl

end FlushServices

end PeerMail
