import Mathlib.Logic.Relation
import PeerMail.Delivery.Flush

/-!
# A flush, call by call

All that a flush learns it learns from the answers to its calls: to the store of the queue, to the
transport, to the contacts and to the relay.  Here the answers are not computed.  Each call may get
any answer of its type, at any time and in any order, so what holds after all steps holds for all
stores, transports and relays, and whatever else happens beside the flush.

The workers of a page make their calls in turns.  Which of them comes next is left open, and so is
the order in which they finish.  Every call that can fail may do so, and what it says then is an
answer like any other; one that is never answered leaves the flush where it is.

A call of a worker may also take the worker down.  The flush then goes on without that worker, and
without what it would have handed in.
-/

namespace PeerMail.Courier

/-! ## Calls -/

/-- A call with its answer.  A call for the sake of a message names the message; it is the call of a
worker, which breaks off in it if there is no answer. -/
inductive Call where
  | list (after : Option MessageId) (limit : Nat)
      (answer : Except StorageError (List QueuedMessage))
  | online (message : QueuedMessage) (answer : Option Bool)
  | connected (message : QueuedMessage) (answer : Option (Except TransportError Bool))
  | send (message : QueuedMessage) (answer : Option (Except TransportError Unit))
  | contact (message : QueuedMessage) (answer : Option (Except StorageError (Option Contact)))
  | handOver (message : QueuedMessage) (inboxes : List String)
      (answer : Option (Except RelayError Unit))
  | delete (id : MessageId) (answer : Except StorageError Bool)
  | count (answer : Except StorageError Nat)

namespace Call

/-- The messages of a page that was loaded. -/
def listed : Call → List QueuedMessage
  | list _ _ (.ok page) => page
  | _ => []

/-- The message that the transport or the relay has accepted. -/
def accepted? : Call → Option (QueuedMessage × Route)
  | send message (some (.ok ())) => some (message, .direct)
  | handOver message _ (some (.ok ())) => some (message, .relayed)
  | _ => none

/-- The message in whose delivery a worker has broken off. -/
def broken? : Call → Option QueuedMessage
  | online message none | connected message none | send message none | contact message none
  | handOver message _ none => some message
  | _ => none

/-- The name that the store is asked to delete. -/
def deletes? : Call → Option MessageId
  | delete id _ => some id
  | _ => none

/-- The name that the store is asked to delete, if it does not fail. -/
def deleted? : Call → Option MessageId
  | delete id (.ok _) => some id
  | _ => none

/-- The store is asked for a count. -/
def Counts : Call → Prop
  | count _ => True
  | _ => False

end Call

/-- The messages on all pages. -/
def listed (calls : List Call) : List QueuedMessage := calls.flatMap Call.listed

/-- The messages that the transport or the relay has accepted, in the order of acceptance. -/
def accepted (calls : List Call) : List (QueuedMessage × Route) := calls.filterMap Call.accepted?

/-- The names that the store was asked to delete. -/
def deletes (calls : List Call) : List MessageId := calls.filterMap Call.deletes?

/-- Those of them for which it did not fail. -/
def deleted (calls : List Call) : List MessageId := calls.filterMap Call.deleted?

section

variable (calls : List Call) (call : Call)

@[simp] theorem listed_concat : listed (calls ++ [call]) = listed calls ++ call.listed := by
  simp [listed]

@[simp] theorem accepted_concat :
    accepted (calls ++ [call]) = accepted calls ++ call.accepted?.toList := by
  cases h : call.accepted? <;> simp [accepted, h]

@[simp] theorem deletes_concat :
    deletes (calls ++ [call]) = deletes calls ++ call.deletes?.toList := by
  cases h : call.deletes? <;> simp [deletes, h]

@[simp] theorem deleted_concat :
    deleted (calls ++ [call]) = deleted calls ++ call.deleted?.toList := by
  cases h : call.deleted? <;> simp [deleted, h]

end

/-! ## One message -/

/-- How far the delivery of a message has come: the next call, or how it ended. -/
inductive Stage where
  | online
  | connected
  | send
  | contact
  | handOver (inboxes : List String)
  | over (outcome : Except DeliveryError Route)

/-- A message is sent over a connection; if that is not possible, it is handed to a relay. -/
inductive Stage.Step (message : QueuedMessage) : Stage → Call → Stage → Prop where
  | offline : Step message .online (.online message (some false)) .contact
  | online : Step message .online (.online message (some true)) .connected
  | connected : Step message .connected (.connected message (some (.ok true))) .send
  | unreachable : Step message .connected (.connected message (some (.ok false))) .contact
  | checkFails (reason : TransportError) :
      Step message .connected (.connected message (some (.error reason))) .contact
  | sent : Step message .send (.send message (some (.ok ()))) (.over (.ok .direct))
  | sendFails (reason : TransportError) :
      Step message .send (.send message (some (.error reason))) .contact
  | contact {contact : Contact} (inboxes : contact.inboxes.isEmpty = false) :
      Step message .contact (.contact message (some (.ok (some contact))))
        (.handOver contact.inboxes)
  | noInbox {contact : Contact} (inboxes : contact.inboxes.isEmpty = true) :
      Step message .contact (.contact message (some (.ok (some contact))))
        (.over (.error (.noRoute message.peer)))
  | noContact : Step message .contact (.contact message (some (.ok none)))
      (.over (.error (.noRoute message.peer)))
  | contactFails (fault : StorageError) :
      Step message .contact (.contact message (some (.error fault)))
        (.over (.error (.storage fault)))
  | relayed (inboxes : List String) :
      Step message (.handOver inboxes) (.handOver message inboxes (some (.ok ())))
        (.over (.ok .relayed))
  | rejected (inboxes : List String) (reason : RelayError) :
      Step message (.handOver inboxes) (.handOver message inboxes (some (.error reason)))
        (.over (.error (.relay reason)))

/-- The call that is due gets no answer. -/
inductive Stage.Breaks (message : QueuedMessage) : Stage → Call → Prop where
  | online : Breaks message .online (.online message none)
  | connected : Breaks message .connected (.connected message none)
  | send : Breaks message .send (.send message none)
  | contact : Breaks message .contact (.contact message none)
  | handOver (inboxes : List String) :
      Breaks message (.handOver inboxes) (.handOver message inboxes none)

/-! ## One page -/

/-- One of the workers of a page. -/
structure Worker where
  /-- The destination. -/
  peer : PeerId
  /-- What is left to deliver; the first of it is under way. -/
  todo : List QueuedMessage
  /-- The stage of the first. -/
  stage : Stage
  /-- What has been accepted, with the way it left. -/
  accepted : List (MessageId × Route)

/-- The workers of a page before they begin. -/
def workersFor (page : List QueuedMessage) : List Worker :=
  (partitionByPeer QueuedMessage.peer page).map fun group => ⟨group.peer, group.items, .online, []⟩

/-- A worker whose first message has come to a stage; when it is over the next message is up. -/
def Worker.reaching (peer : PeerId) (message : QueuedMessage) (todo : List QueuedMessage)
    (accepted : List (MessageId × Route)) : Stage → Worker
  | .over outcome =>
      ⟨peer, todo, .online, accepted ++ (outcome.toOption.map (message.id, ·)).toList⟩
  | stage => ⟨peer, message :: todo, stage, accepted⟩

/-! ## The flush -/

/-- Where a flush stands. -/
inductive Phase where
  /-- The next page is to be loaded. -/
  | loading (cursor : PageCursor)
  /-- The workers of a page are busy; `joined` has come from those that have finished. -/
  | delivering (cursor : PageCursor) (workers : List Worker) (joined : List MessageId)
  /-- What was accepted of a page is to be deleted. -/
  | deleting (cursor : PageCursor) (accepted : List MessageId)
  /-- The walk is over, and what is left is to be counted. -/
  | counting
  | over

/-- A flush with the calls that it has made, the first one first. -/
structure State where
  phase : Phase
  report : FlushReport
  calls : List Call

/-- A flush that has made no call. -/
def start (pageSize : Nat) : State := ⟨.loading (.start pageSize), {}, []⟩

/-- How many messages are left, by the count or, if it fails, by the account so far. -/
def pending (report : FlushReport) : Except StorageError Nat → Nat
  | .ok queued => queued
  | .error _ => report.attempted - report.deleted

/-- One step of a flush: a call with some answer, or one that only the flush itself sees. -/
inductive Step : State → State → Prop where
  | load {cursor next : PageCursor} {report : FlushReport} {calls : List Call}
      {page : List QueuedMessage}
      (advance : cursor.advance? (page.map QueuedMessage.id) = some next) :
      Step ⟨.loading cursor, report, calls⟩
        ⟨.delivering next (workersFor page) [], { report with
          pages := report.pages + 1
          attempted := report.attempted + page.length },
          calls ++ [.list cursor.after cursor.pageSize (.ok page)]⟩
  | loadEmpty {cursor : PageCursor} {report : FlushReport} {calls : List Call}
      {page : List QueuedMessage}
      (advance : cursor.advance? (page.map QueuedMessage.id) = none) :
      Step ⟨.loading cursor, report, calls⟩
        ⟨.counting, report, calls ++ [.list cursor.after cursor.pageSize (.ok page)]⟩
  | loadFails {cursor : PageCursor} {report : FlushReport} {calls : List Call}
      (fault : StorageError) :
      Step ⟨.loading cursor, report, calls⟩
        ⟨.counting, report, calls ++ [.list cursor.after cursor.pageSize (.error fault)]⟩
  /-- A worker makes its next call. -/
  | work {cursor : PageCursor} {before after : List Worker} {peer : PeerId}
      {message : QueuedMessage} {todo : List QueuedMessage} {stage stage' : Stage}
      {accepted : List (MessageId × Route)} {joined : List MessageId} {report : FlushReport}
      {calls : List Call} {call : Call} (step : stage.Step message call stage') :
      Step ⟨.delivering cursor (before ++ ⟨peer, message :: todo, stage, accepted⟩ :: after) joined,
          report, calls⟩
        ⟨.delivering cursor (before ++ Worker.reaching peer message todo accepted stage' :: after)
          joined, report, calls ++ [call]⟩
  /-- A worker breaks off in its next call, and never hands in anything. -/
  | breakOff {cursor : PageCursor} {before after : List Worker} {peer : PeerId}
      {message : QueuedMessage} {todo : List QueuedMessage} {stage : Stage}
      {accepted : List (MessageId × Route)} {joined : List MessageId} {report : FlushReport}
      {calls : List Call} {call : Call} (breaks : stage.Breaks message call) :
      Step ⟨.delivering cursor (before ++ ⟨peer, message :: todo, stage, accepted⟩ :: after) joined,
          report, calls⟩
        ⟨.delivering cursor (before ++ after) joined, report, calls ++ [call]⟩
  /-- A worker that has finished hands in what was accepted. -/
  | join {cursor : PageCursor} {before after : List Worker} {peer : PeerId} {stage : Stage}
      {accepted : List (MessageId × Route)} {joined : List MessageId} {report : FlushReport}
      {calls : List Call} :
      Step ⟨.delivering cursor (before ++ ⟨peer, [], stage, accepted⟩ :: after) joined, report,
          calls⟩
        ⟨.delivering cursor (before ++ after) (joined ++ accepted.map Prod.fst),
          (accepted.map Prod.snd).foldl FlushServices.countRoute report, calls⟩
  /-- No worker is left. -/
  | settle {cursor : PageCursor} {joined : List MessageId} {report : FlushReport}
      {calls : List Call} :
      Step ⟨.delivering cursor [] joined, report, calls⟩ ⟨.deleting cursor joined, report, calls⟩
  | delete {cursor : PageCursor} {id : MessageId} {rest : List MessageId} {report : FlushReport}
      {calls : List Call} (existed : Bool) :
      Step ⟨.deleting cursor (id :: rest), report, calls⟩
        ⟨.deleting cursor rest, { report with deleted := report.deleted + 1 },
          calls ++ [.delete id (.ok existed)]⟩
  | deleteFails {cursor : PageCursor} {id : MessageId} {rest : List MessageId}
      {report : FlushReport} {calls : List Call} (fault : StorageError) :
      Step ⟨.deleting cursor (id :: rest), report, calls⟩
        ⟨.deleting cursor rest, report, calls ++ [.delete id (.error fault)]⟩
  /-- The page is dealt with. -/
  | turn {cursor : PageCursor} {report : FlushReport} {calls : List Call} :
      Step ⟨.deleting cursor [], report, calls⟩ ⟨.loading cursor, report, calls⟩
  | count {report : FlushReport} {calls : List Call} (answer : Except StorageError Nat) :
      Step ⟨.counting, report, calls⟩
        ⟨.over, { report with pending := pending report answer }, calls ++ [.count answer]⟩

/-- Any number of steps. -/
abbrev Steps : State → State → Prop := Relation.ReflTransGen Step

end PeerMail.Courier
