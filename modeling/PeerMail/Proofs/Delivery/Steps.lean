import PeerMail.Proofs.Delivery.Contents

/-!
# Adding and flushing at the same time

Messages are added while flushes run, and several callers may ask for a flush.  What
happens is a sequence of steps, each of which is one access to the database, one attempt
to deliver, or a change that only the flush itself sees.  Adding takes two steps, because
a message has its name before it is stored: a message with a smaller name may be stored
after one with a greater name.  One flush runs at a time; the others wait for the lock.

A step that can fail has a step beside it in which it does, and an attempt has whatever
outcome it has.  Nothing is said about the order of steps, so what holds in every reachable
state holds for every interleaving.  One thing is left out: here every attempt comes to an
outcome, so a worker does not break off, and hands in what was accepted.  What a flush does
about a worker that breaks off is followed call by call elsewhere (`Courier.Step.breakOff`).

Beside what the program holds, a state holds what has happened: which messages were stored,
which attempts were made, what could not be removed and which flushes have ended.
-/

namespace PeerMail.Outbox

/-! ## A flush under way -/

/-- One of the workers of a page, each of which delivers to one destination in order. -/
structure Worker where
  todo : List QueuedMessage
  /-- What has been accepted, with the way it left. -/
  accepted : List (MessageId × Route)

/-- The workers of a page before they begin. -/
def workersFor (page : List QueuedMessage) : List Worker :=
  (partitionByPeer QueuedMessage.peer page).map fun group => ⟨group.items, []⟩

/-- Where a flush stands. -/
inductive Phase where
  /-- The next page is to be loaded. -/
  | loading (cursor : PageCursor)
  /-- The workers of a page are busy; `accepted` has come from those that have finished. -/
  | delivering (cursor : PageCursor) (workers : List Worker) (accepted : List MessageId)
  /-- What was accepted of a page is to be removed. -/
  | deleting (cursor : PageCursor) (accepted : List MessageId)
  /-- The walk is over; it is `complete` unless a page did not load. -/
  | leaving (complete : Bool)

/-- A flush that has the lock. -/
structure Flush where
  caller : Nat
  phase : Phase
  report : FlushReport
  /-- The messages that waited when the first page was loaded. -/
  present : Option (List QueuedMessage)

/-- The flush after a reading, at which these messages waited. -/
def Flush.loaded (flush : Flush) (cursor : PageCursor) (waiting : List QueuedMessage) :
    Except StorageError (List QueuedMessage) → Flush
  | .error _ => { flush with phase := .leaving false }
  | .ok page =>
      let present := some (flush.present.getD waiting)
      match cursor.advance? (page.map QueuedMessage.id) with
      | none => { flush with phase := .leaving true, present }
      | some cursor =>
          { flush with
            phase := .delivering cursor (workersFor page) []
            report := { flush.report with
              pages := flush.report.pages + 1
              attempted := flush.report.attempted + page.length }
            present }

theorem Flush.loaded_nil (flush : Flush) (cursor : PageCursor) (waiting : List QueuedMessage) :
    flush.loaded cursor waiting (.ok []) =
      { flush with phase := .leaving true, present := some (flush.present.getD waiting) } :=
  rfl

/-- A page that was taken goes to its workers. -/
theorem Taken.loaded {db : Database} {cursor : PageCursor} {page : List QueuedMessage}
    {last : MessageId} (h : Taken db cursor page last) (flush : Flush)
    (waiting : List QueuedMessage) :
    flush.loaded cursor waiting (.ok page) =
      { flush with
        phase := .delivering { cursor with after := some last } (workersFor page) []
        report := { flush.report with
          pages := flush.report.pages + 1
          attempted := flush.report.attempted + page.length }
        present := some (flush.present.getD waiting) } := by
  simp only [Flush.loaded, h.advances]

/-- The account of a flush that ends when this many messages are left, if they can be counted. -/
def Flush.account (flush : Flush) : Option Nat → FlushReport
  | some pending => { flush.report with pending }
  | none => { flush.report with pending := flush.report.attempted - flush.report.deleted }

/-! ## States -/

/-- An attempt to deliver a message. -/
structure Attempt where
  caller : Nat
  message : QueuedMessage
  outcome : Except DeliveryError Route

/-- The name of the attempted message. -/
def Attempt.id (attempt : Attempt) : MessageId := attempt.message.id

/-- The transport or the relay has accepted the message. -/
def Attempt.Accepted (attempt : Attempt) : Prop := ∃ route, attempt.outcome = .ok route

/-- A flush that has ended. -/
structure Finished where
  caller : Nat
  report : FlushReport
  present : Option (List QueuedMessage)
  complete : Bool

/-- What there is at one moment, and what has happened. -/
structure State where
  db : Database
  /-- Messages that have a name and are not stored yet. -/
  made : List QueuedMessage
  running : Option Flush
  /-- The names that have been given. -/
  names : List MessageId
  /-- The messages that were stored, those from before among them. -/
  stored : List QueuedMessage
  /-- The callers that have had the lock. -/
  callers : List Nat
  /-- The attempts, oldest first. -/
  attempts : List Attempt
  /-- Which callers have failed to remove which message. -/
  stuck : List (Nat × MessageId)
  finished : List Finished

/-- The database before anything happens. -/
def State.start (db : Database) : State where
  db
  made := []
  running := none
  names := db.waiting.map QueuedMessage.id
  stored := db.waiting
  callers := []
  attempts := []
  stuck := []
  finished := []

/-- The state in which the flush has gone on. -/
def State.going (state : State) (flush : Flush) : State := { state with running := some flush }

/-- One step of an addition or of a flush. -/
inductive Step (pageSize : Nat) (state : State) : State → Prop where
  /-- A message is made, and gets a name that no other has. -/
  | make {message : QueuedMessage} (new : message.id ∉ state.names) :
      Step pageSize state { state with
        made := message :: state.made
        names := message.id :: state.names }
  /-- The message is stored.  The database takes no field of four gigabytes. -/
  | store {before after : List QueuedMessage} {message : QueuedMessage} {db : Database}
      (made : state.made = before ++ message :: after) (fits : message.envelope.Fits)
      (added : state.db.addMessage message = .ok db) :
      Step pageSize state { state with
        db
        made := before ++ after
        stored := message :: state.stored }
  | storeFails {before after : List QueuedMessage} {message : QueuedMessage}
      (made : state.made = before ++ message :: after) :
      Step pageSize state { state with made := before ++ after }
  /-- A caller gets the lock. -/
  | acquire {caller : Nat} (free : state.running = none) (new : caller ∉ state.callers) :
      Step pageSize state { state with
        running := some ⟨caller, .loading (.start pageSize), {}, none⟩
        callers := caller :: state.callers }
  | load {flush : Flush} {cursor : PageCursor} (running : state.running = some flush)
      (phase : flush.phase = .loading cursor) :
      Step pageSize state { state with
        db := (state.db.listMessages cursor.after cursor.pageSize).2
        running := some (flush.loaded cursor state.db.waiting
          (state.db.listMessages cursor.after cursor.pageSize).1) }
  /-- A page that does not load may have set aside rows that are no messages. -/
  | setAside {flush : Flush} {cursor : PageCursor} {queue : QueueTable} {row : QueueRow}
      {fault : StorageError} {reason : String} {db : Database} (running : state.running = some flush)
      (phase : flush.phase = .loading cursor) (table : state.db.queue = some queue)
      (held : row ∈ queue.rows) (corrupt : row.decode = .error fault)
      (aside : state.db.setAside row.id reason = .ok db) :
      Step pageSize state { state with db }
  | loadFails {flush : Flush} {cursor : PageCursor} (running : state.running = some flush)
      (phase : flush.phase = .loading cursor) :
      Step pageSize state (state.going { flush with phase := .leaving false })
  /-- A worker attempts its next message. -/
  | attempt {flush : Flush} {cursor : PageCursor} {before after : List Worker}
      {message : QueuedMessage} {todo : List QueuedMessage} {accepted : List (MessageId × Route)}
      {joined : List MessageId} (outcome : Except DeliveryError Route)
      (running : state.running = some flush)
      (phase : flush.phase =
        .delivering cursor (before ++ ⟨message :: todo, accepted⟩ :: after) joined) :
      Step pageSize state { state with
        attempts := state.attempts ++ [⟨flush.caller, message, outcome⟩]
        running := some { flush with
          phase := .delivering cursor
            (before ++ ⟨todo, accepted ++ (outcome.toOption.map (message.id, ·)).toList⟩ :: after)
            joined } }
  /-- A worker that has finished hands in what was accepted. -/
  | join {flush : Flush} {cursor : PageCursor} {before after : List Worker}
      {accepted : List (MessageId × Route)} {joined : List MessageId}
      (running : state.running = some flush)
      (phase : flush.phase = .delivering cursor (before ++ ⟨[], accepted⟩ :: after) joined) :
      Step pageSize state (state.going { flush with
        phase := .delivering cursor (before ++ after) (joined ++ accepted.map Prod.fst)
        report := (accepted.map Prod.snd).foldl FlushServices.countRoute flush.report })
  /-- All workers have finished. -/
  | settle {flush : Flush} {cursor : PageCursor} {joined : List MessageId}
      (running : state.running = some flush) (phase : flush.phase = .delivering cursor [] joined) :
      Step pageSize state (state.going { flush with phase := .deleting cursor joined })
  | delete {flush : Flush} {cursor : PageCursor} {id : MessageId} {rest : List MessageId}
      {existed : Bool} {db : Database} (running : state.running = some flush)
      (phase : flush.phase = .deleting cursor (id :: rest))
      (deleted : state.db.deleteMessage id = .ok (existed, db)) :
      Step pageSize state { state with
        db
        running := some { flush with
          phase := .deleting cursor rest
          report := { flush.report with deleted := flush.report.deleted + 1 } } }
  | deleteFails {flush : Flush} {cursor : PageCursor} {id : MessageId} {rest : List MessageId}
      (running : state.running = some flush)
      (phase : flush.phase = .deleting cursor (id :: rest)) :
      Step pageSize state { state with
        running := some { flush with phase := .deleting cursor rest }
        stuck := (flush.caller, id) :: state.stuck }
  /-- The page is dealt with. -/
  | turn {flush : Flush} {cursor : PageCursor} (running : state.running = some flush)
      (phase : flush.phase = .deleting cursor []) :
      Step pageSize state (state.going { flush with phase := .loading cursor })
  /-- The flush counts what is left and gives the lock back.  Counting may fail. -/
  | release {flush : Flush} {complete : Bool} {counted : Option Nat}
      (running : state.running = some flush) (phase : flush.phase = .leaving complete)
      (count : ∀ pending, counted = some pending → state.db.countMessages = .ok pending) :
      Step pageSize state { state with
        running := none
        finished := state.finished ++
          [⟨flush.caller, flush.account counted, flush.present, complete⟩] }

/-- The states that any sequence of steps leads to. -/
inductive Reachable (pageSize : Nat) (start : State) : State → Prop where
  | start : Reachable pageSize start start
  | step {state next : State} (before : Reachable pageSize start state)
      (step : Step pageSize state next) : Reachable pageSize start next

end PeerMail.Outbox
