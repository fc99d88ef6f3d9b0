import PeerMail.Proofs.Delivery.Accounts
import PeerMail.Proofs.Delivery.Completeness
import PeerMail.Proofs.Delivery.Sequential

/-!
# A flush with any collaborators

`Collaborators` are a store of the queue, a transport, contacts and a relay that may do anything:
each call gives an answer of its type and leaves some world behind, and a call of a worker may give
none and take the worker down.  A flush that works with them is the one of `FlushServices`, with the
delivery over connections first and relays second; the collaborators of a node are such
(`Outgoing.services_eq`).

What such a flush does on its own is one of the sequences of steps (`flush_steps`), with the calls
that it has made and the answers that it has got, so its report accounts for them.
-/

namespace PeerMail

open Courier

/-- What a flush works with.  A worker breaks off in a call that gives no answer. -/
structure Collaborators (World : Type) where
  list : World → Option MessageId → Nat → Except StorageError (List QueuedMessage) × World
  online : World → Option Bool × World
  connected : World → PeerId → Option (Except TransportError Bool) × World
  send : World → PeerId → Envelope → Option (Except TransportError Unit) × World
  contact : World → PeerId → Option (Except StorageError (Option Contact)) × World
  handOver : World → PeerId → Envelope → List String → Option (Except RelayError Unit) × World
  delete : World → MessageId → Except StorageError Bool × World
  count : World → Except StorageError Nat × World

namespace Collaborators

variable {World : Type} (collaborators : Collaborators World)

/-! ## Delivery -/

/-- Sends an envelope over a connection. -/
def sendDirect (world : World) (peer : PeerId) (envelope : Envelope) :
    Option (Except TransportError Unit) × World :=
  match collaborators.online world with
  | (none, world) => (none, world)
  | (some false, world) => (some (.error .offline), world)
  | (some true, world) =>
      match collaborators.connected world peer with
      | (none, world) => (none, world)
      | (some (.error reason), world) => (some (.error reason), world)
      | (some (.ok false), world) => (some (.error (.unreachable peer)), world)
      | (some (.ok true), world) => collaborators.send world peer envelope

/-- Hands an envelope to a relay at the inboxes that are known for its peer. -/
def handOverTo (world : World) (peer : PeerId) (envelope : Envelope) :
    Option (Except DeliveryError Route) × World :=
  match collaborators.contact world peer with
  | (none, world) => (none, world)
  | (some (.error fault), world) => (some (.error (.storage fault)), world)
  | (some (.ok none), world) => (some (.error (.noRoute peer)), world)
  | (some (.ok (some contact)), world) =>
      if contact.inboxes.isEmpty then (some (.error (.noRoute peer)), world)
      else
        match collaborators.handOver world peer envelope contact.inboxes with
        | (none, world) => (none, world)
        | (some (.ok ()), world) => (some (.ok .relayed), world)
        | (some (.error reason), world) => (some (.error (.relay reason)), world)

/-- Delivers an envelope over a connection, or else to a relay. -/
def deliver (world : World) (peer : PeerId) (envelope : Envelope) :
    Option (Except DeliveryError Route) × World :=
  match collaborators.sendDirect world peer envelope with
  | (none, world) => (none, world)
  | (some (.ok ()), world) => (some (.ok .direct), world)
  | (some (.error _), world) => collaborators.handOverTo world peer envelope

/-- The queue and the way of delivery. -/
def services : FlushServices World where
  list := collaborators.list
  deliver := collaborators.deliver
  delete := collaborators.delete
  count := collaborators.count

end Collaborators

/-- The collaborators of a node, which answer every call. -/
def Outgoing.collaborators : Collaborators Outgoing where
  list := Outgoing.services.list
  online outgoing := (some outgoing.transport.online, outgoing)
  connected outgoing peer :=
    let (answer, transport) := outgoing.transport.check peer
    (some answer, { outgoing with transport })
  send outgoing peer envelope :=
    let (answer, transport) := outgoing.transport.send peer envelope
    (some answer, { outgoing with transport })
  contact outgoing peer := (some (outgoing.db.contact? peer), outgoing)
  handOver outgoing peer envelope inboxes :=
    match outgoing.relay.handOver peer envelope inboxes with
    | .ok relay => (some (.ok ()), { outgoing with relay })
    | .error reason => (some (.error reason), outgoing)
  delete := Outgoing.services.delete
  count := Outgoing.services.count

namespace Outgoing

variable (outgoing : Outgoing) (peer : PeerId) (envelope : Envelope)

theorem sendDirect_eq : collaborators.sendDirect outgoing peer envelope =
    (some (outgoing.transport.deliver peer envelope).1,
      { outgoing with transport := (outgoing.transport.deliver peer envelope).2 }) := by
  unfold Collaborators.sendDirect Transport.deliver
  simp only [collaborators]
  cases outgoing.transport.online with
  | false => rfl
  | true =>
      dsimp only
      rcases outgoing.transport.check peer with ⟨reason | connected, transport⟩
      · rfl
      · cases connected <;> rfl

theorem handOverTo_eq : collaborators.handOverTo outgoing peer envelope =
    match outgoing.handOver peer envelope with
    | .ok outgoing => (some (.ok .relayed), outgoing)
    | .error reason => (some (.error reason), outgoing) := by
  unfold Collaborators.handOverTo handOver
  simp only [collaborators]
  cases outgoing.db.contact? peer with
  | error fault => rfl
  | ok found =>
      cases found with
      | none => rfl
      | some contact =>
          simp only [Except.mapError, bind, Except.bind]
          cases contact.inboxes.isEmpty with
          | true => rfl
          | false => cases outgoing.relay.handOver peer envelope contact.inboxes <;> rfl

/-- A node delivers with its collaborators. -/
theorem services_eq : collaborators.services = services := by
  have hdeliver : collaborators.deliver = services.deliver := by
    funext outgoing peer envelope
    simp only [Collaborators.deliver, services, deliver, sendDirect_eq, handOverTo_eq]
    rcases outgoing.transport.deliver peer envelope with ⟨reason | _, transport⟩
    · dsimp only
      cases { outgoing with transport }.handOver peer envelope <;> rfl
    · rfl
  unfold Collaborators.services
  rw [hdeliver]
  rfl

end Outgoing

/-! ## Answers -/

namespace Collaborators

variable {World : Type} {collaborators : Collaborators World} {world world' world'' : World}

/-- The collaborators answer a call in this way, and leave this world behind. -/
def Answers (collaborators : Collaborators World) (world : World) : Call → World → Prop
  | .list after limit answer, next => collaborators.list world after limit = (answer, next)
  | .online _ answer, next => collaborators.online world = (answer, next)
  | .connected message answer, next =>
      collaborators.connected world message.peer = (answer, next)
  | .send message answer, next =>
      collaborators.send world message.peer message.envelope = (answer, next)
  | .contact message answer, next => collaborators.contact world message.peer = (answer, next)
  | .handOver message inboxes answer, next =>
      collaborators.handOver world message.peer message.envelope inboxes = (answer, next)
  | .delete id answer, next => collaborators.delete world id = (answer, next)
  | .count answer, next => collaborators.count world = (answer, next)

/-- The collaborators answer these calls, the first one first. -/
def AnswersAll (collaborators : Collaborators World) : World → List Call → World → Prop
  | world, [], next => next = world
  | world, call :: rest, next =>
      ∃ middle, collaborators.Answers world call middle ∧ collaborators.AnswersAll middle rest next

theorem AnswersAll.append {calls calls' : List Call}
    (h : collaborators.AnswersAll world calls world')
    (h' : collaborators.AnswersAll world' calls' world'') :
    collaborators.AnswersAll world (calls ++ calls') world'' := by
  induction calls generalizing world with
  | nil =>
      obtain rfl : world' = world := h
      exact h'
  | cons call rest ih =>
      obtain ⟨middle, hcall, hrest⟩ := h
      exact ⟨middle, hcall, ih hrest⟩

/-- With calls that the collaborators answer, a flush gets from one phase and report to another. -/
def Leads (collaborators : Collaborators World) (world : World) (phase : Phase)
    (report : FlushReport) (world' : World) (phase' : Phase) (report' : FlushReport) : Prop :=
  ∃ calls, collaborators.AnswersAll world calls world' ∧
    ∀ earlier, Steps ⟨phase, report, earlier⟩ ⟨phase', report', earlier ++ calls⟩

namespace Leads

variable {phase phase' phase'' : Phase} {report report' report'' : FlushReport}

theorem refl : collaborators.Leads world phase report world phase report :=
  ⟨[], rfl, fun earlier => by rw [List.append_nil]⟩

theorem trans (h : collaborators.Leads world phase report world' phase' report')
    (h' : collaborators.Leads world' phase' report' world'' phase'' report'') :
    collaborators.Leads world phase report world'' phase'' report'' := by
  obtain ⟨calls, hanswers, hsteps⟩ := h
  obtain ⟨calls', hanswers', hsteps'⟩ := h'
  refine ⟨calls ++ calls', hanswers.append hanswers', fun earlier => ?_⟩
  rw [← List.append_assoc]
  exact (hsteps earlier).trans (hsteps' (earlier ++ calls))

/-- A step without a call. -/
theorem quiet (h : ∀ calls, Step ⟨phase, report, calls⟩ ⟨phase', report', calls⟩) :
    collaborators.Leads world phase report world phase' report' :=
  ⟨[], rfl, fun earlier => by
    rw [List.append_nil]
    exact .single (h earlier)⟩

/-- A step with a call. -/
theorem asking (call : Call) (hanswer : collaborators.Answers world call world')
    (h : ∀ calls, Step ⟨phase, report, calls⟩ ⟨phase', report', calls ++ [call]⟩) :
    collaborators.Leads world phase report world' phase' report' :=
  ⟨[call], ⟨world', hanswer, rfl⟩, fun earlier => .single (h earlier)⟩

end Leads

/-! ## A page -/

end Collaborators

namespace Courier.Worker

/-- What is left of a worker after a delivery, which may have taken it down. -/
def delivered (peer : PeerId) (message : QueuedMessage) (todo : List QueuedMessage)
    (held : List (MessageId × Route)) (outcome : Option (Except DeliveryError Route)) :
    List Worker :=
  (outcome.map fun outcome => reaching peer message todo held (.over outcome)).toList

/-- What is left of it after all its messages, of which so many more have been accepted. -/
def finished (peer : PeerId) (held : List (MessageId × Route))
    (more : Option (List (MessageId × Route))) : List Worker :=
  (more.map fun more => ⟨peer, [], .online, held ++ more⟩).toList

theorem finished_append (peer : PeerId) (held first : List (MessageId × Route))
    (more : Option (List (MessageId × Route))) :
    finished peer (held ++ first) more = finished peer held (more.map (first ++ ·)) := by
  cases more <;> simp [finished]

end Courier.Worker

namespace Collaborators

variable {World : Type} {collaborators : Collaborators World} {world world' : World}

section Page

variable {cursor : PageCursor} {after : List Worker} {peer : PeerId}
  {held : List (MessageId × Route)}
  {joined : List MessageId} {report : FlushReport} {message : QueuedMessage}
  {todo : List QueuedMessage} {stage stage' : Stage} {call : Call}

theorem leads_stage (call : Call) (hanswer : collaborators.Answers world call world')
    (hstep : Stage.Step message stage call stage') :
    collaborators.Leads
      world (.delivering cursor (⟨peer, message :: todo, stage, held⟩ :: after) joined) report
      world' (.delivering cursor (Worker.reaching peer message todo held stage' :: after) joined)
        report :=
  .asking call hanswer fun _ => @Step.work cursor [] after _ _ _ _ _ _ _ _ _ _ hstep

theorem leads_breakOff (call : Call) (hanswer : collaborators.Answers world call world')
    (hbreaks : Stage.Breaks message stage call) :
    collaborators.Leads
      world (.delivering cursor (⟨peer, message :: todo, stage, held⟩ :: after) joined) report
      world' (.delivering cursor after joined) report :=
  .asking call hanswer fun _ => @Step.breakOff cursor [] after _ _ _ _ _ _ _ _ _ hbreaks

theorem leads_handOverTo (world : World) (message : QueuedMessage) :
    collaborators.Leads
      world (.delivering cursor (⟨peer, message :: todo, .contact, held⟩ :: after) joined) report
      (collaborators.handOverTo world message.peer message.envelope).2
        (.delivering cursor (Worker.delivered peer message todo held
          (collaborators.handOverTo world message.peer message.envelope).1 ++ after) joined)
        report := by
  unfold handOverTo
  rcases hcontact : collaborators.contact world message.peer with ⟨_ | fault | _ | contact, next⟩
  · exact leads_breakOff (.contact message none) hcontact .contact
  · exact leads_stage (.contact message (some (.error fault))) hcontact (.contactFails fault)
  · exact leads_stage (.contact message (some (.ok none))) hcontact .noContact
  · dsimp only
    cases hinboxes : contact.inboxes.isEmpty with
    | true =>
        exact leads_stage (.contact message (some (.ok (some contact)))) hcontact
          (.noInbox hinboxes)
    | false =>
        refine (leads_stage (.contact message (some (.ok (some contact)))) hcontact
          (.contact hinboxes)).trans ?_
        rcases hanswer : collaborators.handOver next message.peer message.envelope contact.inboxes
          with ⟨_ | reason | _, last⟩
        · exact leads_breakOff (.handOver message contact.inboxes none) hanswer
            (.handOver contact.inboxes)
        · exact leads_stage (.handOver message contact.inboxes (some (.error reason))) hanswer
            (.rejected contact.inboxes reason)
        · exact leads_stage (.handOver message contact.inboxes (some (.ok ()))) hanswer
            (.relayed contact.inboxes)

/-- A message is delivered, or takes its worker down. -/
theorem leads_deliver (world : World) (message : QueuedMessage) :
    collaborators.Leads
      world (.delivering cursor (⟨peer, message :: todo, .online, held⟩ :: after) joined) report
      (collaborators.deliver world message.peer message.envelope).2
        (.delivering cursor (Worker.delivered peer message todo held
          (collaborators.deliver world message.peer message.envelope).1 ++ after) joined)
        report := by
  unfold deliver sendDirect
  rcases honline : collaborators.online world with ⟨_ | _ | _, next⟩
  · exact leads_breakOff (.online message none) honline .online
  · exact (leads_stage (.online message (some false)) honline .offline).trans
      (leads_handOverTo next message)
  · refine (leads_stage (.online message (some true)) honline .online).trans ?_
    dsimp only
    rcases hconnected : collaborators.connected next message.peer with ⟨_ | reason | _ | _, middle⟩
    · exact leads_breakOff (.connected message none) hconnected .connected
    · exact (leads_stage (.connected message (some (.error reason))) hconnected
        (.checkFails reason)).trans (leads_handOverTo middle message)
    · exact (leads_stage (.connected message (some (.ok false))) hconnected .unreachable).trans
        (leads_handOverTo middle message)
    · refine (leads_stage (.connected message (some (.ok true))) hconnected .connected).trans ?_
      dsimp only
      rcases hsend : collaborators.send middle message.peer message.envelope with
        ⟨_ | reason | _, last⟩
      · exact leads_breakOff (.send message none) hsend .send
      · exact (leads_stage (.send message (some (.error reason))) hsend (.sendFails reason)).trans
          (leads_handOverTo last message)
      · exact leads_stage (.send message (some (.ok ()))) hsend .sent

/-- A worker goes through its messages, as far as it comes. -/
theorem leads_worker (messages : List QueuedMessage) (world : World) :
    collaborators.Leads
      world (.delivering cursor (⟨peer, messages, .online, held⟩ :: after) joined) report
      (collaborators.services.deliverGroup messages world).2
        (.delivering cursor (Worker.finished peer held
          (collaborators.services.deliverGroup messages world).1 ++ after) joined) report := by
  induction messages generalizing world held with
  | nil =>
      simp only [FlushServices.deliverGroup, Worker.finished, Option.map_some, List.append_nil]
      exact .refl
  | cons message rest ih =>
      have hdelivered := @leads_deliver _ collaborators cursor after peer held joined report rest
        world message
      rcases hdeliver : collaborators.deliver world message.peer message.envelope with
        ⟨_ | outcome, middle⟩
      · have hservice : collaborators.services.deliver world message.peer message.envelope =
          (none, middle) := hdeliver
        rw [hdeliver] at hdelivered
        simp only [FlushServices.deliverGroup, hservice]
        exact hdelivered
      · have hservice : collaborators.services.deliver world message.peer message.envelope =
          (some outcome, middle) := hdeliver
        rw [hdeliver] at hdelivered
        simp only [FlushServices.deliverGroup, hservice]
        have hrest := @ih (held ++ (outcome.toOption.map (message.id, ·)).toList) middle
        rw [Worker.finished_append] at hrest
        exact hdelivered.trans hrest

end Page

variable {cursor : PageCursor}

/-- The workers of a page finish or break off, one after the other. -/
theorem leads_workers (groups : List (PeerGroup QueuedMessage)) (report : FlushReport)
    (world : World) (joined : List MessageId) :
    collaborators.Leads
      world (.delivering cursor (groups.map fun group => ⟨group.peer, group.items, .online, []⟩)
        joined) report
      (collaborators.services.deliverAll groups report world).2.2
        (.delivering cursor []
          (joined ++ (collaborators.services.deliverAll groups report world).1))
        (collaborators.services.deliverAll groups report world).2.1 := by
  induction groups generalizing world report joined with
  | nil =>
      simp only [FlushServices.deliverAll, List.append_nil]
      exact .refl
  | cons group rest ih =>
      have hworked := @leads_worker _ collaborators cursor
        (rest.map fun group => ⟨group.peer, group.items, .online, []⟩) group.peer [] joined report
        group.items world
      simp only [FlushServices.deliverAll]
      rcases hgroup : collaborators.services.deliverGroup group.items world with
        ⟨_ | accepted, middle⟩
      · rw [hgroup] at hworked
        exact hworked.trans (ih report middle joined)
      · rw [hgroup] at hworked
        have hrest := ih ((accepted.map Prod.snd).foldl FlushServices.countRoute report) middle
          (joined ++ accepted.map Prod.fst)
        rw [List.append_assoc] at hrest
        refine hworked.trans (.trans (.quiet fun calls => ?_) hrest)
        exact @Step.join cursor [] _ group.peer .online accepted joined report calls

/-- What was accepted is deleted, as far as the store lets it. -/
theorem leads_deletes (ids : List MessageId) (report : FlushReport) (world : World) :
    collaborators.Leads world (.deleting cursor ids) report
      (collaborators.services.deleteAll ids report world).2 (.deleting cursor [])
        (collaborators.services.deleteAll ids report world).1 := by
  induction ids generalizing report world with
  | nil => exact .refl
  | cons id rest ih =>
      rcases hdelete : collaborators.services.delete world id with ⟨fault | existed, next⟩
      · simp only [FlushServices.deleteAll, hdelete]
        have hstep : collaborators.Leads world (.deleting cursor (id :: rest)) report next
            (.deleting cursor rest) report :=
          .asking (.delete id (.error fault)) hdelete fun _ => .deleteFails fault
        exact hstep.trans (ih report next)
      · simp only [FlushServices.deleteAll, hdelete]
        have hstep : collaborators.Leads world (.deleting cursor (id :: rest)) report next
            (.deleting cursor rest) { report with deleted := report.deleted + 1 } :=
          .asking (.delete id (.ok existed)) hdelete fun _ => .delete existed
        exact hstep.trans (ih _ next)

/-- A page is dealt with. -/
theorem leads_page (page : List QueuedMessage) (report : FlushReport) (world : World) :
    collaborators.Leads world (.delivering cursor (workersFor page) []) { report with
        pages := report.pages + 1
        attempted := report.attempted + page.length }
      (collaborators.services.flushPage page report world).2 (.loading cursor)
        (collaborators.services.flushPage page report world).1 := by
  have hdelivered := @leads_workers _ collaborators cursor (partitionByPeer QueuedMessage.peer page)
    { report with
      pages := report.pages + 1
      attempted := report.attempted + page.length } world []
  exact hdelivered.trans (.trans (.quiet fun _ => .settle)
    ((leads_deletes _ _ _).trans (.quiet fun _ => .turn)))

/-! ## The walk -/

theorem pages_deliverAll (groups : List (PeerGroup QueuedMessage)) (report : FlushReport)
    (world : World) :
    (collaborators.services.deliverAll groups report world).2.1.pages = report.pages := by
  induction groups generalizing report world with
  | nil => rfl
  | cons group rest ih =>
      simp only [FlushServices.deliverAll]
      rcases collaborators.services.deliverGroup group.items world with ⟨_ | accepted, middle⟩
      · exact ih report middle
      · refine (ih _ middle).trans ?_
        rw [FlushServices.foldl_countRoute]

theorem pages_deleteAll (ids : List MessageId) (report : FlushReport) (world : World) :
    (collaborators.services.deleteAll ids report world).1.pages = report.pages := by
  induction ids generalizing report world with
  | nil => rfl
  | cons id rest ih =>
      simp only [FlushServices.deleteAll]
      rcases collaborators.services.delete world id with ⟨fault | existed, next⟩
      · exact ih report next
      · exact ih _ next

theorem pages_flushPage (page : List QueuedMessage) (report : FlushReport) (world : World) :
    (collaborators.services.flushPage page report world).1.pages = report.pages + 1 := by
  simp only [FlushServices.flushPage, pages_deleteAll, pages_deliverAll]

/-- A walk that ends before the number of pages that it may use is reached ends by itself. -/
theorem leads_walk {maxPages : Nat} (cursor : PageCursor) (report : FlushReport) (world : World)
    (h : (collaborators.services.walk maxPages cursor report world).1.pages <
      report.pages + maxPages) :
    collaborators.Leads world (.loading cursor) report
      (collaborators.services.walk maxPages cursor report world).2 .counting
        (collaborators.services.walk maxPages cursor report world).1 := by
  induction maxPages generalizing cursor report world with
  | zero =>
      -- the walk was cut off
      exact absurd h (Nat.lt_irrefl _)
  | succ maxPages ih =>
      simp only [FlushServices.walk] at h ⊢
      rcases hlist : collaborators.services.list world cursor.after cursor.pageSize with
        ⟨fault | page, next⟩
      · exact .asking (.list cursor.after cursor.pageSize (.error fault)) hlist
          fun _ => .loadFails fault
      · simp only [hlist] at h ⊢
        cases hadvance : cursor.advance? (page.map QueuedMessage.id) with
        | none =>
            exact .asking (.list cursor.after cursor.pageSize (.ok page)) hlist
              fun _ => .loadEmpty hadvance
        | some cursor' =>
            simp only [hadvance] at h ⊢
            -- the page counts in the report, so as many may follow as before
            refine .trans (.asking (.list cursor.after cursor.pageSize (.ok page)) hlist
              fun _ => .load hadvance) ((leads_page page report next).trans (ih cursor' _ _ ?_))
            rw [pages_flushPage]
            omega

/-- **A flush on its own is one sequence of steps**, with the calls that it makes and the answers
that it gets. -/
theorem flush_steps (collaborators : Collaborators World) (maxPages pageSize : Nat) (world : World)
    (h : (collaborators.services.flush maxPages pageSize world).1.pages < maxPages) :
    ∃ calls, collaborators.AnswersAll world calls
        (collaborators.services.flush maxPages pageSize world).2 ∧
      Steps (start pageSize)
        ⟨.over, (collaborators.services.flush maxPages pageSize world).1, calls⟩ := by
  have hpages : (collaborators.services.flush maxPages pageSize world).1.pages =
      (collaborators.services.walk maxPages (.start pageSize) {} world).1.pages := by
    simp only [FlushServices.flush]
    split <;> rfl
  have hwalk := leads_walk (.start pageSize) {} world (by
    rw [← hpages, Nat.zero_add]
    exact h)
  rcases hwalked : collaborators.services.walk maxPages (.start pageSize) {} world with
    ⟨report, middle⟩
  rw [hwalked] at hwalk
  rcases hcount : collaborators.services.count middle with ⟨answer, final⟩
  have hflush : collaborators.services.flush maxPages pageSize world =
      ({ report with pending := pending report answer }, final) := by
    simp only [FlushServices.flush, hwalked, hcount]
    cases answer <;> rfl
  rw [hflush]
  obtain ⟨calls, hanswers, hsteps⟩ := hwalk.trans
    (.asking (.count answer) hcount fun _ => .count answer)
  exact ⟨calls, hanswers, hsteps []⟩

end Collaborators

/-! ## The flush of a node -/

namespace Outgoing

open Outbox (ahead)

/-- Every page of a walk takes a message from those that lie ahead. -/
theorem pages_walk_le (maxPages : Nat) (cursor : PageCursor) (report : FlushReport)
    (outgoing : Outgoing) (hsize : 1 ≤ cursor.pageSize) :
    (services.walk maxPages cursor report outgoing).1.pages ≤
      report.pages + (ahead outgoing.db cursor).length := by
  induction maxPages generalizing cursor report outgoing with
  | zero => exact Nat.le_add_right _ _
  | succ maxPages ih =>
      have hsame := (outgoing.db.listMessages_found cursor.after hsize).1
      have htaken := fun page => @Outbox.taken_of_listed outgoing.db cursor page hsize
      rcases hlist : outgoing.db.listMessages cursor.after cursor.pageSize with ⟨fault | page, db⟩
      · simp [FlushServices.walk, services, hlist]
      · rw [hlist] at hsame htaken
        have hservice : services.list outgoing cursor.after cursor.pageSize =
            (.ok page, { outgoing with db }) := by
          simp only [services, hlist]
        simp only [FlushServices.walk, hservice]
        rcases htaken page rfl with ⟨rfl, -⟩ | ⟨last, htaken⟩
        · exact Nat.le_add_right _ _
        · rw [htaken.advances]
          have hfewer : (services.flushPage page report { outgoing with db }).2.db.waiting.Sublist
              outgoing.db.waiting := hsame ▸ Outbox.flushPage_waiting page report { outgoing with db }
          have hshorter := htaken.length_ahead_lt hfewer
          have hrest := ih { cursor with after := some last }
            (services.flushPage page report { outgoing with db }).1
            (services.flushPage page report { outgoing with db }).2 hsize
          rw [← services_eq, Collaborators.pages_flushPage, services_eq] at hrest
          dsimp only
          omega

theorem pages_flush_lt (outgoing : Outgoing) (pageSize : Nat) :
    (outgoing.flush pageSize).1.pages < (outgoing.db.queue.map Table.size).getD 0 + 1 := by
  have hwalk := pages_walk_le ((outgoing.db.queue.map Table.size).getD 0 + 1) (.start pageSize) {}
    outgoing (Nat.le_max_right pageSize 1)
  have hahead := Outbox.length_ahead_le outgoing.db (.start pageSize)
  have hpages : (outgoing.flush pageSize).1.pages =
      (services.walk ((outgoing.db.queue.map Table.size).getD 0 + 1) (.start pageSize) {}
        outgoing).1.pages := by
    simp only [flush, FlushServices.flush]
    split <;> rfl
  rw [hpages]
  dsimp only at hwalk
  omega

end Outgoing

/-- A flush that finishes accounts for the calls that its collaborators have answered. -/
theorem Collaborators.exists_accounted {World : Type} (collaborators : Collaborators World)
    (maxPages pageSize : Nat) (world : World)
    (h : (collaborators.services.flush maxPages pageSize world).1.pages < maxPages) :
    ∃ calls, collaborators.AnswersAll world calls
        (collaborators.services.flush maxPages pageSize world).2 ∧
      Steps (start pageSize)
        ⟨.over, (collaborators.services.flush maxPages pageSize world).1, calls⟩ ∧
      Accounted (collaborators.services.flush maxPages pageSize world).1 calls := by
  obtain ⟨calls, hanswers, hsteps⟩ := collaborators.flush_steps maxPages pageSize world h
  exact ⟨calls, hanswers, hsteps, accounted hsteps rfl⟩

/-- The collaborators of a node answer every call, so none of its workers breaks off. -/
theorem Outgoing.broken?_eq_none {outgoing final : Outgoing} {calls : List Call}
    (h : collaborators.AnswersAll outgoing calls final) : ∀ call ∈ calls, call.broken? = none := by
  induction calls generalizing outgoing with
  | nil =>
      intro call hmem
      cases hmem
  | cons call rest ih =>
      obtain ⟨middle, hcall, hrest⟩ := h
      intro other hmem
      rcases List.mem_cons.mp hmem with rfl | hmem
      · unfold Call.broken?
        split
        · cases hcall
        · cases hcall
        · cases hcall
        · cases hcall
        · simp only [Collaborators.Answers, collaborators] at hcall
          split at hcall <;> cases hcall
        · rfl
      · exact ih hrest other hmem

/-- **What a flush reports, whatever its store, transport and relay do.**  At every moment the
deletions that were asked for are of messages that were accepted before, each once, and when the
flush is over its report accounts for its calls (`Accounted`).  So it is for workers that take turns
in any order, for any answers and with workers that break off at any call; for a flush on its own
with any collaborators, as long as it finishes, and the calls that it makes; and for every flush of
a node, which always finishes and whose workers do not break off. -/
theorem flush_accounted :
    (∀ (pageSize : Nat) (state : State), Steps (start pageSize) state →
      (deletes state.calls).Subperm (names (accepted state.calls)) ∧
        (state.phase = .over → Accounted state.report state.calls)) ∧
    (∀ (World : Type) (collaborators : Collaborators World) (maxPages pageSize : Nat)
        (world : World),
      (collaborators.services.flush maxPages pageSize world).1.pages < maxPages →
      ∃ calls, collaborators.AnswersAll world calls
          (collaborators.services.flush maxPages pageSize world).2 ∧
        Steps (start pageSize)
          ⟨.over, (collaborators.services.flush maxPages pageSize world).1, calls⟩ ∧
        Accounted (collaborators.services.flush maxPages pageSize world).1 calls) ∧
    ∀ (outgoing : Outgoing) (pageSize : Nat), ∃ calls,
      Outgoing.collaborators.AnswersAll outgoing calls (outgoing.flush pageSize).2 ∧
        Steps (start pageSize) ⟨.over, (outgoing.flush pageSize).1, calls⟩ ∧
        Accounted (outgoing.flush pageSize).1 calls ∧ ∀ call ∈ calls, call.broken? = none := by
  refine ⟨fun pageSize state h => ⟨deletes_subperm h, accounted h⟩,
    fun World collaborators => collaborators.exists_accounted, fun outgoing pageSize => ?_⟩
  have hpages := outgoing.pages_flush_lt pageSize
  unfold Outgoing.flush at hpages ⊢
  rw [← Outgoing.services_eq] at hpages ⊢
  obtain ⟨calls, hanswers, hsteps, haccounted⟩ :=
    Outgoing.collaborators.exists_accounted _ pageSize outgoing hpages
  exact ⟨calls, hanswers, hsteps, haccounted, Outgoing.broken?_eq_none hanswers⟩

/-! ### A store that fails when it comes to deletions -/

open Outgoing (exampleMessage examplePeer)

/-- One page of three messages: the first goes over a connection, the second to a relay, and the
contact of the third cannot be read.  The first cannot be deleted, and nothing can be counted.  The
world is the number of pages that were loaded. -/
def exampleCollaborators : Collaborators Nat where
  list pages _ _ :=
    (.ok (if pages = 0 then [exampleMessage 1 7, exampleMessage 3 8, exampleMessage 4 9] else []),
      pages + 1)
  online pages := (some true, pages)
  connected pages peer := (some (.ok (peer == examplePeer 7)), pages)
  send pages _ _ := (some (.ok ()), pages)
  contact pages peer :=
    (some (if peer = examplePeer 8 then .ok (some ⟨peer, ["inbox"]⟩)
      else .error (.unavailable "busy")), pages)
  handOver pages _ _ _ := (some (.ok ()), pages)
  delete pages id :=
    (if id = (exampleMessage 1 7).id then .error (.unavailable "busy") else .ok false, pages)
  count pages := (.error (.unavailable "busy"), pages)

/-- Two of three messages are accepted and one is deleted, so two count as left. -/
theorem exampleCollaborators_accounted :
    (exampleCollaborators.services.flush 2 16 0).1 = ⟨1, 3, 1, 1, 1, 2⟩ ∧
      ∃ calls, exampleCollaborators.AnswersAll 0 calls 2 ∧ Accounted ⟨1, 3, 1, 1, 1, 2⟩ calls := by
  have hflush : exampleCollaborators.services.flush 2 16 0 = (⟨1, 3, 1, 1, 1, 2⟩, 2) := by
    decide +kernel
  obtain ⟨calls, hanswers, -, haccounted⟩ :=
    flush_accounted.2.1 Nat exampleCollaborators 2 16 0 (by rw [hflush]; decide)
  rw [hflush] at hanswers haccounted
  exact ⟨by rw [hflush], calls, hanswers, haccounted⟩

/-! ### A connection that takes its worker down -/

/-- One page of two messages for a peer: the first is sent, and in sending the second the worker
breaks off.  The world is the number of pages that were loaded and messages that were to be sent. -/
def breakingCollaborators : Collaborators Nat where
  list calls _ _ :=
    (.ok (if calls = 0 then [exampleMessage 1 7, exampleMessage 2 7] else []), calls + 1)
  online calls := (some true, calls)
  connected calls _ := (some (.ok true), calls)
  send calls _ _ := (if calls = 1 then some (.ok ()) else none, calls + 1)
  contact calls _ := (some (.ok none), calls)
  handOver calls _ _ _ := (some (.ok ()), calls)
  delete calls _ := (.ok true, calls)
  count calls := (.ok 2, calls)

/-- The calls of a flush with them. -/
def breakingCalls : List Call :=
  let first := exampleMessage 1 7
  let second := exampleMessage 2 7
  [.list none 16 (.ok [first, second]),
    .online first (some true), .connected first (some (.ok true)), .send first (some (.ok ())),
    .online second (some true), .connected second (some (.ok true)), .send second none,
    .list (some second.id) 16 (.ok []), .count (.ok 2)]

theorem steps_breakingCalls : Steps (start 16) ⟨.over, ⟨1, 2, 0, 0, 0, 2⟩, breakingCalls⟩ := by
  have hworkers : workersFor [exampleMessage 1 7, exampleMessage 2 7] =
      [⟨examplePeer 7, [exampleMessage 1 7, exampleMessage 2 7], .online, []⟩] := rfl
  have hload := @Step.load (.start 16) ⟨some (exampleMessage 2 7).id, 16⟩ {} []
    [exampleMessage 1 7, exampleMessage 2 7] rfl
  rw [hworkers] at hload
  refine .head hload ?_
  refine .head (@Step.work _ [] [] _ _ _ _ _ _ _ _ _ _ .online) ?_
  refine .head (@Step.work _ [] [] _ _ _ _ _ _ _ _ _ _ .connected) ?_
  refine .head (@Step.work _ [] [] _ _ _ _ _ _ _ _ _ _ .sent) ?_
  refine .head (@Step.work _ [] [] _ _ _ _ _ _ _ _ _ _ .online) ?_
  refine .head (@Step.work _ [] [] _ _ _ _ _ _ _ _ _ _ .connected) ?_
  refine .head (@Step.breakOff _ [] [] _ _ _ _ _ _ _ _ _ .send) ?_
  refine .head .settle ?_
  refine .head .turn ?_
  refine .head (@Step.loadEmpty _ _ _ [] rfl) ?_
  exact .single (.count (.ok 2))

/-- The first message was accepted, and the report does not count it. -/
theorem broken_worker_unreported :
    ¬ ∀ (World : Type) (collaborators : Collaborators World) (maxPages pageSize : Nat)
        (world : World) (calls : List Call),
      (collaborators.services.flush maxPages pageSize world).1.pages < maxPages →
      collaborators.AnswersAll world calls
        (collaborators.services.flush maxPages pageSize world).2 →
      Steps (start pageSize)
        ⟨.over, (collaborators.services.flush maxPages pageSize world).1, calls⟩ →
      (collaborators.services.flush maxPages pageSize world).1.direct +
          (collaborators.services.flush maxPages pageSize world).1.relayed =
        (accepted calls).length := by
  intro hcounted
  have hflush : breakingCollaborators.services.flush 2 16 0 = (⟨1, 2, 0, 0, 0, 2⟩, 4) := by
    decide +kernel
  have hanswers : breakingCollaborators.AnswersAll 0 breakingCalls 4 :=
    ⟨1, rfl, 1, rfl, 1, rfl, 2, rfl, 2, rfl, 2, rfl, 3, rfl, 4, rfl, 4, rfl, rfl⟩
  have hreported := hcounted Nat breakingCollaborators 2 16 0 breakingCalls
    (by rw [hflush]; decide) (by rw [hflush]; exact hanswers)
    (by rw [hflush]; exact steps_breakingCalls)
  rw [hflush] at hreported
  exact absurd hreported (by decide)

end PeerMail
