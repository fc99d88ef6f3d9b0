import PeerMail.Proofs.Delivery.Cursor
import PeerMail.Proofs.Delivery.Custody
import PeerMail.Proofs.Delivery.Routing

/-!
# The account of a flush and its calls

Whatever a flush is answered, it asks only for the deletion of messages that were accepted
(`deletes_subperm`), and in the end its report says what its calls have done (`accounted`), but for
what was lost with workers that broke off.

The invariant is a balance (`Balanced`).  What has been accepted is split in three all the time: the
names whose deletion has been asked for, those that are due, which a worker still holds or the flush
is about to delete, and those that are lost.  Likewise the routes are counted in the report, held by
a worker, or lost.  What has been accepted or is still to be attempted is part of what has been
listed.
-/

namespace PeerMail.Courier

open FlushServices (countRoute foldl_countRoute)

/-! ## What has been done and what is due -/

namespace Phase

/-- The messages whose delivery is not over. -/
def todo (phase : Phase) : List QueuedMessage := phase.workers.flatMap Worker.todo

/-- The routes of accepted messages that are not in the report yet. -/
def unreported (phase : Phase) : List Route :=
  phase.workers.flatMap fun worker => worker.accepted.map Prod.snd

/-- The names of accepted messages whose deletion has not been asked for yet. -/
def due : Phase → List MessageId
  | delivering _ workers joined =>
      joined ++ workers.flatMap fun worker => worker.accepted.map Prod.fst
  | deleting _ accepted => accepted
  | _ => []

end Phase

/-- How many messages have left in a way, by the report. -/
def leftBy (report : FlushReport) : Route → Nat
  | .direct => report.direct
  | .relayed => report.relayed

/-- The ways in which messages have left. -/
def routes (messages : List (QueuedMessage × Route)) : List Route := messages.map Prod.snd

/-- The names of messages that have left. -/
def names (messages : List (QueuedMessage × Route)) : List MessageId :=
  messages.map fun accepted => accepted.1.id

@[simp] theorem routes_append (first second : List (QueuedMessage × Route)) :
    routes (first ++ second) = routes first ++ routes second :=
  List.map_append

@[simp] theorem names_append (first second : List (QueuedMessage × Route)) :
    names (first ++ second) = names first ++ names second :=
  List.map_append

/-- The last call asks for a count, no call before it does, and its answer is what the report says
is left. -/
def CountedLast (report : FlushReport) (calls : List Call) : Prop :=
  ∃ before answer, calls = before ++ [.count answer] ∧ (∀ call ∈ before, ¬ call.Counts) ∧
    report.pending = pending report answer

/-- What holds at every moment of a flush. -/
structure Balanced (state : State) : Prop where
  attempted : state.report.attempted = (listed state.calls).length
  listed : ((accepted state.calls).map Prod.fst ++ state.phase.todo).Subperm (listed state.calls)
  left : ∀ route, leftBy state.report route + state.phase.unreported.count route +
    (routes (lost state.calls)).count route = (routes (accepted state.calls)).count route
  due : (deletes state.calls ++ state.phase.due ++ names (lost state.calls)).Perm
    (names (accepted state.calls))
  deleted : state.report.deleted = (deleted state.calls).length
  counted : match state.phase with
    | .over => CountedLast state.report state.calls
    | _ => ∀ call ∈ state.calls, ¬ call.Counts

theorem balanced_start (pageSize : Nat) : Balanced (start pageSize) where
  attempted := rfl
  listed := List.Subperm.refl _
  left := fun route => by cases route <;> rfl
  due := .refl _
  deleted := rfl
  counted := by simp [start]

theorem uncounted_concat {calls : List Call} {call : Call}
    (h : ∀ call ∈ calls, ¬ call.Counts) (hcall : ¬ call.Counts) :
    ∀ other ∈ calls ++ [call], ¬ other.Counts := by
  intro other hother
  rcases List.mem_append.mp hother with hother | hother
  · exact h other hother
  · exact List.mem_singleton.mp hother ▸ hcall

/-- The deletions that succeed are among those that are asked for. -/
theorem deleted_sublist (calls : List Call) : (deleted calls).Sublist (deletes calls) := by
  induction calls using List.reverseRecOn with
  | nil => exact .slnil
  | append_singleton calls call ih =>
      rw [deleted_concat, deletes_concat]
      refine ih.append ?_
      unfold Call.deleted? Call.deletes?
      split <;> split <;> simp_all

/-- Every accepted message left in one of two ways. -/
theorem length_eq_routes (messages : List (QueuedMessage × Route)) :
    messages.length = (routes messages).count .direct + (routes messages).count .relayed := by
  rw [← List.length_map Prod.snd]
  change (routes messages).length = _
  generalize routes messages = taken
  induction taken with
  | nil => rfl
  | cons route rest ih =>
      cases route <;> simp [ih] <;> omega

theorem leftBy_foldl_countRoute (taken : List Route) (report : FlushReport) (route : Route) :
    leftBy (taken.foldl countRoute report) route = leftBy report route + taken.count route := by
  rw [foldl_countRoute]
  cases route <;> rfl

/-! ## Workers -/

variable {peer : PeerId} {message : QueuedMessage} {todo page : List QueuedMessage}
  {held : List (MessageId × Route)} {stage stage' : Stage} {call : Call} {state next : State}

/-- The workers of a page have all of it before them. -/
theorem todo_workersFor (page : List QueuedMessage) :
    ((workersFor page).flatMap Worker.todo).Perm page := by
  rw [workersFor, List.flatMap_map]
  exact (sameByPeer_partition QueuedMessage.peer page).perm

theorem accepted_workersFor {α : Type} (page : List QueuedMessage) (f : MessageId × Route → α) :
    (workersFor page).flatMap (fun worker => worker.accepted.map f) = [] := by
  simp [workersFor]

/-- The calls of a worker are of its own kind. -/
theorem Stage.Step.kind (h : Stage.Step message stage call stage') :
    call.listed = [] ∧ call.deletes? = none ∧ call.deleted? = none ∧ call.broken? = none ∧
      ¬ call.Counts := by
  cases h <;> simp [Call.listed, Call.deletes?, Call.deleted?, Call.broken?, Call.Counts]

/-- So is the one in which it breaks off, with which nothing is accepted. -/
theorem Stage.Breaks.kind (h : Stage.Breaks message stage call) :
    call.listed = [] ∧ call.deletes? = none ∧ call.deleted? = none ∧ call.accepted? = none ∧
      ¬ call.Counts := by
  cases h <;> simp [Call.listed, Call.deletes?, Call.deleted?, Call.accepted?, Call.Counts]

theorem routes_reaching (h : Stage.Step message stage call stage') :
    (Worker.reaching peer message todo held stage').accepted.map Prod.snd =
      held.map Prod.snd ++ routes call.accepted?.toList := by
  rw [accepted_reaching h, List.map_append, List.map_map]
  rfl

theorem names_reaching (h : Stage.Step message stage call stage') :
    (Worker.reaching peer message todo held stage').accepted.map Prod.fst =
      held.map Prod.fst ++ names call.accepted?.toList := by
  rw [accepted_reaching h, List.map_append, List.map_map]
  rfl

/-- What is lost with a worker is what it holds. -/
theorem lost_of_breaks {calls : List Call} (h : Stage.Breaks message stage call)
    (hminds : Worker.Minds ⟨peer, message :: todo, stage, held⟩ (custodyOf calls)) :
    routes (lost (calls ++ [call])) = routes (lost calls) ++ held.map Prod.snd ∧
      names (lost (calls ++ [call])) = names (lost calls) ++ held.map Prod.fst := by
  have hpeer : message.peer = peer := hminds.todo message List.mem_cons_self
  have hheld : held = ((custodyOf calls).heldFor peer).map noted := hminds.holds
  have hlost : lost (calls ++ [call]) = lost calls ++ (custodyOf calls).heldFor peer := by
    rw [lost, custodyOf_concat, h.next, hpeer]
    rfl
  rw [hlost, hheld, List.map_map, List.map_map]
  exact ⟨List.map_append, List.map_append⟩

/-! ## Every step keeps the balance -/

namespace Balanced

theorem load {cursor cursor' : PageCursor} {report : FlushReport} {calls : List Call}
    (h : Balanced ⟨.loading cursor, report, calls⟩) :
    Balanced ⟨.delivering cursor' (workersFor page) [], { report with
      pages := report.pages + 1
      attempted := report.attempted + page.length },
      calls ++ [.list cursor.after cursor.pageSize (.ok page)]⟩ where
  attempted := by simpa [Call.listed] using h.attempted
  listed := by
    have hlisted := h.listed
    simp only [Phase.todo, Phase.workers, List.flatMap_nil, List.append_nil] at hlisted
    simp only [Phase.todo, Phase.workers, listed_concat, accepted_concat, Call.listed,
      Call.accepted?, Option.toList_none, List.append_nil]
    exact hlisted.append (todo_workersFor page).subperm
  left := fun route => by
    have hleft := h.left route
    rw [lost_concat calls rfl]
    cases route <;>
      simpa [leftBy, Phase.unreported, Phase.workers, accepted_workersFor, Call.accepted?]
        using hleft
  due := by
    rw [lost_concat calls rfl]
    simpa [Phase.due, accepted_workersFor, Call.accepted?, Call.deletes?] using h.due
  deleted := by simpa [Call.deleted?] using h.deleted
  counted := by simpa [or_imp, forall_and, Call.Counts] using h.counted

theorem work {cursor : PageCursor} {before after : List Worker} {joined : List MessageId}
    {report : FlushReport} {calls : List Call} (hstep : Stage.Step message stage call stage')
    (h : Balanced ⟨.delivering cursor (before ++ ⟨peer, message :: todo, stage, held⟩ :: after)
      joined, report, calls⟩) :
    Balanced ⟨.delivering cursor (before ++ Worker.reaching peer message todo held stage' :: after)
      joined, report, calls ++ [call]⟩ := by
  obtain ⟨hlisted, hdeletes, hdeleted, hbroken, hcounts⟩ := hstep.kind
  constructor
  case attempted => simpa [hlisted] using h.attempted
  case deleted => simpa [hdeleted] using h.deleted
  case left =>
    intro route
    have hleft := h.left route
    simp only [lost_concat calls hbroken, accepted_concat, routes_append, Phase.unreported,
      Phase.workers, List.flatMap_append, List.flatMap_cons, routes_reaching hstep,
      List.count_append] at hleft ⊢
    omega
  case counted => exact uncounted_concat h.counted hcounts
  case due =>
    refine List.perm_iff_count.mpr fun id => ?_
    have hdue := h.due.count_eq id
    simp only [lost_concat calls hbroken, accepted_concat, names_append, deletes_concat, hdeletes,
      Phase.due, names_reaching hstep, List.flatMap_append, List.flatMap_cons, List.count_append,
      Option.toList_none, List.append_nil] at hdue ⊢
    omega
  case listed =>
    -- a message that is over moves to the accepted ones, or to neither
    rw [listed_concat, hlisted, List.append_nil, accepted_concat]
    refine List.Subperm.trans ?_ h.listed
    simp only [Phase.todo, Phase.workers, List.flatMap_append, List.flatMap_cons, List.map_append,
      List.append_assoc]
    refine (List.Subperm.refl _).append ?_
    have hmoved := List.perm_append_comm_assoc (call.accepted?.toList.map Prod.fst)
      (before.flatMap Worker.todo)
      ((Worker.reaching peer message todo held stage').todo ++ after.flatMap Worker.todo)
    have hpart := (@todo_reaching _ _ _ _ peer todo held hstep).subperm
    refine hmoved.subperm.trans ((List.Subperm.refl _).append ?_)
    rw [← List.append_assoc]
    exact hpart.append (.refl _)

/-- What a worker holds is lost when it breaks off, and no longer due. -/
theorem breakOff {cursor : PageCursor} {before after : List Worker} {joined : List MessageId}
    {report : FlushReport} {calls : List Call} (hbreaks : Stage.Breaks message stage call)
    (hminds : Worker.Minds ⟨peer, message :: todo, stage, held⟩ (custodyOf calls))
    (h : Balanced ⟨.delivering cursor (before ++ ⟨peer, message :: todo, stage, held⟩ :: after)
      joined, report, calls⟩) :
    Balanced ⟨.delivering cursor (before ++ after) joined, report, calls ++ [call]⟩ := by
  obtain ⟨hlisted, hdeletes, hdeleted, haccepted, hcounts⟩ := hbreaks.kind
  obtain ⟨hroutes, hnames⟩ := lost_of_breaks hbreaks hminds
  constructor
  case attempted => simpa [hlisted] using h.attempted
  case deleted => simpa [hdeleted] using h.deleted
  case left =>
    intro route
    have hleft := h.left route
    simp only [hroutes, accepted_concat, haccepted, Option.toList_none, List.append_nil,
      Phase.unreported, Phase.workers, List.flatMap_append, List.flatMap_cons,
      List.count_append] at hleft ⊢
    omega
  case counted => exact uncounted_concat h.counted hcounts
  case due =>
    refine List.perm_iff_count.mpr fun id => ?_
    have hdue := h.due.count_eq id
    simp only [hnames, accepted_concat, haccepted, deletes_concat, hdeletes, Phase.due,
      List.flatMap_append, List.flatMap_cons, List.count_append, Option.toList_none,
      List.append_nil] at hdue ⊢
    omega
  case listed =>
    rw [listed_concat, hlisted, accepted_concat, haccepted, Option.toList_none, List.append_nil,
      List.append_nil]
    refine List.Subperm.trans ?_ h.listed
    have hfewer : ((before ++ after).flatMap Worker.todo).Sublist
        ((before ++ ⟨peer, message :: todo, stage, held⟩ :: after).flatMap Worker.todo) := by
      simp only [List.flatMap_append, List.flatMap_cons]
      exact (List.sublist_append_right _ _).append_left _
    exact (hfewer.append_left _).subperm

theorem join {cursor : PageCursor} {before after : List Worker} {joined : List MessageId}
    {report : FlushReport} {calls : List Call}
    (h : Balanced ⟨.delivering cursor (before ++ ⟨peer, [], stage, held⟩ :: after) joined, report,
      calls⟩) :
    Balanced ⟨.delivering cursor (before ++ after) (joined ++ held.map Prod.fst),
      (held.map Prod.snd).foldl countRoute report, calls⟩ where
  attempted := by simpa [foldl_countRoute] using h.attempted
  listed := by simpa [Phase.todo, Phase.workers] using h.listed
  left := fun route => by
    have hleft := h.left route
    simp only [Phase.unreported, Phase.workers, List.flatMap_append, List.flatMap_cons,
      List.count_append, leftBy_foldl_countRoute] at hleft ⊢
    omega
  due := by
    refine List.perm_iff_count.mpr fun id => ?_
    have hdue := h.due.count_eq id
    simp only [Phase.due, List.flatMap_append, List.flatMap_cons, List.count_append] at hdue ⊢
    omega
  deleted := by simpa [foldl_countRoute] using h.deleted
  counted := h.counted

/-- The flush makes a call itself, while no worker is busy, and no message is listed by it.  That
leaves the account as it is, but for a deletion, which is then no longer due. -/
theorem alone (h : Balanced state) (hcalls : next.calls = state.calls ++ [call])
    (hbefore : state.phase.workers = []) (hafter : next.phase.workers = [])
    (hquiet : call.listed = [] ∧ call.accepted? = none ∧ call.broken? = none)
    (hattempted : next.report.attempted = state.report.attempted)
    (hleft : leftBy next.report = leftBy state.report)
    (hdue : call.deletes?.toList ++ next.phase.due = state.phase.due)
    (hdeleted : next.report.deleted = state.report.deleted + call.deleted?.toList.length)
    (hcounted : match next.phase with
      | .over => CountedLast next.report next.calls
      | _ => ∀ call ∈ next.calls, ¬ call.Counts) : Balanced next := by
  obtain ⟨hlisted, haccepted, hbroken⟩ := hquiet
  have hlost : lost next.calls = lost state.calls := hcalls ▸ lost_concat state.calls hbroken
  have hsame : accepted next.calls = accepted state.calls := by
    rw [hcalls, accepted_concat, haccepted, Option.toList_none, List.append_nil]
  have hpages : Courier.listed next.calls = Courier.listed state.calls := by
    rw [hcalls, listed_concat, hlisted, List.append_nil]
  constructor
  case attempted => rw [hattempted, hpages, h.attempted]
  case listed =>
    have htodo : next.phase.todo = state.phase.todo := by
      rw [Phase.todo, Phase.todo, hbefore, hafter]
    rw [hsame, hpages, htodo]
    exact h.listed
  case left =>
    have hunreported : next.phase.unreported = state.phase.unreported := by
      rw [Phase.unreported, Phase.unreported, hbefore, hafter]
    rw [hsame, hlost, hunreported, hleft]
    exact h.left
  case due =>
    rw [hsame, hlost, hcalls, deletes_concat, List.append_assoc (deletes _), hdue]
    exact h.due
  case deleted => rw [hdeleted, hcalls, deleted_concat, List.length_append, h.deleted]
  case counted => exact hcounted

/-- **Every step keeps the balance**, whatever a call is answered, as long as the workers are in
charge of what has been accepted. -/
theorem step (h : Balanced state) (hmanned : Manned state.phase.workers (custodyOf state.calls))
    (hstep : Step state next) : Balanced next := by
  cases hstep with
  | load => exact h.load
  | @loadEmpty cursor report calls page hadvance =>
      -- only a page without names does not move the cursor, so nothing was listed
      have hempty : page = [] := by
        by_contra hne
        have hids : page.map QueuedMessage.id ≠ [] := fun hnil => hne (List.map_eq_nil_iff.mp hnil)
        obtain ⟨last, hsome, -⟩ := cursor.advance?_of_ne_nil hids
        rw [hsome] at hadvance
        cases hadvance
      subst hempty
      exact h.alone rfl rfl rfl ⟨rfl, rfl, rfl⟩ rfl rfl rfl rfl (uncounted_concat h.counted id)
  | loadFails fault =>
      exact h.alone rfl rfl rfl ⟨rfl, rfl, rfl⟩ rfl rfl rfl rfl (uncounted_concat h.counted id)
  | work hcall => exact h.work hcall
  | breakOff hbreaks => exact h.breakOff hbreaks hmanned.middle.1
  | join => exact h.join
  | settle =>
      exact ⟨h.attempted, h.listed, h.left, by simpa [Phase.due] using h.due, h.deleted, h.counted⟩
  | delete existed =>
      exact h.alone rfl rfl rfl ⟨rfl, rfl, rfl⟩ rfl rfl rfl rfl (uncounted_concat h.counted id)
  | deleteFails fault =>
      exact h.alone rfl rfl rfl ⟨rfl, rfl, rfl⟩ rfl rfl rfl rfl (uncounted_concat h.counted id)
  | turn => exact ⟨h.attempted, h.listed, h.left, h.due, h.deleted, h.counted⟩
  | count answer =>
      exact h.alone rfl rfl rfl ⟨rfl, rfl, rfl⟩ rfl rfl rfl rfl
        ⟨_, answer, rfl, h.counted, by cases answer <;> rfl⟩

end Balanced

theorem balanced_of_steps {pageSize : Nat} (h : Steps (start pageSize) state) :
    Balanced state ∧ Manned state.phase.workers (custodyOf state.calls) := by
  induction h with
  | refl => exact ⟨balanced_start pageSize, .nil _⟩
  | tail _ hstep ih => exact ⟨ih.1.step ih.2 hstep, ih.2.step hstep⟩

/-- A step makes one call or none. -/
theorem Step.calls_eq (h : Step state next) :
    next.calls = state.calls ∨ ∃ call, next.calls = state.calls ++ [call] := by
  cases h with
  | load | loadEmpty | loadFails | work | breakOff | delete | deleteFails | count =>
      exact .inr ⟨_, rfl⟩
  | join | settle | turn => exact .inl rfl

/-- A flush has been at every beginning of its calls. -/
theorem steps_of_prefix {earlier : List Call} {pageSize : Nat} (h : Steps (start pageSize) state)
    (hearlier : earlier <+: state.calls) :
    ∃ before, Steps (start pageSize) before ∧ before.calls = earlier := by
  induction h with
  | refl => exact ⟨start pageSize, .refl, (List.prefix_nil.mp hearlier).symm⟩
  | tail hsteps hstep ih =>
      rcases hstep.calls_eq with heq | ⟨call, heq⟩
      · exact ih (heq ▸ hearlier)
      · rw [heq, List.prefix_concat_iff] at hearlier
        rcases hearlier with rfl | hearlier
        · exact ⟨_, hsteps.tail hstep, heq⟩
        · exact ih hearlier

/-! ## What a report says -/

/-- What the report of a flush says about its calls. -/
structure Accounted (report : FlushReport) (calls : List Call) : Prop where
  attempted : report.attempted = (listed calls).length
  /-- So many messages were taken by a connection, and so many by a relay, but for what is lost. -/
  direct : report.direct + (routes (lost calls)).count .direct =
    (routes (accepted calls)).count .direct
  relayed : report.relayed + (routes (lost calls)).count .relayed =
    (routes (accepted calls)).count .relayed
  /-- Altogether that is what was accepted but not lost. -/
  accepted : report.direct + report.relayed + (lost calls).length = (accepted calls).length
  /-- If no worker has broken off it is all that was accepted. -/
  whole : (∀ call ∈ calls, call.broken? = none) →
    report.direct + report.relayed = (Courier.accepted calls).length
  /-- What is lost was accepted, and what was accepted was listed. -/
  lost_accepted : (lost calls).Subperm (Courier.accepted calls)
  accepted_listed : ((Courier.accepted calls).map Prod.fst).Subperm (listed calls)
  accepted_le : report.direct + report.relayed ≤ report.attempted
  /-- At any time the deletions asked for are of messages accepted before, each once. -/
  deletes_accepted : ∀ earlier, earlier <+: calls →
    (deletes earlier).Subperm (names (Courier.accepted earlier))
  /-- In the end no accepted message is left out that is not lost. -/
  deletes : (Courier.deletes calls ++ names (lost calls)).Perm (names (Courier.accepted calls))
  /-- So many deletions have not failed. -/
  deleted : report.deleted = (Courier.deleted calls).length
  deleted_le : report.deleted ≤ report.direct + report.relayed
  counted : CountedLast report calls

variable {pageSize : Nat}

/-- Nothing is to be deleted that was not accepted before, and nothing twice. -/
theorem deletes_subperm (h : Steps (start pageSize) state) :
    (deletes state.calls).Subperm (names (accepted state.calls)) := by
  have hdue := (balanced_of_steps h).1.due
  rw [List.append_assoc] at hdue
  exact (List.sublist_append_left _ _).subperm.trans hdue.subperm

/-- A flush that is over has accounted for its calls. -/
theorem accounted (h : Steps (start pageSize) state) (hover : state.phase = .over) :
    Accounted state.report state.calls := by
  have hbalanced := (balanced_of_steps h).1
  have hleft := hbalanced.left
  have hlisted := hbalanced.listed
  have hcounted := hbalanced.counted
  have hdeletes := hbalanced.due
  simp only [hover, Phase.unreported, Phase.workers, List.flatMap_nil, List.count_nil,
    Nat.add_zero] at hleft
  simp only [hover, Phase.todo, Phase.workers, List.flatMap_nil, List.append_nil] at hlisted
  simp only [hover] at hcounted
  simp only [hover, Phase.due, List.append_nil] at hdeletes
  have hdirect := hleft .direct
  have hrelayed := hleft .relayed
  simp only [leftBy] at hdirect hrelayed
  have haccepted : state.report.direct + state.report.relayed + (lost state.calls).length =
      (accepted state.calls).length := by
    rw [length_eq_routes (accepted state.calls), length_eq_routes (lost state.calls)]
    omega
  have hnames : (deletes state.calls).length + (lost state.calls).length =
      (accepted state.calls).length := by
    simpa [names] using hdeletes.length_eq
  have hattempted : (accepted state.calls).length ≤ (listed state.calls).length := by
    simpa using hlisted.length_le
  refine ⟨hbalanced.attempted, hdirect, hrelayed, haccepted, ?_, lost_subperm _, hlisted, ?_, ?_,
    hdeletes, hbalanced.deleted, ?_, hcounted⟩
  · intro hwhole
    rw [← haccepted, lost_eq_nil hwhole, List.length_nil, Nat.add_zero]
  · have hlength := hbalanced.attempted
    omega
  · intro earlier hearlier
    obtain ⟨before, hbefore, rfl⟩ := steps_of_prefix h hearlier
    exact deletes_subperm hbefore
  · have hfewer := (deleted_sublist state.calls).length_le
    have hlength := hbalanced.deleted
    omega

end PeerMail.Courier
