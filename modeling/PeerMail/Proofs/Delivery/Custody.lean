import Mathlib.Data.List.Induction
import Mathlib.Data.List.Perm.Subperm
import PeerMail.Proofs.Delivery.Calls
import PeerMail.Proofs.Delivery.Grouping

/-!
# What goes down with a worker

A worker keeps to itself what has been accepted for it until it hands it in.  If it breaks off
before, the flush never learns of these messages: they are lost to its report, and stay in the
queue.  `lost` reads them off the calls, and knows nothing of the workers.

That this is what the workers hold is an invariant (`Manned`): each destination has at most one
worker, and this worker holds what has been accepted for the destination on the page.  Every step
keeps it (`Manned.step`).
-/

namespace PeerMail.Courier

/-! ## What becomes of accepted messages -/

/-- Where accepted messages are. -/
structure Custody where
  /-- Accepted on the last page, for workers that have not broken off. -/
  held : List (QueuedMessage × Route)
  /-- Accepted for workers that have broken off since. -/
  lost : List (QueuedMessage × Route)

namespace Custody

/-- What is held for a destination. -/
def heldFor (custody : Custody) (peer : PeerId) : List (QueuedMessage × Route) :=
  custody.held.filter fun accepted => accepted.1.peer == peer

/-- What is held for other destinations. -/
def heldBeside (custody : Custody) (peer : PeerId) : List (QueuedMessage × Route) :=
  custody.held.filter fun accepted => !(accepted.1.peer == peer)

/-- A worker that breaks off takes along what is held for its destination.  With the next page
nothing is held any more. -/
def next (custody : Custody) : Call → Custody
  | .list _ _ _ => ⟨[], custody.lost⟩
  | call =>
      match call.broken? with
      | none => ⟨custody.held ++ call.accepted?.toList, custody.lost⟩
      | some message =>
          ⟨custody.heldBeside message.peer, custody.lost ++ custody.heldFor message.peer⟩

end Custody

/-- Where the accepted messages are after some calls. -/
def custodyOf (calls : List Call) : Custody := calls.foldl Custody.next ⟨[], []⟩

/-- The messages that were accepted for a worker which broke off later on the same page. -/
def lost (calls : List Call) : List (QueuedMessage × Route) := (custodyOf calls).lost

variable {message : QueuedMessage} {stage stage' : Stage} {call : Call} {calls : List Call}
  {custody : Custody}

theorem custodyOf_concat (calls : List Call) (call : Call) :
    custodyOf (calls ++ [call]) = (custodyOf calls).next call := by
  simp [custodyOf]

/-! ## One more call -/

/-- A call that is answered breaks off nothing, and what it accepts is the message itself. -/
theorem Stage.Step.next (h : Stage.Step message stage call stage') :
    custody.next call = ⟨custody.held ++ call.accepted?.toList, custody.lost⟩ := by
  cases h <;> rfl

theorem Stage.Step.message_of_accepted (h : Stage.Step message stage call stage') :
    ∀ accepted ∈ call.accepted?, accepted.1 = message := by
  cases h <;> rintro _ ⟨⟩ <;> rfl

theorem Stage.Breaks.next (h : Stage.Breaks message stage call) :
    custody.next call =
      ⟨custody.heldBeside message.peer, custody.lost ++ custody.heldFor message.peer⟩ := by
  cases h <;> rfl

theorem accepted?_of_broken (h : call.broken? = some message) : call.accepted? = none := by
  unfold Call.broken? at h
  split at h <;> first | rfl | cases h

theorem Custody.perm_held (custody : Custody) (peer : PeerId) :
    (custody.heldBeside peer ++ custody.heldFor peer).Perm custody.held :=
  List.perm_append_comm.trans (List.filter_append_perm _ custody.held)

/-- A call adds what it accepts, and nothing else. -/
theorem Custody.next_subperm (custody : Custody) (call : Call) :
    ((custody.next call).held ++ (custody.next call).lost).Subperm
      (custody.held ++ custody.lost ++ call.accepted?.toList) := by
  unfold Custody.next
  split
  · simpa [Call.accepted?] using (List.sublist_append_right custody.held custody.lost).subperm
  · split
    · simpa using (List.perm_append_comm.append_left custody.held).subperm
    · next message hbroken =>
        -- the worker takes along a part of what is held
        have hperm : (custody.heldBeside message.peer ++
            (custody.lost ++ custody.heldFor message.peer)).Perm (custody.held ++ custody.lost) := by
          refine (List.perm_append_comm.append_left _).trans ?_
          rw [← List.append_assoc]
          exact (custody.perm_held message.peer).append_right custody.lost
        simpa [accepted?_of_broken hbroken] using hperm.subperm

/-- What is held or lost has been accepted, and no message is counted twice. -/
theorem custodyOf_subperm (calls : List Call) :
    ((custodyOf calls).held ++ lost calls).Subperm (accepted calls) := by
  induction calls using List.reverseRecOn with
  | nil => exact .refl _
  | append_singleton calls call ih =>
      have hnext := (custodyOf calls).next_subperm call
      rw [lost, custodyOf_concat, accepted_concat]
      exact hnext.trans (ih.append (.refl _))

/-- What is lost was accepted. -/
theorem lost_subperm (calls : List Call) : (lost calls).Subperm (accepted calls) :=
  (List.sublist_append_right _ _).subperm.trans (custodyOf_subperm calls)

/-- Only a worker that breaks off adds to what is lost. -/
theorem lost_concat (calls : List Call) (h : call.broken? = none) :
    lost (calls ++ [call]) = lost calls := by
  rw [lost, custodyOf_concat]
  unfold Custody.next
  split
  · rfl
  · rw [h]
    rfl

/-- Without a worker that breaks off nothing is lost. -/
theorem lost_eq_nil (h : ∀ call ∈ calls, call.broken? = none) : lost calls = [] := by
  induction calls using List.reverseRecOn with
  | nil => rfl
  | append_singleton calls call ih =>
      rw [lost_concat calls (h call (List.mem_append_right _ List.mem_cons_self))]
      exact ih fun other hother => h other (List.mem_append_left _ hother)

/-! ## What the workers hold -/

/-- What a worker notes of an accepted message. -/
def noted (accepted : QueuedMessage × Route) : MessageId × Route := (accepted.1.id, accepted.2)

/-- A worker has messages for its destination only, and holds what has been accepted for it. -/
structure Worker.Minds (worker : Worker) (custody : Custody) : Prop where
  todo : ∀ message ∈ worker.todo, message.peer = worker.peer
  holds : worker.accepted = (custody.heldFor worker.peer).map noted

/-- Every worker has a destination of its own, and minds it. -/
structure Manned (workers : List Worker) (custody : Custody) : Prop where
  apart : (workers.map Worker.peer).Nodup
  minds : ∀ worker ∈ workers, worker.Minds custody

/-- The workers that are busy. -/
def Phase.workers : Phase → List Worker
  | delivering _ workers _ => workers
  | _ => []

variable {peer : PeerId} {todo : List QueuedMessage} {held : List (MessageId × Route)}
  {before after : List Worker} {worker : Worker}

/-- What a worker holds after a call is what it held before, and the message if it was accepted. -/
theorem accepted_reaching (h : Stage.Step message stage call stage') :
    (Worker.reaching peer message todo held stage').accepted =
      held ++ call.accepted?.toList.map noted := by
  cases h <;> simp [Worker.reaching, Call.accepted?, Except.toOption, noted]

/-- A message that was accepted is not attempted again. -/
theorem todo_reaching (h : Stage.Step message stage call stage') :
    (call.accepted?.toList.map Prod.fst ++
      (Worker.reaching peer message todo held stage').todo).Sublist (message :: todo) := by
  cases h <;> simp [Worker.reaching, Call.accepted?]

theorem peer_reaching (stage : Stage) :
    (Worker.reaching peer message todo held stage).peer = peer := by
  cases stage <;> rfl

/-- What is accepted for a destination is held there. -/
theorem Worker.Minds.work (h : Worker.Minds ⟨peer, message :: todo, stage, held⟩ custody)
    (hstep : Stage.Step message stage call stage') :
    Worker.Minds (Worker.reaching peer message todo held stage')
      ⟨custody.held ++ call.accepted?.toList, custody.lost⟩ := by
  have hpeer : message.peer = peer := h.todo message List.mem_cons_self
  have hfewer := (List.sublist_append_right _ _).trans (@todo_reaching _ _ _ _ peer todo held hstep)
  constructor
  · intro other hother
    rw [peer_reaching]
    exact h.todo other (hfewer.subset hother)
  · have hown : call.accepted?.toList.filter (fun accepted => accepted.1.peer == peer) =
        call.accepted?.toList := by
      refine List.filter_eq_self.mpr fun accepted haccepted => ?_
      rw [hstep.message_of_accepted accepted (Option.mem_toList.mp haccepted), hpeer]
      exact beq_self_eq_true peer
    have hheld : held = (custody.heldFor peer).map noted := h.holds
    rw [accepted_reaching hstep, peer_reaching, hheld, ← List.map_append]
    refine congrArg (List.map noted) ?_
    rw [Custody.heldFor, Custody.heldFor, List.filter_append, hown]

/-- What is accepted for another destination is not. -/
theorem Worker.Minds.beside (h : worker.Minds custody) (hne : worker.peer ≠ message.peer)
    (hstep : Stage.Step message stage call stage') :
    worker.Minds ⟨custody.held ++ call.accepted?.toList, custody.lost⟩ where
  todo := h.todo
  holds := by
    have hother : call.accepted?.toList.filter (fun accepted => accepted.1.peer == worker.peer) =
        [] := by
      refine List.filter_eq_nil_iff.mpr fun accepted haccepted heq => hne ?_
      rw [← eq_of_beq heq, hstep.message_of_accepted accepted (Option.mem_toList.mp haccepted)]
    rw [h.holds, Custody.heldFor, Custody.heldFor, List.filter_append, hother, List.append_nil]

/-- What another worker takes along was not held here. -/
theorem Worker.Minds.broken (h : worker.Minds custody) (hne : worker.peer ≠ peer)
    (lost : List (QueuedMessage × Route)) : worker.Minds ⟨custody.heldBeside peer, lost⟩ where
  todo := h.todo
  holds := by
    rw [h.holds, Custody.heldFor, Custody.heldFor, Custody.heldBeside, List.filter_filter]
    congr 1
    refine List.filter_congr fun accepted _ => ?_
    by_cases heq : accepted.1.peer = worker.peer
    · simp [heq, hne]
    · simp [heq]

namespace Manned

/-- The workers of a page begin with nothing. -/
theorem begin (page : List QueuedMessage) (lost : List (QueuedMessage × Route)) :
    Manned (workersFor page) ⟨[], lost⟩ where
  apart := by
    have hpeers : (workersFor page).map Worker.peer = destinations QueuedMessage.peer page := by
      rw [workersFor, List.map_map, ← map_peer_partitionByPeer]
      rfl
    exact hpeers ▸ nodup_destinations _ _
  minds := by
    intro worker hworker
    obtain ⟨group, hgroup, rfl⟩ := List.mem_map.mp hworker
    exact ⟨fun message => peer_of_mem_partitionByPeer hgroup, rfl⟩

theorem nil (custody : Custody) : Manned [] custody := ⟨List.nodup_nil, by simp⟩

/-- The worker in the middle is alone with its destination. -/
theorem middle (h : Manned (before ++ worker :: after) custody) :
    worker.Minds custody ∧ Manned (before ++ after) custody ∧
      ∀ other ∈ before ++ after, other.peer ≠ worker.peer := by
  have hapart := h.apart
  rw [List.map_append, List.map_cons, List.nodup_middle, List.nodup_cons, ← List.map_append]
    at hapart
  have hfewer : before ++ after ⊆ before ++ worker :: after :=
    ((List.sublist_cons_self worker after).append_left before).subset
  refine ⟨h.minds worker (by simp), ⟨hapart.2, fun other hother => h.minds other (hfewer hother)⟩,
    fun other hother heq => hapart.1 ?_⟩
  exact heq ▸ List.mem_map_of_mem hother

theorem insert (h : Manned (before ++ after) custody) (hminds : worker.Minds custody)
    (hne : ∀ other ∈ before ++ after, other.peer ≠ worker.peer) :
    Manned (before ++ worker :: after) custody where
  apart := by
    rw [List.map_append, List.map_cons, List.nodup_middle, List.nodup_cons, ← List.map_append]
    refine ⟨fun hmem => ?_, h.apart⟩
    obtain ⟨other, hother, heq⟩ := List.mem_map.mp hmem
    exact hne other hother heq
  minds := by
    intro other hother
    rcases List.mem_append.mp hother with hbefore | hother
    · exact h.minds other (List.mem_append_left _ hbefore)
    · rcases List.mem_cons.mp hother with rfl | hafter
      · exact hminds
      · exact h.minds other (List.mem_append_right _ hafter)

/-- **Every step keeps the workers in charge of what has been accepted.** -/
theorem step {state next : State} (h : Manned state.phase.workers (custodyOf state.calls))
    (hstep : Step state next) : Manned next.phase.workers (custodyOf next.calls) := by
  cases hstep with
  | load =>
      rw [custodyOf_concat]
      exact begin _ _
  | work hcall =>
      obtain ⟨hminds, hothers, hne⟩ := middle h
      have hpeer := hminds.todo _ List.mem_cons_self
      rw [custodyOf_concat, hcall.next]
      refine insert ⟨hothers.apart, fun other hother => ?_⟩ (hminds.work hcall) ?_
      · exact (hothers.minds other hother).beside (hpeer ▸ hne other hother) hcall
      · rw [peer_reaching]
        exact hne
  | breakOff hbreaks =>
      obtain ⟨hminds, hothers, hne⟩ := middle h
      have hpeer := hminds.todo _ List.mem_cons_self
      rw [custodyOf_concat, hbreaks.next]
      exact ⟨hothers.apart, fun other hother =>
        (hothers.minds other hother).broken (hpeer ▸ hne other hother) _⟩
  | join => exact (middle h).2.1
  | loadEmpty | loadFails | settle | delete | deleteFails | turn | count => exact nil _

end Manned

end PeerMail.Courier
