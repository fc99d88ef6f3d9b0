import PeerMail.Delivery.Flush
import PeerMail.Proofs.Store.Frames

/-!
# What a flush keeps

A flush asks its services to list, deliver, delete and count, in an order that
depends on their answers.  Whatever the order is, a property that each of the four
keeps is kept by the flush (`Keeps.flush`).

The first such property is that members, contacts and pointers are those from
before.
-/

namespace PeerMail

namespace FlushServices

variable {World : Type} {services : FlushServices World} {P : World → Prop}

/-- Each of the services keeps a property of the world, also when it fails. -/
structure Keeps (services : FlushServices World) (P : World → Prop) : Prop where
  list : ∀ {world} after limit, P world → P (services.list world after limit).2
  deliver : ∀ {world} peer envelope, P world → P (services.deliver world peer envelope).2
  delete : ∀ {world} id, P world → P (services.delete world id).2
  count : ∀ {world}, P world → P (services.count world).2

namespace Keeps

variable {world : World}

theorem deliverGroup (h : services.Keeps P) (messages : List QueuedMessage)
    (hworld : P world) : P (services.deliverGroup messages world).2 := by
  induction messages generalizing world with
  | nil => exact hworld
  | cons message rest ih =>
      have hnext := h.deliver message.peer message.envelope hworld
      simp only [FlushServices.deliverGroup]
      split
      · next world heq =>
          rw [heq] at hnext
          exact hnext
      · next outcome world heq =>
          rw [heq] at hnext
          exact ih hnext

theorem deliverAll (h : services.Keeps P) (groups : List (PeerGroup QueuedMessage))
    (report : FlushReport) (hworld : P world) :
    P (services.deliverAll groups report world).2.2 := by
  induction groups generalizing report world with
  | nil => exact hworld
  | cons group rest ih =>
      have hnext := h.deliverGroup group.items hworld
      simp only [FlushServices.deliverAll]
      split
      · next world heq =>
          rw [heq] at hnext
          exact ih report hnext
      · next accepted world heq =>
          rw [heq] at hnext
          exact ih _ hnext

theorem deleteAll (h : services.Keeps P) (ids : List MessageId) (report : FlushReport)
    (hworld : P world) : P (services.deleteAll ids report world).2 := by
  induction ids generalizing report world with
  | nil => exact hworld
  | cons id rest ih =>
      have hnext := h.delete id hworld
      simp only [FlushServices.deleteAll]
      split
      · next existed world heq =>
          rw [heq] at hnext
          exact ih _ hnext
      · next fault world heq =>
          rw [heq] at hnext
          exact ih report hnext

theorem flushPage (h : services.Keeps P) (page : List QueuedMessage) (report : FlushReport)
    (hworld : P world) : P (services.flushPage page report world).2 :=
  h.deleteAll _ _ (h.deliverAll _ _ hworld)

theorem walk (h : services.Keeps P) (maxPages : Nat) (cursor : PageCursor) (report : FlushReport)
    (hworld : P world) : P (services.walk maxPages cursor report world).2 := by
  induction maxPages generalizing cursor report world with
  | zero => exact hworld
  | succ maxPages ih =>
      have hnext := h.list cursor.after cursor.pageSize hworld
      simp only [FlushServices.walk]
      split
      · next fault world heq =>
          rw [heq] at hnext
          exact hnext
      · next page world heq =>
          rw [heq] at hnext
          split
          · exact hnext
          · next cursor _ => exact ih cursor _ (h.flushPage page report hnext)

theorem flush (h : services.Keeps P) (maxPages pageSize : Nat) (hworld : P world) :
    P (services.flush maxPages pageSize world).2 := by
  have hwalk := h.walk maxPages (.start pageSize) {} hworld
  have hcount := h.count hwalk
  simp only [FlushServices.flush]
  split
  · next pending world heq =>
      rw [heq] at hcount
      exact hcount
  · next fault world heq =>
      rw [heq] at hcount
      exact hcount

end Keeps

end FlushServices

namespace Outgoing

variable {outgoing next : Outgoing}

theorem handOver_db {peer : PeerId} {envelope : Envelope}
    (h : outgoing.handOver peer envelope = .ok next) : next.db = outgoing.db := by
  simp only [handOver, bind_eq_ok_iff, mapError_eq_ok_iff] at h
  obtain ⟨found, -, h⟩ := h
  cases found with
  | none => simp at h
  | some contact =>
      by_cases hempty : contact.inboxes.isEmpty = true
      · simp [hempty, bind, Except.bind] at h
      · simp only [hempty, Bool.false_eq_true, if_false, bind_eq_ok_iff, pure_eq_ok_iff] at h
        obtain ⟨_, _, relay, -, rfl⟩ := h
        rfl

/-- A delivery does not touch the database. -/
theorem deliver_db (outgoing : Outgoing) (peer : PeerId) (envelope : Envelope) :
    (outgoing.deliver peer envelope).2.db = outgoing.db := by
  unfold deliver
  rcases outgoing.transport.deliver peer envelope with ⟨_ | _, transport⟩
  · dsimp only
    cases hhand : { outgoing with transport }.handOver peer envelope with
    | ok next =>
        have hdb := handOver_db hhand
        exact hdb
    | error reason => rfl
  · rfl

/-- The services touch the queue and the rows set aside, and no other table. -/
theorem services_keeps_directory (db : Database) :
    services.Keeps fun outgoing => db.SameDirectory outgoing.db where
  list after limit h := h.trans (Database.listMessages_sameDirectory _ after limit)
  deliver peer envelope h := by
    rw [show (services.deliver _ peer envelope).2.db = _ from deliver_db _ peer envelope]
    exact h
  delete id h := by
    simp only [services]
    split
    · next hdelete => exact h.trans (Database.deleteRow_sameDirectory hdelete)
    · exact h
  count h := h

theorem flush_sameDirectory (outgoing : Outgoing) (pageSize : Nat) :
    outgoing.db.SameDirectory (outgoing.flush pageSize).2.db :=
  (services_keeps_directory outgoing.db).flush _ pageSize (.refl outgoing.db)

end Outgoing

end PeerMail
