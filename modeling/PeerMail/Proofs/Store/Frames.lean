import PeerMail.Proofs.Fallible
import PeerMail.Proofs.Store.Tables
import PeerMail.Store.Database

/-!
# Which tables an operation touches

Every operation of the database gets one lemma that says when it succeeds and with
which database.  What it leaves alone is then read off: operations on the queue keep
the members of threads, the contacts and the pointers (`SameDirectory`), also
`listMessages`, which changes the database even when it fails.
-/

namespace PeerMail.Database

variable {db next : Database}

@[simp] theorem require_eq_ok_iff {α : Type} {name : String} {found : Option α} {table : α} :
    require name found = .ok table ↔ found = some table := by
  cases found <;> simp [require]

@[simp] theorem unique_eq_ok_iff {α : Type} {name : String} {made : Option α} {table : α} :
    unique name made = .ok table ↔ made = some table := by
  cases made <;> simp [unique]

/-! ## The directory -/

/-- The two databases differ at most in the queue and the rows set aside. -/
structure SameDirectory (before after : Database) : Prop where
  members : after.members = before.members
  contacts : after.contacts = before.contacts
  pointers : after.pointers = before.pointers
  queueLocked : after.queueLocked = before.queueLocked

namespace SameDirectory

theorem refl (db : Database) : SameDirectory db db := ⟨rfl, rfl, rfl, rfl⟩

theorem trans {first second third : Database} (h₁ : SameDirectory first second)
    (h₂ : SameDirectory second third) : SameDirectory first third :=
  ⟨h₂.members.trans h₁.members, h₂.contacts.trans h₁.contacts, h₂.pointers.trans h₁.pointers,
    h₂.queueLocked.trans h₁.queueLocked⟩

end SameDirectory

/-! ## The queue -/

theorem addRow_eq_ok_iff {row : QueueRow} :
    db.addRow row = .ok next ↔ ∃ queue, db.queue = some queue ∧ queue.find? row.id = none ∧
      next = { db with queue := some (queue.put row) } := by
  simp only [addRow, bind_eq_ok_iff, require_eq_ok_iff, unique_eq_ok_iff,
    Table.insert?_eq_some_iff, pure_eq_ok_iff]
  constructor
  · rintro ⟨queue, hqueue, _, ⟨hnew, rfl⟩, rfl⟩
    exact ⟨queue, hqueue, hnew, rfl⟩
  · rintro ⟨queue, hqueue, hnew, rfl⟩
    exact ⟨queue, hqueue, _, ⟨hnew, rfl⟩, rfl⟩

theorem deleteRow_eq_ok_iff {id : Bytes} {existed : Bool} :
    db.deleteRow id = .ok (existed, next) ↔ ∃ queue, db.queue = some queue ∧
      existed = (queue.find? id).isSome ∧ (existed = true → db.queueLocked = false) ∧
        next = { db with queue := some (queue.erase id) } := by
  simp only [deleteRow, bind_eq_ok_iff, require_eq_ok_iff]
  refine exists_congr fun queue => and_congr_right fun hqueue => ?_
  cases hfound : queue.find? id with
  | none =>
      -- nothing is there to be erased, so both sides speak of the same database
      have hsame : { db with queue := some (queue.erase id) } = db := by
        rw [Table.erase_of_find?_eq_none hfound, ← hqueue]
      rw [hsame]
      simp only [pure_eq_ok_iff, Prod.mk.injEq, Option.isSome_none]
      constructor
      · rintro ⟨rfl, rfl⟩
        exact ⟨rfl, by simp, rfl⟩
      · rintro ⟨rfl, -, rfl⟩
        exact ⟨rfl, rfl⟩
  | some row =>
      by_cases hlocked : db.queueLocked = true
      · rw [if_pos hlocked]
        simp only [throw_eq_error, reduceCtorEq, Option.isSome_some, hlocked, false_iff]
        rintro ⟨rfl, hunlocked, -⟩
        simpa using hunlocked rfl
      · rw [if_neg hlocked]
        simp only [pure_eq_ok_iff, Prod.mk.injEq, Option.isSome_some]
        constructor
        · rintro ⟨rfl, rfl⟩
          exact ⟨rfl, fun _ => by simpa using hlocked, rfl⟩
        · rintro ⟨rfl, -, rfl⟩
          exact ⟨rfl, rfl⟩

/-- The rows set aside, with the row under a key put among them if there is one. -/
def withSetAside (queue : QueueTable) (id : Bytes) (reason : String)
    (quarantine : QuarantineTable) : QuarantineTable :=
  match queue.find? id with
  | some row => quarantine.put ⟨row, reason⟩
  | none => quarantine

theorem setAside_eq_ok_iff {id : Bytes} {reason : String} :
    db.setAside id reason = .ok next ↔ ∃ quarantine queue, db.quarantine = some quarantine ∧
      db.queue = some queue ∧ (queue.find? id ≠ none → db.queueLocked = false) ∧
        next = { db with
          queue := some (queue.erase id)
          quarantine := some (withSetAside queue id reason quarantine) } := by
  simp only [setAside, bind_eq_ok_iff, require_eq_ok_iff, pure_eq_ok_iff, Prod.exists,
    deleteRow_eq_ok_iff]
  constructor
  · rintro ⟨quarantine, hquarantine, queue, hqueue, existed, deleted, ⟨_, hsame, rfl, hunlocked,
      rfl⟩, rfl⟩
    cases hqueue.symm.trans hsame
    refine ⟨quarantine, queue, hquarantine, hqueue, fun hfound => hunlocked ?_, rfl⟩
    exact Option.isSome_iff_ne_none.mpr hfound
  · rintro ⟨quarantine, queue, hquarantine, hqueue, hunlocked, rfl⟩
    refine ⟨quarantine, hquarantine, queue, hqueue, _, _, ⟨queue, hqueue, rfl, fun hfound => ?_,
      rfl⟩, rfl⟩
    exact hunlocked (Option.isSome_iff_ne_none.mp hfound)

theorem addRow_sameDirectory {row : QueueRow} (h : db.addRow row = .ok next) :
    SameDirectory db next := by
  obtain ⟨queue, -, -, rfl⟩ := addRow_eq_ok_iff.mp h
  exact ⟨rfl, rfl, rfl, rfl⟩

theorem deleteRow_sameDirectory {id : Bytes} {existed : Bool}
    (h : db.deleteRow id = .ok (existed, next)) : SameDirectory db next := by
  obtain ⟨queue, -, -, -, rfl⟩ := deleteRow_eq_ok_iff.mp h
  exact ⟨rfl, rfl, rfl, rfl⟩

theorem setAside_sameDirectory {id : Bytes} {reason : String}
    (h : db.setAside id reason = .ok next) : SameDirectory db next := by
  obtain ⟨quarantine, queue, -, -, -, rfl⟩ := setAside_eq_ok_iff.mp h
  exact ⟨rfl, rfl, rfl, rfl⟩

theorem sweep_sameDirectory (db : Database) (rows : List QueueRow) :
    SameDirectory db (db.sweep rows).2 := by
  induction rows generalizing db with
  | nil => exact .refl db
  | cons row rest ih =>
      simp only [sweep]
      split
      · exact ih db
      · split
        · next next hset => exact (setAside_sameDirectory hset).trans (ih next)
        · exact .refl db

theorem listFrom_sameDirectory (bound : Bytes) (limit fuel : Nat) (db : Database) :
    SameDirectory db (db.listFrom bound limit fuel).2 := by
  induction fuel generalizing db with
  | zero => exact .refl db
  | succ fuel ih =>
      simp only [listFrom]
      split
      · exact .refl db
      · next queue _ =>
          have hsweep := sweep_sameDirectory db (page limit (queue.after bound))
          split
          · exact .refl db
          · split
            · next swept heq =>
                rw [heq] at hsweep
                exact hsweep.trans (ih swept)
            · exact hsweep

theorem listMessages_sameDirectory (db : Database) (after : Option MessageId) (limit : Nat) :
    SameDirectory db (db.listMessages after limit).2 :=
  listFrom_sameDirectory _ _ _ db

/-! ## Members, contacts and pointers -/

theorem addMember_eq_ok_iff {member : Member} :
    db.addMember member = .ok next ↔ ∃ members, db.members = some members ∧
      (∀ other ∈ members.rows, ¬ (other.peer = member.peer.bytes ∧
        other.thread = member.thread.bytes)) ∧
      members.find? (Utf8.encode member.row) = none ∧
        next = { db with members := some (members.put member.toRow) } := by
  simp only [addMember, addMemberRow, bind_eq_ok_iff, require_eq_ok_iff]
  refine exists_congr fun members => and_congr_right fun _ => ?_
  by_cases htaken : ∃ other ∈ members.rows, other.peer = member.peer.bytes ∧
      other.thread = member.thread.bytes
  · rw [if_pos (by simpa [Member.toRow] using htaken)]
    obtain ⟨other, hother, hboth⟩ := htaken
    constructor
    · intro h
      simp [bind, Except.bind] at h
    · intro h
      exact absurd hboth (h.1 other hother)
  · rw [if_neg (by simpa [Member.toRow] using htaken)]
    have hfree : ∀ other ∈ members.rows, ¬ (other.peer = member.peer.bytes ∧
        other.thread = member.thread.bytes) :=
      fun other hother hboth => htaken ⟨other, hother, hboth⟩
    simp only [bind_eq_ok_iff, unique_eq_ok_iff, pure_eq_ok_iff, Table.insert?_eq_some_iff]
    constructor
    · rintro ⟨_, ⟨hnew, rfl⟩, rfl⟩
      exact ⟨hfree, hnew, rfl⟩
    · rintro ⟨-, hnew, rfl⟩
      exact ⟨_, ⟨hnew, rfl⟩, rfl⟩

theorem setInboxes_members {peer : PeerId} {inboxes : List String}
    (h : db.setInboxes peer inboxes = .ok next) : next.members = db.members := by
  simp only [setInboxes, putContactRow, bind_eq_ok_iff, require_eq_ok_iff, pure_eq_ok_iff] at h
  obtain ⟨contacts, -, rfl⟩ := h
  rfl

theorem addPointer_members {pointer : Pointer} (h : db.addPointer pointer = .ok next) :
    next.members = db.members := by
  simp only [addPointer, putPointerRow, bind_eq_ok_iff, require_eq_ok_iff, pure_eq_ok_iff] at h
  obtain ⟨pointers, -, rfl⟩ := h
  rfl

theorem deletePointer_members {peer : PeerId} {existed : Bool}
    (h : db.deletePointer peer = .ok (existed, next)) : next.members = db.members := by
  simp only [deletePointer, bind_eq_ok_iff, require_eq_ok_iff] at h
  obtain ⟨pointers, -, h⟩ := h
  split at h
  · obtain ⟨-, rfl⟩ := Prod.mk.inj (pure_eq_ok_iff.mp h)
    rfl
  · obtain ⟨-, rfl⟩ := Prod.mk.inj (pure_eq_ok_iff.mp h)
    rfl

theorem lockQueue_members {locked : Bool} (h : db.lockQueue locked = .ok next) :
    next.members = db.members := by
  unfold lockQueue at h
  cases locked with
  | false => exact pure_eq_ok_iff.mp h ▸ rfl
  | true =>
      obtain ⟨queue, -, hnext⟩ := bind_eq_ok_iff.mp h
      exact pure_eq_ok_iff.mp hnext ▸ rfl

end PeerMail.Database
