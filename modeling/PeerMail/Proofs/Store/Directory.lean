import Mathlib.Data.List.DropRight
import Mathlib.Data.List.Induction
import PeerMail.Proofs.Json.Strings
import PeerMail.Proofs.Store.Pointers

/-!
# Contacts and pointers after a history of changes

The contacts and the pointers are two maps in which the last change of a peer counts.  What they
have to say is read here off the list of all changes, with no table in between: the inboxes of a
peer are the last ones that were set for it, and its pointer is the last one that was added since
one was deleted.  `directory_tells` says that the database answers exactly that, whatever the
strings are made of and in whatever order the changes come.

One change does to the answers what it does to a map, in every database.  The induction is then on
the history, from its end.
-/

namespace PeerMail

/-- A change of the contacts or of the pointers. -/
inductive DirectoryChange where
  | setInboxes (peer : PeerId) (inboxes : List String)
  | addPointer (pointer : Pointer)
  | deletePointer (peer : PeerId)
deriving DecidableEq

namespace DirectoryChange

/-- The peer that a change is about. -/
def peer : DirectoryChange → PeerId
  | setInboxes peer _ => peer
  | addPointer pointer => pointer.peer
  | deletePointer peer => peer

/-! ## What a history says -/

/-- The inboxes that a change sets for a peer. -/
def inboxesFor? (peer : PeerId) : DirectoryChange → Option (List String)
  | setInboxes named inboxes => if named = peer then some inboxes else none
  | _ => none

/-- The pointer that a change adds for a peer. -/
def pointerFor? (peer : PeerId) : DirectoryChange → Option Pointer
  | addPointer pointer => if pointer.peer = peer then some pointer else none
  | _ => none

/-- The inboxes that were set last for a peer. -/
def lastInboxes? (peer : PeerId) (changes : List DirectoryChange) : Option (List String) :=
  (changes.filterMap (inboxesFor? peer)).getLast?

/-- The pointer that was added last for a peer, after the last deletion of one. -/
def lastPointer? (peer : PeerId) (changes : List DirectoryChange) : Option Pointer :=
  ((changes.rtakeWhile fun change => decide (change ≠ deletePointer peer)).filterMap
    (pointerFor? peer)).getLast?

variable {who : PeerId} {change : DirectoryChange} {changes : List DirectoryChange}

theorem getLast?_filterMap_concat {α : Type} (read : DirectoryChange → Option α) :
    ((changes ++ [change]).filterMap read).getLast? =
      (read change).or (changes.filterMap read).getLast? := by
  rw [List.filterMap_append, List.getLast?_append]
  cases hread : read change <;> simp [hread]

theorem lastInboxes?_concat :
    lastInboxes? who (changes ++ [change]) =
      (inboxesFor? who change).or (lastInboxes? who changes) :=
  getLast?_filterMap_concat _

theorem lastPointer?_concat :
    lastPointer? who (changes ++ [change]) =
      if change = deletePointer who then none
      else (pointerFor? who change).or (lastPointer? who changes) := by
  unfold lastPointer?
  split
  · next hdeleted =>
      rw [List.rtakeWhile_concat_neg _ _ _ (by simp [hdeleted])]
      rfl
  · next hkept =>
      rw [List.rtakeWhile_concat_pos _ _ _ (by simp [hkept])]
      exact getLast?_filterMap_concat _

end DirectoryChange

namespace Database

variable {db next : Database} {peer other : PeerId} {inboxes : List String} {pointer : Pointer}
  {change : DirectoryChange} {changes : List DirectoryChange}

/-! ## One change -/

theorem setInboxes_eq_ok_iff :
    db.setInboxes peer inboxes = .ok next ↔ ∃ contacts, db.contacts = some contacts ∧
      next = { db with contacts := some (contacts.put (Contact.toRow ⟨peer, inboxes⟩)) } := by
  simp only [setInboxes, putContactRow, bind_eq_ok_iff, require_eq_ok_iff, pure_eq_ok_iff]
  exact exists_congr fun contacts => and_congr_right fun _ => eq_comm

/-- The inboxes are read back from the row of a contact. -/
theorem decode_toRow_contact (contact : Contact) : contact.toRow.decode = .ok contact.inboxes := by
  rw [ContactRow.decode, Contact.toRow, Json.stringList?_ofStringList]

/-- Setting inboxes changes what is answered for one peer. -/
theorem contact?_of_setInboxes (h : db.setInboxes peer inboxes = .ok next) (other : PeerId) :
    next.contact? other =
      if peer = other then .ok (some ⟨other, inboxes⟩) else db.contact? other := by
  obtain ⟨contacts, htable, rfl⟩ := setInboxes_eq_ok_iff.mp h
  have hkey : (Contact.toRow ⟨peer, inboxes⟩).peer = other.bytes ↔ peer = other :=
    PeerId.bytes_eq_bytes_iff
  simp only [contact?, htable, require, Table.find?_put, hkey, bind, Except.bind]
  by_cases hsame : peer = other
  · simp only [hsame, if_true, decode_toRow_contact]
    rfl
  · simp only [hsame, if_false]

theorem pointer?_of_setInboxes (h : db.setInboxes peer inboxes = .ok next) (other : PeerId) :
    next.pointer? other = db.pointer? other := by
  obtain ⟨contacts, -, rfl⟩ := setInboxes_eq_ok_iff.mp h
  rfl

/-- Adding a pointer changes what is answered for one peer. -/
theorem pointer?_of_addPointer (h : db.addPointer pointer = .ok next) (other : PeerId) :
    next.pointer? other =
      if pointer.peer = other then .ok (some pointer) else db.pointer? other := by
  obtain ⟨pointers, htable, rfl⟩ := addPointer_eq_ok_iff.mp h
  have hkey : pointer.toRow.peer = other.bytes ↔ pointer.peer = other :=
    PeerId.bytes_eq_bytes_iff
  simp only [pointer?, htable, require, Table.find?_put, hkey, bind, Except.bind]
  by_cases hsame : pointer.peer = other
  · simp only [hsame, if_true, Pointer.decode_toRow]
    rfl
  · simp only [hsame, if_false]

theorem contact?_of_addPointer (h : db.addPointer pointer = .ok next) (other : PeerId) :
    next.contact? other = db.contact? other := by
  obtain ⟨pointers, -, rfl⟩ := addPointer_eq_ok_iff.mp h
  rfl

/-- Deleting a pointer changes what is answered for one peer. -/
theorem pointer?_of_deletePointer {existed : Bool} (h : db.deletePointer peer = .ok (existed, next))
    (other : PeerId) :
    next.pointer? other = if peer = other then .ok none else db.pointer? other := by
  obtain ⟨pointers, htable, -, rfl⟩ := deletePointer_eq_ok_iff.mp h
  simp only [pointer?, withoutPointer, htable, require, Table.find?_erase,
    PeerId.bytes_eq_bytes_iff, bind, Except.bind]
  by_cases hsame : peer = other
  · simp only [hsame, if_true]
    rfl
  · simp only [hsame, if_false]

theorem contact?_of_deletePointer {existed : Bool}
    (h : db.deletePointer peer = .ok (existed, next)) (other : PeerId) :
    next.contact? other = db.contact? other := by
  obtain ⟨pointers, -, -, rfl⟩ := deletePointer_eq_ok_iff.mp h
  rfl

/-- There is an answer where there is a row. -/
theorem isSome_of_pointer? {pointers : PointerTable} {found : Option Pointer}
    (htable : db.pointers = some pointers) (h : db.pointer? peer = .ok found) :
    found.isSome = (pointers.find? peer.bytes).isSome := by
  obtain ⟨_, htable', hfound⟩ := bind_eq_ok_iff.mp h
  cases htable.symm.trans (require_eq_ok_iff.mp htable')
  cases hrow : pointers.find? peer.bytes with
  | none =>
      simp only [hrow] at hfound
      rw [← pure_eq_ok_iff.mp hfound]
      rfl
  | some row =>
      simp only [hrow] at hfound
      obtain ⟨pointer, -, hpointer⟩ := bind_eq_ok_iff.mp hfound
      rw [← pure_eq_ok_iff.mp hpointer]
      rfl

/-- The database after a change. -/
def applyChange (db : Database) : DirectoryChange → Except StorageError Database
  | .setInboxes peer inboxes => db.setInboxes peer inboxes
  | .addPointer pointer => db.addPointer pointer
  | .deletePointer peer => Prod.snd <$> db.deletePointer peer

/-- Nobody but the peer that a change is about gets another answer. -/
theorem applyChange_frame (h : db.applyChange change = .ok next) (hother : other ≠ change.peer) :
    next.contact? other = db.contact? other ∧ next.pointer? other = db.pointer? other := by
  cases change with
  | setInboxes peer inboxes =>
      have hne : peer ≠ other := Ne.symm hother
      refine ⟨?_, pointer?_of_setInboxes h other⟩
      rw [contact?_of_setInboxes h, if_neg hne]
  | addPointer pointer =>
      have hne : pointer.peer ≠ other := Ne.symm hother
      refine ⟨contact?_of_addPointer h other, ?_⟩
      rw [pointer?_of_addPointer h, if_neg hne]
  | deletePointer peer =>
      have hne : peer ≠ other := Ne.symm hother
      obtain ⟨⟨existed, left⟩, hdeleted, rfl⟩ := map_eq_ok_iff.mp h
      refine ⟨contact?_of_deletePointer hdeleted other, ?_⟩
      rw [pointer?_of_deletePointer hdeleted, if_neg hne]

/-! ## All changes -/

open DirectoryChange (lastInboxes? lastPointer?)

/-- The database after some changes, one after the other. -/
def applyChanges (db : Database) (changes : List DirectoryChange) :
    Except StorageError Database :=
  changes.foldlM applyChange db

/-- What is answered about contacts and pointers is what a history of changes says. -/
structure Tells (db : Database) (changes : List DirectoryChange) : Prop where
  contact : ∀ peer, db.contact? peer = .ok ((lastInboxes? peer changes).map (Contact.mk peer))
  pointer : ∀ peer, db.pointer? peer = .ok (lastPointer? peer changes)

namespace Tells

theorem empty : Tells .empty [] := ⟨fun _ => rfl, fun _ => rfl⟩

theorem contacts (h : db.Tells changes) (peer : PeerId) :
    ∃ contacts, db.contacts = some contacts := by
  have hfound := h.contact peer
  rw [contact?, bind_eq_ok_iff] at hfound
  obtain ⟨contacts, htable, -⟩ := hfound
  exact ⟨contacts, require_eq_ok_iff.mp htable⟩

theorem pointers (h : db.Tells changes) (peer : PeerId) :
    ∃ pointers, db.pointers = some pointers := by
  have hfound := h.pointer peer
  rw [pointer?, bind_eq_ok_iff] at hfound
  obtain ⟨pointers, htable, -⟩ := hfound
  exact ⟨pointers, require_eq_ok_iff.mp htable⟩

theorem setInboxes (h : db.Tells changes) (peer : PeerId) (inboxes : List String) :
    ∃ next, db.setInboxes peer inboxes = .ok next ∧
      next.Tells (changes ++ [.setInboxes peer inboxes]) := by
  obtain ⟨contacts, htable⟩ := h.contacts peer
  have hset : db.setInboxes peer inboxes = .ok { db with
      contacts := some (contacts.put (Contact.toRow ⟨peer, inboxes⟩)) } :=
    setInboxes_eq_ok_iff.mpr ⟨contacts, htable, rfl⟩
  refine ⟨_, hset, fun other => ?_, fun other => ?_⟩
  · rw [contact?_of_setInboxes hset, DirectoryChange.lastInboxes?_concat,
      DirectoryChange.inboxesFor?, h.contact]
    split <;> rfl
  · rw [pointer?_of_setInboxes hset, DirectoryChange.lastPointer?_concat, h.pointer]
    rfl

theorem addPointer (h : db.Tells changes) (pointer : Pointer) :
    ∃ next, db.addPointer pointer = .ok next ∧ next.Tells (changes ++ [.addPointer pointer]) := by
  obtain ⟨pointers, htable⟩ := h.pointers pointer.peer
  have hadded : db.addPointer pointer = .ok { db with
      pointers := some (pointers.put pointer.toRow) } :=
    addPointer_eq_ok_iff.mpr ⟨pointers, htable, rfl⟩
  refine ⟨_, hadded, fun other => ?_, fun other => ?_⟩
  · rw [contact?_of_addPointer hadded, DirectoryChange.lastInboxes?_concat, h.contact]
    rfl
  · have hkept : DirectoryChange.addPointer pointer ≠ .deletePointer other := by simp
    rw [pointer?_of_addPointer hadded, DirectoryChange.lastPointer?_concat, if_neg hkept,
      DirectoryChange.pointerFor?, h.pointer]
    split <;> rfl

/-- A deletion says whether there was a pointer. -/
theorem deletePointer (h : db.Tells changes) (peer : PeerId) :
    ∃ next, db.deletePointer peer = .ok ((lastPointer? peer changes).isSome, next) ∧
      next.Tells (changes ++ [.deletePointer peer]) := by
  obtain ⟨pointers, htable⟩ := h.pointers peer
  have hdeleted : db.deletePointer peer =
      .ok ((lastPointer? peer changes).isSome, db.withoutPointer pointers peer) :=
    deletePointer_eq_ok_iff.mpr ⟨pointers, htable, isSome_of_pointer? htable (h.pointer peer), rfl⟩
  refine ⟨_, hdeleted, fun other => ?_, fun other => ?_⟩
  · rw [contact?_of_deletePointer hdeleted, DirectoryChange.lastInboxes?_concat, h.contact]
    rfl
  · rw [pointer?_of_deletePointer hdeleted, DirectoryChange.lastPointer?_concat, h.pointer]
    by_cases hsame : peer = other
    · rw [if_pos hsame, if_pos (congrArg _ hsame)]
    · have hkept : DirectoryChange.deletePointer peer ≠ .deletePointer other := by
        simpa using hsame
      rw [if_neg hsame, if_neg hkept]
      rfl

/-- One change makes the history longer by itself. -/
theorem applyChange (h : db.Tells changes) (change : DirectoryChange) :
    ∃ next, db.applyChange change = .ok next ∧ next.Tells (changes ++ [change]) := by
  cases change with
  | setInboxes peer inboxes => exact h.setInboxes peer inboxes
  | addPointer pointer => exact h.addPointer pointer
  | deletePointer peer =>
      obtain ⟨next, hdeleted, hnext⟩ := h.deletePointer peer
      exact ⟨next, map_eq_ok_iff.mpr ⟨_, hdeleted, rfl⟩, hnext⟩

/-- After any number of changes a new database says what their history says. -/
theorem applyChanges (changes : List DirectoryChange) :
    ∃ next, Database.empty.applyChanges changes = .ok next ∧ next.Tells changes := by
  induction changes using List.reverseRecOn with
  | nil => exact ⟨.empty, rfl, .empty⟩
  | append_singleton changes change ih =>
      obtain ⟨middle, hmiddle, htells⟩ := ih
      obtain ⟨next, hnext, htells'⟩ := htells.applyChange change
      refine ⟨next, ?_, htells'⟩
      rw [Database.applyChanges, List.foldlM_append, bind_eq_ok_iff]
      exact ⟨middle, hmiddle, by simpa using hnext⟩

end Tells

/-- A database that is opened for the first time holds nothing. -/
theorem eq_empty_of_openAt {path : String} {directory : Bool}
    (h : openAt path ⟨directory, none⟩ = .ok db) : db = .empty := by
  unfold openAt at h
  split_ifs at h <;> cases h <;> rfl

end Database

/-- **Contacts and pointers are maps in which the last change counts.**  A database that is opened
for the first time takes any changes in any order, and then says what the list of them says: of each
peer the inboxes that were set last, with every string as it was given, and the pointer that was
added last since one was deleted, with all its fields.  A further change succeeds as well, and is
seen by nobody who asks about another peer. -/
theorem directory_tells {path : String} {directory : Bool} {db : Database}
    (hopened : Database.openAt path ⟨directory, none⟩ = .ok db) (changes : List DirectoryChange) :
    ∃ next, db.applyChanges changes = .ok next ∧ next.Tells changes ∧
      ∀ change : DirectoryChange, ∃ after, next.applyChange change = .ok after ∧
        ∀ other, other ≠ change.peer →
          after.contact? other = next.contact? other ∧
            after.pointer? other = next.pointer? other := by
  obtain ⟨next, hnext, htells⟩ := Database.Tells.applyChanges changes
  refine ⟨next, Database.eq_empty_of_openAt hopened ▸ hnext, htells, fun change => ?_⟩
  obtain ⟨after, hafter, -⟩ := htells.applyChange change
  exact ⟨after, hafter, fun other hother => Database.applyChange_frame hafter hother⟩

/-! ### Inboxes with marks in them, and a pointer that is replaced -/

/-- A peer with inboxes. -/
def exampleFriend : PeerId := ⟨⟨List.replicate 32 31, rfl⟩⟩

/-- A peer that may take back a pointer for a while. -/
def exampleGuardian : PeerId := ⟨⟨List.replicate 32 32, rfl⟩⟩

/-- Inboxes in which every kind of character occurs. -/
def exampleInboxes : List String := ["a \"quoted\" name", "back\\slash", "", "\n\x07\x7f", "é漢😀"]

/-- Inboxes are set twice, a pointer is replaced by one that nobody may take back, and another
pointer is deleted. -/
def exampleChanges : List DirectoryChange :=
  [.setInboxes exampleFriend ["home"],
    .addPointer ⟨exampleFriend, "relay", some exampleGuardian, 1⟩, .setInboxes exampleGuardian [],
    .addPointer ⟨exampleGuardian, "relay", none, 2⟩, .setInboxes exampleFriend exampleInboxes,
    .addPointer ⟨exampleFriend, "", none, -1⟩, .deletePointer exampleGuardian]

theorem exampleChanges_told :
    Database.openAt Database.inMemoryPath ⟨false, none⟩ = .ok .empty ∧
    ∃ next, Database.empty.applyChanges exampleChanges = .ok next ∧
      next.contact? exampleFriend = .ok (some ⟨exampleFriend, exampleInboxes⟩) ∧
      next.contact? exampleGuardian = .ok (some ⟨exampleGuardian, []⟩) ∧
      next.pointer? exampleFriend = .ok (some ⟨exampleFriend, "", none, -1⟩) ∧
      next.pointer? exampleGuardian = .ok none := by
  have hopened : Database.openAt Database.inMemoryPath ⟨false, none⟩ = .ok .empty := rfl
  obtain ⟨next, hnext, htells, -⟩ := directory_tells hopened exampleChanges
  refine ⟨hopened, next, hnext, ?_, ?_, ?_, ?_⟩
  · exact htells.contact exampleFriend
  · exact htells.contact exampleGuardian
  · exact htells.pointer exampleFriend
  · exact htells.pointer exampleGuardian

end PeerMail
