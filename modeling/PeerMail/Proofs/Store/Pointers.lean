import PeerMail.Proofs.Store.Frames
import PeerMail.Proofs.Store.Roster
import PeerMail.Proofs.Store.Tables

/-!
# The pointer of one peer

At most one row of the pointers is kept under the name of a peer (`Database.pointerRow?`).  Adding a
pointer replaces the row of its peer, removing one takes the row away, and neither touches the row
of another peer.
-/

namespace PeerMail

/-- A pointer is read back from its row. -/
theorem Pointer.decode_toRow (pointer : Pointer) : pointer.toRow.decode = .ok pointer := by
  have hread : ∀ peer : PeerId, PeerId.ofBytes? peer.bytes = some peer := by
    intro peer
    have hexact : Bytes.exactly? 32 peer.bytes = some peer.digest :=
      Bytes.exactly?_eq_some_iff.mpr rfl
    rw [PeerId.ofBytes?, hexact]
    rfl
  obtain ⟨peer, address, cancel, createdAt⟩ := pointer
  cases cancel with
  | none => simp [PointerRow.decode, Pointer.toRow, hread]
  | some canceller => simp [PointerRow.decode, Pointer.toRow, hread]

/-- A row can be decoded, and the pointer in it may be taken back by a peer. -/
def PointerRow.CancelledBy (row : PointerRow) (peer : PeerId) : Prop :=
  ∃ pointer, row.decode = .ok pointer ∧ pointer.cancel = some peer

/-- A pointer that was added may be taken back by the peer that it names. -/
theorem Pointer.toRow_cancelledBy_iff {pointer : Pointer} {peer : PeerId} :
    pointer.toRow.CancelledBy peer ↔ pointer.cancel = some peer := by
  simp [PointerRow.CancelledBy, Pointer.decode_toRow]

namespace Database

variable {db next : Database} {peer other : PeerId} {pointer : Pointer} {pointers : PointerTable}
  {row held : PointerRow} {existed : Bool}

/-- The row that is kept under the name of a peer. -/
def pointerRow? (db : Database) (peer : PeerId) : Option PointerRow :=
  db.pointers.bind fun pointers => pointers.find? peer.bytes

/-- The database without the pointer that is kept for a peer. -/
def withoutPointer (db : Database) (pointers : PointerTable) (peer : PeerId) : Database :=
  { db with pointers := some (pointers.erase peer.bytes) }

/-- A row of the pointers is kept under the name of a peer, who may take the pointer back. -/
structure Retractable (db : Database) (peer : PeerId) (pointers : PointerTable)
    (held : PointerRow) : Prop where
  table : db.pointers = some pointers
  stored : held ∈ pointers.rows
  keyed : held.peer = peer.bytes
  cancels : held.CancelledBy peer

namespace Retractable

/-- Without the pointer of the peer, exactly the row that is kept for it is missing. -/
theorem mem_erase_iff (h : db.Retractable peer pointers held) :
    row ∈ (pointers.erase peer.bytes).rows ↔ row ∈ pointers.rows ∧ row ≠ held := by
  rw [Table.erase_eq_without, Table.mem_rows_without, beq_eq_false_iff_ne, ← h.keyed]
  refine and_congr_right fun hrow => not_congr ⟨?_, congrArg PointerRow.peer⟩
  exact Table.eq_of_key_eq hrow h.stored

theorem pointerRow?_eq (h : db.Retractable peer pointers held) :
    db.pointerRow? peer = some held := by
  rw [pointerRow?, h.table]
  exact Table.find?_eq_some_iff.mpr ⟨h.stored, h.keyed⟩

end Retractable

/-! ## Adding and removing -/

theorem addPointer_eq_ok_iff :
    db.addPointer pointer = .ok next ↔ ∃ pointers, db.pointers = some pointers ∧
      next = { db with pointers := some (pointers.put pointer.toRow) } := by
  simp only [addPointer, putPointerRow, bind_eq_ok_iff, require_eq_ok_iff, pure_eq_ok_iff]
  exact exists_congr fun pointers => and_congr_right fun _ => eq_comm

theorem deletePointer_eq_ok_iff :
    db.deletePointer peer = .ok (existed, next) ↔ ∃ pointers, db.pointers = some pointers ∧
      existed = (pointers.find? peer.bytes).isSome ∧ next = db.withoutPointer pointers peer := by
  simp only [deletePointer, bind_eq_ok_iff, require_eq_ok_iff]
  refine exists_congr fun pointers => and_congr_right fun htable => ?_
  have hreturn : ∀ {found : Bool} {left : Database}, (pure (found, left) :
      Except StorageError (Bool × Database)) = .ok (existed, next) ↔
        existed = found ∧ next = left := by
    intro found left
    rw [pure_eq_ok_iff, Prod.mk.injEq]
    exact and_congr eq_comm eq_comm
  cases hfound : pointers.find? peer.bytes with
  | none =>
      -- removing what is not there changes nothing
      rw [withoutPointer, Table.erase_of_find?_eq_none hfound, ← htable]
      exact hreturn
  | some row => exact hreturn

theorem pointerRow?_of_addPointer (h : db.addPointer pointer = .ok next) (peer : PeerId) :
    next.pointerRow? peer =
      if pointer.peer = peer then some pointer.toRow else db.pointerRow? peer := by
  obtain ⟨pointers, htable, rfl⟩ := addPointer_eq_ok_iff.mp h
  rw [pointerRow?, pointerRow?, htable, Option.bind_some, Option.bind_some, Table.find?_put]
  exact if_congr PeerId.bytes_eq_bytes_iff rfl rfl

/-- Where no pointer can be added, none is kept. -/
theorem pointerRow?_of_addPointer_error {fault : StorageError}
    (h : db.addPointer pointer = .error fault) (peer : PeerId) : db.pointerRow? peer = none := by
  rw [pointerRow?]
  cases htable : db.pointers with
  | none => rfl
  | some pointers =>
      rw [addPointer_eq_ok_iff.mpr ⟨pointers, htable, rfl⟩] at h
      cases h

theorem pointerRow?_of_deletePointer (h : db.deletePointer peer = .ok (existed, next))
    (other : PeerId) :
    next.pointerRow? other = if peer = other then none else db.pointerRow? other := by
  obtain ⟨pointers, htable, -, rfl⟩ := deletePointer_eq_ok_iff.mp h
  rw [pointerRow?, pointerRow?, htable, withoutPointer, Option.bind_some, Option.bind_some,
    Table.find?_erase]
  exact if_congr PeerId.bytes_eq_bytes_iff rfl rfl

end Database

end PeerMail
