import PeerMail.Proofs.Store.Frames

/-!
# Rosters

What the table of members looks like next to the threads that are tracked: each of
them has exactly one member, and nothing is noted for any other thread.  A roster is
kept when a new thread comes together with its member (`Roster.add`), which is the
only way in which either of the two grows.
-/

namespace PeerMail

theorem PeerId.bytes_injective {first second : PeerId} (h : first.bytes = second.bytes) :
    first = second := by
  obtain ⟨⟨bytes, hlength⟩⟩ := first
  obtain ⟨⟨bytes', hlength'⟩⟩ := second
  cases (h : bytes = bytes')
  rfl

theorem PeerId.bytes_eq_bytes_iff {first second : PeerId} :
    first.bytes = second.bytes ↔ first = second :=
  ⟨bytes_injective, congrArg bytes⟩

theorem ThreadId.bytes_injective {first second : ThreadId} (h : first.bytes = second.bytes) :
    first = second := by
  obtain ⟨⟨bytes, hlength⟩⟩ := first
  obtain ⟨⟨bytes', hlength'⟩⟩ := second
  cases (h : bytes = bytes')
  rfl

/-- Of the threads under some names, each has exactly one member and no other thread has any, and
the members are named after keys that are valid. -/
structure Roster (ids : List ThreadId) (rows : List MemberRow) : Prop where
  one : ∀ id ∈ ids, rows.countP (fun row => row.thread == id.bytes) = 1
  tracked : ∀ row ∈ rows, ∃ id ∈ ids, row.thread = id.bytes
  derived : ∀ row ∈ rows, row.peer = (PeerId.ofKey row.key).bytes
  valid : ∀ row ∈ rows, PublicKey.validate row.key = .ok ()

namespace Roster

variable {ids : List ThreadId} {rows next : List MemberRow} {row : MemberRow} {id : ThreadId}

theorem nil : Roster [] [] := by
  constructor <;> simp

/-- A new thread comes with one member. -/
theorem add (h : Roster ids rows) (hnew : id ∉ ids) (hnext : next.Perm (row :: rows))
    (hthread : row.thread = id.bytes) (hderived : row.peer = (PeerId.ofKey row.key).bytes)
    (hvalid : PublicKey.validate row.key = .ok ()) : Roster (ids ++ [id]) next := by
  have hrows : ∀ other ∈ next, other = row ∨ other ∈ rows := by
    intro other hother
    simpa using hnext.mem_iff.mp hother
  constructor
  case one =>
    intro other hother
    rw [hnext.countP_eq, List.countP_cons, hthread]
    rcases List.mem_append.mp hother with hold | hlast
    · have hne : id.bytes ≠ other.bytes := by
        intro heq
        exact hnew (ThreadId.bytes_injective heq ▸ hold)
      simp [h.one other hold, hne]
    · -- nothing is noted yet for a thread that is not tracked
      have hzero : rows.countP (fun row => row.thread == id.bytes) = 0 := by
        rw [List.countP_eq_zero]
        intro row hrow heq
        obtain ⟨old, hold, hsame⟩ := h.tracked row hrow
        have hid : old = id := ThreadId.bytes_injective (hsame.symm.trans (by simpa using heq))
        exact hnew (hid ▸ hold)
      rw [List.mem_singleton.mp hlast, hzero]
      simp
  case tracked =>
    intro other hother
    rcases hrows other hother with rfl | hold
    · exact ⟨id, by simp, hthread⟩
    · obtain ⟨old, hmem, hsame⟩ := h.tracked other hold
      exact ⟨old, List.mem_append_left _ hmem, hsame⟩
  case derived =>
    intro other hother
    rcases hrows other hother with rfl | hold
    · exact hderived
    · exact h.derived other hold
  case valid =>
    intro other hother
    rcases hrows other hother with rfl | hold
    · exact hvalid
    · exact h.valid other hold

end Roster

end PeerMail
