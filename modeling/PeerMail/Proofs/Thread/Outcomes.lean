import PeerMail.Proofs.Thread.Checks
import PeerMail.Proofs.Thread.Registry

/-!
# How the application of a block ends

`apply` walks through stages; this file looks at the walk as a whole.  There is
one equation for each way through it (`apply_eq_of_misnamed` and its siblings), and
`apply_outcome` says that there is no other way: a block is refused with nothing
changed, or it is one of four cases that leave something behind (`Outcome`).  Two
of these four are failures.

Everything that is proved about `apply` later is a case analysis of `Outcome`.
-/

namespace PeerMail

/-- The member that an invitation adds: the peer who issued it. -/
def SignedBlock.inviter (signed : SignedBlock) (row : String) : Member :=
  .ofKey row signed.thread signed.issuerKey

namespace LocalState

variable {self key : Keypair} {row : String} {signed : SignedBlock} {state noted : LocalState}
  {member : Member} {fault : StorageError}

/-! ## Looking up and noting members -/

theorem find?_of_lookup {id : ThreadId} {thread : Thread} (h : state.lookup id = some thread) :
    state.threads.lookup id = some thread := by
  unfold lookup at h
  split at h
  · simp at h
  · exact h

theorem lookup_eq_none {id : ThreadId} (h : state.threads.find? id = none) :
    state.lookup id = none := by
  unfold lookup
  split
  · rfl
  · exact Registry.lookup_eq_none_iff.mpr h

theorem addMember_eq_ok_iff :
    state.addMember member = .ok noted ↔
      state.faults.memberFault = none ∧
        ∃ db, state.db.addMember member = .ok db ∧ noted = { state with db } := by
  unfold addMember
  cases hfault : state.faults.memberFault with
  | some fault => simp
  | none => cases state.db.addMember member <;> simp [Functor.map, Except.map, eq_comm]

/-- Noting a member has nothing to do with the threads. -/
theorem addMember_withThreads_of_ok (threads : Registry) (h : state.addMember member = .ok noted) :
    { state with threads }.addMember member = .ok { noted with threads } := by
  obtain ⟨hfault, db, hdb, rfl⟩ := addMember_eq_ok_iff.mp h
  exact addMember_eq_ok_iff.mpr ⟨hfault, db, hdb, rfl⟩

theorem addMember_withThreads_of_error (threads : Registry)
    (h : state.addMember member = .error fault) :
    { state with threads }.addMember member = .error fault := by
  unfold addMember at h ⊢
  cases hfault : state.faults.memberFault with
  | some fault => simpa [hfault] using h
  | none =>
      cases hdb : state.db.addMember member with
      | ok db => simp [hfault, hdb, Functor.map, Except.map] at h
      | error fault => simpa [hfault, hdb, Functor.map, Except.map] using h

/-! ## The ways through the stages -/

open Apply

/-- A block that fails its checks leaves everything as it was. -/
theorem apply_eq_of_examine_error {reason : ProtocolError}
    (h : examine self signed (state.lookup signed.thread) = .error reason) :
    state.apply self row signed = (.error reason, state) := by
  apply apply_eq
  simp [run, step, h]

/-- Content of a known thread is appended, unless its name is wrong or not new. -/
theorem apply_eq_of_extends {thread : Thread}
    (hknown : state.lookup signed.thread = some thread) (hextends : Extends signed thread) :
    state.apply self row signed =
      if signed.id.Names signed.data then
        match state.threads.append thread.id signed.id with
        | .ok threads => (.ok (), { state with threads })
        | .error reason => (.error (.thread reason), state)
      else (.error (.blockMismatch signed.id), state) := by
  have hexamine : examine self signed (state.lookup signed.thread) = .ok (.content thread.id) :=
    examine_eq_content_iff.mpr ⟨thread, hknown, rfl, hextends⟩
  by_cases hnames : signed.id.Names signed.data
  · rw [if_pos hnames]
    cases happend : state.threads.append thread.id signed.id <;> apply apply_eq <;>
      simp [run, step, hexamine, checkContent, hnames, happend]
  · rw [if_neg hnames]
    apply apply_eq
    simp [run, step, hexamine, checkContent, hnames]

section Invitation

variable (hknown : state.lookup signed.thread = none) (hinvites : Invites self signed key)

include hknown hinvites

/-- An invitation to a thread that is tracked after all: looking it up went wrong. -/
theorem apply_eq_of_tracked (htracked : state.threads.find? signed.thread ≠ none) :
    state.apply self row signed = (.error (.admission .threadAlreadyExists), state) := by
  have hexamine : examine self signed (state.lookup signed.thread) = .ok (.invitation key) :=
    examine_eq_invitation_iff.mpr ⟨hknown, hinvites⟩
  rw [← hinvites.thread] at htracked
  apply apply_eq
  cases hcreate : state.threads.create signed.threadName key with
  | ok created =>
      exact absurd (Registry.create_eq_ok_iff.mp hcreate).1 htracked
  | error reason =>
      obtain ⟨rfl, -⟩ := Registry.create_eq_error hcreate
      simp [run, step, hexamine, hcreate]

variable (huntracked : state.threads.find? signed.thread = none)

include huntracked

/-- An admissible invitation comes to the point where its thread is followed. -/
theorem run_eq_of_invites (steps : Nat) :
    run self row signed (steps + 2) (.arrived, state) =
      run self row signed steps (.followed ⟨signed.threadName, key⟩,
        { state with threads := state.threads.withThread signed.threadName key }) := by
  have hexamine : examine self signed (state.lookup signed.thread) = .ok (.invitation key) :=
    examine_eq_invitation_iff.mpr ⟨hknown, hinvites⟩
  have hcreate : state.threads.create signed.threadName key = .ok (⟨signed.threadName, key⟩,
      state.threads.withThread signed.threadName key) :=
    Registry.create_eq_ok_iff.mpr ⟨hinvites.thread ▸ huntracked, rfl, rfl⟩
  simp only [run, step, hexamine, hcreate]

/-- An admitted invitation: the thread is followed, the inviter is noted, and the block is
appended if its name is that of its content. -/
theorem apply_eq_of_noted (hnoted : state.addMember (signed.inviter row) = .ok noted) :
    state.apply self row signed =
      if signed.id.Names signed.data then
        (.ok (), { noted with
          threads := (state.threads.withThread signed.threadName key).withBlock signed.thread
            signed.id })
      else
        (.error (.blockMismatch signed.id),
          { noted with threads := state.threads.withThread signed.threadName key }) := by
  have hid := hinvites.id_thread signed.threadName
  have hadd := addMember_withThreads_of_ok (state.threads.withThread signed.threadName key) hnoted
  have happend : (state.threads.withThread signed.threadName key).append signed.thread signed.id =
      .ok ((state.threads.withThread signed.threadName key).withBlock signed.thread signed.id) := by
    rw [← hinvites.thread] at huntracked ⊢
    exact Registry.append_withThread huntracked signed.id
  rw [SignedBlock.inviter] at hadd
  by_cases hnames : signed.id.Names signed.data
  · rw [if_pos hnames]
    apply apply_eq
    rw [run_eq_of_invites hknown hinvites huntracked 2]
    simp [run, step, hid, hadd, checkContent, hnames, happend]
  · rw [if_neg hnames]
    apply apply_eq
    rw [run_eq_of_invites hknown hinvites huntracked 2]
    simp [run, step, hid, hadd, checkContent, hnames]

/-- An invitation whose inviter cannot be noted: the thread is removed again, if that works. -/
theorem apply_eq_of_not_noted (hfault : state.addMember (signed.inviter row) = .error fault) :
    state.apply self row signed =
      (.error (.storage fault),
        if state.faults.removeFails then
          { state with threads := state.threads.withThread signed.threadName key }
        else state) := by
  have hid := hinvites.id_thread signed.threadName
  have hadd := addMember_withThreads_of_error (state.threads.withThread signed.threadName key)
    hfault
  have hremove : (state.threads.withThread signed.threadName key).remove signed.thread =
      .ok state.threads := by
    rw [← hinvites.thread] at huntracked ⊢
    exact Registry.remove_withThread huntracked
  rw [SignedBlock.inviter] at hadd
  apply apply_eq
  rw [run_eq_of_invites hknown hinvites huntracked 2]
  by_cases hfails : state.faults.removeFails
  · simp [run, step, hid, hadd, LocalState.remove, hfails]
  · simp [run, step, hid, hadd, LocalState.remove, hfails, hremove]

end Invitation

/-! ## There is no other way -/

/-- How the application of a block can end, and what it leaves behind. -/
inductive Outcome (self : Keypair) (row : String) (signed : SignedBlock) (state : LocalState) :
    Except ProtocolError Unit → LocalState → Prop where
  /-- The block fails and nothing has changed. -/
  | refused (reason : ProtocolError) : Outcome self row signed state (.error reason) state
  /-- An invitation is admitted before its name turns out wrong. -/
  | misnamed {key : Keypair} {noted : LocalState}
      (untracked : state.threads.find? signed.thread = none) (invites : Invites self signed key)
      (added : state.addMember (signed.inviter row) = .ok noted)
      (wrong : ¬ signed.id.Names signed.data) :
      Outcome self row signed state (.error (.blockMismatch signed.id))
        { noted with threads := state.threads.withThread signed.threadName key }
  /-- The inviter cannot be noted and the thread cannot be removed. -/
  | stranded {key : Keypair} {fault : StorageError}
      (untracked : state.threads.find? signed.thread = none) (invites : Invites self signed key)
      (failed : state.addMember (signed.inviter row) = .error fault)
      (stuck : state.faults.removeFails = true) :
      Outcome self row signed state (.error (.storage fault))
        { state with threads := state.threads.withThread signed.threadName key }
  /-- An invitation is accepted. -/
  | joined {key : Keypair} {noted : LocalState}
      (untracked : state.threads.find? signed.thread = none) (invites : Invites self signed key)
      (added : state.addMember (signed.inviter row) = .ok noted)
      (names : signed.id.Names signed.data) :
      Outcome self row signed state (.ok ()) { noted with
        threads := (state.threads.withThread signed.threadName key).withBlock signed.thread
          signed.id }
  /-- Content is accepted. -/
  | extended {thread : Thread} {entry : ThreadEntry}
      (known : state.lookup signed.thread = some thread) (extending : Extends signed thread)
      (found : state.threads.find? thread.id = some entry) (fresh : signed.id ∉ entry.chain)
      (names : signed.id.Names signed.data) :
      Outcome self row signed state (.ok ())
        { state with threads := state.threads.withBlock thread.id signed.id }

theorem apply_outcome (self : Keypair) (row : String) (signed : SignedBlock) (state : LocalState) :
    Outcome self row signed state (state.apply self row signed).1
      (state.apply self row signed).2 := by
  cases hexamine : examine self signed (state.lookup signed.thread) with
  | error reason =>
      rw [apply_eq_of_examine_error hexamine]
      exact .refused reason
  | ok verdict =>
      cases verdict with
      | content id =>
          -- content fails before anything is written, or it is appended
          obtain ⟨thread, hknown, rfl, hextends⟩ := examine_eq_content_iff.mp hexamine
          rw [apply_eq_of_extends hknown hextends]
          split
          · next hnames =>
              cases happend : state.threads.append thread.id signed.id with
              | error reason => exact .refused _
              | ok threads =>
                  obtain ⟨⟨entry, hfound, hfresh⟩, rfl⟩ := Registry.append_eq_ok_iff.mp happend
                  exact .extended hknown hextends hfound hfresh hnames
          · exact .refused _
      | invitation key =>
          -- an invitation goes on if its thread is new, and then all depends on its inviter
          obtain ⟨hknown, hinvites⟩ := examine_eq_invitation_iff.mp hexamine
          by_cases huntracked : state.threads.find? signed.thread = none
          · cases hadd : state.addMember (signed.inviter row) with
            | error fault =>
                rw [apply_eq_of_not_noted hknown hinvites huntracked hadd]
                split
                · next hstuck => exact .stranded huntracked hinvites hadd hstuck
                · exact .refused _
            | ok noted =>
                rw [apply_eq_of_noted hknown hinvites huntracked hadd]
                split
                · next hnames => exact .joined huntracked hinvites hadd hnames
                · next hwrong => exact .misnamed huntracked hinvites hadd hwrong
          · rw [apply_eq_of_tracked hknown hinvites huntracked]
            exact .refused _

end LocalState

end PeerMail
