import PeerMail.Proofs.Thread.Outcomes

/-!
# When a failed block leaves a trace

A block that fails should leave the threads and their members as they were.
`failed_apply_changed_iff` says exactly when it does not: the block is an
invitation that passes all its checks, and either its name is not that of its
content, which is looked at only after the thread is followed and the inviter is
noted, or the inviter cannot be noted and the thread cannot be removed again.
`misnamed_invitation_keeps_thread` is a block of the first kind.
-/

namespace PeerMail

namespace LocalState

/-- Whether the threads and their members are the same in both states. -/
def SameMembership (before after : LocalState) : Prop :=
  after.threads = before.threads ∧ after.db.members = before.db.members

variable (self : Keypair) (row : String) (signed : SignedBlock) (state : LocalState)

theorem not_sameMembership_of_withThread {before after : LocalState} {name : String}
    {key : Keypair} (h : after.threads = before.threads.withThread name key) :
    ¬ SameMembership before after :=
  fun hsame => Registry.withThread_ne_self (h.symm.trans hsame.1)

/-- **A failed block changes threads or members exactly if** it is an admissible invitation to a
thread that is not tracked, and its name is wrong or neither noting its inviter nor removing its
thread works. -/
theorem failed_apply_changed_iff :
    ((∃ reason, (state.apply self row signed).1 = .error reason) ∧
        ¬ SameMembership state (state.apply self row signed).2) ↔
      state.threads.find? signed.thread = none ∧ (∃ key, Invites self signed key) ∧
        ((∃ noted, state.addMember (signed.inviter row) = .ok noted) ∧
            ¬ signed.id.Names signed.data ∨
          (∃ fault, state.addMember (signed.inviter row) = .error fault) ∧
            state.faults.removeFails = true) := by
  constructor
  · rintro ⟨⟨reason, hreason⟩, hchanged⟩
    have houtcome := apply_outcome self row signed state
    generalize (state.apply self row signed).1 = result at hreason houtcome
    generalize (state.apply self row signed).2 = final at hchanged houtcome
    subst hreason
    cases houtcome with
    | refused => exact absurd ⟨rfl, rfl⟩ hchanged
    | misnamed huntracked hinvites hadded hwrong =>
        exact ⟨huntracked, ⟨_, hinvites⟩, .inl ⟨⟨_, hadded⟩, hwrong⟩⟩
    | stranded huntracked hinvites hfailed hstuck =>
        exact ⟨huntracked, ⟨_, hinvites⟩, .inr ⟨⟨_, hfailed⟩, hstuck⟩⟩
  · rintro ⟨huntracked, ⟨key, hinvites⟩, ⟨⟨noted, hadded⟩, hwrong⟩ | ⟨⟨fault, hfailed⟩, hstuck⟩⟩
    · rw [apply_eq_of_noted (lookup_eq_none huntracked) hinvites huntracked hadded, if_neg hwrong]
      exact ⟨⟨_, rfl⟩, not_sameMembership_of_withThread rfl⟩
    · rw [apply_eq_of_not_noted (lookup_eq_none huntracked) hinvites huntracked hfailed,
        if_pos hstuck]
      exact ⟨⟨_, rfl⟩, not_sameMembership_of_withThread rfl⟩

end LocalState

/-! ## An invitation under a wrong name -/

/-- A peer that is about to be invited. -/
def exampleInvitee : Keypair where
  secret :=
    ⟨[126, 45, 184, 104, 243, 121, 252, 142, 155, 111, 45, 203, 60, 252, 155, 158, 231, 169, 22,
      197, 243, 254, 5, 128, 125, 45, 61, 229, 237, 91, 52, 221], rfl⟩

/-- The key of the thread that it is invited to. -/
def exampleThreadKey : Keypair where
  secret :=
    ⟨[70, 136, 171, 229, 227, 63, 40, 149, 189, 136, 9, 126, 133, 9, 112, 200, 77, 57, 145, 174,
      24, 67, 106, 2, 184, 19, 244, 181, 179, 212, 80, 227], rfl⟩

/-- An invitation of that peer by another one, under a name that is not that of its content. -/
def misnamedInvitation : SignedBlock where
  id := ⟨⟨List.replicate 32 0, rfl⟩⟩
  thread :=
    ⟨⟨[4, 62, 97, 243, 126, 45, 219, 192, 90, 62, 145, 232, 223, 240, 166, 235, 113, 92, 199, 243,
      64, 76, 236, 103, 125, 53, 2, 16, 94, 181, 70, 239], rfl⟩⟩
  threadName := "holiday"
  issuerKey :=
    [196, 211, 167, 152, 99, 70, 132, 196, 240, 40, 7, 98, 78, 208, 144, 233, 19, 168, 87, 197,
      222, 229, 88, 95, 81, 67, 17, 244, 219, 82, 183, 181]
  data :=
    [148, 166, 73, 110, 118, 105, 116, 101, 217, 43, 45, 45, 49, 113, 89, 112, 68, 119, 117, 84,
      95, 56, 69, 112, 55, 97, 102, 69, 45, 52, 109, 115, 102, 68, 116, 106, 70, 82, 67, 76, 66, 68,
      111, 70, 103, 69, 99, 85, 85, 102, 81, 87, 48, 220, 0, 104, 97, 204, 243, 204, 233, 204, 230,
      51, 204, 191, 9, 13, 204, 248, 30, 62, 204, 199, 102, 204, 142, 204, 212, 204, 240, 18, 204,
      207, 11, 204, 136, 204, 240, 204, 184, 45, 204, 198, 75, 66, 204, 239, 204, 134, 37, 124, 204,
      236, 17, 204, 185, 204, 242, 204, 214, 75, 99, 204, 130, 204, 248, 204, 250, 93, 204, 254, 83,
      66, 116, 111, 204, 144, 115, 204, 232, 204, 221, 68, 114, 72, 108, 204, 144, 204, 158, 126,
      204, 226, 13, 204, 220, 204, 131, 64, 204, 198, 204, 182, 204, 199, 18, 204, 220, 204, 175,
      204, 205, 16, 88, 204, 158, 204, 231, 204, 229, 204, 199, 204, 193, 204, 184, 204, 131, 58,
      204, 191, 52, 204, 161, 118, 54, 204, 218, 204, 182, 204, 147, 204, 212, 204, 128, 113, 204,
      138, 204, 255, 123, 204, 237, 204, 171, 204, 214, 94, 204, 217, 204, 140, 204, 252, 204, 240,
      40, 204, 248, 77, 144]
  signature :=
    [237, 212, 216, 151, 21, 250, 227, 176, 69, 212, 16, 210, 179, 30, 88, 253, 184, 58, 8, 6,
      165, 58, 59, 202, 121, 32, 102, 175, 73, 65, 210, 245, 130, 145, 45, 198, 96, 163, 19, 118, 9,
      202, 54, 199, 136, 13, 51, 212, 157, 123, 30, 48, 186, 245, 3, 69, 241, 145, 213, 130, 132,
      32, 4, 5]

/-- What a node acts on that has seen nothing yet. -/
def LocalState.untouched : LocalState := ⟨.empty, .empty, .empty, {}⟩

/-- Except for its name there is nothing wrong with the invitation. -/
theorem misnamedInvitation_invites :
    Invites exampleInvitee misnamedInvitation exampleThreadKey := by
  have hexamine : Apply.examine exampleInvitee misnamedInvitation none =
      .ok (.invitation exampleThreadKey) := by decide +kernel
  exact (examine_eq_invitation_iff.mp hexamine).2

/-- The invitation fails, and its thread is tracked nevertheless. -/
theorem misnamed_invitation_keeps_thread :
    ¬ ∀ (self : Keypair) (row : String) (signed : SignedBlock) (state : LocalState)
        (reason : ProtocolError), (state.apply self row signed).1 = .error reason →
      LocalState.SameMembership state (state.apply self row signed).2 := by
  intro hatomic
  obtain ⟨noted, hnoted⟩ : ∃ noted,
      LocalState.untouched.addMember (misnamedInvitation.inviter "row") = .ok noted := ⟨_, rfl⟩
  have hwrong : ¬ misnamedInvitation.id.Names misnamedInvitation.data := by decide +kernel
  have happly := LocalState.apply_eq_of_noted rfl misnamedInvitation_invites rfl hnoted
  rw [if_neg hwrong] at happly
  have hsame := hatomic exampleInvitee "row" misnamedInvitation .untouched
    (.blockMismatch misnamedInvitation.id) (by rw [happly])
  rw [happly] at hsame
  exact LocalState.not_sameMembership_of_withThread rfl hsame

end PeerMail
