import PeerMail.Proofs.Store.Frames
import PeerMail.Proofs.Thread.Outcomes

/-!
# Blocks that come again

A block that has been applied fails when it comes again, for a reason that its kind
decides (`SignedBlock.Repetition`), and changes nothing: the thread of an invitation
is tracked, and content is in the chain of its thread.  That stays so for as long as
threads are kept, so it does not matter how much has happened in between
(`apply_repeated`).

A block that fails may leave something behind the first time, but not the second time
(`apply_twice`).  The name of a member's row is made anew each time, and whether a
member can be noted does not depend on it unless it is taken.
-/

namespace PeerMail

/-- Why a block fails when it comes again. -/
inductive SignedBlock.Repetition (signed : SignedBlock) (threads : Registry) :
    ProtocolError → Prop where
  | invitation {block : ThreadBlock} (decoded : signed.block = .ok block)
      (kind : block.kind = .invite) :
      Repetition signed threads (.admission .threadAlreadyExists)
  | content {block : ThreadBlock} {thread : Thread} (decoded : signed.block = .ok block)
      (kind : block.kind = .photo) (known : threads.lookup signed.thread = some thread) :
      Repetition signed threads (.thread (.duplicateBlock thread.id signed.id))

namespace LocalState

variable {self key : Keypair} {row row' : String} {signed : SignedBlock}
  {state final later : LocalState} {reason : ProtocolError}

/-! ## Names of rows -/

/-- No member stands under the name of a row. -/
def Unused (state : LocalState) (row : String) : Prop :=
  ∀ members, state.db.members = some members → members.find? (Utf8.encode row) = none

/-- Which of two unused names a row gets makes no difference to whether a member can be noted. -/
theorem addMember_unused (hrow' : state.Unused row') :
    (∃ noted, state.addMember (signed.inviter row) = .ok noted) →
      ∃ noted, state.addMember (signed.inviter row') = .ok noted := by
  rintro ⟨noted, hnoted⟩
  obtain ⟨hfault, db, hdb, -⟩ := addMember_eq_ok_iff.mp hnoted
  obtain ⟨members, hmembers, hfree, -, -⟩ := Database.addMember_eq_ok_iff.mp hdb
  exact ⟨_, addMember_eq_ok_iff.mpr ⟨hfault, _,
    Database.addMember_eq_ok_iff.mpr ⟨members, hmembers, hfree, hrow' members hmembers, rfl⟩, rfl⟩⟩

/-- Applying a block switches no fault on or off. -/
theorem apply_faults (self : Keypair) (row : String) (signed : SignedBlock) (state : LocalState) :
    (state.apply self row signed).2.faults = state.faults := by
  have houtcome := apply_outcome self row signed state
  generalize (state.apply self row signed).1 = result at houtcome
  generalize (state.apply self row signed).2 = final at houtcome ⊢
  cases houtcome with
  | refused | stranded | extended => rfl
  | misnamed _ _ hadded | joined _ _ hadded =>
      obtain ⟨-, _, -, rfl⟩ := addMember_eq_ok_iff.mp hadded
      rfl

/-! ## Blocks that are known already -/

/-- An invitation to a tracked thread changes nothing, whether or not its thread can be looked
up. -/
theorem apply_of_tracked (hinvites : Invites self signed key)
    (htracked : state.threads.find? signed.thread ≠ none) :
    state.apply self row signed = (.error (.admission .threadAlreadyExists), state) := by
  cases hknown : state.lookup signed.thread with
  | none => exact apply_eq_of_tracked hknown hinvites htracked
  | some thread =>
      refine apply_eq_of_examine_error ?_
      rw [hknown, hinvites.examine_of_known thread]

/-- Content that is in the chain of its thread changes nothing. -/
theorem apply_of_held {thread : Thread} (hknown : state.lookup signed.thread = some thread)
    (hextends : Extends signed thread) (hnames : signed.id.Names signed.data)
    (hheld : signed.id ∈ state.threads.chain thread.id) :
    state.apply self row signed =
      (.error (.thread (.duplicateBlock thread.id signed.id)), state) := by
  have happend : state.threads.append thread.id signed.id =
      .error (.duplicateBlock thread.id signed.id) := by
    unfold Registry.chain at hheld
    unfold Registry.append
    cases hfound : state.threads.find? thread.id with
    | none => simp [hfound] at hheld
    | some entry =>
        have hmem : signed.id ∈ entry.chain := by simpa [hfound] using hheld
        simp [hmem]
  rw [apply_eq_of_extends hknown hextends, if_pos hnames, happend]

/-- An invitation that was applied left its thread, which stays. -/
theorem apply_joined_again (huntracked : state.threads.find? signed.thread = none)
    (hinvites : Invites self signed key)
    (hkept : ((state.threads.withThread signed.threadName key).withBlock signed.thread
      signed.id).Kept later.threads) (row' : String) :
    ∃ reason, signed.Repetition later.threads reason ∧
      later.apply self row' signed = (.error reason, later) := by
  obtain ⟨block, hblock, hkind, -, -⟩ := hinvites.block
  have hfollowed : ((state.threads.withThread signed.threadName key).withBlock signed.thread
      signed.id).lookup signed.thread = some ⟨signed.threadName, key⟩ := by
    rw [Registry.lookup, Registry.find?_withBlock,
      Registry.find?_withThread (hinvites.thread ▸ huntracked), if_pos hinvites.thread,
      hinvites.thread]
    simp
  have htracked : later.threads.find? signed.thread ≠ none := by
    intro hnone
    have hlater := (hkept signed.thread _ hfollowed).1
    rw [Registry.lookup_eq_none_iff.mpr hnone] at hlater
    cases hlater
  exact ⟨_, .invitation hblock hkind, apply_of_tracked hinvites htracked⟩

/-- Content that was applied left its name in the chain of its thread, and both stay. -/
theorem apply_extended_again {thread : Thread} {entry : ThreadEntry}
    (hknown : state.lookup signed.thread = some thread) (hextends : Extends signed thread)
    (hfound : state.threads.find? thread.id = some entry) (hnames : signed.id.Names signed.data)
    (hkept : (state.threads.withBlock thread.id signed.id).Kept later.threads)
    (hlookup : later.faults.lookupHidden = state.faults.lookupHidden) (row' : String) :
    ∃ reason, signed.Repetition later.threads reason ∧
      later.apply self row' signed = (.error reason, later) := by
  obtain ⟨block, hblock, hkind⟩ := hextends.block
  -- the thread can be looked up, as it could before, and still has the same key
  have hthread : later.threads.lookup signed.thread = some thread :=
    (((Registry.kept_withBlock signed.id).trans hkept) signed.thread thread
      (find?_of_lookup hknown)).1
  have hseen : later.lookup signed.thread = some thread := by
    unfold lookup at hknown ⊢
    rw [hlookup]
    split at hknown
    · cases hknown
    · next hshown => rw [if_neg hshown, hthread]
  -- and the block stays in the chain that it was appended to
  have hextended : (state.threads.withBlock thread.id signed.id).find? thread.id =
      some { entry with chain := entry.chain ++ [signed.id] } := by
    rw [Registry.find?_withBlock, hfound, Option.map_some,
      if_pos (Registry.find?_eq_some hfound).2]
  have hprefix := (hkept thread.id entry.thread (by
    show Registry.lookup (state.threads.withBlock thread.id signed.id) thread.id = _
    rw [Registry.lookup, hextended, Option.map_some])).2
  have hheld : signed.id ∈ later.threads.chain thread.id := by
    refine hprefix.subset ?_
    show signed.id ∈ Registry.chain (state.threads.withBlock thread.id signed.id) thread.id
    simp [Registry.chain, hextended]
  exact ⟨_, .content hblock hkind hthread, apply_of_held hseen hextends hnames hheld⟩

/-- **A block that has been applied fails when it comes again**, however much has happened in
between. -/
theorem apply_repeated (happlied : state.apply self row signed = (.ok (), final))
    (hkept : final.threads.Kept later.threads)
    (hlookup : later.faults.lookupHidden = state.faults.lookupHidden) (row' : String) :
    ∃ reason, signed.Repetition later.threads reason ∧
      later.apply self row' signed = (.error reason, later) := by
  have houtcome := apply_outcome self row signed state
  rw [happlied] at houtcome
  cases houtcome with
  | joined huntracked hinvites =>
      exact apply_joined_again huntracked hinvites hkept row'
  | extended hknown hextends hfound hfresh hnames =>
      exact apply_extended_again hknown hextends hfound hnames hkept hlookup row'

/-! ## Blocks that fail -/

/-- A block that fails and leaves everything as it was does so again. -/
theorem apply_refused_again (hrow : state.Unused row) (hrow' : state.Unused row')
    (hrefused : state.apply self row signed = (.error reason, state)) :
    (state.apply self row' signed).2 = state := by
  have houtcome := apply_outcome self row' signed state
  generalize (state.apply self row' signed).1 = result at houtcome
  generalize (state.apply self row' signed).2 = final at houtcome ⊢
  cases houtcome with
  | refused => rfl
  | extended hknown hextends hfound hfresh hnames =>
      rw [apply_eq_of_extends hknown hextends, if_pos hnames,
        Registry.append_eq_ok_iff.mpr ⟨⟨_, hfound, hfresh⟩, rfl⟩] at hrefused
      cases hrefused
  | joined huntracked hinvites hadded hnames =>
      obtain ⟨noted, hnoted⟩ := addMember_unused hrow ⟨_, hadded⟩
      rw [apply_eq_of_noted (lookup_eq_none huntracked) hinvites huntracked hnoted,
        if_pos hnames] at hrefused
      cases hrefused
  | misnamed huntracked hinvites hadded hwrong =>
      obtain ⟨noted, hnoted⟩ := addMember_unused hrow ⟨_, hadded⟩
      rw [apply_eq_of_noted (lookup_eq_none huntracked) hinvites huntracked hnoted,
        if_neg hwrong] at hrefused
      exact absurd (congrArg LocalState.threads (Prod.mk.inj hrefused).2)
        Registry.withThread_ne_self
  | @stranded key fault huntracked hinvites hfailed hstuck =>
      cases hadd : state.addMember (signed.inviter row) with
      | ok noted =>
          obtain ⟨_, hnoted⟩ := addMember_unused hrow' ⟨_, hadd⟩
          rw [hfailed] at hnoted
          cases hnoted
      | error fault =>
          rw [apply_eq_of_not_noted (lookup_eq_none huntracked) hinvites huntracked hadd,
            if_pos hstuck] at hrefused
          exact absurd (congrArg LocalState.threads (Prod.mk.inj hrefused).2)
            Registry.withThread_ne_self

/-- **Applying a block twice is applying it once.** -/
theorem apply_twice (hrow : state.Unused row)
    (hrow' : (state.apply self row signed).2.Unused row') :
    ((state.apply self row signed).2.apply self row' signed).2 =
      (state.apply self row signed).2 := by
  have houtcome := apply_outcome self row signed state
  have hfaults := apply_faults self row signed state
  rcases happly : state.apply self row signed with ⟨result, final⟩
  rw [happly] at houtcome hfaults hrow'
  -- an invitation that left anything behind left its thread
  have hfollowed : ∀ key, state.threads.find? signed.thread = none → Invites self signed key →
      (state.threads.withThread signed.threadName key).find? signed.thread ≠ none := by
    intro key huntracked hinvites
    rw [Registry.find?_withThread (hinvites.thread ▸ huntracked), if_pos hinvites.thread]
    exact Option.some_ne_none _
  cases houtcome with
  | refused => exact apply_refused_again hrow hrow' happly
  | joined | extended =>
      obtain ⟨reason, -, hagain⟩ := apply_repeated happly (.refl _)
        (congrArg Faults.lookupHidden hfaults) row'
      rw [hagain]
  | misnamed huntracked hinvites =>
      rw [apply_of_tracked hinvites (hfollowed _ huntracked hinvites)]
  | stranded huntracked hinvites =>
      rw [apply_of_tracked hinvites (hfollowed _ huntracked hinvites)]

end LocalState

end PeerMail
