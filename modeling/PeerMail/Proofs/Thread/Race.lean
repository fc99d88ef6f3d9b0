import PeerMail.Proofs.Thread.Hosting
import PeerMail.Proofs.Thread.Interleaving

/-!
# Invitations that race for a thread

Whether a thread is tracked is looked at before the checks of an invitation, and the thread
is followed after them, so several invitations to one thread may all pass their checks.
Following it is one access to the registry: the first invitation that comes to it wins, and
all others fail, at the one place or at the other, for the same reason (`racing_invitations`).

What carries the proof is `Standing`.  Before the race is decided nothing has changed; from
then on the stores are those that the winner's steps lead to, whatever the others do, since a
thread that is tracked lets no other invitation go beyond its second step.
-/

namespace PeerMail.Apply

open LocalState Together

variable {ι : Type} {self : Keypair} {calls : ι → Call} {keys : ι → Keypair}
  {thread : ThreadId} {state next : LocalState} {reached : Together ι} {signed : SignedBlock}
  {row : String} {key : Keypair} {stage stage' : Stage} {i : ι}

/-! ## Rivals -/

/-- The blocks are invitations to one thread, and there is nothing wrong with any of them. -/
structure Rivals (invitee : Keypair) (calls : ι → Call) (thread : ThreadId) (state : LocalState)
    (keys : ι → Keypair) : Prop where
  untracked : state.threads.find? thread = none
  thread : ∀ i, (calls i).signed.thread = thread
  invites : ∀ i, Invites invitee (calls i).signed (keys i)
  added : ∀ i, ∃ noted, state.addMember ((calls i).signed.inviter (calls i).row) = .ok noted
  names : ∀ i, (calls i).signed.id.Names (calls i).signed.data

/-- What is applied to a thread that is not tracked is an invitation. -/
theorem invites_of_applied (huntracked : state.threads.find? signed.thread = none)
    (happlied : (state.apply self row signed).1 = .ok ()) :
    (∃ key, Invites self signed key) ∧ (∃ noted, state.addMember (signed.inviter row) = .ok noted) ∧
      signed.id.Names signed.data := by
  have houtcome := apply_outcome self row signed state
  rw [happlied] at houtcome
  generalize (state.apply self row signed).2 = final at houtcome
  cases houtcome with
  | joined _ hinvites hadded hnames => exact ⟨⟨_, hinvites⟩, ⟨_, hadded⟩, hnames⟩
  | extended hknown =>
      rw [lookup_eq_none huntracked] at hknown
      cases hknown

theorem rivals_of_alone (huntracked : state.threads.find? thread = none)
    (hthread : ∀ i, (calls i).signed.thread = thread)
    (halone : ∀ i, (state.apply self (calls i).row (calls i).signed).1 = .ok ()) :
    ∃ keys, Rivals self calls thread state keys := by
  have happlied := fun i => invites_of_applied (hthread i ▸ huntracked) (halone i)
  choose keys hkeys using fun i => (happlied i).1
  exact ⟨keys, huntracked, hthread, hkeys, fun i => (happlied i).2.1, fun i => (happlied i).2.2⟩

/-! ## How the race stands -/

/-- How far the winner has come, and what it has done to the state from before the race. -/
inductive Lead (call : Call) (key : Keypair) (before : LocalState) : Stage → LocalState → Prop where
  | followed :
      Lead call key before (.followed ⟨call.signed.threadName, key⟩)
        { before with threads := before.threads.withThread call.signed.threadName key }
  | noted {noted : LocalState} (added : before.addMember (call.signed.inviter call.row) = .ok noted) :
      Lead call key before (.verified call.signed.thread)
        { noted with threads := before.threads.withThread call.signed.threadName key }
  | accepted {noted : LocalState}
      (added : before.addMember (call.signed.inviter call.row) = .ok noted) :
      Lead call key before (.done (.ok ())) { noted with
        threads := (before.threads.withThread call.signed.threadName key).withBlock
          call.signed.thread call.signed.id }

/-- How far an invitation can come that does not win. -/
inductive Trailing (key : Keypair) : Stage → Prop where
  | arrived : Trailing key .arrived
  | invited : Trailing key (.invited key)
  | beaten : Trailing key (.done (.error (.admission .threadAlreadyExists)))

/-- How the race stands. -/
inductive Standing (calls : ι → Call) (keys : ι → Keypair) (before : LocalState)
    (reached : Together ι) : Prop where
  | undecided (waiting : ∀ i, reached.stage i = .arrived ∨ reached.stage i = .invited (keys i))
      (unchanged : reached.state = before)
  | decided (winner : ι)
      (lead : Lead (calls winner) (keys winner) before (reached.stage winner) reached.state)
      (others : ∀ i, i ≠ winner → Trailing (keys i) (reached.stage i))

variable {before : LocalState} {call : Call}

/-- From the moment of the decision on the thread is tracked. -/
theorem Lead.tracked (h : Lead call key before stage state)
    (huntracked : before.threads.find? (.ofKey key.publicKey) = none) :
    state.threads.find? (.ofKey key.publicKey) ≠ none := by
  have hfollowed : (before.threads.withThread call.signed.threadName key).find?
      (.ofKey key.publicKey) = some ⟨.ofKey key.publicKey, ⟨call.signed.threadName, key⟩, []⟩ := by
    rw [Registry.find?_withThread huntracked, if_pos rfl]
  cases h with
  | followed | noted => simp [hfollowed]
  | accepted => simp [Registry.find?_withBlock, hfollowed]

/-- While the thread is not tracked, an invitation to it passes its checks, and follows it next. -/
theorem advance_undecided (hinvites : Invites self call.signed key)
    (huntracked : before.threads.find? (.ofKey key.publicKey) = none)
    (hwaiting : stage = .arrived ∨ stage = .invited key)
    (hadvance : Advance self call before stage stage' next) :
    (stage' = .invited key ∧ next = before) ∨ Lead call key before stage' next := by
  rcases hwaiting with rfl | rfl
  · have hunknown : before.lookup call.signed.thread = none :=
      lookup_eq_none (hinvites.thread ▸ huntracked)
    cases hadvance with
    | unfit hexamined =>
        rw [hunknown, examine_eq_invitation_iff.mpr ⟨rfl, hinvites⟩] at hexamined
        cases hexamined
    | invites _ hagain => exact .inl ⟨congrArg Stage.invited (hagain.unique hinvites), rfl⟩
    | content hknown =>
        rw [hunknown] at hknown
        cases hknown
  · cases hadvance with
    | follows => exact .inr .followed
    | beaten htracked => exact absurd huntracked htracked

/-- An invitation comes to the point where its thread is followed, and no further if the thread is
tracked.  It changes nothing before that. -/
theorem Trailing.advance (h : Trailing key stage) (hinvites : Invites self call.signed key)
    (htracked : state.threads.find? (.ofKey key.publicKey) ≠ none)
    (hadvance : Advance self call state stage stage' next) : Trailing key stage' ∧ next = state := by
  cases h with
  | arrived =>
      cases hadvance with
      | unfit hexamined =>
          cases hknown : state.lookup call.signed.thread with
          | none =>
              rw [hknown, examine_eq_invitation_iff.mpr ⟨rfl, hinvites⟩] at hexamined
              cases hexamined
          | some known =>
              rw [hknown, hinvites.examine_of_known known] at hexamined
              cases hexamined
              exact ⟨.beaten, rfl⟩
      | invites _ hagain =>
          rw [hagain.unique hinvites]
          exact ⟨.invited, rfl⟩
      | content _ hextends => exact absurd hextends (hinvites.not_extends)
  | invited =>
      cases hadvance with
      | follows huntracked => exact absurd huntracked htracked
      | beaten => exact ⟨.beaten, rfl⟩
  | beaten =>
      cases hadvance
      exact ⟨.beaten, rfl⟩

/-- Nothing stops the winner. -/
theorem Lead.advance (h : Lead call key before stage state)
    (huntracked : before.threads.find? (.ofKey key.publicKey) = none)
    (hinvites : Invites self call.signed key)
    (hadded : ∃ noted, before.addMember (call.signed.inviter call.row) = .ok noted)
    (hnames : call.signed.id.Names call.signed.data)
    (hadvance : Advance self call state stage stage' next) : Lead call key before stage' next := by
  have hid := hinvites.id_thread call.signed.threadName
  cases h with
  | followed =>
      obtain ⟨noted, hnoted⟩ := hadded
      have hadd := addMember_withThreads_of_ok
        (before.threads.withThread call.signed.threadName key) hnoted
      rw [SignedBlock.inviter, ← hid] at hadd
      cases hadvance with
      | notes hadded =>
          rw [hadd] at hadded
          cases hadded
          rw [checkContent, if_pos hnames, hid]
          exact .noted hnoted
      | unnoted hfailed =>
          rw [hadd] at hfailed
          cases hfailed
  | noted hnoted =>
      have happend : (before.threads.withThread call.signed.threadName key).append
          (.ofKey key.publicKey) call.signed.id = .ok _ :=
        Registry.append_withThread huntracked call.signed.id
      rw [hinvites.thread] at happend
      cases hadvance with
      | appends happended =>
          rw [happend] at happended
          cases happended
          have haccepted : Lead call key before (.done (.ok ())) _ := .accepted hnoted
          exact haccepted
      | unappended hfailed =>
          rw [happend] at hfailed
          cases hfailed
  | accepted hnoted =>
      cases hadvance
      exact .accepted hnoted

theorem Rivals.key_untracked (h : Rivals self calls thread before keys) (i : ι) :
    before.threads.find? (.ofKey (keys i).publicKey) = none := by
  rw [(h.invites i).thread, h.thread i]
  exact h.untracked

/-- All rivals are after the same thread. -/
theorem Rivals.tracked (h : Rivals self calls thread before keys) {winner : ι}
    (hlead : Lead (calls winner) (keys winner) before stage state) (i : ι) :
    state.threads.find? (.ofKey (keys i).publicKey) ≠ none := by
  have htracked := hlead.tracked (h.key_untracked winner)
  rw [(h.invites winner).thread, h.thread winner] at htracked
  rw [(h.invites i).thread, h.thread i]
  exact htracked

/-! ## The end of a race -/

/-- One of the invitations is accepted, and what it leaves behind is all that has changed. -/
structure Won (invitee : Keypair) (calls : ι → Call) (thread : ThreadId) (before : LocalState)
    (winner : ι) (reached : Together ι) : Prop where
  accepted : reached.stage winner = .done (.ok ())
  refused : ∀ i, i ≠ winner → reached.stage i = .done (.error (.admission .threadAlreadyExists))
  /-- Behind the threads from before there is the new one, with the name that the winner gave it
  and the winner as its only block. -/
  tracked : ∃ key, Invites invitee (calls winner).signed key ∧
    reached.state.threads.entries = before.threads.entries ++
      [⟨thread, ⟨(calls winner).signed.threadName, key⟩, [(calls winner).signed.id]⟩]
  /-- The one new member is the peer who issued the winner. -/
  member : ∃ old new, before.db.members = some old ∧
    new.rows.Perm (((calls winner).signed.inviter (calls winner).row).toRow :: old.rows) ∧
      reached.state = { before with
        threads := reached.state.threads
        db := { before.db with members := some new } }

/-- A thread that was not tracked is the last one when it has its first block. -/
theorem entries_joined {registry : Registry} {name : String} {block : Cid}
    (huntracked : registry.find? (.ofKey key.publicKey) = none) :
    ((registry.withThread name key).withBlock (.ofKey key.publicKey) block).entries =
      registry.entries ++ [⟨.ofKey key.publicKey, ⟨name, key⟩, [block]⟩] := by
  have hothers : registry.entries.map (fun entry =>
      if entry.id = .ofKey key.publicKey then { entry with chain := entry.chain ++ [block] }
      else entry) = registry.entries := by
    refine (List.map_congr_left fun entry hentry => ?_).trans (List.map_id _)
    exact if_neg (Registry.find?_eq_none_iff.mp huntracked entry hentry)
  simp only [Registry.withThread, Registry.withBlock, List.map_append, List.map_cons, List.map_nil,
    hothers]
  simp

theorem Standing.won [Nonempty ι] (h : Standing calls keys before reached)
    (hrivals : Rivals self calls thread before keys) (hfinished : reached.Finished) :
    ∃ winner, Won self calls thread before winner reached := by
  cases h with
  | undecided hwaiting =>
      obtain ⟨i⟩ := ‹Nonempty ι›
      have hrank := hfinished i
      rcases hwaiting i with h | h <;> rw [h] at hrank <;> cases hrank
  | decided winner hlead htrailing =>
      have hrank := hfinished winner
      generalize hstage : reached.stage winner = stage at hlead hrank
      generalize hstate : reached.state = state at hlead
      cases hlead with
      | followed | noted => cases hrank
      | @accepted noted hadded =>
          have hkey : ThreadId.ofKey (keys winner).publicKey = thread :=
            (hrivals.invites winner).thread.trans (hrivals.thread winner)
          obtain ⟨-, db, hadd, rfl⟩ := addMember_eq_ok_iff.mp hadded
          obtain ⟨old, hold, -, hname, rfl⟩ := Database.addMember_eq_ok_iff.mp hadd
          refine ⟨winner, hstage, fun i hi => ?_, ?_, ?_⟩
          · have hlast := htrailing i hi
            have hrank := hfinished i
            generalize reached.stage i = last at hlast hrank ⊢
            cases hlast with
            | arrived | invited => cases hrank
            | beaten => rfl
          · refine ⟨keys winner, hrivals.invites winner, ?_⟩
            rw [hstate, hrivals.thread winner, ← hkey]
            exact entries_joined (hrivals.key_untracked winner)
          · refine ⟨old, _, hold, Table.perm_rows_put hname, ?_⟩
            rw [hstate]

/-! ## One turn, and a whole race -/

variable [DecidableEq ι]

theorem Standing.turn (h : Standing calls keys before reached)
    (hrivals : Rivals self calls thread before keys) (i : ι) :
    Standing calls keys before (reached.after self calls (.turn i)) := by
  have hadvance := after_turn_advance self calls reached i
  have hothers : ∀ j, j ≠ i →
      (reached.after self calls (.turn i)).stage j = reached.stage j :=
    fun j hj => stage_after_turn_of_ne self calls reached hj
  generalize reached.after self calls (.turn i) = next at hadvance hothers ⊢
  cases h with
  | undecided hwaiting hunchanged =>
      rw [hunchanged] at hadvance
      rcases advance_undecided (hrivals.invites i) (hrivals.key_untracked i) (hwaiting i) hadvance
        with ⟨hstage, hstate⟩ | hlead
      · -- the block has passed its checks, and nothing has changed
        refine .undecided (fun j => ?_) hstate
        by_cases hj : j = i
        · subst hj
          exact .inr hstage
        · rw [hothers j hj]
          exact hwaiting j
      · -- the first who follows the thread wins
        refine .decided i hlead fun j hj => ?_
        rw [hothers j hj]
        rcases hwaiting j with hj | hj <;> rw [hj]
        · exact .arrived
        · exact .invited
  | decided winner hlead htrailing =>
      by_cases hi : i = winner
      · subst hi
        refine .decided i ?_ fun j hj => hothers j hj ▸ htrailing j hj
        exact hlead.advance (hrivals.key_untracked i) (hrivals.invites i) (hrivals.added i)
          (hrivals.names i) hadvance
      · have htracked := hrivals.tracked hlead i
        obtain ⟨hstage, hstate⟩ := (htrailing i hi).advance (hrivals.invites i) htracked hadvance
        refine .decided winner ?_ fun j hj => ?_
        · rw [hothers winner (Ne.symm hi), hstate]
          exact hlead
        · by_cases hji : j = i
          · subst hji
            exact hstage
          · rw [hothers j hji]
            exact htrailing j hj

theorem Standing.run (h : Standing calls keys before reached)
    (hrivals : Rivals self calls thread before keys) (turns : List ι) :
    Standing calls keys before (reached.run self calls (turns.map .turn)) := by
  induction turns generalizing reached with
  | nil => exact h
  | cons i rest ih => exact ih (h.turn hrivals i)

/-- **Of racing invitations exactly one is accepted.**  Several invitations to a thread that is not
tracked, each of which would be applied if it came alone, are applied at the same time.  Whatever
the order of their steps is, four turns bring each of them to its end, and then one of them has been
accepted, all others are told that the thread exists, and the threads and members are those that the
accepted one would have left behind alone. -/
theorem racing_invitations [Nonempty ι] {state : LocalState} {calls : ι → Call}
    (huntracked : state.threads.find? thread = none)
    (hthread : ∀ i, (calls i).signed.thread = thread)
    (halone : ∀ i, (state.apply self (calls i).row (calls i).signed).1 = .ok ())
    (turns : List ι) :
    let reached := (start state).run self calls (turns.map .turn)
    ((∀ i, 4 ≤ turns.count i) → reached.Finished) ∧
      (reached.Finished → ∃ winner, Won self calls thread state winner reached) := by
  intro reached
  obtain ⟨keys, hrivals⟩ := rivals_of_alone huntracked hthread halone
  have hstart : Standing calls keys state (start state) := .undecided (fun _ => .inl rfl) rfl
  exact ⟨finished_of_turns self calls state, (hstart.run hrivals turns).won hrivals⟩

/-! ## Two invitations to one thread -/

/-- The box with the secret of the thread opens. -/
theorem exampleBox_opens :
    exampleInvitee.Opens exampleThreadKey.secret.val exampleEntropy exampleBox :=
  ⟨by decide +kernel, by decide +kernel⟩

/-- An invitation to the thread, from whoever holds its secret. -/
def holidayInvitation (issuer : Keypair) (name : String) : SignedBlock :=
  .sign exampleThreadKey issuer name (.boxed exampleInvitee exampleBox [])

/-- Both invite the same peer, each under a name of their own. -/
def rivalInvitations : Bool → Call
  | true => ⟨"first", holidayInvitation examplePhotographer "holiday"⟩
  | false => ⟨"second", holidayInvitation exampleThreadKey "vacation"⟩

/-- The second invitation passes its checks before the first one follows the thread. -/
theorem holiday_race :
    (∀ i, (untouched.apply exampleInvitee (rivalInvitations i).row
      (rivalInvitations i).signed).1 = .ok ()) ∧
    ∃ winner, Won exampleInvitee rivalInvitations (.ofKey exampleThreadKey.publicKey) untouched
      winner ((start untouched).run exampleInvitee rivalInvitations
        ([true, false, true, false, false, true, true, false].map .turn)) := by
  have hthread : ∀ i, (rivalInvitations i).signed.thread = .ofKey exampleThreadKey.publicKey := by
    intro i
    cases i <;> rfl
  have halone : ∀ i, (untouched.apply exampleInvitee (rivalInvitations i).row
      (rivalInvitations i).signed).1 = .ok () := by
    intro i
    have hopen : ∀ row, untouched.Open (.ofKey exampleThreadKey.publicKey) row :=
      fun row => ⟨rfl, .empty, rfl, rfl, .empty, rfl, rfl, by simp [Table.empty]⟩
    cases i with
    | true | false =>
        exact (hosts_of_invites (hopen _)
          (SignedBlock.invites_sign exampleBox_opens (by decide)) rfl).1
  obtain ⟨hends, hwon⟩ := racing_invitations rfl hthread halone
    [true, false, true, false, false, true, true, false]
  exact ⟨halone, hwon (hends (by decide))⟩

end PeerMail.Apply
