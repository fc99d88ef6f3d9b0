import PeerMail.Proofs.Thread.Race

/-!
# What a rollback takes with it

An invitation follows its thread before its inviter is noted.  If the inviter cannot be noted,
the thread is removed again, and so is whatever has been appended to it in between: a photo that
was looked up while the thread was there may have been accepted by then.

`accepted_lost_iff` says that this is the only way in which an accepted block is lost.  It rests
on an invariant of all orders of steps (`Consistent`): a thread that an invitation has followed
belongs to that invitation alone until it has ended, and is tracked as long as it does.
-/

namespace PeerMail.Apply

open LocalState Together

/-! ## Stages -/

/-- The thread of an invitation is followed, and its inviter is not noted yet. -/
inductive Stage.Joining : Stage → Prop where
  | followed (thread : Thread) : Joining (.followed thread)
  | refused (thread : Thread) (fault : StorageError) : Joining (.refused thread fault)

/-- The thread is followed for the sake of this invitation, which has not ended. -/
inductive Owns (self : Keypair) (call : Call) : Stage → Prop where
  | joining {stage : Stage} (joining : stage.Joining) : Owns self call stage
  | verified {key : Keypair} (invites : Invites self call.signed key) (thread : ThreadId) :
      Owns self call (.verified thread)

/-- The next step removes a thread again. -/
def RollsBack (stage : Stage) (state : LocalState) : Prop :=
  (∃ thread fault, stage = .refused thread fault) ∧ state.faults.removeFails = false

/-- What a stage tells about the block that has come to it. -/
inductive Place (self : Keypair) (call : Call) : Stage → Prop where
  | arrived : Place self call .arrived
  | invited {key : Keypair} (invites : Invites self call.signed key) :
      Place self call (.invited key)
  | followed {key : Keypair} (invites : Invites self call.signed key) :
      Place self call (.followed ⟨call.signed.threadName, key⟩)
  | refused {key : Keypair} {fault : StorageError} (invites : Invites self call.signed key) :
      Place self call (.refused ⟨call.signed.threadName, key⟩ fault)
  | verified : Place self call (.verified call.signed.thread)
  | done {result : Except ProtocolError Unit} : Place self call (.done result)

variable {ι : Type} {self : Keypair} {calls : ι → Call} {call : Call} {stage stage' : Stage}
  {state next : LocalState} {reached : Together ι} {id : ThreadId} {block : Cid} {i : ι}

theorem place_checkContent : Place self call (checkContent call.signed call.signed.thread) := by
  rcases checkContent_cases call.signed call.signed.thread with ⟨-, h⟩ | ⟨-, h⟩ <;> rw [h]
  · exact .verified
  · exact .done

theorem not_joining_checkContent (signed : SignedBlock) (thread : ThreadId) :
    ¬ (checkContent signed thread).Joining := by
  intro h
  rcases checkContent_cases signed thread with ⟨-, heq⟩ | ⟨-, heq⟩ <;> rw [heq] at h <;> cases h

/-- Content that passes its checks does not own its thread. -/
theorem not_owns_checkContent {thread : Thread} (hextends : Extends call.signed thread) :
    ¬ Owns self call (checkContent call.signed id) := by
  intro h
  generalize hstage : checkContent call.signed id = stage at h
  cases h with
  | joining hjoining => exact not_joining_checkContent _ _ (hstage ▸ hjoining)
  | verified hinvites => exact hinvites.not_extends hextends

/-! ## What one step keeps -/

namespace Advance

theorem keyed (h : Advance self call state stage stage' next) (hkeyed : state.threads.Keyed) :
    next.threads.Keyed := by
  cases h with
  | unfit | invites | content | beaten | unnoted | leaves | unappended | ended => exact hkeyed
  | follows => exact hkeyed.withThread
  | notes hadded =>
      obtain ⟨-, db, -, rfl⟩ := addMember_eq_ok_iff.mp hadded
      exact hkeyed
  | removes _ hremoved => exact hkeyed.remove hremoved
  | appends happended =>
      obtain ⟨-, rfl⟩ := Registry.append_eq_ok_iff.mp happended
      exact hkeyed.withBlock

theorem place (h : Advance self call state stage stage' next) (hkeyed : state.threads.Keyed)
    (hplace : Place self call stage) : Place self call stage' := by
  cases h with
  | unfit | beaten | removes | leaves | appends | unappended => exact .done
  | ended => exact hplace
  | invites _ hinvites => exact .invited hinvites
  | content hknown =>
      rw [hkeyed.id_of_lookup (find?_of_lookup hknown)]
      exact place_checkContent
  | follows =>
      cases hplace with
      | invited hinvites => exact .followed hinvites
  | notes =>
      cases hplace with
      | followed hinvites =>
          rw [hinvites.id_thread]
          exact place_checkContent
  | unnoted =>
      cases hplace with
      | followed hinvites => exact .refused hinvites

/-- Threads are kept, but for one that is removed again. -/
theorem kept (h : Advance self call state stage stage' next) (hplace : Place self call stage) :
    Registry.Kept state.threads next.threads ∨
      RollsBack stage state ∧ state.threads.remove call.signed.thread = .ok next.threads := by
  cases h with
  | unfit | invites | content | beaten | unnoted | leaves | unappended | ended =>
      exact .inl (.refl _)
  | follows huntracked => exact .inl (Registry.kept_withThread huntracked)
  | notes hadded =>
      obtain ⟨-, db, -, rfl⟩ := addMember_eq_ok_iff.mp hadded
      exact .inl (.refl _)
  | removes hworks hremoved =>
      cases hplace with
      | refused hinvites =>
          rw [hinvites.id_thread] at hremoved
          exact .inr ⟨⟨⟨_, _, rfl⟩, hworks⟩, hremoved⟩
  | appends happended =>
      obtain ⟨-, rfl⟩ := Registry.append_eq_ok_iff.mp happended
      exact .inl (Registry.kept_withBlock _)

/-- A thread that is being joined was being joined before, or it was not tracked. -/
theorem joining (h : Advance self call state stage stage' next) (hplace : Place self call stage)
    (hjoining : stage'.Joining) :
    stage.Joining ∨ state.threads.find? call.signed.thread = none := by
  cases h with
  | unfit | invites | beaten | removes | leaves | appends | unappended | ended => cases hjoining
  | content | notes => exact absurd hjoining (not_joining_checkContent _ _)
  | unnoted => exact .inl (.followed _)
  | follows huntracked =>
      cases hplace with
      | invited hinvites =>
          rw [hinvites.thread] at huntracked
          exact .inr huntracked

/-- A thread changes hands only when it is followed. -/
theorem owns (h : Advance self call state stage stage' next) (hplace : Place self call stage)
    (howns : Owns self call stage') :
    (Owns self call stage ∧ next.threads = state.threads) ∨
      (state.threads.find? call.signed.thread = none ∧
        next.threads.find? call.signed.thread ≠ none) := by
  cases h with
  | unfit | invites | beaten | removes | leaves | appends | unappended | ended =>
      obtain ⟨⟨⟩⟩ := howns
  | content _ hextends => exact absurd howns (not_owns_checkContent hextends)
  | unnoted => exact .inl ⟨.joining (.followed _), rfl⟩
  | notes hadded =>
      obtain ⟨-, db, -, rfl⟩ := addMember_eq_ok_iff.mp hadded
      exact .inl ⟨.joining (.followed _), rfl⟩
  | follows huntracked =>
      cases hplace with
      | invited hinvites =>
          refine .inr ⟨hinvites.thread ▸ huntracked, ?_⟩
          rw [Registry.find?_withThread huntracked, if_pos hinvites.thread]
          simp

/-- A block that is accepted is in the chain of its thread. -/
theorem accepted (h : Advance self call state stage stage' next) (hplace : Place self call stage)
    (hopen : stage.rank ≠ 0) (haccepted : stage' = .done (.ok ())) :
    stage = .verified call.signed.thread ∧
      call.signed.id ∈ next.threads.chain call.signed.thread := by
  cases h with
  | unfit | invites | beaten | unnoted | removes | leaves | unappended | follows =>
      cases haccepted
  | content | notes =>
      unfold checkContent at haccepted
      split at haccepted <;> cases haccepted
  | ended => exact absurd rfl hopen
  | appends happended =>
      cases hplace with
      | verified =>
          obtain ⟨⟨entry, hentry, -⟩, rfl⟩ := Registry.append_eq_ok_iff.mp happended
          refine ⟨rfl, Registry.mem_chain_iff.mpr ?_⟩
          rw [Registry.find?_withBlock, hentry, Option.map_some,
            if_pos (Registry.find?_eq_some hentry).2]
          exact ⟨_, rfl, List.mem_append_right _ List.mem_cons_self⟩

end Advance

/-! ## What every order of steps keeps -/

/-- Every block is where it can be, and a thread that is being joined is tracked and belongs to one
invitation. -/
structure Consistent (invitee : Keypair) (calls : ι → Call) (reached : Together ι) : Prop where
  keyed : reached.state.threads.Keyed
  placed : ∀ i, Place invitee (calls i) (reached.stage i)
  tracked : ∀ i, Owns invitee (calls i) (reached.stage i) →
    reached.state.threads.find? (calls i).signed.thread ≠ none
  sole : ∀ i j, Owns invitee (calls i) (reached.stage i) → Owns invitee (calls j) (reached.stage j) →
    (calls i).signed.thread = (calls j).signed.thread → i = j

theorem consistent_start (hkeyed : state.threads.Keyed) :
    Consistent self calls (start state) where
  keyed := hkeyed
  placed := fun _ => .arrived
  tracked := by rintro i ⟨⟨⟩⟩
  sole := by rintro i j ⟨⟨⟩⟩

namespace Consistent

/-- A step makes nobody the owner of a thread that another block owns: whom it makes an owner
found the thread untracked. -/
theorem thread_ne (h : Consistent self calls reached)
    (hadvance : Advance self (calls i) reached.state (reached.stage i) stage' next) {j : ι}
    (hj : j ≠ i) (howns : Owns self (calls j) (reached.stage j))
    (howns' : Owns self (calls i) stage') : (calls j).signed.thread ≠ (calls i).signed.thread := by
  intro heq
  rcases hadvance.owns (h.placed i) howns' with ⟨hbefore, -⟩ | ⟨huntracked, -⟩
  · exact hj (h.sole j i howns hbefore heq)
  · exact h.tracked j howns (heq ▸ huntracked)

/-- A thread that a block owns is not removed by the steps of another. -/
theorem tracked_of_owns (h : Consistent self calls reached)
    (hadvance : Advance self (calls i) reached.state (reached.stage i) stage' next) {j : ι}
    (hj : j ≠ i) (howns : Owns self (calls j) (reached.stage j)) :
    next.threads.find? (calls j).signed.thread ≠ none := by
  rcases hadvance.kept (h.placed i) with hkept | ⟨⟨⟨thread, fault, hrefused⟩, -⟩, hremoved⟩
  · exact hkept.find?_ne_none (h.tracked j howns)
  · have hne : (calls j).signed.thread ≠ (calls i).signed.thread := by
      intro heq
      refine hj (h.sole j i howns (.joining ?_) heq)
      rw [hrefused]
      exact .refused thread fault
    rw [Registry.find?_of_remove hremoved, if_neg hne]
    exact h.tracked j howns

end Consistent

variable [DecidableEq ι]

namespace Consistent

theorem turn (h : Consistent self calls reached) (i : ι) :
    Consistent self calls (reached.after self calls (.turn i)) := by
  have hadvance := after_turn_advance self calls reached i
  have hothers : ∀ j, j ≠ i → (reached.after self calls (.turn i)).stage j = reached.stage j :=
    fun j hj => stage_after_turn_of_ne self calls reached hj
  generalize reached.after self calls (.turn i) = next at hadvance hothers ⊢
  constructor
  case keyed => exact hadvance.keyed h.keyed
  case placed =>
    intro j
    by_cases hj : j = i
    · subst hj
      exact hadvance.place h.keyed (h.placed j)
    · rw [hothers j hj]
      exact h.placed j
  case tracked =>
    intro j howns
    by_cases hj : j = i
    · subst hj
      rcases hadvance.owns (h.placed j) howns with ⟨hbefore, hsame⟩ | ⟨-, htracked⟩
      · rw [hsame]
        exact h.tracked j hbefore
      · exact htracked
    · rw [hothers j hj] at howns
      exact h.tracked_of_owns hadvance hj howns
  case sole =>
    intro j k hj hk heq
    by_cases hji : j = i <;> by_cases hki : k = i
    · rw [hji, hki]
    · subst hji
      rw [hothers k hki] at hk
      exact absurd heq.symm (h.thread_ne hadvance hki hk hj)
    · subst hki
      rw [hothers j hji] at hj
      exact absurd heq (h.thread_ne hadvance hji hj hk)
    · rw [hothers j hji] at hj
      rw [hothers k hki] at hk
      exact h.sole j k hj hk heq

theorem after (h : Consistent self calls reached) (moment : Moment ι) :
    Consistent self calls (reached.after self calls moment) := by
  cases moment with
  | turn i => exact h.turn i
  | memberFault fault => exact ⟨h.keyed, h.placed, h.tracked, h.sole⟩

theorem run (h : Consistent self calls reached) (moments : List (Moment ι)) :
    Consistent self calls (reached.run self calls moments) := by
  induction moments generalizing reached with
  | nil => exact h
  | cons moment rest ih => exact ih (h.after moment)

/-! ## How blocks are lost -/

/-- A block stays in its chain, unless its thread is removed again. -/
theorem mem_chain_after (h : Consistent self calls reached)
    (hmem : block ∈ reached.state.threads.chain id) (moment : Moment ι) :
    block ∈ (reached.after self calls moment).state.threads.chain id ∨
      ∃ j, moment = .turn j ∧ RollsBack (reached.stage j) reached.state ∧
        (calls j).signed.thread = id := by
  cases moment with
  | memberFault fault => exact .inl hmem
  | turn j =>
      have hadvance := after_turn_advance self calls reached j
      rcases hadvance.kept (h.placed j) with hkept | ⟨hrolls, hremoved⟩
      · exact .inl (hkept.mem_chain hmem)
      · by_cases hid : (calls j).signed.thread = id
        · exact .inr ⟨j, rfl, hrolls, hid⟩
        · left
          rw [Registry.mem_chain_iff] at hmem ⊢
          rw [Registry.find?_of_remove hremoved, if_neg (Ne.symm hid)]
          exact hmem

/-- A thread that is removed again has no blocks any more. -/
theorem chain_of_rollsBack (h : Consistent self calls reached) {j : ι}
    (hrolls : RollsBack (reached.stage j) reached.state) :
    (reached.after self calls (.turn j)).state.threads.chain (calls j).signed.thread = [] := by
  have hadvance := after_turn_advance self calls reached j
  have hplace := h.placed j
  have htracked := h.tracked j
  obtain ⟨⟨thread, fault, hrefused⟩, hworks⟩ := hrolls
  generalize reached.after self calls (.turn j) = next at hadvance ⊢
  generalize hstage : next.stage j = stage' at hadvance
  generalize hstate : next.state = state' at hadvance ⊢
  rw [hrefused] at hadvance hplace htracked
  have hid : thread.id = (calls j).signed.thread := by
    cases hplace with
    | refused hinvites => exact hinvites.id_thread _
  cases hadvance with
  | removes _ hremoved =>
      rw [hid] at hremoved
      rw [Registry.chain, Registry.find?_of_remove hremoved, if_pos rfl]
      rfl
  | leaves hstuck =>
      rcases hstuck with hfails | huntracked
      · rw [hworks] at hfails
        cases hfails
      · rw [hid] at huntracked
        exact absurd huntracked (htracked (.joining (.refused thread fault)))

/-- Whoever is joining a thread that holds a block was joining it before. -/
theorem joining_of_after (h : Consistent self calls reached)
    (hmem : block ∈ reached.state.threads.chain id) {moment : Moment ι} {j : ι}
    (hjoining : ((reached.after self calls moment).stage j).Joining)
    (hid : (calls j).signed.thread = id) : (reached.stage j).Joining := by
  cases moment with
  | memberFault fault => exact hjoining
  | turn k =>
      by_cases hjk : j = k
      · subst hjk
        have hadvance := after_turn_advance self calls reached j
        rcases hadvance.joining (h.placed j) hjoining with hbefore | huntracked
        · exact hbefore
        · obtain ⟨entry, hentry, -⟩ := Registry.mem_chain_iff.mp hmem
          rw [hid, hentry] at huntracked
          cases huntracked
      · rw [stage_after_turn_of_ne self calls reached hjk] at hjoining
        exact hjoining

/-- A block that is lost was in a thread that was being joined, and that has been removed again. -/
theorem rollsBack_of_lost (h : Consistent self calls reached)
    (hmem : block ∈ reached.state.threads.chain id) {later : List (Moment ι)}
    (hlost : block ∉ (reached.run self calls later).state.threads.chain id) :
    ∃ j, (reached.stage j).Joining ∧ (calls j).signed.thread = id ∧
      ∃ moments, moments ++ [.turn j] <+: later ∧
        RollsBack ((reached.run self calls moments).stage j)
          (reached.run self calls moments).state := by
  induction later generalizing reached with
  | nil => exact absurd hmem hlost
  | cons moment rest ih =>
      rcases h.mem_chain_after hmem moment with hkept | ⟨j, rfl, hrolls, hid⟩
      · obtain ⟨j, hjoining, hid, moments, hprefix, hrolls⟩ := ih (h.after moment) hkept hlost
        refine ⟨j, h.joining_of_after hmem hjoining hid, hid, moment :: moments, ?_, hrolls⟩
        exact List.cons_prefix_cons.mpr ⟨rfl, hprefix⟩
      · refine ⟨j, ?_, hid, [], List.cons_prefix_cons.mpr ⟨rfl, List.nil_prefix⟩, hrolls⟩
        obtain ⟨⟨thread, fault, hrefused⟩, -⟩ := hrolls
        rw [hrefused]
        exact .refused thread fault

end Consistent

/-- **An accepted block is lost exactly if its thread is removed again.**  Blocks are applied at the
same time, noting members begins and ceases to fail at any time, and one of the blocks has just been
accepted.  It is then in the chain of its thread for as long as no invitation removes the thread, and
only an invitation can do so that had followed the thread when the block was accepted and had not
noted its inviter yet.  An invitation that has been accepted is never lost. -/
theorem accepted_lost_iff {state : LocalState} (hkeyed : state.threads.Keyed)
    (earlier later : List (Moment ι)) {i : ι}
    (hopen : (((start state).run self calls earlier).stage i).rank ≠ 0)
    (haccepted : (((start state).run self calls earlier).after self calls (.turn i)).stage i =
      .done (.ok ())) :
    let signed := (calls i).signed
    let reached := (start state).run self calls earlier
    let accepted := reached.after self calls (.turn i)
    ((∃ moments, moments <+: later ∧
        signed.id ∉ (accepted.run self calls moments).state.threads.chain signed.thread) ↔
      ∃ j, (reached.stage j).Joining ∧ (calls j).signed.thread = signed.thread ∧
        ∃ moments, moments ++ [.turn j] <+: later ∧
          RollsBack ((accepted.run self calls moments).stage j)
            (accepted.run self calls moments).state) ∧
    ((∃ key, Invites self signed key) → ∀ moments,
      signed.id ∈ (accepted.run self calls moments).state.threads.chain signed.thread) := by
  intro signed reached accepted
  have hreached : Consistent self calls reached := (consistent_start hkeyed).run earlier
  have hnext : Consistent self calls accepted := hreached.turn i
  have hadvance := after_turn_advance self calls reached i
  obtain ⟨hverified, hmem⟩ := hadvance.accepted (hreached.placed i) hopen haccepted
  -- a thread that is being joined once the block is accepted was being joined by another block
  have hbefore : ∀ j, (accepted.stage j).Joining → j ≠ i ∧ (reached.stage j).Joining := by
    intro j hjoining
    have hne : j ≠ i := by
      rintro rfl
      rw [show accepted.stage j = .done (.ok ()) from haccepted] at hjoining
      cases hjoining
    rw [show accepted.stage j = reached.stage j from
      stage_after_turn_of_ne self calls reached hne] at hjoining
    exact ⟨hne, hjoining⟩
  refine ⟨⟨?_, ?_⟩, ?_⟩
  · rintro ⟨moments, hprefix, hlost⟩
    obtain ⟨j, hjoining, hid, earlier', hprefix', hrolls⟩ := hnext.rollsBack_of_lost hmem hlost
    exact ⟨j, (hbefore j hjoining).2, hid, earlier', hprefix'.trans hprefix, hrolls⟩
  · rintro ⟨j, -, hid, moments, hprefix, hrolls⟩
    refine ⟨moments ++ [.turn j], hprefix, ?_⟩
    have hgone := (hnext.run moments).chain_of_rollsBack hrolls
    rw [hid] at hgone
    rw [run_append, run_cons, run_nil, hgone]
    exact List.not_mem_nil
  · rintro ⟨key, hinvites⟩ moments
    by_contra hlost
    obtain ⟨j, hjoining, hid, -⟩ := hnext.rollsBack_of_lost hmem hlost
    -- the invitation itself owns the thread, so nobody else is joining it
    obtain ⟨hne, hjoining⟩ := hbefore j hjoining
    have howns : Owns self (calls i) (reached.stage i) := by
      rw [hverified]
      exact .verified hinvites _
    exact hne (hreached.sole j i (.joining hjoining) howns hid)

/-! ## A photo that comes too early -/

/-- An invitation follows its thread, and a photo passes its checks. -/
def photoChecked : List (Moment Bool) := [.turn true, .turn true, .turn false]

/-- The inviter cannot be noted. -/
def memberFails (fault : StorageError) : List (Moment Bool) :=
  [.memberFault (some fault), .turn true]

section Early

variable {calls : Bool → Call} {key : Keypair} (hshown : state.faults.lookupHidden = false)
  (huntracked : state.threads.find? (.ofKey key.publicKey) = none)
  (hinvites : Invites self (calls true).signed key) (hphoto : (calls false).signed.IsPhoto key)

include hshown huntracked hinvites hphoto

/-- A photo does not have to wait until the inviter is noted. -/
theorem run_photoChecked :
    let reached := (start state).run self calls photoChecked
    reached.stage true = .followed ⟨(calls true).signed.threadName, key⟩ ∧
      reached.stage false = .verified (.ofKey key.publicKey) ∧
      reached.state = { state with
        threads := state.threads.withThread (calls true).signed.threadName key } := by
  have hid : (⟨(calls true).signed.threadName, key⟩ : Thread).id = .ofKey key.publicKey := rfl
  have hlookup : LocalState.lookup { state with
      threads := state.threads.withThread (calls true).signed.threadName key }
      (calls false).signed.thread = some ⟨(calls true).signed.threadName, key⟩ := by
    rw [lookup, if_neg (by simp [hshown]), hphoto.thread_eq, Registry.lookup,
      Registry.find?_withThread huntracked, if_pos rfl, Option.map_some]
  have hunknown : state.lookup (calls true).signed.thread = none :=
    lookup_eq_none (hinvites.thread ▸ huntracked)
  have hinvited := step_of_invites (calls true).row hunknown hinvites
  have hfollowed := step_of_untracked self (calls true).row (calls true).signed huntracked
  have hverified := step_of_extends self (calls false).row hlookup hphoto.extends_thread
    hphoto.names
  simp [photoChecked, Together.run, Together.after, start, hinvited, hfollowed, hverified, hid]

/-- It is accepted, and then the invitation takes the thread away. -/
theorem run_memberFails (fault : StorageError) (hworks : state.faults.removeFails = false) :
    let accepted := ((start state).run self calls photoChecked).after self calls (.turn false)
    accepted.stage false = .done (.ok ()) ∧
      RollsBack ((accepted.run self calls (memberFails fault)).stage true)
        (accepted.run self calls (memberFails fault)).state := by
  intro accepted
  obtain ⟨hfollowed, hverified, hstate⟩ := run_photoChecked hshown huntracked hinvites hphoto
  have happend : step self (calls false).row (calls false).signed
      (.verified (.ofKey key.publicKey)) { state with
        threads := state.threads.withThread (calls true).signed.threadName key } =
      (.done (.ok ()), { state with
        threads := (state.threads.withThread (calls true).signed.threadName key).withBlock
          (.ofKey key.publicKey) (calls false).signed.id }) := by
    rw [step, Registry.append_withThread huntracked]
  have haccepted : accepted.stage true = .followed ⟨(calls true).signed.threadName, key⟩ ∧
      accepted.stage false = .done (.ok ()) ∧ accepted.state = { state with
        threads := (state.threads.withThread (calls true).signed.threadName key).withBlock
          (.ofKey key.publicKey) (calls false).signed.id } := by
    simp [accepted, Together.after, hfollowed, hverified, hstate, happend]
  obtain ⟨hjoining, hdone, haccepted⟩ := haccepted
  have hfailing : step self (calls true).row (calls true).signed (accepted.stage true)
      { accepted.state with faults.memberFault := some fault } =
      (.refused ⟨(calls true).signed.threadName, key⟩ fault,
        { accepted.state with faults.memberFault := some fault }) := by
    rw [hjoining]
    exact step_of_memberFault self (calls true).row (calls true).signed _ rfl
  have hworks' : accepted.state.faults.removeFails = false := by
    rw [haccepted]
    exact hworks
  have hrun : accepted.run self calls (memberFails fault) =
      ⟨Function.update accepted.stage true (.refused ⟨(calls true).signed.threadName, key⟩ fault),
        { accepted.state with faults.memberFault := some fault }⟩ := by
    simp only [memberFails, Together.run, Together.after, List.foldl_cons, List.foldl_nil, hfailing]
  refine ⟨hdone, ?_⟩
  rw [hrun]
  exact ⟨⟨⟨(calls true).signed.threadName, key⟩, fault, by simp⟩, hworks'⟩

end Early

/-- An invitation and a photo for one thread. -/
def holidayCalls : Bool → Call
  | true => ⟨"row", holidayInvitation examplePhotographer "holiday"⟩
  | false => ⟨"photo", examplePhoto⟩

theorem holidayCalls_invites :
    Invites exampleInvitee (holidayCalls true).signed exampleThreadKey :=
  SignedBlock.invites_sign exampleBox_opens (by decide)

theorem holidayCalls_photo : (holidayCalls false).signed.IsPhoto exampleThreadKey :=
  .signed rfl (by constructor <;> decide)

theorem holidayCalls_thread :
    (holidayCalls true).signed.thread = (holidayCalls false).signed.thread :=
  holidayCalls_invites.thread.symm.trans holidayCalls_photo.thread_eq.symm

/-- The photo is lost because the invitation removes the thread. -/
theorem holiday_photo_lost :
    (((start untouched).run exampleInvitee holidayCalls photoChecked).stage false).rank ≠ 0 ∧
    (((start untouched).run exampleInvitee holidayCalls photoChecked).after exampleInvitee
      holidayCalls (.turn false)).stage false = .done (.ok ()) ∧
    ∃ moments, moments <+: memberFails (.unavailable "disk full") ++ [.turn true] ∧
      (holidayCalls false).signed.id ∉ ((((start untouched).run exampleInvitee holidayCalls
        photoChecked).after exampleInvitee holidayCalls (.turn false)).run exampleInvitee
          holidayCalls moments).state.threads.chain (holidayCalls false).signed.thread := by
  have hshown : untouched.faults.lookupHidden = false := rfl
  obtain ⟨hfollowed, hverified, -⟩ := run_photoChecked hshown rfl holidayCalls_invites
    holidayCalls_photo
  obtain ⟨haccepted, hrolls⟩ := run_memberFails hshown rfl holidayCalls_invites holidayCalls_photo
    (.unavailable "disk full") rfl
  have hkeyed : untouched.threads.Keyed := .empty
  have hopen : (((start untouched).run exampleInvitee holidayCalls photoChecked).stage
      false).rank ≠ 0 := by
    rw [hverified]
    exact Nat.one_ne_zero
  have hjoining : (((start untouched).run exampleInvitee holidayCalls photoChecked).stage
      true).Joining := by
    rw [hfollowed]
    exact .followed _
  have hlost := (accepted_lost_iff hkeyed photoChecked
    (memberFails (.unavailable "disk full") ++ [.turn true]) hopen haccepted).1.mpr
      ⟨true, hjoining, holidayCalls_thread, _, List.prefix_rfl, hrolls⟩
  exact ⟨hopen, haccepted, hlost⟩

/-- So it is not true that what has been accepted is kept, whatever else is applied. -/
theorem photo_rolled_back :
    ¬ ∀ (self : Keypair) (calls : Bool → Call) (state : LocalState)
        (earlier later : List (Moment Bool)) (i : Bool), state.threads.Keyed →
      (((start state).run self calls earlier).stage i).rank ≠ 0 →
      (((start state).run self calls earlier).after self calls (.turn i)).stage i =
        .done (.ok ()) →
      (calls i).signed.id ∈ ((((start state).run self calls earlier).after self calls
        (.turn i)).run self calls later).state.threads.chain (calls i).signed.thread := by
  intro hkept
  have hshown : untouched.faults.lookupHidden = false := rfl
  obtain ⟨-, hverified, -⟩ := run_photoChecked hshown rfl holidayCalls_invites holidayCalls_photo
  obtain ⟨haccepted, hrolls⟩ := run_memberFails hshown rfl holidayCalls_invites holidayCalls_photo
    (.unavailable "disk full") rfl
  have hkeyed : untouched.threads.Keyed := .empty
  have hmem := hkept exampleInvitee holidayCalls untouched photoChecked
    (memberFails (.unavailable "disk full") ++ [.turn true]) false hkeyed
    (by rw [hverified]; decide) haccepted
  have hconsistent : Consistent exampleInvitee holidayCalls (((start untouched).run exampleInvitee
      holidayCalls photoChecked).after exampleInvitee holidayCalls (.turn false)) :=
    ((consistent_start hkeyed).run photoChecked).turn false
  have hgone := (hconsistent.run _).chain_of_rollsBack hrolls
  rw [run_append, run_cons, run_nil] at hmem
  rw [← holidayCalls_thread, hgone] at hmem
  exact List.not_mem_nil hmem

end PeerMail.Apply
