import Mathlib.Logic.Function.Basic
import PeerMail.Proofs.Thread.Outcomes

/-!
# Blocks that are applied at the same time

Blocks may be applied while others are.  Each application takes its own steps in order, one
access to a store at a time, and all of them act on one state; nothing is said about whose
step is next.  A run is a list of moments: in each of them one application takes a step, or
noting members begins or ceases to fail.  An application that has not begun is one that has
not taken its first step yet, so a run may have any number of them and they may begin at any
time.

`Advance` says once what a step can do to the block that takes it and to the state.  What
is proved about runs is proved by cases of it.
-/

namespace PeerMail.Apply

/-! ## Runs -/

/-- A block to be applied, with the name for the row of a new member. -/
structure Call where
  row : String
  signed : SignedBlock

/-- How far every block has come, and the state that they share. -/
structure Together (ι : Type) where
  stage : ι → Stage
  state : LocalState

/-- What happens next. -/
inductive Moment (ι : Type) where
  /-- The application of a block takes its next step. -/
  | turn (call : ι)
  /-- From now on noting a member fails, or fails no longer. -/
  | memberFault (fault : Option StorageError)

namespace Together

variable {ι : Type} [DecidableEq ι]

/-- No block has been looked at yet. -/
def start (state : LocalState) : Together ι := ⟨fun _ => .arrived, state⟩

/-- What a moment leaves behind. -/
def after (self : Keypair) (calls : ι → Call) (reached : Together ι) : Moment ι → Together ι
  | .turn i =>
      let (stage, state) := step self (calls i).row (calls i).signed (reached.stage i) reached.state
      ⟨Function.update reached.stage i stage, state⟩
  | .memberFault memberFault =>
      { reached with state.faults.memberFault := memberFault }

/-- What a number of moments leave behind, the first one first. -/
def run (self : Keypair) (calls : ι → Call) (reached : Together ι) (moments : List (Moment ι)) :
    Together ι :=
  moments.foldl (after self calls) reached

/-- No application is under way any more. -/
def Finished (reached : Together ι) : Prop := ∀ i, (reached.stage i).rank = 0

end Together

/-! ## What a step can do -/

/-- What a step does to the stage of a block and to the state. -/
inductive Advance (self : Keypair) (call : Call) (state : LocalState) :
    Stage → Stage → LocalState → Prop where
  /-- The block fails its checks. -/
  | unfit {reason : ProtocolError}
      (examined : examine self call.signed (state.lookup call.signed.thread) = .error reason) :
      Advance self call state .arrived (.done (.error reason)) state
  | invites {key : Keypair} (unknown : state.lookup call.signed.thread = none)
      (invites : Invites self call.signed key) :
      Advance self call state .arrived (.invited key) state
  | content {thread : Thread} (known : state.lookup call.signed.thread = some thread)
      (extending : Extends call.signed thread) :
      Advance self call state .arrived (checkContent call.signed thread.id) state
  | follows {key : Keypair} (untracked : state.threads.find? (.ofKey key.publicKey) = none) :
      Advance self call state (.invited key) (.followed ⟨call.signed.threadName, key⟩)
        { state with threads := state.threads.withThread call.signed.threadName key }
  /-- The thread has been followed in the meantime. -/
  | beaten {key : Keypair} (tracked : state.threads.find? (.ofKey key.publicKey) ≠ none) :
      Advance self call state (.invited key)
        (.done (.error (.admission .threadAlreadyExists))) state
  | notes {thread : Thread} {noted : LocalState}
      (added : state.addMember (.ofKey call.row thread.id call.signed.issuerKey) = .ok noted) :
      Advance self call state (.followed thread) (checkContent call.signed thread.id) noted
  | unnoted {thread : Thread} {fault : StorageError}
      (failed : state.addMember (.ofKey call.row thread.id call.signed.issuerKey) = .error fault) :
      Advance self call state (.followed thread) (.refused thread fault) state
  /-- The thread is removed again. -/
  | removes {thread : Thread} {fault : StorageError} {threads : Registry}
      (works : state.faults.removeFails = false)
      (removed : state.threads.remove thread.id = .ok threads) :
      Advance self call state (.refused thread fault) (.done (.error (.storage fault)))
        { state with threads }
  /-- The thread cannot be removed. -/
  | leaves {thread : Thread} {fault : StorageError}
      (stuck : state.faults.removeFails = true ∨ state.threads.find? thread.id = none) :
      Advance self call state (.refused thread fault) (.done (.error (.storage fault))) state
  | appends {thread : ThreadId} {threads : Registry}
      (appended : state.threads.append thread call.signed.id = .ok threads) :
      Advance self call state (.verified thread) (.done (.ok ())) { state with threads }
  | unappended {thread : ThreadId} {reason : ThreadError}
      (failed : state.threads.append thread call.signed.id = .error reason) :
      Advance self call state (.verified thread) (.done (.error (.thread reason))) state
  | ended {result : Except ProtocolError Unit} :
      Advance self call state (.done result) (.done result) state

variable {self : Keypair} {call : Call} {stage : Stage} {state : LocalState}

/-- **There is nothing else that a step can do.** -/
theorem step_advance (self : Keypair) (call : Call) (stage : Stage) (state : LocalState) :
    Advance self call state stage (step self call.row call.signed stage state).1
      (step self call.row call.signed stage state).2 := by
  cases stage with
  | arrived =>
      simp only [step]
      cases hexamine : examine self call.signed (state.lookup call.signed.thread) with
      | error reason => exact .unfit hexamine
      | ok verdict =>
          cases verdict with
          | invitation key =>
              obtain ⟨hunknown, hinvites⟩ := examine_eq_invitation_iff.mp hexamine
              exact .invites hunknown hinvites
          | content id =>
              obtain ⟨thread, hknown, rfl, hextends⟩ := examine_eq_content_iff.mp hexamine
              exact .content hknown hextends
  | invited key =>
      simp only [step]
      cases hcreate : state.threads.create call.signed.threadName key with
      | ok created =>
          obtain ⟨thread, threads⟩ := created
          obtain ⟨huntracked, rfl, rfl⟩ := Registry.create_eq_ok_iff.mp hcreate
          exact .follows huntracked
      | error reason =>
          obtain ⟨rfl, htracked⟩ := Registry.create_eq_error hcreate
          exact .beaten htracked
  | followed thread =>
      simp only [step]
      cases hadd : state.addMember (.ofKey call.row thread.id call.signed.issuerKey) with
      | ok noted => exact .notes hadd
      | error fault => exact .unnoted hadd
  | refused thread fault =>
      simp only [step, LocalState.remove]
      cases hfails : state.faults.removeFails with
      | true => exact .leaves (.inl hfails)
      | false =>
          cases hremove : state.threads.remove thread.id with
          | ok threads => exact .removes hfails hremove
          | error reason =>
              refine .leaves (.inr ?_)
              unfold Registry.remove at hremove
              cases hfound : state.threads.find? thread.id with
              | none => rfl
              | some entry => simp [hfound] at hremove
  | verified thread =>
      simp only [step]
      cases happend : state.threads.append thread call.signed.id with
      | ok threads => exact .appends happend
      | error reason => exact .unappended happend
  | done result => exact .ended

/-- Behind the signature a block is ready to be appended, or its name is wrong. -/
theorem checkContent_cases (signed : SignedBlock) (thread : ThreadId) :
    (signed.id.Names signed.data ∧ checkContent signed thread = .verified thread) ∨
      (¬ signed.id.Names signed.data ∧
        checkContent signed thread = .done (.error (.blockMismatch signed.id))) := by
  unfold checkContent
  split
  · next hnames => exact .inl ⟨hnames, rfl⟩
  · next hwrong => exact .inr ⟨hwrong, rfl⟩

/-! ## Steps of blocks whose checks are known -/

section Steps

variable {key : Keypair} {signed : SignedBlock} {thread : Thread}

theorem step_of_invites (row : String) (hunknown : state.lookup signed.thread = none)
    (hinvites : Invites self signed key) :
    step self row signed .arrived state = (.invited key, state) := by
  rw [step, examine_eq_invitation_iff.mpr ⟨hunknown, hinvites⟩]

theorem step_of_untracked (self : Keypair) (row : String) (signed : SignedBlock)
    (huntracked : state.threads.find? (.ofKey key.publicKey) = none) :
    step self row signed (.invited key) state = (.followed ⟨signed.threadName, key⟩,
      { state with threads := state.threads.withThread signed.threadName key }) := by
  rw [step, Registry.create_eq_ok_iff.mpr ⟨huntracked, rfl, rfl⟩]

theorem step_of_extends (self : Keypair) (row : String)
    (hknown : state.lookup signed.thread = some thread) (hextends : Extends signed thread)
    (hnames : signed.id.Names signed.data) :
    step self row signed .arrived state = (.verified thread.id, state) := by
  rw [step, examine_eq_content_iff.mpr ⟨thread, hknown, rfl, hextends⟩]
  simp only [checkContent, if_pos hnames]

theorem step_of_memberFault (self : Keypair) (row : String) (signed : SignedBlock) (thread : Thread)
    {fault : StorageError} (hfault : state.faults.memberFault = some fault) :
    step self row signed (.followed thread) state = (.refused thread fault, state) := by
  simp only [step, LocalState.addMember, hfault]

end Steps

/-! ## What a moment leaves alone -/

namespace Together

variable {ι : Type} [DecidableEq ι] {calls : ι → Call} {reached : Together ι} {i j : ι}

theorem run_nil (self : Keypair) (calls : ι → Call) (reached : Together ι) :
    reached.run self calls [] = reached := rfl

theorem run_cons (self : Keypair) (calls : ι → Call) (reached : Together ι) (moment : Moment ι)
    (rest : List (Moment ι)) :
    reached.run self calls (moment :: rest) =
      (reached.after self calls moment).run self calls rest := rfl

theorem run_append (self : Keypair) (calls : ι → Call) (reached : Together ι)
    (moments later : List (Moment ι)) :
    reached.run self calls (moments ++ later) =
      (reached.run self calls moments).run self calls later :=
  List.foldl_append

/-- The application whose turn it is takes a step. -/
theorem after_turn_advance (self : Keypair) (calls : ι → Call) (reached : Together ι) (i : ι) :
    Advance self (calls i) reached.state (reached.stage i)
      ((reached.after self calls (.turn i)).stage i)
      (reached.after self calls (.turn i)).state := by
  have hadvance := step_advance self (calls i) (reached.stage i) reached.state
  simpa [after] using hadvance

/-- The others stay where they are. -/
theorem stage_after_turn_of_ne (self : Keypair) (calls : ι → Call) (reached : Together ι)
    (h : j ≠ i) : (reached.after self calls (.turn i)).stage j = reached.stage j := by
  simp [after, h]

/-! ## Every application ends -/

theorem rank_after_turn (self : Keypair) (calls : ι → Call) (reached : Together ι) (i : ι) :
    ((reached.after self calls (.turn i)).stage i).rank ≤ (reached.stage i).rank - 1 := by
  have hstep := rank_step self (calls i).row (calls i).signed (reached.stage i) reached.state
  simpa [after] using hstep

/-- Every turn brings an application closer to its end, whoever else has turns in between. -/
theorem rank_run_turns (self : Keypair) (calls : ι → Call) (reached : Together ι)
    (turns : List ι) (i : ι) :
    ((reached.run self calls (turns.map .turn)).stage i).rank ≤
      (reached.stage i).rank - turns.count i := by
  induction turns generalizing reached with
  | nil => exact Nat.le_refl _
  | cons first rest ih =>
      have hrest := ih (reached.after self calls (.turn first))
      rw [List.map_cons, run_cons]
      by_cases h : i = first
      · subst h
        have hfirst := rank_after_turn self calls reached i
        rw [List.count_cons_self]
        omega
      · rw [stage_after_turn_of_ne self calls reached h] at hrest
        rw [List.count_cons_of_ne (Ne.symm h)]
        exact hrest

/-- Four turns are enough for an application. -/
theorem finished_of_turns (self : Keypair) (calls : ι → Call) (state : LocalState) {turns : List ι}
    (h : ∀ i, 4 ≤ turns.count i) : ((start state).run self calls (turns.map .turn)).Finished := by
  intro i
  have hrank := rank_run_turns self calls (start state) turns i
  have hfour : ((start state : Together ι).stage i).rank = 4 := rfl
  have hcount := h i
  omega

end Together

end PeerMail.Apply
