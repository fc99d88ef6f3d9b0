import PeerMail.Inbound.State

/-!
# Applying a signed block to its thread

An invitation is the only way in which a message makes a node follow a thread,
so it is checked most strictly: it has to name this peer, carry the thread's
secret in a box for this peer, be signed with that secret, name the thread that
the secret leads to, and come from a valid key.  Content only has to be signed
with the thread's key.

Applying a block is a walk through stages (`Stage`).  Each step looks at or
changes one store once, so blocks that are applied side by side interleave
between steps and not inside them; `apply` takes the steps without a pause.
`rank_run` says that four steps are enough.
-/

namespace PeerMail

namespace Apply

/-! ## Checks -/

/-- What the first look at a block finds. -/
inductive Verdict where
  | invitation (key : Keypair)
  | content (thread : ThreadId)
deriving DecidableEq

/-- The key that an invitation hands to this peer. -/
def openInvitation (self : Keypair) (signed : SignedBlock) (block : ThreadBlock) :
    Except ProtocolError Keypair := do
  let secret ← (self.openBox block.targetKey).mapError .wire
  let key ← (Keypair.ofSecret secret).mapError fun _ => .wire .decryptFailed
  (PublicKey.verify key.publicKey signed.data signed.signature).mapError .wire
  if ThreadId.ofKey key.publicKey ≠ signed.thread then
    throw .threadIdMismatch
  (PublicKey.validate signed.issuerKey).mapError fun fault => .invalidIssuerKey fault.message
  return key

/-- What a block turns out to be, given the thread that it is for. -/
def examine (self : Keypair) (signed : SignedBlock) (known : Option Thread) :
    Except ProtocolError Verdict := do
  let block ← signed.block.mapError .wire
  let way ← (gate block.kind known.isSome block.target self.peerId).mapError .admission
  match way, known with
  | .admitInvite, _ => return .invitation (← openInvitation self signed block)
  | .verifyWithThreadKey, none => throw (.admission .threadNotFound)
  | .verifyWithThreadKey, some thread =>
      (thread.verify signed.data signed.signature).mapError .wire
      return .content thread.id

/-! ## Steps -/

/-- How far a block has come. -/
inductive Stage where
  | arrived
  /-- An invitation that passed its checks; its thread is to be followed next. -/
  | invited (key : Keypair)
  /-- The thread is followed; the peer who invited is to be noted next. -/
  | followed (thread : Thread)
  /-- The peer who invited could not be noted; the thread is to be removed next. -/
  | refused (thread : Thread) (fault : StorageError)
  /-- The block is to be appended to the thread next. -/
  | verified (thread : ThreadId)
  | done (result : Except ProtocolError Unit)

/-- The stage behind the signature: a block has to be the content its name stands for. -/
def checkContent (signed : SignedBlock) (thread : ThreadId) : Stage :=
  if signed.id.Names signed.data then .verified thread
  else .done (.error (.blockMismatch signed.id))

/-- The next stage, with what the step leaves behind.  A new member gets the row name `row`. -/
def step (self : Keypair) (row : String) (signed : SignedBlock) :
    Stage → LocalState → Stage × LocalState
  | .arrived, state =>
      match examine self signed (state.lookup signed.thread) with
      | .ok (.invitation key) => (.invited key, state)
      | .ok (.content thread) => (checkContent signed thread, state)
      | .error reason => (.done (.error reason), state)
  | .invited key, state =>
      match state.threads.create signed.threadName key with
      | .ok (thread, threads) => (.followed thread, { state with threads })
      | .error (.alreadyExists _) => (.done (.error (.admission .threadAlreadyExists)), state)
      | .error reason => (.done (.error (.thread reason)), state)
  | .followed thread, state =>
      match state.addMember (.ofKey row thread.id signed.issuerKey) with
      | .ok state => (checkContent signed thread.id, state)
      | .error fault => (.refused thread fault, state)
  | .refused thread fault, state =>
      match state.remove thread.id with
      | .ok state => (.done (.error (.storage fault)), state)
      | .error _ => (.done (.error (.storage fault)), state)
  | .verified thread, state =>
      match state.threads.append thread signed.id with
      | .ok threads => (.done (.ok ()), { state with threads })
      | .error reason => (.done (.error (.thread reason)), state)
  | .done result, state => (.done result, state)

/-- A number of steps in a row. -/
def run (self : Keypair) (row : String) (signed : SignedBlock) :
    (steps : Nat) → Stage × LocalState → Stage × LocalState
  | 0, reached => reached
  | steps + 1, reached => run self row signed steps (step self row signed reached.1 reached.2)

/-! ## The end is reached -/

/-- The number of steps that may still follow. -/
def Stage.rank : Stage → Nat
  | arrived => 4
  | invited _ => 3
  | followed _ => 2
  | refused _ _ => 1
  | verified _ => 1
  | done _ => 0

theorem rank_checkContent (signed : SignedBlock) (thread : ThreadId) :
    (checkContent signed thread).rank ≤ 1 := by
  unfold checkContent
  split <;> simp [Stage.rank]

theorem rank_step (self : Keypair) (row : String) (signed : SignedBlock) (stage : Stage)
    (state : LocalState) : (step self row signed stage state).1.rank ≤ stage.rank - 1 := by
  cases stage with
  | arrived =>
      simp only [step]
      split
      · exact Nat.le_refl 3
      · exact Nat.le_trans (rank_checkContent signed _) (by decide)
      · exact Nat.zero_le _
  | invited key =>
      simp only [step]
      split
      · exact Nat.le_refl 2
      · exact Nat.zero_le _
      · exact Nat.zero_le _
  | followed thread =>
      simp only [step]
      split
      · exact rank_checkContent signed thread.id
      · exact Nat.le_refl 1
  | refused thread fault =>
      simp only [step]
      split
      · exact Nat.zero_le _
      · exact Nat.zero_le _
  | verified thread =>
      simp only [step]
      split
      · exact Nat.zero_le _
      · exact Nat.zero_le _
  | done result => exact Nat.zero_le _

theorem rank_run (self : Keypair) (row : String) (signed : SignedBlock) (steps : Nat)
    (reached : Stage × LocalState) :
    (run self row signed steps reached).1.rank ≤ reached.1.rank - steps := by
  induction steps generalizing reached with
  | zero => exact Nat.le_refl _
  | succ steps ih =>
      have hstep := rank_step self row signed reached.1 reached.2
      have hrest := ih (step self row signed reached.1 reached.2)
      simp only [run]
      omega

/-- What the walk came to. -/
def Stage.result : (stage : Stage) → stage.rank = 0 → Except ProtocolError Unit
  | .done result, _ => result

end Apply

/-- Verifies a signed block and appends it to its thread. -/
def LocalState.apply (state : LocalState) (self : Keypair) (row : String) (signed : SignedBlock) :
    Except ProtocolError Unit × LocalState :=
  let reached := Apply.run self row signed 4 (.arrived, state)
  (reached.1.result (Nat.le_zero.mp (Apply.rank_run self row signed 4 (.arrived, state))),
    reached.2)

/-- The outcome of a walk that ends is what `apply` comes to. -/
theorem LocalState.apply_eq {state final : LocalState} {self : Keypair} {row : String}
    {signed : SignedBlock} {result : Except ProtocolError Unit}
    (h : Apply.run self row signed 4 (.arrived, state) = (.done result, final)) :
    state.apply self row signed = (result, final) := by
  have key : ∀ (reached : Apply.Stage × LocalState) (hrank : reached.1.rank = 0),
      reached = (.done result, final) → (reached.1.result hrank, reached.2) = (result, final) := by
    rintro _ hrank rfl
    rfl
  exact key _ _ h

end PeerMail
