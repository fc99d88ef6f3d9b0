import Mathlib.Data.List.Forall2
import PeerMail.Proofs.Inbound.Authority
import PeerMail.Proofs.Store.Roster
import PeerMail.Proofs.Thread.Atomicity
import PeerMail.Proofs.Thread.Repetition
import PeerMail.Proofs.Wire.Honest

/-!
# Honest threads are accepted

An invitation that was built and signed with the key of its thread passes every check
of the peer that it names, and so does every photo that was signed with that key.
`honest_thread` follows such a thread from the invitation on, through any traffic for
other threads.

The state in between is `LocalState.Hosts`: the thread is tracked with its key and its
chain, and the one row for it is that of the inviter.  The invitation establishes it,
a photo lengthens the chain in it, and a block for another thread does not touch it.
-/

namespace PeerMail

/-- A stored member is what its row means. -/
theorem Member.decode_toRow (member : Member) : member.toRow.decode = .ok member := by
  obtain ⟨row, ⟨peer, hpeer⟩, ⟨thread, hthread⟩, key⟩ := member
  simp [toRow, MemberRow.decode, PeerId.ofBytes?, PeerId.bytes, ThreadId.ofBytes?, ThreadId.bytes,
    Bytes.exactly?, hpeer, hthread]

namespace SignedBlock

variable {self thread issuer : Keypair} {name : String} {block : ThreadBlock}
  {entropy : SealedBox.Entropy} {box : Bytes} {parents : List Cid} {signed : SignedBlock}

/-- A signed block is read back. -/
theorem block_sign (hfits : block.Fits) : (sign thread issuer name block).block = .ok block := by
  have hread := ThreadBlock.codec.reads_written block hfits []
  rwa [List.append_nil] at hread

/-- An invitation that was built and signed for a peer is one to that peer. -/
theorem invites_sign (hbox : self.Opens thread.secret.val entropy box)
    (hparents : parents.length < 2 ^ 32) :
    Invites self (sign thread issuer name (.boxed self box parents)) thread where
  block := ⟨_, block_sign (ThreadBlock.fits_boxed hparents hbox), rfl, rfl, hbox.opened⟩
  signature := thread.verify_sign _
  thread := rfl
  issuer := issuer.validate_publicKey

/-- The block is a photo that someone signed with the key of a thread. -/
inductive IsPhoto (thread : Keypair) : SignedBlock → Prop where
  | signed {issuer : Keypair} {name : String} {block : ThreadBlock} (kind : block.kind = .photo)
      (fits : block.Fits) :
      IsPhoto thread (sign thread issuer name block)

namespace IsPhoto

theorem extends_thread (h : signed.IsPhoto thread) : Extends signed ⟨name, thread⟩ := by
  cases h with
  | signed hkind hfits => exact ⟨⟨_, block_sign hfits, hkind⟩, Keypair.verify_sign _ _⟩

theorem thread_eq (h : signed.IsPhoto thread) : signed.thread = .ofKey thread.publicKey := by
  cases h with
  | signed => rfl

theorem names (h : signed.IsPhoto thread) : signed.id.Names signed.data := by
  cases h with
  | signed => rfl

end IsPhoto

end SignedBlock

namespace LocalState

variable {self key : Keypair} {row : String} {signed : SignedBlock} {state : LocalState}
  {thread : Thread} {chain : List Cid} {inviter : Member} {issuerKey : Bytes}

/-- Applies blocks one after the other, each with a name for the row of a new member, and keeps
what each of them comes to. -/
def applyAll (self : Keypair) (state : LocalState) :
    List (String × SignedBlock) → List (Except ProtocolError Unit) × LocalState
  | [] => ([], state)
  | (row, signed) :: rest =>
      let (result, next) := state.apply self row signed
      let (results, final) := applyAll self next rest
      (result :: results, final)

/-- The state knows nothing of a thread and takes the row of a member of it. -/
structure Open (state : LocalState) (id : ThreadId) (row : String) : Prop where
  /-- Threads are found where they are tracked. -/
  shown : state.faults.lookupHidden = false
  keyed : state.threads.Keyed
  untracked : state.threads.find? id = none
  writable : state.faults.memberFault = none
  members : ∃ members, state.db.members = some members ∧
    members.find? (Utf8.encode row) = none ∧ ∀ other ∈ members.rows, other.thread ≠ id.bytes

/-- A thread is tracked with the blocks in a chain, and the one member noted for it is the peer who
invited. -/
structure Hosts (state : LocalState) (thread : Thread) (chain : List Cid) (inviter : Member) :
    Prop where
  shown : state.faults.lookupHidden = false
  keyed : state.threads.Keyed
  tracked : state.threads.find? thread.id = some ⟨thread.id, thread, chain⟩
  noted : ∃ members, state.db.members = some members ∧
    members.rows.filter (fun row => row.thread == thread.id.bytes) = [inviter.toRow]

/-- The names of the blocks for a thread. -/
def ownIds (id : ThreadId) (traffic : List (String × SignedBlock)) : List Cid :=
  (traffic.filter fun step => step.2.thread = id).map fun step => step.2.id

/-! ## What is kept -/

/-- The operations of a registry keep threads under the names of their keys. -/
theorem apply_keyed (h : state.threads.Keyed) :
    (state.apply self row signed).2.threads.Keyed := by
  have houtcome := apply_outcome self row signed state
  generalize (state.apply self row signed).1 = result at houtcome
  generalize (state.apply self row signed).2 = final at houtcome ⊢
  cases houtcome with
  | refused => exact h
  | misnamed | stranded => exact h.withThread
  | joined => exact h.withThread.withBlock
  | extended => exact h.withBlock

/-- A new row changes what is noted for its own thread only. -/
theorem noted_of_oneMember {id : ThreadId} {one : MemberRow} {before after : Option MemberTable}
    (h : signed.OneMember row before after) (hother : signed.thread ≠ id)
    (hbefore : ∃ members, before = some members ∧
      members.rows.filter (fun row => row.thread == id.bytes) = [one]) :
    ∃ members, after = some members ∧
      members.rows.filter (fun row => row.thread == id.bytes) = [one] := by
  cases h with
  | same => exact hbefore
  | @added old new hperm =>
      obtain ⟨members, hmembers, hone⟩ := hbefore
      obtain rfl := Option.some.inj hmembers
      have hforeign : ((signed.inviter row).toRow.thread == id.bytes) = false := by
        simp only [beq_eq_false_iff_ne]
        exact fun heq => hother (ThreadId.bytes_injective heq)
      have hfilter := hperm.filter (fun row => row.thread == id.bytes)
      rw [List.filter_cons_of_neg (by simp [hforeign]), hone] at hfilter
      exact ⟨new, rfl, List.perm_singleton.mp hfilter⟩

/-! ## Steps -/

/-- An accepted invitation makes the state a host of the thread. -/
theorem hosts_of_invites (hopen : state.Open signed.thread row) (hinvites : Invites self signed key)
    (hnames : signed.id.Names signed.data) :
    (state.apply self row signed).1 = .ok () ∧
      (state.apply self row signed).2.Hosts ⟨signed.threadName, key⟩ [signed.id]
        (signed.inviter row) := by
  obtain ⟨members, hmembers, hnew, hnone⟩ := hopen.members
  have hid := hinvites.id_thread signed.threadName
  have hadd : state.addMember (signed.inviter row) = .ok { state with
      db := { state.db with members := some (members.put (signed.inviter row).toRow) } } :=
    addMember_eq_ok_iff.mpr ⟨hopen.writable, _, Database.addMember_eq_ok_iff.mpr
      ⟨members, hmembers, fun other hother hboth => hnone other hother hboth.2, hnew, rfl⟩, rfl⟩
  have happly := apply_eq_of_noted (lookup_eq_none hopen.untracked) hinvites hopen.untracked hadd
  rw [if_pos hnames] at happly
  rw [happly]
  refine ⟨rfl, hopen.shown, hopen.keyed.withThread.withBlock, ?_, _, rfl, ?_⟩
  · show (Registry.withBlock _ _ _).find? _ = _
    rw [hid, Registry.find?_withBlock,
      Registry.find?_withThread (hinvites.thread ▸ hopen.untracked),
      if_pos hinvites.thread, hinvites.thread]
    simp
  · -- the rows from before are for other threads
    have hold : members.rows.filter (fun row => row.thread == signed.thread.bytes) = [] := by
      simpa using hnone
    have hperm : (members.put (signed.inviter row).toRow).rows.Perm
        ((signed.inviter row).toRow :: members.rows) := Table.perm_rows_put hnew
    have hfilter := hperm.filter fun row => row.thread == signed.thread.bytes
    rw [List.filter_cons_of_pos (by exact beq_self_eq_true _), hold] at hfilter
    rw [hid]
    exact List.perm_singleton.mp hfilter

namespace Hosts

/-- A photo that is not in the chain yet comes at its end. -/
theorem apply_photo (h : state.Hosts thread chain inviter) (self : Keypair) (row : String)
    (hphoto : signed.IsPhoto thread.key)
    (hfresh : signed.id ∉ chain) :
    (state.apply self row signed).1 = .ok () ∧
      (state.apply self row signed).2.Hosts thread (chain ++ [signed.id]) inviter := by
  have hthread : signed.thread = thread.id := hphoto.thread_eq
  have hknown : state.lookup signed.thread = some thread := by
    rw [lookup, h.shown, if_neg (by simp), hthread, Registry.lookup, h.tracked, Option.map_some]
  have happend : state.threads.append thread.id signed.id =
      .ok (state.threads.withBlock thread.id signed.id) :=
    Registry.append_eq_ok_iff.mpr ⟨⟨_, h.tracked, hfresh⟩, rfl⟩
  rw [apply_eq_of_extends hknown hphoto.extends_thread, if_pos hphoto.names, happend]
  refine ⟨rfl, h.shown, h.keyed.withBlock, ?_, h.noted⟩
  show (Registry.withBlock _ _ _).find? _ = _
  rw [Registry.find?_withBlock, h.tracked, Option.map_some, if_pos rfl]

/-- A block for another thread does not touch this one. -/
theorem apply_foreign (h : state.Hosts thread chain inviter) (self : Keypair) (row : String)
    (hother : signed.thread ≠ thread.id) :
    (state.apply self row signed).2.Hosts thread chain inviter := by
  have hkeyed : (state.apply self row signed).2.threads.Keyed := apply_keyed h.keyed
  have hchange : (state.apply self row signed).2 = state ∨
      ∃ threads members, signed.OneThread state.threads threads ∧
        signed.OneMember row state.db.members members ∧
        (state.apply self row signed).2 = { state with threads, db := { state.db with members } } :=
    apply_change h.keyed
  obtain hsame | ⟨threads, members, hone, hmember, hafter⟩ := hchange
  · rw [hsame]
    exact h
  · rw [hafter] at hkeyed ⊢
    have htracked := (hone.others _ hother.symm).trans h.tracked
    exact ⟨h.shown, hkeyed, htracked, noted_of_oneMember hmember hother h.noted⟩

/-- Photos come one after the other, whatever happens to other threads in between. -/
theorem applyAll {traffic : List (String × SignedBlock)} (h : state.Hosts thread chain inviter)
    (hphotos : ∀ step ∈ traffic, step.2.thread = thread.id → step.2.IsPhoto thread.key)
    (hdistinct : (chain ++ ownIds thread.id traffic).Nodup) :
    List.Forall₂ (fun step result => step.2.thread = thread.id → result = .ok ()) traffic
        (state.applyAll self traffic).1 ∧
      (state.applyAll self traffic).2.Hosts thread (chain ++ ownIds thread.id traffic) inviter := by
  induction traffic generalizing state chain with
  | nil =>
      refine ⟨.nil, ?_⟩
      rw [ownIds, List.filter_nil, List.map_nil, List.append_nil]
      exact h
  | cons step rest ih =>
      obtain ⟨row, signed⟩ := step
      have hrest : ∀ step ∈ rest, step.2.thread = thread.id → step.2.IsPhoto thread.key :=
        fun step hstep => hphotos step (List.mem_cons_of_mem _ hstep)
      by_cases hown : signed.thread = thread.id
      · have hids : ownIds thread.id ((row, signed) :: rest) =
            signed.id :: ownIds thread.id rest := by
          simp [ownIds, hown]
        rw [hids, List.append_cons] at hdistinct ⊢
        have hfresh : signed.id ∉ chain := by
          have hfront := (List.nodup_append.mp hdistinct).1
          exact fun hmem => (List.nodup_append.mp hfront).2.2 _ hmem _ (by simp) rfl
        have hphoto : signed.IsPhoto thread.key := hphotos (row, signed) List.mem_cons_self hown
        obtain ⟨hresult, hnext⟩ := h.apply_photo self row hphoto hfresh
        obtain ⟨hresults, hfinal⟩ := ih hnext hrest hdistinct
        exact ⟨.cons (fun _ => hresult) hresults, hfinal⟩
      · have hids : ownIds thread.id ((row, signed) :: rest) = ownIds thread.id rest := by
          simp [ownIds, hown]
        rw [hids] at hdistinct ⊢
        obtain ⟨hresults, hfinal⟩ := ih (h.apply_foreign self row hown) hrest hdistinct
        exact ⟨.cons (fun heq => absurd heq hown) hresults, hfinal⟩

/-- The members of the thread are the peer who invited. -/
theorem threadMembers (h : state.Hosts thread chain (.ofKey row thread.id issuerKey)) :
    state.db.threadMembers thread.id = .ok [.ofKey row thread.id issuerKey] := by
  obtain ⟨members, hmembers, hrows⟩ := h.noted
  rw [Database.threadMembers, hmembers]
  show (members.rows.filter fun row => row.thread == thread.id.bytes).mapM MemberRow.decode = _
  rw [hrows, List.mapM_cons, Member.decode_toRow]
  rfl

end Hosts

/-! ## The whole thread -/

/-- **Honest threads are accepted.**  An invitation that was built and signed for this peer is
applied, and so is every photo that was signed with the key of the thread, as long as no two blocks
of the thread have the same name.  In the end the thread has the given name and key and all these
blocks in order, and its one member is the peer who invited. -/
theorem honest_thread {self thread : Keypair} (issuer : Keypair) (name : String) {row : String}
    {parents : List Cid} {entropy : SealedBox.Entropy} {box : Bytes} {state : LocalState}
    {traffic : List (String × SignedBlock)}
    (hopen : state.Open (.ofKey thread.publicKey) row)
    (hbox : self.Opens thread.secret.val entropy box)
    (hparents : parents.length < 2 ^ 32)
    (hphotos : ∀ step ∈ traffic, step.2.thread = .ofKey thread.publicKey → step.2.IsPhoto thread)
    (hdistinct : (Cid.ofData (ThreadBlock.boxed self box parents).toBytes ::
      ownIds (.ofKey thread.publicKey) traffic).Nodup) :
    let invitation := SignedBlock.sign thread issuer name (.boxed self box parents)
    let joined := state.apply self row invitation
    let reached := joined.2.applyAll self traffic
    ThreadBlock.invite self.peerId self.publicKey thread parents entropy =
        .ok (.boxed self box parents) ∧
      joined.1 = .ok () ∧
      List.Forall₂ (fun step result => step.2.thread = invitation.thread → result = .ok ()) traffic
        reached.1 ∧
      reached.2.threads.chain invitation.thread =
        invitation.id :: ownIds invitation.thread traffic ∧
      reached.2.lookup invitation.thread = some ⟨name, thread⟩ ∧
      reached.2.db.threadMembers invitation.thread =
        .ok [.ofKey row invitation.thread issuer.publicKey] := by
  intro invitation joined reached
  have hinvites : Invites self invitation thread :=
    SignedBlock.invites_sign hbox hparents
  obtain ⟨hjoined, hhosts⟩ : joined.1 = .ok () ∧
      joined.2.Hosts ⟨name, thread⟩ [invitation.id] (invitation.inviter row) :=
    hosts_of_invites hopen hinvites rfl
  obtain ⟨hresults, hfinal⟩ := hhosts.applyAll hphotos hdistinct
  refine ⟨ThreadBlock.invite_of_opens hbox, hjoined, hresults, ?_, ?_, hfinal.threadMembers⟩
  · show ((reached.2.threads.find? (⟨name, thread⟩ : Thread).id).map ThreadEntry.chain).getD [] = _
    rw [hfinal.tracked]
    rfl
  · have hshown : ¬ reached.2.faults.lookupHidden = true := hfinal.shown ▸ Bool.false_ne_true
    rw [lookup, if_neg hshown]
    show (reached.2.threads.find? (⟨name, thread⟩ : Thread).id).map ThreadEntry.thread = _
    rw [hfinal.tracked]
    rfl

/-! ## A thread with one photo -/

/-- The peer who invites and takes the photo. -/
def examplePhotographer : Keypair := ⟨⟨List.replicate 32 7, rfl⟩⟩

/-- What goes into the box with the secret of the thread. -/
def exampleEntropy : SealedBox.Entropy :=
  ⟨⟨List.replicate 32 1, Node.length_ones⟩, ⟨List.replicate 24 2, rfl⟩⟩

/-- The box with the secret of the thread. -/
def exampleBox : Bytes :=
  [164, 224, 146, 146, 182, 81, 194, 120, 185, 119, 44, 86, 159, 95, 169, 187, 19, 217, 6, 180, 106,
   182, 140, 157, 249, 220, 43, 68, 9, 248, 162, 9, 2, 2, 2, 2, 2, 2, 2, 2, 2, 2, 2, 2, 2, 2, 2, 2,
   2, 2, 2, 2, 2, 2, 2, 2, 217, 152, 170, 40, 156, 70, 139, 34, 73, 189, 115, 108, 176, 9, 68, 157,
   196, 81, 163, 40, 183, 183, 139, 137, 246, 246, 219, 120, 101, 78, 199, 218, 202, 217, 212, 95,
   249, 146, 135, 111, 163, 31, 161, 141, 201, 209, 34, 162]

/-- A photo of the thread. -/
def examplePhoto : SignedBlock :=
  .sign exampleThreadKey examplePhotographer "holiday" (.content .photo "beach" [])

/-- The same photo under the name of another thread. -/
def strayPhoto : SignedBlock := { examplePhoto with thread := .ofKey [] }

/-- An invitation, a block for another thread, and a photo. -/
theorem holiday_thread :
    exampleInvitee.Opens exampleThreadKey.secret.val exampleEntropy exampleBox ∧
    (untouched.apply exampleInvitee "row" (.sign exampleThreadKey examplePhotographer "holiday"
      (.boxed exampleInvitee exampleBox []))).1 = .ok () ∧
    ((untouched.apply exampleInvitee "row" (.sign exampleThreadKey examplePhotographer "holiday"
      (.boxed exampleInvitee exampleBox []))).2.applyAll exampleInvitee
        [("stray", strayPhoto), ("photo", examplePhoto)]).2.threads.chain examplePhoto.thread =
      [.ofData (ThreadBlock.boxed exampleInvitee exampleBox []).toBytes, examplePhoto.id] := by
  have hopen : untouched.Open (.ofKey exampleThreadKey.publicKey) "row" :=
    ⟨rfl, .empty, rfl, rfl, .empty, rfl, rfl, by simp [Table.empty]⟩
  have hbox : exampleInvitee.Opens exampleThreadKey.secret.val exampleEntropy exampleBox :=
    ⟨by decide +kernel, by decide +kernel⟩
  have hphoto : examplePhoto.IsPhoto exampleThreadKey :=
    .signed rfl (by constructor <;> decide)
  have hstray : strayPhoto.thread ≠ .ofKey exampleThreadKey.publicKey := by decide +kernel
  have hids : ownIds (.ofKey exampleThreadKey.publicKey)
      [("stray", strayPhoto), ("photo", examplePhoto)] = [examplePhoto.id] := by
    have hown : examplePhoto.thread = .ofKey exampleThreadKey.publicKey := rfl
    simp [ownIds, hstray, hown]
  have hphotos : ∀ step ∈ [("stray", strayPhoto), ("photo", examplePhoto)],
      step.2.thread = .ofKey exampleThreadKey.publicKey → step.2.IsPhoto exampleThreadKey := by
    simp [hstray, hphoto]
  have hdistinct : (Cid.ofData (ThreadBlock.boxed exampleInvitee exampleBox []).toBytes ::
      ownIds (.ofKey exampleThreadKey.publicKey)
        [("stray", strayPhoto), ("photo", examplePhoto)]).Nodup := by
    rw [hids]
    decide +kernel
  obtain ⟨-, hjoined, -, hchain, -, -⟩ := honest_thread examplePhotographer "holiday" hopen hbox
    (by decide) hphotos hdistinct
  refine ⟨hbox, hjoined, hchain.trans ?_⟩
  exact congrArg _ hids

end LocalState

end PeerMail
