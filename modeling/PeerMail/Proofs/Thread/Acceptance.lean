import PeerMail.Proofs.Thread.Hosting

/-!
# Which blocks are accepted

`Accepted` lists everything that has to hold of a block for a node to take it, and what
the node is afterwards.  There are two ways: an invitation to a thread that is not
tracked, and a photo of a thread that is.  Nothing in it depends on the order in which
the checks are made, on the store that makes them, or on what is undone when one of
them fails.

`apply_eq_ok_iff_accepted` says that the list is complete and that nothing in it is
superfluous.  It rests on `apply_outcome`: of the five ways in which the application of
a block can end, two are successes, and each of them is one constructor of `Accepted`.
-/

namespace PeerMail.LocalState

variable {self : Keypair} {row : String} {signed : SignedBlock} {state final : LocalState}

/-- A block that a node takes, with what the node is afterwards.  A new member gets the row name
`row`. -/
inductive Accepted (self : Keypair) (row : String) (signed : SignedBlock) (state : LocalState) :
    LocalState → Prop where
  /-- An invitation to a new thread.  Its box holds the secret of the thread; the thread gets an
  entry with the one block, and the issuer gets a row. -/
  | invitation {block : ThreadBlock} {secret : Bytes.Exactly 32} {members : MemberTable}
      (decoded : signed.block = .ok block) (kind : block.kind = .invite)
      (named : signed.id = .ofData signed.data)
      (untracked : state.threads.find? signed.thread = none)
      (target : block.target = self.peerId.text)
      (opened : self.openBox block.targetKey = .ok secret.val)
      (verified : PublicKey.verify (Keypair.mk secret).publicKey signed.data signed.signature =
        .ok ())
      (derived : signed.thread = .ofKey (Keypair.mk secret).publicKey)
      (issuer : PublicKey.validate signed.issuerKey = .ok ())
      (writable : state.faults.memberFault = none) (table : state.db.members = some members)
      (vacant : ∀ other ∈ members.rows, ¬ (other.peer = (PeerId.ofKey signed.issuerKey).bytes ∧
        other.thread = signed.thread.bytes))
      (unused : members.find? (Utf8.encode row) = none) :
      Accepted self row signed state { state with
        threads := ⟨state.threads.entries ++
          [⟨signed.thread, ⟨signed.threadName, ⟨secret⟩⟩, [signed.id]⟩]⟩
        db := { state.db with members := some (members.put
          ⟨row, (PeerId.ofKey signed.issuerKey).bytes, signed.thread.bytes, signed.issuerKey⟩) } }
  /-- A photo of a thread that the node sees.  It comes at the end of the chain. -/
  | photo {block : ThreadBlock} {entry : ThreadEntry}
      (decoded : signed.block = .ok block) (kind : block.kind = .photo)
      (named : signed.id = .ofData signed.data)
      (shown : state.faults.lookupHidden = false)
      (tracked : state.threads.find? signed.thread = some entry)
      (verified : PublicKey.verify entry.thread.key.publicKey signed.data signed.signature = .ok ())
      (fresh : signed.id ∉ entry.chain) :
      Accepted self row signed state
        { state with threads := state.threads.withBlock signed.thread signed.id }

/-- What a node sees is what it tracks, unless nothing can be looked up. -/
theorem lookup_eq_some_iff {id : ThreadId} {thread : Thread} :
    state.lookup id = some thread ↔
      state.faults.lookupHidden = false ∧ state.threads.lookup id = some thread := by
  unfold lookup
  cases state.faults.lookupHidden <;> simp

/-! ## Either way -/

/-- An invitation that goes all the way has passed every check. -/
theorem accepted_of_invites {key : Keypair} {noted : LocalState}
    (huntracked : state.threads.find? signed.thread = none) (hinvites : Invites self signed key)
    (hadded : state.addMember (signed.inviter row) = .ok noted)
    (hnames : signed.id.Names signed.data) :
    Accepted self row signed state { noted with
      threads := (state.threads.withThread signed.threadName key).withBlock signed.thread
        signed.id } := by
  obtain ⟨secret⟩ := key
  obtain ⟨block, hblock, hkind, htarget, hbox⟩ := hinvites.block
  obtain ⟨hwritable, db, hdb, rfl⟩ := addMember_eq_ok_iff.mp hadded
  obtain ⟨members, htable, hvacant, hunused, rfl⟩ := Database.addMember_eq_ok_iff.mp hdb
  have hthreads : (state.threads.withThread signed.threadName ⟨secret⟩).withBlock signed.thread
      signed.id = ⟨state.threads.entries ++
        [⟨signed.thread, ⟨signed.threadName, ⟨secret⟩⟩, [signed.id]⟩]⟩ := by
    rw [← hinvites.thread] at huntracked ⊢
    exact Registry.withBlock_withThread huntracked signed.id
  rw [hthreads]
  exact .invitation hblock hkind hnames.symm huntracked htarget hbox hinvites.signature
    hinvites.thread.symm hinvites.issuer hwritable htable hvacant hunused

/-- Content that goes all the way has passed every check. -/
theorem accepted_of_extends {thread : Thread} {entry : ThreadEntry} (hkeyed : state.threads.Keyed)
    (hknown : state.lookup signed.thread = some thread) (hextends : Extends signed thread)
    (hfound : state.threads.find? thread.id = some entry) (hfresh : signed.id ∉ entry.chain)
    (hnames : signed.id.Names signed.data) :
    Accepted self row signed state
      { state with threads := state.threads.withBlock thread.id signed.id } := by
  obtain ⟨block, hblock, hkind⟩ := hextends.block
  obtain ⟨hshown, hlookup⟩ := lookup_eq_some_iff.mp hknown
  have hid : thread.id = signed.thread := hkeyed.id_of_lookup hlookup
  rw [hid] at hfound ⊢
  have hthread : entry.thread = thread := by
    rw [Registry.lookup, hfound, Option.map_some] at hlookup
    exact Option.some.inj hlookup
  exact .photo hblock hkind hnames.symm hshown hfound (hthread ▸ hextends.signature) hfresh

/-- What has passed every check goes all the way. -/
theorem Accepted.apply_eq (haccepted : Accepted self row signed state final)
    (hkeyed : state.threads.Keyed) : state.apply self row signed = (.ok (), final) := by
  cases haccepted with
  | @invitation block secret members hblock hkind hnamed huntracked htarget hbox hverified hderived
      hissuer hwritable htable hvacant hunused =>
      have hnames : signed.id.Names signed.data := hnamed.symm
      have hinvites : Invites self signed ⟨secret⟩ :=
        ⟨⟨block, hblock, hkind, htarget, hbox⟩, hverified, hderived.symm, hissuer⟩
      have hadded : state.addMember (signed.inviter row) = .ok { state with
          db := { state.db with members := some (members.put (signed.inviter row).toRow) } } :=
        addMember_eq_ok_iff.mpr ⟨hwritable, _, Database.addMember_eq_ok_iff.mpr
          ⟨members, htable, hvacant, hunused, rfl⟩, rfl⟩
      have hthreads : (state.threads.withThread signed.threadName ⟨secret⟩).withBlock signed.thread
          signed.id = ⟨state.threads.entries ++
            [⟨signed.thread, ⟨signed.threadName, ⟨secret⟩⟩, [signed.id]⟩]⟩ := by
        rw [hderived] at huntracked ⊢
        exact Registry.withBlock_withThread huntracked signed.id
      rw [apply_eq_of_noted (lookup_eq_none huntracked) hinvites huntracked hadded,
        if_pos hnames, hthreads]
      rfl
  | @photo block entry hblock hkind hnamed hshown htracked hverified hfresh =>
      have hnames : signed.id.Names signed.data := hnamed.symm
      have hlookup : state.threads.lookup signed.thread = some entry.thread := by
        rw [Registry.lookup, htracked, Option.map_some]
      have hid : entry.thread.id = signed.thread := hkeyed.id_of_lookup hlookup
      have hextends : Extends signed entry.thread := ⟨⟨block, hblock, hkind⟩, hverified⟩
      have happend : state.threads.append entry.thread.id signed.id =
          .ok (state.threads.withBlock signed.thread signed.id) := by
        rw [hid]
        exact Registry.append_eq_ok_iff.mpr ⟨⟨entry, htracked, hfresh⟩, rfl⟩
      rw [apply_eq_of_extends (lookup_eq_some_iff.mpr ⟨hshown, hlookup⟩) hextends,
        if_pos hnames, happend]

/-- **A block is taken exactly if it is accepted**, and what it leaves behind is what is listed
there. -/
theorem apply_eq_ok_iff_accepted (self : Keypair) (row : String) (signed : SignedBlock)
    {state : LocalState} (final : LocalState) (hkeyed : state.threads.Keyed) :
    state.apply self row signed = (.ok (), final) ↔ Accepted self row signed state final := by
  constructor
  · intro happly
    have houtcome := apply_outcome self row signed state
    rw [happly] at houtcome
    cases houtcome with
    | joined huntracked hinvites hadded hnames =>
        exact accepted_of_invites huntracked hinvites hadded hnames
    | extended hknown hextends hfound hfresh hnames =>
        exact accepted_of_extends hkeyed hknown hextends hfound hfresh hnames
  · exact fun haccepted => haccepted.apply_eq hkeyed

/-- A node that follows one thread, in which nothing has been posted. -/
def holidayFollower : LocalState :=
  { untouched with
    threads := ⟨[⟨.ofKey exampleThreadKey.publicKey, ⟨"holiday", exampleThreadKey⟩, []⟩]⟩ }

/-- It takes a photo of that thread. -/
theorem holidayFollower_takes_photo :
    holidayFollower.threads.Keyed ∧
      holidayFollower.apply exampleInvitee "row" examplePhoto = (.ok (), { holidayFollower with
        threads := holidayFollower.threads.withBlock examplePhoto.thread examplePhoto.id }) := by
  have hkeyed : holidayFollower.threads.Keyed := by
    intro entry hentry
    rw [List.mem_singleton.mp hentry]
    rfl
  have hphoto : examplePhoto.IsPhoto exampleThreadKey :=
    .signed rfl (by constructor <;> decide)
  have hextends : Extends examplePhoto ⟨"holiday", exampleThreadKey⟩ := hphoto.extends_thread
  obtain ⟨block, hblock, hkind⟩ := hextends.block
  have htracked : holidayFollower.threads.find? examplePhoto.thread =
      some ⟨.ofKey exampleThreadKey.publicKey, ⟨"holiday", exampleThreadKey⟩, []⟩ :=
    List.find?_cons_of_pos (beq_self_eq_true _)
  refine ⟨hkeyed, (apply_eq_ok_iff_accepted exampleInvitee "row" examplePhoto _ hkeyed).mpr ?_⟩
  exact .photo hblock hkind hphoto.names.symm rfl htracked hextends.signature
    List.not_mem_nil

end PeerMail.LocalState
