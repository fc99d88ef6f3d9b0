import PeerMail.Proofs.Inbound.Effects
import PeerMail.Proofs.Store.Roster
import PeerMail.Proofs.Thread.Outcomes

/-!
# The three stores agree

A node keeps threads, members and blocks in three places.  `LocalState.Sound` is
what holds between them: every thread stands under the name of its key, every block
of a chain was received for that thread under a signature of that key
(`Authentic`), every thread has one member and no other thread has any (`Roster`),
and every stored block stands under the hash of its content.

Received bytes keep all of this (`LocalState.Sound.receive`), and they take nothing
away (`LocalState.receive_grows`).  Both are one case analysis of the effects that
bytes can have and of the outcomes of applying a block.
-/

namespace PeerMail

/-! ## Authentic blocks -/

/-- One of the received byte strings brings a block for the thread that its key signs and that
the name stands for. -/
def Authentic (owner : Keypair) (received : List Bytes) (thread : Thread) (cid : Cid) : Prop :=
  ∃ raw ∈ received, ∃ sender signed,
    Brings owner raw sender (.ofPayload (.threadBlock signed)) ∧ signed.thread = thread.id ∧
      thread.verify signed.data signed.signature = .ok () ∧ cid = Cid.ofData signed.data

theorem Authentic.mono {owner : Keypair} {received more : List Bytes} {thread : Thread} {cid : Cid}
    (h : Authentic owner received thread cid) (hmore : received ⊆ more) :
    Authentic owner more thread cid := by
  obtain ⟨raw, hraw, hrest⟩ := h
  exact ⟨raw, hmore hraw, hrest⟩

/-! ## Sound registries -/

namespace Registry

/-- The names of the tracked threads. -/
def ids (registry : Registry) : List ThreadId := registry.entries.map ThreadEntry.id

/-- Every thread stands under the name of its key, no name stands twice, and chains hold authentic
blocks without repetition. -/
structure Sound (owner : Keypair) (received : List Bytes) (registry : Registry) : Prop where
  keyed : ∀ entry ∈ registry.entries, entry.id = entry.thread.id
  distinct : registry.ids.Nodup
  duplicateFree : ∀ entry ∈ registry.entries, entry.chain.Nodup
  authentic : ∀ entry ∈ registry.entries, ∀ cid ∈ entry.chain,
    Authentic owner received entry.thread cid

variable {owner key : Keypair} {received more : List Bytes} {registry : Registry} {id : ThreadId}
  {name : String} {cid : Cid} {entry : ThreadEntry}

theorem not_mem_ids (h : registry.find? id = none) : id ∉ registry.ids := by
  intro hmem
  obtain ⟨entry, hentry, hid⟩ := List.mem_map.mp hmem
  exact find?_eq_none_iff.mp h entry hentry hid

@[simp] theorem ids_withThread :
    (registry.withThread name key).ids = registry.ids ++ [.ofKey key.publicKey] := by
  simp [ids, withThread]

@[simp] theorem ids_withBlock : (registry.withBlock id cid).ids = registry.ids := by
  unfold ids withBlock
  rw [List.map_map]
  refine List.map_congr_left fun entry _ => ?_
  simp only [Function.comp]
  split <;> rfl

namespace Sound

theorem mono (h : registry.Sound owner received) (hmore : received ⊆ more) :
    registry.Sound owner more where
  keyed := h.keyed
  distinct := h.distinct
  duplicateFree := h.duplicateFree
  authentic entry hentry cid hcid := (h.authentic entry hentry cid hcid).mono hmore

theorem withThread (h : registry.Sound owner received)
    (huntracked : registry.find? (.ofKey key.publicKey) = none) :
    (registry.withThread name key).Sound owner received := by
  have hentries : ∀ entry ∈ (registry.withThread name key).entries, entry ∈ registry.entries ∨
      entry = ⟨.ofKey key.publicKey, ⟨name, key⟩, []⟩ := by
    intro entry hentry
    simpa [Registry.withThread] using hentry
  constructor
  case keyed =>
    intro entry hentry
    rcases hentries entry hentry with hold | rfl
    · exact h.keyed entry hold
    · rfl
  case distinct =>
    rw [ids_withThread]
    rw [← List.concat_eq_append]
    exact h.distinct.concat (not_mem_ids huntracked)
  case duplicateFree =>
    intro entry hentry
    rcases hentries entry hentry with hold | rfl
    · exact h.duplicateFree entry hold
    · exact List.nodup_nil
  case authentic =>
    intro entry hentry cid hcid
    rcases hentries entry hentry with hold | rfl
    · exact h.authentic entry hold cid hcid
    · simp at hcid

/-- A block that is new and authentic may be appended. -/
theorem withBlock (h : registry.Sound owner received) (hfound : registry.find? id = some entry)
    (hfresh : cid ∉ entry.chain) (hauthentic : Authentic owner received entry.thread cid) :
    (registry.withBlock id cid).Sound owner received := by
  have hentries : ∀ changed ∈ (registry.withBlock id cid).entries, changed ∈ registry.entries ∨
      changed = { entry with chain := entry.chain ++ [cid] } := by
    intro changed hchanged
    obtain ⟨old, hold, rfl⟩ := List.mem_map.mp hchanged
    split
    · next hid =>
        -- names stand only once, so this is the entry that was found
        have hsame := find?_of_mem h.distinct hold
        rw [hid, hfound] at hsame
        cases hsame
        exact .inr rfl
    · exact .inl hold
  obtain ⟨hentry, hid⟩ := find?_eq_some hfound
  constructor
  case keyed =>
    intro changed hchanged
    rcases hentries changed hchanged with hold | rfl
    · exact h.keyed changed hold
    · exact h.keyed entry hentry
  case distinct =>
    rw [ids_withBlock]
    exact h.distinct
  case duplicateFree =>
    intro changed hchanged
    rcases hentries changed hchanged with hold | rfl
    · exact h.duplicateFree changed hold
    · show (entry.chain ++ [cid]).Nodup
      rw [← List.concat_eq_append]
      exact (h.duplicateFree entry hentry).concat hfresh
  case authentic =>
    intro changed hchanged other hother
    rcases hentries changed hchanged with hold | rfl
    · exact h.authentic changed hold other hother
    · rcases List.mem_append.mp hother with hother | hother
      · exact h.authentic entry hentry other hother
      · rw [List.mem_singleton.mp hother]
        exact hauthentic

end Sound

end Registry

/-! ## Sound block stores -/

namespace BlockStore

variable {store next : BlockStore} {cid other : Cid} {data : Bytes}

/-- Every block stands under the hash of its content. -/
def Sound (store : BlockStore) : Prop := ∀ block ∈ store.blocks, block.1 = Cid.ofData block.2

theorem put_eq_ok_iff : store.put cid data = .ok next ↔ store.readOnly = false ∧
    next = { store with
      blocks := (cid, data) :: store.blocks.filter fun block => !(block.1 == cid) } := by
  unfold put
  cases store.readOnly <;> simp [eq_comm]

theorem Sound.put (h : store.Sound) (hnames : cid.Names data)
    (hput : store.put cid data = .ok next) : next.Sound := by
  obtain ⟨-, rfl⟩ := put_eq_ok_iff.mp hput
  intro block hblock
  rcases List.mem_cons.mp hblock with rfl | hold
  · exact hnames.symm
  · exact h block (List.mem_filter.mp hold).1

theorem has_iff : store.has cid = true ↔ ∃ data, (cid, data) ∈ store.blocks := by
  unfold has get?
  rw [List.lookup_isSome_iff]
  constructor
  · rintro ⟨⟨name, data⟩, hblock, hname⟩
    obtain rfl : cid = name := by simpa using hname
    exact ⟨data, hblock⟩
  · rintro ⟨data, hblock⟩
    exact ⟨(cid, data), hblock, by simp⟩

/-- Storing a block drops no name. -/
theorem has_put (hput : store.put cid data = .ok next) (h : store.has other = true) :
    next.has other = true := by
  obtain ⟨-, rfl⟩ := put_eq_ok_iff.mp hput
  obtain ⟨content, hcontent⟩ := has_iff.mp h
  rw [has_iff]
  by_cases heq : other = cid
  · exact ⟨data, by simp [heq]⟩
  · exact ⟨content, by simp [hcontent, heq]⟩

end BlockStore

/-! ## Sound nodes -/

namespace LocalState

/-- The three stores of a node agree. -/
structure Sound (owner : Keypair) (received : List Bytes) (state : LocalState) : Prop where
  threads : state.threads.Sound owner received
  members : ∃ members, state.db.members = some members ∧ Roster state.threads.ids members.rows
  blocks : state.blocks.Sound

/-- Nothing that was there is gone: threads keep their names and keys, chains have only grown at
their ends, and no stored block is missing. -/
structure Grows (before after : LocalState) : Prop where
  threads : before.threads.Kept after.threads
  blocks : ∀ cid, before.blocks.has cid = true → after.blocks.has cid = true

variable {owner key : Keypair} {row : String} {received more : List Bytes} {raw : Bytes}
  {state next noted : LocalState} {sender : PeerId} {signed : SignedBlock}

theorem Grows.refl (state : LocalState) : Grows state state := ⟨.refl _, fun _ h => h⟩

theorem Grows.trans {first second third : LocalState} (h₁ : Grows first second)
    (h₂ : Grows second third) : Grows first third :=
  ⟨h₁.threads.trans h₂.threads, fun cid h => h₂.blocks cid (h₁.blocks cid h)⟩

theorem untouched_sound (owner : Keypair) (faults : Faults) :
    Sound owner [] ⟨.empty, .empty, .empty, faults⟩ where
  threads := by constructor <;> simp [Registry.empty, Registry.ids]
  members := ⟨.empty, rfl, .nil⟩
  blocks := by simp [BlockStore.Sound, BlockStore.empty]

theorem Sound.mono (h : state.Sound owner received) (hmore : received ⊆ more) :
    state.Sound owner more :=
  ⟨h.threads.mono hmore, h.members, h.blocks⟩

/-! ### Applying a block -/

/-- Noting the inviter of a thread that is about to be followed keeps the roster. -/
theorem roster_of_noted {members : MemberTable}
    (hroster : Roster state.threads.ids members.rows) (hmembers : state.db.members = some members)
    (huntracked : state.threads.find? signed.thread = none) (hinvites : Invites owner signed key)
    (hadded : state.addMember (signed.inviter row) = .ok noted) :
    ∃ next, noted.db.members = some next ∧
      Roster (state.threads.ids ++ [.ofKey key.publicKey]) next.rows := by
  obtain ⟨-, db, hadd, rfl⟩ := addMember_eq_ok_iff.mp hadded
  obtain ⟨table, htable, -, hname, rfl⟩ := Database.addMember_eq_ok_iff.mp hadd
  cases hmembers.symm.trans htable
  refine ⟨_, rfl, ?_⟩
  rw [hinvites.thread]
  exact hroster.add (Registry.not_mem_ids huntracked) (Table.perm_rows_put hname) rfl rfl
    hinvites.issuer

theorem addMember_blocks {member : Member} (h : state.addMember member = .ok noted) :
    noted.blocks = state.blocks := by
  obtain ⟨-, db, -, rfl⟩ := addMember_eq_ok_iff.mp h
  rfl

/-- A block that is brought is authentic for the thread whose key signs it. -/
theorem authentic_of_brought {thread : Thread}
    (hbrings : Brings owner raw sender (.ofPayload (.threadBlock signed)))
    (hthread : thread.id = signed.thread)
    (hsignature : thread.verify signed.data signed.signature = .ok ())
    (hnames : signed.id.Names signed.data) :
    Authentic owner (received ++ [raw]) thread signed.id :=
  ⟨raw, by simp, sender, signed, hbrings, hthread.symm, hsignature, hnames.symm⟩

theorem Sound.apply (h : state.Sound owner received) (hremove : state.faults.removeFails = false)
    (hbrings : Brings owner raw sender (.ofPayload (.threadBlock signed))) :
    (state.apply owner row signed).2.Sound owner (received ++ [raw]) := by
  obtain ⟨hthreads, ⟨members, hmembers, hroster⟩, hblocks⟩ :=
    h.mono (List.subset_append_left received [raw])
  have houtcome := apply_outcome owner row signed state
  generalize (state.apply owner row signed).1 = result at houtcome
  generalize (state.apply owner row signed).2 = final at houtcome ⊢
  cases houtcome with
  | refused => exact ⟨hthreads, ⟨members, hmembers, hroster⟩, hblocks⟩
  | stranded huntracked hinvites hfailed hstuck => simp [hremove] at hstuck
  | @misnamed key noted huntracked hinvites hadded hwrong =>
      -- the thread and its member come together, although the block fails
      have hkey : state.threads.find? (.ofKey key.publicKey) = none :=
        hinvites.thread ▸ huntracked
      refine ⟨hthreads.withThread hkey, ?_, addMember_blocks hadded ▸ hblocks⟩
      simpa using roster_of_noted hroster hmembers huntracked hinvites hadded
  | @joined key noted huntracked hinvites hadded hnames =>
      have hkey : state.threads.find? (.ofKey key.publicKey) = none :=
        hinvites.thread ▸ huntracked
      have hfound : (state.threads.withThread signed.threadName key).find? signed.thread =
          some ⟨.ofKey key.publicKey, ⟨signed.threadName, key⟩, []⟩ := by
        rw [Registry.find?_withThread hkey, if_pos hinvites.thread]
      refine ⟨(hthreads.withThread hkey).withBlock hfound (by simp) ?_, ?_,
        addMember_blocks hadded ▸ hblocks⟩
      · exact authentic_of_brought hbrings hinvites.thread hinvites.signature hnames
      · simpa using roster_of_noted hroster hmembers huntracked hinvites hadded
  | @extended thread entry hknown hextends hfound hfresh hnames =>
      obtain ⟨tracked, htracked, rfl⟩ := Option.map_eq_some_iff.mp (find?_of_lookup hknown)
      obtain ⟨hmem, hid⟩ := Registry.find?_eq_some htracked
      -- the entry is keyed by its thread, so the block names the thread that it extends
      have hthread : tracked.thread.id = signed.thread := (hthreads.keyed tracked hmem) ▸ hid
      rw [hthread, htracked] at hfound
      cases hfound
      rw [hthread]
      refine ⟨hthreads.withBlock htracked hfresh ?_, ?_, hblocks⟩
      · exact authentic_of_brought hbrings hthread hextends.signature hnames
      · simpa using ⟨members, hmembers, hroster⟩

theorem apply_grows (owner : Keypair) (row : String) (signed : SignedBlock) (state : LocalState) :
    Grows state (state.apply owner row signed).2 := by
  have houtcome := apply_outcome owner row signed state
  generalize (state.apply owner row signed).1 = result at houtcome
  generalize (state.apply owner row signed).2 = final at houtcome ⊢
  cases houtcome with
  | refused => exact .refl state
  | stranded huntracked hinvites =>
      exact ⟨Registry.kept_withThread (hinvites.thread ▸ huntracked), fun _ h => h⟩
  | misnamed huntracked hinvites hadded =>
      exact ⟨Registry.kept_withThread (hinvites.thread ▸ huntracked),
        fun _ h => addMember_blocks hadded ▸ h⟩
  | @joined key _ huntracked hinvites hadded =>
      have hfollowed : state.threads.Kept (state.threads.withThread signed.threadName key) :=
        Registry.kept_withThread (hinvites.thread ▸ huntracked)
      exact ⟨hfollowed.trans (Registry.kept_withBlock _), fun _ h => addMember_blocks hadded ▸ h⟩
  | extended => exact ⟨Registry.kept_withBlock _, fun _ h => h⟩

/-! ### Receiving bytes -/

/-- Received bytes keep the three stores in agreement. -/
theorem Sound.receive (h : state.Sound owner received)
    (hremove : state.faults.removeFails = false) (row : String) (raw : Bytes) :
    (LocalState.receive owner row state raw).2.Sound owner (received ++ [raw]) := by
  have heffect := receive_effect owner row state raw
  have hmono := h.mono (List.subset_append_left received [raw])
  generalize (LocalState.receive owner row state raw).2 = final at heffect ⊢
  cases heffect with
  | nothing => exact hmono
  | applied hbrings => exact h.apply hremove hbrings
  | retracted _ _ hdeleted =>
      refine ⟨hmono.threads, ?_, hmono.blocks⟩
      rw [Database.deletePointer_members hdeleted]
      exact hmono.members
  | stored _ _ hnames hput => exact ⟨hmono.threads, hmono.members, hmono.blocks.put hnames hput⟩

/-- Received bytes take nothing away. -/
theorem receive_grows (owner : Keypair) (row : String) (state : LocalState) (raw : Bytes) :
    Grows state (LocalState.receive owner row state raw).2 := by
  have heffect := receive_effect owner row state raw
  generalize (LocalState.receive owner row state raw).2 = final at heffect ⊢
  cases heffect with
  | nothing => exact .refl state
  | applied => exact apply_grows owner row _ state
  | retracted => exact ⟨.refl _, fun _ h => h⟩
  | stored _ _ _ hput => exact ⟨.refl _, fun _ h => BlockStore.has_put hput h⟩

end LocalState

end PeerMail
