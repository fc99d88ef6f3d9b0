import Mathlib.Logic.Basic
import PeerMail.Proofs.Fallible
import PeerMail.Thread.Apply

/-!
# Which blocks pass their checks

`Apply.examine` looks at a block before anything is written.  Its two successful
verdicts are described here without its order of looking: `Invites` says what an
invitation has to be, and `Extends` what content of a known thread has to be.
`examine_eq_invitation_iff` and `examine_eq_content_iff` say that the verdicts are
exactly these.
-/

namespace PeerMail

variable {self key : Keypair} {signed : SignedBlock}

/-- The block invites a peer to the thread with the given key: it names the peer, its box holds
the secret of the key, the key signs the data and leads to the thread that is named, and the
issuer's key is a key. -/
structure Invites (invitee : Keypair) (signed : SignedBlock) (key : Keypair) : Prop where
  block : ∃ block, signed.block = .ok block ∧ block.kind = .invite ∧
    block.target = invitee.peerId.text ∧ invitee.openBox block.targetKey = .ok key.secret.val
  signature : PublicKey.verify key.publicKey signed.data signed.signature = .ok ()
  thread : ThreadId.ofKey key.publicKey = signed.thread
  issuer : PublicKey.validate signed.issuerKey = .ok ()

/-- The block is content that the key of the thread signs. -/
structure Extends (signed : SignedBlock) (thread : Thread) : Prop where
  block : ∃ block, signed.block = .ok block ∧ block.kind = .photo
  signature : thread.verify signed.data signed.signature = .ok ()

/-- At most one key is handed over. -/
theorem Invites.unique {first second : Keypair} (h₁ : Invites self signed first)
    (h₂ : Invites self signed second) : first = second := by
  obtain ⟨block, hblock, -, -, hbox⟩ := h₁.block
  obtain ⟨block', hblock', -, -, hbox'⟩ := h₂.block
  rw [hblock] at hblock'
  cases hblock'
  rw [hbox] at hbox'
  obtain ⟨secret⟩ := first
  obtain ⟨secret'⟩ := second
  exact congrArg Keypair.mk (Subtype.ext (Except.ok.inj hbox'))

/-- Whatever it is called, the thread with the key is the one that the invitation is for. -/
theorem Invites.id_thread (h : Invites self signed key) (name : String) :
    (⟨name, key⟩ : Thread).id = signed.thread :=
  h.thread

/-- The name of an invitation is not one of the things that are checked. -/
theorem Invites.renamed (h : Invites self signed key) (id : Cid) :
    Invites self { signed with id } key :=
  ⟨h.block, h.signature, h.thread, h.issuer⟩

/-- An invitation is no photo. -/
theorem Invites.not_extends {thread : Thread} (h : Invites self signed key) :
    ¬ Extends signed thread := by
  intro hextends
  obtain ⟨block, hblock, hkind, -, -⟩ := h.block
  obtain ⟨block', hblock', hkind'⟩ := hextends.block
  obtain rfl := Except.ok.inj (hblock.symm.trans hblock')
  rw [hkind] at hkind'
  cases hkind'

/-- An invitation to a thread that is known is not looked at any further. -/
theorem Invites.examine_of_known (h : Invites self signed key) (known : Thread) :
    Apply.examine self signed (some known) = .error (.admission .threadAlreadyExists) := by
  obtain ⟨block, hblock, hkind, -, -⟩ := h.block
  simp [Apply.examine, hblock, hkind, gate, Except.mapError, bind, Except.bind]

/-! ## The gate -/

theorem gate_eq_admitInvite_iff {kind : BlockType} {known : Bool} {target : String} {id : PeerId} :
    gate kind known target id = .ok .admitInvite ↔
      kind = .invite ∧ known = false ∧ target = id.text := by
  cases kind <;> cases known <;> simp [gate]

theorem gate_eq_verifyWithThreadKey_iff {kind : BlockType} {known : Bool} {target : String}
    {id : PeerId} :
    gate kind known target id = .ok .verifyWithThreadKey ↔ kind = .photo ∧ known = true := by
  cases kind <;> cases known <;> simp [gate]
  split <;> simp

/-! ## The key of an invitation -/

theorem ofSecret_eq_ok_iff {bytes : Bytes} : Keypair.ofSecret bytes = .ok key ↔
    bytes = key.secret.val := by
  obtain ⟨secret, hlength⟩ := key
  unfold Keypair.ofSecret Bytes.exactly?
  by_cases h : bytes.length = 32
  · simp [h]
  · have hne : bytes ≠ secret := fun heq => h (heq ▸ hlength)
    simp [h, hne]

theorem openInvitation_eq_ok_iff {block : ThreadBlock} :
    Apply.openInvitation self signed block = .ok key ↔
      self.openBox block.targetKey = .ok key.secret.val ∧
        PublicKey.verify key.publicKey signed.data signed.signature = .ok () ∧
        ThreadId.ofKey key.publicKey = signed.thread ∧
        PublicKey.validate signed.issuerKey = .ok () := by
  simp only [Apply.openInvitation, bind_eq_ok_iff, mapError_eq_ok_iff, ofSecret_eq_ok_iff]
  constructor
  · rintro ⟨secret, hopen, opened, rfl, _, hverify, hrest⟩
    by_cases hthread : ThreadId.ofKey opened.publicKey = signed.thread
    · rw [if_neg (not_not.mpr hthread)] at hrest
      obtain ⟨_, hissuer, hkey⟩ := bind_eq_ok_iff.mp hrest
      obtain rfl : opened = key := pure_eq_ok_iff.mp hkey
      exact ⟨hopen, hverify, hthread, mapError_eq_ok_iff.mp hissuer⟩
    · rw [if_pos hthread] at hrest
      cases hrest
  · rintro ⟨hopen, hverify, hthread, hissuer⟩
    refine ⟨_, hopen, key, rfl, (), hverify, ?_⟩
    rw [if_neg (not_not.mpr hthread), hissuer]
    rfl

/-! ## Verdicts -/

theorem examine_eq_invitation_iff {known : Option Thread} :
    Apply.examine self signed known = .ok (.invitation key) ↔
      known = none ∧ Invites self signed key := by
  simp only [Apply.examine, bind_eq_ok_iff, mapError_eq_ok_iff]
  constructor
  · rintro ⟨block, hblock, way, hgate, hverdict⟩
    cases way with
    | verifyWithThreadKey => cases known <;> simp at hverdict
    | admitInvite =>
        obtain ⟨hkind, hknown, htarget⟩ := gate_eq_admitInvite_iff.mp hgate
        obtain ⟨opened, hopen, hkey⟩ := bind_eq_ok_iff.mp hverdict
        obtain rfl : opened = key := by simpa using hkey
        obtain ⟨hbox, hverify, hthread, hissuer⟩ := openInvitation_eq_ok_iff.mp hopen
        exact ⟨by simpa using hknown,
          ⟨block, hblock, hkind, htarget, hbox⟩, hverify, hthread, hissuer⟩
  · rintro ⟨rfl, ⟨block, hblock, hkind, htarget, hbox⟩, hverify, hthread, hissuer⟩
    refine ⟨block, hblock, .admitInvite, gate_eq_admitInvite_iff.mpr ⟨hkind, rfl, htarget⟩, ?_⟩
    exact bind_eq_ok_iff.mpr
      ⟨key, openInvitation_eq_ok_iff.mpr ⟨hbox, hverify, hthread, hissuer⟩, rfl⟩

theorem examine_eq_content_iff {known : Option Thread} {id : ThreadId} :
    Apply.examine self signed known = .ok (.content id) ↔
      ∃ thread, known = some thread ∧ thread.id = id ∧ Extends signed thread := by
  simp only [Apply.examine, bind_eq_ok_iff, mapError_eq_ok_iff]
  constructor
  · rintro ⟨block, hblock, way, hgate, hverdict⟩
    cases way with
    | admitInvite => simp at hverdict
    | verifyWithThreadKey =>
        obtain ⟨hkind, hknown⟩ := gate_eq_verifyWithThreadKey_iff.mp hgate
        obtain ⟨thread, rfl⟩ := Option.isSome_iff_exists.mp hknown
        obtain ⟨_, hverify, hid⟩ := bind_eq_ok_iff.mp hverdict
        exact ⟨thread, rfl, by simpa using hid, ⟨block, hblock, hkind⟩,
          mapError_eq_ok_iff.mp hverify⟩
  · rintro ⟨thread, rfl, rfl, ⟨block, hblock, hkind⟩, hverify⟩
    refine ⟨block, hblock, .verifyWithThreadKey,
      gate_eq_verifyWithThreadKey_iff.mpr ⟨hkind, rfl⟩, ?_⟩
    exact bind_eq_ok_iff.mpr ⟨(), mapError_eq_ok_iff.mpr hverify, rfl⟩

end PeerMail
