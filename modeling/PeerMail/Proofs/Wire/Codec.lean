import PeerMail.Proofs.Fallible
import PeerMail.Proofs.MessagePack.Members
import PeerMail.Wire.Envelope

/-!
# The wire forms of messages, envelopes and thread blocks

A record whose texts and lists are shorter than `2 ^ 32` is read back from its
bytes, whatever follows them, and what is read from any bytes at all is such a
record and is read again when more bytes follow (`Codec`).  So the written form of
a record is its canonical form: no other record has it, and no other record has a
written form that it begins with.

The argument is made once, between bytes and values, for any record that goes to a
value and back (`Recorded`).  What remains of each kind of record is how its
members are taken apart.  A signature covers the canonical form, so what bytes
authenticate is what the canonical bytes authenticate (`wire_codec`).
-/

namespace PeerMail

open MessagePack (Value)

/-! ## Records that go to a value and back -/

/-- A kind of record has a form as a value, of so many levels at most, and a reader for values. -/
structure Recorded {α : Type} (levels : Nat) (toValue : α → Value) (ofValue? : Value → Option α)
    (Fits : α → Prop) : Prop where
  restored : ∀ record, ofValue? (toValue record) = some record
  sized : ∀ record, Fits record → (toValue record).Sized
  shallow : ∀ record, (toValue record).depth ≤ levels
  fits : ∀ value record, value.Sized → ofValue? value = some record → Fits record

/-- A kind of record has a written form and a reader for it that sees only the front of what it is
given. -/
structure Codec {α : Type} (toBytes : α → Bytes) (ofBytes : Bytes → Except WireError α)
    (Fits : α → Prop) : Prop where
  /-- What is written is read back, whatever follows. -/
  reads_written : ∀ record, Fits record → ∀ tail, ofBytes (toBytes record ++ tail) = .ok record
  /-- What is read does not depend on what follows. -/
  ignores_rest : ∀ bytes record, ofBytes bytes = .ok record →
    ∀ tail, ofBytes (bytes ++ tail) = .ok record
  /-- What is read can be written. -/
  fits : ∀ bytes record, ofBytes bytes = .ok record → Fits record
  /-- Two records with one written form are the same. -/
  injective : ∀ first second, Fits first → Fits second → toBytes first = toBytes second →
    first = second
  /-- No written form is the front of another. -/
  prefix_free : ∀ first second, Fits first → Fits second → toBytes first <+: toBytes second →
    first = second

theorem Recorded.codec {α : Type} {levels : Nat} {toValue : α → Value} {ofValue? : Value → Option α}
    {Fits : α → Prop} (h : Recorded levels toValue ofValue? Fits) (hlevels : levels ≤ Value.maxLevels)
    {toBytes : α → Bytes} {ofBytes : Bytes → Except WireError α}
    (hwritten : ∀ record, toBytes record = (toValue record).write)
    (hread : ∀ bytes record,
      ofBytes bytes = .ok record ↔ Value.read? bytes >>= ofValue? = some record) :
    Codec toBytes ofBytes Fits := by
  have hback : ∀ record, Fits record → ∀ tail, ofBytes (toBytes record ++ tail) = .ok record := by
    intro record hfits tail
    have hvalue := Value.read?_write (h.sized record hfits)
      (Nat.le_trans (h.shallow record) hlevels) tail
    rw [hread, hwritten, hvalue]
    exact h.restored record
  have hprefix : ∀ first second, Fits first → Fits second → toBytes first <+: toBytes second →
      first = second := by
    rintro first second hfirst hsecond ⟨tail, htail⟩
    have hone := hback first hfirst tail
    have htwo := hback second hsecond []
    rw [List.append_nil, ← htail, hone] at htwo
    exact Except.ok.inj htwo
  refine ⟨hback, ?_, ?_, ?_, hprefix⟩
  · intro bytes record hbytes tail
    obtain ⟨value, hvalue, hrecord⟩ := Option.bind_eq_some_iff.mp ((hread bytes record).mp hbytes)
    rw [hread, Value.read?_append hvalue tail]
    exact hrecord
  · intro bytes record hbytes
    obtain ⟨value, hvalue, hrecord⟩ := Option.bind_eq_some_iff.mp ((hread bytes record).mp hbytes)
    exact h.fits value record (Value.sized_of_read? hvalue) hrecord
  · intro first second hfirst hsecond heq
    exact hprefix first second hfirst hsecond (heq ▸ List.prefix_refl _)

/-! ## Lengths that headers can give -/

/-- The text and the lists of a thread block are shorter than `2 ^ 32`. -/
structure ThreadBlock.Fits (block : ThreadBlock) : Prop where
  target : (Utf8.encode block.target).length < 2 ^ 32
  targetKey : block.targetKey.length < 2 ^ 32
  parents : block.parents.length < 2 ^ 32

/-- The text and the lists of a signed block are shorter than `2 ^ 32`. -/
structure SignedBlock.Fits (signed : SignedBlock) : Prop where
  threadName : (Utf8.encode signed.threadName).length < 2 ^ 32
  issuerKey : signed.issuerKey.length < 2 ^ 32
  data : signed.data.length < 2 ^ 32
  signature : signed.signature.length < 2 ^ 32

/-- The texts and lists of a payload are shorter than `2 ^ 32`. -/
def Payload.Fits : Payload → Prop
  | ping _ => True
  | threadBlock signed => signed.Fits
  | offlineAck peer => peer.length < 2 ^ 32
  | offlineRelay ciphertext => ciphertext.length < 2 ^ 32
  | block cid data => (Utf8.encode cid).length < 2 ^ 32 ∧ data.length < 2 ^ 32
  | cidList cids => cids.length < 2 ^ 32 ∧ ∀ cid ∈ cids, (Utf8.encode cid).length < 2 ^ 32
  | error _ text => (Utf8.encode text).length < 2 ^ 32

/-- The texts and lists of a message are shorter than `2 ^ 32`. -/
def Message.Fits (message : Message) : Prop := ∀ payload, message.payload = some payload → payload.Fits

/-- The texts and lists of an envelope are shorter than `2 ^ 32`. -/
structure Envelope.Fits (envelope : Envelope) : Prop where
  senderKey : envelope.senderKey.length < 2 ^ 32
  message : envelope.message.Fits
  signature : envelope.signature.length < 2 ^ 32

/-! ## Thread blocks -/

namespace ThreadBlock

variable (room : Nat)

theorem kindOfValue?_ofString (kind : BlockType) : kindOfValue? (.ofString kind.name) = some kind := by
  cases kind <;> rfl

theorem cidOfValue?_ofBytes (cid : Cid) : cidOfValue? (.ofBytes cid.bytes) = some cid := by
  obtain ⟨digest, hlength⟩ := cid
  have hbytes : (Value.ofBytes digest).exactBytes? 32 = some digest :=
    Value.exactBytes?_ofBytes hlength
  simp [cidOfValue?, Cid.bytes, hbytes, Bytes.exactly?, hlength]

theorem sized_cid (cid : Cid) : (Value.ofBytes cid.bytes).Sized :=
  Value.sized_ofBytes (by rw [Cid.bytes, cid.digest.property]; decide)

theorem recorded : Recorded 3 toValue (ofValue? room) Fits := by
  constructor
  case restored =>
    intro block
    have hparents : (block.parents.map fun cid => Value.ofBytes cid.bytes).mapM cidOfValue? =
        some block.parents := Value.mapM_map_eq_some fun cid _ => cidOfValue?_ofBytes cid
    rw [ofValue?, toValue, Value.record?_array rfl]
    simp only [List.map_cons, List.map_nil, Option.bind_eq_bind, Option.bind_some,
      kindOfValue?_ofString, Value.string?_ofString, Value.bytes?_ofBytes, Value.list?, hparents]
    rfl
  case sized =>
    intro block hfits
    have hkind : (Value.ofString block.kind.name).Sized := by
      cases block.kind <;> exact .text (by decide)
    have hparents : (Value.array (block.parents.map fun cid => .ofBytes cid.bytes)).Sized :=
      Value.sized_array_map hfits.parents fun cid _ => sized_cid cid
    refine .array (by simp) ?_
    simpa using ⟨hkind, .text hfits.target, Value.sized_ofBytes hfits.targetKey, hparents⟩
  case shallow =>
    intro block
    refine Value.depth_array_le fun item hitem => ?_
    simp only [List.mem_cons, List.not_mem_nil, or_false] at hitem
    rcases hitem with rfl | rfl | rfl | rfl
    · exact Nat.zero_le 2
    · exact Nat.zero_le 2
    · exact Nat.le_succ_of_le (Value.depth_ofBytes_le _)
    · exact Value.depth_array_map_le fun cid => Value.depth_ofBytes_le cid.bytes
  case fits =>
    intro value block hsized h
    simp only [ofValue?, Option.bind_eq_bind, Option.bind_eq_some_iff] at h
    obtain ⟨slots, hslots, h⟩ := h
    have hmembers := Value.sized_of_record? hsized hslots
    split at h
    · simp only [Option.bind_eq_some_iff, Option.pure_def, Option.some.injEq] at h
      obtain ⟨kind, -, target, htarget, targetKey, hkey, items, hitems, parents, hparents, rfl⟩ := h
      constructor
      case target => exact Value.length_of_string? (hmembers _ (by simp)) htarget
      case targetKey => exact Value.length_of_bytes? (hmembers _ (by simp)) hkey
      case parents =>
        rw [(Value.mapM_eq_some hparents).1]
        exact (Value.sized_of_list? (hmembers _ (by simp)) hitems).1
    · cases h

end ThreadBlock

/-! ## Signed blocks -/

namespace SignedBlock

variable (room : Nat)

theorem recorded : Recorded 2 toValue (ofValue? room) Fits := by
  constructor
  case restored =>
    intro signed
    obtain ⟨id, ⟨thread, hthread⟩, threadName, issuerKey, data, signature⟩ := signed
    have hbytes : (Value.ofBytes thread).exactBytes? 32 = some thread :=
      Value.exactBytes?_ofBytes hthread
    rw [ofValue?, toValue, Value.record?_array rfl]
    simp [ThreadBlock.cidOfValue?_ofBytes, ThreadId.bytes, hbytes, ThreadId.ofBytes?, Bytes.exactly?,
      hthread, Value.string?_ofString, Value.bytes?_ofBytes]
  case sized =>
    intro signed hfits
    have hthread : (Value.ofBytes signed.thread.bytes).Sized :=
      Value.sized_ofBytes (by rw [ThreadId.bytes, signed.thread.digest.property]; decide)
    refine .array (by simp) ?_
    simpa using ⟨ThreadBlock.sized_cid signed.id, hthread, .text hfits.threadName,
      Value.sized_ofBytes hfits.issuerKey, Value.sized_ofBytes hfits.data,
      Value.sized_ofBytes hfits.signature⟩
  case shallow =>
    intro signed
    refine Value.depth_array_le fun item hitem => ?_
    simp only [List.mem_cons, List.not_mem_nil, or_false] at hitem
    rcases hitem with rfl | rfl | rfl | rfl | rfl | rfl
    · exact Value.depth_ofBytes_le _
    · exact Value.depth_ofBytes_le _
    · exact Nat.zero_le 1
    · exact Value.depth_ofBytes_le _
    · exact Value.depth_ofBytes_le _
    · exact Value.depth_ofBytes_le _
  case fits =>
    intro value signed hsized h
    simp only [ofValue?, Option.bind_eq_bind, Option.bind_eq_some_iff] at h
    obtain ⟨slots, hslots, h⟩ := h
    have hmembers := Value.sized_of_record? hsized hslots
    split at h
    · simp only [Option.bind_eq_some_iff, Option.pure_def, Option.some.injEq] at h
      obtain ⟨id, -, digest, -, thread, -, threadName, hname, issuerKey, hissuer, data, hdata,
        signature, hsignature, rfl⟩ := h
      constructor
      case threadName => exact Value.length_of_string? (hmembers _ (by simp)) hname
      case issuerKey => exact Value.length_of_bytes? (hmembers _ (by simp)) hissuer
      case data => exact Value.length_of_bytes? (hmembers _ (by simp)) hdata
      case signature => exact Value.length_of_bytes? (hmembers _ (by simp)) hsignature
    · cases h

end SignedBlock

/-! ## Payloads -/

namespace Payload

variable {room : Nat} {name : String} {value member other : Value}

theorem single?_array : single? name room (.array [member]) = some member := by
  rw [single?, Value.record?_array rfl]
  rfl

theorem pair?_array {text : String} :
    pair? name text room (.array [member, other]) = some (member, other) := by
  rw [pair?, Value.record?_array rfl]
  rfl

theorem sized_of_single? (hsized : value.Sized) (h : single? name room value = some member) :
    member.Sized := by
  obtain ⟨slots, hslots, h⟩ := Option.bind_eq_some_iff.mp h
  split at h
  · obtain rfl := Option.some.inj h
    exact Value.sized_of_record? hsized hslots _ (List.mem_singleton_self _)
  · cases h

theorem sized_of_pair? {text : String} (hsized : value.Sized)
    (h : pair? name text room value = some (member, other)) : member.Sized ∧ other.Sized := by
  obtain ⟨slots, hslots, h⟩ := Option.bind_eq_some_iff.mp h
  have hmembers := Value.sized_of_record? hsized hslots
  split at h
  · obtain ⟨rfl, rfl⟩ := Prod.mk.inj (Option.some.inj h)
    exact ⟨hmembers _ (by simp), hmembers _ (by simp)⟩
  · cases h

/-- The position of the alternative that a payload is. -/
def position : Payload → Nat
  | ping _ => 0
  | threadBlock _ => 1
  | offlineAck _ => 2
  | offlineRelay _ => 3
  | block _ _ => 4
  | cidList _ => 5
  | error _ _ => 6

theorem choice?_toValue (payload : Payload) :
    payload.toValue.choice? names = some (payload.position, some payload.content) := by
  cases payload <;> rfl

variable (room)

theorem ofContent?_content (payload : Payload) :
    ofContent? room payload.position payload.content = some payload := by
  cases payload with
  | ping nonce =>
      have hnonce : (Value.unsigned nonce.toNat).nat? (Nat.pow 2 64) = some nonce.toNat :=
        Value.nat?_unsigned nonce.toNat_lt
      simp [ofContent?, position, content, single?_array, hnonce]
  | threadBlock signed =>
      simp [ofContent?, position, content, (SignedBlock.recorded room).restored]
  | offlineAck peer => simp [ofContent?, position, content, single?_array, Value.bytes?_ofBytes]
  | offlineRelay ciphertext =>
      simp [ofContent?, position, content, single?_array, Value.bytes?_ofBytes]
  | block cid data =>
      simp [ofContent?, position, content, pair?_array, Value.string?_ofString, Value.bytes?_ofBytes]
  | cidList cids =>
      have hcids : (cids.map Value.ofString).mapM Value.string? = some cids :=
        Value.mapM_map_eq_some fun cid _ => Value.string?_ofString cid
      simp [ofContent?, position, content, single?_array, Value.list?, hcids]
  | error code text =>
      have hcode : (Value.unsigned code.toNat).nat? (Nat.pow 2 32) = some code.toNat :=
        Value.nat?_unsigned code.toNat_lt
      simp [ofContent?, position, content, pair?_array, hcode, Value.string?_ofString]

theorem sized_content {payload : Payload} (h : payload.Fits) : payload.content.Sized := by
  cases payload with
  | ping nonce =>
      refine .array (by simp) ?_
      simpa using .unsigned nonce.toNat_lt
  | threadBlock signed => exact (SignedBlock.recorded 0).sized signed h
  | offlineAck peer =>
      refine .array (by simp) ?_
      simpa using Value.sized_ofBytes h
  | offlineRelay ciphertext =>
      refine .array (by simp) ?_
      simpa using Value.sized_ofBytes h
  | block cid data =>
      refine .array (by simp) ?_
      simpa using ⟨.text h.1, Value.sized_ofBytes h.2⟩
  | cidList cids =>
      have hcids : (Value.array (cids.map .ofString)).Sized :=
        Value.sized_array_map h.1 fun cid hcid => .text (h.2 cid hcid)
      refine .array (by simp) ?_
      simpa using hcids
  | error code text =>
      refine .array (by simp) ?_
      simpa using ⟨.unsigned (Nat.lt_trans code.toNat_lt (by decide)), .text h⟩

theorem depth_content_le (payload : Payload) : payload.content.depth ≤ 2 := by
  cases payload with
  | ping nonce => exact Value.depth_array_le (by simp [Value.depth])
  | threadBlock signed => exact (SignedBlock.recorded 0).shallow signed
  | offlineAck peer => exact Value.depth_array_le (by simpa using Value.depth_ofBytes_le peer)
  | offlineRelay ciphertext =>
      exact Value.depth_array_le (by simpa using Value.depth_ofBytes_le ciphertext)
  | block cid data =>
      exact Value.depth_array_le (by simpa [Value.depth_ofString] using Value.depth_ofBytes_le data)
  | cidList cids =>
      have hcids : (Value.array (cids.map .ofString)).depth ≤ 1 :=
        Value.depth_array_map_le fun _ => Nat.le_refl 0
      exact Value.depth_array_le (by simpa using hcids)
  | error code text => exact Value.depth_array_le (by simp [Value.depth, Value.depth_ofString])

theorem fits_of_ofContent? {position : Nat} {content : Value} {payload : Payload}
    (hsized : content.Sized) (h : ofContent? room position content = some payload) :
    payload.Fits := by
  unfold ofContent? at h
  split at h
  · simp only [Option.bind_eq_bind, Option.bind_eq_some_iff, Option.pure_def, Option.some.injEq] at h
    obtain ⟨_, -, _, -, rfl⟩ := h
    trivial
  · obtain ⟨signed, hsigned, rfl⟩ := Option.map_eq_some_iff.mp h
    exact (SignedBlock.recorded room).fits content signed hsized hsigned
  · simp only [Option.bind_eq_bind, Option.bind_eq_some_iff, Option.pure_def, Option.some.injEq] at h
    obtain ⟨member, hmember, peer, hpeer, rfl⟩ := h
    exact Value.length_of_bytes? (sized_of_single? hsized hmember) hpeer
  · simp only [Option.bind_eq_bind, Option.bind_eq_some_iff, Option.pure_def, Option.some.injEq] at h
    obtain ⟨member, hmember, ciphertext, hciphertext, rfl⟩ := h
    exact Value.length_of_bytes? (sized_of_single? hsized hmember) hciphertext
  · simp only [Option.bind_eq_bind, Option.bind_eq_some_iff, Option.pure_def, Option.some.injEq] at h
    obtain ⟨⟨first, second⟩, hpair, cid, hcid, data, hdata, rfl⟩ := h
    obtain ⟨hfirst, hsecond⟩ := sized_of_pair? hsized hpair
    exact ⟨Value.length_of_string? hfirst hcid, Value.length_of_bytes? hsecond hdata⟩
  · simp only [Option.bind_eq_bind, Option.bind_eq_some_iff, Option.pure_def, Option.some.injEq] at h
    obtain ⟨member, hmember, items, hitems, cids, hcids, rfl⟩ := h
    have hlist := Value.sized_of_list? (sized_of_single? hsized hmember) hitems
    have hread := Value.mapM_eq_some hcids
    refine ⟨hread.1 ▸ hlist.1, fun cid hcid => ?_⟩
    obtain ⟨item, hitem, htext⟩ := hread.2 cid hcid
    exact Value.length_of_string? (hlist.2 item hitem) htext
  · simp only [Option.bind_eq_bind, Option.bind_eq_some_iff, Option.pure_def, Option.some.injEq] at h
    obtain ⟨⟨first, second⟩, hpair, code, -, text, htext, rfl⟩ := h
    exact Value.length_of_string? (sized_of_pair? hsized hpair).2 htext
  · cases h

theorem recorded : Recorded 3 toValue (ofValue? room) Fits := by
  constructor
  case restored =>
    intro payload
    simp only [ofValue?, choice?_toValue, Option.bind_eq_bind, Option.bind_some]
    exact ofContent?_content room payload
  case sized =>
    intro payload hfits
    have hshort : ∀ name ∈ names, (Utf8.encode name).length < 2 ^ 32 := by decide
    refine Value.sized_ofChoice (hshort _ ?_) (sized_content hfits)
    cases payload <;> simp [name, names]
  case shallow => exact fun payload => Value.depth_ofChoice_le (depth_content_le payload)
  case fits =>
    intro value payload hsized h
    simp only [ofValue?, Option.bind_eq_bind, Option.bind_eq_some_iff] at h
    obtain ⟨⟨position, content⟩, hchoice, h⟩ := h
    cases content with
    | none => cases h
    | some content => exact fits_of_ofContent? room (Value.sized_of_choice? hsized hchoice) h

end Payload

/-! ## Messages -/

namespace Message

variable (room : Nat)

theorem recorded : Recorded 4 toValue (ofValue? room) Fits := by
  constructor
  case restored =>
    intro message
    obtain ⟨tag, payload⟩ := message
    rw [ofValue?, toValue, Value.record?_array rfl]
    cases payload with
    | none => simp [Value.byte?_unsigned]
    | some payload =>
        have hpayload := (Payload.recorded (room - 1)).restored payload
        simp only [List.map_cons, List.map_nil, Option.bind_eq_bind, Option.bind_some,
          Value.byte?_unsigned]
        -- a payload is written as a map, which is not the nil of a missing one
        show (Payload.ofValue? (room - 1) payload.toValue >>= fun payload =>
          some (⟨tag, some payload⟩ : Message)) = _
        rw [hpayload]
        rfl
  case sized =>
    intro message hfits
    obtain ⟨tag, payload⟩ := message
    have htag : (Value.unsigned tag.toNat).Sized :=
      .unsigned (Nat.lt_trans tag.toNat_lt (by decide))
    refine .array (by simp) ?_
    cases payload with
    | none => simpa using ⟨htag, .nil⟩
    | some payload => simpa using ⟨htag, (Payload.recorded 0).sized payload (hfits payload rfl)⟩
  case shallow =>
    intro message
    obtain ⟨tag, payload⟩ := message
    cases payload with
    | none => exact Value.depth_array_le (by simp [Value.depth])
    | some payload =>
        exact Value.depth_array_le (by simpa [Value.depth] using (Payload.recorded 0).shallow payload)
  case fits =>
    intro value message hsized h
    simp only [ofValue?, Option.bind_eq_bind, Option.bind_eq_some_iff] at h
    obtain ⟨slots, hslots, h⟩ := h
    have hmembers := Value.sized_of_record? hsized hslots
    split at h
    · simp only [Option.bind_eq_some_iff] at h
      obtain ⟨tag, -, h⟩ := h
      split at h
      · obtain rfl := Option.some.inj h
        exact fun payload hpayload => by cases hpayload
      · obtain rfl := Option.some.inj h
        exact fun payload hpayload => by cases hpayload
      · simp only [Option.bind_eq_some_iff, Option.pure_def, Option.some.injEq] at h
        obtain ⟨payload, hpayload, rfl⟩ := h
        intro other hother
        obtain rfl := Option.some.inj hother
        exact (Payload.recorded (room - 1)).fits _ _ (hmembers _ (by simp)) hpayload
    · cases h

end Message

/-! ## Envelopes -/

namespace Envelope

variable (room : Nat)

theorem recorded : Recorded 5 toValue (ofValue? room) Fits := by
  constructor
  case restored =>
    intro envelope
    rw [ofValue?, toValue, Value.record?_array rfl]
    simp [Value.bytes?_ofBytes, (Message.recorded (room - 1)).restored]
  case sized =>
    intro envelope hfits
    refine .array (by simp) ?_
    simpa using ⟨Value.sized_ofBytes hfits.senderKey, (Message.recorded 0).sized _ hfits.message,
      Value.sized_ofBytes hfits.signature⟩
  case shallow =>
    intro envelope
    refine Value.depth_array_le fun item hitem => ?_
    simp only [List.mem_cons, List.not_mem_nil, or_false] at hitem
    rcases hitem with rfl | rfl | rfl
    · exact Nat.le_trans (Value.depth_ofBytes_le _) (by decide)
    · exact (Message.recorded 0).shallow envelope.message
    · exact Nat.le_trans (Value.depth_ofBytes_le _) (by decide)
  case fits =>
    intro value envelope hsized h
    simp only [ofValue?, Option.bind_eq_bind, Option.bind_eq_some_iff] at h
    obtain ⟨slots, hslots, h⟩ := h
    have hmembers := Value.sized_of_record? hsized hslots
    split at h
    · simp only [Option.bind_eq_some_iff, Option.pure_def, Option.some.injEq] at h
      obtain ⟨senderKey, hkey, message, hmessage, signature, hsignature, rfl⟩ := h
      constructor
      case senderKey => exact Value.length_of_bytes? (hmembers _ (by simp)) hkey
      case message => exact (Message.recorded (room - 1)).fits _ _ (hmembers _ (by simp)) hmessage
      case signature => exact Value.length_of_bytes? (hmembers _ (by simp)) hsignature
    · cases h

end Envelope

/-! ## The codec -/

namespace Envelope

theorem codec : Codec toBytes ofBytes Fits := by
  refine (recorded (Value.maxLevels - 2)).codec (by decide) (fun _ => rfl) fun bytes record => ?_
  unfold ofBytes
  cases Value.read? bytes >>= ofValue? (Value.maxLevels - 2) <;> simp

/-- What bytes authenticate is what the canonical bytes of their envelope authenticate. -/
theorem authenticate_canonical {raw : Bytes} {envelope : Envelope} (h : ofBytes raw = .ok envelope) :
    authenticate raw = authenticate envelope.toBytes := by
  have hcanonical := codec.reads_written envelope (codec.fits raw envelope h) []
  rw [List.append_nil] at hcanonical
  rw [authenticate, authenticate, h, hcanonical]

end Envelope

theorem Message.codec : Codec toBytes ofBytes Fits := by
  refine (recorded (Value.maxLevels - 2)).codec (by decide) (fun _ => rfl) fun bytes record => ?_
  unfold ofBytes
  cases Value.read? bytes >>= ofValue? (Value.maxLevels - 2) <;> simp

theorem ThreadBlock.codec : Codec toBytes ofBytes Fits := by
  refine (recorded (Value.maxLevels - 2)).codec (by decide) (fun _ => rfl) fun bytes record => ?_
  unfold ofBytes
  cases Value.read? bytes >>= ofValue? (Value.maxLevels - 2) <;> simp

/-- **The codec law of the wire.**  Messages, envelopes and thread blocks are read back from their
written forms, the front of a byte string decides what is read, and what bytes authenticate depends
on the canonical form only. -/
theorem wire_codec :
    Codec Message.toBytes Message.ofBytes Message.Fits ∧
    Codec Envelope.toBytes Envelope.ofBytes Envelope.Fits ∧
    Codec ThreadBlock.toBytes ThreadBlock.ofBytes ThreadBlock.Fits ∧
    ∀ raw envelope, Envelope.ofBytes raw = .ok envelope →
      Envelope.authenticate raw = Envelope.authenticate envelope.toBytes :=
  ⟨Message.codec, Envelope.codec, ThreadBlock.codec, fun _ _ => Envelope.authenticate_canonical⟩

/-- An envelope with a message of an unknown kind. -/
def unknownKind : Envelope := ⟨[7], ⟨42, none⟩, []⟩

/-- The envelope in another form: byte strings for the key and the signature, the message as a map
with its members in the other order, and the tag as a number of two bytes. -/
def unknownKindLoose : Bytes :=
  [0x93, 0xc4, 1, 7, 0x82, 0xa7] ++ Bytes.ofAscii "payload" ++ [0xc0, 0xa8] ++
    Bytes.ofAscii "msg_type" ++ [0xcd, 0, 42, 0xc4, 0]

/-- The loose form stands for the same envelope, whatever follows it, and authenticates the same. -/
theorem unknownKind_canonical :
    Envelope.ofBytes unknownKindLoose = .ok unknownKind ∧
    unknownKindLoose ≠ unknownKind.toBytes ∧
    Envelope.ofBytes (unknownKindLoose ++ [0xc1]) = .ok unknownKind ∧
    Envelope.authenticate unknownKindLoose = Envelope.authenticate unknownKind.toBytes := by
  have hread : Envelope.ofBytes unknownKindLoose = .ok unknownKind := by rfl
  obtain ⟨-, henvelope, -, hcanonical⟩ := wire_codec
  exact ⟨hread, by decide, henvelope.ignores_rest _ _ hread [0xc1], hcanonical _ _ hread⟩

end PeerMail
