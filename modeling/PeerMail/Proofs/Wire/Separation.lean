import PeerMail.Proofs.Thread.Outcomes
import PeerMail.Proofs.Wire.Codec
import PeerMail.Proofs.Wire.Honest

/-!
# Messages and blocks are not taken for each other

A peer signs the bytes of its messages, a thread signs the bytes of its blocks, and
nothing under a signature says which of the two it is.  What keeps them apart is the
number of members.  The written form of a record begins with a marker that announces
an array of just so many members; whoever reads it finds an array of that length
(`Value.read?_write_array`), and a record with another number of members is never read
from it (`Value.record?_array_of_ne`).  A message has two members, an envelope three
and a block four.

The argument looks at the first marker only.  So it does not matter in which form the
other side would accept its records, how long the texts and lists are, or what follows.
-/

namespace PeerMail

open MessagePack (Value)

namespace MessagePack.Value

variable {bytes rest : Bytes} {value : Value} {items : List Value} {names : List String}
  {room : Nat}

/-! ## The marker in front -/

theorem arrayHeader_of_short {count : Nat} (h : count < 16) :
    arrayHeader count = [UInt8.ofNat (0x90 + count)] := by
  have hshort : shortForm 16 0x90 count = some (UInt8.ofNat (0x90 + count)) :=
    shortForm_eq_some_iff.mpr ⟨h, rfl⟩
  rw [arrayHeader, header, hshort]

theorem head?_write_array (hshort : items.length < 16) :
    (array items).write.head? = some (UInt8.ofNat (0x90 + items.length)) := by
  rw [write, arrayHeader_of_short hshort]
  rfl

/-- Behind a short marker for an array, an array of the announced length is found. -/
theorem take_of_shortMarker {levels count : Nat} (h : count < 16)
    (hfound : take (levels + 1) (UInt8.ofNat (0x90 + count) :: bytes) = some (value, rest)) :
    ∃ items, value = array items ∧ items.length = count := by
  have hshape : takeShape (UInt8.ofNat (0x90 + count)).toNat bytes = some (.array count, bytes) :=
    announces_shortArray h bytes
  simp only [take, takeWith, hshape, Option.bind_eq_bind, Option.bind_some, Option.bind_eq_some_iff,
    Option.pure_def, Option.some.injEq, Prod.mk.injEq, Prod.exists] at hfound
  obtain ⟨items, left, hitems, rfl, -⟩ := hfound
  have hread := reads_takeMany (reads_take levels) count _ _ _ hitems
  exact ⟨items, rfl, hread.1.1⟩

/-- From the written form of a short array, whatever its members and whatever follows, nothing but
an array of that length is read. -/
theorem read?_write_array (hshort : items.length < 16)
    (h : read? ((array items).write ++ bytes) = some value) :
    ∃ others, value = array others ∧ others.length = items.length := by
  obtain ⟨⟨found, rest⟩, hfound, rfl⟩ := Option.map_eq_some_iff.mp h
  rw [write, arrayHeader_of_short hshort] at hfound
  exact take_of_shortMarker hshort hfound

theorem record?_array_of_ne (h : items.length ≠ names.length) :
    (array items).record? names room = none := by
  simp [record?, members?, h]

/-- A reader of records finds none in the written form of a short array with another number of
members. -/
theorem read?_write_array_bind {α : Type} {ofValue? : Value → Option α}
    (hrecord : ∀ value, value.record? names room = none → ofValue? value = none)
    (hshort : items.length < 16) (hne : items.length ≠ names.length) (tail : Bytes) :
    read? ((array items).write ++ tail) >>= ofValue? = none := by
  cases hread : read? ((array items).write ++ tail) with
  | none => rfl
  | some value =>
      obtain ⟨others, rfl, hlength⟩ := read?_write_array hshort hread
      exact hrecord _ (record?_array_of_ne (hlength ▸ hne))

end MessagePack.Value

/-! ## Records with another number of members -/

section Records

variable {room : Nat} {value : Value}

theorem ThreadBlock.ofValue?_of_record? (h : value.record? memberNames room = none) :
    ofValue? room value = none := by
  rw [ofValue?, h]
  rfl

theorem Message.ofValue?_of_record? (h : value.record? memberNames room = none) :
    ofValue? room value = none := by
  rw [ofValue?, h]
  rfl

theorem Envelope.ofValue?_of_record? (h : value.record? memberNames room = none) :
    ofValue? room value = none := by
  rw [ofValue?, h]
  rfl

end Records

/-- No block is read from the bytes of a message, whatever follows them. -/
theorem ThreadBlock.ofBytes_message (message : Message) (tail : Bytes) :
    ofBytes (message.toBytes ++ tail) = .error (.deserialization "not a thread block") := by
  have hnone : Value.read? (message.toBytes ++ tail) >>= ofValue? (Value.maxLevels - 2) = none :=
    Value.read?_write_array_bind (fun _ => ofValue?_of_record?) (by simp) (by simp [memberNames])
      tail
  rw [ofBytes, hnone]

/-- No message is read from the bytes of a block, whatever follows them. -/
theorem Message.ofBytes_threadBlock (block : ThreadBlock) (tail : Bytes) :
    ofBytes (block.toBytes ++ tail) = .error (.deserialization "not a message") := by
  have hnone : Value.read? (block.toBytes ++ tail) >>= ofValue? (Value.maxLevels - 2) = none :=
    Value.read?_write_array_bind (fun _ => ofValue?_of_record?) (by simp) (by simp [memberNames])
      tail
  rw [ofBytes, hnone]

/-- No envelope is read from the bytes of a block, whatever follows them. -/
theorem Envelope.ofBytes_threadBlock (block : ThreadBlock) (tail : Bytes) :
    ofBytes (block.toBytes ++ tail) = .error (.malformedEnvelope "not an envelope") := by
  have hnone : Value.read? (block.toBytes ++ tail) >>= ofValue? (Value.maxLevels - 2) = none :=
    Value.read?_write_array_bind (fun _ => ofValue?_of_record?) (by simp) (by simp [memberNames])
      tail
  rw [ofBytes, hnone]

/-- The bytes of a message and of a block begin with different markers. -/
theorem Message.toBytes_ne_threadBlock (message : Message) (block : ThreadBlock) :
    message.toBytes ≠ block.toBytes := by
  intro heq
  have hmessage : message.toBytes.head? = some 0x92 := Value.head?_write_array (by simp)
  have hblock : block.toBytes.head? = some 0x94 := Value.head?_write_array (by simp)
  rw [heq, hblock] at hmessage
  cases hmessage

/-! ## Nodes -/

/-- No node takes a block whose data are the bytes of a message, whoever signed them and for which
thread, and nothing is changed by the attempt. -/
theorem LocalState.apply_message {signed : SignedBlock} {message : Message}
    (h : signed.data = message.toBytes) (self : Keypair) (row : String) (state : LocalState) :
    state.apply self row signed =
      (.error (.wire (.deserialization "not a thread block")), state) := by
  have hblock : signed.block = .error (.deserialization "not a thread block") := by
    rw [SignedBlock.block, h, ← List.append_nil message.toBytes]
    exact ThreadBlock.ofBytes_message message []
  refine apply_eq_of_examine_error ?_
  rw [Apply.examine, hblock]
  rfl

/-- **What is signed as a message is not signed as a block, and the other way round.**  No message
has the bytes of a block.  The bytes of a message also differ from all bytes that a block is read
from, in whatever form, and do not even begin them; a node that is given them as a block refuses
them, under any signature.  From the bytes of a block neither a message nor an envelope is read. -/
theorem signed_bytes_apart :
    (∀ (message : Message) (block : ThreadBlock), message.toBytes ≠ block.toBytes) ∧
    (∀ (message : Message) (data : Bytes) (block : ThreadBlock),
      ThreadBlock.ofBytes data = .ok block →
        message.toBytes ≠ data ∧ ¬ message.toBytes <+: data) ∧
    (∀ (block : ThreadBlock) (tail : Bytes),
      Message.ofBytes (block.toBytes ++ tail) = .error (.deserialization "not a message") ∧
      Envelope.ofBytes (block.toBytes ++ tail) = .error (.malformedEnvelope "not an envelope")) ∧
    (∀ (signed : SignedBlock) (envelope : Envelope), signed.data = envelope.message.toBytes →
      ∀ (self : Keypair) (row : String) (state : LocalState), state.apply self row signed =
        (.error (.wire (.deserialization "not a thread block")), state)) := by
  refine ⟨Message.toBytes_ne_threadBlock, ?_, ?_, ?_⟩
  · intro message data block hread
    have hprefix : ¬ message.toBytes <+: data := by
      rintro ⟨tail, rfl⟩
      rw [ThreadBlock.ofBytes_message] at hread
      cases hread
    exact ⟨fun heq => hprefix (heq ▸ List.prefix_refl _), hprefix⟩
  · intro block tail
    exact ⟨Message.ofBytes_threadBlock block tail, Envelope.ofBytes_threadBlock block tail⟩
  · intro signed envelope hdata
    exact LocalState.apply_message hdata

/-! ### One key for both -/

/-- A peer and a thread with one key between them. -/
def exampleDouble : Keypair := ⟨⟨List.replicate 32 9, rfl⟩⟩

/-- A message that the peer has signed. -/
def exampleGreeting : Envelope := .sign exampleDouble (.ofPayload (.ping 1))

/-- Its bytes and its signature, presented as a block of the thread. -/
def exampleForgery : SignedBlock :=
  { id := .ofData exampleGreeting.message.toBytes
    thread := .ofKey exampleDouble.publicKey
    threadName := "holiday"
    issuerKey := exampleDouble.publicKey
    data := exampleGreeting.message.toBytes
    signature := exampleGreeting.signature }

/-- A photo in another form than the written one: a map, with its members in the other order. -/
def exampleLoosePhoto : Bytes :=
  [0x84, 0xa7] ++ Bytes.ofAscii "parents" ++ [0x90, 0xaa] ++ Bytes.ofAscii "target_key" ++
    [0xc4, 0, 0xa6] ++ Bytes.ofAscii "target" ++ [0xa5] ++ Bytes.ofAscii "beach" ++
    [0xaa] ++ Bytes.ofAscii "block_type" ++ [0xa5] ++ Bytes.ofAscii "Photo"

/-- The signature verifies under the key of the thread, and yet no node takes the block. -/
theorem exampleForgery_refused :
    PublicKey.verify exampleDouble.publicKey exampleForgery.data exampleForgery.signature = .ok () ∧
    ThreadBlock.ofBytes exampleLoosePhoto = .ok (.content .photo "beach" []) ∧
    (exampleGreeting.message.toBytes ≠ exampleLoosePhoto ∧
      ¬ exampleGreeting.message.toBytes <+: exampleLoosePhoto) ∧
    ∀ (self : Keypair) (state : LocalState), state.apply self "row" exampleForgery =
      (.error (.wire (.deserialization "not a thread block")), state) := by
  have hread : ThreadBlock.ofBytes exampleLoosePhoto = .ok (.content .photo "beach" []) := by rfl
  obtain ⟨-, hdiffer, -, hrefused⟩ := signed_bytes_apart
  have hverified : PublicKey.verify exampleDouble.publicKey exampleForgery.data
      exampleForgery.signature = .ok () := by
    dsimp only [exampleForgery, exampleGreeting, Envelope.sign]
    exact exampleDouble.verify_sign _
  refine ⟨hverified, hread, hdiffer _ _ _ hread, fun self state => ?_⟩
  exact hrefused exampleForgery exampleGreeting rfl self "row" state

end PeerMail
