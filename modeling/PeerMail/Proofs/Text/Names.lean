import PeerMail.Proofs.Text.Base64
import PeerMail.Proofs.Text.Hex
import PeerMail.Text.Utf8

/-!
# Names and their texts

How the text of a name looks, and which texts are names.  The text of a peer is 43 digits
of base64, that of a block 64 digits in hexadecimal.  Each peer has one text, because
reading undoes writing and nothing else (`PeerId.parse?_eq_some_iff`); a block is also
read from digits in capitals, and then its text is the one in lowercase.  So a text is
the name of some block exactly if it consists of 64 digits (`Cid.exists_parse?_iff`).

All digits take one byte each, so a text can be cut behind any of them (`CutAt`), as
the short forms of names do.
-/

namespace PeerMail

/-! ## Texts of single bytes -/

/-- The text can be cut into a front of so many bytes and a rest. -/
structure CutAt (text : String) (size : Nat) (front : String) : Prop where
  size : (Utf8.encode front).length = size
  rest : ∃ rest, text = front ++ rest

theorem Utf8.length_encode_of_ascii {chars : List Char} (h : ∀ c ∈ chars, c.utf8Size = 1) :
    (Utf8.encode (String.ofList chars)).length = chars.length := by
  have hbytes : Utf8.encode (String.ofList chars) = chars.flatMap String.utf8EncodeChar := by
    simp [Utf8.encode, List.utf8Encode]
  rw [hbytes]
  clear hbytes
  induction chars with
  | nil => rfl
  | cons c rest ih =>
      have hc := h c List.mem_cons_self
      have hrest := ih fun c hc => h c (List.mem_cons_of_mem _ hc)
      rw [List.flatMap_cons, List.length_append, String.length_utf8EncodeChar, hc, hrest,
        List.length_cons, Nat.add_comm]

/-- A text of single bytes can be cut anywhere. -/
theorem cutAt_take {chars : List Char} (h : ∀ c ∈ chars, c.utf8Size = 1) {size : Nat}
    (hsize : size ≤ chars.length) :
    CutAt (String.ofList chars) size (String.ofList (chars.take size)) := by
  constructor
  · rw [Utf8.length_encode_of_ascii fun c hc => h c (List.mem_of_mem_take hc), List.length_take]
    exact Nat.min_eq_left hsize
  · refine ⟨String.ofList (chars.drop size), ?_⟩
    rw [← String.ofList_append, List.take_append_drop]

/-! ## Names of peers -/

namespace Base64

/-- A letter, a decimal digit, the minus sign or the low line. -/
def IsDigit (c : Char) : Prop := c.isAlphanum ∨ c = '-' ∨ c = '_'

instance : DecidablePred IsDigit := fun c =>
  inferInstanceAs (Decidable (c.isAlphanum ∨ c = '-' ∨ c = '_'))

theorem isDigit_digit {value : Nat} (h : value < 64) :
    IsDigit (digit value) ∧ (digit value).utf8Size = 1 := by
  have hall : ∀ v : Fin 64, IsDigit (digit v) ∧ (digit v).utf8Size = 1 := by decide
  exact hall ⟨value, h⟩

/-- Three bytes are four digits; one or two at the end are two or three. -/
theorem length_encode (bytes : Bytes) : (encode bytes).length = (4 * bytes.length + 2) / 3 := by
  fun_induction encode bytes with
  | case1 | case2 | case3 => simp
  | case4 a b c rest ih =>
      simp only [List.length_cons, ih]
      omega

theorem isDigit_of_mem_encode {bytes : Bytes} :
    ∀ c ∈ encode bytes, IsDigit c ∧ c.utf8Size = 1 := by
  fun_induction encode bytes with
  | case1 => simp
  | case2 a =>
      have ha : a.toNat < 256 := a.toNat_lt
      simp only [List.forall_mem_cons]
      exact ⟨isDigit_digit (by omega), isDigit_digit (by omega), by simp⟩
  | case3 a b =>
      have ha : a.toNat < 256 := a.toNat_lt
      have hb : b.toNat < 256 := b.toNat_lt
      simp only [List.forall_mem_cons]
      exact ⟨isDigit_digit (by omega), isDigit_digit (by omega), isDigit_digit (by omega), by simp⟩
  | case4 a b c rest ih =>
      have ha : a.toNat < 256 := a.toNat_lt
      have hb : b.toNat < 256 := b.toNat_lt
      have hc : c.toNat < 256 := c.toNat_lt
      simp only [List.forall_mem_cons]
      exact ⟨isDigit_digit (by omega), isDigit_digit (by omega), isDigit_digit (by omega),
        isDigit_digit (by omega), ih⟩

end Base64

namespace PeerId

theorem length_digits (peer : PeerId) : (Base64.encode peer.bytes).length = 43 := by
  rw [Base64.length_encode, PeerId.bytes, peer.digest.property]

theorem toList_text (peer : PeerId) : peer.text.toList = Base64.encode peer.bytes :=
  String.toList_ofList

theorem length_text (peer : PeerId) : peer.text.length = 43 := by
  rw [← String.length_toList, toList_text, length_digits]

theorem length_encode_text (peer : PeerId) : (Utf8.encode peer.text).length = 43 := by
  rw [text, Base64.text,
    Utf8.length_encode_of_ascii fun c hc => (Base64.isDigit_of_mem_encode c hc).2, length_digits]

/-- The short form of a name shows the first eight bytes of its text. -/
theorem brief_cut (peer : PeerId) :
    ∃ front, CutAt peer.text 8 front ∧ peer.brief = "PeerId(" ++ front ++ ")" := by
  refine ⟨String.ofList ((Base64.encode peer.bytes).take 8), cutAt_take ?_ ?_, ?_⟩
  · exact fun c hc => (Base64.isDigit_of_mem_encode c hc).2
  · rw [length_digits]
    decide
  · rw [brief, toList_text]

end PeerId

/-! ## Names of blocks -/

namespace Hex

/-- A decimal digit or a letter from `a` to `f`. -/
def IsLowerDigit (c : Char) : Prop := c.isDigit ∨ 'a' ≤ c ∧ c ≤ 'f'

/-- A decimal digit or a letter from `a` to `f`, in either case. -/
def IsDigit (c : Char) : Prop := IsLowerDigit c ∨ 'A' ≤ c ∧ c ≤ 'F'

instance : DecidablePred IsLowerDigit := fun c =>
  inferInstanceAs (Decidable (c.isDigit ∨ 'a' ≤ c ∧ c ≤ 'f'))

theorem isLowerDigit_digit {value : Nat} (h : value < 16) :
    IsLowerDigit (digit value) ∧ (digit value).utf8Size = 1 := by
  have hall : ∀ v : Fin 16, IsLowerDigit (digit v) ∧ (digit v).utf8Size = 1 := by decide
  exact hall ⟨value, h⟩

theorem isLowerDigit_of_mem_encode {bytes : Bytes} :
    ∀ c ∈ encode bytes, IsLowerDigit c ∧ c.utf8Size = 1 := by
  induction bytes with
  | nil => simp [encode]
  | cons byte rest ih =>
      have hbyte : byte.toNat < 256 := byte.toNat_lt
      simp only [encode, List.forall_mem_cons]
      exact ⟨isLowerDigit_digit (by omega), isLowerDigit_digit (by omega), ih⟩

/-- A character has a value exactly if it is a digit. -/
theorem exists_value?_iff {c : Char} : (∃ value, value? c = some value) ↔ IsDigit c := by
  have hdecimal : c.isDigit = true ↔ 48 ≤ c.toNat ∧ c.toNat ≤ 57 := by
    simp only [Char.isDigit, ge_iff_le, Bool.and_eq_true, decide_eq_true_eq]
    exact Iff.rfl
  have hsmall : ('a' ≤ c ∧ c ≤ 'f') ↔ 97 ≤ c.toNat ∧ c.toNat ≤ 102 := Iff.rfl
  have hcapital : ('A' ≤ c ∧ c ≤ 'F') ↔ 65 ≤ c.toNat ∧ c.toNat ≤ 70 := Iff.rfl
  rw [IsDigit, IsLowerDigit, hdecimal, hsmall, hcapital]
  unfold value?
  dsimp only
  split_ifs <;> simp <;> omega

/-- A text of digits is read exactly if there is an even number of them. -/
theorem exists_decode?_iff {chars : List Char} :
    (∃ bytes, decode? chars = some bytes) ↔ chars.length % 2 = 0 ∧ ∀ c ∈ chars, IsDigit c := by
  induction chars using decode?.induct with
  | case1 => simp [decode?]
  | case2 c => simp [decode?]
  | case3 high low rest ih =>
      have hlength : (high :: low :: rest).length % 2 = rest.length % 2 := by
        simp only [List.length_cons]
        omega
      rw [hlength, List.forall_mem_cons, List.forall_mem_cons, ← exists_value?_iff,
        ← exists_value?_iff]
      simp only [decode?, Option.bind_eq_bind, Option.bind_eq_some_iff, Option.pure_def,
        Option.some.injEq]
      constructor
      · rintro ⟨bytes, first, hfirst, second, hsecond, tail, htail, -⟩
        obtain ⟨heven, hrest⟩ := ih.mp ⟨tail, htail⟩
        exact ⟨heven, ⟨first, hfirst⟩, ⟨second, hsecond⟩, hrest⟩
      · rintro ⟨heven, ⟨first, hfirst⟩, ⟨second, hsecond⟩, hrest⟩
        obtain ⟨tail, htail⟩ := ih.mpr ⟨heven, hrest⟩
        exact ⟨_, first, hfirst, second, hsecond, tail, htail, rfl⟩

end Hex

namespace Cid

theorem toList_text (cid : Cid) : cid.text.toList = Hex.encode cid.bytes :=
  String.toList_ofList

theorem length_digits (cid : Cid) : (Hex.encode cid.bytes).length = 64 := by
  rw [Hex.length_encode, Cid.bytes, cid.digest.property]

theorem length_text (cid : Cid) : cid.text.length = 64 := by
  rw [← String.length_toList, toList_text, length_digits]

theorem length_encode_text (cid : Cid) : (Utf8.encode cid.text).length = 64 := by
  rw [text, Hex.text,
    Utf8.length_encode_of_ascii fun c hc => (Hex.isLowerDigit_of_mem_encode c hc).2, length_digits]

/-- The short form of a name shows the first twelve bytes of its text. -/
theorem brief_cut (cid : Cid) :
    ∃ front, CutAt cid.text 12 front ∧ cid.brief = "Cid(" ++ front ++ ")" := by
  refine ⟨String.ofList ((Hex.encode cid.bytes).take 12), cutAt_take ?_ ?_, ?_⟩
  · exact fun c hc => (Hex.isLowerDigit_of_mem_encode c hc).2
  · rw [length_digits]
    decide
  · rw [brief, toList_text]

/-- A text is the name of some block exactly if it consists of 64 digits. -/
theorem exists_parse?_iff {text : String} : (∃ cid, parse? text = some cid) ↔
    text.length = 64 ∧ ∀ c ∈ text.toList, Hex.IsDigit c := by
  rw [← String.length_toList]
  constructor
  · rintro ⟨cid, hcid⟩
    have hdecode := parse?_eq_some_iff_decode?.mp hcid
    obtain ⟨-, hdigits⟩ := Hex.exists_decode?_iff.mp ⟨_, hdecode⟩
    have hlength := congrArg List.length (Hex.decode?_eq_some_iff.mp hdecode)
    rw [List.length_map, length_digits] at hlength
    exact ⟨hlength, hdigits⟩
  · rintro ⟨hlength, hdigits⟩
    obtain ⟨bytes, hbytes⟩ := Hex.exists_decode?_iff.mpr ⟨by rw [hlength], hdigits⟩
    have hsize := congrArg List.length (Hex.decode?_eq_some_iff.mp hbytes)
    rw [List.length_map, hlength, Hex.length_encode] at hsize
    exact ⟨⟨⟨bytes, by omega⟩⟩, parse?_eq_some_iff_decode?.mpr hbytes⟩

end Cid

/-! ## All names -/

/-- **Names and their texts.**  The text of a peer is 43 digits of base64 and the only text that is
read as this peer.  The text of a block is 64 lowercase hexadecimal digits; the texts that are read
as blocks are those of 64 digits of either case, and such a text is the block's own but for the case
of its letters.  Both can be cut as the short forms do. -/
theorem texts_canonical :
    (∀ peer : PeerId, peer.text.length = 43 ∧ (∀ c ∈ peer.text.toList, Base64.IsDigit c) ∧
      PeerId.parse? peer.text = some peer ∧
      ∃ front, CutAt peer.text 8 front ∧ peer.brief = "PeerId(" ++ front ++ ")") ∧
    (∀ text peer, PeerId.parse? text = some peer → text = peer.text) ∧
    (∀ cid : Cid, cid.text.length = 64 ∧ (∀ c ∈ cid.text.toList, Hex.IsLowerDigit c) ∧
      Cid.parse? cid.text = some cid ∧
      ∃ front, CutAt cid.text 12 front ∧ cid.brief = "Cid(" ++ front ++ ")") ∧
    (∀ text, (∃ cid, Cid.parse? text = some cid) ↔
      text.length = 64 ∧ ∀ c ∈ text.toList, Hex.IsDigit c) ∧
    (∀ text cid, Cid.parse? text = some cid → cid.text = text.toLower) := by
  refine ⟨fun peer => ?_, fun text peer => PeerId.parse?_eq_some_iff.mp, fun cid => ?_,
    fun text => Cid.exists_parse?_iff, fun text cid h => (Cid.parse?_eq_some_iff.mp h).symm⟩
  · refine ⟨peer.length_text, ?_, PeerId.parse?_eq_some_iff.mpr rfl, peer.brief_cut⟩
    rw [peer.toList_text]
    exact fun c hc => (Base64.isDigit_of_mem_encode c hc).1
  · refine ⟨cid.length_text, ?_, Cid.parse?_eq_some_iff.mpr cid.toLower_text, cid.brief_cut⟩
    rw [cid.toList_text]
    exact fun c hc => (Hex.isLowerDigit_of_mem_encode c hc).1

/-- Digits in capitals are read, and written back in lowercase in the name of a block only. -/
theorem capitals_lowered :
    (∃ peer, PeerId.parse? (String.ofList (List.replicate 43 'A')) = some peer ∧
      String.ofList (List.replicate 43 'A') = peer.text) ∧
    ∃ cid, Cid.parse? (String.ofList (List.replicate 64 'F')) = some cid ∧
      cid.text = String.ofList (List.replicate 64 'f') := by
  obtain ⟨-, hpeer, -, hread, hlower⟩ := texts_canonical
  have hzero : PeerId.parse? (String.ofList (List.replicate 43 'A')) =
      some ⟨⟨List.replicate 32 0, rfl⟩⟩ := by
    decide +kernel
  refine ⟨⟨_, hzero, hpeer _ _ hzero⟩, ?_⟩
  have hdigits : ∀ c ∈ (String.ofList (List.replicate 64 'F')).toList, Hex.IsDigit c := by
    rw [String.toList_ofList]
    intro c hc
    obtain rfl := (List.mem_replicate.mp hc).2
    exact .inr (by decide)
  obtain ⟨cid, hcid⟩ := (hread _).mpr ⟨by rw [String.length_ofList, List.length_replicate], hdigits⟩
  have hsmall : (String.ofList (List.replicate 64 'F')).toLower =
      (String.ofList (List.replicate 64 'F')).map Char.toLower := rfl
  have hletter : Char.toLower 'F' = 'f' := by decide
  refine ⟨cid, hcid, (hlower _ cid hcid).trans ?_⟩
  rw [← String.toList_inj, hsmall, String.toList_map, String.toList_ofList, List.map_replicate,
    hletter, String.toList_ofList]

end PeerMail
