import PeerMail.Proofs.MessagePack.Reading

/-!
# What is written is read back

A value with a written form is read back from the front of any byte string that
begins with that form, if it is not nested deeper than the reader follows
(`take_write`).  The induction is on the evidence that the value has a written form.

A header is one of several forms, of which the first that fits is written.  What
has to be shown of each form is the same, that its marker and digits announce the
number (`header_found`).
-/

namespace PeerMail.MessagePack

open Bytes (ofNatBE)

namespace Value

/-! ## Numbers of a fixed width -/

theorem takeBytes_append {count : Nat} {front : Bytes} (h : front.length = count) (tail : Bytes) :
    takeBytes count (front ++ tail) = some (front, tail) :=
  takeBytes_eq_some_iff.mpr ⟨rfl, h⟩

theorem takeNat_ofNatBE {width value : Nat} (h : value < 256 ^ width) (tail : Bytes) :
    takeNat width (ofNatBE width value ++ tail) = some (value, tail) := by
  have hread : Bytes.toNatBE (ofNatBE width value) = value := by
    rw [Bytes.toNatBE, ofNatBE, List.reverse_reverse, Bytes.toNatLE_ofNatLE]
    exact Nat.mod_eq_of_lt h
  simp only [takeNat, takeBytes_append (Bytes.length_ofNatBE width value), Option.bind_eq_bind,
    Option.bind_some, hread]
  rfl

/-- A signed number of `width` bytes lies between half of what they can count below zero and
above. -/
theorem takeInt_ofNatBE {width : Nat} {value : Int} (hwidth : width ≠ 0)
    (hlow : -((Nat.pow 256 width : Nat) / 2 : Int) ≤ value)
    (hhigh : value < ((Nat.pow 256 width : Nat) / 2 : Int)) (tail : Bytes) :
    takeInt width (ofNatBE width (value % (Nat.pow 256 width : Nat)).toNat ++ tail) =
      some (value, tail) := by
  have heven : Nat.pow 256 width % 2 = 0 := by
    obtain ⟨width, rfl⟩ := Nat.exists_eq_succ_of_ne_zero hwidth
    rw [Nat.pow_eq, Nat.pow_succ]
    omega
  generalize hmodulus : Nat.pow 256 width = modulus at *
  have hdigits : (value % (modulus : Int)).toNat < modulus := by
    have hnonneg := Int.emod_nonneg value (b := modulus) (by omega)
    have hbound := Int.emod_lt_of_pos value (b := modulus) (by omega)
    omega
  have hmod : value % (modulus : Int) = if 0 ≤ value then value else value + modulus := by
    split
    · exact Int.emod_eq_of_lt (by omega) (by omega)
    · rw [← Int.add_emod_right]
      exact Int.emod_eq_of_lt (by omega) (by omega)
  have hfits : (value % (modulus : Int)).toNat < 256 ^ width := by
    rw [← Nat.pow_eq, hmodulus]
    exact hdigits
  simp only [takeInt, takeNat_ofNatBE hfits, hmodulus, Option.bind_eq_bind, Option.bind_some]
  congr 2
  split at hmod <;> split <;> omega

/-! ## Headers -/

/-- The marker and the digits of a header have the property, if those of each form have it. -/
theorem header_found {short : Nat → Option UInt8} {wide : List (Nat × UInt8)} {value : Nat}
    {Good : UInt8 → Bytes → Prop} (hshort : ∀ marker, short value = some marker → Good marker [])
    (hwide : ∀ form ∈ wide, value < 256 ^ form.1 → Good form.2 (ofNatBE form.1 value))
    (hfits : ∃ form ∈ wide, value < 256 ^ form.1) :
    ∃ marker digits, header short wide value = marker :: digits ∧ Good marker digits := by
  unfold header
  cases hfound : short value with
  | some marker => exact ⟨marker, [], rfl, hshort marker hfound⟩
  | none =>
      cases hform : wide.find? fun form => decide (value < Nat.pow 256 form.1) with
      | none =>
          obtain ⟨form, hmem, hvalue⟩ := hfits
          have hwrong := List.find?_eq_none.mp hform form hmem
          exact absurd (decide_eq_true hvalue) hwrong
      | some form =>
          have hvalue : value < 256 ^ form.1 := by simpa using List.find?_some hform
          exact ⟨form.2, _, rfl, hwide form (List.mem_of_find?_eq_some hform) hvalue⟩

theorem shortForm_eq_some_iff {count first value : Nat} {marker : UInt8} :
    shortForm count first value = some marker ↔
      value < count ∧ marker = UInt8.ofNat (first + value) := by
  unfold shortForm
  split
  · next h => simp [h, eq_comm]
  · next h => simp [h]

theorem toNat_ofNat {value : Nat} (h : value < 256) : (UInt8.ofNat value).toNat = value := by
  rw [UInt8.toNat_ofNat']
  exact Nat.mod_eq_of_lt h

/-- A marker with some digits announces the shape. -/
def Announces (shape : Shape) (marker : UInt8) (digits : Bytes) : Prop :=
  ∀ tail, takeShape marker.toNat (digits ++ tail) = some (shape, tail)

theorem number_append {α : Type} {make : Nat → α} {width value : Nat} (h : value < 256 ^ width)
    (tail : Bytes) :
    (do let (found, rest) ← takeNat width (ofNatBE width value ++ tail)
        return (make found, rest)) = some (make value, tail) := by
  rw [takeNat_ofNatBE h]
  rfl

/-- A short array has its length in the marker. -/
theorem announces_shortArray {count : Nat} (h : count < 16) :
    Announces (.array count) (UInt8.ofNat (0x90 + count)) [] := by
  intro tail
  simp only [takeShape, toNat_ofNat (by omega : 0x90 + count < 256)]
  rw [if_neg (by omega), if_pos (by omega), Nat.add_sub_cancel_left]
  rfl

theorem arrayHeader_announces {count : Nat} (h : count < 2 ^ 32) :
    ∃ marker digits, arrayHeader count = marker :: digits ∧
      Announces (.array count) marker digits := by
  refine header_found ?_ ?_ ⟨(4, 0xdd), by simp, h⟩
  · intro marker hmarker
    obtain ⟨hcount, rfl⟩ := shortForm_eq_some_iff.mp hmarker
    exact announces_shortArray hcount
  · intro form hform hvalue tail
    simp only [List.mem_cons, List.not_mem_nil, or_false] at hform
    rcases hform with rfl | rfl <;> exact number_append hvalue tail

theorem mapHeader_announces {count : Nat} (h : count < 2 ^ 32) :
    ∃ marker digits, mapHeader count = marker :: digits ∧
      Announces (.map count) marker digits := by
  refine header_found ?_ ?_ ⟨(4, 0xdf), by simp, h⟩
  · intro marker hmarker tail
    obtain ⟨hcount, rfl⟩ := shortForm_eq_some_iff.mp hmarker
    simp only [takeShape, toNat_ofNat (by omega : 0x80 + count < 256)]
    rw [if_pos (by omega), Nat.add_sub_cancel_left]
    rfl
  · intro form hform hvalue tail
    simp only [List.mem_cons, List.not_mem_nil, or_false] at hform
    rcases hform with rfl | rfl <;> exact number_append hvalue tail

theorem extensionHeader_announces {size : Nat} (h : size < 2 ^ 32) :
    ∃ marker digits, extensionHeader size = marker :: digits ∧
      Announces (.extension size) marker digits := by
  unfold extensionHeader
  split
  · exact ⟨_, [], rfl, fun tail => rfl⟩
  · exact ⟨_, [], rfl, fun tail => rfl⟩
  · exact ⟨_, [], rfl, fun tail => rfl⟩
  · exact ⟨_, [], rfl, fun tail => rfl⟩
  · exact ⟨_, [], rfl, fun tail => rfl⟩
  refine header_found (fun _ hmarker => nomatch hmarker) ?_ ⟨(4, 0xc9), by simp, h⟩
  intro form hform hvalue tail
  simp only [List.mem_cons, List.not_mem_nil, or_false] at hform
  rcases hform with rfl | rfl | rfl <;> exact number_append hvalue tail

/-! ## Plain values -/

/-- A marker with some bytes holds a value that is no container. -/
def Holds (value : Value) (marker : UInt8) (body : Bytes) : Prop :=
  Announces .plain marker [] ∧ ∀ tail, takePlain marker.toNat (body ++ tail) = some (value, tail)

theorem takeWith_of_holds {nested : Option (Bytes → Option (Value × Bytes))} {value : Value}
    {marker : UInt8} {body : Bytes} (h : Holds value marker body) (tail : Bytes) :
    takeWith nested (marker :: (body ++ tail)) = some (value, tail) := by
  have hplain : takeShape marker.toNat (body ++ tail) = some (.plain, body ++ tail) := h.1 _
  simp only [takeWith, hplain, Option.bind_eq_bind, Option.bind_some]
  exact h.2 tail

/-- The markers that hold a number or the length of a text stand for no container. -/
theorem announces_plain {marker : UInt8}
    (h : marker.toNat < 0x80 ∨ 0xa0 ≤ marker.toNat ∧ marker.toNat < 0xc0 ∨ 0xe0 ≤ marker.toNat) :
    Announces .plain marker [] := by
  intro tail
  simp only [takeShape, List.nil_append]
  rw [if_neg (by omega), if_neg (by omega)]
  split <;> first | rfl | omega

theorem unsignedHeader_holds {value : Nat} (h : value < 2 ^ 64) :
    ∃ marker digits, unsignedHeader value = marker :: digits ∧
      Holds (.unsigned value) marker digits := by
  refine header_found ?_ ?_ ⟨(8, 0xcf), by simp, h⟩
  · intro marker hmarker
    obtain ⟨hvalue, rfl⟩ := shortForm_eq_some_iff.mp hmarker
    have hnat := toNat_ofNat (by omega : 0 + value < 256)
    refine ⟨announces_plain (by omega), fun tail => ?_⟩
    simp only [takePlain, hnat]
    rw [if_pos (by omega), Nat.zero_add]
    rfl
  · intro form hform hvalue
    simp only [List.mem_cons, List.not_mem_nil, or_false] at hform
    rcases hform with rfl | rfl | rfl | rfl <;>
      exact ⟨fun tail => rfl, fun tail => number_append hvalue tail⟩

theorem sized_append {make : Bytes → Value} {width : Nat} {bytes : Bytes}
    (h : bytes.length < 256 ^ width) (tail : Bytes) :
    (do let (size, rest) ← takeNat width (ofNatBE width bytes.length ++ bytes ++ tail)
        let (data, rest) ← takeBytes size rest
        return (make data, rest)) = some (make bytes, tail) := by
  rw [List.append_assoc, takeNat_ofNatBE h]
  show (takeBytes bytes.length (bytes ++ tail) >>= _) = _
  rw [takeBytes_append rfl]
  rfl

theorem textHeader_holds {bytes : Bytes} (h : bytes.length < 2 ^ 32) :
    ∃ marker digits, textHeader bytes.length = marker :: digits ∧
      Holds (.text bytes) marker (digits ++ bytes) := by
  refine header_found ?_ ?_ ⟨(4, 0xdb), by simp, h⟩
  · intro marker hmarker
    obtain ⟨hlength, rfl⟩ := shortForm_eq_some_iff.mp hmarker
    have hnat := toNat_ofNat (by omega : 0xa0 + bytes.length < 256)
    refine ⟨announces_plain (by omega), fun tail => ?_⟩
    simp only [takePlain, hnat, List.nil_append]
    rw [if_neg (by omega), if_neg (by omega), if_pos (by omega), Nat.add_sub_cancel_left,
      takeBytes_append rfl]
    rfl
  · intro form hform hvalue
    simp only [List.mem_cons, List.not_mem_nil, or_false] at hform
    rcases hform with rfl | rfl | rfl <;>
      exact ⟨fun tail => rfl, fun tail => sized_append hvalue tail⟩

theorem binaryHeader_holds {bytes : Bytes} (h : bytes.length < 2 ^ 32) :
    ∃ marker digits, binaryHeader bytes.length = marker :: digits ∧
      Holds (.binary bytes) marker (digits ++ bytes) := by
  refine header_found (fun _ hmarker => nomatch hmarker) ?_ ⟨(4, 0xc6), by simp, h⟩
  intro form hform hvalue
  simp only [List.mem_cons, List.not_mem_nil, or_false] at hform
  rcases hform with rfl | rfl | rfl <;>
    exact ⟨fun tail => rfl, fun tail => sized_append hvalue tail⟩

theorem integer_append {width : Nat} {value : Int} (hwidth : width ≠ 0)
    (h : -((Nat.pow 256 width : Nat) / 2 : Int) ≤ value ∧ value < ((Nat.pow 256 width : Nat) / 2 : Int))
    (tail : Bytes) :
    (do let (found, rest) ← takeInt width
          (ofNatBE width (value % (Nat.pow 256 width : Nat)).toNat ++ tail)
        return (signed found, rest)) = some (signed value, tail) := by
  rw [takeInt_ofNatBE hwidth h.1 h.2]
  rfl

theorem signedForm_holds {value : Int} (hlow : -2 ^ 63 ≤ value) (hhigh : value < 2 ^ 63) :
    ∃ marker digits, signedForm value = marker :: digits ∧ Holds (.signed value) marker digits := by
  simp only [signedForm, decide_eq_true_eq]
  split
  · next h =>
      have hnat := toNat_ofNat (by omega : (256 + value).toNat < 256)
      refine ⟨_, [], rfl, announces_plain (by omega), fun tail => ?_⟩
      simp only [takePlain, hnat, List.nil_append]
      rw [if_neg (by omega), if_pos (by omega)]
      congr 3
      omega
  split
  · next h => exact ⟨0xd0, _, rfl, fun tail => rfl, fun tail => integer_append (by decide) h tail⟩
  split
  · next h => exact ⟨0xd1, _, rfl, fun tail => rfl, fun tail => integer_append (by decide) h tail⟩
  split
  · next h => exact ⟨0xd2, _, rfl, fun tail => rfl, fun tail => integer_append (by decide) h tail⟩
  have h : -((Nat.pow 256 8 : Nat) / 2 : Int) ≤ value ∧ value < ((Nat.pow 256 8 : Nat) / 2 : Int) :=
    ⟨hlow, hhigh⟩
  exact ⟨0xd3, _, rfl, fun tail => rfl, fun tail => integer_append (by decide) h tail⟩

theorem float_holds {bytes : Bytes} (h : bytes.length = 4 ∨ bytes.length = 8) :
    Holds (.float bytes) (if bytes.length = 4 then 0xca else 0xcb) bytes := by
  rcases h with h | h
  · refine ⟨by simp only [h]; exact fun tail => rfl, fun tail => ?_⟩
    rw [if_pos h]
    show (takeBytes 4 _ >>= _) = _
    rw [takeBytes_append h]
    rfl
  · refine ⟨by simp only [h]; exact fun tail => rfl, fun tail => ?_⟩
    rw [if_neg (by omega)]
    show (takeBytes 8 _ >>= _) = _
    rw [takeBytes_append h]
    rfl

/-! ## Containers -/

theorem depth_le_depthItems {item : Value} {items : List Value} (h : item ∈ items) :
    item.depth ≤ depthItems items := by
  induction items with
  | nil => cases h
  | cons first rest ih =>
      rw [depthItems]
      rcases List.mem_cons.mp h with rfl | hrest
      · exact Nat.le_max_left _ _
      · exact Nat.le_trans (ih hrest) (Nat.le_max_right _ _)

theorem depth_le_depthEntries {entry : Value × Value} {entries : List (Value × Value)}
    (h : entry ∈ entries) :
    entry.1.depth ≤ depthEntries entries ∧ entry.2.depth ≤ depthEntries entries := by
  induction entries with
  | nil => cases h
  | cons first rest ih =>
      rw [depthEntries]
      rcases List.mem_cons.mp h with rfl | hrest
      · omega
      · have hbound := ih hrest
        omega

variable {reader : Bytes → Option (Value × Bytes)}

theorem takeMany_writeItems {items : List Value}
    (h : ∀ item ∈ items, ∀ tail, reader (item.write ++ tail) = some (item, tail)) (tail : Bytes) :
    takeMany reader items.length (writeItems items ++ tail) = some (items, tail) := by
  induction items with
  | nil => rfl
  | cons first rest ih =>
      have hfirst := h first List.mem_cons_self (writeItems rest ++ tail)
      have hrest := ih fun item hitem => h item (List.mem_cons_of_mem first hitem)
      rw [writeItems, List.append_assoc, List.length_cons, takeMany, hfirst]
      simp only [Option.bind_eq_bind, Option.bind_some, hrest]
      rfl

theorem takeMany_writeEntries {entries : List (Value × Value)}
    (hkeys : ∀ entry ∈ entries, ∀ tail, reader (entry.1.write ++ tail) = some (entry.1, tail))
    (hvalues : ∀ entry ∈ entries, ∀ tail, reader (entry.2.write ++ tail) = some (entry.2, tail))
    (tail : Bytes) :
    takeMany (takeEntry reader) entries.length (writeEntries entries ++ tail) =
      some (entries, tail) := by
  induction entries with
  | nil => rfl
  | cons first rest ih =>
      obtain ⟨key, value⟩ := first
      have hkey := hkeys (key, value) List.mem_cons_self
      have hvalue := hvalues (key, value) List.mem_cons_self
      have hrest := ih (fun entry hentry => hkeys entry (List.mem_cons_of_mem _ hentry))
        fun entry hentry => hvalues entry (List.mem_cons_of_mem _ hentry)
      rw [writeEntries, List.append_assoc, List.append_assoc, List.length_cons, takeMany]
      simp only [takeEntry, hkey, hvalue, Option.bind_eq_bind, Option.bind_some, Option.pure_def,
        hrest]

theorem takeExtension_append (tag : UInt8) (bytes tail : Bytes) :
    takeExtension bytes.length (tag :: bytes ++ tail) = some (extension tag bytes, tail) := by
  have hfront : takeBytes 1 (tag :: (bytes ++ tail)) = some ([tag], bytes ++ tail) :=
    takeBytes_append (rfl : [tag].length = 1) (bytes ++ tail)
  have htag : takeNat 1 (tag :: (bytes ++ tail)) = some (tag.toNat, bytes ++ tail) := by
    simp [takeNat, hfront, Bytes.toNatBE, Bytes.toNatLE]
  simp only [takeExtension, List.cons_append, htag, Option.bind_eq_bind, Option.bind_some,
    takeBytes_append rfl, UInt8.ofNat_toNat]
  rfl

/-! ## Whole values -/

theorem take_of_holds {levels : Nat} {value : Value} {marker : UInt8} {body : Bytes}
    (h : Holds value marker body) (tail : Bytes) :
    take levels (marker :: body ++ tail) = some (value, tail) := by
  cases levels with
  | zero => exact takeWith_of_holds h tail
  | succ levels => exact takeWith_of_holds h tail

/-- An array is read back, if its items are within one level less. -/
theorem take_array {levels : Nat} {items : List Value} (bound : items.length < 2 ^ 32)
    (h : ∀ item ∈ items, ∀ tail, take levels (item.write ++ tail) = some (item, tail))
    (tail : Bytes) :
    take (levels + 1) ((array items).write ++ tail) = some (array items, tail) := by
  obtain ⟨marker, digits, hheader, hshape⟩ := arrayHeader_announces bound
  rw [write, hheader, List.append_assoc, List.cons_append, take]
  simp only [takeWith, hshape (writeItems items ++ tail), takeMany_writeItems h tail,
    Option.bind_eq_bind, Option.bind_some]
  rfl

/-- A map is read back, if its keys and values are within one level less. -/
theorem take_map {levels : Nat} {entries : List (Value × Value)}
    (bound : entries.length < 2 ^ 32)
    (hkeys : ∀ entry ∈ entries, ∀ tail, take levels (entry.1.write ++ tail) = some (entry.1, tail))
    (hvalues : ∀ entry ∈ entries, ∀ tail,
      take levels (entry.2.write ++ tail) = some (entry.2, tail))
    (tail : Bytes) :
    take (levels + 1) ((map entries).write ++ tail) = some (map entries, tail) := by
  obtain ⟨marker, digits, hheader, hshape⟩ := mapHeader_announces bound
  rw [write, hheader, List.append_assoc, List.cons_append, take]
  simp only [takeWith, hshape (writeEntries entries ++ tail),
    takeMany_writeEntries hkeys hvalues tail, Option.bind_eq_bind, Option.bind_some]
  rfl

theorem take_extension {levels : Nat} (tag : UInt8) {bytes : Bytes} (bound : bytes.length < 2 ^ 32)
    (tail : Bytes) :
    take (levels + 1) ((extension tag bytes).write ++ tail) = some (extension tag bytes, tail) := by
  obtain ⟨marker, digits, hheader, hshape⟩ := extensionHeader_announces bound
  rw [write, hheader, List.append_assoc, List.cons_append, take]
  simp only [takeWith, hshape (tag :: bytes ++ tail), Option.bind_eq_bind, Option.bind_some]
  exact takeExtension_append tag bytes tail

/-- **A written value is read back**, whatever follows it.  The induction is on the evidence that
the value has a written form.  A container needs a level of its own, which leaves as many for its
members as the deepest of them takes. -/
theorem take_write {value : Value} (hsized : value.Sized) :
    ∀ {levels : Nat}, value.depth ≤ levels →
      ∀ tail, take levels (value.write ++ tail) = some (value, tail) := by
  induction hsized with
  | nil => exact fun _ => take_of_holds ⟨fun _ => rfl, fun _ => rfl⟩
  | @bool value =>
      intro levels _
      cases value with
      | false => exact take_of_holds ⟨fun _ => rfl, fun _ => rfl⟩
      | true => exact take_of_holds ⟨fun _ => rfl, fun _ => rfl⟩
  | unsigned bound =>
      intro levels _ tail
      obtain ⟨marker, digits, hheader, hholds⟩ := unsignedHeader_holds bound
      rw [write, hheader]
      exact take_of_holds hholds tail
  | signed low high =>
      intro levels _ tail
      obtain ⟨marker, digits, hheader, hholds⟩ := signedForm_holds low high
      rw [write, hheader]
      exact take_of_holds hholds tail
  | float width =>
      intro levels _ tail
      rw [write]
      exact take_of_holds (float_holds width) tail
  | text bound =>
      intro levels _ tail
      obtain ⟨marker, digits, hheader, hholds⟩ := textHeader_holds bound
      rw [write, hheader]
      exact take_of_holds hholds tail
  | binary bound =>
      intro levels _ tail
      obtain ⟨marker, digits, hheader, hholds⟩ := binaryHeader_holds bound
      rw [write, hheader]
      exact take_of_holds hholds tail
  | @array items bound _ ih =>
      intro levels hdepth
      rw [depth] at hdepth
      obtain ⟨levels, rfl⟩ := Nat.exists_eq_add_one_of_ne_zero (by omega : levels ≠ 0)
      refine take_array bound fun item hitem => ih item hitem ?_
      have hinner := depth_le_depthItems hitem
      omega
  | @map entries bound _ _ ihkeys ihvalues =>
      intro levels hdepth
      rw [depth] at hdepth
      obtain ⟨levels, rfl⟩ := Nat.exists_eq_add_one_of_ne_zero (by omega : levels ≠ 0)
      refine take_map bound (fun entry hentry => ihkeys entry hentry ?_)
        fun entry hentry => ihvalues entry hentry ?_
      all_goals
        have hinner := depth_le_depthEntries hentry
        omega
  | extension bound =>
      intro levels hdepth
      rw [depth] at hdepth
      obtain ⟨levels, rfl⟩ := Nat.exists_eq_add_one_of_ne_zero (by omega : levels ≠ 0)
      exact take_extension _ bound

theorem read?_write {value : Value} (hsized : value.Sized) (hdepth : value.depth ≤ maxLevels)
    (tail : Bytes) : read? (value.write ++ tail) = some value := by
  rw [read?, take_write hsized hdepth]
  rfl

end Value

end PeerMail.MessagePack
