import Mathlib.Tactic.SplitIfs
import PeerMail.Identity

/-!
# Base64 names

A peer goes by the base64 text of its 32 bytes.  Writing gives one text for each byte string, and
reading takes that text and no other: a digit has one character, a group of four digits is three
bytes, and the low bits that a short group at the end does not use have to be zero.  So a text is
read as a name exactly if it is the one that is written for it (`PeerId.parse?_eq_some_iff`).
-/

namespace PeerMail

namespace Base64

/-! ## Digits -/

theorem value?_digit {value : Nat} (h : value < 64) : value? (digit value) = some value := by
  have hall : ∀ v : Fin 64, value? (digit v) = some v.val := by decide
  exact hall ⟨value, h⟩

/-- A character is the digit of its value. -/
theorem digit_of_value? {c : Char} {value : Nat} (h : value? c = some value) :
    value < 64 ∧ digit value = c := by
  have hchar : ∀ code, c.toNat = code → Char.ofNat code = c := by
    rintro _ rfl
    exact Char.ofNat_toNat c
  simp only [value?] at h
  split_ifs at h with hcapital hsmall hdecimal hminus hline <;> cases h
  · refine ⟨by omega, ?_⟩
    rw [digit, if_pos (by omega)]
    exact hchar _ (by omega)
  · refine ⟨by omega, ?_⟩
    rw [digit, if_neg (by omega), if_pos (by omega)]
    exact hchar _ (by omega)
  · refine ⟨by omega, ?_⟩
    rw [digit, if_neg (by omega), if_neg (by omega), if_pos (by omega)]
    exact hchar _ (by omega)
  · exact ⟨by decide, hminus.symm⟩
  · exact ⟨by decide, hline.symm⟩

/-! ## Groups of digits -/

section Groups

variable {a b c p q r s : Nat}

/-- The first byte of a group is in its first two digits. -/
theorem first_byte (hb : b < 16) : 4 * (a / 4) + (a % 4 * 16 + b) / 16 = a := by
  omega

/-- The second byte is in the second and the third digit. -/
theorem second_byte (hb : b < 256) (hc : c < 4) :
    (a * 16 + b / 16) % 16 * 16 + (b % 16 * 4 + c) / 4 = b := by
  omega

/-- The third byte is in the last two digits. -/
theorem third_byte (hc : c < 256) : (b * 4 + c / 64) % 4 * 64 + c % 64 = c := by
  omega

theorem toNat_first_byte (hp : p < 64) (hq : q < 64) :
    (UInt8.ofNat (4 * p + q / 16)).toNat = 4 * p + q / 16 := by
  rw [UInt8.toNat_ofNat']
  exact Nat.mod_eq_of_lt (by omega)

theorem toNat_second_byte (hr : r < 64) :
    (UInt8.ofNat (q % 16 * 16 + r / 4)).toNat = q % 16 * 16 + r / 4 := by
  rw [UInt8.toNat_ofNat']
  exact Nat.mod_eq_of_lt (by omega)

theorem toNat_third_byte (hs : s < 64) :
    (UInt8.ofNat (r % 4 * 64 + s)).toNat = r % 4 * 64 + s := by
  rw [UInt8.toNat_ofNat']
  exact Nat.mod_eq_of_lt (by omega)

theorem first_digit (hq : q < 64) : (4 * p + q / 16) / 4 = p := by
  omega

theorem second_digit (hq : q < 64) (hr : r < 64) :
    (4 * p + q / 16) % 4 * 16 + (q % 16 * 16 + r / 4) / 16 = q := by
  omega

theorem third_digit (hr : r < 64) (hs : s < 64) :
    (q % 16 * 16 + r / 4) % 16 * 4 + (r % 4 * 64 + s) / 64 = r := by
  omega

theorem fourth_digit (hs : s < 64) : (r % 4 * 64 + s) % 64 = s := by
  omega

end Groups

/-! ## Byte strings -/

/-- What has been written is read. -/
theorem decode?_encode (bytes : Bytes) : decode? (encode bytes) = some bytes := by
  fun_induction encode bytes with
  | case1 => rfl
  | case2 a =>
      have ha : a.toNat < 256 := a.toNat_lt
      have hfirst := @value?_digit (a.toNat / 4) (by omega)
      have hsecond := @value?_digit (a.toNat % 4 * 16) (by omega)
      have hbyte : 4 * (a.toNat / 4) + a.toNat % 4 * 16 / 16 = a.toNat :=
        first_byte (b := 0) (by omega)
      have hunused : a.toNat % 4 * 16 % 16 = 0 := Nat.mul_mod_left _ _
      simp only [decode?, hfirst, hsecond, hunused, hbyte, if_true, Option.bind_eq_bind,
        Option.bind_some, UInt8.ofNat_toNat]
  | case3 a b =>
      have ha : a.toNat < 256 := a.toNat_lt
      have hb : b.toNat < 256 := b.toNat_lt
      have hfirst := @value?_digit (a.toNat / 4) (by omega)
      have hsecond := @value?_digit (a.toNat % 4 * 16 + b.toNat / 16) (by omega)
      have hthird := @value?_digit (b.toNat % 16 * 4) (by omega)
      have hbyte : 4 * (a.toNat / 4) + (a.toNat % 4 * 16 + b.toNat / 16) / 16 = a.toNat :=
        first_byte (by omega)
      have hbyte' : (a.toNat % 4 * 16 + b.toNat / 16) % 16 * 16 + b.toNat % 16 * 4 / 4 =
          b.toNat := second_byte (c := 0) hb (by omega)
      have hunused : b.toNat % 16 * 4 % 4 = 0 := Nat.mul_mod_left _ _
      simp only [decode?, hfirst, hsecond, hthird, hunused, hbyte, hbyte', if_true,
        Option.bind_eq_bind, Option.bind_some, UInt8.ofNat_toNat]
  | case4 a b c rest ih =>
      have ha : a.toNat < 256 := a.toNat_lt
      have hb : b.toNat < 256 := b.toNat_lt
      have hc : c.toNat < 256 := c.toNat_lt
      have hfirst := @value?_digit (a.toNat / 4) (by omega)
      have hsecond := @value?_digit (a.toNat % 4 * 16 + b.toNat / 16) (by omega)
      have hthird := @value?_digit (b.toNat % 16 * 4 + c.toNat / 64) (by omega)
      have hfourth := @value?_digit (c.toNat % 64) (by omega)
      have hbyte : 4 * (a.toNat / 4) + (a.toNat % 4 * 16 + b.toNat / 16) / 16 = a.toNat :=
        first_byte (by omega)
      have hbyte' : (a.toNat % 4 * 16 + b.toNat / 16) % 16 * 16 +
          (b.toNat % 16 * 4 + c.toNat / 64) / 4 = b.toNat := second_byte hb (by omega)
      have hbyte'' : (b.toNat % 16 * 4 + c.toNat / 64) % 4 * 64 + c.toNat % 64 = c.toNat :=
        third_byte hc
      simp only [decode?, hfirst, hsecond, hthird, hfourth, hbyte, hbyte', hbyte'', ih,
        Option.bind_eq_bind, Option.bind_some, Option.pure_def, UInt8.ofNat_toNat]

/-- What has been read is written with the same digits. -/
theorem encode_of_decode? {chars : List Char} {bytes : Bytes} (h : decode? chars = some bytes) :
    encode bytes = chars := by
  induction chars using decode?.induct generalizing bytes with
  | case1 =>
      cases h
      rfl
  | case2 => cases h
  | case3 c₁ c₂ =>
      simp only [decode?, Option.bind_eq_bind, Option.bind_eq_some_iff, Option.ite_none_right_eq_some,
        Option.some.injEq] at h
      obtain ⟨p, hp, q, hq, hunused, rfl⟩ := h
      obtain ⟨hp64, hfirst⟩ := digit_of_value? hp
      obtain ⟨hq64, hsecond⟩ := digit_of_value? hq
      have hq' : (4 * p + q / 16) % 4 * 16 = q := by omega
      simp only [encode, toNat_first_byte hp64 hq64, first_digit hq64, hq', hfirst, hsecond]
  | case4 c₁ c₂ c₃ =>
      simp only [decode?, Option.bind_eq_bind, Option.bind_eq_some_iff, Option.ite_none_right_eq_some,
        Option.some.injEq] at h
      obtain ⟨p, hp, q, hq, r, hr, hunused, rfl⟩ := h
      obtain ⟨hp64, hfirst⟩ := digit_of_value? hp
      obtain ⟨hq64, hsecond⟩ := digit_of_value? hq
      obtain ⟨hr64, hthird⟩ := digit_of_value? hr
      have hr' : (q % 16 * 16 + r / 4) % 16 * 4 = r := by omega
      simp only [encode, toNat_first_byte hp64 hq64, toNat_second_byte hr64, first_digit hq64,
        second_digit hq64 hr64, hr', hfirst, hsecond, hthird]
  | case5 c₁ c₂ c₃ c₄ rest ih =>
      simp only [decode?, Option.bind_eq_bind, Option.bind_eq_some_iff, Option.pure_def,
        Option.some.injEq] at h
      obtain ⟨p, hp, q, hq, r, hr, s, hs, tail, htail, rfl⟩ := h
      obtain ⟨hp64, hfirst⟩ := digit_of_value? hp
      obtain ⟨hq64, hsecond⟩ := digit_of_value? hq
      obtain ⟨hr64, hthird⟩ := digit_of_value? hr
      obtain ⟨hs64, hfourth⟩ := digit_of_value? hs
      simp only [encode, toNat_first_byte hp64 hq64, toNat_second_byte hr64, toNat_third_byte hs64,
        first_digit hq64, second_digit hq64 hr64, third_digit hr64 hs64, fourth_digit hs64, hfirst,
        hsecond, hthird, hfourth, ih htail]

theorem decode?_eq_some_iff {chars : List Char} {bytes : Bytes} :
    decode? chars = some bytes ↔ chars = encode bytes := by
  constructor
  · intro h
    exact (encode_of_decode? h).symm
  · rintro rfl
    exact decode?_encode bytes

end Base64

/-! ## Names of peers -/

namespace PeerId

/-- A text is a name exactly if it is the one that is written for it. -/
theorem parse?_eq_some_iff {text : String} {peer : PeerId} :
    parse? text = some peer ↔ text = peer.text := by
  have htext : text = peer.text ↔ text.toList = Base64.encode peer.bytes := by
    rw [PeerId.text, Base64.text, ← String.toList_inj, String.toList_ofList]
  simp only [htext, parse?, Digest.parse?, Option.map_eq_some_iff, Option.bind_eq_bind,
    Option.bind_eq_some_iff, Base64.decode?_eq_some_iff, Bytes.exactly?_eq_some_iff]
  constructor
  · rintro ⟨digest, ⟨bytes, hchars, rfl⟩, rfl⟩
    exact hchars
  · intro hchars
    exact ⟨peer.digest, ⟨peer.bytes, hchars, rfl⟩, rfl⟩

end PeerId

end PeerMail
