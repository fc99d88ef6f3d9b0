import Mathlib.Tactic.SplitIfs
import PeerMail.Identity

/-!
# Hexadecimal names

A block goes by the hexadecimal text of its hash.  Reading takes digits of either case, writing
gives lowercase ones; so a text is read exactly if it is the written one in lowercase, and what is
written back is the text in lowercase (`Cid.parse?_eq_some_iff`).
-/

namespace PeerMail

namespace Hex

/-! ## Digits -/

theorem toNat_toLower (c : Char) :
    c.toLower.toNat = if 65 ≤ c.toNat ∧ c.toNat ≤ 90 then c.toNat + 32 else c.toNat := by
  have hupper : (c.val ≥ 'A'.val ∧ c.val ≤ 'Z'.val) ↔ 65 ≤ c.toNat ∧ c.toNat ≤ 90 := Iff.rfl
  unfold Char.toLower
  split
  · next h =>
      rw [if_pos (hupper.mp h)]
      show (c.val + 32).toNat = c.val.toNat + 32
      have hle : c.val.toNat ≤ 90 := (hupper.mp h).2
      rw [UInt32.toNat_add]
      show (c.val.toNat + 32) % 2 ^ 32 = c.val.toNat + 32
      omega
  · next h => rw [if_neg (fun hboth => h (hupper.mpr hboth))]

theorem value?_digit {value : Nat} (h : value < 16) : value? (digit value) = some value := by
  have hall : ∀ v : Fin 16, value? (digit v) = some v.val := by decide
  exact hall ⟨value, h⟩

/-- The case of a digit does not matter. -/
theorem value?_toLower (c : Char) : value? c.toLower = value? c := by
  simp only [value?, toNat_toLower]
  by_cases hupper : 65 ≤ c.toNat ∧ c.toNat ≤ 90
  · -- both are letters, with the same place among the letters of their case
    have hdecimal : ¬ (48 ≤ c.toNat + 32 ∧ c.toNat + 32 ≤ 57) := by omega
    have hcapital : ¬ (65 ≤ c.toNat + 32 ∧ c.toNat + 32 ≤ 70) := by omega
    have hsmall : (97 ≤ c.toNat + 32 ∧ c.toNat + 32 ≤ 102) ↔ 65 ≤ c.toNat ∧ c.toNat ≤ 70 := by
      omega
    have hplace : c.toNat + 32 - 87 = c.toNat - 55 := by omega
    have hdecimal' : ¬ (48 ≤ c.toNat ∧ c.toNat ≤ 57) := by omega
    have hsmall' : ¬ (97 ≤ c.toNat ∧ c.toNat ≤ 102) := by omega
    simp only [if_pos hupper, if_neg hdecimal, if_neg hcapital, hsmall, hplace, if_neg hdecimal',
      if_neg hsmall']
  · simp only [if_neg hupper]

/-- Reading a digit and writing it gives the digit in lowercase. -/
theorem digit_of_value? {c : Char} {value : Nat} (h : value? c = some value) :
    value < 16 ∧ digit value = c.toLower := by
  have hchar : ∀ code, c.toLower.toNat = code → Char.ofNat code = c.toLower := by
    rintro _ rfl
    exact Char.ofNat_toNat _
  have hlower := toNat_toLower c
  simp only [value?] at h
  split_ifs at h with hdecimal hsmall hcapital <;> cases h <;> refine ⟨by omega, ?_⟩ <;>
    unfold digit
  · rw [if_neg (by omega)] at hlower
    rw [if_pos (by omega)]
    exact hchar _ (by omega)
  · rw [if_neg (by omega)] at hlower
    rw [if_neg (by omega)]
    exact hchar _ (by omega)
  · rw [if_pos (by omega)] at hlower
    rw [if_neg (by omega)]
    exact hchar _ (by omega)

/-! ## Byte strings -/

theorem decode?_encode (bytes : Bytes) : decode? (encode bytes) = some bytes := by
  induction bytes with
  | nil => rfl
  | cons byte rest ih =>
      have hbyte : byte.toNat < 256 := byte.toNat_lt
      have hhigh : value? (digit (byte.toNat / 16)) = some (byte.toNat / 16) :=
        value?_digit (by omega)
      have hlow : value? (digit (byte.toNat % 16)) = some (byte.toNat % 16) :=
        value?_digit (by omega)
      have hboth : 16 * (byte.toNat / 16) + byte.toNat % 16 = byte.toNat := by omega
      simp only [encode, decode?, hhigh, hlow, ih, hboth, Option.bind_eq_bind, Option.bind_some,
        UInt8.ofNat_toNat, Option.pure_def]

theorem decode?_map_toLower (chars : List Char) :
    decode? (chars.map Char.toLower) = decode? chars := by
  induction chars using decode?.induct with
  | case1 => rfl
  | case2 => rfl
  | case3 high low rest ih => simp [decode?, value?_toLower, ih]

/-- What has been read is written in lowercase. -/
theorem encode_of_decode? {chars : List Char} {bytes : Bytes} (h : decode? chars = some bytes) :
    encode bytes = chars.map Char.toLower := by
  induction chars using decode?.induct generalizing bytes with
  | case1 =>
      cases h
      rfl
  | case2 => cases h
  | case3 high low rest ih =>
      simp only [decode?, Option.bind_eq_bind, Option.bind_eq_some_iff, Option.pure_def,
        Option.some.injEq] at h
      obtain ⟨first, hfirst, second, hsecond, tail, htail, rfl⟩ := h
      obtain ⟨hlt, hhigh⟩ := digit_of_value? hfirst
      obtain ⟨hlt', hlow⟩ := digit_of_value? hsecond
      have hbyte : (UInt8.ofNat (16 * first + second)).toNat = 16 * first + second := by
        rw [UInt8.toNat_ofNat']
        exact Nat.mod_eq_of_lt (by omega)
      have hdiv : (16 * first + second) / 16 = first := by omega
      have hmod : (16 * first + second) % 16 = second := by omega
      simp only [encode, hbyte, hdiv, hmod, hhigh, hlow, ih htail, List.map_cons]

theorem decode?_eq_some_iff {chars : List Char} {bytes : Bytes} :
    decode? chars = some bytes ↔ chars.map Char.toLower = encode bytes := by
  constructor
  · intro h
    exact (encode_of_decode? h).symm
  · intro h
    rw [← decode?_map_toLower, h]
    exact decode?_encode bytes

end Hex

namespace Cid

/-! ## Names of blocks -/

theorem exactly?_eq_some_iff {bytes : Bytes} {cid : Cid} :
    (Bytes.exactly? 32 bytes).map Cid.mk = some cid ↔ bytes = cid.bytes := by
  rw [Option.map_eq_some_iff]
  constructor
  · rintro ⟨digest, hdigest, rfl⟩
    exact (Bytes.exactly?_eq_some_iff.mp hdigest).symm
  · rintro rfl
    exact ⟨cid.digest, Bytes.exactly?_eq_some_iff.mpr rfl, rfl⟩

theorem toLower_eq_text_iff {text : String} {cid : Cid} :
    text.toLower = cid.text ↔ text.toList.map Char.toLower = Hex.encode cid.bytes := by
  have hlower : text.toLower = text.map Char.toLower := rfl
  rw [hlower, ← String.toList_inj, String.toList_map, Cid.text, Hex.text, String.toList_ofList]

theorem parse?_eq_some_iff_decode? {text : String} {cid : Cid} :
    parse? text = some cid ↔ Hex.decode? text.toList = some cid.bytes := by
  simp only [parse?, Option.bind_eq_bind, Option.bind_eq_some_iff, exactly?_eq_some_iff]
  constructor
  · rintro ⟨bytes, hbytes, rfl⟩
    exact hbytes
  · intro h
    exact ⟨cid.bytes, h, rfl⟩

/-- A text is a name exactly if it is one in lowercase. -/
theorem parse?_eq_some_iff {text : String} {cid : Cid} :
    parse? text = some cid ↔ text.toLower = cid.text := by
  rw [parse?_eq_some_iff_decode?, Hex.decode?_eq_some_iff, toLower_eq_text_iff]

/-- The text of a name is in lowercase. -/
theorem toLower_text (cid : Cid) : cid.text.toLower = cid.text := by
  rw [toLower_eq_text_iff, ← Hex.decode?_eq_some_iff, Cid.text, Hex.text, String.toList_ofList]
  exact Hex.decode?_encode cid.bytes

theorem text_injective {cid other : Cid} (h : cid.text = other.text) : cid = other := by
  have hcid : parse? cid.text = some cid := parse?_eq_some_iff.mpr cid.toLower_text
  have hother : parse? cid.text = some other := parse?_eq_some_iff.mpr (h ▸ cid.toLower_text)
  exact Option.some.inj (hcid.symm.trans hother)

end Cid

end PeerMail
