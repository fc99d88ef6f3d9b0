import Mathlib.Tactic.SplitIfs
import PeerMail.Json.Text
import PeerMail.Proofs.Text.Hex

/-!
# Lists of strings as JSON text

A list of strings is read back from the text that is written for it, whatever characters
the strings are made of (`stringList?_ofStringList`).  A character is written in one of
three ways: as itself, as an escape of one letter, or as an escape with its number.
Reading undoes each of them and goes on behind it (`readStringBody_writeChar`); the rest
is induction, along the characters of a string and along the strings of a list.
-/

namespace PeerMail.Json

/-! ## Characters -/

section Characters

variable {c letter : Char} (rest : Chars)

theorem readStringBody_plain (hquote : c ≠ '"') (hslash : c ≠ '\\') (hvisible : ¬ c.toNat < 32) :
    readStringBody (c :: rest) = prepend c (readStringBody rest) := by
  rw [readStringBody.eq_5 c rest hquote (fun _ _ _ _ _ h _ => hslash h) fun _ _ h _ => hslash h,
    if_neg hvisible]

theorem readStringBody_escaped (h : escaped? letter = some c) :
    readStringBody ('\\' :: letter :: rest) = prepend c (readStringBody rest) := by
  have hletter : letter ≠ 'u' := by
    rintro rfl
    cases h
  rw [readStringBody.eq_4 letter rest fun _ _ _ _ _ hu _ => hletter hu, h]

/-- A character below 32 is the one with the number of its last two digits. -/
theorem hex4?_control (h : c.toNat < 32) :
    hex4? '0' '0' (Hex.digit (c.toNat / 16)) (Hex.digit (c.toNat % 16)) = some c.toNat := by
  have hzero : Hex.value? '0' = some 0 := rfl
  have hhigh : Hex.value? (Hex.digit (c.toNat / 16)) = some (c.toNat / 16) :=
    Hex.value?_digit (by omega)
  have hlow : Hex.value? (Hex.digit (c.toNat % 16)) = some (c.toNat % 16) :=
    Hex.value?_digit (by omega)
  have hboth : ((0 * 16 + 0) * 16 + c.toNat / 16) * 16 + c.toNat % 16 = c.toNat := by omega
  simp only [hex4?, hzero, hhigh, hlow, hboth, Option.bind_eq_bind, Option.bind_some,
    Option.pure_def]

theorem readStringBody_control (h : c.toNat < 32) :
    readStringBody ('\\' :: 'u' :: '0' :: '0' :: Hex.digit (c.toNat / 16) ::
      Hex.digit (c.toNat % 16) :: rest) = prepend c (readStringBody rest) := by
  rw [readStringBody, hex4?_control h]
  simp only []
  rw [if_neg (by omega), if_neg (by omega), Char.ofNat_toNat]

/-- Behind a character that was written, reading goes on. -/
theorem readStringBody_writeChar (c : Char) :
    readStringBody (writeChar c ++ rest) = prepend c (readStringBody rest) := by
  unfold writeChar
  split_ifs with hmark hback hfeed hline hreturn htab hcontrol
  · rcases hmark with rfl | rfl <;> exact readStringBody_escaped rest rfl
  · exact hback ▸ readStringBody_escaped rest rfl
  · exact hfeed ▸ readStringBody_escaped rest rfl
  · exact hline ▸ readStringBody_escaped rest rfl
  · exact hreturn ▸ readStringBody_escaped rest rfl
  · exact htab ▸ readStringBody_escaped rest rfl
  · exact readStringBody_control rest hcontrol
  · obtain ⟨hquote, hslash⟩ := not_or.mp hmark
    exact readStringBody_plain rest hquote hslash hcontrol

end Characters

/-! ## Strings -/

theorem readStringBody_flatMap (chars rest : Chars) :
    readStringBody (chars.flatMap writeChar ++ '"' :: rest) = some (chars, rest) := by
  induction chars with
  | nil => rfl
  | cons c chars ih =>
      rw [List.flatMap_cons, List.append_assoc, readStringBody_writeChar, ih]
      rfl

theorem readString_writeString (string : String) (rest : Chars) :
    readString (writeString string ++ rest) = some (string, rest) := by
  have hbody := readStringBody_flatMap string.toList rest
  have hquote : expect '"' (writeString string ++ rest) =
      some (string.toList.flatMap writeChar ++ '"' :: rest) := by
    simp [expect, skipBlanks, isBlank, writeString]
  simp only [readString, hquote, hbody, Option.bind_eq_bind, Option.bind_some, Option.pure_def,
    String.ofList_toList]

/-! ## Lists -/

/-- The strings of a list with commas between them. -/
def writeStrings (strings : List String) : Chars := [','].intercalate (strings.map writeString)

theorem writeStrings_cons_cons (first second : String) (others : List String) :
    writeStrings (first :: second :: others) =
      writeString first ++ ',' :: writeStrings (second :: others) := by
  simp [writeStrings]

theorem length_le_length_writeStrings (strings : List String) :
    strings.length ≤ (writeStrings strings).length := by
  induction strings with
  | nil => exact Nat.zero_le _
  | cons first others ih =>
      cases others with
      | nil => simp [writeStrings, writeString]
      | cons second others =>
          simp only [writeStrings_cons_cons, List.length_append, List.length_cons] at ih ⊢
          omega

/-- A list that is not empty is read back, one string for each step. -/
theorem readStrings_writeStrings (first : String) (others : List String) {fuel : Nat}
    (hfuel : others.length < fuel) (rest : Chars) :
    readStrings fuel (writeStrings (first :: others) ++ ']' :: rest) =
      some (first :: others, rest) := by
  induction others generalizing first fuel with
  | nil =>
      obtain ⟨fuel, rfl⟩ := Nat.exists_eq_succ_of_ne_zero (Nat.ne_of_gt hfuel)
      have hone : writeStrings [first] = writeString first := by simp [writeStrings]
      simp [readStrings, hone, readString_writeString, skipBlanks, isBlank]
  | cons second others ih =>
      obtain ⟨fuel, rfl⟩ := Nat.exists_eq_succ_of_ne_zero (Nat.ne_of_gt (Nat.zero_lt_of_lt hfuel))
      have hothers := ih second (Nat.lt_of_succ_lt_succ hfuel)
      rw [writeStrings_cons_cons, List.append_assoc, readStrings, readString_writeString]
      simp [skipBlanks, isBlank, hothers]

/-- **Lists of strings as JSON text.**  Every list of strings is read back from its text. -/
theorem stringList?_ofStringList (strings : List String) :
    stringList? (ofStringList strings) = some strings := by
  have htext : (ofStringList strings).toList = '[' :: (writeStrings strings ++ [']']) :=
    String.toList_ofList
  have hopen : expect '[' (ofStringList strings).toList = some (writeStrings strings ++ [']']) := by
    rw [htext]
    simp [expect, skipBlanks, isBlank]
  cases strings with
  | nil =>
      have hnone : writeStrings [] = [] := rfl
      rw [hnone, List.nil_append] at hopen
      simp only [stringList?, hopen, Option.bind_eq_bind, Option.bind_some]
      rfl
  | cons first others =>
      have hfuel : others.length < (ofStringList (first :: others)).toList.length := by
        have hlength := length_le_length_writeStrings (first :: others)
        rw [htext, List.length_cons, List.length_append]
        rw [List.length_cons] at hlength
        omega
      have hread := readStrings_writeStrings first others hfuel []
      -- the list does not end where it begins: a quote stands there
      have hquote : ∃ tail, skipBlanks (writeStrings (first :: others) ++ [']']) = '"' :: tail := by
        cases others <;> simp [writeStrings, writeString, skipBlanks, isBlank]
      obtain ⟨tail, htail⟩ := hquote
      simp only [stringList?, hopen, htail, hread, Option.bind_eq_bind, Option.bind_some]
      rfl

end PeerMail.Json
