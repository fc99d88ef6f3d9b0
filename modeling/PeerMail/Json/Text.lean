import PeerMail.Bytes.Hex

/-!
# Reading and writing JSON text

Readers take something off the front of a text and leave the rest.  Strings are
read strictly: escapes have to be known, control characters have to be escaped
and surrogates have to come in pairs.  A value that is only skipped has to be
well formed too, except that its surrogates are not looked at.
-/

namespace PeerMail.Json

/-- A text as characters. -/
abbrev Chars := List Char

/-- Whether a character may stand between tokens. -/
def isBlank (c : Char) : Bool := c = ' ' || c = '\n' || c = '\t' || c = '\r'

/-- The text without leading blanks. -/
def skipBlanks (text : Chars) : Chars := text.dropWhile isBlank

/-- The text behind a character that has to come next, after blanks. -/
def expect (c : Char) (text : Chars) : Option Chars :=
  match skipBlanks text with
  | first :: rest => if first = c then some rest else none
  | [] => none

/-! ## Strings -/

/-- The number in four hexadecimal digits. -/
def hex4? (a b c d : Char) : Option Nat := do
  let a ← Hex.value? a
  let b ← Hex.value? b
  let c ← Hex.value? c
  let d ← Hex.value? d
  return ((a * 16 + b) * 16 + c) * 16 + d

/-- The character of an escape of one letter. -/
def escaped? : Char → Option Char
  | '"' => some '"'
  | '\\' => some '\\'
  | '/' => some '/'
  | 'b' => some '\x08'
  | 'f' => some '\x0c'
  | 'n' => some '\n'
  | 'r' => some '\r'
  | 't' => some '\t'
  | _ => none

/-- A character put in front of a string that was read. -/
def prepend (c : Char) : Option (Chars × Chars) → Option (Chars × Chars)
  | some (string, rest) => some (c :: string, rest)
  | none => none

/-- The rest of a string whose quote has been read, and the text behind it. -/
def readStringBody : Chars → Option (Chars × Chars)
  | [] => none
  | '"' :: rest => some ([], rest)
  | '\\' :: 'u' :: a :: b :: c :: d :: rest =>
      match hex4? a b c d with
      | none => none
      | some unit =>
          if 0xD800 ≤ unit ∧ unit < 0xDC00 then
            match rest with
            | '\\' :: 'u' :: e :: f :: g :: h :: rest =>
                match hex4? e f g h with
                | none => none
                | some low =>
                    if 0xDC00 ≤ low ∧ low < 0xE000 then
                      prepend (Char.ofNat (0x10000 + (unit - 0xD800) * 1024 + (low - 0xDC00)))
                        (readStringBody rest)
                    else none
            | _ => none
          else if 0xDC00 ≤ unit ∧ unit < 0xE000 then none
          else prepend (Char.ofNat unit) (readStringBody rest)
  | '\\' :: letter :: rest =>
      match escaped? letter with
      | some c => prepend c (readStringBody rest)
      | none => none
  | c :: rest => if c.toNat < 32 then none else prepend c (readStringBody rest)

/-- A string, after blanks. -/
def readString (text : Chars) : Option (String × Chars) := do
  let rest ← expect '"' text
  let (string, rest) ← readStringBody rest
  return (String.ofList string, rest)

/-- A character inside a string. -/
def writeChar (c : Char) : Chars :=
  if c = '"' ∨ c = '\\' then ['\\', c]
  else if c = '\x08' then ['\\', 'b']
  else if c = '\x0c' then ['\\', 'f']
  else if c = '\n' then ['\\', 'n']
  else if c = '\r' then ['\\', 'r']
  else if c = '\t' then ['\\', 't']
  else if c.toNat < 32 then
    ['\\', 'u', '0', '0', Hex.digit (c.toNat / 16), Hex.digit (c.toNat % 16)]
  else [c]

/-- A string in quotes. -/
def writeString (string : String) : Chars :=
  '"' :: string.toList.flatMap writeChar ++ ['"']

/-! ## Numbers -/

/-- The leading decimal digits and the rest. -/
def takeDigits (text : Chars) : Chars × Chars := text.span Char.isDigit

/-- The value of decimal digits. -/
def digitsValue (digits : Chars) : Nat :=
  digits.foldl (fun value digit => value * 10 + (digit.toNat - 48)) 0

/-- An integer's digits without a superfluous zero in front. -/
def takeInteger (text : Chars) : Option (Chars × Chars) :=
  match takeDigits text with
  | ([], _) => none
  | (['0'], rest) => some (['0'], rest)
  | ('0' :: _, _) => none
  | found => some found

/-- A natural number below a limit, after blanks: no sign, point or exponent. -/
def readNat (limit : Nat) (text : Chars) : Option (Nat × Chars) := do
  let (digits, rest) ← takeInteger (skipBlanks text)
  let plain := match rest with
    | c :: _ => c != '.' && c != 'e' && c != 'E'
    | [] => true
  let value := digitsValue digits
  if plain && decide (value < limit) then some (value, rest) else none

/-! ## Skipping -/

/-- The text behind a string whose quote has been read. -/
def skipStringBody : Chars → Option Chars
  | [] => none
  | '"' :: rest => some rest
  | '\\' :: 'u' :: a :: b :: c :: d :: rest =>
      match hex4? a b c d with
      | some _ => skipStringBody rest
      | none => none
  | '\\' :: letter :: rest =>
      match escaped? letter with
      | some _ => skipStringBody rest
      | none => none
  | c :: rest => if c.toNat < 32 then none else skipStringBody rest

/-- The text behind at least one digit. -/
def skipDigits (text : Chars) : Option Chars :=
  match takeDigits text with
  | ([], _) => none
  | (_, rest) => some rest

/-- The text behind an exponent, if there is one. -/
def skipExponent : Chars → Option Chars
  | c :: rest =>
      if c = 'e' ∨ c = 'E' then
        match rest with
        | sign :: more => if sign = '+' ∨ sign = '-' then skipDigits more else skipDigits rest
        | [] => none
      else some (c :: rest)
  | [] => some []

/-- The text behind a number. -/
def skipNumber (text : Chars) : Option Chars := do
  let unsigned := match text with
    | '-' :: rest => rest
    | _ => text
  let (_, rest) ← takeInteger unsigned
  match rest with
  | '.' :: rest => skipExponent (← skipDigits rest)
  | _ => skipExponent rest

/-- The text behind a word. -/
def skipWord (word text : Chars) : Option Chars :=
  if word.isPrefixOf text then some (text.drop word.length) else none

mutual

/-- The text behind a value, after blanks, followed for at most `fuel` steps. -/
def skipValue : (fuel : Nat) → Chars → Option Chars
  | 0, _ => none
  | fuel + 1, text =>
      match skipBlanks text with
      | '"' :: rest => skipStringBody rest
      | '[' :: rest =>
          match skipBlanks rest with
          | ']' :: rest => some rest
          | _ => skipItems fuel rest
      | '\x7b' :: rest =>
          match skipBlanks rest with
          | '\x7d' :: rest => some rest
          | _ => skipMembers fuel rest
      | 't' :: rest => skipWord "rue".toList rest
      | 'f' :: rest => skipWord "alse".toList rest
      | 'n' :: rest => skipWord "ull".toList rest
      | text => skipNumber text

/-- The text behind the rest of an array that is not empty. -/
def skipItems : (fuel : Nat) → Chars → Option Chars
  | 0, _ => none
  | fuel + 1, text =>
      match skipValue fuel text with
      | none => none
      | some rest =>
          match skipBlanks rest with
          | ',' :: rest => skipItems fuel rest
          | ']' :: rest => some rest
          | _ => none

/-- The text behind the rest of an object that is not empty. -/
def skipMembers : (fuel : Nat) → Chars → Option Chars
  | 0, _ => none
  | fuel + 1, text =>
      match (expect '"' text).bind skipStringBody |>.bind (expect ':') with
      | none => none
      | some rest =>
          match skipValue fuel rest with
          | none => none
          | some rest =>
              match skipBlanks rest with
              | ',' :: rest => skipMembers fuel rest
              | '\x7d' :: rest => some rest
              | _ => none

end

/-! ## Lists of strings -/

/-- The rest of an array of strings that is not empty, and the text behind it. -/
def readStrings : (fuel : Nat) → Chars → Option (List String × Chars)
  | 0, _ => none
  | fuel + 1, text => do
      let (string, rest) ← readString text
      match skipBlanks rest with
      | ',' :: rest =>
          let (strings, rest) ← readStrings fuel rest
          return (string :: strings, rest)
      | ']' :: rest => return ([string], rest)
      | _ => none

/-- The strings of a text that is an array of strings and nothing else. -/
def stringList? (text : String) : Option (List String) := do
  let chars := text.toList
  let rest ← expect '[' chars
  let (strings, rest) ← match skipBlanks rest with
    | ']' :: rest => some ([], rest)
    | _ => readStrings chars.length rest
  if (skipBlanks rest).isEmpty then some strings else none

/-- The text of an array of strings. -/
def ofStringList (strings : List String) : String :=
  String.ofList ('[' :: [','].intercalate (strings.map writeString) ++ [']'])

end PeerMail.Json
