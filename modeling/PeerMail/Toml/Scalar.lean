import PeerMail.Bytes.Hex
import PeerMail.Toml.Tree

/-!
# Strings, numbers and dates in TOML

Readers take an item off the front of a text and leave the rest; what may come
after it is for the caller to check.
-/

namespace PeerMail.Toml

/-- A text as characters. -/
abbrev Chars := List Char

/-! ## Blanks, line ends and comments -/

/-- A space or a tab. -/
def isBlank (c : Char) : Bool := c = ' ' || c = '\t'

/-- The text without leading blanks. -/
def skipBlanks (text : Chars) : Chars := text.dropWhile isBlank

/-- The text behind a line end. -/
def newline? : Chars → Option Chars
  | '\n' :: rest => some rest
  | '\r' :: '\n' :: rest => some rest
  | _ => none

/-- Whether a character may stand in a line: no control character but the tab. -/
def isPrintable (c : Char) : Bool := c = '\t' || (decide (32 ≤ c.toNat) && c.toNat != 127)

/-- The text behind a comment, if there is one; it ends before the line end. -/
def skipComment : Chars → Chars
  | '#' :: rest => rest.dropWhile isPrintable
  | text => text

/-- The text behind blanks, comments and line ends, followed for at most `fuel` of them. -/
def skipLines : (fuel : Nat) → Chars → Chars
  | 0, text => text
  | fuel + 1, text =>
      let rest := skipComment (skipBlanks text)
      match newline? rest with
      | some rest => skipLines fuel rest
      | none => rest

/-! ## Strings -/

/-- The number that the first `count` characters write in hexadecimal digits. -/
def hexNumber? (count : Nat) (text : Chars) : Option Nat :=
  let digits := text.take count
  if digits.length = count then
    digits.foldlM (fun value c => (Hex.value? c).map fun digit => value * 16 + digit) 0
  else none

/-- The character with a code point, which may be no surrogate. -/
def scalar? (code : Nat) : Option Char :=
  if code < 0xD800 ∨ (0xDFFF < code ∧ code < 0x110000) then some (Char.ofNat code) else none

/-- The character of an escape behind its backslash, and the number of characters it takes. -/
def escape? : Chars → Option (Char × Nat)
  | 'b' :: _ => some ('\x08', 1)
  | 't' :: _ => some ('\t', 1)
  | 'n' :: _ => some ('\n', 1)
  | 'f' :: _ => some ('\x0c', 1)
  | 'r' :: _ => some ('\r', 1)
  | '"' :: _ => some ('"', 1)
  | '\\' :: _ => some ('\\', 1)
  | 'u' :: rest => do return (← scalar? (← hexNumber? 4 rest), 5)
  | 'U' :: rest => do return (← scalar? (← hexNumber? 8 rest), 9)
  | _ => none

/-- The rest of a string on one line, with escapes. -/
def basicBody : (fuel : Nat) → Chars → Option (Chars × Chars)
  | 0, _ => none
  | _ + 1, [] => none
  | _ + 1, '"' :: rest => some ([], rest)
  | fuel + 1, '\\' :: rest => do
      let (c, used) ← escape? rest
      let (body, rest) ← basicBody fuel (rest.drop used)
      return (c :: body, rest)
  | fuel + 1, c :: rest =>
      if isPrintable c then do
        let (body, rest) ← basicBody fuel rest
        return (c :: body, rest)
      else none

/-- The rest of a string on one line, without escapes. -/
def literalBody (text : Chars) : Option (Chars × Chars) :=
  match text.span fun c => isPrintable c && c != '\'' with
  | (body, '\'' :: rest) => some (body, rest)
  | _ => none

/-- The rest of a text behind a backslash at the end of a line: blanks and line ends up to the
next visible character are left out.  Carriage returns count only in front of a line feed. -/
def continuation? (text : Chars) : Option Chars :=
  (newline? (skipBlanks text)).map fun rest => skipBreaks rest.length rest
where
  /-- The text behind blanks and proper line ends. -/
  skipBreaks : (fuel : Nat) → Chars → Chars
    | 0, text => text
    | fuel + 1, text =>
        match newline? (skipBlanks text) with
        | some rest => skipBreaks fuel rest
        | none => skipBlanks text

/-- The rest of a string over several lines between triple quotes.  Up to two quotes in a row are
part of it, also before the end; a line end is a line feed.  With `escapes`, backslashes count. -/
def longBody (quote : Char) (escapes : Bool) : (fuel : Nat) → Chars → Option (Chars × Chars)
  | 0, _ => none
  | fuel + 1, text =>
      let quotes := (text.takeWhile (· == quote)).length
      if 3 ≤ quotes then
        let inside := min (quotes - 3) 2
        some (List.replicate inside quote, text.drop (inside + 3))
      else
        let prepend (c : Char) (rest : Chars) : Option (Chars × Chars) := do
          let (body, rest) ← longBody quote escapes fuel rest
          return (c :: body, rest)
        match newline? text, text with
        | some rest, _ => prepend '\n' rest
        | none, [] => none
        | none, c :: rest =>
            if escapes && c = '\\' then
              match continuation? rest with
              | some rest => longBody quote escapes fuel rest
              | none => do
                  let (c, used) ← escape? rest
                  prepend c (rest.drop used)
            else if isPrintable c then prepend c rest
            else none

/-- The text behind a line end directly after the opening quotes. -/
def skipFirstNewline (text : Chars) : Chars := (newline? text).getD text

/-- A string of any of the four kinds. -/
def string? (text : Chars) : Option (String × Chars) := do
  let (body, rest) ← match text with
    | '"' :: '"' :: '"' :: rest => longBody '"' true (rest.length + 1) (skipFirstNewline rest)
    | '\'' :: '\'' :: '\'' :: rest => longBody '\'' false (rest.length + 1) (skipFirstNewline rest)
    | '"' :: rest => basicBody (rest.length + 1) rest
    | '\'' :: rest => literalBody rest
    | _ => none
  return (String.ofList body, rest)

/-! ## Numbers -/

/-- Digits of which any may be preceded by an underscore, but the first; without underscores. -/
def digitGroups (isDigit : Char → Bool) : Chars → Option (Chars × Chars)
  | [] => none
  | c :: rest => if isDigit c then more c rest else none
where
  /-- The digits from one on that has been read. -/
  more (last : Char) : Chars → Option (Chars × Chars)
    | '_' :: c :: rest =>
        if isDigit c then (more c rest).map fun (digits, rest) => (last :: digits, rest) else none
    | ['_'] => none
    | c :: rest =>
        if isDigit c then (more c rest).map fun (digits, rest) => (last :: digits, rest)
        else some ([last], c :: rest)
    | [] => some ([last], [])

/-- The value of a digit in any base up to sixteen. -/
def digitValue (c : Char) : Nat := (Hex.value? c).getD 0

/-- The value of digits in a base. -/
def digitsValue (base : Nat) (digits : Chars) : Nat :=
  digits.foldl (fun value c => value * base + digitValue c) 0

/-- Whether a character is a digit of a base up to sixteen. -/
def isDigitOf (base : Nat) (c : Char) : Bool :=
  match Hex.value? c with
  | some value => decide (value < base)
  | none => false

/-- Whether there is a minus sign, and the text behind a sign of either kind. -/
def takeSign : Chars → Bool × Chars
  | '-' :: rest => (true, rest)
  | '+' :: rest => (false, rest)
  | text => (false, text)

/-- A decimal integer's digits: a single zero, or digits that do not start with one. -/
def decimal? : Chars → Option (Chars × Chars)
  | '0' :: rest => some (['0'], rest)
  | text => digitGroups (isDigitOf 10) text

/-- The exponent of a number, zero if there is none, and whether there is one. -/
def exponent? : Chars → Option (Int × Bool × Chars)
  | c :: rest =>
      if c = 'e' ∨ c = 'E' then do
        let (negative, rest) := takeSign rest
        let (digits, rest) ← digitGroups (isDigitOf 10) rest
        let value : Int := digitsValue 10 digits
        return (if negative then -value else value, true, rest)
      else some (0, false, c :: rest)
  | [] => some (0, false, [])

/-- Whether `digits * 10 ^ exponent` is too large for a double: it rounds to 2^1024 or more. -/
def overflows (digits : Chars) (exponent : Int) : Bool :=
  let significant := digits.dropWhile (· == '0')
  let magnitude : Int := significant.length + exponent
  if significant.isEmpty || decide (magnitude < 300) then false
  else if 400 < magnitude then true
  else
    let limit := Nat.pow 2 1024 - Nat.pow 2 970
    let value := digitsValue 10 significant
    if 0 ≤ exponent then decide (limit ≤ value * Nat.pow 10 exponent.toNat)
    else decide (limit * Nat.pow 10 (-exponent).toNat ≤ value)

/-- The bound of integers. -/
def integerLimit : Nat := Nat.pow 2 63

/-- An integer or a floating-point number in decimal digits. -/
def decimalNumber? (text : Chars) : Option (Item × Chars) := do
  let (negative, rest) := takeSign text
  let (whole, rest) ← decimal? rest
  let (fraction, isFraction, rest) ← match rest with
    | '.' :: rest => do
        let (digits, rest) ← digitGroups (isDigitOf 10) rest
        some (digits, true, rest)
    | _ => some ([], false, rest)
  let (exponent, isScaled, rest) ← exponent? rest
  if isFraction || isScaled then
    if !negative && overflows (whole ++ fraction) (exponent - fraction.length) then none
    else return (.float, rest)
  else
    let value := digitsValue 10 whole
    if value < integerLimit || (negative && value == integerLimit) then
      return (.integer (if negative then -(value : Int) else value), rest)
    else none

/-- An integer in another base behind its mark. -/
def basedNumber? (base : Nat) (text : Chars) : Option (Item × Chars) := do
  let (digits, rest) ← digitGroups (isDigitOf base) text
  let value := digitsValue base digits
  if value < integerLimit then return (.integer value, rest) else none

/-- A number. -/
def number? (text : Chars) : Option (Item × Chars) :=
  match text with
  | '0' :: 'x' :: rest => basedNumber? 16 rest
  | '0' :: 'o' :: rest => basedNumber? 8 rest
  | '0' :: 'b' :: rest => basedNumber? 2 rest
  | _ =>
      match (takeSign text).2 with
      | 'i' :: 'n' :: 'f' :: rest => some (.float, rest)
      | 'n' :: 'a' :: 'n' :: rest => some (.float, rest)
      | _ => decimalNumber? text

/-! ## Dates and times -/

/-- The number in exactly `count` digits. -/
def fixedDigits? (count : Nat) (text : Chars) : Option (Nat × Chars) :=
  let digits := text.take count
  if digits.length = count && digits.all (isDigitOf 10) then
    some (digitsValue 10 digits, text.drop count)
  else none

/-- The number in exactly two digits, within bounds. -/
def twoDigits? (low high : Nat) (text : Chars) : Option (Nat × Chars) := do
  let (value, rest) ← fixedDigits? 2 text
  if low ≤ value ∧ value ≤ high then some (value, rest) else none

/-- The text behind a character that has to come next. -/
def expect (c : Char) : Chars → Option Chars
  | first :: rest => if first = c then some rest else none
  | [] => none

/-- The days of a month. -/
def daysIn (year month : Nat) : Nat :=
  if month = 2 then
    if year % 4 = 0 ∧ (year % 100 ≠ 0 ∨ year % 400 = 0) then 29 else 28
  else if month = 4 ∨ month = 6 ∨ month = 9 ∨ month = 11 then 30
  else 31

/-- The text behind a date. -/
def skipDate (text : Chars) : Option Chars := do
  let (year, rest) ← fixedDigits? 4 text
  let (month, rest) ← twoDigits? 1 12 (← expect '-' rest)
  let (_, rest) ← twoDigits? 1 (daysIn year month) (← expect '-' rest)
  return rest

/-- The text behind a time of day. -/
def skipTime (text : Chars) : Option Chars := do
  let (_, rest) ← twoDigits? 0 23 text
  let (_, rest) ← twoDigits? 0 59 (← expect ':' rest)
  let (_, rest) ← twoDigits? 0 60 (← expect ':' rest)
  match rest with
  | '.' :: c :: more =>
      if isDigitOf 10 c then return more.dropWhile (isDigitOf 10) else return rest
  | _ => return rest

/-- The text behind the distance from universal time, if there is one. -/
def skipOffset (text : Chars) : Option Chars :=
  match text with
  | [] => some []
  | c :: rest =>
      if c = 'Z' ∨ c = 'z' then some rest
      else if c = '+' ∨ c = '-' then do
        let (_, rest) ← twoDigits? 0 23 rest
        let (_, rest) ← twoDigits? 0 59 (← expect ':' rest)
        return rest
      else some text

/-- Whether a text starts like a date, so that it has to be one. -/
def startsDate (text : Chars) : Bool :=
  match fixedDigits? 4 text with
  | some (_, '-' :: _) => true
  | _ => false

/-- Whether a text starts like a time of day, so that it has to be one. -/
def startsTime (text : Chars) : Bool :=
  match twoDigits? 0 23 text with
  | some (_, ':' :: _) => true
  | _ => false

/-- The text behind a date, with a time of day behind it if there is one. -/
def skipDateTime (text : Chars) : Option Chars := do
  let rest ← skipDate text
  match rest with
  | c :: more =>
      if (c = 'T' ∨ c = 't' ∨ c = ' ') ∧ startsTime more then
        skipOffset (← skipTime more)
      else return rest
  | [] => return []

/-- A number, a date or a time. -/
def numeral? (text : Chars) : Option (Item × Chars) :=
  if startsDate text then (skipDateTime text).map fun rest => (.moment, rest)
  else if startsTime text then (skipTime text).map fun rest => (.moment, rest)
  else number? text

end PeerMail.Toml
