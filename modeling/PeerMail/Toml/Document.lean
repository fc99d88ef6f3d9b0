import PeerMail.Toml.Scalar

/-!
# TOML documents

A document is a series of lines, each a header or a key with its value, and is
read into the tree of its tables.  Arrays and inline tables may stand inside
one another up to a limit, and so may the parts of a dotted key.
-/

namespace PeerMail.Toml

/-! ## Keys -/

/-- Whether a character may stand in a key without quotes. -/
def isKeyChar (c : Char) : Bool := c.isAlphanum || c = '-' || c = '_'

/-- A key of one part, after blanks, and the text behind it and further blanks. -/
def keyPart? (text : Chars) : Option (String × Chars) := do
  let text := skipBlanks text
  let (part, rest) ← match text with
    | '"' :: rest => do
        let (body, rest) ← basicBody (rest.length + 1) rest
        some (body, rest)
    | '\'' :: rest => literalBody rest
    | _ =>
        match text.span isKeyChar with
        | ([], _) => none
        | found => some found
  return (String.ofList part, skipBlanks rest)

/-- A dotted key: its parts but the last, and the last. -/
def key? : (parts : Nat) → Chars → Option (Path × String × Chars)
  | 0, _ => none
  | parts + 1, text => do
      let (part, rest) ← keyPart? text
      match rest with
      | '.' :: rest =>
          let (path, name, rest) ← key? parts rest
          return (part :: path, name, rest)
      | _ => return ([], part, rest)

/-- The most parts of a key, and the most arrays and inline tables inside one another. -/
def maxDepth : Nat := 79

/-! ## Values -/

/-- The rest of an array whose bracket has been read; `item` reads a value. -/
def arrayItems (item : Chars → Option (Item × Chars)) :
    (fuel : Nat) → Chars → Option (List Item × Chars)
  | 0, _ => none
  | fuel + 1, text =>
      match skipLines text.length text with
      | ']' :: rest => some ([], rest)
      | text => do
          let (first, rest) ← item text
          match skipLines rest.length rest with
          | ',' :: rest =>
              let (items, rest) ← arrayItems item fuel rest
              return (first :: items, rest)
          | ']' :: rest => return ([first], rest)
          | _ => none

/-- A key with its value in an inline table, and the text behind it and blanks. -/
def inlineMember (item : Chars → Option (Item × Chars)) (members : Members) (text : Chars) :
    Option (Members × Chars) := do
  let (path, name, rest) ← key? maxDepth text
  let (value, rest) ← item (skipBlanks (← expect '=' rest))
  return (← members.add path name value .header, skipBlanks rest)

/-- The members of an inline table that is not empty. -/
def inlineMembers (item : Chars → Option (Item × Chars)) :
    (fuel : Nat) → Members → Chars → Option (Members × Chars)
  | 0, _, _ => none
  | fuel + 1, members, text => do
      let (members, rest) ← inlineMember item members text
      match rest with
      | ',' :: rest => inlineMembers item fuel members rest
      | '\x7d' :: rest => return (members, rest)
      | _ => none

/-- A value with at most `depth` arrays and inline tables inside one another. -/
def value? : (depth : Nat) → Chars → Option (Item × Chars)
  | depth, text =>
      match text, depth with
      | '"' :: _, _ => (string? text).map fun (string, rest) => (.string string, rest)
      | '\'' :: _, _ => (string? text).map fun (string, rest) => (.string string, rest)
      | '[' :: rest, depth + 1 =>
          (arrayItems (value? depth) (rest.length + 1) rest).map fun (items, rest) =>
            (.array items, rest)
      | '\x7b' :: rest, depth + 1 =>
          match skipBlanks rest with
          | '\x7d' :: rest => some (.inline [], rest)
          | _ =>
              (inlineMembers (value? depth) (rest.length + 1) [] rest).map fun (members, rest) =>
                (.inline members, rest)
      | 't' :: 'r' :: 'u' :: 'e' :: rest, _ => some (.boolean true, rest)
      | 'f' :: 'a' :: 'l' :: 's' :: 'e' :: rest, _ => some (.boolean false, rest)
      | _, _ => numeral? text

/-! ## Lines -/

/-- A document that is being read: its tables, and the way to the open one. -/
structure Draft where
  members : Members
  openPath : Path

/-- Adds a member to the open table. -/
def Draft.add (draft : Draft) (path : Path) (name : String) (value : Item) : Option Draft := do
  let members ← Members.change false
    (fun form inner => Members.add path name value form inner) .header draft.members draft.openPath
  return { draft with members }

/-- The text behind a header's key and closing brackets. -/
def header? (closing : Nat) (text : Chars) : Option (Path × String × Chars) := do
  let (path, name, rest) ← key? maxDepth text
  let rest ← if closing = 2 then (expect ']' rest).bind (expect ']') else expect ']' rest
  return (path, name, rest)

/-- What one line adds, and the text behind it: a header, a member, or nothing. -/
def line? (draft : Draft) (text : Chars) : Option (Draft × Chars) :=
  match text with
  | [] => some (draft, [])
  | '#' :: _ => some (draft, text)
  | '\n' :: _ => some (draft, text)
  | '\r' :: _ => some (draft, text)
  | '[' :: '[' :: rest => do
      let (path, name, rest) ← header? 2 rest
      return (⟨← draft.members.openNext path name, path ++ [name]⟩, rest)
  | '[' :: rest => do
      let (path, name, rest) ← header? 1 rest
      return (⟨← draft.members.openTable path name, path ++ [name]⟩, rest)
  | _ => do
      let (path, name, rest) ← key? maxDepth text
      let (value, rest) ← value? maxDepth (skipBlanks (← expect '=' rest))
      return (← draft.add path name value, rest)

/-- Reads lines up to the end of the text. -/
def lines? : (fuel : Nat) → Draft → Chars → Option Draft
  | 0, _, _ => none
  | fuel + 1, draft, text => do
      let (draft, rest) ← line? draft (skipBlanks text)
      let rest := skipComment (skipBlanks rest)
      match newline? rest, rest with
      | some rest, _ => lines? fuel draft rest
      | none, [] => return draft
      | none, _ => none

/-- The tables of a document.  A byte order mark in front is passed over. -/
def document? (text : String) : Option Members :=
  let chars := match text.toList with
    | '\uFEFF' :: rest => rest
    | chars => chars
  (lines? (chars.length + 1) ⟨[], []⟩ chars).map Draft.members

end PeerMail.Toml
