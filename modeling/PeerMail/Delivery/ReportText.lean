import PeerMail.Delivery.Pages
import PeerMail.Json.Text

/-!
# The account of a flush as JSON

Written as an object of six numbers.  Read from such an object, with its
members in any order and among unknown ones, or from an array of the six
numbers.
-/

namespace PeerMail.FlushReport

/-- The members in order. -/
def memberNames : List String := ["pages", "attempted", "direct", "relayed", "deleted", "pending"]

/-- The numbers in order. -/
def toList (report : FlushReport) : List Nat :=
  [report.pages, report.attempted, report.direct, report.relayed, report.deleted, report.pending]

/-- The account with six numbers. -/
def ofList? : List Nat → Option FlushReport
  | [pages, attempted, direct, relayed, deleted, pending] =>
      some ⟨pages, attempted, direct, relayed, deleted, pending⟩
  | _ => none

/-- The JSON text of an account, without blanks. -/
def toJson (report : FlushReport) : String :=
  let members := memberNames.zipWith
    (fun name value => "\"" ++ name ++ "\":" ++ toString value) report.toList
  "\x7b" ++ ",".intercalate members ++ "\x7d"

/-- Numbers are read up to this limit. -/
def numberLimit : Nat := Nat.pow 2 64

/-- The numbers of the rest of an array, and the text behind it. -/
def readNumbers : (count : Nat) → Json.Chars → Option (List Nat × Json.Chars)
  | 0, _ => none
  | 1, text => do
      let (value, rest) ← Json.readNat numberLimit text
      return ([value], ← Json.expect ']' rest)
  | count + 2, text => do
      let (value, rest) ← Json.readNat numberLimit text
      let (values, rest) ← readNumbers (count + 1) (← Json.expect ',' rest)
      return (value :: values, rest)

/-- One member of an object, put into its slot, and the text behind it. -/
def readMember (slots : List (Option Nat)) (text : Json.Chars) :
    Option (List (Option Nat) × Json.Chars) := do
  let (name, rest) ← Json.readString text
  let rest ← Json.expect ':' rest
  match memberNames.findIdx? (· == name) with
  | none => return (slots, ← Json.skipValue (rest.length + 1) rest)
  | some position =>
      let (value, rest) ← Json.readNat numberLimit rest
      match slots[position]? with
      | some none => return (slots.set position (some value), rest)
      | _ => none

/-- The members of the rest of an object that is not empty, and the text behind it. -/
def readMembers : (fuel : Nat) → List (Option Nat) → Json.Chars →
    Option (List (Option Nat) × Json.Chars)
  | 0, _, _ => none
  | fuel + 1, slots, text => do
      let (slots, rest) ← readMember slots text
      match Json.skipBlanks rest with
      | ',' :: rest => readMembers fuel slots rest
      | '\x7d' :: rest => return (slots, rest)
      | _ => none

/-- The account that a text holds, and nothing else. -/
def ofJson? (text : String) : Option FlushReport := do
  let chars := text.toList
  let (values, rest) ← match Json.skipBlanks chars with
    | '[' :: rest => readNumbers memberNames.length rest
    | '\x7b' :: rest => do
        let (slots, rest) ← readMembers chars.length (memberNames.map fun _ => none) rest
        pure (← slots.mapM id, rest)
    | _ => none
  if (Json.skipBlanks rest).isEmpty then ofList? values else none

end PeerMail.FlushReport
