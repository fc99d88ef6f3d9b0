import PeerMail.MessagePack.Value
import PeerMail.Text.Utf8

/-!
# Records, lists and choices in MessagePack

What a value means where a number, a text, a list, a record or one of several
alternatives is expected.  A record is written as the array of its members;
it is also read from a map of member names or positions to values, in any
order and among unknown members, and from a byte string, whose bytes are then
the members.  A list is also read from a byte string.

Members that are unknown are skipped, but not if they are nested too deep:
`room` is the number of containers that may still stand inside one another.
-/

namespace PeerMail.MessagePack.Value

/-! ## Plain values -/

/-- A number below a limit, behind any marker for integers. -/
def nat? (limit : Nat) : Value → Option Nat
  | unsigned value => if value < limit then some value else none
  | signed value => if 0 ≤ value ∧ value < limit then some value.toNat else none
  | _ => none

/-- A byte. -/
def byte? (value : Value) : Option UInt8 := (value.nat? 256).map UInt8.ofNat

/-- A text, also from a byte string. -/
def string? : Value → Option String
  | text bytes => Utf8.decode? bytes
  | binary bytes => Utf8.decode? bytes
  | _ => none

/-- The value of a text. -/
def ofString (string : String) : Value := text (Utf8.encode string)

/-! ## Lists -/

/-- Every byte as a number. -/
def bytesAsItems (bytes : Bytes) : List Value := bytes.map fun byte => unsigned byte.toNat

/-- The members of a list. -/
def list? : Value → Option (List Value)
  | array items => some items
  | binary bytes => some (bytesAsItems bytes)
  | _ => none

/-- A list of bytes. -/
def bytes? (value : Value) : Option Bytes := do (← value.list?).mapM byte?

/-- The value of a byte string: the array of its bytes. -/
def ofBytes (bytes : Bytes) : Value := array (bytesAsItems bytes)

/-- The first members of a list of known size: an array has to have just as many, a byte string
may be longer. -/
def members? (size : Nat) : Value → Option (List Value)
  | array items => if items.length = size then some items else none
  | binary bytes => if size ≤ bytes.length then some (bytesAsItems (bytes.take size)) else none
  | _ => none

/-- A byte string of known size. -/
def exactBytes? (size : Nat) (value : Value) : Option Bytes := do
  (← value.members? size).mapM byte?

/-! ## Names -/

/-- Which of the names a key stands for: a text or byte string is a name, a number a position.
The inner result is empty for an unknown name; other keys are refused. -/
def position? (names : List String) : Value → Option (Option Nat)
  | text bytes => some (names.findIdx? fun name => Bytes.ofAscii name == bytes)
  | binary bytes => some (names.findIdx? fun name => Bytes.ofAscii name == bytes)
  | unsigned value => some (if value < names.length then some value else none)
  | _ => none

/-! ## Records -/

/-- Puts the entries of a map into the slots of a record.  A name may not occur twice. -/
def fillSlots (names : List String) (room : Nat) :
    List (Value × Value) → List (Option Value) → Option (List (Option Value))
  | [], slots => some slots
  | (key, value) :: rest, slots =>
      match position? names key with
      | none => none
      | some none => if value.depth ≤ room then fillSlots names room rest slots else none
      | some (some position) =>
          match slots[position]? with
          | some none => fillSlots names room rest (slots.set position (some value))
          | _ => none

/-- The members of a record, in the order of their names; a map may leave some out. -/
def record? (names : List String) (room : Nat) : Value → Option (List (Option Value))
  | map entries => fillSlots names room entries (names.map fun _ => none)
  | value => (value.members? names.length).map fun items => items.map some

/-! ## Choices -/

/-- The alternative that a value names, and its content if it is given as a map of one entry. -/
def choice? (names : List String) (value : Value) : Option (Nat × Option Value) :=
  match value with
  | map [(key, content)] => do return (← (← position? names key), some content)
  | map _ => none
  | key => do return (← (← position? names key), none)

/-- The value of an alternative with content. -/
def ofChoice (name : String) (content : Value) : Value := map [(ofString name, content)]

end PeerMail.MessagePack.Value
