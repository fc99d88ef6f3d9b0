import PeerMail.Bytes

/-!
# MessagePack values

The values of the MessagePack format, their written form and a reader that takes
one value off the front of a byte string.  Writing picks the shortest form;
reading takes every form.  A number keeps whether it stood behind a signed
marker, because names of fields may not.
-/

namespace PeerMail.MessagePack

/-- A value of the format. -/
inductive Value where
  | nil
  | bool (value : Bool)
  /-- A number behind an unsigned marker. -/
  | unsigned (value : Nat)
  /-- A number behind a signed marker. -/
  | signed (value : Int)
  /-- A floating-point number, as its four or eight bytes. -/
  | float (bytes : Bytes)
  /-- A text, as its bytes, which need not be well formed. -/
  | text (bytes : Bytes)
  | binary (bytes : Bytes)
  | array (items : List Value)
  | map (entries : List (Value × Value))
  | extension (tag : UInt8) (bytes : Bytes)
deriving Inhabited

namespace Value

/-! ## Nesting -/

mutual

/-- How many containers stand inside one another; zero for a plain value. -/
def depth : Value → Nat
  | array items => depthItems items + 1
  | map entries => depthEntries entries + 1
  | extension _ _ => 1
  | _ => 0

/-- The greatest depth in a list. -/
def depthItems : List Value → Nat
  | [] => 0
  | item :: rest => max item.depth (depthItems rest)

/-- The greatest depth in a list of entries. -/
def depthEntries : List (Value × Value) → Nat
  | [] => 0
  | (key, value) :: rest => max (max key.depth value.depth) (depthEntries rest)

end

/-! ## Writing -/

/-- A length or number in the first form it fits: inside the marker, or behind a marker with 1,
2, 4 or 8 bytes. -/
def header (short : Nat → Option UInt8) (wide : List (Nat × UInt8)) (value : Nat) : Bytes :=
  match short value with
  | some marker => [marker]
  | none =>
      match wide.find? fun form => decide (value < Nat.pow 256 form.1) with
      | some (width, marker) => marker :: Bytes.ofNatBE width value
      | none => []

/-- Short forms: `count` markers from `first` on. -/
def shortForm (count first : Nat) (value : Nat) : Option UInt8 :=
  if value < count then some (UInt8.ofNat (first + value)) else none

/-- An unsigned number. -/
def unsignedHeader : Nat → Bytes :=
  header (shortForm 128 0) [(1, 0xcc), (2, 0xcd), (4, 0xce), (8, 0xcf)]

/-- The start of a text. -/
def textHeader : Nat → Bytes := header (shortForm 32 0xa0) [(1, 0xd9), (2, 0xda), (4, 0xdb)]

/-- The start of a byte string. -/
def binaryHeader : Nat → Bytes := header (fun _ => none) [(1, 0xc4), (2, 0xc5), (4, 0xc6)]

/-- The start of an array. -/
def arrayHeader : Nat → Bytes := header (shortForm 16 0x90) [(2, 0xdc), (4, 0xdd)]

/-- The start of a map. -/
def mapHeader : Nat → Bytes := header (shortForm 16 0x80) [(2, 0xde), (4, 0xdf)]

/-- A signed number in the least width that holds it. -/
def signedForm (value : Int) : Bytes :=
  let fits (width : Nat) : Bool :=
    let half : Int := Nat.pow 256 width / 2
    decide (-half ≤ value ∧ value < half)
  let wide (width : Nat) : Bytes := Bytes.ofNatBE width (value % Nat.pow 256 width).toNat
  if -32 ≤ value ∧ value < 0 then [UInt8.ofNat (256 + value).toNat]
  else if fits 1 then 0xd0 :: wide 1
  else if fits 2 then 0xd1 :: wide 2
  else if fits 4 then 0xd2 :: wide 4
  else 0xd3 :: wide 8

/-- The start of an extension: five lengths have markers of their own. -/
def extensionHeader (size : Nat) : Bytes :=
  match size with
  | 1 => [0xd4]
  | 2 => [0xd5]
  | 4 => [0xd6]
  | 8 => [0xd7]
  | 16 => [0xd8]
  | _ => header (fun _ => none) [(1, 0xc7), (2, 0xc8), (4, 0xc9)] size

mutual

/-- The written form of a value. -/
def write : Value → Bytes
  | nil => [0xc0]
  | bool value => [if value then 0xc3 else 0xc2]
  | unsigned value => unsignedHeader value
  | signed value => signedForm value
  | float bytes => (if bytes.length = 4 then 0xca else 0xcb) :: bytes
  | text bytes => textHeader bytes.length ++ bytes
  | binary bytes => binaryHeader bytes.length ++ bytes
  | array items => arrayHeader items.length ++ writeItems items
  | map entries => mapHeader entries.length ++ writeEntries entries
  | extension tag bytes => extensionHeader bytes.length ++ tag :: bytes

/-- The written forms of a list, one after the other. -/
def writeItems : List Value → Bytes
  | [] => []
  | item :: rest => item.write ++ writeItems rest

/-- The written forms of a list of entries, each a key and a value. -/
def writeEntries : List (Value × Value) → Bytes
  | [] => []
  | (key, value) :: rest => key.write ++ value.write ++ writeEntries rest

end

/-! ## Reading -/

/-- The first `count` bytes, if there are as many, and the rest. -/
def takeBytes (count : Nat) (bytes : Bytes) : Option (Bytes × Bytes) :=
  let (front, rest) := bytes.splitAt count
  if front.length = count then some (front, rest) else none

/-- A number of `width` bytes and the rest. -/
def takeNat (width : Nat) (bytes : Bytes) : Option (Nat × Bytes) := do
  let (digits, rest) ← takeBytes width bytes
  return (Bytes.toNatBE digits, rest)

/-- A number of `width` bytes in two's complement and the rest. -/
def takeInt (width : Nat) (bytes : Bytes) : Option (Int × Bytes) := do
  let (value, rest) ← takeNat width bytes
  return (if value < Nat.pow 256 width / 2 then (value : Int) else value - Nat.pow 256 width, rest)

/-- As many readings as asked for, each of what the one before left. -/
def takeMany {α : Type} (item : Bytes → Option (α × Bytes)) : Nat → Bytes → Option (List α × Bytes)
  | 0, bytes => some ([], bytes)
  | count + 1, bytes => do
      let (first, rest) ← item bytes
      let (others, rest) ← takeMany item count rest
      return (first :: others, rest)

/-- A key and its value. -/
def takeEntry {α : Type} (item : Bytes → Option (α × Bytes)) (bytes : Bytes) :
    Option ((α × α) × Bytes) := do
  let (key, rest) ← item bytes
  let (value, rest) ← item rest
  return ((key, value), rest)

/-- An extension with data of the given length. -/
def takeExtension (size : Nat) (bytes : Bytes) : Option (Value × Bytes) := do
  let (tag, rest) ← takeNat 1 bytes
  let (data, rest) ← takeBytes size rest
  return (extension (UInt8.ofNat tag) data, rest)

/-- The value behind its marker, if it is no container. -/
def takePlain (marker : Nat) (bytes : Bytes) : Option (Value × Bytes) :=
  let number (width : Nat) : Option (Value × Bytes) := do
    let (value, rest) ← takeNat width bytes
    return (unsigned value, rest)
  let integer (width : Nat) : Option (Value × Bytes) := do
    let (value, rest) ← takeInt width bytes
    return (signed value, rest)
  let sized (make : Bytes → Value) (width : Nat) : Option (Value × Bytes) := do
    let (size, rest) ← takeNat width bytes
    let (data, rest) ← takeBytes size rest
    return (make data, rest)
  let real (width : Nat) : Option (Value × Bytes) := do
    let (data, rest) ← takeBytes width bytes
    return (float data, rest)
  if marker < 0x80 then some (unsigned marker, bytes)
  else if 0xe0 ≤ marker then some (signed ((marker : Int) - 256), bytes)
  else if 0xa0 ≤ marker ∧ marker < 0xc0 then do
    let (data, rest) ← takeBytes (marker - 0xa0) bytes
    return (text data, rest)
  else
    match marker with
    | 0xc0 => some (nil, bytes)
    | 0xc2 => some (bool false, bytes)
    | 0xc3 => some (bool true, bytes)
    | 0xc4 => sized binary 1
    | 0xc5 => sized binary 2
    | 0xc6 => sized binary 4
    | 0xca => real 4
    | 0xcb => real 8
    | 0xcc => number 1
    | 0xcd => number 2
    | 0xce => number 4
    | 0xcf => number 8
    | 0xd0 => integer 1
    | 0xd1 => integer 2
    | 0xd2 => integer 4
    | 0xd3 => integer 8
    | 0xd9 => sized text 1
    | 0xda => sized text 2
    | 0xdb => sized text 4
    | _ => none

/-- What a marker announces: an array or map with a number of members, an extension with a
number of bytes, or a plain value. -/
inductive Shape where
  | array (count : Nat)
  | map (count : Nat)
  | extension (size : Nat)
  | plain

/-- The shape behind a marker, with the bytes after its length. -/
def takeShape (marker : Nat) (bytes : Bytes) : Option (Shape × Bytes) :=
  let counted (make : Nat → Shape) (width : Nat) : Option (Shape × Bytes) := do
    let (count, rest) ← takeNat width bytes
    return (make count, rest)
  if 0x80 ≤ marker ∧ marker < 0x90 then some (.map (marker - 0x80), bytes)
  else if 0x90 ≤ marker ∧ marker < 0xa0 then some (.array (marker - 0x90), bytes)
  else
    match marker with
    | 0xdc => counted .array 2
    | 0xdd => counted .array 4
    | 0xde => counted .map 2
    | 0xdf => counted .map 4
    | 0xc7 => counted .extension 1
    | 0xc8 => counted .extension 2
    | 0xc9 => counted .extension 4
    | 0xd4 => some (.extension 1, bytes)
    | 0xd5 => some (.extension 2, bytes)
    | 0xd6 => some (.extension 4, bytes)
    | 0xd7 => some (.extension 8, bytes)
    | 0xd8 => some (.extension 16, bytes)
    | _ => some (.plain, bytes)

/-- One value off the front.  The members of an array or map are read by `nested`, without which
no container may be entered. -/
def takeWith (nested : Option (Bytes → Option (Value × Bytes))) : Bytes → Option (Value × Bytes)
  | [] => none
  | marker :: bytes => do
      let (shape, rest) ← takeShape marker.toNat bytes
      match shape, nested with
      | .plain, _ => takePlain marker.toNat rest
      | _, none => none
      | .extension size, some _ => takeExtension size rest
      | .array count, some item =>
          let (items, rest) ← takeMany item count rest
          return (array items, rest)
      | .map count, some item =>
          let (entries, rest) ← takeMany (takeEntry item) count rest
          return (map entries, rest)

/-- One value off the front, with at most `levels` containers inside one another. -/
def take : (levels : Nat) → Bytes → Option (Value × Bytes)
  | 0 => takeWith none
  | levels + 1 => takeWith (some (take levels))

/-- The number of containers inside one another that a reader follows. -/
def maxLevels : Nat := 1024

/-- The first value of a byte string; what comes after it is ignored. -/
def read? (bytes : Bytes) : Option Value := (take maxLevels bytes).map (·.1)

end Value

end PeerMail.MessagePack
