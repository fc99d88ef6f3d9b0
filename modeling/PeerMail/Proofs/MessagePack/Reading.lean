import PeerMail.MessagePack.Record
import Mathlib.Algebra.Group.Int.Defs
import Mathlib.Algebra.Group.Nat.Defs

/-!
# What a reader of values depends on

A reader that finds a value at the front of a byte string finds the same value
when more bytes follow, and it leaves just those bytes over.  The value that it
finds has a written form of its own (`Value.Sized`): numbers are below `2 ^ 64`
and lengths below `2 ^ 32`, because that is what the markers have room for.

Both facts are carried together through the readers (`Reads`), one lemma for each
way of putting readers together, and `reads_take` is the induction over the levels
of nesting.
-/

namespace PeerMail.MessagePack

namespace Value

/-- The value has a written form: each number and each length fits its marker. -/
inductive Sized : Value → Prop where
  | nil : Sized .nil
  | bool {value : Bool} : Sized (.bool value)
  | unsigned {value : Nat} (bound : value < 2 ^ 64) : Sized (.unsigned value)
  | signed {value : Int} (low : -2 ^ 63 ≤ value) (high : value < 2 ^ 63) : Sized (.signed value)
  | float {bytes : Bytes} (width : bytes.length = 4 ∨ bytes.length = 8) : Sized (.float bytes)
  | text {bytes : Bytes} (bound : bytes.length < 2 ^ 32) : Sized (.text bytes)
  | binary {bytes : Bytes} (bound : bytes.length < 2 ^ 32) : Sized (.binary bytes)
  | array {items : List Value} (bound : items.length < 2 ^ 32)
      (members : ∀ item ∈ items, Sized item) : Sized (.array items)
  | map {entries : List (Value × Value)} (bound : entries.length < 2 ^ 32)
      (keys : ∀ entry ∈ entries, Sized entry.1) (values : ∀ entry ∈ entries, Sized entry.2) :
      Sized (.map entries)
  | extension {tag : UInt8} {bytes : Bytes} (bound : bytes.length < 2 ^ 32) :
      Sized (.extension tag bytes)

/-- What a reader finds has the property, and is found whatever comes after it. -/
def Reads {α : Type} (Good : α → Prop) (reader : Bytes → Option (α × Bytes)) : Prop :=
  ∀ bytes value rest, reader bytes = some (value, rest) →
    Good value ∧ ∀ tail, reader (bytes ++ tail) = some (value, rest ++ tail)

variable {α β : Type} {Good : α → Prop} {Fine : β → Prop}

/-! ## Putting readers together -/

theorem reads_pure {value : α} (h : Good value) : Reads Good fun bytes => some (value, bytes) := by
  intro bytes found rest heq
  cases heq
  exact ⟨h, fun tail => rfl⟩

theorem reads_none : Reads Good fun _ => none := by
  intro bytes found rest heq
  cases heq

theorem reads_bind {first : Bytes → Option (α × Bytes)} {next : α × Bytes → Option (β × Bytes)}
    (hfirst : Reads Good first)
    (hnext : ∀ value, Good value → Reads Fine fun bytes => next (value, bytes)) :
    Reads Fine fun bytes => first bytes >>= next := by
  intro bytes value rest hread
  obtain ⟨⟨found, middle⟩, hfound, hrest⟩ := Option.bind_eq_some_iff.mp hread
  obtain ⟨hgood, hsame⟩ := hfirst _ _ _ hfound
  obtain ⟨hfine, hafter⟩ := hnext found hgood _ _ _ hrest
  refine ⟨hfine, fun tail => Option.bind_eq_some_iff.mpr ⟨(found, middle ++ tail), hsame tail, ?_⟩⟩
  exact hafter tail

theorem reads_ite {condition : Prop} [Decidable condition]
    {left right : Bytes → Option (α × Bytes)} (hleft : condition → Reads Good left)
    (hright : ¬ condition → Reads Good right) :
    Reads Good fun bytes => if condition then left bytes else right bytes := by
  by_cases h : condition
  · simpa only [if_pos h] using hleft h
  · simpa only [if_neg h] using hright h

/-! ## The readers -/

theorem takeBytes_eq_some_iff {count : Nat} {bytes front rest : Bytes} :
    takeBytes count bytes = some (front, rest) ↔ bytes = front ++ rest ∧ front.length = count := by
  simp only [takeBytes, List.splitAt_eq]
  constructor
  · intro h
    split at h
    · next hlength =>
        obtain ⟨rfl, rfl⟩ := Prod.mk.inj (Option.some.inj h)
        exact ⟨(List.take_append_drop count bytes).symm, hlength⟩
    · cases h
  · rintro ⟨rfl, rfl⟩
    simp

theorem reads_takeBytes (count : Nat) :
    Reads (fun front : Bytes => front.length = count) (takeBytes count) := by
  intro bytes front rest h
  obtain ⟨rfl, hlength⟩ := takeBytes_eq_some_iff.mp h
  refine ⟨hlength, fun tail => takeBytes_eq_some_iff.mpr ⟨?_, hlength⟩⟩
  exact List.append_assoc front rest tail

theorem reads_takeNat (width : Nat) : Reads (fun value => value < 256 ^ width) (takeNat width) := by
  refine reads_bind (reads_takeBytes width) fun digits hlength => reads_pure ?_
  have hbound := Bytes.toNatLE_lt digits.reverse
  rw [List.length_reverse, hlength] at hbound
  exact hbound

theorem reads_takeInt {width : Nat} (hwidth : width ≠ 0) :
    Reads (fun value : Int => -(256 ^ width / 2 : Nat) ≤ value ∧ value < (256 ^ width / 2 : Nat))
      (takeInt width) := by
  refine reads_bind (reads_takeNat width) fun value hbound => reads_pure ?_
  have heven : 256 ^ width % 2 = 0 := by
    obtain ⟨width, rfl⟩ := Nat.exists_eq_succ_of_ne_zero hwidth
    omega
  simp only [Nat.pow_eq]
  split <;> omega

theorem reads_takeMany {item : Bytes → Option (α × Bytes)} (hitem : Reads Good item) (count : Nat) :
    Reads (fun items : List α => items.length = count ∧ ∀ value ∈ items, Good value)
      (takeMany item count) := by
  induction count with
  | zero => exact reads_pure ⟨rfl, by simp⟩
  | succ count ih =>
      refine reads_bind hitem fun first hfirst => reads_bind ih fun others hothers => ?_
      refine reads_pure ⟨by simp [hothers.1], ?_⟩
      simpa using ⟨hfirst, hothers.2⟩

theorem reads_takeEntry {item : Bytes → Option (α × Bytes)} (hitem : Reads Good item) :
    Reads (fun entry : α × α => Good entry.1 ∧ Good entry.2) (takeEntry item) :=
  reads_bind hitem fun _ hkey => reads_bind hitem fun _ hvalue => reads_pure ⟨hkey, hvalue⟩

theorem reads_takeExtension {size : Nat} (hsize : size < 2 ^ 32) :
    Reads Sized (takeExtension size) :=
  reads_bind (reads_takeNat 1) fun _ _ => reads_bind (reads_takeBytes size) fun _ hlength =>
    reads_pure (.extension (hlength ▸ hsize))

/-- A length of a given width, and as many bytes. -/
theorem reads_sized {make : Bytes → Value} {width : Nat} (hwidth : width ≤ 4)
    (hmake : ∀ bytes : Bytes, bytes.length < 2 ^ 32 → (make bytes).Sized) :
    Reads Sized fun bytes => do
      let (size, rest) ← takeNat width bytes
      let (data, rest) ← takeBytes size rest
      return (make data, rest) := by
  refine reads_bind (reads_takeNat width) fun size hsize =>
    reads_bind (reads_takeBytes size) fun data hlength => reads_pure (hmake data ?_)
  have hpower : 256 ^ width ≤ 256 ^ 4 := Nat.pow_le_pow_right (by decide) hwidth
  omega

theorem reads_number {width : Nat} (hwidth : width ≤ 8) :
    Reads Sized fun bytes => do
      let (value, rest) ← takeNat width bytes
      return (unsigned value, rest) := by
  refine reads_bind (reads_takeNat width) fun value hvalue => reads_pure (.unsigned ?_)
  have hpower : 256 ^ width ≤ 256 ^ 8 := Nat.pow_le_pow_right (by decide) hwidth
  omega

theorem reads_integer {width : Nat} (hpositive : width ≠ 0) (hwidth : width ≤ 8) :
    Reads Sized fun bytes => do
      let (value, rest) ← takeInt width bytes
      return (signed value, rest) := by
  refine reads_bind (reads_takeInt hpositive) fun value hvalue => reads_pure ?_
  have hpower : 256 ^ width ≤ 256 ^ 8 := Nat.pow_le_pow_right (by decide) hwidth
  exact .signed (by omega) (by omega)

theorem reads_real {width : Nat} (hwidth : width = 4 ∨ width = 8) :
    Reads Sized fun bytes => do
      let (data, rest) ← takeBytes width bytes
      return (float data, rest) :=
  reads_bind (reads_takeBytes width) fun _ hlength => reads_pure (.float (hlength ▸ hwidth))

theorem reads_takePlain {marker : Nat} (hmarker : marker < 256) :
    Reads Sized (takePlain marker) := by
  refine reads_ite (fun hsmall => reads_pure (.unsigned (by omega))) fun _ => ?_
  refine reads_ite (fun hnegative => reads_pure (.signed (by omega) (by omega))) fun _ => ?_
  refine reads_ite (fun htext => ?_) fun _ => ?_
  · exact reads_bind (reads_takeBytes _) fun data hlength => reads_pure (.text (by omega))
  intro bytes value rest
  dsimp only
  split
  · exact reads_pure .nil bytes value rest
  · exact reads_pure .bool bytes value rest
  · exact reads_pure .bool bytes value rest
  · exact reads_sized (by decide) (fun _ => .binary) bytes value rest
  · exact reads_sized (by decide) (fun _ => .binary) bytes value rest
  · exact reads_sized (by decide) (fun _ => .binary) bytes value rest
  · exact reads_real (.inl rfl) bytes value rest
  · exact reads_real (.inr rfl) bytes value rest
  · exact reads_number (by decide) bytes value rest
  · exact reads_number (by decide) bytes value rest
  · exact reads_number (by decide) bytes value rest
  · exact reads_number (by decide) bytes value rest
  · exact reads_integer (by decide) (by decide) bytes value rest
  · exact reads_integer (by decide) (by decide) bytes value rest
  · exact reads_integer (by decide) (by decide) bytes value rest
  · exact reads_integer (by decide) (by decide) bytes value rest
  · exact reads_sized (by decide) (fun _ => .text) bytes value rest
  · exact reads_sized (by decide) (fun _ => .text) bytes value rest
  · exact reads_sized (by decide) (fun _ => .text) bytes value rest
  · exact reads_none bytes value rest

/-- The number of members or bytes that a shape announces. -/
def Shape.size : Shape → Nat
  | .array count | .map count => count
  | .extension size => size
  | .plain => 0

theorem reads_counted {make : Nat → Shape} {width : Nat} (hwidth : width ≤ 4)
    (hmake : ∀ count, (make count).size = count) :
    Reads (fun shape : Shape => shape.size < 2 ^ 32) fun bytes => do
      let (count, rest) ← takeNat width bytes
      return (make count, rest) := by
  refine reads_bind (reads_takeNat width) fun count hcount => reads_pure ?_
  have hpower : 256 ^ width ≤ 256 ^ 4 := Nat.pow_le_pow_right (by decide) hwidth
  rw [hmake]
  omega

theorem reads_announced {shape : Shape} (h : shape.size < 2 ^ 32) :
    Reads (fun shape : Shape => shape.size < 2 ^ 32) fun bytes => some (shape, bytes) :=
  reads_pure h

theorem reads_takeShape {marker : Nat} (hmarker : marker < 256) :
    Reads (fun shape : Shape => shape.size < 2 ^ 32) (takeShape marker) := by
  refine reads_ite (fun hmap => reads_announced ?_) fun _ => ?_
  · show marker - 0x80 < 2 ^ 32
    omega
  refine reads_ite (fun harray => reads_announced ?_) fun _ => ?_
  · show marker - 0x90 < 2 ^ 32
    omega
  intro bytes shape rest
  dsimp only
  split
  · exact reads_counted (by decide) (fun _ => rfl) bytes shape rest
  · exact reads_counted (by decide) (fun _ => rfl) bytes shape rest
  · exact reads_counted (by decide) (fun _ => rfl) bytes shape rest
  · exact reads_counted (by decide) (fun _ => rfl) bytes shape rest
  · exact reads_counted (by decide) (fun _ => rfl) bytes shape rest
  · exact reads_counted (by decide) (fun _ => rfl) bytes shape rest
  · exact reads_counted (by decide) (fun _ => rfl) bytes shape rest
  all_goals exact reads_announced (by decide) bytes shape rest

/-! ## Whole values -/

theorem reads_takeWith {nested : Option (Bytes → Option (Value × Bytes))}
    (hnested : ∀ item, nested = some item → Reads Sized item) : Reads Sized (takeWith nested) := by
  intro bytes value rest
  cases bytes with
  | nil => exact fun h => nomatch h
  | cons marker bytes =>
      have hmarker : marker.toNat < 256 := marker.toNat_lt
      refine reads_bind (reads_takeShape hmarker) (fun shape hshape => ?_) bytes value rest
      cases nested with
      | none =>
          cases shape with
          | plain => exact reads_takePlain hmarker
          | array | map | extension => exact reads_none
      | some item =>
          have hitem := hnested item rfl
          cases shape with
          | plain => exact reads_takePlain hmarker
          | array count =>
              refine reads_bind (reads_takeMany hitem count) fun items hitems => reads_pure ?_
              exact .array (hitems.1 ▸ hshape) hitems.2
          | map count =>
              refine reads_bind (reads_takeMany (reads_takeEntry hitem) count)
                fun entries hentries => reads_pure ?_
              exact .map (hentries.1 ▸ hshape) (fun entry hentry => (hentries.2 entry hentry).1)
                fun entry hentry => (hentries.2 entry hentry).2
          | extension size => exact reads_takeExtension hshape

/-- Induction on the levels of nesting that may still be entered. -/
theorem reads_take (levels : Nat) : Reads Sized (take levels) := by
  induction levels with
  | zero => exact reads_takeWith fun _ h => nomatch h
  | succ levels ih =>
      refine reads_takeWith fun item hitem => ?_
      obtain rfl := Option.some.inj hitem
      exact ih

theorem read?_append {bytes : Bytes} {value : Value} (h : read? bytes = some value)
    (tail : Bytes) : read? (bytes ++ tail) = some value := by
  obtain ⟨⟨found, rest⟩, hfound, rfl⟩ := Option.map_eq_some_iff.mp h
  rw [read?, (reads_take maxLevels _ _ _ hfound).2 tail]
  rfl

theorem sized_of_read? {bytes : Bytes} {value : Value} (h : read? bytes = some value) :
    value.Sized := by
  obtain ⟨⟨found, rest⟩, hfound, rfl⟩ := Option.map_eq_some_iff.mp h
  exact (reads_take maxLevels _ _ _ hfound).1

end Value

end PeerMail.MessagePack
