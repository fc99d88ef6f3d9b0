import PeerMail.Delivery.Pages
import PeerMail.Store.Database
import PeerMail.Toml.Document

/-!
# Settings of a node

Where the database is and how the outbound queue is flushed, read from a TOML
document.  Every member may be left out and unknown ones are passed over; a
section may also be the array of its members in order.
-/

namespace PeerMail

open Toml (Item)

/-- Where the database is. -/
structure StorageSettings where
  database : String := "threadpost.db"
deriving DecidableEq

/-- Whether the database lives in memory only. -/
def StorageSettings.isInMemory (settings : StorageSettings) : Bool :=
  settings.database == Database.inMemoryPath

/-- How the outbound queue is flushed. -/
structure OutboxSettings where
  pageSize : Nat := defaultPageSize
  /-- The seconds between two flushes. -/
  flushInterval : Nat := 60
  flushEnabled : Bool := true
deriving DecidableEq

/-- The settings of a node. -/
structure Settings where
  storage : StorageSettings := {}
  outbox : OutboxSettings := {}
deriving DecidableEq

/-- Why settings cannot be had. -/
inductive SettingsError where
  | unreadable
  | malformed
deriving DecidableEq

namespace Settings

/-- Settings with a database in memory. -/
def inMemory : Settings := { storage := ⟨Database.inMemoryPath⟩ }

/-! ## Members -/

/-- The members of a section by name, or in order if the section is an array.  A date stands for
a section of unknown members. -/
def sectionMembers (names : List String) : Item → Option (List (Option Item))
  | .inline members => some (names.map fun name => members.lookup name)
  | .table _ members => some (names.map fun name => members.lookup name)
  | .moment => some (names.map fun _ => none)
  | .array items => some ((List.range names.length).map fun position => items[position]?)
  | .tables list => some ((List.range names.length).map fun position =>
      (list[position]?).map fun members => .table .header members)
  | _ => none

/-- A member that may be left out. -/
def orDefault {α : Type} (read : Item → Option α) (default : α) : Option Item → Option α
  | none => some default
  | some item => read item

/-- A text. -/
def string? : Item → Option String
  | .string value => some value
  | _ => none

/-- A number that is not negative. -/
def nat? : Item → Option Nat
  | .integer value => if 0 ≤ value then some value.toNat else none
  | _ => none

/-- A truth value. -/
def bool? : Item → Option Bool
  | .boolean value => some value
  | _ => none

/-! ## Sections -/

/-- The section about the database. -/
def storage? (item : Item) : Option StorageSettings := do
  match ← sectionMembers ["database"] item with
  | [database] => return ⟨← orDefault string? "threadpost.db" database⟩
  | _ => none

/-- The section about the outbound queue. -/
def outbox? (item : Item) : Option OutboxSettings := do
  match ← sectionMembers ["page_size", "flush_interval_secs", "flush_enabled"] item with
  | [pageSize, flushInterval, flushEnabled] =>
      return ⟨← orDefault nat? defaultPageSize pageSize, ← orDefault nat? 60 flushInterval,
        ← orDefault bool? true flushEnabled⟩
  | _ => none

/-- The settings in a document. -/
def parse (text : String) : Except SettingsError Settings :=
  let found : Option Settings := do
    let members ← Toml.document? text
    return ⟨← orDefault storage? {} (members.lookup "storage"),
      ← orDefault outbox? {} (members.lookup "outbox")⟩
  match found with
  | some settings => .ok settings
  | none => .error .malformed

/-- The settings in the bytes of a file, if there is one. -/
def load (file : Option Bytes) : Except SettingsError Settings :=
  match file.bind Utf8.decode? with
  | some text => parse text
  | none => .error .unreadable

end Settings

end PeerMail
