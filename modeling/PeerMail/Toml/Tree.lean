/-!
# Trees of TOML items

A document is a tree of tables.  A table remembers how it came about, because
that decides what may still be added to it: one under its own header is
complete, one that only leads to others may get its header later, and one made
by dotted keys grows by dotted keys alone.
-/

namespace PeerMail.Toml

/-- How a table came about. -/
inductive Form where
  /-- It has a header, or is the document itself. -/
  | header
  /-- It lies on the way to a table with a header. -/
  | implied
  /-- It lies on the way of a dotted key. -/
  | dotted
deriving DecidableEq

/-- An item of a document. -/
inductive Item where
  | string (value : String)
  | integer (value : Int)
  | float
  | boolean (value : Bool)
  /-- A date, a time or both. -/
  | moment
  | array (items : List Item)
  /-- A table written as a value, which is complete. -/
  | inline (members : List (String × Item))
  | table (form : Form) (members : List (String × Item))
  /-- An array of tables under headers, the last one still open. -/
  | tables (list : List (List (String × Item)))
deriving Inhabited

/-- The members of a table, in the order of their writing. -/
abbrev Members := List (String × Item)

/-- The names on the way to an item. -/
abbrev Path := List String

namespace Members

/-- The members with one of them changed. -/
def set (members : Members) (name : String) (item : Item) : Members :=
  members.map fun member => if member.1 = name then (name, item) else member

/-- Goes down a path from a table and changes the table at its end.  Tables that are not there are
made; the last of an array of tables is entered; `dotted` paths do not enter tables with a
header. -/
def change (dotted : Bool) (edit : Form → Members → Option Members) :
    Form → Members → Path → Option Members
  | form, members, [] => edit form members
  | _, members, name :: path =>
      match members.lookup name with
      | none =>
          let form := if dotted then .dotted else .implied
          (change dotted edit form [] path).map fun inner =>
            members ++ [(name, .table form inner)]
      | some (.table form inner) =>
          if dotted && form = .header then none
          else (change dotted edit form inner path).map fun inner =>
            members.set name (.table form inner)
      | some (.tables list) =>
          match list.getLast? with
          | none => none
          | some inner =>
              (change dotted edit .header inner path).map fun inner =>
                members.set name (.tables (list.dropLast ++ [inner]))
      | some _ => none

/-- Adds an item at a path below a table.  The name has to be new, and a table on the way has to
have been made by dotted keys. -/
def add (path : Path) (name : String) (item : Item) (form : Form) (members : Members) :
    Option Members :=
  change true
    (fun form inner =>
      if (form = .dotted) = path.isEmpty then none
      else if (inner.lookup name).isSome then none
      else some (inner ++ [(name, item)]))
    form members path

/-- Opens the table of a header: one that is new, or was only implied. -/
def openTable (path : Path) (name : String) (members : Members) : Option Members :=
  change false
    (fun _ inner =>
      match inner.lookup name with
      | none => some (inner ++ [(name, .table .header [])])
      | some (.table .implied below) => some (inner.set name (.table .header below))
      | some _ => none)
    .header members path

/-- Opens a further table of an array of tables. -/
def openNext (path : Path) (name : String) (members : Members) : Option Members :=
  change false
    (fun _ inner =>
      match inner.lookup name with
      | none => some (inner ++ [(name, .tables [[]])])
      | some (.tables list) => some (inner.set name (.tables (list ++ [[]])))
      | some _ => none)
    .header members path

end Members

end PeerMail.Toml
