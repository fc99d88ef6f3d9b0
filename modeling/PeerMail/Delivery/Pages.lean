import PeerMail.Identity

/-!
# Pages of the queue

A flush walks through the queue a page at a time and splits each page by
destination.  This file holds the split, the place in the walk, and the account
of what a flush did.
-/

namespace PeerMail

/-! ## Splitting by destination -/

/-- The items for one destination. -/
structure PeerGroup (Item : Type) where
  peer : PeerId
  items : List Item
deriving DecidableEq

/-- The groups with an item added: at the end of its group, or in a new group at the end. -/
def addToGroups {Item : Type} (peer : PeerId) (item : Item) :
    List (PeerGroup Item) → List (PeerGroup Item)
  | [] => [⟨peer, [item]⟩]
  | group :: rest =>
      if group.peer = peer then { group with items := group.items ++ [item] } :: rest
      else group :: addToGroups peer item rest

/-- The groups of items by destination, each group where its destination first appears. -/
def partitionByPeer {Item : Type} (destination : Item → PeerId) (items : List Item) :
    List (PeerGroup Item) :=
  items.foldl (fun groups item => addToGroups (destination item) item groups) []

/-! ## The place in the walk -/

/-- How many messages a page holds unless something else is asked for. -/
def defaultPageSize : Nat := 16

/-- Where a walk through the queue stands. -/
structure PageCursor where
  /-- The next page begins behind this message; at the start if there is none. -/
  after : Option MessageId
  pageSize : Nat
deriving DecidableEq

namespace PageCursor

/-- The start of a walk, with at least one message on a page. -/
def start (pageSize : Nat) : PageCursor := ⟨none, max pageSize 1⟩

/-- The greater of two names. -/
def later (a b : MessageId) : MessageId := if a.bytes < b.bytes then b else a

/-- The greatest of some names. -/
def latest : List MessageId → Option MessageId
  | [] => none
  | id :: rest => some (rest.foldl later id)

/-- Behind a page that has been dealt with; nothing if the page was empty. -/
def advance? (cursor : PageCursor) (page : List MessageId) : Option PageCursor :=
  (latest page).map fun id => { cursor with after := some id }

end PageCursor

/-! ## The account of a flush -/

/-- What a flush did. -/
structure FlushReport where
  pages : Nat := 0
  attempted : Nat := 0
  direct : Nat := 0
  relayed : Nat := 0
  deleted : Nat := 0
  pending : Nat := 0
deriving DecidableEq

namespace FlushReport

/-- Whether every attempted message left the queue and none is waiting. -/
def isDrained (report : FlushReport) : Bool :=
  report.pending == 0 && report.deleted == report.attempted

/-- One account of two flushes, of which `later` came last. -/
def andThen (first later : FlushReport) : FlushReport where
  pages := first.pages + later.pages
  attempted := first.attempted + later.attempted
  direct := first.direct + later.direct
  relayed := first.relayed + later.relayed
  deleted := first.deleted + later.deleted
  pending := later.pending

end FlushReport

end PeerMail
