import PeerMail.Proofs.Delivery.Completeness
import PeerMail.Proofs.Delivery.Contents

/-!
# Undecodable rows in the way of a reading

A reading sets undecodable rows aside as it meets them, and each of these writes may
fail.  Here they may fail in any pattern: `Refusals` says of every moment which of them
fail, and `Database.listing` is the reading under such refusals.  It reads page after page
without a bound on their number, and keeps a record of the writes that were tried.  Without
refusals it is what `listMessages` does (`listFrom_eq_listing`).

What carries the argument is that a reading goes through a first part of the rows behind its
bound, wherever it ends (`Covers`).  The undecodable rows of that part have been moved,
and nothing else has; the result is the messages of the part, or the fault of the one write
that failed.  So pages that follow each other cover longer and longer parts, and as each of
them shortens what lies behind the bound, there is a last one.
-/

namespace PeerMail

/-- Which writes to the rows set aside are refused, and why.  This may depend on all that the
database holds at the time. -/
abbrev Refusals : Type := Database → Bytes → Option StorageError

/-- Nothing is refused but what the database refuses itself. -/
def Refusals.never : Refusals := fun _ _ => none

/-- What a reading comes to, with the outcome of every write that was tried. -/
structure Sifted where
  attempts : List (Except StorageError Database)
  result : Except StorageError (List QueuedMessage)
  db : Database

namespace Database

open Outgoing (boundOf length_after_lt exampleMessage exampleOutgoing exampleQueue)

variable {db next : Database} {queue : QueueTable} {row : QueueRow} {rows more : List QueueRow}
  {message : QueuedMessage} {fault : StorageError} {refuses : Refusals} {bound : Bytes}
  {limit fuel : Nat}

/-! ## Rows that are moved -/

/-- The database with the undecodable ones of the given rows moved from its queue to the rows set
aside. -/
def moved (db : Database) (queue : QueueTable) (rows : List QueueRow) : Database :=
  { db with
    queue := some (queue.without (corruptIn rows))
    quarantine := db.quarantine.map fun quarantine => setAsideAll quarantine rows }

theorem moved_nil (hqueue : db.queue = some queue) : db.moved queue [] = db := by
  have hsame : queue.without (corruptIn []) = queue :=
    Table.without_eq_self fun row _ => by simp [corruptIn]
  have hquarantine : db.quarantine.map (fun quarantine => setAsideAll quarantine []) =
      db.quarantine := Option.map_id'
  rw [moved, hsame, hquarantine, ← hqueue]

theorem moved_cons_ok (hdecode : row.decode = .ok message) :
    db.moved queue (row :: rows) = db.moved queue rows := by
  have hqueue : queue.without (corruptIn (row :: rows)) = queue.without (corruptIn rows) :=
    (without_corruptIn_of_ok hdecode).symm
  simp only [moved, hqueue, setAsideAll_cons_ok hdecode]

/-- Rows may be moved in two goes. -/
theorem moved_moved (db : Database) (queue : QueueTable) (rows more : List QueueRow) :
    (db.moved queue rows).moved (queue.without (corruptIn rows)) more =
      db.moved queue (rows ++ more) := by
  have hqueue : (queue.without (corruptIn rows)).without (corruptIn more) =
      queue.without (corruptIn (rows ++ more)) := by
    rw [Table.without_without]
    exact Table.without_congr fun row _ => (corruptIn_append row).symm
  simp only [moved, hqueue, Option.map_map, Function.comp_def, setAsideAll_append]

/-- Setting an undecodable row aside moves it. -/
theorem eq_moved_of_setAside (hqueue : db.queue = some queue) (hrow : row ∈ queue.rows)
    (hdecode : row.decode = .error fault) (h : db.setAside row.id fault.message = .ok next) :
    next = db.moved queue [row] := by
  obtain ⟨quarantine, same, hquarantine, hsame, -, rfl⟩ := setAside_eq_ok_iff.mp h
  obtain rfl := Option.some.inj (hqueue.symm.trans hsame)
  have hfound : queue.find? row.id = some row := Table.find?_eq_some_iff.mpr ⟨hrow, rfl⟩
  have herased : queue.erase row.id = queue.without (corruptIn [row]) := by
    rw [← erase_without_corruptIn hrow hdecode]
    exact (Table.without_eq_self fun other _ => by simp [corruptIn]).symm
  rw [moved, hquarantine, withSetAside, hfound, herased, Option.map_some,
    setAsideAll_cons_error hdecode]
  rfl

/-! ## Sifting a page -/

/-- Sets a row aside, unless that is refused. -/
def setAsideUnless (db : Database) (refuses : Refusals) (id : Bytes) (reason : String) :
    Except StorageError Database :=
  match refuses db id with
  | some fault => .error fault
  | none => db.setAside id reason

theorem setAside_of_setAsideUnless {id : Bytes} {reason : String}
    (h : db.setAsideUnless refuses id reason = .ok next) : db.setAside id reason = .ok next := by
  unfold setAsideUnless at h
  split at h
  · cases h
  · exact h

/-- Decodes the rows of a page and sets aside those that cannot be decoded, until that fails. -/
def sift (refuses : Refusals) : Database → List QueueRow → Sifted
  | db, [] => ⟨[], .ok [], db⟩
  | db, row :: rest =>
      match row.decode with
      | .ok message =>
          let sifted := sift refuses db rest
          { sifted with result := sifted.result.map (message :: ·) }
      | .error fault =>
          match db.setAsideUnless refuses row.id fault.message with
          | .ok next =>
              let sifted := sift refuses next rest
              { sifted with attempts := .ok next :: sifted.attempts }
          | .error fault => ⟨[.error fault], .error fault, db⟩

theorem sweep_eq_sift (db : Database) (rows : List QueueRow) :
    db.sweep rows = ((db.sift .never rows).result, (db.sift .never rows).db) := by
  have hnever : ∀ (db : Database) id reason,
      db.setAsideUnless .never id reason = db.setAside id reason := fun _ _ _ => rfl
  induction rows generalizing db with
  | nil => rfl
  | cons row rest ih =>
      cases hdecode : row.decode with
      | ok message => simp only [sweep, sift, hdecode, ih]
      | error fault =>
          cases hset : db.setAside row.id fault.message with
          | ok next => simp only [sweep, sift, hnever, hdecode, hset, ih]
          | error reason => simp only [sweep, sift, hnever, hdecode, hset]

/-- The reading has gone through these rows of the queue. -/
structure Covers (db : Database) (queue : QueueTable) (rows : List QueueRow) (sifted : Sifted) :
    Prop where
  moved : sifted.db = db.moved queue rows
  found : ∀ messages, sifted.result = .ok messages → messages = messagesIn rows
  failed : ∀ fault, sifted.result = .error fault ↔ .error fault ∈ sifted.attempts
  /-- What has been moved has been moved somewhere. -/
  written : ∀ row ∈ rows, row.message? = none → db.quarantine ≠ none

theorem covers_nil (hqueue : db.queue = some queue) : Covers db queue [] ⟨[], .ok [], db⟩ where
  moved := (moved_nil hqueue).symm
  found _ hmessages := (Except.ok.inj hmessages).symm
  failed := by simp
  written := by simp

theorem covers_refused (hqueue : db.queue = some queue) (fault : StorageError) :
    Covers db queue [] ⟨[.error fault], .error fault, db⟩ where
  moved := (moved_nil hqueue).symm
  found _ hmessages := nomatch hmessages
  failed := by simp [eq_comm]
  written := by simp

/-- Setting an undecodable row aside goes through that row. -/
theorem covers_setAside (hqueue : db.queue = some queue) (hrow : row ∈ queue.rows)
    (hdecode : row.decode = .error fault) (h : db.setAside row.id fault.message = .ok next) :
    Covers db queue [row] ⟨[.ok next], .ok [], next⟩ where
  moved := eq_moved_of_setAside hqueue hrow hdecode h
  found messages hmessages := by
    rw [messagesIn_cons_error hdecode]
    exact (Except.ok.inj hmessages).symm
  failed := by simp
  written _ _ _ := by
    obtain ⟨quarantine, -, hstored, -⟩ := setAside_eq_ok_iff.mp h
    rw [hstored]
    exact Option.some_ne_none quarantine

/-- A message is found and stays where it is. -/
theorem Covers.cons_ok {sifted : Sifted} (hdecode : row.decode = .ok message)
    (hcovers : Covers db queue rows sifted) :
    Covers db queue (row :: rows) { sifted with result := sifted.result.map (message :: ·) } where
  moved := by rw [moved_cons_ok hdecode, hcovers.moved]
  found messages hmessages := by
    obtain ⟨others, hothers, rfl⟩ := map_eq_ok_iff.mp hmessages
    rw [hcovers.found others hothers, messagesIn_cons_ok hdecode]
  failed fault := by
    rw [← hcovers.failed fault]
    cases sifted.result <;> simp [Except.map]
  written other hother hcorrupt := by
    rcases List.mem_cons.mp hother with rfl | hother
    · rw [QueueRow.message?_eq_some_iff.mpr hdecode] at hcorrupt
      cases hcorrupt
    · exact hcovers.written other hother hcorrupt

/-- What finds nothing goes through one part together with what follows it. -/
theorem Covers.append {first second : Sifted} (hfirst : Covers db queue rows first)
    (hnone : first.result = .ok [])
    (hsecond : Covers first.db (queue.without (corruptIn rows)) more second) :
    Covers db queue (rows ++ more)
      { second with attempts := first.attempts ++ second.attempts } where
  moved := by
    have hmoved := hsecond.moved
    rw [hfirst.moved, moved_moved] at hmoved
    exact hmoved
  found messages hmessages := by
    rw [messagesIn_append, ← hfirst.found [] hnone, List.nil_append]
    exact hsecond.found messages hmessages
  failed fault := by
    have hclean : .error fault ∉ first.attempts := by
      rw [← hfirst.failed fault, hnone]
      exact fun h => nomatch h
    rw [List.mem_append, or_iff_right hclean]
    exact hsecond.failed fault
  written row hrow hcorrupt := by
    rcases List.mem_append.mp hrow with hrow | hrow
    · exact hfirst.written row hrow hcorrupt
    · have hwritten := hsecond.written row hrow hcorrupt
      rw [hfirst.moved] at hwritten
      exact fun hnone => hwritten (by rw [Database.moved, hnone, Option.map_none])

/-- The rows that follow a row on a page stay when it is moved. -/
theorem sublist_moved_of_cons (hrows : (row :: rows).Sublist queue.rows) :
    rows.Sublist (queue.without (corruptIn [row])).rows := by
  have hlater := (List.pairwise_cons.mp (queue.sorted.sublist hrows)).1
  have hkept : rows.filter (fun other => !corruptIn [row] other) = rows := by
    refine List.filter_eq_self.mpr fun other hother => ?_
    have hne : other ≠ row := by
      rintro rfl
      exact Bytes.lt_irrefl _ (hlater other hother)
    simp [corruptIn, hne]
  rw [← hkept]
  exact ((List.sublist_cons_self row rows).trans hrows).filter _

/-- Sifting goes through a first part of a page, and through all of it if nothing fails. -/
theorem sift_covers (refuses : Refusals) (hqueue : db.queue = some queue)
    (hrows : rows.Sublist queue.rows) :
    ∃ part, part <+: rows ∧ Covers db queue part (db.sift refuses rows) ∧
      ∀ messages, (db.sift refuses rows).result = .ok messages → part = rows := by
  induction rows generalizing db queue with
  | nil => exact ⟨[], List.prefix_refl _, covers_nil hqueue, fun _ _ => rfl⟩
  | cons row rest ih =>
      have hrow : row ∈ queue.rows := hrows.subset List.mem_cons_self
      cases hdecode : row.decode with
      | ok message =>
          have hrest : rest.Sublist queue.rows := (List.sublist_cons_self row rest).trans hrows
          obtain ⟨part, hprefix, hcovers, hwhole⟩ := ih hqueue hrest
          simp only [sift, hdecode]
          refine ⟨row :: part, (List.prefix_cons_inj row).mpr hprefix, hcovers.cons_ok hdecode, ?_⟩
          intro messages hmessages
          obtain ⟨others, hothers, -⟩ := map_eq_ok_iff.mp hmessages
          rw [hwhole others hothers]
      | error fault =>
          cases hset : db.setAsideUnless refuses row.id fault.message with
          | error reason =>
              simp only [sift, hdecode, hset]
              exact ⟨[], List.nil_prefix, covers_refused hqueue reason, fun _ h => nomatch h⟩
          | ok next =>
              have hfirst := covers_setAside hqueue hrow hdecode (setAside_of_setAsideUnless hset)
              obtain ⟨part, hprefix, hcovers, hwhole⟩ :=
                ih (congrArg Database.queue hfirst.moved) (sublist_moved_of_cons hrows)
              simp only [sift, hdecode, hset]
              refine ⟨row :: part, (List.prefix_cons_inj row).mpr hprefix,
                hfirst.append rfl hcovers, ?_⟩
              intro messages hmessages
              rw [hwhole messages hmessages]

/-! ## Reading page after page -/

theorem length_page_le (hsmall : limit < 2 ^ 63) : (page limit rows).length ≤ limit := by
  have hcounted : limit < Nat.pow 2 63 := hsmall
  rw [page, if_pos hcounted]
  exact List.length_take_le limit rows

/-- The rows of the queue behind a bound. -/
def behind (db : Database) (bound : Bytes) : List QueueRow :=
  (db.queue.map fun queue => queue.after bound).getD []

theorem behind_of_queue (hqueue : db.queue = some queue) : db.behind bound = queue.after bound := by
  rw [behind, hqueue]
  rfl

/-- A page on which nothing can be decoded is gone when it has been sifted. -/
theorem behind_sift (hqueue : db.queue = some queue)
    (hpage : queue.after bound = rows ++ more) (hnone : (db.sift refuses rows).result = .ok []) :
    messagesIn rows = [] ∧ (db.sift refuses rows).db = db.moved queue rows ∧
      (queue.without (corruptIn rows)).after bound = more := by
  have hsub : rows.Sublist queue.rows := by
    refine List.Sublist.trans ?_ (queue.after_sublist bound)
    rw [hpage]
    exact List.sublist_append_left rows more
  obtain ⟨part, -, hcovers, hwhole⟩ := sift_covers refuses hqueue hsub
  obtain rfl := hwhole [] hnone
  have hmessages := (hcovers.found [] hnone).symm
  exact ⟨hmessages, hcovers.moved, after_without_corruptIn hpage hmessages⟩

theorem length_behind_sift_lt (hqueue : db.queue = some queue)
    (hne : page limit (queue.after bound) ≠ [])
    (hnone : (db.sift refuses (page limit (queue.after bound))).result = .ok []) :
    ((db.sift refuses (page limit (queue.after bound))).db.behind bound).length <
      (db.behind bound).length := by
  obtain ⟨more, hpage⟩ := page_isPrefix limit (queue.after bound)
  obtain ⟨-, hdb, hafter⟩ := behind_sift hqueue hpage.symm hnone
  rw [hdb, behind_of_queue rfl, hafter, behind_of_queue hqueue]
  exact length_rest_lt hne hpage

/-- Reads pages from the same bound until one holds a message, no row is left, or a row cannot be
set aside. -/
def listing (refuses : Refusals) (bound : Bytes) (limit : Nat) (db : Database) : Sifted :=
  match hqueue : db.queue with
  | none => ⟨[], .error (.database ("no such table: " ++ queueName)), db⟩
  | some queue =>
      let rows := page limit (queue.after bound)
      let sifted := db.sift refuses rows
      if hagain : rows ≠ [] ∧ sifted.result = .ok [] then
        have _shorter := length_behind_sift_lt hqueue hagain.1 hagain.2
        let more := listing refuses bound limit sifted.db
        { more with attempts := sifted.attempts ++ more.attempts }
      else sifted
termination_by (db.behind bound).length

theorem listing_eq (hqueue : db.queue = some queue) :
    db.listing refuses bound limit =
      let rows := page limit (queue.after bound)
      let sifted := db.sift refuses rows
      if rows ≠ [] ∧ sifted.result = .ok [] then
        let more := sifted.db.listing refuses bound limit
        { more with attempts := sifted.attempts ++ more.attempts }
      else sifted := by
  rw [listing]
  split
  · next hnone =>
      rw [hqueue] at hnone
      cases hnone
  · next found hfound =>
      obtain rfl := Option.some.inj (hqueue.symm.trans hfound)
      rfl

/-- Where nothing is refused, this is `listFrom` with any number of readings that exceeds the number
of rows behind the bound. -/
theorem listFrom_eq_listing (limit : Nat) (hqueue : db.queue = some queue)
    (hfuel : (queue.after bound).length < fuel) :
    db.listFrom bound limit fuel =
      ((db.listing .never bound limit).result, (db.listing .never bound limit).db) := by
  induction fuel generalizing db queue with
  | zero => omega
  | succ fuel ih =>
      obtain ⟨more, hpage⟩ := page_isPrefix limit (queue.after bound)
      rw [listing_eq hqueue]
      simp only [listFrom, hqueue, require]
      generalize page limit (queue.after bound) = rows at hpage
      cases rows with
      | nil => simp [sift]
      | cons first rest =>
          simp only [sweep_eq_sift]
          by_cases hnone : (db.sift .never (first :: rest)).result = .ok []
          · -- the whole page was undecodable, and there is less to read behind it
            obtain ⟨-, hdb, hafter⟩ := behind_sift hqueue hpage.symm hnone
            have hshorter := length_rest_lt (by simp) hpage
            have hnext : (db.sift .never (first :: rest)).db.queue =
                some (queue.without (corruptIn (first :: rest))) := congrArg Database.queue hdb
            rw [if_pos ⟨by simp, hnone⟩, hnone]
            exact ih hnext (by rw [hafter]; omega)
          · rw [if_neg fun hboth => hnone hboth.2]
            split
            · next _ hresult => exact absurd (congrArg Prod.fst hresult) hnone
            · rfl

/-- **A reading goes through a first part of the rows behind its bound**, whatever is refused.  It
comes to the end of them if it finds nothing. -/
theorem listing_covers (refuses : Refusals) (bound : Bytes) (hqueue : db.queue = some queue)
    (hlimit : 1 ≤ limit) :
    ∃ part rest, queue.after bound = part ++ rest ∧
      Covers db queue part (db.listing refuses bound limit) ∧
      ((db.listing refuses bound limit).result = .ok [] → rest = []) ∧
      ∀ messages, (db.listing refuses bound limit).result = .ok messages → limit < 2 ^ 63 →
        messages.length ≤ limit := by
  induction hlength : (queue.after bound).length using Nat.strongRecOn generalizing db queue with
  | ind length ih =>
      subst hlength
      obtain ⟨more, hpage⟩ := page_isPrefix limit (queue.after bound)
      have hnil : page limit (queue.after bound) = [] ↔ queue.after bound = [] :=
        page_eq_nil_iff hlimit
      have hsub : (page limit (queue.after bound)).Sublist queue.rows :=
        (page_isPrefix limit _).sublist.trans (queue.after_sublist bound)
      have hsize : limit < 2 ^ 63 → (page limit (queue.after bound)).length ≤ limit :=
        length_page_le
      obtain ⟨part, hpart, hcovers, hwhole⟩ := sift_covers refuses hqueue hsub
      rw [listing_eq hqueue]
      generalize page limit (queue.after bound) = rows at hpage hnil hsize hpart hcovers hwhole
      dsimp only
      split
      · next hagain =>
          -- the whole page was undecodable, so the part goes on with that of the next reading
          obtain ⟨hne, hnone⟩ := hagain
          obtain rfl := hwhole [] hnone
          obtain ⟨-, hdb, hafter⟩ := behind_sift hqueue hpage.symm hnone
          obtain ⟨part', rest, hbehind, hcovers', hend, hbounded⟩ := ih more.length
            (length_rest_lt hne hpage) (congrArg Database.queue hdb) (congrArg List.length hafter)
          rw [hafter] at hbehind
          refine ⟨part ++ part', rest, ?_, hcovers.append hnone hcovers', hend, hbounded⟩
          rw [← hpage, hbehind, List.append_assoc]
      · next hlast =>
          obtain ⟨others, rfl⟩ := hpart
          refine ⟨part, others ++ more, ?_, hcovers, ?_, ?_⟩
          · rw [← hpage, List.append_assoc]
          · intro hnone
            have hempty : part ++ others = [] := by
              by_contra hne
              exact hlast ⟨hne, hnone⟩
            have hall := hnil.mp hempty
            rw [hempty, List.nil_append] at hpage
            rw [(List.append_eq_nil_iff.mp hempty).2, hpage, hall, List.nil_append]
          · intro messages hmessages hsmall
            have hfew : (messagesIn part).length ≤ part.length := List.length_filterMap_le _ _
            have hall := hsize hsmall
            rw [hcovers.found messages hmessages]
            rw [List.length_append] at hall
            omega

/-! ## What a reading finds, moves and leaves -/

/-- What a reading of the queue behind a bound comes to, and what it keeps of the queue. -/
structure Listing (db : Database) (queue : QueueTable) (bound : Bytes) (limit : Nat)
    (sifted : Sifted) (kept : QueueTable) : Prop where
  /-- The messages that are found come first among those behind the bound. -/
  first : ∀ messages, sifted.result = .ok messages → messages <+: messagesIn (queue.after bound)
  ascending : ∀ messages, sifted.result = .ok messages →
    messages.Pairwise fun a b => a.id.bytes < b.id.bytes
  bounded : ∀ messages, sifted.result = .ok messages → limit < 2 ^ 63 → messages.length ≤ limit
  /-- Nothing is found only if there is no message, and then no other row is left either. -/
  exhausted : sifted.result = .ok [] → messagesIn (queue.after bound) = [] ∧ kept.after bound = []
  /-- A reading fails exactly if one of its writes does, and for the same reason. -/
  failed : ∀ fault, sifted.result = .error fault ↔ .error fault ∈ sifted.attempts
  remaining : sifted.db.queue = some kept
  /-- No row is new or in another place. -/
  sublist : kept.rows.Sublist queue.rows
  stays : ∀ row ∈ queue.rows, ∀ message, row.decode = .ok message → row ∈ kept.rows
  /-- A row that has left is undecodable, lies behind the bound and has been set aside as it was. -/
  leaves : ∀ row ∈ queue.rows, row ∉ kept.rows → bound < row.id ∧
    ∃ fault quarantine, row.decode = .error fault ∧ sifted.db.quarantine = some quarantine ∧
      quarantine.find? row.id = some ⟨row, fault.message⟩
  /-- Under a key that no such row had, the rows set aside are what they were. -/
  others : ∀ old, db.quarantine = some old → ∃ new, sifted.db.quarantine = some new ∧
    ∀ key, (∀ row ∈ queue.rows, row.id = key → row ∈ kept.rows) → new.find? key = old.find? key
  directory : SameDirectory db sifted.db

/-- A part that has been gone through leaves all rows where they were but its undecodable ones. -/
theorem mem_kept_iff {part : List QueueRow} (hrow : row ∈ queue.rows) :
    row ∈ (queue.without (corruptIn part)).rows ↔ (row ∈ part → row.message? ≠ none) := by
  rw [Table.mem_rows_without]
  by_cases hmem : row ∈ part
  · cases hmessage : row.message? <;> simp [corruptIn, hrow, hmem, hmessage]
  · simp [corruptIn, hrow, hmem]

/-- What a reading comes to when it goes through a first part of the rows behind its bound. -/
theorem Covers.listing {part rest : List QueueRow} {sifted : Sifted}
    (hcovers : Covers db queue part sifted) (hafter : queue.after bound = part ++ rest)
    (hend : sifted.result = .ok [] → rest = [])
    (hbounded : ∀ messages, sifted.result = .ok messages → limit < 2 ^ 63 →
      messages.length ≤ limit) :
    Listing db queue bound limit sifted (queue.without (corruptIn part)) := by
  have hsorted : (part ++ rest).Pairwise fun a b => a.id < b.id := hafter ▸ queue.sorted_after bound
  have hpart : part.Pairwise fun a b => a.id < b.id := (List.pairwise_append.mp hsorted).1
  have hbehind : ∀ row ∈ part, row ∈ queue.rows ∧ bound < row.id := by
    intro row hrow
    refine Table.mem_after.mp ?_
    rw [hafter]
    exact List.mem_append_left rest hrow
  have hquarantine : sifted.db.quarantine =
      db.quarantine.map fun quarantine => setAsideAll quarantine part :=
    congrArg Database.quarantine hcovers.moved
  constructor
  case first =>
    intro messages hmessages
    rw [hcovers.found messages hmessages, hafter, messagesIn_append]
    exact List.prefix_append _ _
  case ascending =>
    intro messages hmessages
    rw [hcovers.found messages hmessages]
    exact sorted_messagesIn hpart
  case bounded => exact hbounded
  case exhausted =>
    intro hnone
    have hmessages : messagesIn part = [] := (hcovers.found [] hnone).symm
    have hrest := hend hnone
    subst hrest
    refine ⟨?_, after_without_corruptIn hafter hmessages⟩
    rw [hafter, List.append_nil, hmessages]
  case failed => exact hcovers.failed
  case remaining => exact congrArg Database.queue hcovers.moved
  case sublist => exact List.filter_sublist
  case stays =>
    intro row hrow message hdecode
    rw [mem_kept_iff hrow, QueueRow.message?_eq_some_iff.mpr hdecode]
    exact fun _ => Option.some_ne_none message
  case leaves =>
    intro row hrow hleft
    rw [mem_kept_iff hrow, Classical.not_imp, not_not] at hleft
    obtain ⟨hmem, hcorrupt⟩ := hleft
    obtain ⟨fault, hdecode⟩ := QueueRow.message?_eq_none_iff.mp hcorrupt
    obtain ⟨old, hold⟩ := Option.ne_none_iff_exists'.mp (hcovers.written row hmem hcorrupt)
    refine ⟨(hbehind row hmem).2, fault, setAsideAll old part, hdecode, ?_, ?_⟩
    · rw [hquarantine, hold, Option.map_some]
    · exact find?_setAsideAll_of_corrupt hpart hmem hdecode
  case others =>
    intro old hold
    refine ⟨setAsideAll old part, by rw [hquarantine, hold, Option.map_some], fun key hkey => ?_⟩
    refine find?_setAsideAll_of_other fun row hrow hid => ?_
    have hrow' := (hbehind row hrow).1
    have hmessage := (mem_kept_iff hrow').mp (hkey row hrow' hid) hrow
    obtain ⟨message, hmessage⟩ := Option.ne_none_iff_exists'.mp hmessage
    exact ⟨message, QueueRow.message?_eq_some_iff.mp hmessage⟩
  case directory =>
    rw [hcovers.moved]
    exact ⟨rfl, rfl, rfl, rfl⟩

/-- **Undecodable rows do not get in the way of messages**, and whatever becomes of writing them
elsewhere, only they leave the queue. -/
theorem listMessages_listing (refuses : Refusals) (after : Option MessageId)
    (hqueue : db.queue = some queue) (hlimit : 1 ≤ limit) :
    (∀ fuel, (queue.after (boundOf after)).length < fuel →
        db.listFrom (boundOf after) limit fuel = db.listMessages after limit) ∧
      db.listMessages after limit = ((db.listing .never (boundOf after) limit).result,
        (db.listing .never (boundOf after) limit).db) ∧
      ∃ kept, Listing db queue (boundOf after) limit (db.listing refuses (boundOf after) limit)
        kept := by
  have hlist : db.listMessages after limit =
      db.listFrom (boundOf after) limit (queue.size + 1) := by
    rw [listMessages, hqueue]
    rfl
  have hloop := listFrom_eq_listing limit hqueue (length_after_lt queue (boundOf after))
  refine ⟨fun fuel hfuel => ?_, hlist.trans hloop, ?_⟩
  · rw [hlist, hloop]
    exact listFrom_eq_listing limit hqueue hfuel
  · obtain ⟨part, rest, hafter, hcovers, hend, hbounded⟩ :=
      listing_covers refuses (boundOf after) hqueue hlimit
    exact ⟨_, hcovers.listing hafter hend hbounded⟩

/-- Only the row whose name is too short cannot be set aside. -/
def shortNameRefused : Refusals := fun _ id =>
  if id = [2] then some (.database "disk I/O error") else none

/-- The message behind that row stays in the queue. -/
theorem exampleMessage_kept :
    exampleOutgoing.db.queue = some exampleQueue ∧
      ∃ kept, (exampleOutgoing.db.listing shortNameRefused
          (boundOf (some (exampleMessage 1 7).id)) 1).db.queue = some kept ∧
        (exampleMessage 3 8).toRow ∈ kept.rows := by
  have hqueue : exampleOutgoing.db.queue = some exampleQueue := rfl
  obtain ⟨-, -, kept, hlisting⟩ :=
    listMessages_listing shortNameRefused (some (exampleMessage 1 7).id) hqueue (Nat.le_refl 1)
  have hrow : (exampleMessage 3 8).toRow ∈ exampleQueue.rows := by decide +kernel
  have hdecode : (exampleMessage 3 8).toRow.decode = .ok (exampleMessage 3 8) := by decide +kernel
  exact ⟨hqueue, kept, hlisting.remaining, hlisting.stays _ hrow _ hdecode⟩

end Database

end PeerMail
