import PeerMail.Proofs.Store.Frames

/-!
# What a reading of the queue finds

`listMessages` reads a page, sets aside the rows that cannot be decoded, and reads
again from the same bound when nothing else was on the page.  So it goes through a
first part of the rows behind the bound: what can be decoded in that part is the
result, everything else in it is set aside, and only at the end of the queue is the
result empty (`listFrom_eq`).

Each reading that leads to another one shortens what lies behind the bound, so the
number of readings that are allowed for does not matter once it exceeds the number
of rows (`listFrom_readings`).
-/

namespace PeerMail

/-! ## Rows that can be decoded -/

/-- The message in a row, if it can be decoded. -/
def QueueRow.message? (row : QueueRow) : Option QueuedMessage := row.decode.toOption

/-- The messages in rows, in order. -/
def messagesIn (rows : List QueueRow) : List QueuedMessage := rows.filterMap QueueRow.message?

/-- Whether a row is one of the given rows and cannot be decoded. -/
def corruptIn (rows : List QueueRow) (row : QueueRow) : Bool :=
  decide (row ∈ rows) && row.message?.isNone

/-- The rows set aside together with those of the given rows that cannot be decoded. -/
def setAsideAll (quarantine : QuarantineTable) (rows : List QueueRow) : QuarantineTable :=
  rows.foldl
    (fun quarantine row =>
      match row.decode with
      | .ok _ => quarantine
      | .error fault => quarantine.put ⟨row, fault.message⟩)
    quarantine

variable {row : QueueRow} {rows more : List QueueRow} {message : QueuedMessage}
  {fault : StorageError} {queue : QueueTable} {quarantine : QuarantineTable}

theorem QueueRow.message?_eq_some_iff : row.message? = some message ↔ row.decode = .ok message := by
  unfold message?
  cases row.decode <;> simp [Except.toOption]

theorem QueueRow.message?_eq_none_iff :
    row.message? = none ↔ ∃ fault, row.decode = .error fault := by
  unfold message?
  cases row.decode <;> simp [Except.toOption]

@[simp] theorem messagesIn_nil : messagesIn [] = [] := rfl

@[simp] theorem messagesIn_append :
    messagesIn (rows ++ more) = messagesIn rows ++ messagesIn more :=
  List.filterMap_append

theorem messagesIn_cons_ok (h : row.decode = .ok message) :
    messagesIn (row :: rows) = message :: messagesIn rows :=
  List.filterMap_cons_some (QueueRow.message?_eq_some_iff.mpr h)

theorem messagesIn_cons_error (h : row.decode = .error fault) :
    messagesIn (row :: rows) = messagesIn rows :=
  List.filterMap_cons_none (QueueRow.message?_eq_none_iff.mpr ⟨fault, h⟩)

theorem mem_messagesIn : message ∈ messagesIn rows ↔ ∃ row ∈ rows, row.decode = .ok message := by
  simp only [messagesIn, List.mem_filterMap, QueueRow.message?_eq_some_iff]

/-- A row that can be decoded is the row of its message, as far as the name goes. -/
theorem id_of_decode (h : row.decode = .ok message) : message.id.bytes = row.id := by
  unfold QueueRow.decode at h
  split at h <;> try cases h
  next id peer envelope hid _ _ =>
    unfold MessageId.ofBytes? Bytes.exactly? at hid
    by_cases hlength : row.id.length = 16
    · simp only [hlength, dite_true, Option.map_some, Option.some.injEq] at hid
      exact congrArg MessageId.bytes hid.symm
    · simp [hlength] at hid

theorem corruptIn_append (row : QueueRow) :
    corruptIn (rows ++ more) row = (corruptIn rows row || corruptIn more row) := by
  simp only [corruptIn, List.mem_append]
  cases row.message? <;> simp

theorem setAsideAll_append :
    setAsideAll quarantine (rows ++ more) = setAsideAll (setAsideAll quarantine rows) more := by
  simp [setAsideAll, List.foldl_append]

theorem setAsideAll_cons_ok (h : row.decode = .ok message) :
    setAsideAll quarantine (row :: rows) = setAsideAll quarantine rows := by
  simp [setAsideAll, h]

theorem setAsideAll_cons_error (h : row.decode = .error fault) :
    setAsideAll quarantine (row :: rows) =
      setAsideAll (quarantine.put ⟨row, fault.message⟩) rows := by
  simp [setAsideAll, h]

/-- A key that no corrupt row has leads to what it led to before. -/
theorem find?_setAsideAll_of_other {k : Bytes}
    (h : ∀ row ∈ rows, row.id = k → ∃ message, row.decode = .ok message) :
    (setAsideAll quarantine rows).find? k = quarantine.find? k := by
  induction rows generalizing quarantine with
  | nil => rfl
  | cons first rest ih =>
      have hrest := fun row hrow => h row (List.mem_cons_of_mem first hrow)
      cases hdecode : first.decode with
      | ok message => rw [setAsideAll_cons_ok hdecode, ih hrest]
      | error fault =>
          have hkey : first.id ≠ k := by
            intro heq
            obtain ⟨message, hmessage⟩ := h first List.mem_cons_self heq
            rw [hdecode] at hmessage
            cases hmessage
          rw [setAsideAll_cons_error hdecode, ih hrest, Table.find?_put, if_neg hkey]

/-- A corrupt row is found under its key, with the reason. -/
theorem find?_setAsideAll_of_corrupt (hsorted : rows.Pairwise fun a b => a.id < b.id)
    (hrow : row ∈ rows) (hdecode : row.decode = .error fault) :
    (setAsideAll quarantine rows).find? row.id = some ⟨row, fault.message⟩ := by
  obtain ⟨before, later, rfl⟩ := List.append_of_mem hrow
  have hlater := (List.pairwise_cons.mp (List.pairwise_append.mp hsorted).2.1).1
  rw [setAsideAll_append, setAsideAll_cons_error hdecode, find?_setAsideAll_of_other,
    Table.find?_put, if_pos rfl]
  intro other hother heq
  exact absurd heq.symm (Bytes.ne_of_lt (hlater other hother))

/-! ## A database that does not fail -/

namespace Database

/-- The queue and the rows set aside are these, and the queue lets rows go. -/
structure Holds (db : Database) (queue : QueueTable) (quarantine : QuarantineTable) : Prop where
  queue : db.queue = some queue
  quarantine : db.quarantine = some quarantine
  unlocked : db.queueLocked = false

/-- The database with this queue and these rows set aside. -/
def holding (db : Database) (queue : QueueTable) (quarantine : QuarantineTable) : Database :=
  { db with queue := some queue, quarantine := some quarantine }

variable {db : Database} {bound : Bytes} {limit fuel fuel' : Nat} {rest : List QueueRow}

theorem Holds.holding (h : db.Holds queue quarantine) (queue' : QueueTable)
    (quarantine' : QuarantineTable) :
    (db.holding queue' quarantine').Holds queue' quarantine' :=
  ⟨rfl, rfl, h.unlocked⟩

theorem Holds.eq_holding (h : db.Holds queue quarantine) : db.holding queue quarantine = db := by
  rw [Database.holding, ← h.queue, ← h.quarantine]

theorem holding_holding (db : Database) (queue queue' : QueueTable)
    (quarantine quarantine' : QuarantineTable) :
    (db.holding queue quarantine).holding queue' quarantine' = db.holding queue' quarantine' := rfl

/-! ## One reading -/

theorem setAside_of_holds (h : db.Holds queue quarantine) (hrow : row ∈ queue.rows)
    (reason : String) :
    db.setAside row.id reason =
      .ok (db.holding (queue.erase row.id) (quarantine.put ⟨row, reason⟩)) := by
  have hfound : queue.find? row.id = some row := Table.find?_eq_some_iff.mpr ⟨hrow, rfl⟩
  refine setAside_eq_ok_iff.mpr ⟨quarantine, queue, h.quarantine, h.queue, fun _ => h.unlocked, ?_⟩
  rw [withSetAside, hfound]
  rfl

theorem erase_without_corruptIn (hrow : row ∈ queue.rows) (hdecode : row.decode = .error fault) :
    (queue.erase row.id).without (corruptIn rows) = queue.without (corruptIn (row :: rows)) := by
  rw [Table.erase_eq_without, Table.without_without]
  refine Table.without_congr fun other hother => ?_
  by_cases heq : other = row
  · subst heq
    simp [corruptIn, QueueRow.message?_eq_none_iff.mpr ⟨fault, hdecode⟩]
  · have hkey : other.id ≠ row.id := fun hkey => heq (Table.eq_of_key_eq hother hrow hkey)
    simp [corruptIn, heq, hkey]

theorem without_corruptIn_of_ok (hdecode : row.decode = .ok message) :
    queue.without (corruptIn rows) = queue.without (corruptIn (row :: rows)) := by
  refine Table.without_congr fun other _ => ?_
  by_cases heq : other = row
  · subst heq
    simp [corruptIn, QueueRow.message?_eq_some_iff.mpr hdecode]
  · simp [corruptIn, heq]

/-- Decoding the rows of a page gives their messages and sets the others aside. -/
theorem sweep_eq (h : db.Holds queue quarantine) (hrows : rows.Sublist queue.rows) :
    db.sweep rows = (.ok (messagesIn rows),
      db.holding (queue.without (corruptIn rows)) (setAsideAll quarantine rows)) := by
  induction rows generalizing db queue quarantine with
  | nil =>
      have hsame : queue.without (corruptIn []) = queue :=
        Table.without_eq_self fun row _ => by simp [corruptIn]
      rw [hsame]
      exact congrArg _ h.eq_holding.symm
  | cons row rest ih =>
      have hrow : row ∈ queue.rows := hrows.subset List.mem_cons_self
      cases hdecode : row.decode with
      | ok message =>
          have hrest := ih h ((List.sublist_cons_self row rest).trans hrows)
          rw [without_corruptIn_of_ok hdecode] at hrest
          simp only [sweep, hdecode, hrest, messagesIn_cons_ok hdecode, setAsideAll_cons_ok hdecode]
          rfl
      | error fault =>
          -- the row that leaves is none of those that follow
          have hlater := (List.pairwise_cons.mp (queue.sorted.sublist hrows)).1
          have hsub : rest.Sublist (queue.erase row.id).rows := by
            have hkept : rest.filter (fun other => !(other.id == row.id)) = rest := by
              refine List.filter_eq_self.mpr fun other hother => ?_
              simpa using (Bytes.ne_of_lt (hlater other hother)).symm
            rw [← hkept]
            exact ((List.sublist_cons_self row rest).trans hrows).filter _
          have hrest := ih (h.holding _ (quarantine.put ⟨row, fault.message⟩)) hsub
          rw [erase_without_corruptIn hrow hdecode, holding_holding] at hrest
          simp only [sweep, hdecode, setAside_of_holds h hrow, hrest,
            messagesIn_cons_error hdecode, setAsideAll_cons_error hdecode]

theorem page_isPrefix (limit : Nat) (rows : List QueueRow) : page limit rows <+: rows := by
  unfold page
  split
  · exact List.take_prefix limit rows
  · exact List.prefix_refl rows

theorem page_eq_nil_iff (h : 1 ≤ limit) : page limit rows = [] ↔ rows = [] := by
  unfold page
  split
  · have hne : limit ≠ 0 := by omega
    simp [hne]
  · rfl

/-- One reading, with the one that follows if nothing was found. -/
theorem listFrom_succ (h : db.Holds queue quarantine) :
    db.listFrom bound limit (fuel + 1) =
      let rows := page limit (queue.after bound)
      let swept := db.holding (queue.without (corruptIn rows)) (setAsideAll quarantine rows)
      if rows ≠ [] ∧ messagesIn rows = [] then swept.listFrom bound limit fuel
      else (.ok (messagesIn rows), swept) := by
  have hsub : (page limit (queue.after bound)).Sublist queue.rows :=
    (page_isPrefix limit _).sublist.trans (queue.after_sublist bound)
  have hsweep := sweep_eq h hsub
  simp only [listFrom, h.queue, require]
  generalize page limit (queue.after bound) = rows at hsweep ⊢
  cases rows with
  | nil => simpa [sweep] using congrArg Prod.snd hsweep
  | cons first rest =>
      simp only [hsweep]
      cases hmessages : messagesIn (first :: rest) with
      | nil => simp
      | cons message messages => simp

/-! ## All readings -/

theorem corruptIn_of_mem (hnone : messagesIn rows = []) (hrow : row ∈ rows) :
    corruptIn rows row = true := by
  have hcorrupt := List.filterMap_eq_nil_iff.mp hnone row hrow
  simp [corruptIn, hrow, hcorrupt]

theorem corruptIn_of_not_mem (hrow : row ∉ rows) : corruptIn rows row = false := by
  simp [corruptIn, hrow]

/-- The rows in the second part of a sorted list are not in the first. -/
theorem not_mem_of_after_eq (hafter : queue.after bound = rows ++ rest) (hrow : row ∈ rest) :
    row ∉ rows := by
  intro hmem
  have hsorted := queue.sorted_after bound
  rw [hafter] at hsorted
  exact Bytes.lt_irrefl _ ((List.pairwise_append.mp hsorted).2.2 row hmem row hrow)

/-- When nothing on a page can be decoded, the next reading starts behind the page. -/
theorem after_without_corruptIn (hafter : queue.after bound = rows ++ rest)
    (hnone : messagesIn rows = []) : (queue.without (corruptIn rows)).after bound = rest := by
  have hpage : rows.filter (fun row => !corruptIn rows row) = [] := by
    refine List.filter_eq_nil_iff.mpr fun row hrow => ?_
    simp [corruptIn_of_mem hnone hrow]
  have hrest : rest.filter (fun row => !corruptIn rows row) = rest := by
    refine List.filter_eq_self.mpr fun row hrow => ?_
    simp [corruptIn_of_not_mem (not_mem_of_after_eq hafter hrow)]
  rw [Table.after_without, hafter, List.filter_append, hpage, hrest, List.nil_append]

theorem length_rest_lt {all : List QueueRow} (hne : rows ≠ []) (hall : rows ++ rest = all) :
    rest.length < all.length := by
  have hpositive := List.length_pos_iff.mpr hne
  rw [← hall, List.length_append]
  omega

/-- **A reading of the queue** goes through a first part of the rows behind the bound.  It finds
the messages in that part and sets its other rows aside, and it finds nothing only at the end. -/
theorem listFrom_eq (h : db.Holds queue quarantine) (hlimit : 1 ≤ limit)
    (hfuel : (queue.after bound).length < fuel) :
    ∃ part rest, queue.after bound = part ++ rest ∧ (messagesIn part = [] → rest = []) ∧
      db.listFrom bound limit fuel = (.ok (messagesIn part),
        db.holding (queue.without (corruptIn part)) (setAsideAll quarantine part)) := by
  induction fuel generalizing db queue quarantine with
  | zero => omega
  | succ fuel ih =>
      obtain ⟨rest, hpage⟩ := page_isPrefix limit (queue.after bound)
      have hnil : page limit (queue.after bound) = [] ↔ queue.after bound = [] :=
        page_eq_nil_iff hlimit
      rw [listFrom_succ h]
      generalize page limit (queue.after bound) = rows at hpage hnil
      dsimp only
      split
      · next hcorrupt =>
          -- the whole page was corrupt, so what is found comes from the next reading
          obtain ⟨hne, hnone⟩ := hcorrupt
          have hbehind := after_without_corruptIn hpage.symm hnone
          have hshorter := length_rest_lt hne hpage
          have hlength : rest.length < fuel := by omega
          obtain ⟨part, rest', hpart, hend, hlist⟩ :=
            ih (h.holding _ (setAsideAll quarantine rows)) (by rw [hbehind]; exact hlength)
          rw [hbehind] at hpart
          refine ⟨rows ++ part, rest', ?_, ?_, ?_⟩
          · rw [← hpage, hpart, List.append_assoc]
          · intro hboth
            rw [messagesIn_append, hnone] at hboth
            exact hend hboth
          · have hqueue : (queue.without (corruptIn rows)).without (corruptIn part) =
                queue.without (corruptIn (rows ++ part)) := by
              rw [Table.without_without]
              exact Table.without_congr fun row _ => (corruptIn_append row).symm
            rw [hlist, hqueue, ← setAsideAll_append, messagesIn_append, hnone]
            rfl
      · next hfound =>
          refine ⟨rows, rest, hpage.symm, ?_, rfl⟩
          intro hnone
          have hrows : rows = [] := by
            by_contra hne
            exact hfound ⟨hne, hnone⟩
          have hall := hnil.mp hrows
          rw [← hpage, hrows] at hall
          exact hall

/-- More readings than there are rows behind the bound are never used. -/
theorem listFrom_readings (h : db.Holds queue quarantine)
    (hfuel : (queue.after bound).length < fuel) (hfuel' : (queue.after bound).length < fuel') :
    db.listFrom bound limit fuel = db.listFrom bound limit fuel' := by
  induction fuel generalizing db queue quarantine fuel' with
  | zero => omega
  | succ fuel ih =>
      obtain ⟨fuel', rfl⟩ : ∃ less, fuel' = less + 1 := ⟨fuel' - 1, by omega⟩
      obtain ⟨rest, hpage⟩ := page_isPrefix limit (queue.after bound)
      rw [listFrom_succ h, listFrom_succ h]
      generalize page limit (queue.after bound) = rows at hpage
      dsimp only
      split
      · next hcorrupt =>
          obtain ⟨hne, hnone⟩ := hcorrupt
          have hbehind := after_without_corruptIn hpage.symm hnone
          have hshorter := length_rest_lt hne hpage
          refine ih (h.holding _ (setAsideAll quarantine rows)) ?_ ?_
          · rw [hbehind]
            omega
          · rw [hbehind]
            omega
      · rfl

end Database

end PeerMail
