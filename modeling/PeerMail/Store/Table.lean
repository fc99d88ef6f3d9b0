import PeerMail.Bytes

/-!
# Tables

A table holds rows in ascending order of their keys, which are byte strings,
and no key twice.  The order is part of the type, so a query that goes through
the rows meets them in key order.
-/

namespace PeerMail

/-! ## The order of keys -/

/-- Of two different byte strings one comes first. -/
theorem Bytes.lt_of_not_lt_of_ne {a b : Bytes} (hlt : ¬ a < b) (hne : a ≠ b) : b < a := by
  rcases Classical.em (b < a) with h | h
  · exact h
  · exact absurd (List.le_antisymm (List.not_lt.mp h) (List.not_lt.mp hlt)) hne

/-! ## Tables -/

/-- Rows in ascending order of their keys. -/
structure Table (Row : Type) (key : Row → Bytes) where
  rows : List Row
  sorted : rows.Pairwise fun a b => key a < key b

namespace Table

variable {Row : Type} {key : Row → Bytes}

/-- The table without rows. -/
def empty : Table Row key := ⟨[], .nil⟩

instance : Inhabited (Table Row key) := ⟨empty⟩

/-- The number of rows. -/
def size (table : Table Row key) : Nat := table.rows.length

/-- The row with a key. -/
def find? (table : Table Row key) (k : Bytes) : Option Row :=
  table.rows.find? fun row => key row == k

/-- The rows whose keys come after a bound, in order. -/
def after (table : Table Row key) (bound : Bytes) : List Row :=
  table.rows.filter fun row => decide (bound < key row)

/-- Puts a row in its place, over the row with the same key if there is one. -/
def place (key : Row → Bytes) (row : Row) : List Row → List Row
  | [] => [row]
  | first :: rest =>
      if key row < key first then row :: first :: rest
      else if key row = key first then row :: rest
      else first :: place key row rest

theorem mem_place {row other : Row} {rows : List Row} (h : other ∈ place key row rows) :
    other = row ∨ other ∈ rows := by
  induction rows with
  | nil => simpa [place] using h
  | cons first rest ih =>
      simp only [place] at h
      split at h
      · simpa using h
      · split at h
        · rcases List.mem_cons.mp h with h | h
          · exact .inl h
          · exact .inr (List.mem_cons_of_mem _ h)
        · rcases List.mem_cons.mp h with h | h
          · exact .inr (h ▸ List.mem_cons_self)
          · exact (ih h).imp_right (List.mem_cons_of_mem _)

theorem sorted_place {row : Row} {rows : List Row}
    (h : rows.Pairwise fun a b => key a < key b) :
    (place key row rows).Pairwise fun a b => key a < key b := by
  induction rows with
  | nil => simp [place]
  | cons first rest ih =>
      obtain ⟨hfirst, hrest⟩ := List.pairwise_cons.mp h
      simp only [place]
      split
      · next hlt =>
          refine List.pairwise_cons.mpr ⟨fun other hother => ?_, h⟩
          rcases List.mem_cons.mp hother with rfl | hother
          · exact hlt
          · exact List.lt_trans hlt (hfirst other hother)
      · next hlt =>
          split
          · next heq =>
              exact List.pairwise_cons.mpr ⟨fun other hother => heq ▸ hfirst other hother, hrest⟩
          · next hne =>
              refine List.pairwise_cons.mpr ⟨fun other hother => ?_, ih hrest⟩
              rcases mem_place hother with rfl | hother
              · exact Bytes.lt_of_not_lt_of_ne hlt hne
              · exact hfirst other hother

/-- The table with a row added, over the row with the same key if there is one. -/
def put (table : Table Row key) (row : Row) : Table Row key :=
  ⟨place key row table.rows, sorted_place table.sorted⟩

/-- The table with a row added, if its key is new. -/
def insert? (table : Table Row key) (row : Row) : Option (Table Row key) :=
  if (table.find? (key row)).isSome then none else some (table.put row)

/-- The table without the row with a key. -/
def erase (table : Table Row key) (k : Bytes) : Table Row key :=
  ⟨table.rows.filter fun row => !(key row == k), table.sorted.filter _⟩

end Table

end PeerMail
