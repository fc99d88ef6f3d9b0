import Mathlib.Data.List.Nodup
import PeerMail.Store.Table

/-!
# Tables as finite maps

A table is known by its rows, and its rows by what is found under every key.
Putting a row and erasing a key are given here by what they do to `find?`; the
order of the rows comes from the type.  `perm_rows_put` is the same for everything
that counts rows.
-/

namespace PeerMail

/-! ## The order of keys -/

namespace Bytes

theorem lt_irrefl (a : Bytes) : ¬ a < a := List.lt_irrefl a

theorem ne_of_lt {a b : Bytes} (h : a < b) : a ≠ b := by
  rintro rfl
  exact lt_irrefl a h

theorem lt_asymm {a b : Bytes} (h : a < b) : ¬ b < a :=
  fun hba => lt_irrefl a (List.lt_trans h hba)

/-- Every key but the empty one comes after the empty one. -/
theorem nil_lt_iff {a : Bytes} : [] < a ↔ a ≠ [] := by
  cases a with
  | nil => simp
  | cons byte rest => simp

end Bytes

namespace Table

variable {Row : Type} {key : Row → Bytes} {table next : Table Row key} {row other : Row} {k : Bytes}

theorem ext_rows {first second : Table Row key} (h : first.rows = second.rows) :
    first = second := by
  obtain ⟨rows, hsorted⟩ := first
  obtain ⟨rows', hsorted'⟩ := second
  cases h
  rfl

/-- Sorted rows are given by which rows they are. -/
theorem rows_eq_of_mem_iff {rows : List Row} (hsorted : rows.Pairwise fun a b => key a < key b)
    (h : ∀ row, row ∈ table.rows ↔ row ∈ rows) : table.rows = rows := by
  have hnodup : ∀ {rows : List Row}, rows.Pairwise (fun a b => key a < key b) → rows.Nodup :=
    fun hrows => hrows.imp fun hlt heq => Bytes.ne_of_lt hlt (congrArg key heq)
  have hperm : table.rows.Perm rows :=
    (List.perm_ext_iff_of_nodup (hnodup table.sorted) (hnodup hsorted)).mpr h
  refine hperm.eq_of_pairwise (fun a b _ _ hlt hlt' => ?_) table.sorted hsorted
  exact absurd hlt' (Bytes.lt_asymm hlt)

/-! ## Finding -/

theorem nodup_keys (table : Table Row key) : (table.rows.map key).Nodup :=
  List.pairwise_map.mpr (table.sorted.imp fun hlt => Bytes.ne_of_lt hlt)

/-- No two rows have the same key. -/
theorem eq_of_key_eq (hrow : row ∈ table.rows) (hother : other ∈ table.rows)
    (hkey : key row = key other) : row = other :=
  List.inj_on_of_nodup_map table.nodup_keys hrow hother hkey

theorem find?_eq_some_iff : table.find? k = some row ↔ row ∈ table.rows ∧ key row = k := by
  constructor
  · intro h
    exact ⟨List.mem_of_find?_eq_some h, by simpa using List.find?_some h⟩
  · rintro ⟨hrow, rfl⟩
    cases hfound : table.find? (key row) with
    | none =>
        have hne := List.find?_eq_none.mp hfound row hrow
        simp at hne
    | some found =>
        have hmem := List.mem_of_find?_eq_some hfound
        have hkey : key found = key row := by simpa using List.find?_some hfound
        rw [eq_of_key_eq hmem hrow hkey]

theorem find?_eq_none_iff : table.find? k = none ↔ ∀ row ∈ table.rows, key row ≠ k := by
  simp [find?]

/-! ## Putting a row -/

theorem mem_place_iff {rows : List Row} (hsorted : rows.Pairwise fun a b => key a < key b) :
    other ∈ place key row rows ↔ other = row ∨ other ∈ rows ∧ key other ≠ key row := by
  induction rows with
  | nil => simp [place]
  | cons first rest ih =>
      obtain ⟨hfirst, hrest⟩ := List.pairwise_cons.mp hsorted
      simp only [place]
      split
      · next hlt =>
          -- the new row comes before all others
          have hkeys : ∀ other ∈ first :: rest, key other ≠ key row := by
            intro other hother heq
            rcases List.mem_cons.mp hother with rfl | hother
            · exact Bytes.ne_of_lt hlt heq.symm
            · exact Bytes.ne_of_lt (List.lt_trans hlt (hfirst other hother)) heq.symm
          rw [List.mem_cons]
          exact or_congr_right ⟨fun h => ⟨h, hkeys other h⟩, And.left⟩
      · split
        · next heq =>
            -- the new row takes the place of the first
            have hkeys : ∀ other ∈ rest, key other ≠ key row := fun other hother h =>
              Bytes.ne_of_lt (hfirst other hother) (heq ▸ h.symm)
            rw [List.mem_cons, List.mem_cons]
            refine or_congr_right ⟨fun h => ⟨.inr h, hkeys other h⟩, ?_⟩
            rintro ⟨rfl | h, hne⟩
            · exact absurd heq.symm hne
            · exact h
        · next hne =>
            rw [List.mem_cons, List.mem_cons, ih hrest]
            constructor
            · rintro (rfl | rfl | ⟨h, hkey⟩)
              · exact .inr ⟨.inl rfl, Ne.symm hne⟩
              · exact .inl rfl
              · exact .inr ⟨.inr h, hkey⟩
            · rintro (rfl | ⟨rfl | h, hkey⟩)
              · exact .inr (.inl rfl)
              · exact .inl rfl
              · exact .inr (.inr ⟨h, hkey⟩)

theorem mem_rows_put :
    other ∈ (table.put row).rows ↔ other = row ∨ other ∈ table.rows ∧ key other ≠ key row :=
  mem_place_iff table.sorted

theorem find?_put (table : Table Row key) (row : Row) (k : Bytes) :
    (table.put row).find? k = if key row = k then some row else table.find? k := by
  ext found
  rw [find?_eq_some_iff, mem_rows_put]
  split
  · next heq =>
      subst heq
      constructor
      · rintro ⟨rfl | ⟨-, hne⟩, hkey⟩
        · rfl
        · exact absurd hkey hne
      · rintro ⟨rfl⟩
        exact ⟨.inl rfl, rfl⟩
  · next hne =>
      rw [find?_eq_some_iff]
      constructor
      · rintro ⟨rfl | ⟨hmem, -⟩, hkey⟩
        · exact absurd hkey hne
        · exact ⟨hmem, hkey⟩
      · rintro ⟨hmem, rfl⟩
        exact ⟨.inr ⟨hmem, Ne.symm hne⟩, rfl⟩

/-- Under a new key a row is added and none is lost. -/
theorem perm_rows_put (h : table.find? (key row) = none) :
    (table.put row).rows.Perm (row :: table.rows) := by
  have hnew := find?_eq_none_iff.mp h
  refine (List.perm_ext_iff_of_nodup (table.put row).nodup_keys.of_map ?_).mpr fun other => ?_
  · refine List.nodup_cons.mpr ⟨fun hmem => hnew row hmem rfl, table.nodup_keys.of_map⟩
  · rw [mem_rows_put, List.mem_cons]
    exact or_congr_right ⟨And.left, fun hmem => ⟨hmem, hnew other hmem⟩⟩

theorem insert?_eq_some_iff :
    table.insert? row = some next ↔ table.find? (key row) = none ∧ next = table.put row := by
  unfold insert?
  cases table.find? (key row) <;> simp [eq_comm]

/-! ## Erasing a key -/

theorem find?_erase (table : Table Row key) (erased k : Bytes) :
    (table.erase erased).find? k = if erased = k then none else table.find? k := by
  ext found
  rw [find?_eq_some_iff, erase, List.mem_filter]
  split
  · next heq =>
      subst heq
      simp +contextual
  · next hne =>
      rw [find?_eq_some_iff]
      refine ⟨fun ⟨⟨hmem, _⟩, hkey⟩ => ⟨hmem, hkey⟩, ?_⟩
      rintro ⟨hmem, rfl⟩
      exact ⟨⟨hmem, by simpa using Ne.symm hne⟩, rfl⟩

theorem erase_of_find?_eq_none (h : table.find? k = none) : table.erase k = table := by
  refine ext_rows (List.filter_eq_self.mpr fun row hrow => ?_)
  simpa using find?_eq_none_iff.mp h row hrow

/-! ## Leaving rows out -/

/-- The table without some of its rows. -/
def without (table : Table Row key) (dropped : Row → Bool) : Table Row key :=
  ⟨table.rows.filter fun row => !dropped row, table.sorted.filter _⟩

theorem mem_rows_without {dropped : Row → Bool} :
    row ∈ (table.without dropped).rows ↔ row ∈ table.rows ∧ dropped row = false := by
  simp [without]

theorem without_congr {dropped dropped' : Row → Bool}
    (h : ∀ row ∈ table.rows, dropped row = dropped' row) :
    table.without dropped = table.without dropped' :=
  ext_rows (List.filter_congr fun row hrow => by rw [h row hrow])

theorem without_eq_self {dropped : Row → Bool} (h : ∀ row ∈ table.rows, dropped row = false) :
    table.without dropped = table :=
  ext_rows (List.filter_eq_self.mpr fun row hrow => by simp [h row hrow])

theorem without_without (table : Table Row key) (dropped dropped' : Row → Bool) :
    (table.without dropped).without dropped' =
      table.without fun row => dropped row || dropped' row := by
  refine ext_rows ?_
  simp only [without, List.filter_filter]
  refine List.filter_congr fun row _ => ?_
  cases dropped row <;> simp

theorem erase_eq_without (table : Table Row key) (k : Bytes) :
    table.erase k = table.without fun row => key row == k := rfl

/-! ## Rows behind a bound -/

theorem mem_after {bound : Bytes} :
    row ∈ table.after bound ↔ row ∈ table.rows ∧ bound < key row := by
  simp [after]

theorem after_sublist (table : Table Row key) (bound : Bytes) :
    (table.after bound).Sublist table.rows :=
  List.filter_sublist

theorem sorted_after (table : Table Row key) (bound : Bytes) :
    (table.after bound).Pairwise fun a b => key a < key b :=
  table.sorted.filter _

theorem after_without (table : Table Row key) (dropped : Row → Bool) (bound : Bytes) :
    (table.without dropped).after bound = (table.after bound).filter fun row => !dropped row := by
  simp only [after, without, List.filter_filter]
  exact List.filter_congr fun row _ => Bool.and_comm _ _

/-- Behind a later bound there is what is left behind an earlier one. -/
theorem after_of_lt {bound later : Bytes} (h : bound < later) :
    table.after later = (table.after bound).filter fun row => decide (later < key row) := by
  simp only [after, List.filter_filter]
  refine List.filter_congr fun row _ => ?_
  by_cases hlater : later < key row
  · simp [hlater, List.lt_trans h hlater]
  · simp [hlater]

end Table

end PeerMail
