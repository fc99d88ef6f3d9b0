import PeerMail.Delivery.Pages
import PeerMail.Proofs.Store.Tables

/-!
# Where the next page begins

After a page the cursor stands behind the greatest name on it, whatever the order of
the names is.
-/

namespace PeerMail.PageCursor

variable {ids : List MessageId} {id last : MessageId} {cursor : PageCursor}

theorem le_later_left (a b : MessageId) : a.bytes ≤ (later a b).bytes := by
  unfold later
  split
  · next hlt => exact List.not_lt.mp fun hba => Bytes.lt_asymm hlt hba
  · exact List.not_lt.mp (Bytes.lt_irrefl _)

theorem le_later_right (a b : MessageId) : b.bytes ≤ (later a b).bytes := by
  unfold later
  split
  · exact List.not_lt.mp (Bytes.lt_irrefl _)
  · next hnot => exact List.not_lt.mp hnot

theorem later_eq (a b : MessageId) : later a b = a ∨ later a b = b := by
  unfold later
  split
  · exact .inr rfl
  · exact .inl rfl

theorem foldl_later_mem (first : MessageId) (rest : List MessageId) :
    rest.foldl later first ∈ first :: rest := by
  induction rest generalizing first with
  | nil => simp
  | cons second rest ih =>
      rw [List.foldl_cons]
      rcases later_eq first second with heq | heq
      · rw [heq]
        rcases List.mem_cons.mp (ih first) with hfirst | hrest
        · rw [hfirst]
          exact List.mem_cons_self
        · exact List.mem_cons_of_mem _ (List.mem_cons_of_mem _ hrest)
      · rw [heq]
        exact List.mem_cons_of_mem _ (ih second)

theorem le_foldl_later (first : MessageId) (rest : List MessageId) (h : id ∈ first :: rest) :
    id.bytes ≤ (rest.foldl later first).bytes := by
  induction rest generalizing first id with
  | nil =>
      rw [List.mem_singleton.mp h]
      exact List.not_lt.mp (Bytes.lt_irrefl _)
  | cons second rest ih =>
      have hstart := ih (later first second) List.mem_cons_self
      rcases List.mem_cons.mp h with rfl | h
      · exact List.le_trans (le_later_left id second) hstart
      · rcases List.mem_cons.mp h with rfl | h
        · exact List.le_trans (le_later_right first id) hstart
        · exact ih (later first second) (List.mem_cons_of_mem _ h)

theorem latest_eq_none_iff : latest ids = none ↔ ids = [] := by
  cases ids <;> simp [latest]

/-- The latest of some names is one of them, and none of them comes after it. -/
theorem latest_spec (h : latest ids = some last) :
    last ∈ ids ∧ ∀ id ∈ ids, id.bytes ≤ last.bytes := by
  cases ids with
  | nil => cases h
  | cons first rest =>
      obtain rfl : rest.foldl later first = last := Option.some.inj h
      exact ⟨foldl_later_mem first rest, fun id hid => le_foldl_later first rest hid⟩

theorem advance?_nil (cursor : PageCursor) : cursor.advance? [] = none := rfl

theorem advance?_of_ne_nil (cursor : PageCursor) (h : ids ≠ []) :
    ∃ last, cursor.advance? ids = some { cursor with after := some last } ∧
      last ∈ ids ∧ ∀ id ∈ ids, id.bytes ≤ last.bytes := by
  cases hlatest : latest ids with
  | none => exact absurd (latest_eq_none_iff.mp hlatest) h
  | some last => exact ⟨last, by rw [advance?, hlatest, Option.map_some], latest_spec hlatest⟩

end PeerMail.PageCursor
