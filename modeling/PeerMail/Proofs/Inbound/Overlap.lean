import Mathlib.Data.List.Induction
import Mathlib.Logic.Function.Basic
import PeerMail.Proofs.Inbound.Retraction
import PeerMail.Proofs.Store.Pointers

/-!
# Acknowledgements that overlap

An acknowledgement is handled in two accesses to the table of pointers: the pointer of the sender is
looked up, and if the sender may take it back, the row under the sender's name is removed.  Other
acknowledgements may be handled at the same time, and pointers may be added, which replaces earlier
ones.  A run is a list of moments, each of which is one access.

What was looked up need not be what is removed.  `deleted_unauthorized_iff` says when a pointer is
removed that its peer may not take back: exactly if the last pointer that was added for the sender
between the two accesses names another canceller, or none.
-/

namespace PeerMail.Retraction

open LocalState

/-! ## Single accesses -/

/-- An acknowledgement to be handled. -/
structure Call where
  sender : PeerId
  bytes : Bytes

/-- How far an acknowledgement has come. -/
inductive Stage where
  | arrived
  /-- The sender may take back the pointer that was found; it is to be removed next. -/
  | authorized
  | done (result : Except ProtocolError Unit)

/-- The next stage, with what the access leaves behind. -/
def step (call : Call) : Stage → Database → Stage × Database
  | .arrived, db =>
      match parseAck call.bytes with
      | .error reason => (.done (.error reason), db)
      | .ok _ =>
          match authorizeAck db call.sender with
          | .ok () => (.authorized, db)
          | .error reason => (.done (.error reason), db)
  | .authorized, db =>
      match db.deletePointer call.sender with
      | .ok (_, db) => (.done (.ok ()), db)
      | .error fault => (.done (.error (.storage fault)), db)
  | .done result, db => (.done result, db)

/-- Two accesses without a pause are what handling an acknowledgement does. -/
theorem step_step (state : LocalState) (call : Call) :
    step call (step call .arrived state.db).1 (step call .arrived state.db).2 =
      (.done ((state.handleAck call.sender call.bytes).map fun _ => ()),
        (state.settle (state.handleAck call.sender call.bytes)).2.db) := by
  simp only [step, handleAck]
  cases parseAck call.bytes with
  | error reason => rfl
  | ok peer =>
      cases authorizeAck state.db call.sender with
      | error reason => rfl
      | ok found =>
          dsimp only
          cases state.db.deletePointer call.sender <;> rfl

/-- Looking up a pointer changes nothing. -/
theorem step_arrived_db (call : Call) (db : Database) : (step call .arrived db).2 = db := by
  simp only [step]
  cases parseAck call.bytes with
  | error reason => rfl
  | ok peer => cases authorizeAck db call.sender <;> rfl

/-- An acknowledgement is authorized exactly if it contains a name and the sender may take back its
pointer. -/
theorem step_arrived_eq_authorized_iff {call : Call} {db : Database} :
    (step call .arrived db).1 = .authorized ↔
      (∃ peer : PeerId, call.bytes = Utf8.encode peer.text) ∧
        ∃ pointers held, db.Retractable call.sender pointers held := by
  simp only [← parseAck_eq_ok_iff, ← authorizeAck_eq_ok_iff_retractable, step]
  cases parseAck call.bytes with
  | error reason => simp
  | ok peer => cases authorizeAck db call.sender <;> simp

/-- Behind the removal there is nothing left to do. -/
theorem step_authorized_ne (call : Call) (db : Database) :
    (step call .authorized db).1 ≠ .authorized := by
  simp only [step]
  cases db.deletePointer call.sender <;> simp

/-! ## Runs -/

/-- How far every acknowledgement has come, and the database that they share. -/
structure Together (ι : Type) where
  stage : ι → Stage
  db : Database

/-- What happens next. -/
inductive Moment (ι : Type) where
  /-- The handling of an acknowledgement takes its next step. -/
  | turn (call : ι)
  /-- A pointer is added, over an earlier one for its peer. -/
  | add (pointer : Pointer)

/-- The last of the pointers that are added for a peer. -/
def lastAdded {ι : Type} (peer : PeerId) (moments : List (Moment ι)) : Option Pointer :=
  (moments.filterMap fun
    | .turn _ => none
    | .add pointer => if pointer.peer = peer then some pointer else none).getLast?

namespace Together

variable {ι : Type} [DecidableEq ι]

/-- No acknowledgement has been looked at yet. -/
def start (db : Database) : Together ι := ⟨fun _ => .arrived, db⟩

/-- What a moment leaves behind. -/
def after (calls : ι → Call) (reached : Together ι) : Moment ι → Together ι
  | .turn i =>
      let (stage, db) := step (calls i) (reached.stage i) reached.db
      ⟨Function.update reached.stage i stage, db⟩
  | .add pointer =>
      match reached.db.addPointer pointer with
      | .ok db => { reached with db }
      | .error _ => reached

/-- What a number of moments leave behind, the first one first. -/
def run (calls : ι → Call) (reached : Together ι) (moments : List (Moment ι)) : Together ι :=
  moments.foldl (after calls) reached

/-- The next step of an acknowledgement deletes this row: it is in the table before, and not
after. -/
def Deletes (calls : ι → Call) (reached : Together ι) (i : ι) (held : PointerRow) : Prop :=
  ∃ pointers left, reached.db.pointers = some pointers ∧
    (reached.after calls (.turn i)).db.pointers = some left ∧
    held ∈ pointers.rows ∧ held ∉ left.rows

end Together

/-! ## What was looked up and what is deleted -/

section Runs

variable {ι : Type} [DecidableEq ι] {calls : ι → Call} {db : Database} {reached : Together ι}
  {moments : List (Moment ι)} {peer : PeerId} {pointer : Pointer} {row held : PointerRow} {i : ι}

omit [DecidableEq ι] in
theorem lastAdded_append_turn : lastAdded peer (moments ++ [.turn i]) = lastAdded peer moments := by
  simp [lastAdded]

omit [DecidableEq ι] in
theorem lastAdded_append_add :
    lastAdded peer (moments ++ [.add pointer]) =
      if pointer.peer = peer then some pointer else lastAdded peer moments := by
  unfold lastAdded
  split <;> simp [*]

/-- A step of an acknowledgement brings no row into the table. -/
theorem pointerRow?_of_step {call : Call} {stage : Stage}
    (h : (step call stage db).2.pointerRow? peer = some row) : db.pointerRow? peer = some row := by
  cases stage with
  | arrived => rwa [step_arrived_db] at h
  | done result => exact h
  | authorized =>
      simp only [step] at h
      cases hdeleted : db.deletePointer call.sender with
      | error fault => rwa [hdeleted] at h
      | ok removed =>
          simp only [hdeleted, Database.pointerRow?_of_deletePointer hdeleted] at h
          split at h
          · cases h
          · exact h

namespace Together

theorem run_append_singleton (moment : Moment ι) :
    run calls reached (moments ++ [moment]) = (run calls reached moments).after calls moment := by
  simp [run]

/-- A step deletes a row exactly if it is the removal and the row is that of the sender. -/
theorem deletes_iff :
    reached.Deletes calls i held ↔
      reached.stage i = .authorized ∧ reached.db.pointerRow? (calls i).sender = some held := by
  have hafter : (reached.after calls (.turn i)).db =
      (step (calls i) (reached.stage i) reached.db).2 := rfl
  unfold Deletes
  rw [hafter]
  cases hstage : reached.stage i with
  | arrived =>
      rw [step_arrived_db]
      simp +contextual
  | done result => simp +contextual [step]
  | authorized =>
      simp only [step, true_and]
      constructor
      · rintro ⟨pointers, left, htable, hleft, hheld, hgone⟩
        rw [Database.deletePointer_eq_ok_iff.mpr ⟨pointers, htable, rfl, rfl⟩] at hleft
        cases hleft
        rw [Table.erase_eq_without, Table.mem_rows_without, not_and, Bool.not_eq_false,
          beq_iff_eq] at hgone
        rw [Database.pointerRow?, htable]
        exact Table.find?_eq_some_iff.mpr ⟨hheld, hgone hheld⟩
      · intro hrow
        obtain ⟨pointers, htable, hfound⟩ := Option.bind_eq_some_iff.mp hrow
        obtain ⟨hheld, hkeyed⟩ := Table.find?_eq_some_iff.mp hfound
        rw [Database.deletePointer_eq_ok_iff.mpr ⟨pointers, htable, rfl, rfl⟩]
        refine ⟨pointers, _, htable, rfl, hheld, ?_⟩
        simp [Table.erase_eq_without, Table.mem_rows_without, hkeyed]

/-- How an acknowledgement came to be authorized: at one of its turns the row of the sender was
found, and of the pointers that were added for the sender since then the last is what is kept now,
if anything is. -/
structure Authorization (calls : ι → Call) (db : Database) (moments : List (Moment ι)) (i : ι)
    (before between : List (Moment ι)) (checked : PointerRow) : Prop where
  moments_eq : moments = before ++ .turn i :: between
  arrived : (run calls (start db) before).stage i = .arrived
  found : ∃ pointers,
    (run calls (start db) before).db.Retractable (calls i).sender pointers checked
  kept : ∀ row, (run calls (start db) moments).db.pointerRow? (calls i).sender = some row →
    row = ((lastAdded (calls i).sender between).map Pointer.toRow).getD checked

namespace Authorization

variable {before between : List (Moment ι)} {checked : PointerRow}

/-- The look-up authorizes an acknowledgement, with nothing added since then. -/
theorem lookedUp (harrived : (run calls (start db) moments).stage i = .arrived)
    (hstep : (step (calls i) .arrived (run calls (start db) moments).db).1 = .authorized) :
    ∃ checked, Authorization calls db (moments ++ [.turn i]) i moments [] checked := by
  obtain ⟨-, pointers, checked, hretractable⟩ := step_arrived_eq_authorized_iff.mp hstep
  refine ⟨checked, rfl, harrived, ⟨pointers, hretractable⟩, fun row hrow => ?_⟩
  rw [run_append_singleton] at hrow
  have hbefore := pointerRow?_of_step hrow
  rw [hretractable.pointerRow?_eq] at hbefore
  cases hbefore
  rfl

/-- The turn of any acknowledgement at most removes the row. -/
theorem turn (h : Authorization calls db moments i before between checked) (j : ι) :
    Authorization calls db (moments ++ [.turn j]) i before (between ++ [.turn j]) checked where
  moments_eq := by simp [h.moments_eq]
  arrived := h.arrived
  found := h.found
  kept := fun row hrow => by
    rw [run_append_singleton] at hrow
    rw [lastAdded_append_turn]
    exact h.kept row (pointerRow?_of_step hrow)

/-- A pointer replaces the row if it is for the sender. -/
theorem add (h : Authorization calls db moments i before between checked) (pointer : Pointer) :
    Authorization calls db (moments ++ [.add pointer]) i before (between ++ [.add pointer])
      checked where
  moments_eq := by simp [h.moments_eq]
  arrived := h.arrived
  found := h.found
  kept := fun row hrow => by
    rw [run_append_singleton, after] at hrow
    rw [lastAdded_append_add]
    cases hadded : (run calls (start db) moments).db.addPointer pointer with
    | error fault =>
        rw [hadded, Database.pointerRow?_of_addPointer_error hadded] at hrow
        cases hrow
    | ok next =>
        simp only [hadded, Database.pointerRow?_of_addPointer hadded] at hrow
        split at hrow
        · cases hrow
          simp [*]
        · rw [if_neg ‹_›]
          exact h.kept row hrow

end Authorization

theorem authorization (h : (run calls (start db) moments).stage i = .authorized) :
    ∃ before between checked, Authorization calls db moments i before between checked := by
  -- on the moments, of which the last is looked at
  induction moments using List.reverseRecOn with
  | nil => cases h
  | append_singleton moments moment ih =>
      rw [run_append_singleton] at h
      cases moment with
      | add pointer =>
          have hstage : (run calls (start db) moments).stage i = .authorized := by
            rw [← h, after]
            split <;> rfl
          obtain ⟨before, between, checked, hauth⟩ := ih hstage
          exact ⟨before, between ++ [.add pointer], checked, hauth.add pointer⟩
      | turn j =>
          rcases eq_or_ne j i with rfl | hne
          · -- its own turn: only the look-up authorizes it
            have hstep : (step (calls j) ((run calls (start db) moments).stage j)
                (run calls (start db) moments).db).1 = .authorized := by
              simpa [after] using h
            cases hstage : (run calls (start db) moments).stage j with
            | authorized =>
                rw [hstage] at hstep
                exact absurd hstep (step_authorized_ne _ _)
            | done result =>
                rw [hstage] at hstep
                cases hstep
            | arrived =>
                rw [hstage] at hstep
                obtain ⟨checked, hauth⟩ := Authorization.lookedUp hstage hstep
                exact ⟨moments, [], checked, hauth⟩
          · have hstage : (run calls (start db) moments).stage i = .authorized := by
              simpa [after, Function.update_of_ne hne.symm] using h
            obtain ⟨before, between, checked, hauth⟩ := ih hstage
            exact ⟨before, between ++ [.turn j], checked, hauth.turn j⟩

/-- **When a pointer is deleted that the sender may not take back.**  An acknowledgement that deletes
a row found, at an earlier turn, one that the sender may take back.  What it deletes is the last
pointer that was added for the sender in between, or what it found if there is none; so the sender
may not take it back exactly if such a pointer was added and names another canceller, or none. -/
theorem deleted_unauthorized_iff (calls : ι → Call) (db : Database) (moments : List (Moment ι))
    (i : ι) (held : PointerRow) (h : (run calls (start db) moments).Deletes calls i held) :
    held.peer = (calls i).sender.bytes ∧
      ∃ before between pointers checked, moments = before ++ .turn i :: between ∧
        (run calls (start db) before).stage i = .arrived ∧
        (run calls (start db) before).db.Retractable (calls i).sender pointers checked ∧
        held = ((lastAdded (calls i).sender between).map Pointer.toRow).getD checked ∧
        (¬ held.CancelledBy (calls i).sender ↔
          ∃ pointer, lastAdded (calls i).sender between = some pointer ∧
            pointer.cancel ≠ some (calls i).sender) := by
  obtain ⟨hstage, hrow⟩ := deletes_iff.mp h
  obtain ⟨pointers, -, hfound⟩ := Option.bind_eq_some_iff.mp hrow
  obtain ⟨before, between, checked, hauth⟩ := authorization hstage
  obtain ⟨pointers, hretractable⟩ := hauth.found
  have hheld := hauth.kept held hrow
  refine ⟨(Table.find?_eq_some_iff.mp hfound).2, before, between, pointers, checked,
    hauth.moments_eq, hauth.arrived, hretractable, hheld, ?_⟩
  cases hlast : lastAdded (calls i).sender between with
  | none =>
      rw [hlast] at hheld
      cases hheld
      simp [hretractable.cancels]
  | some pointer =>
      rw [hlast] at hheld
      cases hheld
      simp [Pointer.toRow_cancelledBy_iff]

/-! ### A pointer that is replaced between the look-up and the removal -/

/-- The pointer of the recipient, which only the stranger may take back. -/
def exampleReplacement : Pointer := ⟨exampleRecipient, "elsewhere", some exampleStranger, 1⟩

/-- An acknowledgement of the recipient. -/
def exampleCalls : Unit → Call :=
  fun _ => ⟨exampleRecipient, Utf8.encode exampleStranger.text⟩

/-- The pointer of the recipient is looked up, and then replaced. -/
def exampleMoments : List (Moment Unit) := [.turn (), .add exampleReplacement]

/-- What is in the database then. -/
def exampleReplaced : Database :=
  { exampleHolder.db with pointers := some (examplePointers.put exampleReplacement.toRow) }

theorem replacement_deletes :
    (run exampleCalls (start exampleHolder.db) exampleMoments).Deletes exampleCalls ()
      exampleReplacement.toRow := by
  have hlooked : (step (exampleCalls ()) .arrived exampleHolder.db).1 = .authorized :=
    step_arrived_eq_authorized_iff.mpr
      ⟨⟨exampleStranger, rfl⟩, _, _, exampleHolder_retractable⟩
  have hadded : exampleHolder.db.addPointer exampleReplacement = .ok exampleReplaced :=
    Database.addPointer_eq_ok_iff.mpr ⟨_, exampleHolder_retractable.table, rfl⟩
  have hrun : run exampleCalls (start exampleHolder.db) exampleMoments =
      ⟨fun _ => .authorized, exampleReplaced⟩ := by
    simp only [run, exampleMoments, List.foldl_cons, List.foldl_nil, after, start, hlooked,
      step_arrived_db, hadded]
    congr 1
  rw [hrun, deletes_iff]
  exact ⟨rfl, (Database.pointerRow?_of_addPointer hadded _).trans (if_pos rfl)⟩

/-- The recipient takes back a pointer that only the stranger may take back. -/
theorem replacement_deleted :
    (run exampleCalls (start exampleHolder.db) exampleMoments).Deletes exampleCalls ()
        exampleReplacement.toRow ∧
      ¬ exampleReplacement.toRow.CancelledBy (exampleCalls ()).sender := by
  refine ⟨replacement_deletes, ?_⟩
  obtain ⟨-, before, between, -, -, hmoments, -, -, -, hcancelled⟩ :=
    deleted_unauthorized_iff exampleCalls exampleHolder.db exampleMoments () _ replacement_deletes
  -- there is only one turn before the removal
  have hbetween : between = [.add exampleReplacement] := by
    rcases before with - | ⟨moment, - | ⟨moment', before⟩⟩ <;> simp_all [exampleMoments]
  rw [hcancelled, hbetween]
  refine ⟨exampleReplacement, rfl, ?_⟩
  decide

/-- Not every acknowledgement deletes a pointer that its sender may take back. -/
theorem unauthorized_deletion :
    ¬ ∀ (calls : Unit → Call) (db : Database) (moments : List (Moment Unit)) (held : PointerRow),
      (run calls (start db) moments).Deletes calls () held → held.CancelledBy (calls ()).sender := by
  intro hauthorized
  have hcancels := hauthorized exampleCalls exampleHolder.db exampleMoments _ replacement_deletes
  have hnamed : exampleReplacement.cancel = some exampleRecipient :=
    Pointer.toRow_cancelledBy_iff.mp hcancels
  revert hnamed
  decide

end Together

end Runs

end PeerMail.Retraction
