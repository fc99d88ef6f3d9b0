import Mathlib.Data.List.Induction
import PeerMail.Proofs.Delivery.Collaborators

/-!
# When the cursor moves forward

A call of `advance?` puts the cursor at the greatest name of its page, and does not look at where
the cursor stood.  So a page that ends before that place takes the cursor back
(`earlier_page_goes_back`).  `forward_iff_reaching` says that this is the only way: over any pages
the cursor moves forward, and stands at the greatest name seen, exactly if every page reaches as
far as all that came before it.

A flush keeps to that as long as the store lists what lies behind the cursor and nothing else,
whatever its other calls are answered.  The names it sees then grow from page to page, so it never
reads a message twice (`Courier.walk_forward`).  The store of a node is such a store
(`Outgoing.flush_pages_ascending`).
-/

namespace PeerMail

namespace PageCursor

open Outgoing (boundOf)

variable {cursor : PageCursor} {page names : List MessageId}
  {pages taken : List (List MessageId)}

/-! ## Places -/

/-- A place in a walk is at or before another; the start comes before every name. -/
def UpTo (first second : Option MessageId) : Prop :=
  ∀ id ∈ first, ∃ later ∈ second, id.bytes ≤ later.bytes

/-- A place is the greatest of some names, or the start if there are none. -/
structure IsLatest (place : Option MessageId) (names : List MessageId) : Prop where
  mem : ∀ id ∈ place, id ∈ names
  le : ∀ id ∈ names, ∃ last ∈ place, id.bytes ≤ last.bytes

theorem isLatest_toList (place : Option MessageId) : IsLatest place place.toList where
  mem := fun _ hid => Option.mem_toList.mpr hid
  le := fun id hid => ⟨id, Option.mem_toList.mp hid, List.le_refl _⟩

/-! ## One call -/

/-- The cursor after a call; one that is refused leaves it as it is. -/
def advanced (cursor : PageCursor) (page : List MessageId) : PageCursor :=
  (cursor.advance? page).getD cursor

/-- What a call makes of its page, wherever the cursor stands. -/
structure Answers (cursor : PageCursor) (page : List MessageId) : Prop where
  refused : cursor.advance? page = none ↔ page = []
  kept : page = [] → cursor.advanced page = cursor
  moved : page ≠ [] → ∃ last, IsLatest (some last) page ∧
    cursor.advanced page = { cursor with after := some last }

theorem answers (cursor : PageCursor) (page : List MessageId) : cursor.Answers page where
  refused := by rw [advance?, Option.map_eq_none_iff, latest_eq_none_iff]
  kept := by
    rintro rfl
    rfl
  moved := fun hne => by
    obtain ⟨last, hadvance, hmem, hle⟩ := cursor.advance?_of_ne_nil hne
    refine ⟨last, ⟨?_, fun id hid => ⟨last, rfl, hle id hid⟩⟩, ?_⟩
    · rintro id ⟨⟩
      exact hmem
    · rw [advanced, hadvance, Option.getD_some]

theorem isLatest_advanced (cursor : PageCursor) (hne : page ≠ []) :
    IsLatest (cursor.advanced page).after page := by
  obtain ⟨last, hlast, heq⟩ := (cursor.answers page).moved hne
  rwa [heq]

/-! ## One call after the other -/

/-- The cursor after a call for each of some pages. -/
def through (cursor : PageCursor) (pages : List (List MessageId)) : PageCursor :=
  pages.foldl advanced cursor

/-- The names seen on the way: the one that the cursor stood at first, and all on the pages. -/
def seen (cursor : PageCursor) (pages : List (List MessageId)) : List MessageId :=
  cursor.after.toList ++ pages.flatten

@[simp] theorem through_concat :
    cursor.through (pages ++ [page]) = (cursor.through pages).advanced page := by
  simp [through]

@[simp] theorem mem_seen_concat {id : MessageId} :
    id ∈ cursor.seen (pages ++ [page]) ↔ id ∈ cursor.seen pages ∨ id ∈ page := by
  simp [seen, or_assoc]

/-- No call takes the cursor back. -/
def Forward (cursor : PageCursor) (pages : List (List MessageId)) : Prop :=
  ∀ before page, before ++ [page] <+: pages →
    UpTo (cursor.through before).after (cursor.through (before ++ [page])).after

/-- At every time the cursor stands at the greatest name seen so far. -/
def AtFurthest (cursor : PageCursor) (pages : List (List MessageId)) : Prop :=
  ∀ taken, taken <+: pages → IsLatest (cursor.through taken).after (cursor.seen taken)

/-- No page but an empty one ends before a name that has been seen. -/
def Reaching (cursor : PageCursor) (pages : List (List MessageId)) : Prop :=
  ∀ before page, before ++ [page] <+: pages → page ≠ [] →
    ∀ id ∈ cursor.seen before, ∃ name ∈ page, id.bytes ≤ name.bytes

/-- A call with a page that reaches all names seen leads to the greatest of them. -/
theorem IsLatest.advanced (h : IsLatest cursor.after names)
    (hreach : page ≠ [] → ∀ id ∈ names, ∃ name ∈ page, id.bytes ≤ name.bytes) :
    IsLatest (cursor.advanced page).after (names ++ page) := by
  by_cases hne : page = []
  · subst hne
    rwa [(cursor.answers []).kept rfl, List.append_nil]
  · have hlatest := isLatest_advanced cursor hne
    refine ⟨fun id hid => List.mem_append_right names (hlatest.mem id hid), fun id hid => ?_⟩
    rcases List.mem_append.mp hid with hbefore | hpage
    · obtain ⟨name, hname, hle⟩ := hreach hne id hbefore
      obtain ⟨last, hlast, hle'⟩ := hlatest.le name hname
      exact ⟨last, hlast, List.le_trans hle hle'⟩
    · exact hlatest.le id hpage

theorem Reaching.atFurthest (h : cursor.Reaching pages) : cursor.AtFurthest pages := by
  intro taken htaken
  induction taken using List.reverseRecOn with
  | nil => simpa [through, seen] using isLatest_toList cursor.after
  | append_singleton before page ih =>
      have hlatest := (ih ((List.prefix_append before [page]).trans htaken)).advanced
        (h before page htaken)
      simpa [seen] using hlatest

theorem AtFurthest.forward (h : cursor.AtFurthest pages) : cursor.Forward pages := by
  intro before page hcall id hid
  -- where the cursor stood is a name that has been seen, and stays one
  have hseen : id ∈ cursor.seen before :=
    (h before ((List.prefix_append before [page]).trans hcall)).mem id hid
  exact (h (before ++ [page]) hcall).le id (mem_seen_concat.mpr (.inl hseen))

/-- No name that has been seen comes after the place of a cursor that moves forward. -/
theorem Forward.le_after (h : cursor.Forward pages) (htaken : taken <+: pages) :
    ∀ id ∈ cursor.seen taken, ∃ last ∈ (cursor.through taken).after, id.bytes ≤ last.bytes := by
  induction taken using List.reverseRecOn with
  | nil => simpa [through, seen] using (isLatest_toList cursor.after).le
  | append_singleton before page ih =>
      intro id hid
      rcases mem_seen_concat.mp hid with hbefore | hpage
      · obtain ⟨place, hplace, hle⟩ := ih ((List.prefix_append before [page]).trans htaken) id hbefore
        obtain ⟨last, hlast, hle'⟩ := h before page htaken place hplace
        exact ⟨last, hlast, List.le_trans hle hle'⟩
      · rw [through_concat]
        exact (isLatest_advanced _ (List.ne_nil_of_mem hpage)).le id hpage

theorem Forward.reaching (h : cursor.Forward pages) : cursor.Reaching pages := by
  intro before page hcall hne id hid
  obtain ⟨place, hplace, hle⟩ :=
    h.le_after ((List.prefix_append before [page]).trans hcall) id hid
  obtain ⟨last, hlast, hle'⟩ := h before page hcall place hplace
  rw [through_concat] at hlast
  exact ⟨last, (isLatest_advanced _ hne).mem last hlast, List.le_trans hle hle'⟩

/-- **The cursor moves forward exactly if no page ends before a name that has been seen**, and
exactly then it always stands at the greatest name seen.  In any case a call is refused exactly for
an empty page, which leaves the cursor as it is, and any other page puts it at its own greatest
name. -/
theorem forward_iff_reaching (cursor : PageCursor) (pages : List (List MessageId)) :
    (cursor.Forward pages ↔ cursor.Reaching pages) ∧
      (cursor.AtFurthest pages ↔ cursor.Reaching pages) ∧
        ∀ before page, before ++ [page] <+: pages →
          (cursor.through before).Answers page := by
  refine ⟨⟨Forward.reaching, ?_⟩, ⟨?_, Reaching.atFurthest⟩, ?_⟩
  · intro hreaching
    exact hreaching.atFurthest.forward
  · intro hfurthest
    exact hfurthest.forward.reaching
  · intro before page _
    exact (cursor.through before).answers page

/-- The name with a number in its last byte. -/
def exampleId (number : UInt8) : MessageId := ⟨⟨List.replicate 15 0 ++ [number], rfl⟩⟩

/-- A page with the name 1 takes a cursor back that stands at 2. -/
theorem earlier_page_goes_back :
    ((start defaultPageSize).through [[exampleId 2], [exampleId 1]]).after = some (exampleId 1) ∧
      ¬ (start defaultPageSize).Forward [[exampleId 2], [exampleId 1]] ∧
        ¬ (start defaultPageSize).AtFurthest [[exampleId 2], [exampleId 1]] := by
  have hback : ¬ (start defaultPageSize).Forward [[exampleId 2], [exampleId 1]] := by
    intro hforward
    obtain ⟨later, hlater, hle⟩ :=
      hforward [[exampleId 2]] [exampleId 1] (List.prefix_refl _) (exampleId 2) rfl
    obtain rfl : exampleId 1 = later := Option.some.inj hlater
    exact absurd hle (by decide)
  exact ⟨rfl, hback, fun hfurthest => hback hfurthest.forward⟩

/-! ## Pages that follow each other -/

/-- The names on a page come after all names on the pages before it. -/
def Ascending (pages : List (List MessageId)) : Prop :=
  pages.Pairwise fun earlier later => ∀ id ∈ earlier, ∀ name ∈ later, id.bytes < name.bytes

theorem Ascending.reaching (h : Ascending pages) (pageSize : Nat) :
    (start pageSize).Reaching pages := by
  intro before page hcall hne id hid
  obtain ⟨earlier, hearlier, hid⟩ : ∃ earlier ∈ before, id ∈ earlier := by
    simpa [seen, start] using hid
  obtain ⟨name, hname⟩ := List.exists_mem_of_ne_nil page hne
  have hordered := (List.pairwise_append.mp (h.sublist hcall.sublist)).2.2 earlier hearlier page
    List.mem_cons_self
  exact ⟨name, hname, List.le_of_lt (hordered id hid name hname)⟩

theorem Ascending.atFurthest (h : Ascending pages) (pageSize : Nat) :
    (start pageSize).AtFurthest pages :=
  (h.reaching pageSize).atFurthest

/-- A page that lies behind the cursor follows the pages that have brought it there. -/
theorem Ascending.concat (h : Ascending pages) (pageSize : Nat)
    (hbehind : ∀ name ∈ page,
      boundOf ((start pageSize).through pages).after < name.bytes) :
    Ascending (pages ++ [page]) := by
  refine List.pairwise_append.mpr ⟨h, List.pairwise_singleton _ _, ?_⟩
  intro earlier hearlier later hlater id hid name hname
  obtain rfl := List.mem_singleton.mp hlater
  have hseen : id ∈ (start pageSize).seen pages :=
    List.mem_append_right _ (List.mem_flatten.mpr ⟨earlier, hearlier, hid⟩)
  obtain ⟨last, hlast, hle⟩ := (h.atFurthest pageSize pages (List.prefix_refl _)).le id hseen
  have hbound := hbehind name hname
  rw [Option.mem_def.mp hlast] at hbound
  exact List.lt_of_le_of_lt hle hbound

end PageCursor

/-! ## The pages of a flush -/

namespace Courier

open Outgoing (boundOf)
open PageCursor (Ascending)

/-- The names on a page that was loaded. -/
def Call.page? : Call → Option (List MessageId)
  | .list _ _ (.ok page) => some (page.map QueuedMessage.id)
  | _ => none

/-- The pages that were loaded. -/
def pages (calls : List Call) : List (List MessageId) := calls.filterMap Call.page?

/-- The store lists nothing but what lies behind the name that it is asked from. -/
def ListsBehind (calls : List Call) : Prop :=
  ∀ after limit page, .list after limit (.ok page) ∈ calls →
    ∀ message ∈ page, boundOf after < message.id.bytes

/-- The place of a flush that is not through with the queue. -/
def Phase.cursor? : Phase → Option PageCursor
  | .loading cursor | .delivering cursor _ _ | .deleting cursor _ => some cursor
  | _ => none

/-- The pages so far follow each other, and have brought the cursor where it is. -/
structure Advancing (pageSize : Nat) (state : State) : Prop where
  place : ∀ cursor ∈ state.phase.cursor?,
    cursor = (PageCursor.start pageSize).through (pages state.calls)
  ascending : Ascending (pages state.calls)

variable {pageSize : Nat} {state next : State}

theorem advancing_start (pageSize : Nat) : Advancing pageSize (start pageSize) where
  place := by
    rintro cursor ⟨⟩
    rfl
  ascending := List.Pairwise.nil

theorem Stage.Step.page?_eq_none {message : QueuedMessage} {stage stage' : Stage} {call : Call}
    (h : Stage.Step message stage call stage') : call.page? = none := by
  cases h <;> rfl

theorem Stage.Breaks.page?_eq_none {message : QueuedMessage} {stage : Stage} {call : Call}
    (h : Stage.Breaks message stage call) : call.page? = none := by
  cases h <;> rfl

namespace Advancing

/-- A step that loads nothing and does not move the cursor. -/
theorem onward (h : Advancing pageSize state) (hpages : pages next.calls = pages state.calls)
    (hcursor : ∀ cursor ∈ next.phase.cursor?, cursor ∈ state.phase.cursor?) :
    Advancing pageSize next where
  place := fun cursor hmem => hpages ▸ h.place cursor (hcursor cursor hmem)
  ascending := hpages ▸ h.ascending

/-- A page is loaded. -/
theorem load {cursor : PageCursor} {page : List QueuedMessage}
    (h : Advancing pageSize state) (hcursor : state.phase.cursor? = some cursor)
    (hcalls : next.calls = state.calls ++ [.list cursor.after cursor.pageSize (.ok page)])
    (hplace : ∀ other ∈ next.phase.cursor?,
      other = cursor.advanced (page.map QueuedMessage.id))
    (hstore : ListsBehind next.calls) : Advancing pageSize next := by
  have hpages : pages next.calls = pages state.calls ++ [page.map QueuedMessage.id] := by
    rw [hcalls, pages, List.filterMap_append]
    rfl
  have hhere := h.place cursor hcursor
  constructor
  · intro other hother
    rw [hplace other hother, hpages, PageCursor.through_concat, hhere]
  · rw [hpages]
    refine h.ascending.concat pageSize fun name hname => ?_
    obtain ⟨message, hmessage, rfl⟩ := List.mem_map.mp hname
    rw [← hhere]
    exact hstore cursor.after cursor.pageSize page
      (hcalls ▸ List.mem_append_right _ List.mem_cons_self) message hmessage

theorem step (h : Advancing pageSize state) (hstep : Step state next)
    (hstore : ListsBehind next.calls) : Advancing pageSize next := by
  cases hstep with
  | load hadvance =>
      refine h.load rfl rfl ?_ hstore
      rintro other ⟨⟩
      rw [PageCursor.advanced, hadvance, Option.getD_some]
  -- the walk ends here, so that no cursor is left to stand anywhere
  | loadEmpty hadvance => exact h.load rfl rfl (by rintro other ⟨⟩) hstore
  | loadFails fault => exact h.onward (by simp [pages, Call.page?]) (by rintro cursor ⟨⟩)
  | work hcall => exact h.onward (by simp [pages, hcall.page?_eq_none]) fun _ => id
  | breakOff hbreaks => exact h.onward (by simp [pages, hbreaks.page?_eq_none]) fun _ => id
  | join => exact h.onward rfl fun _ => id
  | settle => exact h.onward rfl fun _ => id
  | delete existed => exact h.onward (by simp [pages, Call.page?]) fun _ => id
  | deleteFails fault => exact h.onward (by simp [pages, Call.page?]) fun _ => id
  | turn => exact h.onward rfl fun _ => id
  | count answer => exact h.onward (by simp [pages, Call.page?]) (by rintro cursor ⟨⟩)

theorem steps (h : Advancing pageSize state) (hsteps : Steps state next)
    (hstore : ListsBehind next.calls) : Advancing pageSize next := by
  induction hsteps with
  | refl => exact h
  | @tail middle next _ hstep ih =>
      -- calls are only added, so what the store has listed before lies behind as well
      have hearlier : ListsBehind middle.calls := by
        intro after limit page hmem
        refine hstore after limit page ?_
        rcases hstep.calls_eq with heq | ⟨call, heq⟩
        · rwa [heq]
        · rw [heq]
          exact List.mem_append_left _ hmem
      exact (ih hearlier).step hstep hstore

end Advancing

/-- **A flush only goes forward**, whatever its calls are answered, if the store lists nothing but
what lies behind the cursor: every name on a page is greater than all on the pages before it. -/
theorem walk_forward (h : Steps (start pageSize) state) (hstore : ListsBehind state.calls) :
    Ascending (pages state.calls) ∧ (PageCursor.start pageSize).Forward (pages state.calls) ∧
      (PageCursor.start pageSize).AtFurthest (pages state.calls) := by
  have hascending := ((advancing_start pageSize).steps h hstore).ascending
  have hfurthest := hascending.atFurthest pageSize
  exact ⟨hascending, hfurthest.forward, hfurthest⟩

end Courier

/-! ## The pages of a node -/

namespace Outgoing

open Courier

theorem listsBehind_of_answers {outgoing final : Outgoing} {calls : List Call}
    (h : collaborators.AnswersAll outgoing calls final) : ListsBehind calls := by
  induction calls generalizing outgoing with
  | nil =>
      intro after limit page hmem
      cases hmem
  | cons call rest ih =>
      obtain ⟨middle, hcall, hrest⟩ := h
      intro after limit page hmem message hmessage
      rcases List.mem_cons.mp hmem with rfl | hmem
      · have hlisted : (outgoing.db.listMessages after limit).1 = .ok page :=
          congrArg Prod.fst hcall
        exact Database.lt_of_listMessages hlisted hmessage
      · exact ih hrest after limit page hmem message hmessage

/-- **A flush of a node goes through its queue once**: the pages that it loads follow each other,
and none of its calls takes the cursor back. -/
theorem flush_pages_ascending (outgoing : Outgoing) (pageSize : Nat) :
    ∃ calls, collaborators.AnswersAll outgoing calls (outgoing.flush pageSize).2 ∧
      PageCursor.Ascending (pages calls) ∧ (PageCursor.start pageSize).Forward (pages calls) := by
  have hpages := outgoing.pages_flush_lt pageSize
  unfold flush at hpages ⊢
  rw [← services_eq] at hpages ⊢
  obtain ⟨calls, hanswers, hsteps⟩ := collaborators.flush_steps _ pageSize outgoing hpages
  obtain ⟨hascending, hforward, -⟩ := walk_forward hsteps (listsBehind_of_answers hanswers)
  exact ⟨calls, hanswers, hascending, hforward⟩

end Outgoing

end PeerMail
