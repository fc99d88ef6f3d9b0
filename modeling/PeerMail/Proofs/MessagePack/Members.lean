import PeerMail.Proofs.MessagePack.RoundTrip

/-!
# Texts, lists, records and choices

What is written as a text, a list or a record is read back as what it was.  What
is read from a value with a written form is again short enough to be written, in
whatever form it stood there.
-/

namespace PeerMail

theorem Utf8.decode?_eq_some_iff {bytes : Bytes} {text : String} :
    decode? bytes = some text ↔ encode text = bytes := by
  constructor
  · intro h
    simp only [decode?, String.fromUTF8?] at h
    split at h
    · obtain rfl := Option.some.inj h
      simp [encode, String.fromUTF8]
    · cases h
  · rintro rfl
    exact decode?_encode text

namespace MessagePack.Value

variable {α β : Type} {value content : Value} {names : List String} {room size limit position : Nat}

/-! ## Lists -/

theorem mapM_map_eq_some {write : α → β} {read : β → Option α} {items : List α}
    (h : ∀ item ∈ items, read (write item) = some item) :
    (items.map write).mapM read = some items := by
  induction items with
  | nil => rfl
  | cons first rest ih =>
      have hfirst := h first List.mem_cons_self
      have hrest := ih fun item hitem => h item (List.mem_cons_of_mem first hitem)
      simp [List.mapM_cons, hfirst, hrest]

theorem mapM_eq_some {read : α → Option β} {items : List α} {found : List β}
    (h : items.mapM read = some found) :
    found.length = items.length ∧ ∀ result ∈ found, ∃ item ∈ items, read item = some result := by
  induction items generalizing found with
  | nil =>
      obtain rfl := Option.some.inj h
      simp
  | cons first rest ih =>
      simp only [List.mapM_cons, Option.bind_eq_bind, Option.bind_eq_some_iff, Option.pure_def,
        Option.some.injEq] at h
      obtain ⟨result, hresult, results, hresults, rfl⟩ := h
      obtain ⟨hlength, horigin⟩ := ih hresults
      refine ⟨by simp [hlength], fun other hother => ?_⟩
      rcases List.mem_cons.mp hother with rfl | hother
      · exact ⟨first, List.mem_cons_self, hresult⟩
      · obtain ⟨item, hitem, hread⟩ := horigin other hother
        exact ⟨item, List.mem_cons_of_mem first hitem, hread⟩

/-- A list is written as the written forms of its items. -/
theorem sized_array_map {write : α → Value} {items : List α} (hlength : items.length < 2 ^ 32)
    (h : ∀ item ∈ items, (write item).Sized) : (array (items.map write)).Sized := by
  refine .array (by rwa [List.length_map]) fun value hvalue => ?_
  obtain ⟨item, hitem, rfl⟩ := List.mem_map.mp hvalue
  exact h item hitem

theorem sized_bytesAsItems {bytes : Bytes} : ∀ item ∈ bytesAsItems bytes, item.Sized := by
  intro item hitem
  obtain ⟨byte, -, rfl⟩ := List.mem_map.mp hitem
  exact .unsigned (Nat.lt_trans byte.toNat_lt (by decide))

theorem sized_of_list? {items : List Value} (hsized : value.Sized) (h : value.list? = some items) :
    items.length < 2 ^ 32 ∧ ∀ item ∈ items, item.Sized := by
  cases hsized <;> cases h
  case binary bytes bound => exact ⟨by simpa [bytesAsItems] using bound, sized_bytesAsItems⟩
  case array bound members => exact ⟨bound, members⟩

theorem sized_of_members? {items : List Value} (hsized : value.Sized)
    (h : value.members? size = some items) : ∀ item ∈ items, item.Sized := by
  cases hsized with
  | array bound members =>
      simp only [members?, Option.ite_none_right_eq_some, Option.some.injEq] at h
      exact h.2 ▸ members
  | binary bound =>
      simp only [members?, Option.ite_none_right_eq_some, Option.some.injEq] at h
      exact h.2 ▸ sized_bytesAsItems
  | _ => cases h

/-! ## Bytes, texts and numbers -/

theorem nat?_unsigned {number : Nat} (h : number < limit) :
    (unsigned number).nat? limit = some number :=
  if_pos h

theorem byte?_unsigned (byte : UInt8) : (unsigned byte.toNat).byte? = some byte := by
  rw [byte?, nat?_unsigned byte.toNat_lt, Option.map_some, UInt8.ofNat_toNat]

theorem bytes?_ofBytes (bytes : Bytes) : (ofBytes bytes).bytes? = some bytes :=
  mapM_map_eq_some fun byte _ => byte?_unsigned byte

theorem exactBytes?_ofBytes {bytes : Bytes} (h : bytes.length = size) :
    (ofBytes bytes).exactBytes? size = some bytes := by
  have hlength : (bytesAsItems bytes).length = size := by simp [bytesAsItems, h]
  rw [exactBytes?, ofBytes, members?, if_pos hlength]
  exact bytes?_ofBytes bytes

theorem string?_ofString (text : String) : (ofString text).string? = some text :=
  Utf8.decode?_encode text

theorem length_of_bytes? {bytes : Bytes} (hsized : value.Sized) (h : value.bytes? = some bytes) :
    bytes.length < 2 ^ 32 := by
  obtain ⟨items, hitems, hbytes⟩ := Option.bind_eq_some_iff.mp h
  rw [(mapM_eq_some hbytes).1]
  exact (sized_of_list? hsized hitems).1

theorem length_of_string? {text : String} (hsized : value.Sized) (h : value.string? = some text) :
    (Utf8.encode text).length < 2 ^ 32 := by
  cases hsized with
  | text bound => exact Utf8.decode?_eq_some_iff.mp h ▸ bound
  | binary bound => exact Utf8.decode?_eq_some_iff.mp h ▸ bound
  | _ => cases h

theorem sized_ofBytes {bytes : Bytes} (h : bytes.length < 2 ^ 32) : (ofBytes bytes).Sized :=
  .array (by simpa [bytesAsItems] using h) sized_bytesAsItems

/-! ## Nesting -/

theorem depthItems_le {items : List Value} {levels : Nat} (h : ∀ item ∈ items, item.depth ≤ levels) :
    depthItems items ≤ levels := by
  induction items with
  | nil => exact Nat.zero_le levels
  | cons first rest ih =>
      have hfirst := h first List.mem_cons_self
      have hrest := ih fun item hitem => h item (List.mem_cons_of_mem first hitem)
      rw [depthItems]
      omega

theorem depth_array_le {items : List Value} {levels : Nat}
    (h : ∀ item ∈ items, item.depth ≤ levels) : (array items).depth ≤ levels + 1 := by
  rw [depth]
  exact Nat.succ_le_succ (depthItems_le h)

theorem depth_array_map_le {write : α → Value} {items : List α} {levels : Nat}
    (h : ∀ item, (write item).depth ≤ levels) : (array (items.map write)).depth ≤ levels + 1 := by
  refine depth_array_le fun value hvalue => ?_
  obtain ⟨item, -, rfl⟩ := List.mem_map.mp hvalue
  exact h item

theorem depth_ofBytes_le (bytes : Bytes) : (ofBytes bytes).depth ≤ 1 :=
  depth_array_map_le fun _ => Nat.le_refl 0

theorem depth_ofString (text : String) : (ofString text).depth = 0 :=
  rfl

theorem depth_ofChoice_le {name : String} {levels : Nat} (h : content.depth ≤ levels) :
    (ofChoice name content).depth ≤ levels + 1 := by
  simp only [ofChoice, depth, depthEntries, depth_ofString]
  omega

/-! ## Records -/

theorem record?_array {items : List Value} (h : items.length = names.length) :
    (array items).record? names room = some (items.map some) := by
  simp [record?, members?, h]

/-- Whatever the entries put into the slots, it is one of their values. -/
theorem sized_of_fillSlots {entries : List (Value × Value)} {slots filled : List (Option Value)}
    (hentries : ∀ entry ∈ entries, entry.2.Sized) (hslots : ∀ value, some value ∈ slots → value.Sized)
    (h : fillSlots names room entries slots = some filled) :
    ∀ value, some value ∈ filled → value.Sized := by
  induction entries generalizing slots with
  | nil => exact Option.some.inj h ▸ hslots
  | cons entry rest ih =>
      obtain ⟨key, value⟩ := entry
      have hvalue : value.Sized := hentries (key, value) List.mem_cons_self
      have hrest := fun entry hentry => hentries entry (List.mem_cons_of_mem (key, value) hentry)
      unfold fillSlots at h
      split at h
      · cases h
      · split at h
        · exact ih hrest hslots h
        · cases h
      · split at h
        · refine ih hrest (fun other hother => ?_) h
          rcases List.mem_or_eq_of_mem_set hother with hold | hnew
          · exact hslots other hold
          · exact Option.some.inj hnew ▸ hvalue
        · cases h

theorem sized_of_record? {slots : List (Option Value)} (hsized : value.Sized)
    (h : value.record? names room = some slots) :
    ∀ member, some member ∈ slots → member.Sized := by
  unfold record? at h
  split at h
  · cases hsized with
    | map bound keys values => exact sized_of_fillSlots values (by simp) h
  · obtain ⟨items, hitems, rfl⟩ := Option.map_eq_some_iff.mp h
    intro member hmember
    obtain ⟨item, hitem, heq⟩ := List.mem_map.mp hmember
    exact Option.some.inj heq ▸ sized_of_members? hsized hitems item hitem

/-! ## Choices -/

theorem sized_of_choice? (hsized : value.Sized)
    (h : value.choice? names = some (position, some content)) : content.Sized := by
  unfold choice? at h
  split at h
  · next key content' =>
      simp only [Option.bind_eq_bind, Option.bind_eq_some_iff, Option.pure_def, Option.some.injEq,
        Prod.mk.injEq] at h
      obtain ⟨_, -, _, -, -, rfl⟩ := h
      cases hsized with
      | map bound keys values => exact values _ (List.mem_singleton_self _)
  · cases h
  · simp [Option.bind_eq_some_iff] at h

theorem sized_ofChoice {name : String} (hname : (Utf8.encode name).length < 2 ^ 32)
    (hcontent : content.Sized) : (ofChoice name content).Sized := by
  refine .map (by simp) ?_ ?_
  · intro entry hentry
    obtain rfl := List.mem_singleton.mp hentry
    exact .text hname
  · intro entry hentry
    obtain rfl := List.mem_singleton.mp hentry
    exact hcontent

end MessagePack.Value

end PeerMail
