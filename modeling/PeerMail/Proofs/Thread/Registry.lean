import Mathlib.Data.List.Nodup
import PeerMail.Thread.Registry

/-!
# What the operations of the registry leave behind

Following a thread puts an entry at the end, appending a block lengthens one
chain, and removing a thread that has just been followed gives back the registry
from before.  Each operation has one lemma that says when it succeeds and with
which registry; nothing later unfolds it.

Threads that are tracked stay so: `Kept` is what every operation but `remove`
does to a registry, and it is transitive.
-/

namespace PeerMail.Registry

/-- The registry with one more thread, which has no blocks yet. -/
def withThread (registry : Registry) (name : String) (key : Keypair) : Registry :=
  ⟨registry.entries ++ [⟨.ofKey key.publicKey, ⟨name, key⟩, []⟩]⟩

/-- The registry with a block at the end of the chain of a thread. -/
def withBlock (registry : Registry) (id : ThreadId) (block : Cid) : Registry :=
  ⟨registry.entries.map fun entry =>
    if entry.id = id then { entry with chain := entry.chain ++ [block] } else entry⟩

variable {registry next : Registry} {id other : ThreadId} {name : String} {key : Keypair}

/-! ## Looking up -/

theorem lookup_eq_none_iff : registry.lookup id = none ↔ registry.find? id = none := by
  simp [lookup]

theorem find?_eq_some {entry : ThreadEntry} (h : registry.find? id = some entry) :
    entry ∈ registry.entries ∧ entry.id = id := by
  refine ⟨List.mem_of_find?_eq_some h, ?_⟩
  simpa using List.find?_some h

theorem find?_eq_none_iff :
    registry.find? id = none ↔ ∀ entry ∈ registry.entries, entry.id ≠ id := by
  simp [find?]

/-- Where no name stands twice, an entry is found under its name. -/
theorem find?_of_mem {entry : ThreadEntry} (hdistinct : (registry.entries.map ThreadEntry.id).Nodup)
    (h : entry ∈ registry.entries) : registry.find? entry.id = some entry := by
  cases hfound : registry.find? entry.id with
  | none => exact absurd rfl (find?_eq_none_iff.mp hfound entry h)
  | some found =>
      obtain ⟨hmem, hid⟩ := find?_eq_some hfound
      rw [List.inj_on_of_nodup_map hdistinct hmem h hid]

theorem mem_chain_iff {block : Cid} :
    block ∈ registry.chain id ↔ ∃ entry, registry.find? id = some entry ∧ block ∈ entry.chain := by
  unfold chain
  cases hfound : registry.find? id with
  | none => simp
  | some entry => simp

theorem find?_withThread (h : registry.find? (.ofKey key.publicKey) = none) :
    (registry.withThread name key).find? id =
      if ThreadId.ofKey key.publicKey = id then some ⟨.ofKey key.publicKey, ⟨name, key⟩, []⟩
      else registry.find? id := by
  unfold find? withThread
  rw [List.find?_append]
  split
  · next heq =>
      subst heq
      have hnone : registry.entries.find?
          (fun entry => entry.id == .ofKey key.publicKey) = none := h
      simp [hnone]
  · next hne => simp [hne]

theorem find?_withBlock (block : Cid) :
    (registry.withBlock id block).find? other =
      (registry.find? other).map fun entry =>
        if entry.id = id then { entry with chain := entry.chain ++ [block] } else entry := by
  unfold find? withBlock
  rw [List.find?_map]
  congr 1
  refine congrArg (fun p => List.find? p registry.entries) (funext fun entry => ?_)
  simp only [Function.comp]
  split <;> rfl

/-! ## Operations -/

theorem create_eq_ok_iff {thread : Thread} :
    registry.create name key = .ok (thread, next) ↔
      registry.find? (.ofKey key.publicKey) = none ∧ thread = ⟨name, key⟩ ∧
        next = registry.withThread name key := by
  unfold create withThread
  simp only [Thread.id]
  split
  · next hfound => simp [hfound]
  · next hnone => simp [hnone, eq_comm]

theorem create_eq_error {reason : ThreadError} (h : registry.create name key = .error reason) :
    reason = .alreadyExists (.ofKey key.publicKey) ∧
      registry.find? (.ofKey key.publicKey) ≠ none := by
  unfold create at h
  simp only [Thread.id] at h
  split at h
  · next hfound => exact ⟨by simpa using h.symm, by simp [hfound]⟩
  · simp at h

/-- Removing a thread that has just been followed gives back the registry from before. -/
theorem remove_withThread (h : registry.find? (.ofKey key.publicKey) = none) :
    (registry.withThread name key).remove (.ofKey key.publicKey) = .ok registry := by
  have hkept : registry.entries.filter (fun entry => !(entry.id == .ofKey key.publicKey)) =
      registry.entries := by
    rw [List.filter_eq_self]
    intro entry hentry
    simpa using find?_eq_none_iff.mp h entry hentry
  unfold remove
  rw [find?_withThread h, if_pos rfl]
  simp [withThread, hkept]

/-- A thread that is removed is gone, and all others are still there. -/
theorem find?_of_remove (h : registry.remove id = .ok next) :
    next.find? other = if other = id then none else registry.find? other := by
  unfold remove at h
  split at h
  · cases h
    unfold find?
    rw [List.find?_filter]
    split
    · next heq =>
        subst heq
        simp
    · next hne =>
        congr 1
        funext entry
        by_cases hentry : entry.id = other
        · simp [hentry, hne]
        · simp [hentry]
  · cases h

theorem append_eq_ok_iff {block : Cid} :
    registry.append id block = .ok next ↔
      (∃ entry, registry.find? id = some entry ∧ block ∉ entry.chain) ∧
        next = registry.withBlock id block := by
  unfold append withBlock
  split
  · next hnone => simp [hnone]
  · next entry hfound =>
      split
      · next hmem => simp [hfound, hmem]
      · next hnew => simp [hfound, hnew, eq_comm]

/-- The first block of a thread that has just been followed is always taken. -/
theorem append_withThread (h : registry.find? (.ofKey key.publicKey) = none) (block : Cid) :
    (registry.withThread name key).append (.ofKey key.publicKey) block =
      .ok ((registry.withThread name key).withBlock (.ofKey key.publicKey) block) := by
  refine append_eq_ok_iff.mpr ⟨⟨⟨.ofKey key.publicKey, ⟨name, key⟩, []⟩, ?_, by simp⟩, rfl⟩
  rw [find?_withThread h, if_pos rfl]

/-- Following a thread and appending its first block put one entry at the end. -/
theorem withBlock_withThread (h : registry.find? (.ofKey key.publicKey) = none) (block : Cid) :
    (registry.withThread name key).withBlock (.ofKey key.publicKey) block =
      ⟨registry.entries ++ [⟨.ofKey key.publicKey, ⟨name, key⟩, [block]⟩]⟩ := by
  have hold : registry.entries.map (fun entry => if entry.id = .ofKey key.publicKey then
      { entry with chain := entry.chain ++ [block] } else entry) = registry.entries := by
    calc registry.entries.map _ = registry.entries.map id :=
          List.map_congr_left fun entry hentry => if_neg (find?_eq_none_iff.mp h entry hentry)
      _ = registry.entries := List.map_id _
  rw [withBlock, withThread, List.map_append, hold]
  simp

theorem withThread_ne_self : registry.withThread name key ≠ registry := by
  intro h
  have hlength := congrArg (fun r => r.entries.length) h
  simp [withThread] at hlength

/-! ## Tracked threads stay tracked -/

/-- Every tracked thread is tracked under the same name and key, with a chain that has only grown
at its end. -/
def Kept (before after : Registry) : Prop :=
  ∀ id thread, before.lookup id = some thread →
    after.lookup id = some thread ∧ before.chain id <+: after.chain id

theorem Kept.refl (registry : Registry) : Kept registry registry :=
  fun _ _ h => ⟨h, List.prefix_refl _⟩

theorem Kept.trans {first second third : Registry} (h₁ : Kept first second)
    (h₂ : Kept second third) : Kept first third := by
  intro id thread hthread
  obtain ⟨hsecond, hprefix⟩ := h₁ id thread hthread
  obtain ⟨hthird, hprefix'⟩ := h₂ id thread hsecond
  exact ⟨hthird, hprefix.trans hprefix'⟩

theorem kept_withThread (h : registry.find? (.ofKey key.publicKey) = none) :
    Kept registry (registry.withThread name key) := by
  intro id thread hthread
  have hne : ThreadId.ofKey key.publicKey ≠ id := by
    rintro rfl
    rw [lookup_eq_none_iff.mpr h] at hthread
    simp at hthread
  have hentry : (registry.withThread name key).find? id = registry.find? id := by
    rw [find?_withThread h, if_neg hne]
  simp only [lookup, chain, hentry] at hthread ⊢
  exact ⟨hthread, List.prefix_refl _⟩

theorem kept_withBlock (block : Cid) : Kept registry (registry.withBlock id block) := by
  intro other thread hthread
  obtain ⟨entry, hentry, rfl⟩ := Option.map_eq_some_iff.mp hthread
  simp only [lookup, chain, find?_withBlock, hentry, Option.map_some, Option.getD_some]
  split
  · exact ⟨rfl, List.prefix_append _ _⟩
  · exact ⟨rfl, List.prefix_refl _⟩

/-- What is kept is still found. -/
theorem Kept.find?_ne_none (h : Kept registry next) (htracked : registry.find? id ≠ none) :
    next.find? id ≠ none := by
  obtain ⟨entry, hentry⟩ := Option.ne_none_iff_exists'.mp htracked
  have hlookup : registry.lookup id = some entry.thread := by rw [lookup, hentry, Option.map_some]
  intro hnone
  rw [← lookup_eq_none_iff, (h id entry.thread hlookup).1] at hnone
  cases hnone

/-- What is kept has all its blocks. -/
theorem Kept.mem_chain {block : Cid} (h : Kept registry next) (hmem : block ∈ registry.chain id) :
    block ∈ next.chain id := by
  obtain ⟨entry, hentry, -⟩ := mem_chain_iff.mp hmem
  have hlookup : registry.lookup id = some entry.thread := by rw [lookup, hentry, Option.map_some]
  exact (h id entry.thread hlookup).2.subset hmem

end PeerMail.Registry
