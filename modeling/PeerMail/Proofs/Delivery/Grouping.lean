import Mathlib.Data.List.Induction
import Mathlib.Data.List.Nodup
import PeerMail.Delivery.Pages

/-!
# Splitting by destination loses nothing

`partitionByPeer` goes through the items once and puts each at the end of its group.
Seen as a whole it is simpler: there is one group for each destination, in the
order of first appearance, and it holds the items for that destination in their
order (`partitionByPeer_eq`).

Putting the groups one after the other changes the order of items for different
destinations only (`SameByPeer`), and such a change is a permutation.

`partitionByPeer_splits` puts the three together: which groups there are, in which
order they stand, and what they hold.
-/

namespace PeerMail

variable {Item : Type} {destination : Item → PeerId} {items : List Item} {item : Item}

/-! ## Destinations -/

/-- The destinations of items, each where it first appears. -/
def destinations (destination : Item → PeerId) (items : List Item) : List PeerId :=
  (items.map destination).eraseDups

theorem mem_destinations {peer : PeerId} :
    peer ∈ destinations destination items ↔ ∃ item ∈ items, destination item = peer := by
  rw [destinations, List.mem_eraseDups, List.mem_map]

theorem destinations_concat :
    destinations destination (items ++ [item]) =
      if destination item ∈ destinations destination items then destinations destination items
      else destinations destination items ++ [destination item] := by
  have happend : destinations destination (items ++ [item]) = destinations destination items ++
      ([destination item].removeAll (items.map destination)).eraseDups := by
    simp [destinations, List.eraseDups_append]
  rw [happend]
  by_cases h : destination item ∈ destinations destination items
  · have hold : destination item ∈ items.map destination := by simpa [destinations] using h
    rw [if_pos h, List.removeAll, List.filter_cons_of_neg (by simpa using hold)]
    simp
  · have hnew : destination item ∉ items.map destination := by simpa [destinations] using h
    rw [if_neg h, List.removeAll, List.filter_cons_of_pos (by simpa using hnew)]
    simp [List.eraseDups_cons]

/-- Destinations stand in the order in which they first appear. -/
theorem ordered_destinations (destination : Item → PeerId) (items : List Item) :
    (destinations destination items).Pairwise fun first second =>
      (items.map destination).idxOf first < (items.map destination).idxOf second := by
  induction items using List.reverseRecOn with
  | nil => simp [destinations]
  | append_singleton items item ih =>
      have hplace : ∀ peer ∈ destinations destination items,
          ((items ++ [item]).map destination).idxOf peer = (items.map destination).idxOf peer := by
        intro peer hpeer
        have hseen : peer ∈ items.map destination := by simpa [destinations] using hpeer
        rw [List.map_append, List.idxOf_append_of_mem hseen]
      -- what has been seen keeps its place, and what is new comes behind it
      have hold : (destinations destination items).Pairwise fun first second =>
          ((items ++ [item]).map destination).idxOf first <
            ((items ++ [item]).map destination).idxOf second := by
        refine ih.imp_of_mem fun hfirst hsecond hlt => ?_
        rwa [hplace _ hfirst, hplace _ hsecond]
      rw [destinations_concat]
      split
      · exact hold
      · next hnew =>
          have hunseen : destination item ∉ items.map destination := by
            simpa [destinations] using hnew
          refine List.pairwise_append.mpr ⟨hold, List.pairwise_singleton _ _, ?_⟩
          intro peer hpeer other hother
          obtain rfl := List.mem_singleton.mp hother
          have hseen : peer ∈ items.map destination := by simpa [destinations] using hpeer
          rw [hplace peer hpeer, List.map_append, List.idxOf_append_of_notMem hunseen]
          exact Nat.lt_add_right _ (List.idxOf_lt_length_of_mem hseen)

theorem nodup_destinations (destination : Item → PeerId) (items : List Item) :
    (destinations destination items).Nodup := by
  refine (ordered_destinations destination items).imp fun hlt heq => ?_
  subst heq
  exact Nat.lt_irrefl _ hlt

/-! ## Groups -/

/-- The items for one destination. -/
def groupFor (destination : Item → PeerId) (items : List Item) (peer : PeerId) : PeerGroup Item :=
  ⟨peer, items.filter fun item => destination item == peer⟩

theorem groupFor_concat_self :
    groupFor destination (items ++ [item]) (destination item) =
      ⟨destination item, (groupFor destination items (destination item)).items ++ [item]⟩ := by
  simp [groupFor]

theorem groupFor_concat_ne {peer : PeerId} (h : destination item ≠ peer) :
    groupFor destination (items ++ [item]) peer = groupFor destination items peer := by
  simp [groupFor, h]

/-- One more item goes to the end of the group for its destination, which is a new one if no item
so far had that destination. -/
theorem addToGroups_map {peers : List PeerId} (hdistinct : peers.Nodup)
    (hnew : destination item ∉ peers →
      (groupFor destination items (destination item)).items = []) :
    addToGroups (destination item) item (peers.map (groupFor destination items)) =
      (if destination item ∈ peers then peers else peers ++ [destination item]).map
        (groupFor destination (items ++ [item])) := by
  induction peers with
  | nil =>
      have hempty := hnew (by simp)
      simp [addToGroups, groupFor_concat_self, hempty]
  | cons first rest ih =>
      obtain ⟨hfirst, hrest⟩ := List.nodup_cons.mp hdistinct
      by_cases heq : destination item = first
      · -- the groups behind this one are for other destinations
        have hothers : rest.map (groupFor destination (items ++ [item])) =
            rest.map (groupFor destination items) := by
          refine List.map_congr_left fun peer hpeer => groupFor_concat_ne ?_
          rintro rfl
          exact hfirst (heq ▸ hpeer)
        subst heq
        rw [if_pos List.mem_cons_self, List.map_cons, List.map_cons, hothers, groupFor_concat_self]
        simp [addToGroups, groupFor]
      · have hstep : addToGroups (destination item) item
            ((first :: rest).map (groupFor destination items)) =
              groupFor destination items first ::
                addToGroups (destination item) item (rest.map (groupFor destination items)) := by
          rw [List.map_cons, addToGroups]
          exact if_neg (Ne.symm heq)
        -- the first group is for another destination and stays as it is
        have htail := ih hrest fun hmem => hnew (by simp [heq, hmem])
        rw [hstep, htail, ← groupFor_concat_ne heq]
        by_cases hmem : destination item ∈ rest
        · simp [hmem]
        · simp [hmem, heq]

/-- One group for each destination, in order of first appearance, with the items for it. -/
theorem partitionByPeer_eq (destination : Item → PeerId) (items : List Item) :
    partitionByPeer destination items =
      (destinations destination items).map (groupFor destination items) := by
  induction items using List.reverseRecOn with
  | nil => simp [partitionByPeer, destinations]
  | append_singleton items item ih =>
      have hnew : destination item ∉ destinations destination items →
          (groupFor destination items (destination item)).items = [] := by
        intro hmem
        refine List.filter_eq_nil_iff.mpr fun other hother heq => hmem ?_
        exact mem_destinations.mpr ⟨other, hother, by simpa using heq⟩
      calc partitionByPeer destination (items ++ [item])
          = addToGroups (destination item) item (partitionByPeer destination items) := by
            simp [partitionByPeer, List.foldl_append]
        _ = addToGroups (destination item) item
              ((destinations destination items).map (groupFor destination items)) := by rw [ih]
        _ = (destinations destination (items ++ [item])).map
              (groupFor destination (items ++ [item])) := by
            rw [addToGroups_map (nodup_destinations destination items) hnew, destinations_concat]

/-! ## One group after the other -/

/-- For every destination the lists hold the same items in the same order. -/
def SameByPeer (destination : Item → PeerId) (first second : List Item) : Prop :=
  ∀ peer, (first.filter fun item => destination item == peer) =
    second.filter fun item => destination item == peer

namespace SameByPeer

variable {first second first' second' : List Item}

theorem append (h : SameByPeer destination first second)
    (h' : SameByPeer destination first' second') :
    SameByPeer destination (first ++ first') (second ++ second') := by
  intro peer
  rw [List.filter_append, List.filter_append, h peer, h' peer]

/-- Nothing is lost and nothing is doubled. -/
theorem perm (h : SameByPeer destination first second) : first.Perm second := by
  classical
  refine List.perm_iff_count.mpr fun item => ?_
  have hcount : ∀ items : List Item, items.count item =
      (items.filter fun other => destination other == destination item).count item := by
    intro items
    rw [List.count_filter (by simp)]
  rw [hcount first, hcount second, h (destination item)]

end SameByPeer

theorem flatMap_groupFor {peers : List PeerId} (hdistinct : peers.Nodup) (peer : PeerId) :
    ((peers.flatMap fun other => (groupFor destination items other).items).filter
      fun item => destination item == peer) =
        if peer ∈ peers then (groupFor destination items peer).items else [] := by
  induction peers with
  | nil => simp
  | cons first rest ih =>
      obtain ⟨hfirst, hrest⟩ := List.nodup_cons.mp hdistinct
      rw [List.flatMap_cons, List.filter_append, ih hrest]
      by_cases heq : peer = first
      · subst heq
        simp [groupFor, hfirst]
      · have hnone : ((groupFor destination items first).items.filter
            fun item => destination item == peer) = [] := by
          refine List.filter_eq_nil_iff.mpr fun item hitem hpeer => heq ?_
          have hgroup := (List.mem_filter.mp hitem).2
          rw [← eq_of_beq hpeer, ← eq_of_beq hgroup]
        simp [hnone, heq]

/-- Every destination gets its items in their order. -/
theorem sameByPeer_partition (destination : Item → PeerId) (items : List Item) :
    SameByPeer destination ((partitionByPeer destination items).flatMap PeerGroup.items) items := by
  intro peer
  have hflat : (partitionByPeer destination items).flatMap PeerGroup.items =
      (destinations destination items).flatMap
        fun other => (groupFor destination items other).items := by
    rw [partitionByPeer_eq, List.flatMap_map]
  rw [hflat, flatMap_groupFor (nodup_destinations destination items)]
  split
  · rfl
  · next hmem =>
      refine (List.filter_eq_nil_iff.mpr fun item hitem hpeer => hmem ?_).symm
      exact mem_destinations.mpr ⟨item, hitem, eq_of_beq hpeer⟩

/-! ## The split as a whole -/

/-- The groups are the items, split by destination. -/
structure SplitByPeer (destination : Item → PeerId) (items : List Item)
    (groups : List (PeerGroup Item)) : Prop where
  /-- No destination has two groups. -/
  distinct : (groups.map PeerGroup.peer).Nodup
  /-- The destinations of items have groups, and no other peer has. -/
  covering : ∀ peer, peer ∈ groups.map PeerGroup.peer ↔ peer ∈ items.map destination
  /-- The groups stand in the order in which their destinations first appear. -/
  ordered : (groups.map PeerGroup.peer).Pairwise fun first second =>
    (items.map destination).idxOf first < (items.map destination).idxOf second
  /-- No group is empty. -/
  inhabited : ∀ group ∈ groups, group.items ≠ []
  /-- A group holds the items for its peer in their order. -/
  holding : ∀ group ∈ groups,
    group.items = items.filter fun item => destination item == group.peer
  /-- Nothing is lost and nothing is doubled. -/
  complete : (groups.flatMap PeerGroup.items).Perm items

theorem map_peer_partitionByPeer (destination : Item → PeerId) (items : List Item) :
    (partitionByPeer destination items).map PeerGroup.peer = destinations destination items := by
  rw [partitionByPeer_eq, List.map_map]
  exact List.map_id _

/-- A group holds items for its peer only. -/
theorem peer_of_mem_partitionByPeer {destination : Item → PeerId} {items : List Item} {item : Item}
    {group : PeerGroup Item} (hgroup : group ∈ partitionByPeer destination items)
    (hitem : item ∈ group.items) : destination item = group.peer := by
  rw [partitionByPeer_eq] at hgroup
  obtain ⟨peer, -, rfl⟩ := List.mem_map.mp hgroup
  exact eq_of_beq (List.mem_filter.mp hitem).2

/-- **Splitting by destination.**  There is one group for each destination, where it first appears;
it holds the items for that destination in their order, and the groups together hold all items. -/
theorem partitionByPeer_splits (destination : Item → PeerId) (items : List Item) :
    SplitByPeer destination items (partitionByPeer destination items) := by
  have hpeers := map_peer_partitionByPeer destination items
  have hgroup : ∀ group ∈ partitionByPeer destination items,
      group.peer ∈ items.map destination ∧ group = groupFor destination items group.peer := by
    intro group hgroup
    rw [partitionByPeer_eq] at hgroup
    obtain ⟨peer, hpeer, rfl⟩ := List.mem_map.mp hgroup
    exact ⟨List.mem_map.mpr (mem_destinations.mp hpeer), rfl⟩
  constructor
  case distinct => exact hpeers ▸ nodup_destinations destination items
  case covering =>
    intro peer
    rw [hpeers, mem_destinations, List.mem_map]
  case ordered => exact hpeers ▸ ordered_destinations destination items
  case inhabited =>
    intro group hmem hempty
    obtain ⟨hpeer, hcontent⟩ := hgroup group hmem
    obtain ⟨item, hitem, hdestination⟩ := List.mem_map.mp hpeer
    -- the first item for the peer is in the group
    have hfiltered : item ∈ (groupFor destination items group.peer).items :=
      List.mem_filter.mpr ⟨hitem, beq_iff_eq.mpr hdestination⟩
    rw [← hcontent, hempty] at hfiltered
    exact List.not_mem_nil hfiltered
  case holding =>
    intro group hmem
    exact congrArg PeerGroup.items (hgroup group hmem).2
  case complete => exact (sameByPeer_partition destination items).perm

/-- Three letters, of which the first and the last are for the same peer. -/
def exampleLetters : List (PeerId × Nat) :=
  let peer (byte : UInt8) : PeerId := ⟨⟨List.replicate 32 byte, rfl⟩⟩
  [(peer 2, 10), (peer 1, 11), (peer 2, 12)]

/-- The peer of the first letter has the first group, and both of its letters are in it. -/
theorem exampleLetters_split :
    let groups := partitionByPeer Prod.fst exampleLetters
    groups.map (fun group => group.items.map Prod.snd) = [[10, 12], [11]] ∧
      (∀ group ∈ groups, group.items ≠ []) ∧
        (groups.flatMap PeerGroup.items).Perm exampleLetters :=
  have hsplit := partitionByPeer_splits Prod.fst exampleLetters
  ⟨by decide, hsplit.inhabited, hsplit.complete⟩

end PeerMail
