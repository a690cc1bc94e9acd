import Mathlib.Order.Interval.Set.Basic
import SourceOutline.Proofs.Scanning

/-!
# Subtrees as Intervals

The end of a subtree is found by a loop that climbs: it stops at the first of a node and
its ancestors that has a next sibling, and the end is where that sibling stands.
`Arena.EndsAt` is that loop, one rule for each thing that a round of it can do. A round
reads the entry at its position, so what the relation gives is found without reading out
of range, and after finitely many rounds.

From every position of the arena the loop ends (`endsAt_subtreeEnd`), by induction along
parents, and where it ends is the end that is computed (`EndsAt.subtreeEnd_eq`), by
induction on the rounds. `Holds.subtreeEnd_eq` says where that is, and with it the nodes
that a node encloses are those from the node up to the end.

Two intervals that meet are nested: whatever lies in both is enclosed by both nodes, and
ancestors form a chain.

## Main results

* `Arena.endsAt_iff`: the loop ends from every position of the arena, at the end that is
  computed.
* `Arena.encloses_iff_mem_Ico`: a node encloses the positions up to the end of its subtree.
* `Arena.subtrees_are_intervals`: subtrees are intervals, and two of them are nested or
  disjoint.
-/

namespace SourceOutline

namespace Arena

/-- The loop for the end of a subtree, from a position to its outcome. -/
inductive EndsAt (arena : Arena) : Nat → Nat → Prop
  /-- There is a next sibling, which is the outcome. -/
  | sibling {index next : Nat} {entry : Entry} (read : arena.nodes[index]? = some entry)
      (hnext : entry.nextSibling = some next) : EndsAt arena index next
  /-- There is none, and the loop goes on with the parent. -/
  | parent {index above stop : Nat} {entry : Entry} (read : arena.nodes[index]? = some entry)
      (hnext : entry.nextSibling = none) (hparent : entry.parent = some above)
      (rest : EndsAt arena above stop) :
      EndsAt arena index stop
  /-- There is no parent either, and the outcome is the end of the arena. -/
  | root {index : Nat} {entry : Entry} (read : arena.nodes[index]? = some entry)
    (hnext : entry.nextSibling = none)
      (hparent : entry.parent = none) : EndsAt arena index arena.nodeCount

variable {arena : Arena} {i j k stop stop' : Nat}

/-- The loop starts at a position of the arena. -/
theorem EndsAt.lt_nodeCount (h : arena.EndsAt i stop) : i < arena.nodeCount := by
  cases h with
  | sibling read => exact lt_nodeCount_of_read read
  | parent read => exact lt_nodeCount_of_read read
  | root read => exact lt_nodeCount_of_read read

/-- Where the loop ends, it ends at the `subtreeEnd` that is computed. -/
theorem EndsAt.subtreeEnd_eq (h : arena.EndsAt i stop) : arena.subtreeEnd i = stop := by
  induction h with
  | @sibling index next entry read hnext =>
    have hlink : arena.nextSibling? index = some next :=
      (link_of_read read (·.nextSibling)).trans hnext
    cases hparent : entry.parent with
    | none =>
      -- only the root has no parent, and it has no siblings either
      obtain rfl := (arena.wellLinked.parent_eq_none_iff read).1 hparent
      cases hlink.symm.trans (Holds.root arena).nextSibling?
    | some above =>
      have hchild : arena.ChildOf index above := (link_of_read read (·.parent)).trans hparent
      rw [subtreeEnd_of_childOf hchild, hlink, Option.getD_some]
  | @parent index above stop entry read hnext hparent _ ih =>
    have hlink : arena.nextSibling? index = none :=
      (link_of_read read (·.nextSibling)).trans hnext
    have hchild : arena.ChildOf index above := (link_of_read read (·.parent)).trans hparent
    rw [subtreeEnd_of_childOf hchild, hlink, Option.getD_none, ih]
  | root read _ hparent =>
    obtain rfl := (arena.wellLinked.parent_eq_none_iff read).1 hparent
    exact subtreeEnd_zero arena

/-- **The loop ends** from every position of the arena, at its `subtreeEnd`. -/
theorem endsAt_subtreeEnd (hi : i < arena.nodeCount) :
    arena.EndsAt i (arena.subtreeEnd i) := by
  induction hi using arena.parent_induct with
  | root =>
    have hroot := (Holds.root arena).getElem?
    rw [subtreeEnd_zero]
    exact .root hroot rfl rfl
  | child i p hchild ih =>
    obtain ⟨entry, read, hparent⟩ := Option.bind_eq_some_iff.1 hchild
    have hlink : arena.nextSibling? i = entry.nextSibling := link_of_read read (·.nextSibling)
    rw [subtreeEnd_of_childOf hchild, hlink]
    cases hnext : entry.nextSibling with
    | none => exact .parent read hnext hparent ih
    | some next => exact .sibling read hnext

/-- **The outcome of the loop.** -/
theorem endsAt_iff :
    arena.EndsAt i stop ↔ i < arena.nodeCount ∧ arena.subtreeEnd i = stop := by
  constructor
  · intro h
    exact ⟨h.lt_nodeCount, h.subtreeEnd_eq⟩
  · rintro ⟨hi, rfl⟩
    exact endsAt_subtreeEnd hi

/-! ### Intervals -/

/-- What `Encloses` a position is the node itself or above it. -/
theorem encloses_iff_eq_or_below : arena.Encloses i j ↔ j = i ∨ arena.Below j i := by
  rw [@eq_comm _ j i]
  exact Relation.reflTransGen_iff_eq_or_transGen

/-- A subtree ends behind its root and within the arena. -/
theorem lt_subtreeEnd (hi : i < arena.nodeCount) :
    i < arena.subtreeEnd i ∧ arena.subtreeEnd i ≤ arena.nodeCount := by
  obtain ⟨place, tree, hold, rfl⟩ := exists_holds hi
  rw [hold.subtreeEnd_eq]
  exact ⟨Nat.lt_add_of_pos_right tree.size_pos, hold.index_add_size_le⟩

/-- **A node encloses the positions up to its `subtreeEnd`.** -/
theorem encloses_iff_mem_Ico (hi : i < arena.nodeCount) :
    arena.Encloses i j ↔ j ∈ Set.Ico i (arena.subtreeEnd i) := by
  obtain ⟨place, tree, hold, rfl⟩ := exists_holds hi
  rw [hold.encloses_iff, hold.subtreeEnd_eq, Set.mem_Ico]

/-- The interval of an enclosed node is part of the interval of the enclosing one. -/
theorem Encloses.Ico_subset (h : arena.Encloses i k) (hi : i < arena.nodeCount)
    (hk : k < arena.nodeCount) :
    Set.Ico k (arena.subtreeEnd k) ⊆ Set.Ico i (arena.subtreeEnd i) := by
  intro j hj
  rw [← encloses_iff_mem_Ico hk] at hj
  rw [← encloses_iff_mem_Ico hi]
  exact h.trans hj

/-- **Two intervals are nested or disjoint.** -/
theorem Ico_nested_or_disjoint (hi : i < arena.nodeCount) (hk : k < arena.nodeCount) :
    Set.Ico i (arena.subtreeEnd i) ⊆ Set.Ico k (arena.subtreeEnd k) ∨
      Set.Ico k (arena.subtreeEnd k) ⊆ Set.Ico i (arena.subtreeEnd i) ∨
        Set.Ico i (arena.subtreeEnd i) ∩ Set.Ico k (arena.subtreeEnd k) = ∅ := by
  by_cases hmeet : ∃ j, j ∈ Set.Ico i (arena.subtreeEnd i) ∧ j ∈ Set.Ico k (arena.subtreeEnd k)
  · -- both nodes enclose what lies in both intervals, so one of them encloses the other
    obtain ⟨j, hij, hkj⟩ := hmeet
    rw [← encloses_iff_mem_Ico hi] at hij
    rw [← encloses_iff_mem_Ico hk] at hkj
    rcases Nat.le_total i k with hle | hle
    · exact Or.inr (Or.inl ((hij.of_le hkj hle).Ico_subset hi hk))
    · exact Or.inl ((hkj.of_le hij hle).Ico_subset hk hi)
  · exact Or.inr (Or.inr (Set.eq_empty_iff_forall_notMem.2 fun j hj => hmeet ⟨j, hj⟩))

/-- **Subtrees are intervals.** From every node `i`, the loop for the end of its subtree
ends, with one outcome `stop`, which is the end that is computed. It is behind `i` and not
behind the end of the arena. The positions from `i` up to `stop` are `i` and its
descendants, those from which parents lead up to `i`, and no others.

So the intervals of any two nodes are nested or disjoint. -/
theorem subtrees_are_intervals (arena : Arena) :
    (∀ i < arena.nodeCount, ∃ stop, arena.EndsAt i stop ∧
      (∀ other, arena.EndsAt i other → other = stop) ∧
      arena.subtreeEnd i = stop ∧ i < stop ∧ stop ≤ arena.nodeCount ∧
        ∀ j, (j = i ∨ arena.Below j i) ↔ i ≤ j ∧ j < stop) ∧
    ∀ i k stop stop', arena.EndsAt i stop → arena.EndsAt k stop' →
      Set.Ico i stop ⊆ Set.Ico k stop' ∨ Set.Ico k stop' ⊆ Set.Ico i stop ∨
        Set.Ico i stop ∩ Set.Ico k stop' = ∅ := by
  constructor
  · intro i hi
    have hends := endsAt_subtreeEnd hi
    obtain ⟨hlt, hle⟩ := lt_subtreeEnd hi
    refine ⟨_, hends, fun other hother => hother.subtreeEnd_eq.symm, rfl, hlt, hle,
      fun j => ?_⟩
    rw [← encloses_iff_eq_or_below, encloses_iff_mem_Ico hi, Set.mem_Ico]
  · intro i k stop stop' hends hends'
    obtain ⟨hi, rfl⟩ := endsAt_iff.1 hends
    obtain ⟨hk, rfl⟩ := endsAt_iff.1 hends'
    exact Ico_nested_or_disjoint hi hk

/-- In a list with an error, the loop from the number in the error goes on with the error,
which has a next sibling. The error and the number in it end at that sibling, and the
interval of the sibling is apart from theirs. -/
theorem subtrees_are_intervals_error :
    let arena := SyntaxTree.faultyList.toArena
    3 < arena.nodeCount ∧ arena.EndsAt 4 5 ∧ arena.EndsAt 3 5 ∧ arena.EndsAt 5 6 ∧
      arena.Below 4 3 ∧ ¬arena.Below 5 3 ∧
      (Set.Ico 3 5 ⊆ Set.Ico 5 6 ∨ Set.Ico 5 6 ⊆ Set.Ico 3 5 ∨
        Set.Ico 3 5 ∩ Set.Ico 5 6 = ∅) := by
  intro arena
  have hcount : arena.nodeCount = 7 := by decide
  obtain ⟨hends, hpairs⟩ := subtrees_are_intervals arena
  obtain ⟨stop, hinner, -, hstop, -⟩ := hends 4 (by omega)
  obtain rfl : 5 = stop := hstop
  obtain ⟨stop, herror, -, hstop, -, -, hin⟩ := hends 3 (by omega)
  obtain rfl : 5 = stop := hstop
  obtain ⟨stop, hsibling, -, hstop, -⟩ := hends 5 (by omega)
  obtain rfl : 6 = stop := hstop
  have hbelow : arena.Below 4 3 := ((hin 4).2 (by decide)).resolve_left (by decide)
  have hapart : ¬arena.Below 5 3 := fun h => absurd ((hin 5).1 (Or.inr h)) (by decide)
  exact ⟨by omega, hinner, herror, hsibling, hbelow, hapart, hpairs 3 5 5 6 herror hsibling⟩

end Arena

end SourceOutline
