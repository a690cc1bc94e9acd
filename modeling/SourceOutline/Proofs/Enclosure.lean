import Mathlib.Logic.Relation
import SourceOutline.Proofs.Handles

/-!
# Enclosing Nodes

A node encloses itself and what is below it: the nodes from which parent links lead up to
it. This module says what there is to say about that relation by links alone, and then
where the enclosed nodes stand. A subtree takes one interval of positions, and these are
the positions that its root encloses. So a walk, which passes that interval in order,
visits what the start encloses and nothing else.

## Main results

* `Arena.Encloses.of_le`: of two nodes that enclose a third one, the first in document
  order encloses the other.
* `Arena.Holds.encloses_iff`: the root of a subtree encloses the positions of the subtree.
* `SyntaxTree.mem_traverse_iff`: a walk visits the nodes that its start encloses.
* `SyntaxTree.traverse_visits_subtree`: it visits them in document order, each of them once.
-/

namespace SourceOutline

namespace Tree

/-- The nodes of a tree stand at the positions that the tree takes. -/
theorem index_of_mem_placed {place : Place} {tree : Tree} {x : Place × Tree}
    (h : x ∈ tree.placed place) :
    place.index ≤ x.1.index ∧ x.1.index < place.index + tree.size := by
  rw [← List.mem_range'_1, ← map_index_placed]
  exact List.mem_map_of_mem h

end Tree

namespace Arena

open SourceOutline.Tree

/-- The node at one position is a child of the node at another. -/
def ChildOf (arena : Arena) (index above : Nat) : Prop :=
  arena.parent? index = some above

/-- The node at one position is the node at another or one of its ancestors: parents lead
up to it. -/
def Encloses (arena : Arena) (above index : Nat) : Prop :=
  Relation.ReflTransGen arena.ChildOf index above

/-- The node at one position is a proper descendant of the node at another. -/
def Below (arena : Arena) (index above : Nat) : Prop :=
  Relation.TransGen arena.ChildOf index above

variable {arena : Arena} {a b i : Nat}

/-- A parent stands before its children, by `ChildOf`. -/
theorem ChildOf.lt (h : arena.ChildOf i a) : a < i ∧ i < arena.nodeCount := by
  obtain ⟨entry, hentry, hparent⟩ := Option.bind_eq_some_iff.1 h
  exact ⟨(arena.wellLinked.parent_before hentry hparent).1, lt_nodeCount_of_read hentry⟩

/-- A node has at most one parent. -/
theorem ChildOf.rightUnique (arena : Arena) : Relator.RightUnique arena.ChildOf :=
  fun _ _ _ hfirst hsecond => Option.some.inj (hfirst.symm.trans hsecond)

namespace Encloses

/-- `Encloses` is reflexive. -/
theorem refl (arena : Arena) (i : Nat) : arena.Encloses i i :=
  Relation.ReflTransGen.refl

/-- `Encloses` is transitive. -/
theorem trans (hab : arena.Encloses a b) (hbi : arena.Encloses b i) : arena.Encloses a i :=
  Relation.ReflTransGen.trans hbi hab

/-- What encloses the parent encloses the child. -/
theorem child (h : arena.Encloses a b) (hchild : arena.ChildOf i b) : arena.Encloses a i :=
  Relation.ReflTransGen.head hchild h

/-- Enclosing nodes come first. -/
theorem le (h : arena.Encloses a i) : a ≤ i := by
  induction h with
  | refl => exact Nat.le_refl i
  | tail _ hchild ih => exact Nat.le_trans (Nat.le_of_lt hchild.lt.1) ih

/-- `Encloses` is antisymmetric. -/
theorem antisymm (hab : arena.Encloses a b) (hba : arena.Encloses b a) : a = b :=
  Nat.le_antisymm hab.le hba.le

/-- **Ancestors form a chain**: of two nodes that enclose a third one, the first in
document order encloses the other. -/
theorem of_le (ha : arena.Encloses a i) (hb : arena.Encloses b i) (hle : a ≤ b) :
    arena.Encloses a b := by
  rcases Relation.ReflTransGen.total_of_right_unique (ChildOf.rightUnique arena) ha
    hb with hba | hab
  · obtain rfl : a = b := Nat.le_antisymm hle (Encloses.le hba)
    exact refl arena a
  · exact hab

end Encloses

/-- A proper descendant comes later. -/
theorem Below.lt (h : arena.Below i a) : a < i := by
  induction h with
  | single hchild => exact hchild.lt.1
  | tail _ hchild ih => exact Nat.lt_trans hchild.lt.1 ih

/-- `Below` is what a node encloses, without itself. -/
theorem below_iff : arena.Below i a ↔ i ≠ a ∧ arena.Encloses a i := by
  constructor
  · intro h
    exact ⟨Nat.ne_of_gt h.lt, Relation.TransGen.to_reflTransGen h⟩
  · rintro ⟨hne, h⟩
    exact (Relation.reflTransGen_iff_eq_or_transGen.1 h).resolve_left (Ne.symm hne)

/-! ### Intervals -/

/-- A subtree that is held at a position of another one is part of it. -/
theorem Holds.mem_placed {place place' : Place} {tree sub : Tree} (h : arena.Holds place tree)
    (hsub : arena.Holds place' sub) (hle : place.index ≤ place'.index)
    (hlt : place'.index < place.index + tree.size) : (place', sub) ∈ tree.placed place := by
  have hindex : place'.index ∈ (tree.placed place).map (·.1.index) := by
    rw [map_index_placed, List.mem_range'_1]
    exact ⟨hle, hlt⟩
  obtain ⟨⟨other, tree'⟩, hmem, hother⟩ := List.mem_map.1 hindex
  obtain ⟨rfl, rfl⟩ := Holds.unique (placed_trans h hmem) hsub hother
  exact hmem

/-- A child of a subtree that is held stands at a child of its position. -/
theorem Holds.childOf {place : Place} {tree : Tree} {record : NodeRecord}
    {before later : List Tree}
    (h : arena.Holds place (.node record (before ++ tree :: later))) :
    arena.ChildOf (childPlace place before tree later).index place.index :=
  h.child.parent?.trans (parent_childPlace ..)

/-- The root of a subtree `Encloses` the parts of it. -/
theorem Holds.encloses_of_mem_placed {place place' : Place} {tree sub : Tree}
    (h : arena.Holds place tree) (hmem : (place', sub) ∈ tree.placed place) :
    arena.Encloses place.index place'.index := by
  induction tree using Tree.induct generalizing place with
  | step record children ih =>
    rcases mem_placed_iff.1 hmem with heq | ⟨before, child, later, rfl, hpart⟩
    · obtain ⟨rfl, rfl⟩ := Prod.mk.inj heq
      exact Encloses.refl arena _
    · have hbelow := ih child (by simp) h.child hpart
      exact (Encloses.child (Encloses.refl arena _) h.childOf).trans hbelow

/-- A child of a part of a subtree is a part of it as well. -/
theorem Holds.index_of_childOf {place : Place} {tree : Tree} (h : arena.Holds place tree)
    (hchild : arena.ChildOf i b) (hle : place.index ≤ b) (hlt : b < place.index + tree.size) :
    place.index ≤ i ∧ i < place.index + tree.size := by
  obtain ⟨place', sub, hsub, rfl⟩ := holds_of_bind_eq_some hchild
  obtain ⟨above, record, before, later, habove, rfl, rfl⟩ :=
    hsub.exists_above (hsub.parent?.symm.trans hchild)
  have hpart := h.mem_placed habove hle hlt
  exact index_of_mem_placed
    (placed_trans hpart (mem_placed_iff.2
      (Or.inr ⟨before, sub, later, rfl, self_mem_placed _ _⟩)))

/-- **A subtree is an interval**: its root `Encloses` the positions that it takes. -/
theorem Holds.encloses_iff {place : Place} {tree : Tree} (h : arena.Holds place tree)
    (i : Nat) :
    arena.Encloses place.index i ↔ place.index ≤ i ∧ i < place.index + tree.size := by
  constructor
  · intro hencloses
    -- from the root down: a child of a position in the interval is in the interval
    induction hencloses using Relation.ReflTransGen.head_induction_on with
    | refl => exact ⟨Nat.le_refl _, Nat.lt_add_of_pos_right tree.size_pos⟩
    | head hchild _ ih => exact h.index_of_childOf hchild ih.1 ih.2
  · rintro ⟨hle, hlt⟩
    obtain ⟨place', sub, hsub, rfl⟩ :=
      exists_holds (Nat.lt_of_lt_of_le hlt h.index_add_size_le)
    exact h.encloses_of_mem_placed (h.mem_placed hsub hle hlt)

end Arena

namespace SyntaxTree

variable {t : SyntaxTree} {node other : Handle} {once : Bool}

/-- With good handles, guarding every read changes nothing: `checked` is `run`. -/
theorem Operation.checked_of_owns {op : Operation} (h : ∀ handle ∈ op.handles, t.Owns handle) :
    op.checked t = some (op.run t) := by
  obtain ⟨answer, hrun, hchecked, -⟩ := exists_answers h
  rw [hchecked, hrun]

/-- An operation on one good handle, `checked` and run. -/
theorem Owns.checked_eq (h : t.Owns node) {op : Operation} (hop : op.handles = [node]) :
    op.checked t = some (op.run t) := by
  refine Operation.checked_of_owns fun handle hmem => ?_
  rw [hop] at hmem
  exact List.mem_singleton.1 hmem ▸ h

/-- A handle of the tree is told by its position. -/
theorem handle_index {handle : Handle} (h : handle.tree = t.id) :
    t.handle handle.index = handle := by
  rw [SyntaxTree.handle, ← h]

/-- `traverse` passes the positions of the subtree where it starts. -/
theorem Owns.traverse_eq (h : t.Owns node) {place : Tree.Place} {tree : Tree}
    (hold : t.Holds place tree) (hindex : place.index = node.index) (once : Bool) :
    t.traverse node once = .ok ((List.range' node.index tree.size).map t.handle) := by
  obtain ⟨indices, hwalk, -, htraverse, -⟩ := h.exists_walk
  have heq := hold.walk?_eq
  rw [hindex, hwalk] at heq
  rw [htraverse once, Option.some.inj heq]

/-- Only from a good handle does `traverse` go anywhere. -/
theorem owns_of_traverse {visited : List Handle} (h : t.traverse node once = .ok visited) :
    t.Owns node := by
  by_contra hbad
  rw [traverse, check_of_not_owns hbad] at h
  cases h

/-- **A walk visits the nodes that its start `Encloses`.** -/
theorem mem_traverse_iff {visited : List Handle} (h : t.traverse node once = .ok visited) :
    other ∈ visited ↔ other.tree = t.id ∧ t.Encloses node.index other.index := by
  have howns := owns_of_traverse h
  obtain ⟨place, tree, hold, hindex⟩ := Arena.exists_holds howns.2
  rw [howns.traverse_eq hold hindex] at h
  obtain rfl := Except.ok.inj h
  rw [← hindex, hold.encloses_iff, ← List.mem_range'_1, List.mem_map]
  constructor
  · rintro ⟨index, hmem, rfl⟩
    exact ⟨rfl, hmem⟩
  · rintro ⟨htree, hmem⟩
    exact ⟨other.index, hmem, by rw [handle, ← htree]⟩

/-- **A walk visits exactly the subtree of its start, in document order.** It ends,
whether it passes over nodes that it has visited or not, without reading out of range. It
yields the start and then the proper descendants of the start, each of them once and in
the order of their positions. From the root, it yields all positions. -/
theorem traverse_visits_subtree (t : SyntaxTree) {node : Handle} (h : t.Owns node) :
    ∃ below : List Nat,
      (∀ once, t.traverse node once = .ok (node :: below.map t.handle) ∧
        (Operation.traverse node once).checked t =
          some (.ok (.nodes (node :: below.map t.handle)))) ∧
      (∀ index, index ∈ below ↔ t.Below index node.index) ∧
      (node.index :: below).Pairwise (· < ·) ∧
      (node = t.rootHandle → node.index :: below = List.range t.nodeCount) := by
  obtain ⟨place, tree, hold, hindex⟩ := Arena.exists_holds h.2
  have hrange : List.range' node.index tree.size =
      node.index :: List.range' (node.index + 1) (Tree.forestSize tree.children) := by
    rw [Tree.size_eq, List.range'_succ]
  have htraverse : ∀ once, t.traverse node once =
      .ok (node :: (List.range' (node.index + 1) (Tree.forestSize tree.children)).map
        t.handle) := by
    intro once
    rw [h.traverse_eq hold hindex, hrange, List.map_cons, handle_index h.1]
  refine ⟨List.range' (node.index + 1) (Tree.forestSize tree.children),
    fun once => ⟨htraverse once, ?_⟩, ?_, ?_, ?_⟩
  · rw [h.checked_eq rfl, Operation.run, htraverse]
    rfl
  · intro index
    rw [Arena.below_iff, ← hindex, hold.encloses_iff, List.mem_range'_1, Tree.size_eq]
    omega
  · rw [← hrange]
    exact List.pairwise_lt_range'
  · rintro rfl
    obtain ⟨-, rfl⟩ := hold.unique (Arena.Holds.root t.toArena) hindex
    rw [← hrange, ← t.nodeCount_eq_size, List.range_eq_range']
    rfl

/-- A node with some children, of which nothing is known but the engine's number and the
kind. -/
def kindOnly (id : Nat) (kind : String) (children : List Tree) : Tree :=
  .node { (default : NodeRecord) with id, kind } children

/-- The tree of the list `[1 2]`, which lacks a comma: the first number is set aside as an
error. -/
def faultyList : SyntaxTree :=
  ofTree 0 .json [] <| kindOnly 0 "document"
    [kindOnly 1 "array"
      [kindOnly 2 "[" [], kindOnly 3 "ERROR" [kindOnly 4 "number" []], kindOnly 5 "number" [],
        kindOnly 6 "]" []]]

/-- From the error in a list, a walk goes to the number in it and not to the one that
follows it in the list. -/
theorem traverse_visits_subtree_error :
    faultyList.Owns ⟨0, 3⟩ ∧ faultyList.Below 4 3 ∧ ¬faultyList.Below 5 3 ∧
      ∀ once, (Operation.traverse ⟨0, 3⟩ once).checked faultyList =
        some (.ok (.nodes [⟨0, 3⟩, ⟨0, 4⟩])) := by
  have howns : faultyList.Owns ⟨0, 3⟩ := by decide
  obtain ⟨below, htraverse, hbelow, -, -⟩ := traverse_visits_subtree faultyList howns
  have hvisited : faultyList.traverse ⟨0, 3⟩ false = .ok [⟨0, 3⟩, ⟨0, 4⟩] := by decide
  have hlist := Except.ok.inj ((htraverse false).1.symm.trans hvisited)
  have heq : below = [4] := by
    have hmap : below.map faultyList.handle = [4].map faultyList.handle :=
      List.tail_eq_of_cons_eq hlist
    exact List.map_injective_iff.2 (fun _ _ heq => congrArg Handle.index heq) hmap
  subst heq
  exact ⟨howns, (hbelow 4).1 (by decide), fun h => absurd ((hbelow 5).2 h) (by decide),
    fun once => (htraverse once).2⟩

end SyntaxTree

end SourceOutline
