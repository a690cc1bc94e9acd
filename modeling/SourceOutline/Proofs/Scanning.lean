import SourceOutline.Proofs.Ancestry
import SourceOutline.Proofs.Searching

/-!
# Scans of Subtrees

The missing nodes of a subtree are found without going through the tree: a scan reads the
positions from the root of the subtree on, up to an end that is computed by climbing. A
search keeps a stack of nodes that it has yet to open. The two look at the same nodes,
since a subtree takes one interval of positions, and the climb stops just behind it.

The climb is followed upwards one step at a time (`subtreeEnd_of_childOf`): a node with a
next sibling ends where that sibling stands, and the last child of a node ends where the
node does.

## Main results

* `Arena.Holds.subtreeEnd_eq`: the end that is computed is the end of the interval.
* `SyntaxTree.Owns.findNodes_eq_scan`: a search without bounds is a scan of the interval.
* `SyntaxTree.missingNodes_eq_search`: missing nodes are found alike by the scan and by
  the search.
-/

namespace SourceOutline

namespace Arena

open SourceOutline.Tree

variable {arena : Arena} {i p : Nat}

/-! ### Where a subtree ends -/

/-- `upwards` from a child goes on as it does from the parent. -/
theorem upwards_of_childOf (h : arena.ChildOf i p) :
    arena.upwards i = i :: arena.upwards p := by
  have hdown := congrArg List.reverse (wayDown_of_childOf h)
  rwa [wayDown, wayDown, List.reverse_append, List.reverse_reverse,
    List.reverse_reverse] at hdown

/-- `upwards` from the root is at its end. -/
theorem upwards_zero (arena : Arena) : arena.upwards 0 = [0] := by
  have hdown := congrArg List.reverse (wayDown_zero arena)
  rwa [wayDown, List.reverse_reverse] at hdown

/-- **One step of the climb**: a child ends where its next sibling stands, or else where
its parent ends. -/
theorem subtreeEnd_of_childOf (h : arena.ChildOf i p) :
    arena.subtreeEnd i = (arena.nextSibling? i).getD (arena.subtreeEnd p) := by
  rw [subtreeEnd, upwards_of_childOf h, List.findSome?_cons]
  cases arena.nextSibling? i with
  | none => rfl
  | some next => rfl

/-- The root ends where the arena does, by `subtreeEnd`. -/
theorem subtreeEnd_zero (arena : Arena) : arena.subtreeEnd 0 = arena.nodeCount := by
  have hnext : arena.nextSibling? 0 = none := (Holds.root arena).nextSibling?
  rw [subtreeEnd, upwards_zero, List.findSome?_cons, hnext]
  rfl

/-- **The end of a subtree**, `subtreeEnd`, is the position behind the last one that it
takes. -/
theorem Holds.subtreeEnd_eq {place : Place} {tree : Tree} (h : arena.Holds place tree) :
    arena.subtreeEnd place.index = place.index + tree.size := by
  -- from the parents down, since the climb may go on with the end of the parent
  induction h using Holds.induct with
  | root =>
    have hsize : arena.subtreeEnd 0 = 0 + arena.root.size := by
      rw [subtreeEnd_zero, nodeCount_eq_size, Nat.zero_add]
    exact hsize
  | child above record before tree later habove ih =>
    have hnext := habove.child.nextSibling?
    rw [nextSibling_childPlace] at hnext
    rw [subtreeEnd_of_childOf habove.childOf, hnext, ih, index_childPlace]
    cases later with
    | nil =>
      -- a last child ends with its parent
      rw [List.isEmpty_nil, if_pos rfl, Option.getD_none, size, forestSize_snoc]
      omega
    | cons next later => rfl

end Arena

namespace SyntaxTree

variable {t : SyntaxTree} {root : Handle}

/-! ### Scans and searches -/

/-- Whether what was read at a position is accepted. -/
def acceptedAt (t : SyntaxTree) (accept : Entry → Bool) (index : Nat) : Bool :=
  t.nodes[index]?.any accept

/-- What is accepted at a position, by the entry behind its handle. -/
theorem acceptedAt_iff {accept : Entry → Bool} {index : Nat} :
    t.acceptedAt accept index = true ↔ ∃ entry, t.node (t.handle index) = .ok entry ∧
      accept entry = true := by
  rw [acceptedAt, Option.any_eq_true]
  refine exists_congr fun entry => and_congr_left fun _ => ?_
  have hown : ¬(t.handle index).tree ≠ t.id := not_not_intro rfl
  rw [node, if_neg hown, handle]
  cases t.nodes[index]? with
  | none =>
    constructor
    · intro h
      cases h
    · intro h
      cases h
  | some found =>
    exact ⟨fun h => congrArg _ (Option.some.inj h), fun h => congrArg _ (Except.ok.inj h)⟩

/-- The accepted nodes among the positions that a subtree takes. -/
def scan (t : SyntaxTree) (accept : Entry → Bool) (root : Nat) : List Handle :=
  ((List.range' root (t.subtreeEnd root - root)).filter (t.acceptedAt accept)).map t.handle

/-- A `scan` goes in document order. -/
theorem pairwise_scan (t : SyntaxTree) (accept : Entry → Bool) (root : Nat) :
    (t.scan accept root).Pairwise fun a b => a.index < b.index :=
  List.pairwise_map.2 (List.Pairwise.sublist List.filter_sublist List.pairwise_lt_range')

/-- **A scan finds the accepted nodes that the root `Encloses`**, and no others. -/
theorem Owns.mem_scan_iff (h : t.Owns root) {accept : Entry → Bool} {handle : Handle} :
    handle ∈ t.scan accept root.index ↔
      handle.tree = t.id ∧ t.Encloses root.index handle.index ∧
        ∃ entry, t.node handle = .ok entry ∧ accept entry = true := by
  obtain ⟨place, tree, hold, hindex⟩ := Arena.exists_holds h.2
  have hrange : ∀ index, index ∈
      List.range' root.index (t.subtreeEnd root.index - root.index) ↔
      t.Encloses root.index index := by
    intro index
    rw [← hindex, hold.subtreeEnd_eq, hold.encloses_iff, List.mem_range'_1,
      Nat.add_sub_cancel_left]
  rw [scan, List.mem_map]
  constructor
  · rintro ⟨index, hmem, rfl⟩
    obtain ⟨hin, haccept⟩ := List.mem_filter.1 hmem
    exact ⟨rfl, (hrange index).1 hin, acceptedAt_iff.1 haccept⟩
  · rintro ⟨htree, hencloses, haccept⟩
    refine ⟨handle.index, List.mem_filter.2 ⟨(hrange _).2 hencloses, acceptedAt_iff.2 ?_⟩,
      handle_index htree⟩
    rwa [handle_index htree]

/-- **A search without bounds is a scan** of the positions that the subtree takes
(`findNodes`, `scan`). -/
theorem Owns.findNodes_eq_scan (h : t.Owns root) (accept : Entry → Bool) :
    t.findNodes root accept .unbounded = .ok (t.scan accept root.index) := by
  obtain ⟨start, -, hstart, -⟩ := h.exists_entry
  obtain ⟨place, tree, hold, hindex⟩ := Arena.exists_holds h.2
  have hend : t.subtreeEnd root.index - root.index = tree.size := by
    rw [← hindex, hold.subtreeEnd_eq, Nat.add_sub_cancel_left]
  rw [h.findNodes_eq hstart (h.traverse_eq hold hindex false), scan, hend, List.filter_map]
  rfl

/-- `missingNodes` are found by a `scan`. -/
theorem Owns.missingNodes_eq_scan (h : t.Owns root) :
    t.missingNodes root = .ok (t.scan (·.record.isMissing) root.index) := by
  rw [missingNodes, check_of_owns h]
  rfl

/-- **Missing nodes are found alike by a scan and by a search.** At every handle, the scan
for missing nodes and the search without bounds for nodes that are missing have the same
outcome. At a node of the tree, they find the missing nodes of its subtree: those that the
node encloses, in document order, each of them once, and no others. -/
theorem missingNodes_eq_search (t : SyntaxTree) (root : Handle) :
    t.missingNodes root = t.findNodes root (·.record.isMissing) .unbounded ∧
      (t.Owns root → ∃ found, t.missingNodes root = .ok found ∧
        found.Pairwise (fun a b => a.index < b.index) ∧
        ∀ handle, handle ∈ found ↔ handle.tree = t.id ∧ t.Encloses root.index handle.index ∧
          ∃ entry, t.node handle = .ok entry ∧ entry.record.isMissing = true) := by
  constructor
  · by_cases h : t.Owns root
    · rw [h.missingNodes_eq_scan, h.findNodes_eq_scan]
    · rw [missingNodes, findNodes, check_of_not_owns h]
      rfl
  · intro h
    exact ⟨_, h.missingNodes_eq_scan, t.pairwise_scan _ _, fun handle => h.mem_scan_iff⟩

/-- A leaf that was inserted where something was missing. -/
def inserted (id : Nat) (kind : String) : Tree :=
  .node { (default : NodeRecord) with id, kind, isMissing := true } []

/-- The tree of the list `[[1`, in which both brackets are left open. -/
def openList : SyntaxTree :=
  ofTree 0 .json [] <| kindOnly 0 "document"
    [kindOnly 1 "array"
      [kindOnly 2 "[" [],
        kindOnly 3 "array" [kindOnly 4 "[" [], kindOnly 5 "number" [], inserted 6 "]"],
        inserted 7 "]"]]

/-- In a list in a list, both left open, the inner one lacks its own bracket and not that
of the outer one, although it ends where that bracket stands. -/
theorem missingNodes_eq_search_inner_list :
    openList.Owns ⟨0, 3⟩ ∧ openList.subtreeEnd 3 = 7 ∧
      openList.missingNodes ⟨0, 3⟩ = .ok [⟨0, 6⟩] ∧
      openList.findNodes ⟨0, 3⟩ (·.record.isMissing) .unbounded = .ok [⟨0, 6⟩] ∧
      ¬openList.Encloses 3 7 := by
  have howns : openList.Owns ⟨0, 3⟩ := by decide
  have hgiven : openList.missingNodes ⟨0, 3⟩ = .ok [⟨0, 6⟩] := by decide
  obtain ⟨hsearch, hfound⟩ := missingNodes_eq_search openList ⟨0, 3⟩
  obtain ⟨found, hmissing, -, hmem⟩ := hfound howns
  obtain rfl := Except.ok.inj (hmissing.symm.trans hgiven)
  refine ⟨howns, by decide, hgiven, hsearch.symm.trans hgiven, fun hencloses => ?_⟩
  have houter : ⟨0, 7⟩ ∈ [(⟨0, 6⟩ : Handle)] := (hmem ⟨0, 7⟩).2 ⟨rfl, hencloses, _, rfl, rfl⟩
  exact absurd houter (by decide)

end SyntaxTree

end SourceOutline
