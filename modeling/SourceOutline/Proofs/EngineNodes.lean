import Mathlib.Data.List.Nodup
import SourceOutline.Proofs.Scanning

/-!
# Handles and the Engine's Nodes

Behind a handle there is a node of the engine's tree. It is found by two walks. The first
one climbs from the position to the root and collects the child indices on the way, the
second one goes down from the root by these indices in the opposite order. Back from a
node to its handle there is a table, in which the position of each node was noted under
the engine's number of it.

A step up and a step down are inverse to each other: the way to a child is the way to its
parent with the child index added (`pathTo_childPlace`), and the child stands under that
index. So the way to a position leads to the subtree that is held there
(`Holds.descend?_pathTo`), by induction along parents. In the other direction every way
that stays inside the tree is the way to some position (`exists_holds_of_descend?`), by
induction on the way.

Equal subtrees may stand at several positions, so to reach an equal one is not enough. If
the engine's numbers are all different, they tell the nodes apart, and then ways,
positions and nodes correspond to each other.

## Main results

* `Arena.Holds.descend?_pathTo`: the way to a position leads to the subtree that is held there.
* `Arena.exists_holds_of_descend?`: every way inside the tree is the way to a position.
* `Arena.lookup_positions_eq_some_iff`: the table gives the last position of a number.
* `SyntaxTree.Owns.engineNode_eq`: the engine's node behind a handle is the subtree that
  is held there.
* `SyntaxTree.handles_match_engineNodes`: handles and the engine's nodes correspond one to one.
-/

namespace SourceOutline

namespace Arena

open SourceOutline.Tree

variable {arena : Arena} {place : Place} {tree : Tree} {i p : Nat}

/-! ### Ways down -/

theorem upwards_ne_nil (arena : Arena) (i : Nat) : arena.upwards i ≠ [] := by
  obtain ⟨fuel, hfuel⟩ := Nat.exists_eq_add_one.2 arena.nodeCount_pos
  rw [upwards, hfuel, climb]
  exact List.cons_ne_nil _ _

/-- `pathTo` the root is empty. -/
theorem pathTo_zero (arena : Arena) : arena.pathTo 0 = [] := by
  rw [pathTo, upwards_zero]
  rfl

/-- **One step of the climb** adds the child index to `pathTo` the parent. -/
theorem pathTo_of_childOf (h : arena.ChildOf i p) {entry : Entry}
    (hread : arena.nodes[i]? = some entry) :
    arena.pathTo i = arena.pathTo p ++ [entry.childIndex] := by
  rw [pathTo, upwards_of_childOf h, List.dropLast_cons_of_ne_nil (upwards_ne_nil arena p),
    List.map_cons, List.reverse_cons, hread]
  rfl

/-- The way to a child, by `childPlace`. -/
theorem Holds.pathTo_childPlace {record : NodeRecord} {before later : List Tree}
    (h : arena.Holds place (.node record (before ++ tree :: later))) :
    arena.pathTo (childPlace place before tree later).index =
      arena.pathTo place.index ++ [before.length] := by
  have hindex : (entryOf (childPlace place before tree later, tree)).childIndex =
      before.length :=
    childIndex_childPlace ..
  rw [pathTo_of_childOf h.childOf h.child.getElem?, hindex]

/-- One step down with `descend?`. -/
theorem descend?_singleton (tree : Tree) (i : Nat) :
    tree.descend? [i] = tree.children[i]? := by
  rw [descend?]
  cases tree.children[i]? with
  | none => rfl
  | some child => rfl

/-- **`pathTo` a position** leads to the subtree that is held there. -/
theorem Holds.descend?_pathTo (h : arena.Holds place tree) :
    arena.root.descend? (arena.pathTo place.index) = some tree := by
  induction h using Holds.induct with
  | root =>
    have hpath : arena.root.descend? (arena.pathTo 0) = some arena.root := by
      rw [pathTo_zero]
      rfl
    exact hpath
  | child above record before tree later habove ih =>
    have hget : (before ++ tree :: later)[before.length]? = some tree := by simp
    rw [habove.pathTo_childPlace, descend?_append, ih, Option.bind_some, descend?_singleton]
    exact hget

/-- **Every way inside the tree** is the way to a position. -/
theorem exists_holds_of_descend? {path : List Nat} (h : arena.root.descend? path = some tree) :
    ∃ place, arena.Holds place tree ∧ arena.pathTo place.index = path := by
  induction path using List.reverseRecOn generalizing tree with
  | nil =>
    obtain rfl := Option.some.inj h
    exact ⟨rootPlace, Holds.root arena, pathTo_zero arena⟩
  | append_singleton path i ih =>
    rw [descend?_append] at h
    obtain ⟨⟨record, children⟩, habove, hchild⟩ := Option.bind_eq_some_iff.1 h
    obtain ⟨before, later, rfl, rfl⟩ : ∃ before later, children = before ++ tree :: later ∧
        before.length = i := by
      rw [descend?_singleton] at hchild
      obtain ⟨hlt, rfl⟩ :=
        List.getElem?_eq_some_iff.1 (show children[i]? = some tree from hchild)
      exact ⟨children.take i, children.drop (i + 1), by simp, by simp; omega⟩
    obtain ⟨place, hold, rfl⟩ := ih habove
    exact ⟨_, hold.child, hold.pathTo_childPlace⟩

/-! ### Nodes and their numbers -/

/-- The subtree that is held at a position is the node at that place in pre-order. -/
theorem Holds.getElem?_preorder (h : arena.Holds place tree) :
    arena.root.preorder[place.index]? = some tree := by
  have hplaced :=
    (getElem?_placed_eq_some_iff rootPlace arena.root place.index _).2
      ⟨h, (Nat.zero_add _).symm⟩
  rw [← map_snd_placed rootPlace arena.root, List.getElem?_map, hplaced]
  rfl

/-- Different numbers tell nodes apart: those with one number stand at one position. -/
theorem Holds.index_eq_of_id_eq
    (hids : (arena.root.preorder.map fun node => node.record.id).Nodup)
    (h : arena.Holds place tree) {place' : Place} {tree' : Tree}
    (h' : arena.Holds place' tree') (hid : tree.record.id = tree'.record.id) :
    place.index = place'.index := by
  have hlt : place.index < (arena.root.preorder.map fun node => node.record.id).length := by
    have hlength := List.getElem?_eq_some_iff.1 h.getElem?_preorder
    rw [List.length_map]
    exact hlength.1
  refine (List.getElem?_inj hlt hids).1 ?_
  rw [List.getElem?_map, List.getElem?_map, h.getElem?_preorder, h'.getElem?_preorder,
    Option.map_some, Option.map_some, hid]

end Arena

namespace SyntaxTree

variable {t : SyntaxTree} {node : Handle} {place : Tree.Place} {tree : Tree}

/-! ### Handles -/

/-- **`engineNode` behind a good handle** is the subtree that is held there. -/
theorem Owns.engineNode_eq (h : t.Owns node) (hold : t.Holds place tree)
    (hindex : place.index = node.index) :
    t.engineNode node = .ok tree := by
  rw [engineNode, check_of_owns h, ← hindex]
  dsimp only [bind, Except.bind]
  rw [hold.descend?_pathTo]

/-- Only behind a good handle there is an `engineNode`. -/
theorem owns_of_engineNode (h : t.engineNode node = .ok tree) : t.Owns node := by
  by_contra hbad
  rw [engineNode, check_of_not_owns hbad] at h
  cases h

/-- `handleFor?` gives the handle of the engine's node at a position, if the engine's
numbers are all different. -/
theorem handleFor?_of_holds (hids : (t.root.preorder.map fun node => node.record.id).Nodup)
    (hold : t.Holds place tree) : t.handleFor? tree = some (t.handle place.index) := by
  have hlookup : t.positions.lookup tree.record.id = some place.index := by
    refine Arena.lookup_positions_eq_some_iff.2 ⟨⟨_, hold.getElem?, rfl⟩,
      fun j entry hlt hentry hid => ?_⟩
    obtain ⟨place', tree', hold', rfl, rfl⟩ := Arena.getElem?_nodes_eq_some_iff.1 hentry
    exact absurd hlt (Nat.not_lt_of_le (Nat.le_of_eq (hold'.index_eq_of_id_eq hids hold hid)))
  rw [handleFor?, hlookup]
  rfl

/-- **Handles and the engine's nodes correspond one to one**, in a tree where the engine's
numbers are all different.

Behind every good handle there is a node, and it is found without reading out of range. It
is reached from the root by the child indices that were collected on the way up. It is the
node that is stored at the position of the handle, in pre-order and with its record, and
no other way from the root leads to a node with its number. The handle of that node is the
handle.

Each node of the tree has a handle, and this is the one handle behind which the node is. -/
theorem handles_match_engineNodes (t : SyntaxTree)
    (hids : (t.root.preorder.map fun node => node.record.id).Nodup) :
    (∀ handle, t.Owns handle → ∃ node entry,
      t.engineNode handle = .ok node ∧
      (Operation.engineNode handle).checked t = some (.ok (.engineNode node)) ∧
      t.root.descend? (t.pathTo handle.index) = some node ∧
      t.root.preorder[handle.index]? = some node ∧
      t.node handle = .ok entry ∧ entry.record = node.record ∧
      (∀ path other, t.root.descend? path = some other → other.record.id = node.record.id →
        path = t.pathTo handle.index) ∧
      t.handleFor? node = some handle) ∧
    ∀ node ∈ t.root.preorder, (∃ handle, t.handleFor? node = some handle) ∧
      ∀ handle, t.handleFor? node = some handle ↔ t.engineNode handle = .ok node := by
  constructor
  · intro handle howns
    obtain ⟨place, node, hold, hindex⟩ := Arena.exists_holds howns.2
    have hnode := howns.engineNode_eq hold hindex
    have hhandle := handleFor?_of_holds hids hold
    have hread := hold.getElem?
    refine ⟨node, Tree.entryOf (place, node), hnode, ?_, ?_, ?_, ?_, rfl, ?_, ?_⟩
    · rw [howns.checked_eq rfl, Operation.run, hnode]
      rfl
    · rw [← hindex]
      exact hold.descend?_pathTo
    · rw [← hindex]
      exact hold.getElem?_preorder
    · exact node_of_read howns.1 (hindex ▸ hread)
    · intro path other hpath hid
      obtain ⟨place', hold', rfl⟩ := Arena.exists_holds_of_descend? hpath
      rw [hold'.index_eq_of_id_eq hids hold hid, hindex]
    · rw [hhandle, hindex, handle_index howns.1]
  · intro node hmem
    -- the node stands somewhere in pre-order, and the arena holds it there
    obtain ⟨index, hget⟩ := List.getElem?_of_mem hmem
    have hlt : index < t.nodeCount := by
      rw [t.nodeCount_eq_size, ← Tree.length_preorder]
      exact (List.getElem?_eq_some_iff.1 hget).1
    obtain ⟨place, tree, hold, rfl⟩ := Arena.exists_holds hlt
    obtain rfl := Option.some.inj (hold.getElem?_preorder.symm.trans hget)
    have hhandle := handleFor?_of_holds hids hold
    refine ⟨⟨_, hhandle⟩, fun handle => ⟨fun h => ?_, fun h => ?_⟩⟩
    · obtain rfl := Option.some.inj (hhandle.symm.trans h)
      exact (owns_handle hlt).engineNode_eq hold rfl
    · have howns := owns_of_engineNode h
      obtain ⟨place', tree', hold', hindex⟩ := Arena.exists_holds howns.2
      obtain rfl := Except.ok.inj ((howns.engineNode_eq hold' hindex).symm.trans h)
      rw [handleFor?_of_holds hids hold', hindex, handle_index howns.1]

/-- A node of which nothing is known but the engine's number. -/
def numbered (id : Nat) (children : List Tree) : Tree :=
  .node { (default : NodeRecord) with id := id } children

/-- A tree with two children that have one child each, all alike but for the engine's
numbers. -/
def numberedPair : SyntaxTree :=
  ofTree 0 .json [] (numbered 7 [numbered 4 [numbered 9 []], numbered 2 [numbered 8 []]])

/-- The last of the nodes is the first child of the second child of the root, and not the
other node that looks like it. -/
theorem handles_match_engineNodes_pair :
    (numberedPair.root.preorder.map fun node => node.record.id).Nodup ∧
      numberedPair.Owns ⟨0, 4⟩ ∧
      numberedPair.pathTo 4 = [1, 0] ∧ numberedPair.engineNode ⟨0, 4⟩ = .ok (numbered 8 []) ∧
      numberedPair.handleFor? (numbered 8 []) = some ⟨0, 4⟩ ∧
      numberedPair.engineNode ⟨0, 2⟩ ≠ .ok (numbered 8 []) := by
  have hids : (numberedPair.root.preorder.map fun node => node.record.id).Nodup := by decide
  have howns : numberedPair.Owns ⟨0, 4⟩ := by decide
  have hpath : numberedPair.pathTo 4 = [1, 0] := by decide
  obtain ⟨hhandles, hnodes⟩ := handles_match_engineNodes numberedPair hids
  obtain ⟨node, entry, hnode, -, -, hpreorder, -, -, -, hhandle⟩ := hhandles ⟨0, 4⟩ howns
  obtain rfl : node = numbered 8 [] := (Option.some.inj hpreorder).symm
  refine ⟨hids, howns, hpath, hnode, hhandle, fun hother => ?_⟩
  have hfirst := ((hnodes _ (List.mem_of_getElem? hpreorder)).2 ⟨0, 2⟩).2 hother
  exact absurd (Option.some.inj (hhandle.symm.trans hfirst)) (by decide)

end SyntaxTree

end SourceOutline
