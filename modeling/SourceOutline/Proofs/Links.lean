import SourceOutline.Proofs.Placement

/-!
# The Links of an Arena

The links of an arena say everything about the shape of its tree. This module reads them
back: following the first child and then next siblings enumerates the children of a node,
the links agree with each other, and a tree that is rebuilt from these two links alone is
the tree that the arena was made of.

Following links is stated by the relation `Follows`, which ends only where a link is
missing; that the enumeration `childrenOf`, which takes a bounded number of steps, is not
cut off is a consequence.

## Main results

* `Arena.Holds.childrenOf`: the positions of the children of a subtree that is held.
* `Arena.wellLinked`: the links of every arena agree.
* `Arena.rebuild?_holds`: rebuilding a subtree gives it back.
* `SyntaxTree.ofTree_faithful`: the arena of a tree encodes exactly that tree.
-/

namespace SourceOutline

/-- Following `next` from a start passes the positions of a list and then ends. -/
inductive Follows (next : Nat → Option Nat) : Option Nat → List Nat → Prop
  | done : Follows next none []
  | step {index : Nat} {rest : List Nat} :
      Follows next (next index) rest → Follows next (some index) (index :: rest)

namespace Tree

/-- The nodes of two forests together. -/
theorem forestSize_append (as bs : List Tree) :
    forestSize (as ++ bs) = forestSize as + forestSize bs := by
  induction as with
  | nil => simp [forestSize]
  | cons a as ih => rw [List.cons_append, forestSize, ih, forestSize, Nat.add_assoc]

/-- The nodes of a forest with one more tree. -/
theorem forestSize_snoc (trees : List Tree) (tree : Tree) :
    forestSize (trees ++ [tree]) = forestSize trees + tree.size := by
  rw [forestSize_append, forestSize, forestSize, Nat.add_zero]

/-- A forest has at least as many nodes as trees, by `forestSize`. -/
theorem length_le_forestSize (trees : List Tree) : trees.length ≤ forestSize trees := by
  induction trees with
  | nil => exact Nat.le_refl 0
  | cons tree later ih =>
    have := tree.size_pos
    rw [forestSize, List.length_cons]
    omega

/-- The positions of some siblings, the first of which stands at `index`. -/
def siblingIndices (index : Nat) : List Tree → List Nat
  | [] => []
  | tree :: later => index :: siblingIndices (index + tree.size) later

/-- There is one of `siblingIndices` for each sibling. -/
@[simp] theorem length_siblingIndices (index : Nat) (trees : List Tree) :
    (siblingIndices index trees).length = trees.length := by
  induction trees generalizing index with
  | nil => rfl
  | cons tree later ih => rw [siblingIndices, List.length_cons, ih, List.length_cons]

/-- A sibling stands after the nodes of those before it, which `forestSize` counts. -/
theorem getElem?_siblingIndices (index : Nat) (before : List Tree) (tree : Tree)
    (later : List Tree) :
    (siblingIndices index (before ++ tree :: later))[before.length]? =
      some (index + forestSize before) := by
  induction before generalizing index with
  | nil => rfl
  | cons other before ih =>
    rw [List.cons_append, siblingIndices, List.length_cons, List.getElem?_cons_succ, ih,
      forestSize, Nat.add_assoc]

/-- The members of `siblingIndices`, by what stands before them. -/
theorem mem_siblingIndices_iff {index i : Nat} {trees : List Tree} :
    i ∈ siblingIndices index trees ↔
      ∃ before tree later, trees = before ++ tree :: later ∧
        i = index + forestSize before := by
  constructor
  · intro hmem
    obtain ⟨k, hk⟩ := List.getElem?_of_mem hmem
    have hlt : k < trees.length := by
      have := (List.getElem?_eq_some_iff.1 hk).1
      rwa [length_siblingIndices] at this
    obtain ⟨before, tree, later, rfl, rfl⟩ : ∃ before tree later,
        trees = before ++ tree :: later ∧ before.length = k :=
      ⟨trees.take k, trees[k], trees.drop (k + 1), by simp, by simp; omega⟩
    rw [getElem?_siblingIndices] at hk
    exact ⟨before, tree, later, rfl, (Option.some.inj hk).symm⟩
  · rintro ⟨before, tree, later, rfl, rfl⟩
    exact List.mem_of_getElem? (getElem?_siblingIndices index before tree later)

/-- `siblingIndices` are strictly increasing. -/
theorem pairwise_siblingIndices (index : Nat) (trees : List Tree) :
    (siblingIndices index trees).Pairwise (· < ·) := by
  induction trees generalizing index with
  | nil => exact List.Pairwise.nil
  | cons tree later ih =>
    rw [siblingIndices, List.pairwise_cons]
    refine ⟨fun i hi => ?_, ih _⟩
    obtain ⟨before, -, -, -, rfl⟩ := mem_siblingIndices_iff.1 hi
    have := tree.size_pos
    omega

end Tree

namespace Arena

open SourceOutline.Tree

variable {arena : Arena} {place : Place}

/-- A `siblingsFrom` that has enough steps passes the positions that the links lead to. -/
theorem siblingsFrom_eq {start : Option Nat} {positions : List Nat}
    (h : Follows arena.nextSibling? start positions) {fuel : Nat}
    (hfuel : positions.length < fuel) :
    arena.siblingsFrom fuel start = positions := by
  induction h generalizing fuel with
  | done =>
    obtain ⟨fuel, rfl⟩ : ∃ k, fuel = k + 1 := ⟨fuel - 1, by omega⟩
    rfl
  | step _ ih =>
    rw [List.length_cons] at hfuel
    obtain ⟨fuel, rfl⟩ : ∃ k, fuel = k + 1 := ⟨fuel - 1, by omega⟩
    rw [siblingsFrom, ih (by omega)]

/-- Next siblings lead from a child to the end of the children, as `Follows` says. -/
theorem Holds.follows {record : NodeRecord} (before rest : List Tree)
    (h : arena.Holds place (.node record (before ++ rest))) :
    Follows arena.nextSibling? (if rest.isEmpty then none
      else some (place.index + 1 + forestSize before))
      (siblingIndices (place.index + 1 + forestSize before) rest) := by
  induction rest generalizing before with
  | nil => exact Follows.done
  | cons child rest ih =>
    have hnext := h.child.nextSibling?
    rw [index_childPlace, nextSibling_childPlace] at hnext
    have hrest := ih (before ++ [child]) (by simpa using h)
    rw [forestSize_snoc, ← Nat.add_assoc, ← hnext] at hrest
    exact Follows.step hrest

/-- `firstChild?` and then `nextSibling?` lead through the children of a node. -/
theorem Holds.follows_firstChild? {record : NodeRecord} {children : List Tree}
    (h : arena.Holds place (.node record children)) :
    Follows arena.nextSibling? (arena.firstChild? place.index)
      (siblingIndices (place.index + 1) children) := by
  rw [h.firstChild?]
  exact Holds.follows [] children h

/-- **The positions of the children** of a subtree that is held: `childrenOf` gives its
`siblingIndices`. -/
theorem Holds.childrenOf {record : NodeRecord} {children : List Tree}
    (h : arena.Holds place (.node record children)) :
    arena.childrenOf place.index = siblingIndices (place.index + 1) children := by
  refine siblingsFrom_eq h.follows_firstChild? ?_
  have hlen := length_le_forestSize children
  have hle := h.index_add_size_le
  rw [size] at hle
  rw [length_siblingIndices]
  omega

/-- A position with a link holds a subtree. -/
theorem holds_of_bind_eq_some {link : Entry → Option Nat} {i j : Nat}
    (h : arena.nodes[i]?.bind link = some j) :
    ∃ place tree, arena.Holds place tree ∧ place.index = i := by
  obtain ⟨entry, hentry, -⟩ := Option.bind_eq_some_iff.1 h
  obtain ⟨place, tree, hold, hindex, -⟩ := getElem?_nodes_eq_some_iff.1 hentry
  exact ⟨place, tree, hold, hindex⟩

/-- `childrenOf` gives the positions whose `parent?` is the node. -/
theorem Holds.mem_childrenOf_iff {record : NodeRecord} {children : List Tree}
    (h : arena.Holds place (.node record children)) (index : Nat) :
    index ∈ arena.childrenOf place.index ↔ arena.parent? index = some place.index := by
  rw [h.childrenOf, mem_siblingIndices_iff]
  constructor
  · rintro ⟨before, child, later, rfl, rfl⟩
    have hparent := h.child.parent?
    rwa [index_childPlace, parent_childPlace] at hparent
  · intro hparent
    obtain ⟨place', tree, hold, rfl⟩ := holds_of_bind_eq_some hparent
    rw [hold.parent?] at hparent
    obtain ⟨above, record', before, later, habove, rfl, hindex⟩ := hold.exists_above hparent
    -- the parent link leads to the node itself, so the two nodes are the same
    obtain ⟨rfl, heq⟩ := habove.unique h hindex
    obtain ⟨rfl, rfl⟩ := Tree.node.inj heq
    exact ⟨before, tree, later, rfl, index_childPlace ..⟩

/-- Two positions at which the arena holds neighbouring children of one node. -/
def Adjacent (arena : Arena) (i j : Nat) : Prop :=
  ∃ above record before tree next later, arena.Holds above
    (.node record (before ++ tree :: next :: later)) ∧
    i = above.index + 1 + forestSize before ∧ j = i + tree.size

/-- The `nextSibling?` of a node is the neighbour after it (`Adjacent`). -/
theorem nextSibling?_eq_some_iff (arena : Arena) (i j : Nat) :
    arena.nextSibling? i = some j ↔ arena.Adjacent i j := by
  constructor
  · intro hnext
    obtain ⟨place, tree, hold, rfl⟩ := holds_of_bind_eq_some hnext
    rw [hold.nextSibling?] at hnext
    rcases hold.parent_cases with ⟨rfl, rfl⟩ | ⟨above, record, before, later, habove, rfl⟩
    · cases hnext
    · rw [nextSibling_childPlace] at hnext
      cases later with
      | nil => cases hnext
      | cons next later =>
        refine ⟨above, record, before, tree, next, later, habove, index_childPlace .., ?_⟩
        rw [index_childPlace]
        exact (Option.some.inj hnext).symm
  · rintro ⟨above, record, before, tree, next, later, habove, rfl, rfl⟩
    have hnext := habove.child.nextSibling?
    rwa [index_childPlace, nextSibling_childPlace] at hnext

/-- The `prevSibling?` of a node is the neighbour before it (`Adjacent`). -/
theorem prevSibling?_eq_some_iff (arena : Arena) (i j : Nat) :
    arena.prevSibling? j = some i ↔ arena.Adjacent i j := by
  constructor
  · intro hprev
    obtain ⟨place, next, hold, rfl⟩ := holds_of_bind_eq_some hprev
    rw [hold.prevSibling?] at hprev
    rcases hold.parent_cases with ⟨rfl, rfl⟩ | ⟨above, record, before, later, habove, rfl⟩
    · cases hprev
    · rcases List.eq_nil_or_concat before with rfl | ⟨before, tree, rfl⟩
      · cases hprev
      · rw [List.concat_eq_append, prevSibling_childPlace_snoc] at hprev
        rw [List.concat_eq_append, List.append_assoc] at habove
        refine ⟨above, record, before, tree, next, later, habove,
          (Option.some.inj hprev).symm, ?_⟩
        rw [index_childPlace, List.concat_eq_append, forestSize_snoc, ← Option.some.inj hprev,
          ← Nat.add_assoc]
  · rintro ⟨above, record, before, tree, next, later, habove, rfl, rfl⟩
    have hsplit : arena.Holds above (.node record ((before ++ [tree]) ++ next :: later)) := by
      rwa [List.append_assoc]
    have hprev := hsplit.child.prevSibling?
    rwa [prevSibling_childPlace_snoc, index_childPlace, forestSize_snoc,
      ← Nat.add_assoc] at hprev

/-! ### The links agree -/

/-- The links of an arena are those of an ordered tree. -/
structure WellLinked (arena : Arena) : Prop where
  /-- The first node is the only one without a parent. -/
  parent_eq_none_iff : ∀ {i : Nat} {entry : Entry}, arena.nodes[i]? = some entry →
    (entry.parent = none ↔ i = 0)
  /-- The first node has depth 0. -/
  depth_root : ∀ {entry : Entry}, arena.nodes[0]? = some entry → entry.depth = 0
  /-- A parent stands before its children and is one level above them. -/
  parent_before : ∀ {i p : Nat} {entry : Entry}, arena.nodes[i]? = some entry →
    entry.parent = some p →
    p < i ∧ ∃ above, arena.nodes[p]? = some above ∧ entry.depth = above.depth + 1
  /-- The first child and then next siblings lead through the children of a node, to the
  end. -/
  follows : ∀ {p : Nat}, p < arena.nodeCount →
    Follows arena.nextSibling? (arena.firstChild? p) (arena.childrenOf p)
  /-- The children of a node are the nodes whose parent it is. -/
  mem_children_iff : ∀ {p : Nat}, p < arena.nodeCount → ∀ i, i ∈ arena.childrenOf p ↔
    arena.parent? i = some p
  /-- Children come in order, none of them twice. -/
  children_increasing : ∀ {p : Nat}, p < arena.nodeCount →
    (arena.childrenOf p).Pairwise (· < ·)
  /-- Next and previous siblings are inverse to each other. -/
  next_iff_prev : ∀ i j, arena.nextSibling? i = some j ↔ arena.prevSibling? j = some i
  /-- The child index is the position among the children of the parent. -/
  childIndex_eq : ∀ {i p : Nat} {entry : Entry}, arena.nodes[i]? = some entry →
    entry.parent = some p →
    (arena.childrenOf p)[entry.childIndex]? = some i
  /-- Children are counted. -/
  childCount_eq : ∀ {p : Nat} {entry : Entry}, arena.nodes[p]? = some entry →
    entry.childCount = (arena.childrenOf p).length
  /-- Named children are counted. -/
  namedChildCount_eq : ∀ {p : Nat} {entry : Entry}, arena.nodes[p]? = some entry →
    entry.namedChildCount = (arena.childrenOf p).countP fun i =>
      arena.nodes[i]?.any (·.record.isNamed)

/-- The number of named nodes among the children of a node, counted by position. -/
theorem Holds.countP_children {record : NodeRecord} (before rest : List Tree)
    (h : arena.Holds place (.node record (before ++ rest))) :
    (siblingIndices (place.index + 1 + forestSize before) rest).countP
        (fun i => arena.nodes[i]?.any (·.record.isNamed)) =
      rest.countP (·.record.isNamed) := by
  induction rest generalizing before with
  | nil => rfl
  | cons child rest ih =>
    have hentry := h.child.getElem?
    rw [index_childPlace] at hentry
    have hsplit : arena.Holds place (.node record ((before ++ [child]) ++ rest)) := by
      rwa [List.append_assoc]
    have hrest := ih (before ++ [child]) hsplit
    rw [forestSize_snoc, ← Nat.add_assoc] at hrest
    rw [siblingIndices, List.countP_cons, List.countP_cons, hrest, hentry]
    rfl

/-- **The links of every arena agree**: it is `WellLinked`. -/
theorem wellLinked (arena : Arena) : arena.WellLinked where
  parent_eq_none_iff := by
    intro i entry hentry
    obtain ⟨place, tree, hold, rfl, rfl⟩ := getElem?_nodes_eq_some_iff.1 hentry
    rcases hold.parent_cases with ⟨rfl, rfl⟩ | ⟨above, record, before, later, -, rfl⟩
    · exact ⟨fun _ => rfl, fun _ => rfl⟩
    · rw [entryOf, parent_childPlace, index_childPlace]
      exact ⟨fun h => absurd h (by simp), fun h => by omega⟩
  depth_root := by
    intro entry hentry
    have hroot : arena.nodes[0]? = some (entryOf (rootPlace, arena.root)) :=
      (Holds.root arena).getElem?
    obtain rfl := Option.some.inj (hentry.symm.trans hroot)
    rfl
  parent_before := by
    intro i p entry hentry hparent
    obtain ⟨place, tree, hold, rfl, rfl⟩ := getElem?_nodes_eq_some_iff.1 hentry
    obtain ⟨above, record, before, later, habove, rfl, rfl⟩ := hold.exists_above hparent
    refine ⟨?_, _, habove.getElem?, depth_childPlace ..⟩
    rw [index_childPlace]
    omega
  follows := by
    intro p hp
    obtain ⟨place, ⟨record, children⟩, hold, rfl⟩ := exists_holds hp
    rw [hold.childrenOf]
    exact hold.follows_firstChild?
  mem_children_iff := by
    intro p hp i
    obtain ⟨place, ⟨record, children⟩, hold, rfl⟩ := exists_holds hp
    exact hold.mem_childrenOf_iff i
  children_increasing := by
    intro p hp
    obtain ⟨place, ⟨record, children⟩, hold, rfl⟩ := exists_holds hp
    rw [hold.childrenOf]
    exact pairwise_siblingIndices ..
  next_iff_prev := fun i j =>
    (arena.nextSibling?_eq_some_iff i j).trans (arena.prevSibling?_eq_some_iff i j).symm
  childIndex_eq := by
    intro i p entry hentry hparent
    obtain ⟨place, tree, hold, rfl, rfl⟩ := getElem?_nodes_eq_some_iff.1 hentry
    obtain ⟨above, record, before, later, habove, rfl, rfl⟩ := hold.exists_above hparent
    have hindex : (entryOf (childPlace above before tree later, tree)).childIndex =
        before.length :=
      childIndex_childPlace ..
    rw [habove.childrenOf, index_childPlace, hindex, getElem?_siblingIndices]
  childCount_eq := by
    intro p entry hentry
    obtain ⟨place, ⟨record, children⟩, hold, rfl, rfl⟩ := getElem?_nodes_eq_some_iff.1 hentry
    rw [hold.childrenOf, length_siblingIndices]
    rfl
  namedChildCount_eq := by
    intro p entry hentry
    obtain ⟨place, ⟨record, children⟩, hold, rfl, rfl⟩ := getElem?_nodes_eq_some_iff.1 hentry
    rw [hold.childrenOf]
    exact (hold.countP_children [] children).symm

/-! ### Rebuilding -/

/-- The subtree that the links to first children and next siblings describe, at most
`fuel` levels deep. -/
def rebuild? (arena : Arena) : Nat → Nat → Option Tree
  | 0, _ => none
  | fuel + 1, index => do
    let entry ← arena.nodes[index]?
    let children ← (arena.childrenOf index).mapM (arena.rebuild? fuel)
    some (.node entry.record children)

/-- A reading of the children of a node that gives back each of them gives back all of
them, at their `siblingIndices`. -/
theorem Holds.mapM_children {record : NodeRecord} {read : Nat → Option Tree}
    (before rest : List Tree) (h : arena.Holds place (.node record (before ++ rest)))
    (hread : ∀ child ∈ rest, ∀ place, arena.Holds place child →
      read place.index = some child) :
    (siblingIndices (place.index + 1 + forestSize before) rest).mapM read = some rest := by
  induction rest generalizing before with
  | nil => rfl
  | cons child rest ih =>
    have hchild := hread child List.mem_cons_self _ h.child
    rw [index_childPlace] at hchild
    have hsplit : arena.Holds place (.node record ((before ++ [child]) ++ rest)) := by
      rwa [List.append_assoc]
    have hrest := ih (before ++ [child]) hsplit fun other hother =>
      hread other (List.mem_cons_of_mem _ hother)
    rw [forestSize_snoc, ← Nat.add_assoc] at hrest
    rw [siblingIndices, List.mapM_cons, hchild, hrest]
    rfl

/-- A child has fewer nodes than its parent. -/
theorem size_lt_of_mem (record : NodeRecord) {children : List Tree} {child : Tree}
    (h : child ∈ children) : child.size < (Tree.node record children).size := by
  obtain ⟨before, later, rfl⟩ := List.append_of_mem h
  rw [size, forestSize_append, forestSize]
  omega

/-- **Rebuilding a subtree** gives it back: `rebuild?` undoes the arena. -/
theorem rebuild?_holds {fuel : Nat} {tree : Tree} (h : arena.Holds place tree)
    (hfuel : tree.size ≤ fuel) :
    arena.rebuild? fuel place.index = some tree := by
  induction fuel generalizing place tree with
  | zero =>
    have := tree.size_pos
    omega
  | succ fuel ih =>
    obtain ⟨record, children⟩ := tree
    have hchildren : (arena.childrenOf place.index).mapM (arena.rebuild? fuel) =
        some children := by
      rw [h.childrenOf]
      refine h.mapM_children [] children fun child hmem place' hold => ih hold ?_
      have := size_lt_of_mem record hmem
      omega
    rw [rebuild?, h.getElem?, Option.bind_eq_bind, Option.bind_some, hchildren]
    rfl

end Arena

/-- **A faithful arena.** The arena of a tree lists its nodes in pre-order, its links
agree, and the tree that its first children and next siblings describe is the tree it was
made of. -/
theorem SyntaxTree.ofTree_faithful (id : Nat) (language : Language) (source : Bytes)
    (tree : Tree) :
    let t := SyntaxTree.ofTree id language source tree
    t.nodes.toList.map (·.record) = tree.preorder.map (·.record) ∧
      t.WellLinked ∧
      t.rebuild? t.nodeCount 0 = some tree := by
  intro t
  refine ⟨?_, t.wellLinked, ?_⟩
  · have hnodes : t.nodes.toList = (tree.placed Tree.rootPlace).map Tree.entryOf := by
      rw [t.nodes_eq, Tree.flatten_eq_placed]
      rfl
    rw [hnodes, ← Tree.map_snd_placed Tree.rootPlace tree, List.map_map, List.map_map]
    rfl
  · exact Arena.rebuild?_holds (Arena.Holds.root t.toArena)
      (Nat.le_of_eq t.nodeCount_eq_size.symm)

end SourceOutline
