import SourceOutline.Proofs.Arena
import SourceOutline.Tree.SyntaxTree

/-!
# Nodes and Their Relatives

Every position of an arena is the place of one node of the tree, and a placed node
determines the places of its children. `Arena.Holds arena place tree` says that an arena
holds the subtree `tree` at `place`; the lemmas about it are the only access to arenas
that later modules need.

## Main results

* `Tree.map_index_placed`: the places of a tree take one interval of positions, in order.
* `Arena.exists_holds` and `Arena.Holds.unique`: each position holds exactly one subtree.
* `Arena.Holds.child` and `Arena.Holds.parent_cases`: the children of a subtree that is
  held are held at the places computed for them, and nothing else is held but the root.
* `Arena.Holds.induct`: what passes from the whole tree down to children holds of all that
  is held.
-/

namespace SourceOutline

namespace Tree

/-- Induction over trees: a property that passes from the children to a node holds of
every tree. -/
theorem induct {motive : Tree → Prop}
    (step : ∀ record children, (∀ child ∈ children, motive child) →
      motive (.node record children))
    (tree : Tree) : motive tree :=
  @Tree.rec motive (fun trees => ∀ child ∈ trees, motive child)
    (fun record children ih => step record children ih)
    (fun _ h => absurd h List.not_mem_nil)
    (fun _ _ ih ihs _ h => (List.mem_cons.1 h).elim (fun e => e ▸ ih) (ihs _))
    tree

/-! ### Positions -/

mutual

/-- The places in `placed` take one interval of positions, in order. -/
theorem map_index_placed (place : Place) : ∀ tree : Tree,
    (tree.placed place).map (·.1.index) = List.range' place.index tree.size
  | .node record children => by
    rw [placed, List.map_cons, map_index_placedSiblings, size, Nat.add_comm 1,
      List.range'_succ]

/-- The places in `placedSiblings` take one interval of positions, in order. -/
theorem map_index_placedSiblings (parent index : Nat) (prevSibling : Option Nat)
    (childIndex depth : Nat) : ∀ trees : List Tree,
    (placedSiblings parent index prevSibling childIndex depth trees).map (·.1.index) =
      List.range' index (forestSize trees)
  | [] => rfl
  | tree :: later => by
    rw [placedSiblings, List.map_append, map_index_placed, map_index_placedSiblings,
      forestSize]
    exact List.range'_append_1

end

/-- The placed node at a position is the one whose place says so. -/
theorem getElem?_placed_eq_some_iff (place : Place) (tree : Tree) (k : Nat)
    (x : Place × Tree) :
    (tree.placed place)[k]? = some x ↔ x ∈ tree.placed place ∧
      x.1.index = place.index + k := by
  have hindex : ∀ (j : Nat) (y : Place × Tree), (tree.placed place)[j]? = some y →
      y.1.index = place.index + j := by
    intro j y hy
    have hj : j < tree.size := by
      rw [← length_placed place tree]
      exact (List.getElem?_eq_some_iff.1 hy).1
    have hmap : ((tree.placed place).map (·.1.index))[j]? = some y.1.index := by
      rw [List.getElem?_map, hy]; rfl
    rw [map_index_placed, List.getElem?_range' hj] at hmap
    have := Option.some.inj hmap
    omega
  constructor
  · intro h
    exact ⟨List.mem_of_getElem? h, hindex k x h⟩
  · rintro ⟨hmem, hk⟩
    obtain ⟨j, hj⟩ := List.getElem?_of_mem hmem
    have := hindex j x hj
    obtain rfl : j = k := by omega
    exact hj

/-! ### Children -/

/-- The place of a sibling that stands after some others, the first of which stands at
`index`. -/
def siblingPlace (parent index : Nat) (prevSibling : Option Nat) (childIndex depth : Nat)
    (tree : Tree) (later : List Tree) : List Tree → Place
  | [] => firstPlace parent index prevSibling childIndex depth tree later
  | other :: before =>
    siblingPlace parent (index + other.size) (some index) (childIndex + 1) depth tree
      later before

/-- The place of a child of a node at a place, by `siblingPlace`. -/
def childPlace (place : Place) (before : List Tree) (child : Tree) (later : List Tree) :
    Place :=
  siblingPlace place.index (place.index + 1) none 0 (place.depth + 1) child later before

/-- What `siblingPlace` is, but for the sibling before it. -/
theorem siblingPlace_eq (parent index : Nat) (prevSibling : Option Nat)
    (childIndex depth : Nat) (tree : Tree) (later before : List Tree) :
    siblingPlace parent index prevSibling childIndex depth tree later before =
      { index := index + forestSize before
        parent := some parent
        prevSibling :=
          (siblingPlace parent index prevSibling childIndex depth tree later
            before).prevSibling
        nextSibling := if later.isEmpty then none
          else some (index + forestSize before + tree.size)
        childIndex := childIndex + before.length
        depth := depth } := by
  induction before generalizing index prevSibling childIndex with
  | nil => rfl
  | cons other before ih =>
    rw [siblingPlace, ih, forestSize, List.length_cons, Nat.add_assoc,
      Nat.add_assoc childIndex, Nat.add_comm 1]

section

variable (place : Place) (before : List Tree) (child : Tree) (later : List Tree)

/-- A child stands right after its parent and the trees of the siblings before it. -/
@[simp] theorem index_childPlace :
    (childPlace place before child later).index = place.index + 1 + forestSize before :=
  congrArg Place.index (siblingPlace_eq ..)

/-- The parent of a child is the node at the place. -/
@[simp] theorem parent_childPlace :
    (childPlace place before child later).parent = some place.index :=
  congrArg Place.parent (siblingPlace_eq ..)

/-- A child has a next sibling if there are later ones, and it stands after its own
tree. -/
@[simp] theorem nextSibling_childPlace :
    (childPlace place before child later).nextSibling =
      if later.isEmpty then none
      else some (place.index + 1 + forestSize before + child.size) :=
  congrArg Place.nextSibling (siblingPlace_eq ..)

/-- Children are counted from 0. -/
@[simp] theorem childIndex_childPlace :
    (childPlace place before child later).childIndex = before.length :=
  (congrArg Place.childIndex (siblingPlace_eq ..)).trans (Nat.zero_add _)

/-- A child is one level below its parent. -/
@[simp] theorem depth_childPlace :
    (childPlace place before child later).depth = place.depth + 1 :=
  congrArg Place.depth (siblingPlace_eq ..)

/-- A child that is not the first follows the one before it. -/
@[simp] theorem prevSibling_childPlace_snoc (other : Tree) :
    (childPlace place (before ++ [other]) child later).prevSibling =
      some (place.index + 1 + forestSize before) := by
  rw [childPlace]
  generalize place.index + 1 = index
  generalize (none : Option Nat) = prev
  generalize 0 = childIndex
  induction before generalizing index prev childIndex with
  | nil => rfl
  | cons first before ih =>
    rw [List.cons_append, siblingPlace, ih, forestSize, Nat.add_assoc]

end

/-- A node of `placedSiblings` is placed in one of their trees, at its `siblingPlace`. -/
theorem mem_placedSiblings_iff {parent index : Nat} {prevSibling : Option Nat}
    {childIndex depth : Nat} {trees : List Tree} {x : Place × Tree} :
    x ∈ placedSiblings parent index prevSibling childIndex depth trees ↔
      ∃ before tree later, trees = before ++ tree :: later ∧
        x ∈ tree.placed
          (siblingPlace parent index prevSibling childIndex depth tree later before) := by
  induction trees generalizing index prevSibling childIndex with
  | nil => simp [placedSiblings]
  | cons first rest ih =>
    rw [placedSiblings, List.mem_append, ih]
    constructor
    · rintro (hx | ⟨before, tree, later, rfl, hx⟩)
      · exact ⟨[], first, rest, rfl, hx⟩
      · exact ⟨first :: before, tree, later, rfl, hx⟩
    · rintro ⟨_ | ⟨other, before⟩, tree, later, heq, hx⟩
      · obtain ⟨rfl, rfl⟩ := List.cons.inj heq
        exact Or.inl hx
      · obtain ⟨rfl, rfl⟩ := List.cons.inj heq
        exact Or.inr ⟨before, tree, later, rfl, hx⟩

/-- **A placed node** is the root, or `placed` in one of the subtrees below it. -/
theorem mem_placed_iff {place : Place} {record : NodeRecord} {children : List Tree}
    {x : Place × Tree} :
    x ∈ placed place (.node record children) ↔
      x = (place, .node record children) ∨
        ∃ before child later, children = before ++ child :: later ∧
          x ∈ child.placed (childPlace place before child later) := by
  rw [placed, List.mem_cons, mem_placedSiblings_iff]
  rfl

/-- The root of a tree is placed where the tree is. -/
theorem self_mem_placed (place : Place) (tree : Tree) : (place, tree) ∈ tree.placed place := by
  obtain ⟨record, children⟩ := tree
  exact mem_placed_iff.2 (Or.inl rfl)

/-- What is placed in a subtree is placed in the tree. -/
theorem placed_trans {place place' : Place} {tree sub : Tree} {x : Place × Tree}
    (hsub : (place', sub) ∈ tree.placed place) (hx : x ∈ sub.placed place') :
    x ∈ tree.placed place := by
  induction tree using induct generalizing place with
  | step record children ih =>
    rcases mem_placed_iff.1 hsub with heq | ⟨before, child, later, rfl, hmem⟩
    · obtain ⟨rfl, rfl⟩ := Prod.mk.inj heq
      exact hx
    · have hchild : child ∈ before ++ child :: later := by simp
      exact mem_placed_iff.2 (Or.inr ⟨before, child, later, rfl, ih child hchild hmem⟩)

/-- A placed node that is not the root is a child of a placed node. -/
theorem parent_of_mem_placed {place : Place} {tree : Tree} {x : Place × Tree}
    (hx : x ∈ tree.placed place) :
    x = (place, tree) ∨ ∃ above record before child later,
      (above, .node record (before ++ child :: later)) ∈ tree.placed place ∧
        x = (childPlace above before child later, child) := by
  induction tree using induct generalizing place with
  | step record children ih =>
    rcases mem_placed_iff.1 hx with heq | ⟨before, child, later, rfl, hmem⟩
    · exact Or.inl heq
    · have hchild : child ∈ before ++ child :: later := by simp
      rcases ih child hchild hmem with
        rfl | ⟨above, rec', before', child', later', habove, rfl⟩
      · exact Or.inr ⟨place, record, before, child, later, self_mem_placed _ _, rfl⟩
      · exact Or.inr ⟨above, rec', before', child', later',
          mem_placed_iff.2 (Or.inr ⟨before, child, later, rfl, habove⟩), rfl⟩

end Tree

/-! ### What the arena of a syntax tree holds -/

namespace Arena

open SourceOutline.Tree

/-- An arena holds a subtree at a place. -/
def Holds (arena : Arena) (place : Place) (tree : Tree) : Prop :=
  (place, tree) ∈ arena.root.placed rootPlace

/-- The arena has one entry for each node of the tree: `nodeCount` is its `size`. -/
theorem nodeCount_eq_size (arena : Arena) : arena.nodeCount = arena.root.size := by
  rw [nodeCount, arena.nodes_eq, flatten_eq_placed]
  simp [length_placed]

/-- A tree has a node. -/
theorem nodeCount_pos (arena : Arena) : 0 < arena.nodeCount := by
  rw [nodeCount_eq_size]
  exact arena.root.size_pos

/-- The entries of an arena are those of the subtrees that it `Holds`. -/
theorem getElem?_nodes_eq_some_iff {arena : Arena} {index : Nat} {entry : Entry} :
    arena.nodes[index]? = some entry ↔
      ∃ place tree, arena.Holds place tree ∧ place.index = index ∧
        entryOf (place, tree) = entry := by
  rw [arena.nodes_eq, flatten_eq_placed, List.getElem?_toArray, List.getElem?_map,
    Option.map_eq_some_iff]
  constructor
  · rintro ⟨⟨place, tree⟩, hx, rfl⟩
    obtain ⟨hmem, hindex⟩ := (getElem?_placed_eq_some_iff ..).1 hx
    exact ⟨place, tree, hmem, hindex.trans (Nat.zero_add _), rfl⟩
  · rintro ⟨place, tree, hmem, rfl, rfl⟩
    exact ⟨(place, tree), (getElem?_placed_eq_some_iff ..).2
      ⟨hmem, (Nat.zero_add _).symm⟩, rfl⟩

/-- Each position holds a subtree. -/
theorem exists_holds {arena : Arena} {index : Nat} (h : index < arena.nodeCount) :
    ∃ place tree, arena.Holds place tree ∧ place.index = index := by
  obtain ⟨place, tree, hold, hindex, -⟩ :=
    getElem?_nodes_eq_some_iff.1 (Array.getElem?_eq_getElem
      (show index < arena.nodes.size from h))
  exact ⟨place, tree, hold, hindex⟩

namespace Holds

variable {arena : Arena} {place place' : Place} {tree tree' : Tree}

/-- The arena `Holds` the whole tree at `rootPlace`. -/
theorem root (arena : Arena) : arena.Holds rootPlace arena.root :=
  self_mem_placed rootPlace arena.root

/-- The entry of a subtree that is held is its `entryOf`. -/
theorem getElem? (h : arena.Holds place tree) :
    arena.nodes[place.index]? = some (entryOf (place, tree)) :=
  getElem?_nodes_eq_some_iff.2 ⟨place, tree, h, rfl, rfl⟩

/-- Each position holds only one subtree. -/
theorem unique (h : arena.Holds place tree) (h' : arena.Holds place' tree')
    (hindex : place.index = place'.index) :
    place = place' ∧ tree = tree' := by
  have hx :=
    (getElem?_placed_eq_some_iff rootPlace arena.root place.index _).2
      ⟨h, (Nat.zero_add _).symm⟩
  have hy :=
    (getElem?_placed_eq_some_iff rootPlace arena.root place'.index _).2
      ⟨h', (Nat.zero_add _).symm⟩
  rw [hindex, hy] at hx
  exact Prod.mk.inj (Option.some.inj hx).symm

/-- The positions of a subtree that is held are positions of the arena. -/
theorem index_add_size_le (h : arena.Holds place tree) :
    place.index + tree.size ≤ arena.nodeCount := by
  have hlast : place.index + (tree.size - 1) ∈
      (arena.root.placed rootPlace).map (·.1.index) := by
    have hmem : place.index + (tree.size - 1) ∈ (tree.placed place).map (·.1.index) := by
      rw [map_index_placed, List.mem_range'_1]
      have := tree.size_pos
      omega
    obtain ⟨x, hx, hindex⟩ := List.mem_map.1 hmem
    exact List.mem_map.2 ⟨x, placed_trans h hx, hindex⟩
  rw [map_index_placed, List.mem_range'_1] at hlast
  have := tree.size_pos
  rw [nodeCount_eq_size]
  simp only [rootPlace] at hlast
  omega

/-- The children of a subtree that is held are held, each at its `childPlace`. -/
theorem child {record : NodeRecord} {before later : List Tree}
    (h : arena.Holds place (.node record (before ++ tree :: later))) :
    arena.Holds (childPlace place before tree later) tree :=
  placed_trans h (mem_placed_iff.2 (Or.inr ⟨before, tree, later, rfl, self_mem_placed _ _⟩))

/-- A subtree that is held is the whole tree, or a child of one that is held at its
`childPlace`. -/
theorem parent_cases (h : arena.Holds place tree) :
    (place = rootPlace ∧ tree = arena.root) ∨
      ∃ above record before later, arena.Holds above (.node record (before ++ tree :: later)) ∧
        place = childPlace above before tree later := by
  rcases parent_of_mem_placed h with heq | ⟨above, record, before, child, later, habove, heq⟩
  · exact Or.inl (Prod.mk.inj heq)
  · obtain ⟨rfl, rfl⟩ := Prod.mk.inj heq
    exact Or.inr ⟨above, record, before, later, habove, rfl⟩

/-- A subtree with a parent is a child of the one that is held there. -/
theorem exists_above {p : Nat} (h : arena.Holds place tree) (hparent : place.parent = some p) :
    ∃ above record before later, arena.Holds above (.node record (before ++ tree :: later)) ∧
      place = childPlace above before tree later ∧ above.index = p := by
  rcases h.parent_cases with ⟨rfl, rfl⟩ | ⟨above, record, before, later, habove, rfl⟩
  · cases hparent
  · rw [parent_childPlace] at hparent
    exact ⟨above, record, before, later, habove, rfl, Option.some.inj hparent⟩

/-- **Induction along parents**: what holds of the whole tree and passes from a node to
its children holds of every subtree that is held. -/
theorem induct {motive : (place : Place) → (tree : Tree) → arena.Holds place tree → Prop}
    (root : motive rootPlace arena.root (Holds.root arena))
    (child :
      ∀ above record before tree later
        (h : arena.Holds above (.node record (before ++ tree :: later))),
        motive above (.node record (before ++ tree :: later)) h →
          motive (childPlace above before tree later) tree h.child)
    {place : Place} {tree : Tree} (h : arena.Holds place tree) : motive place tree h := by
  induction hindex : place.index using Nat.strongRecOn generalizing place tree with
  | _ index ih =>
    rcases h.parent_cases with ⟨rfl, rfl⟩ | ⟨above, record, before, later, habove, rfl⟩
    · exact root
    · refine child above record before tree later habove (ih above.index ?_ habove rfl)
      rw [← hindex, index_childPlace]
      omega

/-- The `parent?` of a subtree that is held is that of its place. -/
theorem parent? (h : arena.Holds place tree) : arena.parent? place.index = place.parent := by
  rw [Arena.parent?, h.getElem?]
  rfl

/-- The `nextSibling?` of a subtree that is held is that of its place. -/
theorem nextSibling? (h : arena.Holds place tree) :
    arena.nextSibling? place.index = place.nextSibling := by
  rw [Arena.nextSibling?, h.getElem?]
  rfl

/-- The `prevSibling?` of a subtree that is held is that of its place. -/
theorem prevSibling? (h : arena.Holds place tree) :
    arena.prevSibling? place.index = place.prevSibling := by
  rw [Arena.prevSibling?, h.getElem?]
  rfl

/-- The `firstChild?` of a subtree that is held stands right after it, if there is one. -/
theorem firstChild? (h : arena.Holds place tree) :
    arena.firstChild? place.index = if tree.children.isEmpty then none
      else some (place.index + 1) := by
  rw [Arena.firstChild?, h.getElem?]
  rfl

end Holds

end Arena

end SourceOutline
