import SourceOutline.Text.Utf8

/-!
# Trees of Nodes

A parsed source is a finite ordered tree whose nodes carry a `NodeRecord`. The grammar
engine hands a tree over as a listing: its nodes in pre-order, each with its depth.
`Tree.ofListing?` puts the tree together and `Tree.listing` takes it apart.

## Main statements

* `length_preorder`: the pre-order sequence has as many elements as the tree has nodes.
* `size_pos`: a tree has a node.
-/

namespace SourceOutline

/-- What the grammar engine says of one node. -/
structure NodeRecord where
  /-- The engine's own number of the node, different for every node of a tree. -/
  id : Nat
  /-- The kind of the node; for an anonymous node its text. -/
  kind : String
  /-- The field under which the parent holds the node. -/
  field : Option String
  /-- The offset of the first byte. -/
  start : Nat
  /-- The offset after the last byte. -/
  stop : Nat
  isNamed : Bool
  /-- The node stands for text that the grammar could not fit. -/
  isError : Bool
  /-- The node was inserted where something was missing. -/
  isMissing : Bool
  /-- The node or something below it is an error. -/
  hasError : Bool
  deriving DecidableEq, Repr, Inhabited

/-- A finite ordered tree of node records. -/
inductive Tree where
  | node (record : NodeRecord) (children : List Tree)
  deriving Repr, Inhabited

namespace Tree

/-- The record of the root. -/
def record : Tree → NodeRecord
  | .node record _ => record

/-- The trees below the root. -/
def children : Tree → List Tree
  | .node _ children => children

mutual

/-- The number of nodes of a tree. -/
def size : Tree → Nat
  | .node _ children => 1 + forestSize children

/-- The number of nodes of a sequence of trees. -/
def forestSize : List Tree → Nat
  | [] => 0
  | tree :: trees => tree.size + forestSize trees

end

mutual

/-- The nodes of a tree in pre-order. -/
def preorder : Tree → List Tree
  | .node record children => .node record children :: forestPreorder children

/-- The nodes of a sequence of trees in pre-order. -/
def forestPreorder : List Tree → List Tree
  | [] => []
  | tree :: trees => tree.preorder ++ forestPreorder trees

end

/-- A tree has a node. -/
theorem size_pos (tree : Tree) : 0 < tree.size := by
  cases tree with
  | node record children => rw [size]; omega

mutual

/-- The pre-order sequence has as many elements as the tree has nodes. -/
theorem length_preorder : ∀ tree : Tree, tree.preorder.length = tree.size
  | .node _ children => by
    rw [preorder, size, List.length_cons, length_forestPreorder children]
    omega

/-- The pre-order sequence of a forest has as many elements as the forest has nodes. -/
theorem length_forestPreorder :
    ∀ trees : List Tree, (forestPreorder trees).length = forestSize trees
  | [] => rfl
  | tree :: trees => by
    rw [forestPreorder, forestSize, List.length_append, length_preorder tree,
      length_forestPreorder trees]

end

mutual

/-- The records of a tree in pre-order, each with its depth. -/
def listing (depth : Nat) : Tree → List (Nat × NodeRecord)
  | .node record children => (depth, record) :: forestListing (depth + 1) children

/-- The records of a sequence of trees in pre-order, each with its depth. -/
def forestListing (depth : Nat) : List Tree → List (Nat × NodeRecord)
  | [] => []
  | tree :: trees => tree.listing depth ++ forestListing depth trees

end

/-- Puts a record in front of the trees that follow it in a listing: the deeper ones
become its children. -/
def adopt (line : Nat × NodeRecord) (later : List (Nat × Tree)) : List (Nat × Tree) :=
  let deeper := later.takeWhile fun item => line.1 < item.1
  let rest := later.dropWhile fun item => line.1 < item.1
  (line.1, .node line.2 (deeper.map (·.2))) :: rest

/-- The trees of a listing, each with the depth of its root. -/
def forestOfListing (lines : List (Nat × NodeRecord)) : List (Nat × Tree) :=
  lines.foldr adopt []

/-- The tree of a listing with a single root. -/
def ofListing? (lines : List (Nat × NodeRecord)) : Option Tree :=
  match forestOfListing lines with
  | [(_, tree)] => some tree
  | _ => none

end Tree

end SourceOutline
