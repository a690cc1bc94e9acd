import SourceOutline.Language.Basic
import SourceOutline.Tree.Arena
import SourceOutline.Tree.Position

/-!
# Syntax Trees and Handles

An `Arena` is a source with the engine's tree and the nodes of that tree in pre-order;
what there is to say about nodes by their positions is said of it. A `SyntaxTree` is an
arena that has a number. Its nodes are addressed by a `Handle`, the number of the tree and
a position. A handle is only good for the tree it was taken from, and `SyntaxTree.check`
says so.

## Main statements

* `check_eq_ok_iff`: a handle passes the check when it carries the tree's number and a
  position in range.
-/

namespace SourceOutline

/-- The address of a node: the number of its tree and its position in pre-order. -/
structure Handle where
  tree : Nat
  index : Nat
  deriving DecidableEq, Repr, Inhabited

/-- Handles are ordered by tree, then by position. -/
def Handle.le (a b : Handle) : Bool :=
  a.tree < b.tree || (a.tree = b.tree && a.index ≤ b.index)

/-- Why a handle cannot be used with a tree. -/
inductive TraversalError where
  /-- The handle was taken from another tree. -/
  | foreignNode (expected found : Nat)
  /-- The tree has no node at that position. -/
  | invalidNode (index nodeCount : Nat)
  deriving DecidableEq, Repr, Inhabited

/-- The wording of an error. -/
def TraversalError.message : TraversalError → String
  | .foreignNode expected found =>
    "node belongs to tree #" ++ toString found ++ ", not tree #" ++ toString expected
  | .invalidNode index nodeCount =>
    "node index " ++ toString index ++ " out of range for tree with " ++ toString nodeCount ++
      " nodes"

/-- A source with its tree, laid out as an arena. -/
structure Arena where
  source : Bytes
  /-- The tree as the grammar engine gave it. -/
  root : Tree
  /-- The nodes of the tree in pre-order. -/
  nodes : Array Entry
  nodes_eq : nodes = root.flatten

namespace Arena

variable (arena : Arena)

/-- The number of nodes, named and anonymous. -/
def nodeCount : Nat :=
  arena.nodes.size

/-- Whether the tree has an error anywhere. -/
def hasError : Bool :=
  arena.root.record.hasError

/-- The position of the parent. -/
def parent? (index : Nat) : Option Nat :=
  arena.nodes[index]?.bind (·.parent)

/-- The position of the first child. -/
def firstChild? (index : Nat) : Option Nat :=
  arena.nodes[index]?.bind (·.firstChild)

/-- The position of the next sibling. -/
def nextSibling? (index : Nat) : Option Nat :=
  arena.nodes[index]?.bind (·.nextSibling)

/-- The position of the previous sibling. -/
def prevSibling? (index : Nat) : Option Nat :=
  arena.nodes[index]?.bind (·.prevSibling)

/-- A node and the siblings after it, at most `fuel` of them. -/
def siblingsFrom : Nat → Option Nat → List Nat
  | 0, _ => []
  | _ + 1, none => []
  | fuel + 1, some index => index :: siblingsFrom fuel (arena.nextSibling? index)

/-- The positions of the children of a node, in order. -/
def childrenOf (index : Nat) : List Nat :=
  arena.siblingsFrom arena.nodeCount (arena.firstChild? index)

/-- The positions of a node, its parent, and so on up to the root, at most `fuel` of them. -/
def climb : Nat → Nat → List Nat
  | 0, _ => []
  | fuel + 1, index =>
    index :: match arena.parent? index with
      | some parent => climb fuel parent
      | none => []

/-- The positions from a node up to the root. -/
def upwards (index : Nat) : List Nat :=
  arena.climb arena.nodeCount index

/-- The position after the subtree of a node: that of the next sibling of the closest of
the node and its ancestors that has one, or else the end of the arena. -/
def subtreeEnd (index : Nat) : Nat :=
  ((arena.upwards index).findSome? arena.nextSibling?).getD arena.nodeCount

/-- The positions of the nodes by the engine's numbers of them, the last one first. The
nodes are noted one after the other, so that of several nodes with one number the last
counts. -/
def positions : List (Nat × Nat) :=
  arena.nodes.toList.zipIdx.foldl (fun noted node => (node.1.record.id, node.2) :: noted) []

/-- The bytes of a node. -/
def bytesOf (record : NodeRecord) : Bytes :=
  (arena.source.take record.stop).drop record.start

/-- The text of a node. -/
def textOf (record : NodeRecord) : String :=
  Text.lossy (arena.bytesOf record)

/-- Where a node starts. -/
def startPoint (record : NodeRecord) : Point :=
  .ofOffset arena.source record.start

/-- Where a node ends. -/
def endPoint (record : NodeRecord) : Point :=
  .ofOffset arena.source record.stop

/-- Where a node starts, for people. -/
def startPosition (record : NodeRecord) : Position :=
  (arena.startPoint record).toPosition

/-- Where a node ends, for people. -/
def endPosition (record : NodeRecord) : Position :=
  (arena.endPoint record).toPosition

/-- The child indices that lead from the root to a node. -/
def pathTo (index : Nat) : List Nat :=
  ((arena.upwards index).dropLast.map fun i =>
    ((arena.nodes[i]?).map (·.childIndex)).getD 0).reverse

end Arena

/-- A parsed source: an arena with a number and a language. -/
structure SyntaxTree extends Arena where
  /-- The number of the tree; no two trees share it. -/
  id : Nat
  language : Language

namespace SyntaxTree

/-- The syntax tree of a source, numbered `id`. -/
def ofTree (id : Nat) (language : Language) (source : Bytes) (root : Tree) : SyntaxTree where
  source := source
  root := root
  nodes := root.flatten
  nodes_eq := rfl
  id := id
  language := language

variable (t : SyntaxTree)

/-- The handle of the node at a position. -/
def handle (index : Nat) : Handle where
  tree := t.id
  index := index

/-- The handle of the root. -/
def rootHandle : Handle :=
  t.handle 0

/-- Checks that a handle was taken from this tree and is in range. -/
def check (handle : Handle) : Except TraversalError Unit :=
  if handle.tree ≠ t.id then .error (.foreignNode t.id handle.tree)
  else if t.nodeCount ≤ handle.index then .error (.invalidNode handle.index t.nodeCount)
  else .ok ()

/-- A handle passes the check when it carries the tree's number and a position in range. -/
theorem check_eq_ok_iff (handle : Handle) :
    t.check handle = .ok () ↔ handle.tree = t.id ∧ handle.index < t.nodeCount := by
  unfold check
  split
  · simp_all
  · split
    · simp; omega
    · simp; omega

/-- The entry behind a handle. -/
def node (handle : Handle) : Except TraversalError Entry :=
  if handle.tree ≠ t.id then .error (.foreignNode t.id handle.tree)
  else match t.nodes[handle.index]? with
    | some entry => .ok entry
    | none => .error (.invalidNode handle.index t.nodeCount)

end SyntaxTree

/-- The node reached from the root of a tree by child indices. -/
def Tree.descend? : Tree → List Nat → Option Tree
  | tree, [] => some tree
  | tree, i :: path => do
    let child ← tree.children[i]?
    child.descend? path

namespace SyntaxTree

variable (t : SyntaxTree)

/-- The engine's node behind a handle. -/
def engineNode (handle : Handle) : Except TraversalError Tree := do
  t.check handle
  match t.root.descend? (t.pathTo handle.index) with
  | some tree => .ok tree
  | none => .error (.invalidNode handle.index t.nodeCount)

/-- The handle of an engine's node: that of the position under which its number was noted. -/
def handleFor? (tree : Tree) : Option Handle :=
  (t.positions.lookup tree.record.id).map t.handle

/-- One line about a tree, for people. -/
def describe : String :=
  "SyntaxTree \x7b id: ID, language: " ++ t.language.title ++ ", node_count: " ++
    toString t.nodeCount
    ++ ", source_len: " ++ toString t.source.length ++ " \x7d"

/-- One line about a node, for people. -/
def describeNode (record : NodeRecord) : String :=
  record.kind ++ " [" ++ (t.startPosition record).text ++ " - " ++
    (t.endPosition record).text ++ "]"

end SyntaxTree

end SourceOutline
