import SourceOutline.Tree.Basic

/-!
# The Arena of a Tree

`Tree.flatten` lists the nodes of a tree in pre-order, each with links to its relatives by
position in the list. A cursor walks the tree and never recurses, so deep trees are no
trouble. The entries are completed on the way: a node that is visited is counted by the
nearest ancestor, which is still open, and becomes the next sibling of the child before
it.
-/

namespace SourceOutline

/-- A node of a tree with its links. -/
structure Entry where
  record : NodeRecord
  parent : Option Nat
  firstChild : Option Nat
  nextSibling : Option Nat
  prevSibling : Option Nat
  /-- The position among the parent's children. -/
  childIndex : Nat
  childCount : Nat
  namedChildCount : Nat
  /-- The distance from the root. -/
  depth : Nat
  deriving DecidableEq, Repr, Inhabited

namespace Entry

/-- The entry of a node that has one more child, at a position. -/
def addChild (entry : Entry) (index : Nat) (isNamed : Bool) : Entry :=
  { entry with
    firstChild := entry.firstChild.or (some index)
    childCount := entry.childCount + 1
    namedChildCount := if isNamed then entry.namedChildCount + 1 else entry.namedChildCount }

/-- The entry of a node whose next sibling stands at a position. -/
def precede (entry : Entry) (index : Nat) : Entry :=
  { entry with nextSibling := some index }

end Entry

namespace Tree

/-- A place in a tree during a walk. -/
structure Cursor where
  /-- The node in focus. -/
  focus : Tree
  /-- The siblings after the node in focus. -/
  later : List Tree
  /-- The siblings after each ancestor, those of the nearest first. -/
  above : List (List Tree)
  deriving Inhabited

/-- The ancestors of a node, the nearest first: their positions, each with that of its
last child so far. -/
abbrev OpenNodes := List (Nat × Option Nat)

/-- A walk that has come to a node. -/
structure Walk where
  cursor : Cursor
  /-- The entries of the nodes before. -/
  nodes : Array Entry
  /-- The ancestors of the node. -/
  opened : OpenNodes
  deriving Inhabited

namespace Walk

/-- The entry of a new node, as far as it is known when the node is visited. -/
def newEntry (nodes : Array Entry) (opened : OpenNodes) (record : NodeRecord) : Entry :=
  let parent := opened.head?.map (·.1)
  { record
    parent
    firstChild := none
    nextSibling := none
    prevSibling := opened.head?.bind (·.2)
    childIndex := ((parent.bind (nodes[·]?)).map (·.childCount)).getD 0
    childCount := 0
    namedChildCount := 0
    depth := opened.length }

/-- Links the relatives of a new node to it. -/
def link (nodes : Array Entry) (index : Nat) (isNamed : Bool) : OpenNodes → Array Entry
  | [] => nodes
  | (parent, none) :: _ => nodes.modify parent (·.addChild index isNamed)
  | (parent, some prev) :: _ =>
    (nodes.modify parent (·.addChild index isNamed)).modify prev (·.precede index)

/-- The ancestors after a new node, which is the last child of the nearest one. -/
def note (index : Nat) : OpenNodes → OpenNodes
  | [] => []
  | (parent, _) :: opened => (parent, some index) :: opened

/-- Moves on from a node whose subtree is done: to the next sibling of the nearest of the
node and its ancestors that has one. The ancestors that are left on the way are closed. At
the end of the tree there is no move. -/
def leave : List Tree → List (List Tree) → OpenNodes → Option (Cursor × OpenNodes)
  | sibling :: later, above, opened => some ({ focus := sibling, later, above }, opened)
  | [], [], _ => none
  | [], later :: above, opened => leave later above opened.tail

/-- Moves on from a node that was visited at a position: to its first child, which opens
the node, or else away from it. -/
def move (cursor : Cursor) (index : Nat) (opened : OpenNodes) : Option (Cursor × OpenNodes) :=
  match cursor.focus.children with
  | child :: later =>
    some ({ focus := child, later, above := cursor.later :: cursor.above },
      (index, none) :: opened)
  | [] => leave cursor.later cursor.above opened

/-- The entries after the visit of a node. -/
def visit (nodes : Array Entry) (opened : OpenNodes) (record : NodeRecord) : Array Entry :=
  let index := nodes.size
  link (nodes.push (newEntry nodes opened record)) index record.isNamed opened

/-- The entries at the end of a walk, which visits one node at a step and takes at most
`fuel` of them. -/
def run : Nat → Walk → Array Entry
  | 0, walk => walk.nodes
  | fuel + 1, { cursor, nodes, opened } =>
    let next? := move cursor nodes.size (note nodes.size opened)
    let nodes := visit nodes opened cursor.focus.record
    match next? with
    | some (cursor, opened) => run fuel { cursor, nodes, opened }
    | none => nodes

end Walk

/-- The arena of a tree: its nodes in pre-order with their links. -/
def flatten (tree : Tree) : Array Entry :=
  Walk.run tree.size
    { cursor := { focus := tree, later := [], above := [] }, nodes := #[], opened := [] }

end Tree

end SourceOutline
