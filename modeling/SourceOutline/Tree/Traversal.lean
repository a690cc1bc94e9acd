import SourceOutline.Tree.SyntaxTree

/-!
# Walking Trees

Operations on the nodes of a tree that are given by handles. All of them check their
handles first. Walks keep a stack of positions and follow links only; no walk takes more
steps than the tree has nodes.
-/

namespace SourceOutline

/-- Bounds of a search; `none` leaves it unbounded. -/
structure SearchLimits where
  /-- The deepest level below the start that is visited; the start is level 0. -/
  maxDepth : Option Nat := none
  /-- The number of nodes after which the search ends. -/
  maxNodes : Option Nat := none
  deriving DecidableEq, Repr, Inhabited

/-- No bounds. -/
def SearchLimits.unbounded : SearchLimits := {}

namespace SyntaxTree

variable (t : SyntaxTree)

/-- Puts a position on a stack, if there is one. -/
def pushOn (stack : List Nat) : Option Nat → List Nat
  | some index => index :: stack
  | none => stack

/-- The stack after a node was taken from it: the node's first child on top, then its next
sibling. The siblings of the start are outside the walk. -/
def nextStack (start index : Nat) (stack : List Nat) : List Nat :=
  let stack := if index = start then stack else pushOn stack (t.nextSibling? index)
  pushOn stack (t.firstChild? index)

/-- The nodes of a walk from `start`, at most `fuel` steps. -/
def walk (start : Nat) : Nat → List Nat → List Nat
  | 0, _ => []
  | _ + 1, [] => []
  | fuel + 1, index :: stack => index :: walk start fuel (t.nextStack start index stack)

/-- The nodes of a walk from `start` that passes over the nodes it has visited. -/
def walkOnce (start : Nat) : Nat → List Nat → List Nat → List Nat
  | 0, _, _ => []
  | _ + 1, _, [] => []
  | fuel + 1, visited, index :: stack =>
    let stack := t.nextStack start index stack
    if visited.contains index then walkOnce start fuel visited stack
    else index :: walkOnce start fuel (index :: visited) stack

/-- The subtree of a node in document order. With `once`, no node comes twice even if the
walk reaches it twice. -/
def traverse (node : Handle) (once : Bool) : Except TraversalError (List Handle) := do
  t.check node
  let start := node.index
  let indices :=
    if once then t.walkOnce start t.nodeCount [] [start] else t.walk start t.nodeCount [start]
  .ok (indices.map t.handle)

/-- The stack of a search after the node at `index`: its children, one level deeper, on top. -/
def deeper (maxDepth : Option Nat) (index level : Nat) (stack : List (Nat × Nat)) :
    List (Nat × Nat) :=
  if maxDepth.any (· ≤ level) then stack
  else (t.childrenOf index).map (fun child => (child, level + 1)) ++ stack

/-- The accepted nodes of a search, at most `fuel` steps and at most `room` nodes. -/
def search (accept : Entry → Bool) (maxDepth : Option Nat) :
    Nat → Option Nat → List (Nat × Nat) → List Nat
  | 0, _, _ => []
  | _ + 1, _, [] => []
  | fuel + 1, room, (index, level) :: stack =>
    let stack := t.deeper maxDepth index level stack
    if t.nodes[index]?.any accept then
      if room = some 1 then [index]
      else index :: search accept maxDepth fuel (room.map (· - 1)) stack
    else search accept maxDepth fuel room stack

/-- The accepted nodes of a subtree in document order, within the limits. -/
def findNodes (root : Handle) (accept : Entry → Bool) (limits : SearchLimits) :
    Except TraversalError (List Handle) := do
  t.check root
  if limits.maxNodes = some 0 then .ok []
  else
    .ok ((t.search accept limits.maxDepth t.nodeCount limits.maxNodes [(root.index, 0)]).map
      t.handle)

/-- The nodes of one kind in a subtree, in document order. -/
def findNodesByType (root : Handle) (kind : String) : Except TraversalError (List Handle) :=
  t.findNodes root (fun entry => entry.record.kind = kind) .unbounded

/-- The handles from the root down to a node. -/
def ancestorChain (node : Handle) : Except TraversalError (List Handle) := do
  t.check node
  .ok ((t.upwards node.index).reverse.map t.handle)

/-- Whether the node at a position is of a kind. -/
def hasKind (kind : String) (index : Nat) : Bool :=
  t.nodes[index]?.any fun entry => entry.record.kind = kind

/-- The nearest proper ancestor of a kind. -/
def parentOfType (node : Handle) (kind : String) : Except TraversalError (Option Handle) := do
  t.check node
  .ok (((t.upwards node.index).tail.find? (t.hasKind kind)).map t.handle)

/-- The distance of a node from the root. -/
def nodeDepth (node : Handle) : Except TraversalError Nat := do
  let entry ← t.node node
  .ok entry.depth

/-- The kinds from the root down to a node. -/
def nodePath (node : Handle) : Except TraversalError (List String) := do
  let chain ← t.ancestorChain node
  chain.mapM fun handle => do
    let entry ← t.node handle
    .ok entry.record.kind

/-- The sibling before a node. -/
def previousSibling (node : Handle) : Except TraversalError (Option Handle) := do
  let entry ← t.node node
  .ok (entry.prevSibling.map t.handle)

/-- The sibling after a node. -/
def nextSibling (node : Handle) : Except TraversalError (Option Handle) := do
  let entry ← t.node node
  .ok (entry.nextSibling.map t.handle)

/-- The number of elements that two sequences share at their starts. -/
def sharedLength (as bs : List Handle) : Nat :=
  ((as.zip bs).takeWhile fun pair => pair.1 = pair.2).length

/-- The deepest node that is an ancestor of both nodes or one of them. -/
def commonAncestor (a b : Handle) : Except TraversalError Handle := do
  let chainA ← t.ancestorChain a
  let chainB ← t.ancestorChain b
  .ok (chainA[max (sharedLength chainA chainB) 1 - 1]?.getD t.rootHandle)

/-- The named nodes of a subtree that lie within the lines `startLine` to `endLine`. -/
def nodesInRange (root : Handle) (startLine endLine : Nat) :
    Except TraversalError (List Handle) :=
  t.findNodes root
    (fun entry =>
      entry.record.isNamed && startLine ≤ (t.startPosition entry.record).line
        && (t.endPosition entry.record).line ≤ endLine)
    .unbounded

/-- Whether the subtree of a node was parsed without errors. -/
def verifyNode (node : Handle) : Except TraversalError Bool := do
  let entry ← t.node node
  .ok (!entry.record.hasError && !entry.record.isError && !entry.record.isMissing)

/-- The missing nodes of a subtree in document order. They are flagged in the arena, so
this is a scan of the positions that the subtree takes. -/
def missingNodes (root : Handle) : Except TraversalError (List Handle) := do
  t.check root
  let stop := t.subtreeEnd root.index
  let indices := (List.range' root.index (stop - root.index)).filter fun index =>
    t.nodes[index]?.any (·.record.isMissing)
  .ok (indices.map t.handle)

end SyntaxTree

end SourceOutline
