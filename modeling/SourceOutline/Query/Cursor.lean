import SourceOutline.Query.Matching

/-!
# Bounded Runs

A run visits the nodes of a subtree in document order and keeps a board of partial
matches. A partial match that has captured something holds a list of captures, and there
are only `capacity` such lists. When one more is needed, it is taken from the partial
match with the earliest first capture, which is given up; if there is none to take, the
partial match that asked gives up what it wanted. Such a run is *exceeded*.
-/

namespace SourceOutline.Query

/-- A match in the making. -/
structure PartialMatch where
  /-- The position of the rule in the query. -/
  patternIndex : Nat
  /-- The depth of the root of the match. -/
  startDepth : Nat
  captures : List (String × Nat)
  /-- The patterns that are left, in order, each with its depth below the root of the match. -/
  pending : List (Nat × Pattern)
  /-- Its root has not been matched yet. -/
  isNew : Bool
  /-- It was given up. -/
  isDead : Bool
  deriving Inhabited

namespace PartialMatch

/-- Whether a partial match holds a list of captures. -/
def isHolding (p : PartialMatch) : Bool :=
  !p.isDead && !p.captures.isEmpty

/-- Whether nothing is left to match. -/
def isComplete (p : PartialMatch) : Bool :=
  p.pending.isEmpty

/-- The partial match, given up. -/
def kill (p : PartialMatch) : PartialMatch :=
  { p with isDead := true }

/-- Whether two partial matches are of the same rule and depth. -/
def isPeerOf (p q : PartialMatch) : Bool :=
  p.patternIndex = q.patternIndex && p.startDepth = q.startDepth

/-- Whether two partial matches are the same way to match. -/
def sameAs (p q : PartialMatch) : Bool :=
  p.isPeerOf q && p.captures = q.captures && p.pending == q.pending

end PartialMatch

mutual

/-- Whether a pattern captures anything. -/
def Pattern.hasCaptures : Pattern → Bool
  | .node _ _ _ captures children => !captures.isEmpty || anyHasCaptures children
  | .choice branches => anyHasCaptures branches

/-- Whether one of some patterns captures anything. -/
def anyHasCaptures : List Pattern → Bool
  | [] => false
  | p :: ps => p.hasCaptures || anyHasCaptures ps

end

mutual

/-- The node patterns that a pattern has to choose from. -/
def Pattern.branches : Pattern → List Pattern
  | .node test field absent captures children => [.node test field absent captures children]
  | .choice branches => branchesOfEach branches

/-- The node patterns that some patterns have to choose from. -/
def branchesOfEach : List Pattern → List Pattern
  | [] => []
  | p :: ps => p.branches ++ branchesOfEach ps

end

variable (arena : Arena)

/-- The offset at which the first capture starts, and the rule. Complete matches are not
to be taken from. -/
def ageOf (p : PartialMatch) : Option (Nat × Nat) :=
  if p.isDead || p.isComplete then none
  else p.captures.head?.map fun (_, index) =>
    ((arena.nodes[index]?.map (·.record.start)).getD 0, p.patternIndex)

/-- Whether an age is greater than another. -/
def isOlder (a b : Nat × Nat) : Bool :=
  a.1 < b.1 || (a.1 = b.1 && a.2 < b.2)

/-- The place of the first partial match with the greatest age, counted from `place` on. -/
def oldest? : Nat → Option (Nat × (Nat × Nat)) → List PartialMatch → Option Nat
  | _, best, [] => best.map (·.1)
  | place, best, p :: ps =>
    match ageOf arena p, best with
    | none, best => oldest? (place + 1) best ps
    | some age, none => oldest? (place + 1) (some (place, age)) ps
    | some age, some (other, old) =>
      oldest? (place + 1) (some (if isOlder age old then (place, age) else (other, old))) ps

/-- The partial matches of a run while a node is visited: those before the current one,
the last of them first, those after it, and whether the run was exceeded. -/
structure Board where
  before : List PartialMatch
  after : List PartialMatch
  exceeded : Bool
  deriving Inhabited

/-- The board with room for one more list of captures, and whether there is any. The
partial matches `own` are not taken from. -/
def makeRoom (capacity : Nat) (own : List PartialMatch) (board : Board) : Bool × Board :=
  let before := board.before.reverse
  let all := before ++ own ++ board.after
  if all.countP PartialMatch.isHolding < capacity then (true, board)
  else
    let board := { board with exceeded := true }
    match oldest? arena 0 none all with
    | none => (false, board)
    | some place =>
      if place < before.length then
        (true, { board with before := (before.modify place PartialMatch.kill).reverse })
      else if place < before.length + own.length then (false, board)
      else
        let place := place - (before.length + own.length)
        (true, { board with after := board.after.modify place PartialMatch.kill })

/-- The board after a copy of the current partial match was wanted, and whether there is
one. A copy needs a list of captures of its own if the partial match holds one. -/
def makeCopy (capacity : Nat) (p : PartialMatch) (board : Board) : Bool × Board :=
  if p.isHolding then makeRoom arena capacity [p] board else (true, board)

/-- Turns to the next branches of the pattern at `depth` that a partial match is at, as
far as there is room for copies: the partial match for the last of them, and the board
with the others. -/
def branchOut (capacity : Nat) (depth : Nat) (later : List (Nat × Pattern)) :
    List Pattern → PartialMatch → Board → PartialMatch × Board
  | [], p, board => (p, board)
  | branch :: branches, p, board =>
    let (isCopied, board) := makeCopy arena capacity p board
    if isCopied then
      branchOut capacity depth later branches { p with pending := (depth, branch) :: later }
        { board with before := p :: board.before }
    else (p, board)

/-- The siblings after a node. -/
def laterSiblings (index : Nat) : List Nat :=
  arena.siblingsFrom arena.nodeCount (arena.nextSibling? index)

/-- Whether a later sibling could match a pattern in place of a node. -/
def canMatchLater (p : PartialMatch) (field : Option String) (index : Nat) : Bool :=
  !p.isNew && (arena.nextSibling? index).isSome
    && (field.isNone || fieldAt arena index ≠ field
      || (laterSiblings arena index).any fun sibling => fieldAt arena sibling = field)

/-- The copy of a partial match that passes over a node, if one is wanted and there is
room for it. -/
def passOver (capacity : Nat) (isWanted : Bool) (p : PartialMatch) (board : Board) :
    List PartialMatch × Board :=
  if isWanted then
    let (isCopied, board) := makeCopy arena capacity p board
    (if isCopied then [p] else [], board)
  else ([], board)

/-- The board with room for the captures of a pattern at a node, and whether there is any. -/
def roomFor (capacity : Nat) (captures : List String) (p : PartialMatch)
    (skipping : List PartialMatch) (board : Board) : Bool × Board :=
  if captures.isEmpty || p.isHolding then (true, board)
  else makeRoom arena capacity skipping board

/-- A partial match after a node was matched by a pattern at `level`. -/
def PartialMatch.matchedAt (p : PartialMatch) (index level : Nat) (captures : List String)
    (children : List Pattern) (later : List (Nat × Pattern)) : PartialMatch :=
  { p with
    captures := p.captures ++ captures.map (·, index)
    pending := children.map (level + 1, ·) ++ later
    isNew := false }

/-- What becomes of a partial match that has matched a node, with the copy of it that
passes over the node. -/
def proceed (capacity : Nat) (p : PartialMatch) (skipping : List PartialMatch)
    (board : Board) :
    List PartialMatch × Board :=
  match p.pending with
  | (next, pattern) :: rest =>
    match pattern.branches with
    | branch :: branches =>
      let board := { board with after := skipping ++ board.after }
      let (last, board) :=
        branchOut arena capacity next rest branches
          { p with pending := (next, branch) :: rest } board
      (last :: board.after.take skipping.length,
        { board with after := board.after.drop skipping.length })
    | [] => (skipping, board)
  | [] => (p :: skipping, board)

/-- What becomes of a partial match at a node at depth `depth`, with the board afterwards. -/
def visit (capacity : Nat) (index depth : Nat) (p : PartialMatch) (board : Board) :
    List PartialMatch × Board :=
  match p.pending with
  | (level, .node test field absent captures children) :: later =>
    if p.isDead then ([], board)
    else if p.startDepth + level ≠ depth then ([p], board)
    else
      let canMatchLater := canMatchLater arena p field index
      if !admits arena test field absent index then (if canMatchLater then [p] else [], board)
      else
        let isOpen := canMatchLater
          && ((Pattern.node test field absent captures children).hasCaptures ||
            !children.isEmpty)
        let (skipping, board) := passOver arena capacity isOpen p board
        let (hasRoom, board) := roomFor arena capacity captures p skipping board
        if !hasRoom then (skipping, board)
        else proceed arena capacity (p.matchedAt index level captures children later)
          skipping board
  | _ => ([p], board)

/-- Visits a node with each partial match in turn, at most `fuel` of them. -/
def visitAll (capacity : Nat) (index depth : Nat) : Nat → Board → Board
  | 0, board => board
  | fuel + 1, board =>
    match board.after with
    | [] => board
    | p :: rest =>
      let (made, board) := visit arena capacity index depth p { board with after := rest }
      visitAll capacity index depth fuel { board with before := made.reverse ++ board.before }

/-- The partial matches that may start at a node: one for each rule and branch. -/
def startsAt (query : Query) (index depth : Nat) : List PartialMatch :=
  query.rules.zipIdx.flatMap fun (rule, patternIndex) =>
    (rule.pattern.branches.filter fun
      | .node test field _ _ _ => admits arena test field [] index
      | .choice _ => false).map fun branch =>
        { patternIndex, startDepth := depth, captures := [], pending := [(0, branch)],
          isNew := true, isDead := false }

/-- The first of partial matches that are the same, where peers stand together. Those in
`kept` come before, the last of them first. -/
def distinct : List PartialMatch → List PartialMatch → List PartialMatch
  | kept, [] => kept.reverse
  | kept, p :: ps =>
    if (kept.takeWhile (·.isPeerOf p)).any (·.sameAs p) then distinct kept ps
    else distinct (p :: kept) ps

/-- A run that stands before a node. -/
structure Cursor where
  partials : List PartialMatch := []
  exceeded : Bool := false
  /-- The matches that are complete, in order. -/
  delivered : List Hit := []
  deriving Inhabited

/-- Whether a partial match can still be matched at a node at depth `depth` or later. -/
def PartialMatch.reaches (depth : Nat) (p : PartialMatch) : Bool :=
  match p.pending with
  | (level, _) :: _ => p.startDepth + level ≤ depth
  | [] => true

/-- The match of a complete one, if the conditions of its rule hold. -/
def matchOf? (query : Query) (index : Nat) (p : PartialMatch) : Option Hit := do
  let rule ← query.rules[p.patternIndex]?
  let placement : Placement := { captures := p.captures, last := index }
  if rule.conditions.all (·.holds arena placement) then
    some { patternIndex := p.patternIndex, captures := p.captures }
  else none

/-- Visits a node. Matches that are complete leave the board. -/
def Cursor.enter (query : Query) (capacity : Nat) (mayStart : Nat → Bool) (index : Nat)
    (cursor : Cursor) : Cursor :=
  let depth := (arena.nodes[index]?.map (·.depth)).getD 0
  let kept := cursor.partials.filter (·.reaches depth)
  let partials := kept ++ (if mayStart depth then startsAt arena query index depth else [])
  let board := visitAll arena capacity index depth partials.length
    { before := [], after := partials, exceeded := cursor.exceeded }
  let live := distinct [] (board.before.reverse.filter (!·.isDead))
  { partials := live.filter (!·.isComplete)
    exceeded := board.exceeded
    delivered :=
      cursor.delivered ++ (live.filter (·.isComplete)).filterMap (matchOf? arena query index) }

/-- What a run with a number of lists of captures delivers. -/
def runBounded (query : Query) (root : Nat) (maxStartDepth : Option Nat) (capacity : Nat) :
    Cursor :=
  let rootDepth := (arena.nodes[root]?.map (·.depth)).getD 0
  let mayStart (depth : Nat) : Bool := maxStartDepth.all fun most => depth - rootDepth ≤ most
  (List.range' root (arena.subtreeEnd root - root)).foldl
    (fun cursor index => cursor.enter arena query capacity mayStart index) {}

/-- The matches that a bounded run finds. -/
structure Hits where
  /-- The matches, in the order in which they are complete. -/
  found : List Hit
  /-- The run gave up partial matches for want of lists of captures. -/
  exceeded : Bool
  deriving DecidableEq, Repr, Inhabited

/-- The matches of a run with a number of lists of captures: all matches of the query if
the lists suffice. -/
def deliverWithin (query : Query) (root : Nat) (maxStartDepth : Option Nat) (capacity : Nat) :
    Hits :=
  let cursor := runBounded arena query root maxStartDepth capacity
  if cursor.exceeded then { found := cursor.delivered, exceeded := true }
  else { found := deliver arena query root maxStartDepth, exceeded := false }

end SourceOutline.Query
