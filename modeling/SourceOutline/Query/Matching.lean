import SourceOutline.Query.Basic
import SourceOutline.Sorting
import SourceOutline.Tree.SyntaxTree

/-!
# Matching Queries

The matches of a query in a subtree. Child patterns are placed at children in order, at
strictly increasing positions, with others in between. Every placement is a match of its
own, except that placements that capture the same nodes count once, as the one that is
complete first.

Matches come in the order in which they are complete: by the node matched last, then by
the depth of the root of the match, by the rule, and by the captured nodes.
-/

namespace SourceOutline.Query

/-- Whether a node passes a test. -/
def NodeTest.passes (record : NodeRecord) : NodeTest → Bool
  | .kind name => record.isNamed && record.kind = name
  | .anonymous text => !record.isNamed && record.kind = text
  | .anyNamed => record.isNamed && !record.isError
  | .any => !record.isError
  | .error => record.isError
  | .missing => record.isMissing

/-- One way to match a pattern: the captured positions in the order of the pattern, and
the position matched last. -/
structure Placement where
  captures : List (String × Nat)
  last : Nat
  deriving DecidableEq, Repr, Inhabited

/-- Each element of a list with the elements after it. -/
def withLater {α : Type} : List α → List (α × List α)
  | [] => []
  | a :: as => (a, as) :: withLater as

variable (arena : Arena)

/-- The field under which the node at a position is held. -/
def fieldAt (index : Nat) : Option String :=
  arena.nodes[index]?.bind (·.record.field)

/-- Whether the node at a position passes what a pattern asks of it alone. -/
def admits (test : NodeTest) (field : Option String) (absent : List String) (index : Nat) :
    Bool :=
  (arena.nodes[index]?.any fun entry => test.passes entry.record)
    && (field.isNone || fieldAt arena index = field)
    && absent.all fun name => (arena.childrenOf index).all fun child => fieldAt arena child ≠
      some name

mutual

/-- The ways to match a pattern at a position. -/
def Pattern.placements : Pattern → Nat → List Placement
  | .node test field absent captures children, index =>
    if admits arena test field absent index then
      (childPlacements children index (arena.childrenOf index)).map fun placement =>
        { placement with captures := captures.map (·, index) ++ placement.captures }
    else []
  | .choice branches, index => branchPlacements branches index

/-- The ways to match one of some patterns at a position. -/
def branchPlacements : List Pattern → Nat → List Placement
  | [], _ => []
  | p :: ps, index => p.placements index ++ branchPlacements ps index

/-- The ways to match patterns at increasing positions, where `last` was matched before
them. -/
def childPlacements : List Pattern → Nat → List Nat → List Placement
  | [], last, _ => [{ captures := [], last }]
  | p :: ps, _, positions =>
    (withLater positions).flatMap fun (position, later) =>
      (p.placements position).flatMap fun first =>
        (childPlacements ps first.last later).map fun rest =>
          { rest with captures := first.captures ++ rest.captures }

end

/-- Adds a placement to those that are kept, where of two that capture the same only the
one that is complete first stays. -/
def keepFirst (kept : List Placement) (placement : Placement) : List Placement :=
  match kept.find? fun other => other.captures = placement.captures with
  | none => kept ++ [placement]
  | some other =>
    if placement.last < other.last then
      kept.map fun p => if p.captures = placement.captures then placement else p
    else kept

/-- Of placements that capture the same, the one that is complete first. -/
def firstComplete (placements : List Placement) : List Placement :=
  placements.foldl keepFirst []

/-- The captured positions under a name. -/
def Placement.positions (placement : Placement) (name : String) : List Nat :=
  (placement.captures.filter (·.1 = name)).map (·.2)

/-- The bytes of the node at a position. -/
def bytesAt (index : Nat) : Bytes :=
  (arena.nodes[index]?.map fun entry => arena.bytesOf entry.record).getD []

/-- Whether the verdicts on the nodes of a capture satisfy a condition: with `every`, all
of them have to agree with `positive`. A condition on some node of a capture is no
restriction. -/
def satisfied (positive every : Bool) (verdicts : List Bool) : Bool :=
  !every || verdicts.all (· == positive)

/-- Whether a placement satisfies a condition. -/
def Condition.holds (placement : Placement) : Condition → Bool
  | .equalsText capture text positive every =>
    satisfied positive every
      ((placement.positions capture).map fun i => bytesAt arena i == Text.encode text)
  | .equalsCapture left right positive every =>
    let lefts := placement.positions left
    let rights := placement.positions right
    let verdicts := (lefts.zip rights).map fun (i, j) => bytesAt arena i == bytesAt arena j
    if every then verdicts.all (· == positive) && lefts.length = rights.length
    else verdicts.any (· == positive) || lefts.length = rights.length
  | .hasMatch capture regex positive every =>
    satisfied positive every
      ((placement.positions capture).map fun i => regex.search (Text.parts (bytesAt arena i)))
  | .isOneOf capture texts positive =>
    satisfied positive true
      ((placement.positions capture).map fun i => texts.any fun text => bytesAt arena i ==
        Text.encode text)

/-- A match of a rule, with the captured nodes by their positions. -/
structure Hit where
  patternIndex : Nat
  /-- The captured positions in the order of the pattern. -/
  captures : List (String × Nat)
  deriving DecidableEq, Repr, Inhabited

/-- A placement of a rule, with what its place in the order depends on. -/
structure Candidate where
  placement : Placement
  rootDepth : Nat
  patternIndex : Nat
  deriving DecidableEq, Repr, Inhabited

/-- Whether one list of numbers comes before another or equals it, by the first difference. -/
def lexLe : List Nat → List Nat → Bool
  | [], _ => true
  | _ :: _, [] => false
  | a :: as, b :: bs => a < b || (a = b && lexLe as bs)

/-- What the order of candidates compares. -/
def Candidate.key (candidate : Candidate) : List Nat :=
  candidate.placement.last :: candidate.rootDepth :: candidate.patternIndex
    :: candidate.placement.captures.map (·.2)

/-- The candidates of a rule whose match starts at a position. -/
def candidatesAt (patternIndex : Nat) (rule : Rule) (index : Nat) : List Candidate :=
  ((firstComplete (rule.pattern.placements arena index)).filter fun placement =>
    rule.conditions.all (·.holds arena placement)).map fun placement =>
      { placement, rootDepth := (arena.nodes[index]?.map (·.depth)).getD 0, patternIndex }

/-- The positions of a subtree at most `maxStartDepth` levels below its root. -/
def startPositions (root : Nat) (maxStartDepth : Option Nat) : List Nat :=
  let depthOf (index : Nat) : Nat := (arena.nodes[index]?.map (·.depth)).getD 0
  (List.range' root (arena.subtreeEnd root - root)).filter fun index =>
    maxStartDepth.all fun most => depthOf index - depthOf root ≤ most

/-- The matches of a query that start in a subtree, in the order in which they are complete. -/
def deliver (query : Query) (root : Nat) (maxStartDepth : Option Nat) : List Hit :=
  let starts := startPositions arena root maxStartDepth
  let candidates :=
    query.rules.zipIdx.flatMap fun (rule, i) => starts.flatMap (candidatesAt arena i rule)
  (sort (fun a b => lexLe a.key b.key) candidates).map fun candidate =>
    { patternIndex := candidate.patternIndex, captures := candidate.placement.captures }

end SourceOutline.Query
