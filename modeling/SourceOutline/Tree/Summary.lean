import SourceOutline.Data.Basic
import SourceOutline.Tree.SyntaxTree

/-!
# Node Summaries

A `Summary` is what there is to say about one node. `SummaryCache` remembers summaries of
the nodes of one tree; it starts afresh when it is asked about another tree, and a
question that fails leaves it alone.

## Main statements

* `SummaryCache.summarize_fst`: if every remembered summary is what the tree says, so is
  every answer.
-/

namespace SourceOutline

/-- The two ends of a byte range as data. -/
def byteRangeData (start stop : Nat) : Data :=
  .map [("start", .nat start), ("end", .nat stop)]

/-- A position as data. -/
def Position.toData (position : Position) : Data :=
  .map [("line", .nat position.line), ("column", .nat position.column)]

/-- What there is to say about one node. -/
structure Summary where
  kind : String
  text : String
  start : Position
  stop : Position
  startByte : Nat
  stopByte : Nat
  depth : Nat
  childCount : Nat
  namedChildCount : Nat
  isNamed : Bool
  isError : Bool
  isMissing : Bool
  hasError : Bool
  deriving DecidableEq, Repr, Inhabited

/-- A summary as data. -/
def Summary.toData (s : Summary) : Data :=
  .map
    [("kind", .str s.kind), ("text", .str s.text), ("start", s.start.toData),
      ("end", s.stop.toData),
     ("byte_range", byteRangeData s.startByte s.stopByte), ("depth", .nat s.depth),
     ("child_count", .nat s.childCount), ("named_child_count", .nat s.namedChildCount),
     ("is_named", .bool s.isNamed), ("is_error", .bool s.isError),
     ("is_missing", .bool s.isMissing), ("has_error", .bool s.hasError)]

/-- The summary of a node. -/
def SyntaxTree.summary (t : SyntaxTree) (entry : Entry) : Summary where
  kind := entry.record.kind
  text := t.textOf entry.record
  start := t.startPosition entry.record
  stop := t.endPosition entry.record
  startByte := entry.record.start
  stopByte := entry.record.stop
  depth := entry.depth
  childCount := entry.childCount
  namedChildCount := entry.namedChildCount
  isNamed := entry.record.isNamed
  isError := entry.record.isError
  isMissing := entry.record.isMissing
  hasError := entry.record.hasError

/-- Remembered summaries of the nodes of one tree. -/
structure SummaryCache where
  tree : Option Nat
  entries : List (Handle × Summary)
  deriving Repr, Inhabited

namespace SummaryCache

/-- The cache that remembers nothing. -/
def empty : SummaryCache where
  tree := none
  entries := []

/-- The number of remembered summaries. -/
def size (cache : SummaryCache) : Nat :=
  cache.entries.length

/-- The cache to use with the tree numbered `id`. -/
def focus (cache : SummaryCache) (id : Nat) : SummaryCache :=
  if cache.tree = some id then cache else { tree := some id, entries := [] }

/-- The summary of a node, remembered or fresh, and the cache afterwards. -/
def summarize (cache : SummaryCache) (t : SyntaxTree) (node : Handle) :
    Except TraversalError Summary × SummaryCache :=
  match t.node node with
  | .error e => (.error e, cache)
  | .ok entry =>
    let cache := cache.focus t.id
    match cache.entries.lookup node with
    | some summary => (.ok summary, cache)
    | none =>
      let summary := t.summary entry
      (.ok summary, { cache with entries := (node, summary) :: cache.entries })

/-- If every remembered summary is what the tree says, so is every answer. -/
theorem summarize_fst (cache : SummaryCache) (t : SyntaxTree) (node : Handle)
    (h : ∀ s, (cache.focus t.id).entries.lookup node = some s →
      (t.node node).map t.summary = .ok s) :
    (cache.summarize t node).1 = (t.node node).map t.summary := by
  unfold summarize
  cases hn : t.node node with
  | error e => rfl
  | ok entry =>
    cases hl : (cache.focus t.id).entries.lookup node with
    | some s => simpa [hn, hl] using (h s hl).symm
    | none => simp [hl, Except.map]

end SummaryCache

end SourceOutline
