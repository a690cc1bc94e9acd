import SourceOutline.Host
import SourceOutline.Query.Compilation
import SourceOutline.Query.Cursor

/-!
# An Engine for Queries

`Query.engine` compiles and runs queries by the definitions of this library: texts are
read by `Query.compile`, and `deliverWithin` finds the matches. The parser is left open,
and so are the words that the grammars know.
-/

namespace SourceOutline

/-- The engine's node at a position. -/
def Arena.nodeAt? (arena : Arena) (index : Nat) : Option Tree :=
  arena.root.descend? (arena.pathTo index)

namespace Query

/-- A match with the engine's nodes at the captured positions. -/
def Hit.toMatch (arena : Arena) (hit : Hit) : Match where
  patternIndex := hit.patternIndex
  captures := hit.captures.filterMap fun capture =>
    (arena.nodeAt? capture.2).map fun tree => (capture.1, tree)

/-- The number of nodes after which a run reports that it is at work. -/
def reportInterval : Nat := 100

/-- A report, if a subtree is large. -/
def reportsOn (arena : Arena) (root : Nat) : List Event :=
  if reportInterval ≤ arena.subtreeEnd root - root then [.progress] else []

/-- Runs a query. The report on a large subtree comes before the matches. -/
def run : Runner Query := fun arena query root maxStartDepth capacity =>
  let hits := deliverWithin arena query root maxStartDepth capacity
  { events := reportsOn arena root ++ hits.found.map fun hit => .found (hit.toMatch arena)
    exceeded := hits.exceeded }

/-- **The matches of a run** are those that the cursor finds. -/
theorem found_run (arena : Arena) (query : Query) (root : Nat) (maxStartDepth : Option Nat)
    (capacity : Nat) :
    (run arena query root maxStartDepth capacity).found =
      (deliverWithin arena query root maxStartDepth capacity).found.map
        (Hit.toMatch arena) := by
  have hreports : (reportsOn arena root).filterMap Event.match? = [] := by
    unfold reportsOn
    split <;> rfl
  rw [Delivery.found, matchesOf, run, List.filterMap_append, hreports, List.nil_append,
    List.filterMap_map]
  exact congrFun List.filterMap_eq_map _

/-- Compiles a text for a grammar, unless it is one that parsers refuse. -/
def compileFor (vocabulary : Vocabulary) (grammar : Grammar) (text : String) :
    Except Issue Query :=
  if grammar.isCompatible then compile vocabulary text
  else .error { row := 0, column := 0, detail := grammar.refusal }

/-- The engine with a parser, for grammars that know the given words. -/
def engine (parse : Language → Grammar → Bytes → Option Tree)
    (vocabulary : Language → Grammar → Vocabulary) : Engine Query where
  parse := parse
  compile := fun language grammar => compileFor (vocabulary language grammar) grammar
  patternCount := patternCount
  run := run

end Query

end SourceOutline
