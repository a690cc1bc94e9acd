import SourceOutline.Category
import SourceOutline.Files
import SourceOutline.Query.Delivery
import SourceOutline.Query.Issue

/-!
# The Host

What lies outside of this library: the files, the grammar engine and the clock. Nothing is
known of them. In particular an `Engine` may find what it likes, and what is proved of the
library holds for every engine; `Query.engine` is one that can be run.
-/

namespace SourceOutline

/-- A grammar engine, where `Q` is the type of its compiled queries. -/
structure Engine (Q : Type) where
  /-- The tree of a source in a language by the grammar bound to it, unless the engine
  gives up. -/
  parse : Language → Grammar → Bytes → Option Tree
  /-- The query that a text writes for the grammar bound to a language. -/
  compile : Language → Grammar → String → Except Query.Issue Q
  /-- The number of patterns of a query. -/
  patternCount : Q → Nat
  /-- What the engine does when a query runs. -/
  run : Query.Runner Q
  deriving Inhabited

/-- The files, the grammar engine and the clock during a call. -/
structure Host (Q : Type) where
  files : FileTree
  engine : Engine Q
  /-- The clock, as it is read while the query of a category runs. -/
  clocks : Category → Query.Clock
  deriving Inhabited

variable {Q : Type}

/-- The host at other times. -/
def Host.withClocks (host : Host Q) (clocks : Category → Query.Clock) : Host Q :=
  { host with clocks }

end SourceOutline
