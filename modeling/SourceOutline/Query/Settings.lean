import SourceOutline.Data.Decoding

/-!
# Query Settings

The limits of one run of a query, and their form as data.
-/

namespace SourceOutline

/-- The limits of one run of a query. -/
structure QuerySettings where
  /-- The number of matches after which a run is cut off; 0 counts as 1. -/
  matchLimit : Nat := 1000
  /-- The time budget in milliseconds. -/
  timeout : Option Nat := none
  /-- The deepest level below the root at which a match may start. -/
  maxStartDepth : Option Nat := none
  deriving DecidableEq, Repr, Inhabited

namespace QuerySettings

/-- How settings are written: every field may be absent. -/
def format : Data.RecordFormat QuerySettings where
  name := "QuerySettings"
  start := {}
  fields :=
    [("match_limit", fun d s => d.decodeWord32.map fun n => { s with matchLimit := n }),
     ("timeout_ms", fun d s => (d.decodeOption Data.decodeWord64).map fun n =>
       { s with timeout := n }),
     ("max_start_depth",
       fun d s => (d.decodeOption Data.decodeWord32).map fun n =>
         { s with maxStartDepth := n })]

/-- Settings from data. -/
def decode (surplus : Data.Surplus) (d : Data) : Except DecodeError QuerySettings :=
  d.decodeRecord surplus format

/-- Settings as data. -/
def toData (s : QuerySettings) : Data :=
  .map
    [("match_limit", .nat s.matchLimit), ("timeout_ms", .optNat s.timeout),
     ("max_start_depth", .optNat s.maxStartDepth)]

end QuerySettings

end SourceOutline
