import SourceOutline.Host
import SourceOutline.Query.Settings

/-!
# Running Queries

A run takes the matches that the engine delivers, one after the other, until the limit is
reached or the time budget is spent. `takeUpTo` is that loop and `collect` its outcome;
`resultOf` adds the notes about the run, and `execute` runs a query with an engine. Of a
match, those captured nodes are kept for which the syntax tree has a handle.

The limit is tested when a match comes, before the clock is read. The clock is read at
every match and at every report of the engine, and only if there is a budget.

## Main statements

* `takeUpTo_of_untimed`: what the loop has taken when it stops, if it is never late.
* `collect_of_untimed`: a run without a time budget takes the first matches, up to the limit.
-/

namespace SourceOutline.Query

/-- One captured node. -/
structure Capture where
  name : String
  node : Handle
  patternIndex : Nat
  /-- The number of the match that captured the node. -/
  matchId : Nat
  deriving DecidableEq, Repr, Inhabited

/-- The outcome of one run. -/
structure Result where
  captures : List Capture
  patternCount : Nat
  captureCount : Nat
  matchCount : Nat
  /-- The run was cut off, by a limit or by the clock. -/
  truncated : Bool
  /-- The subtree was parsed without errors. -/
  isValid : Bool
  /-- Notes about the run. -/
  errors : List String
  deriving DecidableEq, Repr, Inhabited

/-- The nanoseconds of a millisecond. -/
def nanosPerMilli : Nat := 1000000

/-- Whether a run with a time budget finds at a reading of its clock that the budget is
spent. The budget counts from the first reading. -/
def isLate (timeout : Option Nat) (clock : Clock) (reading : Nat) : Bool :=
  timeout.any fun budget => clock 0 + nanosPerMilli * budget ≤ clock reading

section Captures

variable (t : SyntaxTree)

/-- The captures of a match with a number: its nodes as far as the tree has a handle for
them. -/
def Match.tagged (m : Match) (matchId : Nat) : List Capture :=
  m.captures.filterMap fun capture =>
    (t.handleFor? capture.2).map fun node =>
      { name := capture.1, node, patternIndex := m.patternIndex, matchId }

/-- What was taken of the matches so far. -/
structure Collected where
  captures : List Capture := []
  matchCount : Nat := 0
  /-- A match came when the limit was reached. -/
  truncated : Bool := false
  /-- The time budget was found to be spent. -/
  timedOut : Bool := false
  deriving DecidableEq, Repr, Inhabited

/-- Takes one more match. Its number is that of the matches before it. -/
def Collected.add (taken : Collected) (m : Match) : Collected :=
  { taken with
    captures := taken.captures ++ m.tagged t taken.matchCount
    matchCount := taken.matchCount + 1 }

/-- Takes what comes, where `late` says whether a reading of the clock is past the
deadline and `reading` counts the readings. The match that comes when the limit is reached
is not taken, nor the one that comes late, and nothing after it. -/
def takeUpTo (limit : Nat) (late : Nat → Bool) : List Event → Nat → Collected → Collected
  | [], _, taken => taken
  | .progress :: events, reading, taken =>
    if late reading then { taken with timedOut := true }
    else takeUpTo limit late events (reading + 1) taken
  | .found m :: events, reading, taken =>
    if limit ≤ taken.matchCount then { taken with truncated := true }
    else if late reading then { taken with timedOut := true }
    else takeUpTo limit late events (reading + 1) (taken.add t m)

/-- The number of matches that a limit stands for; 0 counts as 1. -/
def atLeastOne (limit : Nat) : Nat :=
  max limit 1

/-- What a run with limits takes of a delivery. -/
def collect (settings : QuerySettings) (clock : Clock) (events : List Event) : Collected :=
  takeUpTo t (atLeastOne settings.matchLimit) (isLate settings.timeout clock) events 1 {}

/-- The captures of matches that are numbered from `first` on. -/
def taggedFrom (first : Nat) : List Match → List Capture
  | [] => []
  | m :: ms => m.tagged t first ++ taggedFrom (first + 1) ms

/-- **What the loop has taken when it stops**, if it is never late: the matches that there
was room for, numbered on from those before. It is cut off if there were more. -/
theorem takeUpTo_of_untimed {limit : Nat} {late : Nat → Bool}
    (hlate : ∀ reading, late reading = false) (events : List Event) (reading : Nat)
    {taken : Collected} (h : taken.matchCount ≤ limit) :
    takeUpTo t limit late events reading taken =
      { captures := taken.captures ++
          taggedFrom t taken.matchCount ((matchesOf events).take (limit - taken.matchCount))
        matchCount := min (taken.matchCount + (matchesOf events).length) limit
        truncated :=
          taken.truncated || decide (limit < taken.matchCount + (matchesOf events).length)
        timedOut := taken.timedOut } := by
  induction events generalizing reading taken with
  | nil =>
    have hnil : matchesOf [] = [] := rfl
    rw [takeUpTo, hnil, List.take_nil, taggedFrom, List.append_nil, List.length_nil,
      Nat.add_zero, Nat.min_eq_left h, decide_eq_false (Nat.not_lt.2 h), Bool.or_false]
  | cons event events ih =>
    cases event with
    | progress =>
      have hcons : matchesOf (.progress :: events) = matchesOf events := rfl
      rw [takeUpTo, hlate, if_neg Bool.false_ne_true, ih _ h, hcons]
    | found m =>
      have hcons : matchesOf (.found m :: events) = m :: matchesOf events := rfl
      rw [takeUpTo, hlate, if_neg Bool.false_ne_true, hcons, List.length_cons]
      split
      next hfull =>
        -- there is no room left, so the match shows that there were more
        obtain rfl : taken.matchCount = limit := Nat.le_antisymm h hfull
        rw [Nat.sub_self, List.take_zero, taggedFrom, List.append_nil,
          Nat.min_eq_right (Nat.le_add_right ..),
          decide_eq_true (Nat.lt_add_of_pos_right (Nat.succ_pos _)), Bool.or_true]
      next hroom =>
        have hnext : (taken.add t m).matchCount ≤ limit := Nat.lt_of_not_le hroom
        have htake : limit - taken.matchCount = limit - (taken.matchCount + 1) + 1 := by omega
        rw [ih _ hnext, htake, List.take_succ_cons, taggedFrom, ← List.append_assoc,
          Nat.add_comm (matchesOf events).length, ← Nat.add_assoc]
        rfl

/-- What is taken of matches if only the limit can stop the run: the first ones. -/
def firstMatches (limit : Nat) (ms : List Match) : Collected where
  captures := taggedFrom t 0 (ms.take (atLeastOne limit))
  matchCount := min ms.length (atLeastOne limit)
  truncated := decide (atLeastOne limit < ms.length)

/-- Without a time budget, **a run takes the first matches**, up to the limit. -/
theorem collect_of_untimed {settings : QuerySettings} (h : settings.timeout = none)
    (clock : Clock) (delivery : Delivery) :
    collect t settings clock delivery.events =
      firstMatches t settings.matchLimit delivery.found := by
  have hlate (reading : Nat) : isLate settings.timeout clock reading = false := by rw [h]; rfl
  rw [collect, takeUpTo_of_untimed t hlate _ _ (Nat.zero_le _), Nat.zero_add]
  rfl

end Captures

/-- The note on a subtree with errors. -/
def partialNote : String :=
  "subtree contains syntax errors; matches may be partial"

/-- The note on a run that reached its limit. -/
def truncatedNote (matchCount : Nat) : String :=
  "truncated after " ++ toString matchCount ++ " matches"

/-- The note on a run without time. -/
def timeoutNote (matchCount : Nat) : String :=
  "time budget exceeded after " ++ toString matchCount ++ " matches"

/-- The outcome of a run from its delivery. -/
def resultOf (t : SyntaxTree) (patternCount : Nat) (settings : QuerySettings) (clock : Clock)
    (hasError : Bool) (delivery : Delivery) : Result :=
  let collected := collect t settings clock delivery.events
  let truncated := collected.truncated || collected.timedOut || delivery.exceeded
  let note :=
    if collected.timedOut then timeoutNote collected.matchCount
    else truncatedNote collected.matchCount
  { captures := collected.captures
    patternCount
    captureCount := collected.captures.length
    matchCount := collected.matchCount
    truncated
    isValid := !hasError
    errors := (if hasError then [partialNote] else []) ++ (if truncated then [note] else []) }

/-- Runs a query in a subtree. The limit on matches is also the room for partial ones. -/
def execute {Q : Type} (engine : Engine Q) (clock : Clock) (t : SyntaxTree) (query : Q)
    (root : Handle) (settings : QuerySettings) : Except TraversalError Result := do
  let node ← t.engineNode root
  let delivery := engine.run t.toArena query root.index settings.maxStartDepth
    (atLeastOne settings.matchLimit)
  .ok (resultOf t (engine.patternCount query) settings clock node.record.hasError delivery)

end SourceOutline.Query
