import SourceOutline.Tree.SyntaxTree

/-!
# Deliveries

What a run of a query gets from outside: the grammar engine finds the matches, and a clock
is read while it does. A `Delivery` lists all that the engine does in a run that nobody
stops, as a sequence of `Event`s. Captured nodes are nodes of the engine; which handle
belongs to one, if any, is for the syntax tree to say.
-/

namespace SourceOutline.Query

/-- A match of a query: the place of the pattern that matched, and the nodes that it
captured, in order, each with the name of the capture. -/
structure Match where
  patternIndex : Nat
  captures : List (String × Tree)
  deriving Inhabited

/-- What the engine does in a run. -/
inductive Event where
  /-- It is still at work, and reports so. -/
  | progress
  /-- It has found the next match. -/
  | found (m : Match)
  deriving Inhabited

/-- The match that an event brings. -/
def Event.match? : Event → Option Match
  | .progress => none
  | .found m => some m

/-- The matches that events bring, in order. -/
def matchesOf (events : List Event) : List Match :=
  events.filterMap Event.match?

/-- All that the engine does in a run that is not stopped. -/
structure Delivery where
  events : List Event
  /-- Partial matches were given up for want of room. -/
  exceeded : Bool
  deriving Inhabited

/-- The matches of a delivery, in order. -/
def Delivery.found (delivery : Delivery) : List Match :=
  matchesOf delivery.events

/-- What finds the matches of a query of type `Q`: given an arena, the query, the position
of the root, the deepest level below it at which a match may start, and the room for
partial matches. -/
abbrev Runner (Q : Type) := Arena → Q → Nat → Option Nat → Nat → Delivery

/-- The readings of a clock during a run, in nanoseconds: `clock 0` is the one at the
start, and the others follow in the order in which they are made. -/
abbrev Clock := Nat → Nat

end SourceOutline.Query
