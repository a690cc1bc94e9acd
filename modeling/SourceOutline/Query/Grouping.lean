import SourceOutline.Query.Execution

/-!
# Grouping Captures

The captures of a run are folded into one group for each definition. The role of a capture
is the last part of its name: `def`, `name` or `module`, `params`, `body`. Captures whose
name starts with an underscore are helpers and belong to no group. The definition of a
match is its `def` capture or else its first one. Matches of one definition are merged,
where the earlier match wins.
-/

namespace SourceOutline.Query

/-- The captures of one definition by role. -/
structure Group where
  definition : Handle
  name : Option Handle
  params : Option Handle
  body : Option Handle
  patternIndex : Nat
  deriving DecidableEq, Repr, Inhabited

/-- Whether a name was captured. -/
def Group.isNamed (group : Group) : Bool :=
  group.name.isSome

/-- The part of a text after its last dot, or all of it. -/
def lastPart (cs : List Char) : List Char :=
  (cs.reverse.takeWhile (· ≠ '.')).reverse

/-- The role of a capture. -/
def Capture.role (capture : Capture) : String :=
  String.ofList (lastPart capture.name.toList)

/-- Whether a capture is no helper. -/
def Capture.isLive (capture : Capture) : Bool :=
  capture.name.toList.head? ≠ some '_'

/-- The node of the first capture with one of the roles. -/
def nodeOfRole (roles : List String) (members : List Capture) : Option Handle :=
  (members.find? fun capture => roles.contains capture.role).map (·.node)

/-- The group of the live captures of one match. -/
def Group.ofMembers? : List Capture → Option Group
  | [] => none
  | first :: more =>
    let members := first :: more
    some
      { definition := (nodeOfRole ["def"] members).getD first.node
        name := nodeOfRole ["name", "module"] members
        params := nodeOfRole ["params"] members
        body := nodeOfRole ["body"] members
        patternIndex := first.patternIndex }

/-- A group with the roles that it lacks taken from a later one. -/
def Group.absorb (group later : Group) : Group :=
  { group with
    name := group.name.or later.name
    params := group.params.or later.params
    body := group.body.or later.body }

/-- Adds a group to groups that are ordered by definition. -/
def addGroup (group : Group) : List Group → List Group
  | [] => [group]
  | other :: groups =>
    if other.definition = group.definition then other.absorb group :: groups
    else if group.definition.le other.definition then group :: other :: groups
    else other :: addGroup group groups

/-- Adds a number to numbers that are strictly increasing. -/
def addId (id : Nat) : List Nat → List Nat
  | [] => [id]
  | other :: ids =>
    if other = id then other :: ids
    else if id < other then id :: other :: ids
    else other :: addId id ids

/-- The numbers of the matches that have a live capture, in increasing order. -/
def liveMatchIds (captures : List Capture) : List Nat :=
  ((captures.filter Capture.isLive).map (·.matchId)).foldl (fun ids id => addId id ids) []

/-- The live captures of a match. -/
def membersOf (captures : List Capture) (matchId : Nat) : List Capture :=
  captures.filter fun capture => capture.isLive && capture.matchId = matchId

/-- One group for each definition, ordered by definition. -/
def groupCaptures (captures : List Capture) : List Group :=
  let groups :=
    (liveMatchIds captures).filterMap fun id => Group.ofMembers? (membersOf captures id)
  groups.foldl (fun acc group => addGroup group acc) []

end SourceOutline.Query
