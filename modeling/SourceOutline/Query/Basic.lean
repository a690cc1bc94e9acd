import SourceOutline.Regex.Search

/-!
# Queries

A query is a list of rules. A rule is a tree pattern with conditions on the text of what
it captures. The words of a query are names of the grammar; `Vocabulary` says which ones
there are.
-/

namespace SourceOutline

/-- The words that a grammar knows. -/
structure Vocabulary where
  /-- Kinds of named nodes. -/
  named : List String := []
  /-- Kinds of anonymous nodes. -/
  anonymous : List String := []
  /-- Names of fields. -/
  fields : List String := []
  deriving Repr, Inhabited

namespace Vocabulary

/-- The words of two vocabularies together. -/
def union (a b : Vocabulary) : Vocabulary where
  named := a.named ++ b.named
  anonymous := a.anonymous ++ b.anonymous
  fields := a.fields ++ b.fields

/-- The empty vocabulary. -/
def empty : Vocabulary := {}

end Vocabulary

namespace Query

/-- What a pattern asks of a node itself. -/
inductive NodeTest where
  /-- A named node of a kind. -/
  | kind (name : String)
  /-- An anonymous node with a text. -/
  | anonymous (text : String)
  /-- Any named node that is no error. -/
  | anyNamed
  /-- Any node that is no error. -/
  | any
  /-- An error. -/
  | error
  /-- Any missing node. -/
  | missing
  deriving DecidableEq, Repr, Inhabited

/-- A pattern for a node and what is below it. -/
inductive Pattern where
  /-- A node that passes the test, is held by its parent under the field (if one is
  given), has no child under the absent fields, and has children for the child patterns at
  increasing positions. -/
  | node (test : NodeTest) (field : Option String) (absent : List String)
    (captures : List String)
    (children : List Pattern)
  /-- A node for one of the branches. -/
  | choice (branches : List Pattern)
  deriving BEq, Repr, Inhabited

namespace Pattern

mutual

/-- The pattern with a capture name added to its node. -/
def capture (name : String) : Pattern → Pattern
  | .node test field absent captures children =>
    .node test field absent (captures ++ [name]) children
  | .choice branches => .choice (captureEach name branches)

/-- The patterns with a capture name added to the node of each. -/
def captureEach (name : String) : List Pattern → List Pattern
  | [] => []
  | p :: ps => p.capture name :: captureEach name ps

end

mutual

/-- The pattern for a node held under a field. -/
def under (field : String) : Pattern → Pattern
  | .node test _ absent captures children => .node test (some field) absent captures children
  | .choice branches => .choice (underEach field branches)

/-- The patterns for nodes held under a field. -/
def underEach (field : String) : List Pattern → List Pattern
  | [] => []
  | p :: ps => p.under field :: underEach field ps

end

mutual

/-- The words of a pattern. -/
def words : Pattern → Vocabulary
  | .node test field absent _ children =>
    let own : Vocabulary :=
      { named := match test with
          | .kind name => [name]
          | _ => []
        anonymous := match test with
          | .anonymous text => [text]
          | _ => []
        fields := field.toList ++ absent }
    own.union (wordsOfEach children)
  | .choice branches => wordsOfEach branches

/-- The words of some patterns. -/
def wordsOfEach : List Pattern → Vocabulary
  | [] => .empty
  | p :: ps => p.words.union (wordsOfEach ps)

end

end Pattern

/-- An argument of a condition, as written. -/
inductive Argument where
  | capture (name : String)
  | literal (text : String)
  deriving DecidableEq, Repr, Inhabited

/-- A condition on captured texts. `positive` tells a test from its negation; `every`
tells whether it is for all nodes of a capture or for some of them. -/
inductive Condition where
  | equalsText (capture text : String) (positive every : Bool)
  | equalsCapture (left right : String) (positive every : Bool)
  | hasMatch (capture : String) (regex : Regex) (positive every : Bool)
  | isOneOf (capture : String) (texts : List String) (positive : Bool)
  deriving Repr

/-- A pattern with its conditions. -/
structure Rule where
  pattern : Pattern
  conditions : List Condition
  deriving Repr

end Query

/-- A compiled query. -/
structure Query where
  rules : List Query.Rule
  /-- The capture names in the order of their first appearance. -/
  captureNames : List String
  deriving Repr

namespace Query

/-- The number of patterns of a query. -/
def patternCount (query : Query) : Nat :=
  query.rules.length

/-- The words of a query. -/
def words (query : Query) : Vocabulary :=
  Pattern.wordsOfEach (query.rules.map (·.pattern))

end Query

end SourceOutline
