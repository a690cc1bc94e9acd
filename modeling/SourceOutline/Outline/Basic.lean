import SourceOutline.Outline.Metadata

/-!
# Outlines

The outline of a source: its functions, classes and imports, the places where it could not
be parsed, and its metadata. A source that was not parsed has an outline too, which says
why.
-/

namespace SourceOutline

/-- How far a source got. -/
inductive ParseStatus where
  /-- There is no tree. -/
  | unparsed
  | parsedOk
  | parsedWithErrors
  deriving DecidableEq, Repr, Inhabited

/-- The name of a status. -/
def ParseStatus.id : ParseStatus → String
  | .unparsed => "unparsed"
  | .parsedOk => "parsed_ok"
  | .parsedWithErrors => "parsed_with_errors"

/-- Where something stands in a source. -/
structure Location where
  start : Position
  stop : Position
  startByte : Nat
  stopByte : Nat
  deriving DecidableEq, Repr, Inhabited

/-- A location as data. -/
def Location.toData (l : Location) : Data :=
  .map
    [("start", l.start.toData), ("end", l.stop.toData),
     ("byte_range", byteRangeData l.startByte l.stopByte)]

/-- A function, class or import. -/
structure Definition where
  /-- The name, unless the definition is anonymous. -/
  name : Option String
  /-- The kind of the node. -/
  nodeType : String
  location : Location
  text : String
  params : Option String
  /-- The name of the nearest class around the definition. -/
  container : Option String
  handle : Handle
  deriving DecidableEq, Repr, Inhabited

/-- A definition as data. -/
def Definition.toData (d : Definition) : Data :=
  .map
    [("name", .optStr d.name), ("node_type", .str d.nodeType), ("location", d.location.toData),
     ("text", .str d.text), ("params", .optStr d.params), ("container", .optStr d.container)]

/-- What is wrong at a place. -/
inductive IssueKind where
  /-- Text that the grammar could not fit. -/
  | error
  /-- Something that is missing. -/
  | missing
  deriving DecidableEq, Repr, Inhabited

/-- The name of a kind of issue. -/
def IssueKind.id : IssueKind → String
  | .error => "error"
  | .missing => "missing"

/-- A place where a source could not be parsed. -/
structure SyntaxIssue where
  line : Nat
  column : Nat
  nodeType : String
  kind : IssueKind
  handle : Handle
  deriving DecidableEq, Repr, Inhabited

namespace SyntaxIssue

/-- An issue as data. -/
def toData (i : SyntaxIssue) : Data :=
  .map
    [("line", .nat i.line), ("column", .nat i.column), ("node_type", .str i.nodeType),
     ("kind", .str i.kind.id)]

/-- The position of an issue. -/
def position (i : SyntaxIssue) : Position where
  line := i.line
  column := i.column

end SyntaxIssue

/-- Everything extracted from one source. -/
structure Outline where
  language : Language
  /-- The language has a grammar and the tree has no errors. -/
  isSupported : Bool
  /-- A tree was built and every pattern was run. -/
  isValid : Bool
  hasErrors : Bool
  status : ParseStatus
  nodeCount : Nat
  functions : List Definition
  classes : List Definition
  imports : List Definition
  /-- The places of errors and of missing nodes in document order. -/
  errorNodes : List SyntaxIssue
  missingNodes : List SyntaxIssue
  metadata : Metadata
  /-- Notes: why a source was not parsed, patterns that did not compile, runs that were
  cut off. -/
  errors : List String
  tree : Option SyntaxTree

namespace Outline

/-- The outline of a source without a tree. -/
def unparsed (language : Language) (reason : String) : Outline where
  language := language
  isSupported := false
  isValid := false
  hasErrors := false
  status := .unparsed
  nodeCount := 0
  functions := []
  classes := []
  imports := []
  errorNodes := []
  missingNodes := []
  metadata := Metadata.sealed {}
  errors := [reason]
  tree := none

/-- The first function of a name. -/
def function? (o : Outline) (name : String) : Option Definition :=
  o.functions.find? (·.name = some name)

/-- The first class of a name. -/
def class? (o : Outline) (name : String) : Option Definition :=
  o.classes.find? (·.name = some name)

/-- An outline as data. -/
def toData (o : Outline) : Data :=
  .map
    [("language", .str o.language.id), ("is_supported", .bool o.isSupported),
     ("is_valid", .bool o.isValid), ("has_errors", .bool o.hasErrors),
     ("status", .str o.status.id), ("node_count", .nat o.nodeCount),
     ("functions", .seq (o.functions.map Definition.toData)),
     ("classes", .seq (o.classes.map Definition.toData)),
     ("imports", .seq (o.imports.map Definition.toData)),
     ("error_nodes", .seq (o.errorNodes.map SyntaxIssue.toData)),
     ("missing_nodes", .seq (o.missingNodes.map SyntaxIssue.toData)),
     ("metadata", o.metadata.toData), ("errors", .strs o.errors)]

end Outline

end SourceOutline
