import SourceOutline.Outline.Basic
import SourceOutline.Query.Handler
import SourceOutline.Tree.Traversal

/-!
# Assembling Outlines

A tree is queried for its classes, functions, imports and errors, in this order, and the
outcomes are put together. A category without a pattern is noted. A pattern that does not
compile ends the analysis when it is strict, and else is noted and treated as one without
matches.
-/

namespace SourceOutline

/-- The account of the runs of one analysis. -/
structure RunLog where
  diagnostics : List String := []
  unsupported : List Category := []
  truncated : List Category := []
  /-- A pattern did not compile. -/
  degraded : Bool := false
  deriving DecidableEq, Repr, Inhabited

namespace RunLog

/-- Notes the outcome of a category, unless it ends the analysis. -/
def record (log : RunLog) (strict : Bool) (category : Category)
    (outcome : Except QueryError CategoryMatches) :
    Except QueryError (Option CategoryMatches × RunLog) :=
  match outcome with
  | .ok found =>
    if found.truncated then
      .ok (some found,
        { log with
          diagnostics := log.diagnostics ++ [category.name ++ " results truncated"]
          truncated := log.truncated ++ [category] })
    else .ok (some found, log)
  | .error (.unsupported _ _) =>
    .ok (none, { log with unsupported := log.unsupported ++ [category] })
  | .error (.compile language category issue) =>
    let e : QueryError := .compile language category issue
    if strict then .error e
    else .ok (none,
      { log with diagnostics := log.diagnostics ++ [e.message], degraded := true })
  | .error e => .error e

end RunLog

/-- What the runs of one analysis found. -/
structure Findings where
  classes : Option CategoryMatches
  functions : Option CategoryMatches
  imports : Option CategoryMatches
  errors : Option CategoryMatches
  log : RunLog
  deriving Repr, Inhabited

namespace QueryHandler

/-- Runs categories from the root of a tree until one ends the analysis. -/
def runCategories {Q : Type} (host : Host Q) (t : SyntaxTree) (strict : Bool) :
    List Category → QueryHandler Q → RunLog →
      Except QueryError (List (Option CategoryMatches) × RunLog) × QueryHandler Q
  | [], handler, log => (.ok ([], log), handler)
  | category :: categories, handler, log =>
    let (outcome, handler) := handler.findCategory host t t.rootHandle category
    match log.record strict category outcome with
    | .error e => (.error e, handler)
    | .ok (found, log) =>
      match runCategories host t strict categories handler log with
      | (.error e, handler) => (.error e, handler)
      | (.ok (others, log), handler) => (.ok (found :: others, log), handler)

end QueryHandler

/-- The categories of an analysis in the order of their runs. -/
def analyzedCategories : List Category :=
  [.classes, .functions, .imports, .errors]

namespace Outline

/-- The text of a node. -/
def textOf? (t : SyntaxTree) (handle : Handle) : Option String :=
  match t.node handle with
  | .ok entry => some (t.textOf entry.record)
  | .error _ => none

/-- The groups of a category. -/
def groupsOf (found : Option CategoryMatches) : List Query.Group :=
  (found.map (·.groups)).getD []

/-- The node of a class with its name, if it has one. -/
def className? (t : SyntaxTree) (group : Query.Group) : Option (Handle × String) :=
  (group.name.bind (textOf? t)).map fun text => (group.definition, text)

/-- The named classes: their nodes with their names. -/
def classNames (t : SyntaxTree) (groups : List Query.Group) : List (Handle × String) :=
  groups.filterMap (className? t)

/-- The name of the nearest named class around a node. -/
def containerOf (t : SyntaxTree) (names : List (Handle × String)) (node : Handle) :
    Option String :=
  (t.upwards node.index).tail.findSome? fun index => names.lookup (t.handle index)

/-- Where a node stands. -/
def locationOf (t : SyntaxTree) (record : NodeRecord) : Location where
  start := t.startPosition record
  stop := t.endPosition record
  startByte := record.start
  stopByte := record.stop

/-- The definition of a group. -/
def definitionOf (t : SyntaxTree) (names : List (Handle × String)) (group : Query.Group) :
    Except TraversalError Definition := do
  let entry ← t.node group.definition
  .ok
    { name := group.name.bind (textOf? t)
      nodeType := entry.record.kind
      location := locationOf t entry.record
      text := t.textOf entry.record
      params := group.params.bind (textOf? t)
      container := containerOf t names group.definition
      handle := group.definition }

/-- The issue at a node. -/
def issueOf (t : SyntaxTree) (kind : IssueKind) (handle : Handle) :
    Except TraversalError SyntaxIssue := do
  let entry ← t.node handle
  let start := t.startPosition entry.record
  .ok { line := start.line, column := start.column, nodeType := entry.record.kind, kind,
        handle }

/-- Errors and missing nodes together in document order, an error before a missing node at
the same place. -/
def mergeIssues (errors missing : List SyntaxIssue) : List SyntaxIssue :=
  sort (fun a b => a.handle.le b.handle) (errors ++ missing)

/-- How far a tree got. -/
def statusOf (t : SyntaxTree) : ParseStatus :=
  if t.hasError then .parsedWithErrors else .parsedOk

/-- The names of definitions that have one. -/
def namesOf (definitions : List Definition) : List String :=
  definitions.filterMap (·.name)

/-- The parts of an outline that are read from the tree. -/
structure Parts where
  classes : List Definition
  functions : List Definition
  imports : List Definition
  missingNodes : List SyntaxIssue
  errors : List SyntaxIssue

/-- Reads the parts of an outline at the nodes that were found. -/
def gather (t : SyntaxTree) (findings : Findings) : Except TraversalError Parts := do
  let missing ← t.missingNodes t.rootHandle
  let names := classNames t (groupsOf findings.classes)
  let classes ← (groupsOf findings.classes).mapM (definitionOf t names)
  let functions ← (groupsOf findings.functions).mapM (definitionOf t names)
  let imports ← (groupsOf findings.imports).mapM (definitionOf t names)
  let missingNodes ← missing.mapM (issueOf t .missing)
  let errors ← ((groupsOf findings.errors).map (·.definition)).mapM (issueOf t .error)
  .ok { classes, functions, imports, missingNodes, errors }

/-- The outline of a tree with its parts. -/
def ofParts (t : SyntaxTree) (log : RunLog) (parts : Parts) : Outline :=
  let errorNodes := mergeIssues parts.errors parts.missingNodes
  let named := parts.functions.countP (·.name.isSome)
  let metadata : Metadata :=
    { functionNames := namesOf parts.functions
      classNames := namesOf parts.classes
      importNames := namesOf parts.imports
      namedFunctions := named
      anonymousFunctions := parts.functions.length - named
      hasErrors := t.hasError
      hasMissing := !parts.missingNodes.isEmpty
      errorLocations := errorNodes.map SyntaxIssue.position
      missingLocations := parts.missingNodes.map SyntaxIssue.position
      unsupportedCategories := log.unsupported
      truncatedCategories := log.truncated
      lineCount := Text.lineCount (Text.lossyChars t.source) }
  { language := t.language
    isSupported := !t.hasError
    isValid := !log.degraded
    hasErrors := t.hasError
    status := statusOf t
    nodeCount := t.nodeCount
    functions := parts.functions
    classes := parts.classes
    imports := parts.imports
    errorNodes
    missingNodes := parts.missingNodes
    metadata := metadata.sealed
    errors := log.diagnostics
    tree := some t }

/-- The outline of a tree from what was found in it. -/
def assemble (t : SyntaxTree) (findings : Findings) : Except TraversalError Outline :=
  (gather t findings).map (ofParts t findings.log)

/-- The findings of runs in the order of `analyzedCategories`. -/
def findingsOf (founds : List (Option CategoryMatches)) (log : RunLog) : Findings where
  classes := founds.getD 0 none
  functions := founds.getD 1 none
  imports := founds.getD 2 none
  errors := founds.getD 3 none
  log := log

/-- The outline of a tree. -/
def analyze {Q : Type} (handler : QueryHandler Q) (host : Host Q) (t : SyntaxTree)
    (strict : Bool) :
    Except QueryError Outline × QueryHandler Q :=
  let (outcome, handler) :=
    QueryHandler.runCategories host t strict analyzedCategories handler {}
  match outcome with
  | .error e => (.error e, handler)
  | .ok (founds, log) =>
    match assemble t (findingsOf founds log) with
    | .ok outline => (.ok outline, handler)
    | .error e => (.error (.traversal e), handler)

end Outline

end SourceOutline
