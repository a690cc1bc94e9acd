import SourceOutline.Grammar.Service
import SourceOutline.Pattern.Registry
import SourceOutline.Query.Grouping

/-!
# The Query Handler

The handler resolves the pattern of a category, has the engine compile it for the language
of a tree and runs it. Compiled queries are remembered by language and text; a text that
does not compile is not. A handler remembers queries of one engine, so its type has theirs
as a parameter.
-/

namespace SourceOutline

/-- Why a query cannot be answered. -/
inductive QueryError where
  /-- The pattern is no query for the grammar. -/
  | compile (language : Language) (category : Category) (issue : Query.Issue)
  /-- The language has no pattern for the category. -/
  | unsupported (category : Category) (language : Language)
  | language (error : LanguageError)
  | traversal (error : TraversalError)
  deriving DecidableEq, Repr

/-- The wording of an error. -/
def QueryError.message : QueryError → String
  | .compile lang category issue =>
    category.name ++ " pattern for " ++ lang.id ++ " does not compile at " ++
      toString issue.row
      ++ ":" ++ toString issue.column ++ ": " ++ issue.detail
  | .unsupported category lang => "no " ++ category.name ++ " pattern for " ++ lang.id
  | .language error => error.message
  | .traversal error => error.message

/-- The grouped outcome of one category. -/
structure CategoryMatches where
  category : Category
  groups : List Query.Group
  result : Query.Result
  deriving DecidableEq, Repr, Inhabited

namespace CategoryMatches

/-- The nodes that are defined. -/
def definitions (found : CategoryMatches) : List Handle :=
  found.groups.map (·.definition)

/-- Whether a limit cut the run off. -/
def truncated (found : CategoryMatches) : Bool :=
  found.result.truncated

end CategoryMatches

/-- The handler with the queries it has compiled. -/
structure QueryHandler (Q : Type) where
  service : LanguageService
  registry : Registry
  /-- The limits for categories without their own. -/
  settings : QuerySettings := {}
  /-- The limits of single categories. -/
  categorySettings : List (Category × QuerySettings) := []
  /-- Compiled queries by language and text. -/
  compiled : List ((Language × String) × Q) := []

namespace QueryHandler

variable {Q : Type}

/-- The limits of a category. -/
def settingsFor (handler : QueryHandler Q) (category : Category) : QuerySettings :=
  (handler.categorySettings.lookup category).getD handler.settings

/-- Compiles a text for a grammar. -/
def compileFor (engine : Engine Q) (language : Language) (category : Category) (text : String)
    (grammar : Grammar) : Except QueryError Q :=
  match engine.compile language grammar text with
  | .ok query => .ok query
  | .error issue => .error (.compile language category issue)

/-- Compiles a text without looking at what was compiled before. -/
def build (handler : QueryHandler Q) (host : Host Q) (language : Language)
    (category : Category) (text : String) : Except QueryError Q × QueryHandler Q :=
  let (outcome, service) := handler.service.bind host.files language
  let handler := { handler with service }
  match outcome with
  | .ok binding => (compileFor host.engine language category text binding.grammar, handler)
  | .error e => (.error (.language e), handler)

/-- The query of a text, remembered or compiled now. -/
def compile (handler : QueryHandler Q) (host : Host Q) (language : Language)
    (category : Category) (text : String) : Except QueryError Q × QueryHandler Q :=
  match handler.compiled.lookup (language, text) with
  | some query => (.ok query, handler)
  | none =>
    let (outcome, handler) := handler.build host language category text
    match outcome with
    | .ok query =>
      (.ok query, { handler with compiled := ((language, text), query) :: handler.compiled })
    | .error e => (.error e, handler)

/-- Runs a query for a category. -/
def execute (host : Host Q) (category : Category) (t : SyntaxTree) (query : Q) (root : Handle)
    (settings : QuerySettings) : Except QueryError Query.Result :=
  match Query.execute host.engine (host.clocks category) t query root settings with
  | .ok result => .ok result
  | .error e => .error (.traversal e)

/-- Runs the pattern of a category in a subtree. -/
def findCategory (handler : QueryHandler Q) (host : Host Q) (t : SyntaxTree) (root : Handle)
    (category : Category) : Except QueryError CategoryMatches × QueryHandler Q :=
  match handler.registry.patternFor category t.language with
  | none => (.error (.unsupported category t.language), handler)
  | some text =>
    let settings := handler.settingsFor category
    let (outcome, handler) := handler.compile host t.language category text
    let found := do
      let query ← outcome
      let result ← execute host category t query root settings
      .ok { category, groups := Query.groupCaptures result.captures, result }
    (found, handler)

/-- The category under which ad-hoc queries are compiled. -/
def target : Category := Category.ofName "target"

/-- The text of the query for one kind of node. -/
def kindQuery (kind : String) : String :=
  "(" ++ kind ++ ") @target"

/-- Adds a handle to handles that are strictly increasing. -/
def addHandle (handle : Handle) : List Handle → List Handle
  | [] => [handle]
  | other :: handles =>
    if other = handle then other :: handles
    else if handle.le other then handle :: other :: handles
    else other :: addHandle handle handles

/-- The nodes of one kind in a subtree, by an ad-hoc query that is not remembered. -/
def findNodesByType (handler : QueryHandler Q) (host : Host Q) (t : SyntaxTree) (root : Handle)
    (kind : String) : Except QueryError (List Handle) × QueryHandler Q :=
  let (outcome, handler) := handler.build host t.language target (kindQuery kind)
  let found := do
    let query ← outcome
    let result ← execute host target t query root handler.settings
    .ok ((result.captures.map (·.node)).foldr addHandle [])
  (found, handler)

end QueryHandler

end SourceOutline
