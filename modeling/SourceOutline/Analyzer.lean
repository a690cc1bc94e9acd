import SourceOutline.Config
import SourceOutline.Language.Detection
import SourceOutline.Language.Resolution
import SourceOutline.Outline.Assembly
import SourceOutline.Pattern.External

/-!
# The Analyzer

The analyzer makes outlines of sources and files. A language without a usable grammar
gives an outline that says so; only patterns that do not compile under a strict
configuration, and files that cannot be read, are errors.
-/

namespace SourceOutline

/-- Why a source cannot be parsed. -/
inductive ParseError where
  | language (error : LanguageError)
  /-- The engine gave up. -/
  | noTree (language : Language)
  deriving DecidableEq, Repr

/-- The wording of an error. -/
def ParseError.message : ParseError → String
  | .language error => error.message
  | .noTree lang => "parser for " ++ lang.id ++ " produced no tree"

/-- The tree of a source, numbered `id`, from a parser for its language. -/
def SyntaxTree.parseWith (parser : Bytes → Option Tree) (id : Nat) (language : Language)
    (source : Bytes) : Except ParseError SyntaxTree :=
  match parser source with
  | some tree => .ok (SyntaxTree.ofTree id language source tree)
  | none => .error (.noTree language)

/-- Why there is no outline. -/
inductive AnalyzerError where
  | language (error : LanguageError)
  | override (error : OverrideError)
  | query (error : QueryError)
  | unreadable (path : Path) (error : FileError)
  deriving DecidableEq, Repr

/-- The analyzer with what it remembers. -/
structure Analyzer (Q : Type) where
  handler : QueryHandler Q
  /-- Patterns that do not compile are an error. -/
  strict : Bool := false
  /-- The number of the next tree. -/
  nextTree : Nat := 0

namespace Analyzer

variable {Q : Type}

/-- The service with the default search paths, which analyzers share. -/
def sharedService (env : Environment) : LanguageService :=
  .ofLoader { searchPaths := env.searchPaths }

/-- An analyzer with the built-in patterns and the default search paths. -/
def default (env : Environment) : Analyzer Q where
  handler :=
    { service := sharedService env
      registry := .builtin }

/-- The service of a configuration: one with its search paths before the default ones, or
else the one that is shared. -/
def serviceOf (env : Environment) (shared : LanguageService) (config : AnalyzerConfig) :
    LanguageService :=
  if config.searchPaths.isEmpty then shared
  else .ofLoader { searchPaths := config.searchPaths ++ env.searchPaths }

/-- An analyzer as configured: the built-in patterns, over them those of query files on
the search paths, over them those of the configuration. -/
def ofConfig (env : Environment) (shared : LanguageService) (files : FileTree)
    (config : AnalyzerConfig) :
    Except AnalyzerError (Analyzer Q) :=
  let service := serviceOf env shared config
  let loading := Registry.builtin.loadExternal service.loader files Language.all
  match loading.registry.applyOverrides config.patterns with
  | (.error e, _) => .error (.override e)
  | (.ok _, registry) =>
    .ok
      { handler :=
          { service := { service with loader := loading.loader }
            registry
            settings := config.query }
        strict := config.strictPatterns }

/-- Parses a source. -/
def parse (a : Analyzer Q) (host : Host Q) (content : Bytes) (language : Language) :
    Except ParseError SyntaxTree × Analyzer Q :=
  let (outcome, service) := a.handler.service.bindParser host.files language
  let a := { a with handler := { a.handler with service } }
  match outcome with
  | .error e => (.error (.language e), a)
  | .ok binding =>
    (SyntaxTree.parseWith (host.engine.parse language binding.grammar) a.nextTree language
      content, { a with nextTree := a.nextTree + 1 })

/-- The outline of a source in a language. -/
def parseContent (a : Analyzer Q) (host : Host Q) (content : Bytes) (language : Language) :
    Except AnalyzerError Outline × Analyzer Q :=
  let (outcome, a) := a.parse host content language
  match outcome with
  | .error e => (.ok (Outline.unparsed language e.message), a)
  | .ok t =>
    let (outcome, handler) := Outline.analyze a.handler host t a.strict
    let a := { a with handler }
    match outcome with
    | .ok outline => (.ok outline, a)
    | .error e => (.error (.query e), a)

/-- The outline of a source in a named language. -/
def parseNamed (a : Analyzer Q) (host : Host Q) (content : Bytes) (name : String) :
    Except AnalyzerError Outline × Analyzer Q :=
  match Language.parse name with
  | .error e => (.error (.language e), a)
  | .ok language => a.parseContent host content language

/-- The language of a file: by its path, or by its content if the path says nothing. -/
def languageOfFile (path : Path) (content : Bytes) : Language :=
  let byPath := Language.ofPath path
  if byPath.isUnsupported && !Language.hasHint path then
    Language.detectChars (Text.lossyChars content)
  else byPath

/-- The outline of a file. -/
def parseFile (a : Analyzer Q) (host : Host Q) (path : Path) :
    Except AnalyzerError Outline × Analyzer Q :=
  match host.files.readBytes path with
  | .error e => (.error (.unreadable path e), a)
  | .ok content => a.parseContent host content (languageOfFile path content)

/-- The outlines of files, each for itself. Every file comes with the clock as it is read
while that file is analysed. -/
def parseBatch (host : Host Q) :
    List (Path × (Category → Query.Clock)) → Analyzer Q →
      List (Except AnalyzerError Outline) × Analyzer Q
  | [], a => ([], a)
  | file :: files, a =>
    let (outcome, a) := a.parseFile (host.withClocks file.2) file.1
    let (outcomes, a) := parseBatch host files a
    (outcome :: outcomes, a)

/-- Runs a category on a tree. -/
def findCategory (a : Analyzer Q) (host : Host Q) (t : SyntaxTree) (category : Category) :
    Except QueryError CategoryMatches × Analyzer Q :=
  let (outcome, handler) := a.handler.findCategory host t t.rootHandle category
  (outcome, { a with handler })

/-- Changes the registered patterns. -/
def withRegistry (a : Analyzer Q) (registry : Registry) : Analyzer Q :=
  { a with handler := { a.handler with registry } }

end Analyzer

end SourceOutline
