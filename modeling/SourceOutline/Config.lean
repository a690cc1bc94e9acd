import SourceOutline.Files
import SourceOutline.Pattern.Overrides
import SourceOutline.Query.Settings
import SourceOutline.Toml.Document

/-!
# Configuration

The configuration of an analyzer, as a document gives it. A project has its configuration
in a directory below its root; a project without one has the default configuration.
-/

namespace SourceOutline

/-- The configuration of an analyzer. -/
structure AnalyzerConfig where
  /-- Patterns that do not compile are an error. -/
  strictPatterns : Bool := false
  query : QuerySettings := {}
  /-- Directories of grammars before the default ones. -/
  searchPaths : List Path := []
  /-- Patterns over the built-in ones. -/
  patterns : PatternOverrides := {}
  deriving DecidableEq, Repr, Inhabited

/-- Why a configuration cannot be had. -/
inductive ConfigError where
  | unreadable (path : Path) (error : FileError)
  | document (error : DocumentError)
  deriving Repr

/-- The wording of the refusal of a file that cannot be read. -/
def unreadableMessage (path : Path) (error : FileError) : String :=
  "failed to read " ++ path.display ++ ": " ++ error.message

namespace AnalyzerConfig

/-- How the part about grammars is written. -/
def grammarFormat : Data.RecordFormat (List Path) where
  name := "GrammarConfig"
  start := []
  fields :=
    [("search_paths", fun d _ =>
      (d.decodeSeq (Data.decodeString "path string")).map fun paths =>
        paths.map Path.ofString)]

/-- How a configuration is written: every part may be absent. -/
def format : Data.RecordFormat AnalyzerConfig where
  name := "AnalyzerConfig"
  start := {}
  fields :=
    [("strict_patterns", fun d c => d.decodeBool.map fun b => { c with strictPatterns := b }),
     ("query", fun d c => (QuerySettings.decode .ignored d).map fun q =>
       { c with query := q }),
     ("grammars",
       fun d c => (d.decodeRecord .ignored grammarFormat).map fun paths =>
         { c with searchPaths := paths }),
     ("patterns", fun d c => (PatternOverrides.decode .ignored d).map fun p =>
       { c with patterns := p })]

/-- A configuration from data. -/
def decode (d : Data) : Except DecodeError AnalyzerConfig :=
  d.decodeRecord .ignored format

/-- The configuration of a document. -/
def ofDocument (text : String) : Except ConfigError AnalyzerConfig :=
  match Toml.decode decode text with
  | .ok config => .ok config
  | .error e => .error (.document e)

/-- The configuration of a file. -/
def load (files : FileTree) (path : Path) : Except ConfigError AnalyzerConfig :=
  match files.readText path with
  | .error e => .error (.unreadable path e)
  | .ok text => ofDocument text

/-- The directory of a project that holds its configuration. -/
def directory : String := ".sylvan"

/-- The file with the configuration of a project. -/
def pathIn (root : Path) : Path :=
  (root.joinString directory).joinString "config.toml"

/-- The configuration of a project. -/
def discover (files : FileTree) (root : Path) : Except ConfigError AnalyzerConfig :=
  if files.isFile (pathIn root) then load files (pathIn root) else .ok {}

end AnalyzerConfig

end SourceOutline
