import SourceOutline.Files
import SourceOutline.Sorting

/-!
# The Grammar Loader

Grammars that are not bundled come from libraries on a search path, and query files may
stand beside them. The earliest directory that holds what is sought wins. What was found
once is remembered and never sought again; what was not found is sought afresh every time.

`GrammarLoader.get` and `GrammarLoader.query` are whole calls: the look at what is
remembered, the search and the note of its outcome happen with no other call in between. A
history of a loader is a sequence of such calls.
-/

namespace SourceOutline

/-- The variables of the environment that the default search paths depend on. -/
structure Environment where
  /-- Directories of grammars, separated by colons. -/
  grammarPath : Option String := none
  configHome : Option String := none
  home : Option String := none
  deriving DecidableEq, Repr, Inhabited

namespace Environment

/-- The name of the variable for directories of grammars. -/
def grammarPathName : String := "SYLVAN_GRAMMAR_PATH"

/-- The directory for configurations. -/
def configDirectory? (env : Environment) : Option Path :=
  let given := (env.configHome.map Path.ofString).filter Path.isAbsolute
  let inHome :=
    (env.home.filter (· ≠ "")).map fun home => (Path.ofString home).joinString ".config"
  given.or inHome

/-- The pieces of a text between colons. -/
def splitColons (s : String) : List String :=
  ((s.toList.splitOn ':').map String.ofList).filter (· ≠ "")

/-- The default search paths. -/
def searchPaths (env : Environment) : List Path :=
  let listed := (env.grammarPath.map splitColons).getD []
  let config := env.configDirectory?.map fun dir => dir.joinString "sylvan/grammars"
  listed.map Path.ofString ++ config.toList

end Environment

/-- A grammar with the path of the library it came from. -/
structure LoadedGrammar where
  grammar : Grammar
  path : Path
  deriving DecidableEq, Repr, Inhabited

/-- A loader with what it remembers. -/
structure GrammarLoader where
  searchPaths : List Path
  /-- Loaded grammars by name. -/
  grammars : List (String × LoadedGrammar) := []
  /-- Query files by grammar and kind. -/
  queries : List ((String × String) × String) := []
  deriving Repr, Inhabited

namespace GrammarLoader

/-- What the file name of a library ends with. -/
def libraryEnding : String := ".so"

/-- The file name of a grammar's library. -/
def libraryName (name : String) : String :=
  name ++ libraryEnding

/-- The symbol that a grammar's library exports. -/
def symbolName (name : String) : String :=
  "tree_sitter_" ++ String.ofList (name.toList.map fun c => if c = '-' then '_' else c)

/-- The file name of a query file. -/
def queryName (name kind : String) : String :=
  name ++ "." ++ kind ++ ".scm"

/-- Adds a search path behind the others. -/
def addPath (loader : GrammarLoader) (path : Path) : GrammarLoader :=
  { loader with searchPaths := loader.searchPaths ++ [path] }

/-- The first library on the search path that can be loaded. -/
def seek? (loader : GrammarLoader) (files : FileTree) (name : String) : Option LoadedGrammar :=
  loader.searchPaths.findSome? fun dir =>
    let path := dir.joinString (libraryName name)
    (files.loadSymbol? path (symbolName name)).map fun grammar => { grammar, path }

/-- The grammar of a name, remembered or loaded. -/
def get (loader : GrammarLoader) (files : FileTree) (name : String) :
    Option Grammar × GrammarLoader :=
  match loader.grammars.lookup name with
  | some loaded => (some loaded.grammar, loader)
  | none =>
    match loader.seek? files name with
    | some loaded =>
      (some loaded.grammar, { loader with grammars := (name, loaded) :: loader.grammars })
    | none => (none, loader)

/-- The library from which a grammar was loaded. -/
def loadedPath? (loader : GrammarLoader) (name : String) : Option Path :=
  (loader.grammars.lookup name).map (·.path)

/-- The text of the first query file on the search path that can be read. -/
def seekQuery? (loader : GrammarLoader) (files : FileTree) (name kind : String) :
    Option String :=
  loader.searchPaths.findSome? fun dir =>
    (files.readText (dir.joinString (queryName name kind))).toOption

/-- The text of a query file, remembered or read. -/
def query (loader : GrammarLoader) (files : FileTree) (name kind : String) :
    Option String × GrammarLoader :=
  match loader.queries.lookup (name, kind) with
  | some text => (some text, loader)
  | none =>
    match loader.seekQuery? files name kind with
    | some text =>
      (some text, { loader with queries := ((name, kind), text) :: loader.queries })
    | none => (none, loader)

/-- A file name without the ending of a library. -/
def withoutEnding? (name : List Char) : Option (List Char) :=
  let ending := libraryEnding.toList
  if ending.isSuffixOf name then some (name.take (name.length - ending.length)) else none

/-- The names of the libraries on the search path, sorted. -/
def available (loader : GrammarLoader) (files : FileTree) : List String :=
  let names := loader.searchPaths.flatMap fun dir =>
    (files.namesIn dir).filterMap fun name => withoutEnding? (Text.lossyChars name)
  sort (fun a b => decide (a ≤ b)) (names.map String.ofList).eraseDups

end GrammarLoader

end SourceOutline
