import SourceOutline.Grammar.Basic

/-!
# Files

A tree of directories and files as far as this library reads it. Besides plain files there
are grammar libraries, which export one symbol. A path is followed component by component,
from the root if it is absolute and from the working directory if not; every component but
the last has to be a directory.
-/

namespace SourceOutline

/-- What a path leads to. -/
inductive FileNode where
  | directory
  | file (content : Bytes)
  /-- A grammar library with its one exported symbol. -/
  | library (symbol : String) (grammar : Grammar) (content : Bytes)
  deriving Repr, Inhabited

/-- The bytes of what can be read. -/
def FileNode.content? : FileNode → Option Bytes
  | .directory => none
  | .file content => some content
  | .library _ _ content => some content

/-- Why a file cannot be read. -/
inductive FileError where
  | notFound
  | isDirectory
  | notDirectory
  | notText
  deriving DecidableEq, Repr, Inhabited

/-- The wording of an error. -/
def FileError.message : FileError → String
  | .notFound => "No such file or directory (os error 2)"
  | .isDirectory => "Is a directory (os error 21)"
  | .notDirectory => "Not a directory (os error 20)"
  | .notText => "stream did not contain valid UTF-8"

/-- A tree of files, given by the components of their paths. -/
structure FileTree where
  entries : List (List Bytes × FileNode)
  /-- The components of the directory from which relative paths are followed. -/
  workingDirectory : List Bytes := []
  deriving Repr, Inhabited

namespace FileTree

/-- The tree with nothing but its root. -/
def empty : FileTree where
  entries := []

/-- What stands at the given components. -/
def nodeAt (files : FileTree) (components : List Bytes) : Option FileNode :=
  if components = [] then some .directory else files.entries.lookup components

/-- The components after one more step. -/
def step (components : List Bytes) (name : Bytes) : List Bytes :=
  if name = [Path.dot, Path.dot] then components.dropLast else components ++ [name]

/-- Where a path starts: at the root, or in the working directory. -/
def startOf (files : FileTree) (path : Path) : List Bytes :=
  if path.isAbsolute then [] else files.workingDirectory

/-- Follows components from where others led. -/
def follow (files : FileTree) : List Bytes → List Bytes → Except FileError (List Bytes)
  | place, [] => .ok place
  | place, name :: names =>
    match files.nodeAt place with
    | none => .error .notFound
    | some .directory => follow files (step place name) names
    | some _ => .error .notDirectory

/-- What a path leads to, with its components. A path that ends in a slash leads to
directories only, and the empty path leads nowhere. -/
def find (files : FileTree) (path : Path) : Except FileError (List Bytes × FileNode) := do
  if path.bytes = [] then .error .notFound
  else
    let place ← files.follow (files.startOf path) path.components
    match files.nodeAt place with
    | none => .error .notFound
    | some .directory => .ok (place, .directory)
    | some node =>
      if path.bytes.getLast? = some Path.slash then .error .notDirectory else .ok (place, node)

/-- Whether a path leads to a file. -/
def isFile (files : FileTree) (path : Path) : Bool :=
  match files.find path with
  | .ok (_, .directory) => false
  | .ok _ => true
  | .error _ => false

/-- The content of a file. -/
def readBytes (files : FileTree) (path : Path) : Except FileError Bytes := do
  let (_, node) ← files.find path
  match node.content? with
  | some content => .ok content
  | none => .error .isDirectory

/-- The content of a file as text. -/
def readText (files : FileTree) (path : Path) : Except FileError String := do
  let content ← files.readBytes path
  match Text.decode? content with
  | some text => .ok text
  | none => .error .notText

/-- The grammar of a library that exports the symbol. -/
def loadSymbol? (files : FileTree) (path : Path) (symbol : String) : Option Grammar :=
  match files.find path with
  | .ok (_, .library exported grammar _) => if exported = symbol then some grammar else none
  | _ => none

/-- The names in a directory; none if there is no such directory. -/
def namesIn (files : FileTree) (path : Path) : List Bytes :=
  match files.find path with
  | .ok (place, .directory) =>
    files.entries.filterMap fun (components, _) =>
      match components.getLast? with
      | some name => if components.dropLast = place then some name else none
      | none => none
  | _ => []

/-- Puts a node at components, replacing what was there. -/
def put (files : FileTree) (components : List Bytes) (node : FileNode) : FileTree :=
  { files with entries := files.entries.filter (·.1 ≠ components) ++ [(components, node)] }

/-- Makes a directory at components unless something is there. -/
def ensureDirectory (files : FileTree) (components : List Bytes) : FileTree :=
  if (files.nodeAt components).isSome then files else files.put components .directory

/-- Puts a node at a path, making the directories that lead to it. -/
def write (files : FileTree) (path : Path) (node : FileNode) : FileTree :=
  let components := files.startOf path ++ path.components
  let parents := (List.range components.length).map fun n => components.take n
  (parents.foldl ensureDirectory files).put components node

/-- Removes the file at a path, and says whether there was one. -/
def remove (files : FileTree) (path : Path) : Bool × FileTree :=
  if files.isFile path then
    (true,
      { files with
        entries := files.entries.filter (·.1 ≠ files.startOf path ++ path.components) })
  else (false, files)

end FileTree

end SourceOutline
