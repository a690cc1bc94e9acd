import SourceOutline.Language.Descriptor
import SourceOutline.Path
import SourceOutline.Text.Glob

/-!
# The Language of a Path

A path is resolved by its file name alone: a listed file name wins over a glob, a glob
over the extension. ASCII case does not matter. A path without a file name, or with one
that is not UTF-8, is unsupported. The functions ending in `In?` or `In` read a table of
languages from its start; `ofPath` reads `Language.all`.

`hasHint` says whether a path has something to resolve by at all: an extension or a listed
name. The content is looked at only when it has none.
-/

namespace SourceOutline.Language

/-- The first language of a table that lists a file name. -/
def fileNameIn? (table : List Language) (name : String) : Option Language :=
  table.find? fun l => l.descriptor.fileNames.contains name.toLower

/-- The first language of a table with a glob that accepts a file name. -/
def globIn? (table : List Language) (name : String) : Option Language :=
  table.find? fun l => l.descriptor.nameGlobs.any fun glob => Text.matchesGlob glob name

/-- The first language of a table that lists an extension, given with or without leading
dots. -/
def extensionIn? (table : List Language) (ext : String) : Option Language :=
  let key := String.ofList (ext.toLower.toList.dropWhile (· = '.'))
  table.find? fun l => l.descriptor.extensions.contains key

/-- The language of a path by a table. -/
def ofPathIn (table : List Language) (p : Path) : Language :=
  match p.fileName.bind Text.decode? with
  | none => .unsupported
  | some name =>
    ((fileNameIn? table name).or ((globIn? table name).or
      ((p.extension.bind Text.decode?).bind (extensionIn? table)))).getD .unsupported

/-- The language that lists an extension. -/
def ofExtension? (ext : String) : Option Language :=
  extensionIn? all ext

/-- The language of a path. -/
def ofPath (p : Path) : Language :=
  ofPathIn all p

/-- Whether a path has an extension or a listed file name. -/
def hasHint (p : Path) : Bool :=
  p.extension.isSome || ((p.fileName.bind Text.decode?).bind (fileNameIn? all)).isSome

end SourceOutline.Language
