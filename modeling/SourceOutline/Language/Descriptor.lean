import SourceOutline.Language.Basic
import SourceOutline.Language.Family
import SourceOutline.Language.Features

/-!
# Language Descriptors

What is known of each language without loading its grammar: its written name, the name of
its grammar, the files it is found in, its family and its features. `Language.descriptor`
is total.

## Main statements

* `grammar_eq_none_iff`: exactly `unsupported` lacks a grammar.
* `extension_unique`, `fileName_unique`: at most one language lists an extension or a file
  name.
-/

namespace SourceOutline

/-- What is known of a language without its grammar. -/
structure Descriptor where
  /-- The name people write. -/
  name : String
  /-- The name of the grammar, as in library and query file names. -/
  grammar : Option String
  /-- Extensions in lowercase, without the dot. -/
  extensions : List String := []
  /-- Whole file names in lowercase. -/
  fileNames : List String := []
  /-- Globs over file names. -/
  nameGlobs : List String := []
  family : Option Family := none
  features : Features
  deriving Repr

namespace Language

/-- The descriptor table. -/
def descriptor : Language → Descriptor
  | .python =>
    { name := "Python", grammar := some "python",
      extensions := ["py", "pyi", "pyw"],
      features := { Features.all with hasInterfaces := false } }
  | .javaScript =>
    { name := "JavaScript", grammar := some "javascript",
      extensions := ["js", "mjs", "cjs", "jsx"],
      family := some .ecmaScript,
      features := { Features.all with
        hasTypes := false, hasInterfaces := false, hasGenerics := false, hasDocstrings :=
          false } }
  | .typeScript =>
    { name := "TypeScript", grammar := some "typescript",
      extensions := ["ts", "mts", "cts"],
      family := some .ecmaScript,
      features := { Features.all with hasDocstrings := false } }
  | .tsx =>
    { name := "TSX", grammar := some "tsx",
      extensions := ["tsx"],
      family := some .ecmaScript,
      features := { Features.all with hasDocstrings := false } }
  | .rust =>
    { name := "Rust", grammar := some "rust",
      extensions := ["rs"],
      features := { Features.typed with
        hasClasses := false, hasExceptions := false, hasAsync := true,
        hasDecorators := true, hasDocstrings := true } }
  | .go =>
    { name := "Go", grammar := some "go",
      extensions := ["go"],
      features := { Features.typed with hasClasses := false, hasExceptions := false } }
  | .java =>
    { name := "Java", grammar := some "java",
      extensions := ["java"],
      features := { Features.typed with hasDecorators := true, hasDocstrings := true } }
  | .c =>
    { name := "C", grammar := some "c",
      extensions := ["c", "h"],
      family := some .cFamily,
      features := { Features.none with
        hasTypes := true, hasFunctions := true, hasModules := true } }
  | .cpp =>
    { name := "C++", grammar := some "cpp",
      extensions := ["cpp", "cc", "cxx", "c++", "hpp", "hh", "hxx", "h++"],
      family := some .cFamily,
      features := .typed }
  | .csharp =>
    { name := "C#", grammar := some "c_sharp",
      extensions := ["cs"],
      features := { Features.typed with hasDecorators := true, hasAsync := true } }
  | .ruby =>
    { name := "Ruby", grammar := some "ruby",
      extensions := ["rb", "rake", "gemspec"],
      fileNames := ["rakefile", "gemfile", "guardfile", "vagrantfile", "podfile"],
      features := .scripting }
  | .bash =>
    { name := "Bash", grammar := some "bash",
      extensions := ["sh", "bash", "zsh"],
      fileNames := [".bashrc", ".bash_profile", ".zshrc", ".profile", "pkgbuild"],
      family := some .shell,
      features := .shell }
  | .json =>
    { name := "JSON", grammar := some "json",
      extensions := ["json"],
      fileNames := [".babelrc", ".eslintrc"],
      features := .dataFormat }
  | .php =>
    { name := "PHP", grammar := some "php",
      extensions := ["php", "phtml"],
      features := { Features.scripting with hasInterfaces := true, hasDecorators := true } }
  | .kotlin =>
    { name := "Kotlin", grammar := some "kotlin",
      extensions := ["kt", "kts"],
      features := { Features.typed with hasDecorators := true, hasAsync := true } }
  | .swift =>
    { name := "Swift", grammar := some "swift",
      extensions := ["swift"],
      features := { Features.typed with hasDecorators := true, hasAsync := true } }
  | .scala =>
    { name := "Scala", grammar := some "scala",
      extensions := ["scala", "sc"],
      features := { Features.typed with hasDecorators := true } }
  | .lua =>
    { name := "Lua", grammar := some "lua",
      extensions := ["lua"],
      features := { Features.scripting with hasClasses := false, hasExceptions := false } }
  | .haskell =>
    { name := "Haskell", grammar := some "haskell",
      extensions := ["hs", "lhs"],
      features := { Features.typed with hasExceptions := false } }
  | .elixir =>
    { name := "Elixir", grammar := some "elixir",
      extensions := ["ex", "exs"],
      features := { Features.scripting with hasClasses := false, hasDocstrings := true } }
  | .erlang =>
    { name := "Erlang", grammar := some "erlang",
      extensions := ["erl", "hrl"],
      features := { Features.scripting with hasClasses := false } }
  | .ocaml =>
    { name := "OCaml", grammar := some "ocaml",
      extensions := ["ml", "mli"],
      features := .typed }
  | .zig =>
    { name := "Zig", grammar := some "zig",
      extensions := ["zig"],
      features := { Features.typed with hasClasses := false, hasInterfaces := false } }
  | .dart =>
    { name := "Dart", grammar := some "dart",
      extensions := ["dart"],
      features := { Features.typed with hasAsync := true, hasDecorators := true } }
  | .julia =>
    { name := "Julia", grammar := some "julia",
      extensions := ["jl"],
      features := { Features.scripting with hasTypes := true, hasDocstrings := true } }
  | .r =>
    { name := "R", grammar := some "r",
      extensions := ["r"],
      features := { Features.scripting with hasClasses := false } }
  | .perl =>
    { name := "Perl", grammar := some "perl",
      extensions := ["pl", "pm"],
      features := .scripting }
  | .groovy =>
    { name := "Groovy", grammar := some "groovy",
      extensions := ["groovy", "gradle"],
      fileNames := ["jenkinsfile"],
      features := { Features.scripting with hasDecorators := true } }
  | .fish =>
    { name := "Fish", grammar := some "fish",
      extensions := ["fish"],
      family := some .shell,
      features := .shell }
  | .yaml =>
    { name := "YAML", grammar := some "yaml",
      extensions := ["yaml", "yml"],
      features := .dataFormat }
  | .toml =>
    { name := "TOML", grammar := some "toml",
      extensions := ["toml"],
      fileNames := ["pipfile"],
      features := .dataFormat }
  | .html =>
    { name := "HTML", grammar := some "html",
      extensions := ["html", "htm"],
      features := .dataFormat }
  | .css =>
    { name := "CSS", grammar := some "css",
      extensions := ["css"],
      features := .dataFormat }
  | .markdown =>
    { name := "Markdown", grammar := some "markdown",
      extensions := ["md", "markdown"],
      features := .dataFormat }
  | .sql =>
    { name := "SQL", grammar := some "sql",
      extensions := ["sql"],
      features := { Features.dataFormat with hasFunctions := true } }
  | .dockerfile =>
    { name := "Dockerfile", grammar := some "dockerfile",
      extensions := ["dockerfile"],
      fileNames := ["dockerfile", "containerfile"],
      nameGlobs := ["Dockerfile.*", "Containerfile.*"],
      features := .dataFormat }
  | .make =>
    { name := "Make", grammar := some "make",
      extensions := ["mk", "mak"],
      fileNames := ["makefile", "gnumakefile"],
      nameGlobs := ["Makefile.*"],
      features := .dataFormat }
  | .cmake =>
    { name := "CMake", grammar := some "cmake",
      extensions := ["cmake"],
      fileNames := ["cmakelists.txt"],
      features := { Features.dataFormat with hasFunctions := true } }
  | .unsupported =>
    { name := "Unsupported", grammar := none, features := .none }

/-- The family of a language, if it belongs to one. -/
def family (l : Language) : Option Family :=
  l.descriptor.family

/-- The grammar name of a language. -/
def grammar? (l : Language) : Option String :=
  l.descriptor.grammar

/-- Exactly `unsupported` lacks a grammar. -/
theorem grammar_eq_none_iff (l : Language) : l.grammar? = none ↔ l = .unsupported := by
  cases l <;> decide

/-- At most one language lists an extension. -/
theorem extension_unique :
    (all.flatMap fun l => l.descriptor.extensions).Nodup := by
  decide +kernel

/-- At most one language lists a file name. -/
theorem fileName_unique :
    (all.flatMap fun l => l.descriptor.fileNames).Nodup := by
  decide +kernel

/-- The descriptor of a language as data. -/
def descriptorData (l : Language) : Data :=
  let d := l.descriptor
  .map
    [("id", .str l.id), ("name", .str d.name), ("grammar", .optStr d.grammar),
     ("extensions", .strs d.extensions), ("filenames", .strs d.fileNames),
     ("filename_globs", .strs d.nameGlobs), ("family", .optStr (d.family.map Family.id)),
     ("features", d.features.toData)]

end Language

end SourceOutline
