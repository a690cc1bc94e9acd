import SourceOutline.Data.Decoding
import SourceOutline.Text.Blank

/-!
# Languages

The closed set of languages the library knows, each with an identifier (`Language.id`).
The last one, `unsupported`, stands for everything else.

A name is read by `Language.ofName?`: blanks around it and ASCII case do not matter, and a
few common aliases are accepted beside the identifiers.

## Main statements

* `mem_all`: `Language.all` lists every language.
* `ofName?_id`: every identifier names its own language.
-/

namespace SourceOutline

/-- A language of source texts. -/
inductive Language where
  | python
  | javaScript
  | typeScript
  | tsx
  | rust
  | go
  | java
  | c
  | cpp
  | csharp
  | ruby
  | bash
  | json
  | php
  | kotlin
  | swift
  | scala
  | lua
  | haskell
  | elixir
  | erlang
  | ocaml
  | zig
  | dart
  | julia
  | r
  | perl
  | groovy
  | fish
  | yaml
  | toml
  | html
  | css
  | markdown
  | sql
  | dockerfile
  | make
  | cmake
  | unsupported
  deriving DecidableEq, Repr, Inhabited

namespace Language

/-- Every language, in reporting order. -/
def all : List Language :=
  [.python, .javaScript, .typeScript, .tsx, .rust, .go, .java, .c, .cpp, .csharp, .ruby, .bash,
   .json, .php, .kotlin, .swift, .scala, .lua, .haskell, .elixir, .erlang, .ocaml, .zig, .dart,
   .julia, .r, .perl, .groovy, .fish, .yaml, .toml, .html, .css, .markdown, .sql, .dockerfile,
   .make, .cmake, .unsupported]

/-- `all` lists every language. -/
theorem mem_all (l : Language) : l ∈ all := by
  cases l <;> decide

/-- The identifier of a language. -/
def id : Language → String
  | .python => "python"
  | .javaScript => "javascript"
  | .typeScript => "typescript"
  | .tsx => "tsx"
  | .rust => "rust"
  | .go => "go"
  | .java => "java"
  | .c => "c"
  | .cpp => "cpp"
  | .csharp => "csharp"
  | .ruby => "ruby"
  | .bash => "bash"
  | .json => "json"
  | .php => "php"
  | .kotlin => "kotlin"
  | .swift => "swift"
  | .scala => "scala"
  | .lua => "lua"
  | .haskell => "haskell"
  | .elixir => "elixir"
  | .erlang => "erlang"
  | .ocaml => "ocaml"
  | .zig => "zig"
  | .dart => "dart"
  | .julia => "julia"
  | .r => "r"
  | .perl => "perl"
  | .groovy => "groovy"
  | .fish => "fish"
  | .yaml => "yaml"
  | .toml => "toml"
  | .html => "html"
  | .css => "css"
  | .markdown => "markdown"
  | .sql => "sql"
  | .dockerfile => "dockerfile"
  | .make => "make"
  | .cmake => "cmake"
  | .unsupported => "unsupported"

/-- The identifier with its usual capitals, as one word. -/
def title : Language → String
  | .python => "Python"
  | .javaScript => "JavaScript"
  | .typeScript => "TypeScript"
  | .tsx => "Tsx"
  | .rust => "Rust"
  | .go => "Go"
  | .java => "Java"
  | .c => "C"
  | .cpp => "Cpp"
  | .csharp => "CSharp"
  | .ruby => "Ruby"
  | .bash => "Bash"
  | .json => "Json"
  | .php => "Php"
  | .kotlin => "Kotlin"
  | .swift => "Swift"
  | .scala => "Scala"
  | .lua => "Lua"
  | .haskell => "Haskell"
  | .elixir => "Elixir"
  | .erlang => "Erlang"
  | .ocaml => "OCaml"
  | .zig => "Zig"
  | .dart => "Dart"
  | .julia => "Julia"
  | .r => "R"
  | .perl => "Perl"
  | .groovy => "Groovy"
  | .fish => "Fish"
  | .yaml => "Yaml"
  | .toml => "Toml"
  | .html => "Html"
  | .css => "Css"
  | .markdown => "Markdown"
  | .sql => "Sql"
  | .dockerfile => "Dockerfile"
  | .make => "Make"
  | .cmake => "CMake"
  | .unsupported => "Unsupported"

/-- Whether a language is the one for everything unknown. -/
def isUnsupported (l : Language) : Bool :=
  l = .unsupported

/-- Other names of languages. -/
def aliases : List (String × Language) :=
  [("py", .python), ("python3", .python), ("js", .javaScript), ("node", .javaScript),
   ("jsx", .javaScript), ("ts", .typeScript), ("rs", .rust), ("golang", .go), ("c++", .cpp),
   ("cxx", .cpp), ("c#", .csharp), ("cs", .csharp), ("c_sharp", .csharp), ("c-sharp", .csharp),
   ("rb", .ruby), ("sh", .bash), ("shell", .bash), ("zsh", .bash), ("kt", .kotlin),
   ("yml", .yaml), ("md", .markdown), ("makefile", .make)]

/-- The language with the given identifier. -/
def ofId? (s : String) : Option Language :=
  all.find? (·.id = s)

/-- The language a name stands for. Blanks around the name and ASCII case do not matter. -/
def ofName? (name : String) : Option Language :=
  let key := (Text.trimmed name).toLower
  (aliases.lookup key).or (ofId? key)

/-- Every identifier names its own language. -/
theorem ofName?_id (l : Language) : ofName? l.id = some l := by
  cases l <;> decide +kernel

/-- A language from data: exactly its identifier. -/
def decode (d : Data) : Except DecodeError Language :=
  d.decodeVariant (all.map fun l => (l.id, l))

end Language

/-- Why a language or its grammar cannot be had. -/
inductive LanguageError where
  /-- No language has the name. -/
  | unknownLanguage (name : String)
  /-- The language has no grammar. -/
  | unsupported (language : Language)
  /-- The grammar is neither bundled nor in a search path. -/
  | grammarNotFound (language : Language) (grammar : String)
  /-- The grammar was loaded and the parser refuses it. -/
  | incompatible (language : Language) (reason : String)
  deriving DecidableEq, Repr

/-- The wording of an error. -/
def LanguageError.message : LanguageError → String
  | .unknownLanguage name => "unknown language '" ++ name ++ "'"
  | .unsupported language => "language '" ++ language.id ++ "' has no grammar"
  | .grammarNotFound language grammar =>
    "grammar '" ++ grammar ++ "' for " ++ language.id
      ++ " not found in bundled grammars or search paths"
  | .incompatible language reason =>
    "grammar for " ++ language.id ++ " is incompatible: " ++ reason

/-- The language a name stands for, or the name as the cause of failure. -/
def Language.parse (name : String) : Except LanguageError Language :=
  match Language.ofName? name with
  | some language => .ok language
  | none => .error (.unknownLanguage name)

end SourceOutline
