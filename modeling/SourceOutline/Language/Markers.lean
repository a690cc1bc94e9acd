import SourceOutline.Language.Basic
import SourceOutline.Regex.Search

/-!
# Content Markers

An ordered list of expressions that give a language away. The first one that occurs in a
text decides. Blanks and word characters are those of every script; only line feeds bound
lines.
-/

namespace SourceOutline.Language.Marker

open Regex

/-- Any blanks. -/
def gap : Regex := .star (.set .blank)

/-- At least one blank. -/
def gap₁ : Regex := .plus (.set .blank)

/-- A name: at least one word character. -/
def name : Regex := .plus (.set .word)

/-- Anything up to the end of the line. -/
def anyInLine : Regex := .star (.set .notLineFeed)

/-- Some blanks at the start of the text. -/
def textStart : Regex := .seq (.look .textStart) gap

/-- Some blanks at the start of a line. -/
def lineStart : Regex := .seq (.look .lineStart) gap

/-- The end of a word. -/
def wordEnd : Regex := .look .wordBoundary

/-- One of the words. -/
def oneOf (words : List String) : Regex := .anyOf (words.map .literal)

/-- A PHP tag. -/
def phpTag : Regex :=
  .concat [textStart, .literal "<?php"]

/-- An HTML document type or root element, in any case. -/
def htmlDocument : Regex :=
  .anyOf
    [.concat [textStart, .literalAnyCase "<!doctype html"],
     .concat [textStart, .literalAnyCase "<html"]]

/-- The main package, or a function at the start of a line. -/
def goUnit : Regex :=
  .anyOf
    [.concat [lineStart, .literal "package", gap₁, .literal "main", wordEnd],
     .concat [.look .lineStart, .literal "func", gap₁, name, .char '(']]

/-- A function with a body, or a path in scope. -/
def rustItem : Regex :=
  .anyOf
    [.concat [lineStart, .opt (.concat [.literal "pub", gap₁]), .literal "fn", gap₁, name,
       anyInLine, .char '{'],
     .concat [lineStart, .literal "use", gap₁, name, .plus (.concat [.literal "::", name]),
       .char ';']]

/-- The system namespace in use. -/
def csharpUsing : Regex :=
  .concat
    [lineStart, .literal "using", gap₁, .literal "System", .star (.concat [.char '.', name]),
      .char ';']

/-- An import of the standard packages, or a public class. -/
def javaUnit : Regex :=
  .anyOf
    [.concat [lineStart, .literal "import", gap₁, .literal "java."],
     .concat [lineStart, .literal "public", gap₁, .opt (.concat [.literal "final", gap₁]),
       .literal "class", gap₁, name]]

/-- A header of the C++ library, a qualified name in `std`, or a namespace. -/
def cppUnit : Regex :=
  .anyOf
    [.concat [lineStart, .literal "#include", gap, .char '<',
       oneOf ["iostream", "vector", "string", "memory", "map"], .char '>'],
     .concat [.look .wordBoundary, .literal "std::"],
     .concat [lineStart, .literal "namespace", gap₁, name]]

/-- An included header. -/
def cInclude : Regex :=
  .concat [lineStart, .literal "#include", gap, .set (.ofList ['<', '"'])]

/-- A function header with its colon, or an import from a module. -/
def pythonUnit : Regex :=
  .anyOf
    [.concat [lineStart, .opt (.concat [.literal "async", gap₁]), .literal "def", gap₁,
       name, gap, .char '(', anyInLine, .char ')', gap,
       .opt (.concat [.literal "->", anyInLine]), .char ':'],
     .concat [lineStart, .literal "from", gap₁, .plus (.set (.union .word (.one '.'))), gap₁,
       .literal "import", .set .blank]]

/-- An interface or type, or a name annotated with a primitive type. -/
def typeScriptUnit : Regex :=
  .anyOf
    [.concat [lineStart, .opt (.concat [.literal "export", gap₁]),
       oneOf ["interface", "type"], gap₁, name, anyInLine, .set (.ofList ['=', '{'])],
     .concat [.char ':', gap, oneOf ["string", "number", "boolean"], wordEnd]]

/-- A variable, a function, an arrow with a block, or a required module. -/
def javaScriptUnit : Regex :=
  .anyOf
    [.concat [lineStart, oneOf ["const", "let", "var"], gap₁, name, gap, .char '='],
     .concat [lineStart, .literal "function", gap₁, name, gap, .char '('],
     .concat [.literal "=>", gap, .char '{'],
     .literal "require("]

/-- A method, a required file, or a line that only ends a block. -/
def rubyUnit : Regex :=
  .anyOf
    [.concat [lineStart, .literal "def", gap₁, name],
     .concat [lineStart, .literal "require", gap₁, .set (.ofList ['\'', '"'])],
     .concat [lineStart, .literal "end", gap, .look .lineEnd]]

/-- A bracket or brace that opens the text. -/
def jsonDocument : Regex :=
  .concat [textStart, .set (.ofList ['[', '{'])]

/-- The markers in the order in which they are tried. -/
def all : List (Regex × Language) :=
  [(phpTag, .php), (htmlDocument, .html), (goUnit, .go), (rustItem, .rust),
    (csharpUsing, .csharp),
   (javaUnit, .java), (cppUnit, .cpp), (cInclude, .c), (pythonUnit, .python),
   (typeScriptUnit, .typeScript), (javaScriptUnit, .javaScript), (rubyUnit, .ruby),
   (jsonDocument, .json)]

end SourceOutline.Language.Marker
