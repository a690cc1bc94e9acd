import SourceOutline.Language.Basic

/-!
# Interpreter Lines

A text whose first line starts with `#!` names the program that runs it. The program word
is the last path component of the first word after the mark, or, when that is `env`, the
first following word that is no option. It is recognised when it is an interpreter's name
followed by digits and dots only.
-/

namespace SourceOutline.Language

/-- The interpreters that are recognised. -/
def interpreters : List (String × Language) :=
  [("python", .python), ("node", .javaScript), ("deno", .typeScript), ("ruby", .ruby),
   ("perl", .perl), ("php", .php), ("lua", .lua), ("fish", .fish), ("bash", .bash),
   ("zsh", .bash), ("sh", .bash), ("elixir", .elixir), ("julia", .julia), ("Rscript", .r)]

/-- The text after the last slash. -/
def afterLastSlash (word : List Char) : List Char :=
  (word.reverse.takeWhile (· ≠ '/')).reverse

/-- The text after `start`, if the text begins with it. -/
def after? : List Char → List Char → Option (List Char)
  | [], ys => some ys
  | _ :: _, [] => none
  | x :: xs, y :: ys => if x = y then after? xs ys else none

/-- The program word of an interpreter line. -/
def programWord? (line : List Char) : Option (List Char) := do
  let rest ← after? ['#', '!'] line
  match Text.words rest with
  | [] => none
  | first :: more =>
    let program := afterLastSlash first
    if program = "env".toList then more.find? (·.head? ≠ some '-') else some program

/-- Whether a program word is the interpreter's name with a version after it. -/
def isVersionOf (name : String) (program : List Char) : Bool :=
  match after? name.toList program with
  | some version => version.all fun d => d.isDigit || d = '.'
  | none => false

/-- The language of the first interpreter of a table that a program word is a version of. -/
def interpreterIn? (table : List (String × Language)) (program : List Char) :
    Option Language :=
  (table.find? fun entry => isVersionOf entry.1 program).map (·.2)

/-- The language of an interpreter line. -/
def ofShebang? (line : List Char) : Option Language :=
  (programWord? line).bind (interpreterIn? interpreters)

end SourceOutline.Language
