import SourceOutline.Grammar.Basic
import SourceOutline.Pattern.Registry
import SourceOutline.Query.Reader

/-!
# The Words of Built-In Patterns

The words that the built-in patterns of a language use. The bundled grammars know all of them.
-/

namespace SourceOutline.Pattern

/-- The maximal runs of the characters of identifiers and the texts between double quotes. -/
def candidates (text : String) : Vocabulary :=
  let names := (text.toList.splitOnP fun c => !Query.Read.startsIdentifier c).map String.ofList
  let quoted := (text.splitOn "\"").filter (· ≠ "")
  { named := names, anonymous := quoted, fields := names }

/-- The words of a query text whose every word is known. -/
def wordsOf (text : String) : Vocabulary :=
  match Query.readText (candidates text) text.toList with
  | .ok (rules, _) => Query.Pattern.wordsOfEach (rules.map (·.pattern))
  | .error _ => .empty

/-- The words that the built-in patterns of a bundled language use. -/
def builtinWords (language : Language) : Vocabulary :=
  if (Grammar.bundled? language).isSome then
    (Registry.builtin.patternsFor language).foldl
      (fun words (_, text) => words.union (wordsOf text)) .empty
  else .empty

end SourceOutline.Pattern
