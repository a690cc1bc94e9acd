import SourceOutline.Data.Basic
import SourceOutline.Language.Basic
import SourceOutline.Path

/-!
# Grammars

What is known of a loaded grammar without parsing anything: the version of its interface
and the size of its vocabulary. Parsers accept the versions 13 to 15.
-/

namespace SourceOutline

/-- A loaded grammar. -/
structure Grammar where
  abiVersion : Nat
  nodeKindCount : Nat
  fieldCount : Nat
  deriving DecidableEq, Repr, Inhabited

namespace Grammar

/-- The oldest interface that parsers accept. -/
def minVersion : Nat := 13

/-- The newest interface that parsers accept. -/
def maxVersion : Nat := 15

/-- Whether parsers accept a grammar. -/
def isCompatible (g : Grammar) : Bool :=
  minVersion ≤ g.abiVersion && g.abiVersion ≤ maxVersion

/-- Why parsers refuse a grammar. -/
def refusal (g : Grammar) : String :=
  "Incompatible language version " ++ toString g.abiVersion ++ ". Expected minimum "
    ++ toString minVersion ++ ", maximum " ++ toString maxVersion

/-- The grammars that are always there. -/
def bundled? : Language → Option Grammar
  | .python => some ⟨14, 275, 32⟩
  | .javaScript => some ⟨14, 263, 36⟩
  | .typeScript => some ⟨14, 383, 40⟩
  | .tsx => some ⟨14, 400, 43⟩
  | .rust => some ⟨14, 355, 31⟩
  | .go => some ⟨14, 219, 35⟩
  | .java => some ⟨14, 321, 40⟩
  | .c => some ⟨14, 363, 39⟩
  | .cpp => some ⟨14, 543, 50⟩
  | .csharp => some ⟨15, 533, 26⟩
  | .ruby => some ⟨14, 351, 32⟩
  | .bash => some ⟨14, 280, 19⟩
  | .json => some ⟨14, 25, 2⟩
  | _ => none

end Grammar

/-- Where a grammar came from. -/
inductive Origin where
  | bundled
  | external (path : Path)
  deriving DecidableEq, Repr, Inhabited

/-- An origin as data. -/
def Origin.toData : Origin → Data
  | .bundled => .map [("kind", .str "bundled")]
  | .external path => .map [("kind", .str "external"), ("path", .str path.display)]

/-- A grammar that is bound to a language. -/
structure Binding where
  grammar : Grammar
  origin : Origin
  deriving DecidableEq, Repr, Inhabited

end SourceOutline
