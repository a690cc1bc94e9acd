import SourceOutline.Category
import SourceOutline.Hash.Blake3
import SourceOutline.Json.Writer
import SourceOutline.Tree.Summary

/-!
# Outline Metadata

The metadata of an outline are what identical sources have in common. They are sealed with
a fingerprint: the hash of their text with the fingerprint left empty.

## Main statements

* `sealed_sealed`: sealing again changes nothing.
-/

namespace SourceOutline

/-- What identical sources have in common. -/
structure Metadata where
  functionNames : List String := []
  classNames : List String := []
  importNames : List String := []
  namedFunctions : Nat := 0
  anonymousFunctions : Nat := 0
  hasErrors : Bool := false
  hasMissing : Bool := false
  errorLocations : List Position := []
  missingLocations : List Position := []
  /-- Categories without a pattern. -/
  unsupportedCategories : List Category := []
  /-- Categories whose run was cut off. -/
  truncatedCategories : List Category := []
  lineCount : Nat := 0
  /-- The hash of the rest. -/
  fingerprint : String := ""
  deriving DecidableEq, Repr, Inhabited

namespace Metadata

/-- Metadata as data. -/
def toData (m : Metadata) : Data :=
  .map
    [("function_names", .strs m.functionNames), ("class_names", .strs m.classNames),
     ("import_names", .strs m.importNames), ("named_functions", .nat m.namedFunctions),
     ("anonymous_functions", .nat m.anonymousFunctions), ("has_errors", .bool m.hasErrors),
     ("has_missing", .bool m.hasMissing),
     ("error_locations", .seq (m.errorLocations.map Position.toData)),
     ("missing_locations", .seq (m.missingLocations.map Position.toData)),
     ("unsupported_categories", .strs (m.unsupportedCategories.map Category.name)),
     ("truncated_categories", .strs (m.truncatedCategories.map Category.name)),
     ("line_count", .nat m.lineCount), ("fingerprint", .str m.fingerprint)]

/-- The text that the fingerprint is the hash of. -/
def sealedText (m : Metadata) : String :=
  Json.render { m with fingerprint := "" }.toData

/-- The metadata with their fingerprint. -/
def sealed (m : Metadata) : Metadata :=
  { m with fingerprint := Blake3.hexHash (Text.encode m.sealedText) }

/-- Sealing again changes nothing. -/
theorem sealed_sealed (m : Metadata) : m.sealed.sealed = m.sealed := rfl

end Metadata

end SourceOutline
