import SourceOutline.Pattern.Overrides
import SourceOutline.Toml.Document

/-!
# Pattern Documents

A document of pattern overrides is read, decoded and applied as a whole.
-/

namespace SourceOutline

/-- Why a pattern document cannot be applied. -/
inductive PatternError where
  | document (error : DocumentError)
  | override (error : OverrideError)
  deriving Repr

/-- Registers the overrides of a document and gives their number. -/
def Registry.loadDocument (r : Registry) (text : String) :
    Except PatternError Nat × Registry :=
  match Toml.decode (PatternOverrides.decode .ignored) text with
  | .error e => (.error (.document e), r)
  | .ok overrides =>
    match r.applyOverrides overrides with
    | (.error e, r) => (.error (.override e), r)
    | (.ok count, r) => (.ok count, r)

end SourceOutline
