import SourceOutline.Data.Decoding
import SourceOutline.Toml.Reader

/-!
# Decoding Documents

A document is read as data first and decoded afterwards, so that decoding errors are only
reported of documents that are well formed.
-/

namespace SourceOutline

/-- Why a document is refused. -/
inductive DocumentError where
  /-- The document is malformed. -/
  | malformed
  /-- The document is well formed and does not say what it should. -/
  | undecodable (error : DecodeError)
  deriving Repr, Inhabited

/-- What is wrong with a document that is well formed. -/
def DocumentError.message? : DocumentError → Option String
  | .malformed => none
  | .undecodable error => some error.message

/-- Reads and decodes a document. -/
def Toml.decode {α : Type} (decoder : Data → Except DecodeError α) (text : String) :
    Except DocumentError α :=
  match Toml.read? text with
  | none => .error .malformed
  | some data =>
    match decoder data with
    | .ok value => .ok value
    | .error e => .error (.undecodable e)

end SourceOutline
