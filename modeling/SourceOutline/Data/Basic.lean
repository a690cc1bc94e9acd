import SourceOutline.Decimal.Shortest
import SourceOutline.Text.Quoted

/-!
# Data Values

`Data` is the value of a data document, whatever its notation: JSON values and TOML
documents are both read into it, and results are written from it. A map keeps its entries
in document order; `Data.get?` looks a key up.
-/

namespace SourceOutline

/-- A value of a data document. -/
inductive Data where
  | null
  | bool (value : Bool)
  | int (value : Int)
  | float (value : Double)
  | str (value : String)
  | seq (elements : List Data)
  | map (entries : List (String × Data))
  deriving Inhabited, Repr

namespace Data

/-- The value under a key of a map. -/
def get? : Data → String → Option Data
  | .map entries, key => entries.lookup key
  | _, _ => none

/-- A natural number as a value. -/
def nat (n : Nat) : Data :=
  .int (Int.ofNat n)

/-- A text, or null. -/
def optStr : Option String → Data
  | some s => .str s
  | none => .null

/-- A natural number, or null. -/
def optNat : Option Nat → Data
  | some n => .nat n
  | none => .null

/-- A sequence of texts. -/
def strs (ss : List String) : Data :=
  .seq (ss.map .str)

/-- What a message calls a value: its kind, and the value itself where it is short. -/
def description : Data → String
  | .null => "null"
  | .bool b => "boolean `" ++ (if b then "true" else "false") ++ "`"
  | .int n => "integer `" ++ toString n ++ "`"
  | .float d => "floating point `" ++ d.text ++ "`"
  | .str s => "string " ++ Text.quote s
  | .seq _ => "sequence"
  | .map _ => "map"

end Data

end SourceOutline
