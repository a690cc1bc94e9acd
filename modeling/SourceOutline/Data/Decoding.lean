import SourceOutline.Data.Basic

/-!
# Decoding Data Values

A decoder turns a `Data` value into a value of a domain type, or says why it is not one.
The five causes of failure and their wording stand in `DecodeError`.

A record is written as a map from field names to values or as a sequence of values in
field order. Its decoder is a fold over the fields that are present: `decodeRecord` calls
`set` for each of them, so absent fields keep the value of the start record. Unknown names
are refused. The notations differ in one rule, which is a parameter: whether a sequence
may hold more elements than there are fields.

-/

namespace SourceOutline

/-- Why a value cannot be decoded. -/
inductive DecodeError where
  /-- The value is of another kind than expected. -/
  | invalidType (found : Data) (expected : String)
  /-- The value is of the right kind and out of range. -/
  | invalidValue (found : Data) (expected : String)
  /-- The sequence has a wrong number of elements. -/
  | invalidLength (length : Nat) (expected : String)
  /-- The map has a key that is no field. -/
  | unknownField (name : String) (fields : List String)
  /-- The name is none of the alternatives. -/
  | unknownVariant (name : String) (variants : List String)
  deriving Inhabited, Repr

namespace DecodeError

/-- A name between backquotes. -/
def ticked (name : String) : String :=
  "`" ++ name ++ "`"

/-- The alternatives as a message lists them. -/
def expectedNames : List String → String
  | [] => "there are no fields"
  | [a] => "expected " ++ ticked a
  | [a, b] => "expected " ++ ticked a ++ " or " ++ ticked b
  | names => "expected one of " ++ ", ".intercalate (names.map ticked)

/-- The wording of an error. -/
def message : DecodeError → String
  | .invalidType found expected =>
    "invalid type: " ++ found.description ++ ", expected " ++ expected
  | .invalidValue found expected =>
    "invalid value: " ++ found.description ++ ", expected " ++ expected
  | .invalidLength n expected => "invalid length " ++ toString n ++ ", expected " ++ expected
  | .unknownField name fields =>
    "unknown field " ++ ticked name ++ ", " ++ expectedNames fields
  | .unknownVariant name variants =>
    "unknown variant " ++ ticked name ++ ", " ++ expectedNames variants

end DecodeError

namespace Data

/-- A truth value. -/
def decodeBool : Data → Except DecodeError Bool
  | .bool b => .ok b
  | d => .error (.invalidType d "a boolean")

/-- A text; `expected` says what it stands for. -/
def decodeString (expected : String) : Data → Except DecodeError String
  | .str s => .ok s
  | d => .error (.invalidType d expected)

/-- A natural number below `bound`; `expected` names the range. -/
def decodeNat (bound : Nat) (expected : String) : Data → Except DecodeError Nat
  | .int n =>
    if 0 ≤ n ∧ n < bound then .ok n.toNat else .error (.invalidValue (.int n) expected)
  | d => .error (.invalidType d expected)

/-- A natural number of 32 bits. -/
def decodeWord32 : Data → Except DecodeError Nat :=
  decodeNat 0x100000000 "u32"

/-- A natural number of 64 bits. -/
def decodeWord64 : Data → Except DecodeError Nat :=
  decodeNat 0x10000000000000000 "u64"

/-- Null, or a value of the inner decoder. -/
def decodeOption {α : Type} (decode : Data → Except DecodeError α) :
    Data → Except DecodeError (Option α)
  | .null => .ok none
  | d => (decode d).map some

/-- A sequence of values of the inner decoder. -/
def decodeSeq {α : Type} (decode : Data → Except DecodeError α) :
    Data → Except DecodeError (List α)
  | .seq elements => elements.mapM decode
  | d => .error (.invalidType d "a sequence")

/-- A map with values of the inner decoder, in document order. -/
def decodeMap {α : Type} (decode : Data → Except DecodeError α) :
    Data → Except DecodeError (List (String × α))
  | .map entries => entries.mapM fun (key, value) => do
      let decoded ← decode value
      .ok (key, decoded)
  | d => .error (.invalidType d "a map")

/-- One of a closed set of names: the name itself, or a map with the name as its only key
and null as the value. -/
def decodeVariant {α : Type} (variants : List (String × α)) (d : Data) :
    Except DecodeError α :=
  let find (name : String) : Except DecodeError α :=
    match variants.lookup name with
    | some value => .ok value
    | none => .error (.unknownVariant name (variants.map (·.1)))
  match d with
  | .str name => find name
  | .map [(name, content)] => do
    let value ← find name
    match content with
    | .null => .ok value
    | content => .error (.invalidType content "unit")
  | .map entries => .error (.invalidValue (.map entries) "map with a single key")
  | d => .error (.invalidType d "string or map")

/-- A record type as data: its name, its fields in order, and how a field's value enters a
record. -/
structure RecordFormat (α : Type) where
  name : String
  start : α
  fields : List (String × (Data → α → Except DecodeError α))

/-- Sets the field `key`, refusing keys that are no field. -/
def RecordFormat.setField {α : Type} (format : RecordFormat α) (record : α)
    (entry : String × Data) :
    Except DecodeError α :=
  match format.fields.lookup entry.1 with
  | some set => set entry.2 record
  | none => .error (.unknownField entry.1 (format.fields.map (·.1)))

/-- Whether a sequence that stands for a record may hold surplus elements. -/
inductive Surplus where
  | refused
  | ignored
  deriving DecidableEq, Repr

/-- A record, from a map or from a sequence. -/
def decodeRecord {α : Type} (surplus : Surplus) (format : RecordFormat α) :
    Data → Except DecodeError α
  | .map entries => entries.foldlM format.setField format.start
  | .seq elements => do
    let record ← (format.fields.zip elements).foldlM (fun r p => p.1.2 p.2 r) format.start
    if surplus = .refused ∧ format.fields.length < elements.length then
      .error (.invalidLength elements.length "fewer elements in array")
    else
      .ok record
  | d => .error (.invalidType d ("struct " ++ format.name))

end Data

end SourceOutline
