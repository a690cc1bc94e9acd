import SourceOutline.Pattern.Registry

/-!
# Pattern Overrides

Overrides are tables of patterns by language name and by family name, as a document gives
them. They are applied as a whole: a name that is no language or family leaves the
registry as it was. Names are taken in byte order, so that of two spellings of one
language the later one counts.
-/

namespace SourceOutline

/-- Patterns by name of a language or family, then by name of a category. -/
abbrev PatternTables := TextMap (TextMap String)

/-- Patterns of a document. -/
structure PatternOverrides where
  languages : PatternTables := .empty
  families : PatternTables := .empty
  deriving DecidableEq, Repr, Inhabited

namespace PatternOverrides

/-- Whether there is no table at all. -/
def isEmpty (overrides : PatternOverrides) : Bool :=
  overrides.languages.isEmpty && overrides.families.isEmpty

/-- Tables from data. -/
def decodeTables (d : Data) : Except DecodeError PatternTables := do
  let tables ← d.decodeMap fun table => do
    let texts ← table.decodeMap (Data.decodeString "a string")
    .ok (TextMap.ofEntries texts)
  .ok (TextMap.ofEntries tables)

/-- How overrides are written: both tables may be absent. -/
def format : Data.RecordFormat PatternOverrides where
  name := "PatternOverrides"
  start := {}
  fields :=
    [("languages", fun d o => (decodeTables d).map fun tables =>
      { o with languages := tables }),
     ("families", fun d o => (decodeTables d).map fun tables => { o with families := tables })]

/-- Overrides from data. -/
def decode (surplus : Data.Surplus) (d : Data) : Except DecodeError PatternOverrides :=
  d.decodeRecord surplus format

end PatternOverrides

/-- Why overrides cannot be applied. -/
inductive OverrideError where
  | language (error : LanguageError)
  | unknownFamily (name : String)
  deriving DecidableEq, Repr

/-- The wording of an error. -/
def OverrideError.message : OverrideError → String
  | .language error => error.message
  | .unknownFamily name => Family.unknownMessage name

/-- A pattern to be registered. -/
structure Registration where
  scope : Scope
  category : Category
  text : String
  deriving DecidableEq, Repr

namespace Registration

/-- What a table for a language is for. -/
def languageScope (name : String) : Except OverrideError Scope :=
  match Language.parse name with
  | .ok language => .ok (.language language)
  | .error e => .error (.language e)

/-- What a table for a family is for. -/
def familyScope (name : String) : Except OverrideError Scope :=
  match Family.ofName? name with
  | some family => .ok (.family family)
  | none => .error (.unknownFamily name)

/-- The registrations of one table. -/
def ofTable (scope : Scope) (table : TextMap String) : List Registration :=
  table.entries.map fun (name, text) => { scope, category := Category.ofName name, text }

/-- The registrations of tables, if all their names are good. -/
def ofTables (scopeOf : String → Except OverrideError Scope) :
    List (String × TextMap String) → Except OverrideError (List Registration)
  | [] => .ok []
  | (name, table) :: tables => do
    let scope ← scopeOf name
    let registrations ← ofTables scopeOf tables
    .ok (ofTable scope table ++ registrations)

end Registration

namespace Registry

/-- Registers patterns in order. -/
def registerAll (r : Registry) (registrations : List Registration) : Registry :=
  registrations.foldl (fun r entry => r.register entry.scope entry.category entry.text) r

/-- Registers overrides and gives their number. All names are checked before anything is
registered. -/
def applyOverrides (r : Registry) (overrides : PatternOverrides) :
    Except OverrideError Nat × Registry :=
  match Registration.ofTables Registration.languageScope overrides.languages.entries with
  | .error e => (.error e, r)
  | .ok languages =>
    match Registration.ofTables Registration.familyScope overrides.families.entries with
    | .error e => (.error e, r)
    | .ok families =>
      (.ok (languages.length + families.length),
        (r.registerAll families).registerAll languages)

end Registry

end SourceOutline
