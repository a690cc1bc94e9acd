import SourceOutline.Data.Decoding
import SourceOutline.Text.Blank

/-!
# Language Families

A family is a group of languages that share a baseline of patterns.
-/

namespace SourceOutline

/-- A group of languages with common patterns. -/
inductive Family where
  /-- JavaScript, TypeScript and TSX. -/
  | ecmaScript
  /-- C and C++. -/
  | cFamily
  /-- Bash and fish. -/
  | shell
  deriving DecidableEq, Repr, Inhabited

namespace Family

/-- Every family. -/
def all : List Family :=
  [.ecmaScript, .cFamily, .shell]

/-- `all` lists every family. -/
theorem mem_all (f : Family) : f ∈ all := by
  cases f <;> decide

/-- The identifier of a family. -/
def id : Family → String
  | .ecmaScript => "ecmascript"
  | .cFamily => "cfamily"
  | .shell => "shell"

/-- The family a name stands for. Blanks around the name and ASCII case do not matter. -/
def ofName? (name : String) : Option Family :=
  all.find? (·.id = (Text.trimmed name).toLower)

/-- Every identifier names its own family. -/
theorem ofName?_id (f : Family) : ofName? f.id = some f := by
  cases f <;> decide +kernel

/-- The wording of the refusal of a name that is no family. -/
def unknownMessage (name : String) : String :=
  "unknown language family '" ++ name ++ "'"

/-- A family from data: exactly its identifier. -/
def decode (d : Data) : Except DecodeError Family :=
  d.decodeVariant (all.map fun f => (f.id, f))

end Family

end SourceOutline
