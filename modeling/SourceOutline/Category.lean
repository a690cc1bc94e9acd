import SourceOutline.Data.Decoding
import SourceOutline.Text.Blank

/-!
# Categories

A category is what a pattern extracts from a tree. Seven are built in; every other name is
a custom one. Names are normalised by `Category.ofName`: blanks around them and ASCII case
do not matter, and the plural of a built-in name means the same.

## Main statements

* `ofName_name_of_builtin`: the name of a built-in category stands for it.
* `mem_builtins`: a category is built in or custom.
-/

namespace SourceOutline

/-- What a pattern extracts. -/
inductive Category where
  | functions
  | classes
  | imports
  /-- Places the grammar could not fit. -/
  | errors
  | comments
  | decorators
  | variables
  /-- Anything under another name. -/
  | custom (name : String)
  deriving DecidableEq, Repr, Inhabited

namespace Category

/-- The built-in categories in reporting order. -/
def builtins : List Category :=
  [.functions, .classes, .imports, .errors, .comments, .decorators, .variables]

/-- The name of a category. -/
def name : Category → String
  | .functions => "function"
  | .classes => "class"
  | .imports => "import"
  | .errors => "error"
  | .comments => "comment"
  | .decorators => "decorator"
  | .variables => "variable"
  | .custom name => name

/-- The plural of a built-in name. -/
def plural (category : Category) : String :=
  if category = .classes then "classes" else category.name ++ "s"

/-- Whether a category is none of the built-in ones. -/
def isCustom : Category → Bool
  | .custom _ => true
  | _ => false

/-- The category of a name in normal form. -/
def ofKey (key : String) : Category :=
  (builtins.find? fun category => category.name = key || category.plural = key).getD
    (.custom key)

/-- The category of a name. -/
def ofName (name : String) : Category :=
  ofKey (Text.trimmed name).toLower

/-- The name of a built-in category stands for it. -/
theorem ofName_name_of_builtin {category : Category} (h : category ∈ builtins) :
    ofName category.name = category := by
  simp only [builtins, List.mem_cons, List.not_mem_nil, or_false] at h
  rcases h with rfl | rfl | rfl | rfl | rfl | rfl | rfl <;> decide +kernel

/-- A category is built in or custom. -/
theorem mem_builtins {category : Category} (h : category.isCustom = false) :
    category ∈ builtins := by
  cases category with
  | custom => cases h
  | _ => decide

/-- The place of a category among the built-in ones; custom categories come last. -/
def rank : Category → Nat
  | .functions => 0
  | .classes => 1
  | .imports => 2
  | .errors => 3
  | .comments => 4
  | .decorators => 5
  | .variables => 6
  | .custom _ => 7

/-- The order of categories: the built-in ones in reporting order, then custom ones by name. -/
def le (a b : Category) : Bool :=
  a.rank < b.rank || (a.rank = b.rank && decide (a.name ≤ b.name))

/-- A category as data: its name. -/
def toData (category : Category) : Data :=
  .str category.name

/-- A category from data: any text. -/
def decode (d : Data) : Except DecodeError Category :=
  (d.decodeString "a string").map ofName

end Category

end SourceOutline
