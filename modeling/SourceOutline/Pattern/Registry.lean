import SourceOutline.Language.Descriptor
import SourceOutline.OrderedMap
import SourceOutline.Pattern.Builtin

/-!
# The Pattern Registry

A registry holds query patterns in three layers: one for all languages, one for each
family, one for each language. The pattern in effect for a language is that of its own
layer, else of its family's, else of the base (`lookup`). All patterns in effect come from
the layers put over each other, the base at the bottom (`patternsFor`). Registrations are
only ever added; the latest one for a scope and category counts.

## Main statements

* `get?_register`: a registration is what its own scope and category give, and changes no
  others.
-/

namespace SourceOutline

/-- What a pattern was registered for. -/
inductive Scope where
  | base
  | family (family : Family)
  | language (language : Language)
  deriving DecidableEq, Repr, Inhabited

/-- Which layer a lookup reads. -/
inductive Layer where
  | base
  | family
  | language
  /-- The language's layer, else the family's, else the base. -/
  | effective
  deriving DecidableEq, Repr, Inhabited

/-- Registered patterns, the latest first. -/
structure Registry where
  entries : List ((Scope × Category) × String)
  deriving Repr, Inhabited

namespace Registry

/-- The registry without patterns. -/
def empty : Registry where
  entries := []

/-- The pattern of a scope and category. -/
def get? (r : Registry) (scope : Scope) (category : Category) : Option String :=
  r.entries.lookup (scope, category)

/-- Registers a pattern. -/
def register (r : Registry) (scope : Scope) (category : Category) (text : String) :
    Registry where
  entries := ((scope, category), text) :: r.entries

/-- A registration is what its own scope and category give, and changes no others. -/
theorem get?_register (r : Registry) (scope scope' : Scope) (category category' : Category)
    (text : String) :
    (r.register scope category text).get? scope' category'
      = if scope' = scope ∧ category' = category then some text
        else r.get? scope' category' := by
  unfold register get?
  rw [List.lookup_cons]
  by_cases h : scope' = scope ∧ category' = category
  · obtain ⟨rfl, rfl⟩ := h
    simp
  · have hne : ((scope', category') == (scope, category)) = false := by
      rw [beq_eq_false_iff_ne]
      intro he
      exact h ⟨congrArg Prod.fst he, congrArg Prod.snd he⟩
    simp [h, hne]

/-- Registers the patterns of a table. -/
def registerTable (r : Registry) (scope : Scope) (table : Pattern.Builtin.Table) : Registry :=
  table.foldl (fun r (category, text) => r.register scope category text) r

/-- The registry with the built-in patterns. -/
def builtin : Registry :=
  let base := empty.registerTable .base Pattern.Builtin.base
  let families := Family.all.foldl
    (fun r family => r.registerTable (.family family) (Pattern.Builtin.ofFamily family)) base
  Language.all.foldl
    (fun r language => r.registerTable (.language language)
      (Pattern.Builtin.ofLanguage language))
    families

/-- The scopes that count for a language, its own first. -/
def scopesOf (language : Language) : List Scope :=
  .language language :: (language.family.toList.map .family ++ [.base])

/-- The pattern of a category for a language in one layer. -/
def lookup (r : Registry) (layer : Layer) (category : Category) (language : Language) :
    Option String :=
  let ofFamily := language.family.bind fun family => r.get? (.family family) category
  match layer with
  | .base => r.get? .base category
  | .family => ofFamily
  | .language => r.get? (.language language) category
  | .effective =>
    ((r.get? (.language language) category).or ofFamily).or (r.get? .base category)

/-- The pattern in effect. -/
def patternFor (r : Registry) (category : Category) (language : Language) : Option String :=
  r.lookup .effective category language

/-- Whether any layer has a pattern. -/
def supports (r : Registry) (category : Category) (language : Language) : Bool :=
  (r.patternFor category language).isSome

/-- The patterns of a scope, in the order of their categories. -/
def patternsOf (r : Registry) (scope : Scope) : List (Category × String) :=
  (r.entries.filter (·.1.1 = scope)).foldr
    (fun entry => insertEntry Category.le entry.1.2 entry.2) []

/-- The patterns of scopes put over each other, those of the last at the bottom. -/
def merged (r : Registry) (scopes : List Scope) : List (Category × String) :=
  scopes.foldr (fun scope patterns => insertEntries Category.le patterns (r.patternsOf scope))
    []

/-- The patterns in effect for a language, in the order of their categories. -/
def patternsFor (r : Registry) (language : Language) : List (Category × String) :=
  r.merged (scopesOf language)

end Registry

end SourceOutline
