import SourceOutline.Data.Basic

/-!
# Language Features

Which constructs a language has. Readers of an outline tell by them whether an empty list
means "nothing there" or "not applicable". The presets are the starting points of the
descriptor table.
-/

namespace SourceOutline

/-- Which constructs a language has. -/
structure Features where
  hasTypes : Bool
  hasClasses : Bool
  hasFunctions : Bool
  hasModules : Bool
  hasDecorators : Bool
  hasDocstrings : Bool
  hasInterfaces : Bool
  hasGenerics : Bool
  hasAsync : Bool
  hasExceptions : Bool
  deriving DecidableEq, Repr

namespace Features

/-- Every construct. -/
def all : Features :=
  ⟨true, true, true, true, true, true, true, true, true, true⟩

/-- No construct. -/
def none : Features :=
  ⟨false, false, false, false, false, false, false, false, false, false⟩

/-- A statically typed language with classes, modules and generics. -/
def typed : Features :=
  { none with
    hasTypes := true, hasClasses := true, hasFunctions := true, hasModules := true,
    hasInterfaces := true, hasGenerics := true, hasExceptions := true }

/-- A dynamically typed scripting language. -/
def scripting : Features :=
  { none with
    hasClasses := true, hasFunctions := true, hasModules := true, hasExceptions := true }

/-- Functions and sourcing, nothing else. -/
def shell : Features :=
  { none with hasFunctions := true, hasModules := true }

/-- Data, markup and build formats. -/
def dataFormat : Features :=
  none

/-- The presets by name. -/
def presets : List (String × Features) :=
  [("all", all), ("none", none), ("typed", typed), ("scripting", scripting), ("shell", shell),
   ("data_format", dataFormat)]

/-- The features as data, a truth value under each name. -/
def toData (f : Features) : Data :=
  .map
    [("has_types", .bool f.hasTypes), ("has_classes", .bool f.hasClasses),
     ("has_functions", .bool f.hasFunctions), ("has_modules", .bool f.hasModules),
     ("has_decorators", .bool f.hasDecorators), ("has_docstrings", .bool f.hasDocstrings),
     ("has_interfaces", .bool f.hasInterfaces), ("has_generics", .bool f.hasGenerics),
     ("has_async", .bool f.hasAsync), ("has_exceptions", .bool f.hasExceptions)]

end Features

end SourceOutline
