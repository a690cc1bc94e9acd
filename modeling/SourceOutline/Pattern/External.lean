import SourceOutline.Grammar.Loader
import SourceOutline.Pattern.Registry

/-!
# Patterns from Query Files

Query files that stand beside grammars give patterns for the built-in categories. They
enter the layer of the language.
-/

namespace SourceOutline.Registry

/-- A registry in the making: the registry, the loader, and the number of files found so
far. -/
structure Loading where
  registry : Registry
  loader : GrammarLoader
  found : Nat

/-- Registers the query file of one category, if there is one. -/
def Loading.category (state : Loading) (files : FileTree) (language : Language)
    (grammar : String) (category : Category) : Loading :=
  match state.loader.query files grammar category.name with
  | (some text, loader) =>
    { registry := state.registry.register (.language language) category text
      loader
      found := state.found + 1 }
  | (none, loader) => { state with loader }

/-- Registers the query files of one language. -/
def Loading.language (state : Loading) (files : FileTree) (language : Language) : Loading :=
  match language.grammar? with
  | none => state
  | some grammar =>
    Category.builtins.foldl (fun state category =>
      state.category files language grammar category) state

/-- Registers the query files of some languages. -/
def loadExternal (registry : Registry) (loader : GrammarLoader) (files : FileTree)
    (languages : List Language) : Loading :=
  languages.foldl (fun state language => state.language files language)
    { registry, loader, found := 0 }

end SourceOutline.Registry
