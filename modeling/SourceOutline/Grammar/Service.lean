import SourceOutline.Grammar.Loader
import SourceOutline.Language.Descriptor

/-!
# The Language Service

The service binds languages to grammars: bundled ones, else those of its loader. The
outcome for a language is settled when it is first asked for, failures included, and never
changes afterwards.
-/

namespace SourceOutline

/-- The service with the outcomes that are settled. -/
structure LanguageService where
  loader : GrammarLoader
  outcomes : List (Language × Except LanguageError Binding) := []

namespace LanguageService

/-- A service without settled outcomes. -/
def ofLoader (loader : GrammarLoader) : LanguageService where
  loader := loader

/-- Looks for the grammar of a language. -/
def load (service : LanguageService) (files : FileTree) (language : Language) :
    Except LanguageError Binding × GrammarLoader :=
  match language.grammar? with
  | none => (.error (.unsupported language), service.loader)
  | some name =>
    match Grammar.bundled? language with
    | some grammar => (.ok { grammar, origin := .bundled }, service.loader)
    | none =>
      match service.loader.get files name with
      | (some grammar, loader) =>
        (.ok { grammar, origin := .external ((loader.loadedPath? name).getD (Path.ofString ""))
          }, loader)
      | (none, loader) => (.error (.grammarNotFound language name), loader)

/-- The grammar of a language, settled now if it was not before. -/
def bind (service : LanguageService) (files : FileTree) (language : Language) :
    Except LanguageError Binding × LanguageService :=
  match service.outcomes.lookup language with
  | some outcome => (outcome, service)
  | none =>
    let (outcome, loader) := service.load files language
    (outcome, { loader, outcomes := (language, outcome) :: service.outcomes })

/-- Whether an outcome is a grammar. -/
def isBound : Except LanguageError Binding → Bool
  | .ok _ => true
  | .error _ => false

/-- Whether a language has a grammar. -/
def isSupported (service : LanguageService) (files : FileTree) (language : Language) :
    Bool × LanguageService :=
  let (outcome, service) := service.bind files language
  (isBound outcome, service)

/-- The languages of a list that have a grammar, in order. -/
def supportedAmong (service : LanguageService) (files : FileTree) :
    List Language → List Language × LanguageService
  | [] => ([], service)
  | language :: languages =>
    let (supported, service) := service.isSupported files language
    let (others, service) := service.supportedAmong files languages
    (if supported then language :: others else others, service)

/-- All languages that have a grammar. -/
def supportedLanguages (service : LanguageService) (files : FileTree) :
    List Language × LanguageService :=
  service.supportedAmong files Language.all

/-- The grammar of a language, as far as parsers accept it. -/
def bindParser (service : LanguageService) (files : FileTree) (language : Language) :
    Except LanguageError Binding × LanguageService :=
  let (outcome, service) := service.bind files language
  match outcome with
  | .ok binding =>
    if binding.grammar.isCompatible then (.ok binding, service)
    else (.error (.incompatible language binding.grammar.refusal), service)
  | .error e => (.error e, service)

/-- A bound grammar as data. -/
def bindingData (language : Language) (binding : Binding) : Data :=
  .map
    [("language", .str language.id), ("grammar", .str (language.grammar?.getD language.id)),
     ("abi_version", .nat binding.grammar.abiVersion),
     ("node_kind_count", .nat binding.grammar.nodeKindCount),
     ("field_count", .nat binding.grammar.fieldCount), ("origin", binding.origin.toData)]

end LanguageService

end SourceOutline
