import SourceOutline.Proofs.Handler

/-!
# Sessions

A session is an analyzer with the files and the clock around it, and a call is anything
that is done with them: outlines of sources and files, queries, lookups of grammars and
query files, registrations of patterns, changes of the files, and time that goes by. The
grammar engine stays the same. Calls are made one after the other, and each is whole
before the next begins.

Whatever the call, an analyzer only learns: `Analyzer.Extends` is what a step does, and by
induction what a whole run does. So every reachable analyzer is sound. Calls that register
no patterns leave those that are registered alone.

## Main results

* `Session.extends_step`, `Session.extends_run`: a call and a run extend the analyzer.
* `Session.uses_step`: a call that registers nothing leaves the registered patterns alone.
* `Reachable.sound`: the queries that a reachable analyzer remembers are right.
-/

namespace SourceOutline

variable {Q : Type}

namespace Analyzer

/-- What may happen to an analyzer: its handler is extended, and it stays as strict as it
was. -/
structure Extends (engine : Engine Q) (a a' : Analyzer Q) : Prop where
  handler : a.handler.Extends engine a'.handler
  strict_eq : a'.strict = a.strict

/-- `Extends` is reflexive. -/
theorem Extends.refl {engine : Engine Q} (a : Analyzer Q) : Extends engine a a :=
  ⟨.refl _, rfl⟩

/-- `Extends` is transitive. -/
theorem Extends.trans {engine : Engine Q} {first second third : Analyzer Q}
    (h : Extends engine first second) (h' : Extends engine second third) :
    Extends engine first third :=
  ⟨h.handler.trans h'.handler, h'.strict_eq.trans h.strict_eq⟩

/-- What asking an analyzer does to it: the registered patterns stay too. -/
structure Uses (engine : Engine Q) (a a' : Analyzer Q) : Prop where
  handler : a.handler.Uses engine a'.handler
  strict_eq : a'.strict = a.strict

/-- `Uses` is reflexive. -/
theorem Uses.refl {engine : Engine Q} (a : Analyzer Q) : Uses engine a a :=
  ⟨.refl _, rfl⟩

/-- `Uses` is transitive. -/
theorem Uses.trans {engine : Engine Q} {first second third : Analyzer Q}
    (h : Uses engine first second) (h' : Uses engine second third) : Uses engine first third :=
  ⟨h.handler.trans h'.handler, h'.strict_eq.trans h.strict_eq⟩

/-- A use extends the analyzer. -/
theorem Uses.extends {engine : Engine Q} {a a' : Analyzer Q} (h : Uses engine a a') :
    Extends engine a a' :=
  ⟨h.handler.toExtends, h.strict_eq⟩

/-- A lookup in the service is a use. -/
theorem uses_of_keeps {engine : Engine Q} (a : Analyzer Q) {service : LanguageService}
    (h : a.handler.service.Keeps service) :
    Uses engine a { a with handler := { a.handler with service } } :=
  ⟨a.handler.uses_of_keeps h, rfl⟩

/-- Registering patterns extends an analyzer, also with a lookup in the service. -/
theorem extends_of_keeps {engine : Engine Q} (a : Analyzer Q) {service : LanguageService}
    (h : a.handler.service.Keeps service) (registry : Registry) :
    Extends engine a { a with handler := { a.handler with service, registry } } :=
  ⟨a.handler.extends_of_keeps h registry, rfl⟩

/-- `parse` is a use. -/
theorem uses_parse (a : Analyzer Q) (host : Host Q) (content : Bytes) (language : Language) :
    Uses host.engine a (a.parse host content language).2 := by
  have hkeeps := a.handler.service.keeps_bind host.files language
  rw [← LanguageService.bindParser_snd] at hkeeps
  have hbound : a.handler.Uses host.engine _ := a.handler.uses_of_keeps hkeeps
  unfold parse
  dsimp only
  split
  · exact ⟨hbound, rfl⟩
  · exact ⟨hbound, rfl⟩

/-- What comes after parsing is a use of the analyzer that has parsed. -/
theorem uses_parseContent_of_parse (a : Analyzer Q) (host : Host Q) (content : Bytes)
    (language : Language) :
    Uses host.engine (a.parse host content language).2
      (a.parseContent host content language).2 := by
  unfold parseContent
  dsimp only
  split
  · exact .refl _
  · rename_i t ht
    have hanalyze := (a.parse host content language).2.handler.uses_analyze host t
      (a.parse host content language).2.strict
    split
    · exact ⟨hanalyze, rfl⟩
    · exact ⟨hanalyze, rfl⟩

/-- `parseContent` is a use. -/
theorem uses_parseContent (a : Analyzer Q) (host : Host Q) (content : Bytes)
    (language : Language) :
    Uses host.engine a (a.parseContent host content language).2 :=
  (a.uses_parse host content language).trans
    (a.uses_parseContent_of_parse host content language)

/-- `parseNamed` is a use: the name of the language is resolved first. -/
theorem uses_parseNamed (a : Analyzer Q) (host : Host Q) (content : Bytes) (name : String) :
    Uses host.engine a (a.parseNamed host content name).2 := by
  unfold parseNamed
  split
  · exact .refl a
  · exact a.uses_parseContent host content _

/-- `parseFile` is a use, also if the file cannot be read. -/
theorem uses_parseFile (a : Analyzer Q) (host : Host Q) (path : Path) :
    Uses host.engine a (a.parseFile host path).2 := by
  unfold parseFile
  split
  · exact .refl a
  · exact a.uses_parseContent host _ _

/-- `parseBatch` is a use, by induction over the files. -/
theorem uses_parseBatch (host : Host Q) (files : List (Path × (Category → Query.Clock)))
    (a : Analyzer Q) : Uses host.engine a (parseBatch host files a).2 := by
  induction files generalizing a with
  | nil => exact .refl a
  | cons file files ih => exact (a.uses_parseFile (host.withClocks file.2) file.1).trans (ih _)

end Analyzer

/-- An analyzer with the files and the clock around it. -/
structure Session (Q : Type) where
  analyzer : Analyzer Q
  files : FileTree
  /-- The clock, as it is read during the next call. -/
  clocks : Category → Query.Clock

/-- Something that is done in a session. -/
inductive Call where
  /-- A tree is built from a source. -/
  | parse (content : Bytes) (language : Language)
  | parseContent (content : Bytes) (language : Language)
  | parseNamed (content : Bytes) (name : String)
  | parseFile (path : Path)
  | parseBatch (files : List (Path × (Category → Query.Clock)))
  | findCategory (t : SyntaxTree) (root : Handle) (category : Category)
  | compile (language : Language) (category : Category) (text : String)
  | findNodesByType (t : SyntaxTree) (root : Handle) (kind : String)
  /-- The grammar of a language is asked for. -/
  | bind (language : Language)
  | bindParser (language : Language)
  | isSupported (language : Language)
  | supportedLanguages
  /-- A grammar is asked of the loader. -/
  | loadGrammar (name : String)
  /-- A query file is asked of the loader. -/
  | loadQuery (name kind : String)
  | register (scope : Scope) (category : Category) (text : String)
  | applyOverrides (overrides : PatternOverrides)
  | loadExternal (languages : List Language)
  /-- The files change. -/
  | changeFiles (files : FileTree)
  /-- Time goes by, and later calls read the clock as given. -/
  | passTime (clocks : Category → Query.Clock)

/-- Whether a call registers patterns. -/
def Call.isRegistration : Call → Bool
  | .register .. | .applyOverrides _ | .loadExternal _ => true
  | _ => false

namespace Session

/-- What lies outside of a session while a call is made. -/
def host (s : Session Q) (engine : Engine Q) : Host Q where
  files := s.files
  engine := engine
  clocks := s.clocks

/-- The session after its analyzer has changed. -/
def withAnalyzer (s : Session Q) (analyzer : Analyzer Q) : Session Q :=
  { s with analyzer }

/-- The session after its handler has changed. -/
def withHandler (s : Session Q) (handler : QueryHandler Q) : Session Q :=
  s.withAnalyzer { s.analyzer with handler }

/-- The session after its service has changed. -/
def withService (s : Session Q) (service : LanguageService) : Session Q :=
  s.withHandler { s.analyzer.handler with service }

/-- The session after its loader has changed. -/
def withLoader (s : Session Q) (loader : GrammarLoader) : Session Q :=
  s.withService { s.analyzer.handler.service with loader }

/-- The session after a call. -/
def step (engine : Engine Q) (s : Session Q) : Call → Session Q
  | .parse content language =>
    s.withAnalyzer (s.analyzer.parse (s.host engine) content language).2
  | .parseContent content language =>
    s.withAnalyzer (s.analyzer.parseContent (s.host engine) content language).2
  | .parseNamed content name =>
    s.withAnalyzer (s.analyzer.parseNamed (s.host engine) content name).2
  | .parseFile path => s.withAnalyzer (s.analyzer.parseFile (s.host engine) path).2
  | .parseBatch files =>
    s.withAnalyzer (Analyzer.parseBatch (s.host engine) files s.analyzer).2
  | .findCategory t root category =>
    s.withHandler (s.analyzer.handler.findCategory (s.host engine) t root category).2
  | .compile language category text =>
    s.withHandler (s.analyzer.handler.compile (s.host engine) language category text).2
  | .findNodesByType t root kind =>
    s.withHandler (s.analyzer.handler.findNodesByType (s.host engine) t root kind).2
  | .bind language => s.withService (s.analyzer.handler.service.bind s.files language).2
  | .bindParser language =>
    s.withService (s.analyzer.handler.service.bindParser s.files language).2
  | .isSupported language =>
    s.withService (s.analyzer.handler.service.isSupported s.files language).2
  | .supportedLanguages =>
    s.withService (s.analyzer.handler.service.supportedLanguages s.files).2
  | .loadGrammar name => s.withLoader (s.analyzer.handler.service.loader.get s.files name).2
  | .loadQuery name kind =>
    s.withLoader (s.analyzer.handler.service.loader.query s.files name kind).2
  | .register scope category text =>
    s.withAnalyzer (s.analyzer.withRegistry
      (s.analyzer.handler.registry.register scope category text))
  | .applyOverrides overrides =>
    s.withAnalyzer (s.analyzer.withRegistry
      (s.analyzer.handler.registry.applyOverrides overrides).2)
  | .loadExternal languages =>
    let loading :=
      s.analyzer.handler.registry.loadExternal s.analyzer.handler.service.loader s.files
        languages
    (s.withLoader loading.loader).withAnalyzer
      ((s.withLoader loading.loader).analyzer.withRegistry loading.registry)
  | .changeFiles files => { s with files }
  | .passTime clocks => { s with clocks }

/-- The session after calls, one after the other. -/
def run (engine : Engine Q) (calls : List Call) (s : Session Q) : Session Q :=
  calls.foldl (step engine) s

/-- A use of the loader settles no outcome. -/
theorem keeps_withLoader (s : Session Q) (loader : GrammarLoader) :
    s.analyzer.handler.service.Keeps { s.analyzer.handler.service with loader } :=
  fun _ _ hsettled => hsettled

/-- **A call that registers nothing only uses the analyzer** (`Uses`). -/
theorem uses_step (engine : Engine Q) (s : Session Q) {call : Call}
    (h : call.isRegistration = false) :
    s.analyzer.Uses engine (s.step engine call).analyzer := by
  let service := s.analyzer.handler.service
  cases call with
  | parse content language => exact s.analyzer.uses_parse (s.host engine) content language
  | parseContent content language =>
    exact s.analyzer.uses_parseContent (s.host engine) content language
  | parseNamed content name => exact s.analyzer.uses_parseNamed (s.host engine) content name
  | parseFile path => exact s.analyzer.uses_parseFile (s.host engine) path
  | parseBatch files => exact Analyzer.uses_parseBatch (s.host engine) files s.analyzer
  | findCategory t root category =>
    exact ⟨s.analyzer.handler.uses_findCategory (s.host engine) t root category, rfl⟩
  | compile language category text =>
    exact ⟨s.analyzer.handler.uses_compile (s.host engine) language category text, rfl⟩
  | findNodesByType t root kind =>
    exact ⟨s.analyzer.handler.uses_findNodesByType (s.host engine) t root kind, rfl⟩
  | bind language => exact s.analyzer.uses_of_keeps (service.keeps_bind s.files language)
  | bindParser language =>
    have hkeeps := service.keeps_bind s.files language
    rw [← service.bindParser_snd] at hkeeps
    exact s.analyzer.uses_of_keeps hkeeps
  | isSupported language =>
    exact s.analyzer.uses_of_keeps (service.keeps_isSupported s.files language)
  | supportedLanguages =>
    exact s.analyzer.uses_of_keeps (service.keeps_supportedAmong s.files Language.all)
  | loadGrammar name => exact s.analyzer.uses_of_keeps (s.keeps_withLoader _)
  | loadQuery name kind => exact s.analyzer.uses_of_keeps (s.keeps_withLoader _)
  | register scope category text => cases h
  | applyOverrides overrides => cases h
  | loadExternal languages => cases h
  | changeFiles files => exact .refl s.analyzer
  | passTime clocks => exact .refl s.analyzer

/-- **A call extends the analyzer**, also one that registers patterns (`Extends`). -/
theorem extends_step (engine : Engine Q) (s : Session Q) (call : Call) :
    s.analyzer.Extends engine (s.step engine call).analyzer := by
  cases hregistration : call.isRegistration with
  | false => exact (s.uses_step engine hregistration).extends
  | true =>
    cases call with
    | register scope category text => exact s.analyzer.extends_of_keeps (.refl _) _
    | applyOverrides overrides => exact s.analyzer.extends_of_keeps (.refl _) _
    | loadExternal languages => exact s.analyzer.extends_of_keeps (s.keeps_withLoader _) _
    | _ => cases hregistration

/-- **A run extends the analyzer**, by induction over its calls. -/
theorem extends_run (engine : Engine Q) (calls : List Call) (s : Session Q) :
    s.analyzer.Extends engine (s.run engine calls).analyzer := by
  induction calls generalizing s with
  | nil => exact .refl s.analyzer
  | cons call calls ih => exact (s.extends_step engine call).trans (ih (s.step engine call))

end Session

/-! ### Reachable sessions -/

/-- An analyzer that has compiled nothing yet. The service may have been used by others
before. -/
def Analyzer.IsNew (a : Analyzer Q) : Prop :=
  a.handler.compiled = []

/-- An analyzer with the built-in patterns starts out new. -/
theorem Analyzer.isNew_default (env : Environment) : (Analyzer.default (Q := Q) env).IsNew :=
  rfl

/-- The sessions that calls lead to, from a new analyzer on. -/
inductive Reachable (engine : Engine Q) : Session Q → Prop where
  | new {s : Session Q} (h : s.analyzer.IsNew) : Reachable engine s
  | step {s : Session Q} (h : Reachable engine s) (call : Call) :
    Reachable engine (s.step engine call)

/-- Runs lead from reachable sessions to reachable ones. -/
theorem Reachable.run {engine : Engine Q} {s : Session Q} (h : Reachable engine s)
    (calls : List Call) :
    Reachable engine (s.run engine calls) := by
  induction calls generalizing s with
  | nil => exact h
  | cons call calls ih => exact ih (h.step call)

/-- **The queries that a reachable analyzer remembers are right**: its handler is
`Sound`. -/
theorem Reachable.sound {engine : Engine Q} {s : Session Q} (h : Reachable engine s) :
    s.analyzer.handler.Sound engine := by
  induction h with
  | new hnew => exact QueryHandler.sound_of_compiled_eq_nil hnew
  | @step s _ call ih => exact (s.extends_step engine call).handler.sound ih

end SourceOutline
