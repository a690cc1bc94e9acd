import SourceOutline.Analyzer

/-!
# What Is Remembered

The service remembers the outcome for each language, and the handler remembers the queries
that it has compiled. Nothing that is remembered is ever wrong: a settled outcome stays,
and a remembered query is what compiling its text for the settled grammar of its language
gives. So a question that was asked before has the answer that it would have without any
memory.

## Main results

* `LanguageService.Keeps`: the outcomes that are settled stay; every lookup does that.
* `QueryHandler.Sound`: the remembered queries are right.
* `QueryHandler.Extends`: what may happen to a handler: outcomes stay, and a sound handler
  stays sound.
* `QueryHandler.Uses`: what asking a handler does to it; the registered patterns stay too.
* `QueryHandler.compile_fst`: a sound handler compiles as if it remembered nothing.
-/

namespace SourceOutline

namespace LanguageService

/-! ### Settled outcomes -/

/-- The outcome for a language is settled. -/
def Settled (service : LanguageService) (language : Language)
    (outcome : Except LanguageError Binding) : Prop :=
  service.outcomes.lookup language = some outcome

/-- All outcomes that are settled in one service are settled in another. -/
def Keeps (service service' : LanguageService) : Prop :=
  ∀ language outcome, service.Settled language outcome → service'.Settled language outcome

/-- `Keeps` is reflexive. -/
theorem Keeps.refl (service : LanguageService) : service.Keeps service :=
  fun _ _ h => h

/-- `Keeps` is transitive. -/
theorem Keeps.trans {first second third : LanguageService} (h : first.Keeps second)
    (h' : second.Keeps third) :
    first.Keeps third :=
  fun language outcome hsettled => h' language outcome (h language outcome hsettled)

/-- A language has one `Settled` outcome. -/
theorem Settled.unique {service : LanguageService} {language : Language}
    {outcome outcome' : Except LanguageError Binding} (h : service.Settled language outcome)
    (h' : service.Settled language outcome') : outcome = outcome' :=
  Option.some.inj (h.symm.trans h')

/-- A `Settled` outcome is what `bind` gives again, and the service stays as it is. -/
theorem Settled.bind {service : LanguageService} {language : Language}
    {outcome : Except LanguageError Binding} (h : service.Settled language outcome)
    (files : FileTree) :
    service.bind files language = (outcome, service) := by
  rw [LanguageService.bind, h]

/-- The outcome that `bind` gives is settled from then on. -/
theorem settled_bind (service : LanguageService) (files : FileTree) (language : Language) :
    (service.bind files language).2.Settled language (service.bind files language).1 := by
  unfold LanguageService.bind
  split
  · rename_i outcome hlookup
    exact hlookup
  · exact List.lookup_cons_self

/-- `bind` takes back no settled outcome. -/
theorem keeps_bind (service : LanguageService) (files : FileTree) (language : Language) :
    service.Keeps (service.bind files language).2 := by
  intro other outcome hsettled
  unfold LanguageService.bind
  split
  · exact hsettled
  · rename_i hlookup
    have hne : other ≠ language := by
      rintro rfl
      rw [Settled, hlookup] at hsettled
      cases hsettled
    rw [Settled, List.lookup_cons, beq_false_of_ne hne]
    exact hsettled

/-- Parsers are bound like languages: `bindParser` leaves the service that `bind`
leaves. -/
theorem bindParser_snd (service : LanguageService) (files : FileTree) (language : Language) :
    (service.bindParser files language).2 = (service.bind files language).2 := by
  unfold bindParser
  dsimp only
  split
  · split <;> rfl
  · rfl

/-- `isSupported` takes back no settled outcome. -/
theorem keeps_isSupported (service : LanguageService) (files : FileTree)
    (language : Language) :
    service.Keeps (service.isSupported files language).2 :=
  service.keeps_bind files language

/-- `supportedAmong` takes back no settled outcome. -/
theorem keeps_supportedAmong (service : LanguageService) (files : FileTree)
    (languages : List Language) :
    service.Keeps (service.supportedAmong files languages).2 := by
  induction languages generalizing service with
  | nil => exact Keeps.refl service
  | cons language languages ih => exact (service.keeps_isSupported files language).trans (ih _)

end LanguageService

namespace QueryHandler

variable {Q : Type}

/-! ### Remembered queries -/

/-- Every remembered query is what its text compiles to for the settled grammar of its
language. -/
def Sound (engine : Engine Q) (handler : QueryHandler Q) : Prop :=
  ∀ language text query, handler.compiled.lookup (language, text) = some query →
    ∃ binding, handler.service.Settled language (.ok binding) ∧
      engine.compile language binding.grammar text = .ok query

/-- What may happen to a handler: settled outcomes stay, remembered queries stay right,
and the limits are left alone. -/
structure Extends (engine : Engine Q) (handler handler' : QueryHandler Q) : Prop where
  keeps : handler.service.Keeps handler'.service
  sound : handler.Sound engine → handler'.Sound engine
  settings_eq : handler'.settings = handler.settings
  categorySettings_eq : handler'.categorySettings = handler.categorySettings

variable {engine : Engine Q}

/-- `Extends` is reflexive. -/
theorem Extends.refl (handler : QueryHandler Q) : Extends engine handler handler :=
  ⟨.refl _, id, rfl, rfl⟩

/-- `Extends` is transitive. -/
theorem Extends.trans {first second third : QueryHandler Q} (h : Extends engine first second)
    (h' : Extends engine second third) : Extends engine first third :=
  ⟨h.keeps.trans h'.keeps, h'.sound ∘ h.sound, h'.settings_eq.trans h.settings_eq,
    h'.categorySettings_eq.trans h.categorySettings_eq⟩

/-- What asking a handler does to it: the registered patterns are left alone too. -/
structure Uses (engine : Engine Q) (handler handler' : QueryHandler Q) : Prop extends
    Extends engine handler handler' where
  registry_eq : handler'.registry = handler.registry

/-- `Uses` is reflexive. -/
theorem Uses.refl (handler : QueryHandler Q) : Uses engine handler handler :=
  ⟨.refl handler, rfl⟩

/-- `Uses` is transitive. -/
theorem Uses.trans {first second third : QueryHandler Q} (h : Uses engine first second)
    (h' : Uses engine second third) : Uses engine first third :=
  ⟨h.toExtends.trans h'.toExtends, h'.registry_eq.trans h.registry_eq⟩

/-- The limits of each category stay as they are. -/
theorem Extends.settingsFor {handler handler' : QueryHandler Q}
    (h : Extends engine handler handler') (category : Category) :
    handler'.settingsFor category = handler.settingsFor category := by
  rw [QueryHandler.settingsFor, h.settings_eq, h.categorySettings_eq, QueryHandler.settingsFor]

/-- A handler without remembered queries is `Sound`. -/
theorem sound_of_compiled_eq_nil {handler : QueryHandler Q} (h : handler.compiled = []) :
    handler.Sound engine := by
  intro language text query hlookup
  rw [h] at hlookup
  cases hlookup

/-- More settled outcomes do no harm, whatever the registered patterns. -/
theorem extends_of_keeps (handler : QueryHandler Q) {service : LanguageService}
    (h : handler.service.Keeps service) (registry : Registry) :
    Extends engine handler { handler with service, registry } := by
  refine ⟨h, fun hsound language text query hlookup => ?_, rfl, rfl⟩
  obtain ⟨binding, hsettled, hrest⟩ := hsound language text query hlookup
  exact ⟨binding, h _ _ hsettled, hrest⟩

/-- A lookup in the service is a use, since it `Keeps` what is settled. -/
theorem uses_of_keeps (handler : QueryHandler Q) {service : LanguageService}
    (h : handler.service.Keeps service) :
    Uses engine handler { handler with service } :=
  ⟨handler.extends_of_keeps h handler.registry, rfl⟩

/-- `build` settles the language and remembers nothing. -/
theorem build_snd (handler : QueryHandler Q) (host : Host Q) (language : Language)
    (category : Category) (text : String) :
    (handler.build host language category text).2 =
      { handler with service := (handler.service.bind host.files language).2 } := by
  unfold build
  dsimp only
  split <;> rfl

/-- What `build` gives is compiled by the engine for the grammar that is settled then. -/
theorem compile_of_build_eq_ok {handler : QueryHandler Q} {host : Host Q} {language : Language}
    {category : Category} {text : String} {query : Q}
    (h : (handler.build host language category text).1 = .ok query) :
    ∃ binding, (handler.service.bind host.files language).1 = .ok binding ∧
      host.engine.compile language binding.grammar text = .ok query := by
  unfold build at h
  dsimp only at h
  split at h
  · rename_i binding hbind
    dsimp only at h
    unfold compileFor at h
    split at h
    · rename_i compiled hcompile
      cases h
      exact ⟨binding, hbind, hcompile⟩
    · cases h
  · cases h

/-- Remembering what a text compiles to for the settled grammar is a use. -/
theorem uses_remember (handler : QueryHandler Q) {language : Language} {text : String}
    {query : Q} {binding : Binding}
    (hsettled : handler.service.Settled language (.ok binding))
    (hcompile : engine.compile language binding.grammar text = .ok query) :
    Uses engine handler
      { handler with compiled := ((language, text), query) :: handler.compiled } := by
  refine ⟨⟨.refl _, fun hsound otherLanguage otherText other hlookup => ?_, rfl, rfl⟩, rfl⟩
  by_cases hkey : (otherLanguage, otherText) = (language, text)
  · obtain ⟨rfl, rfl⟩ := Prod.mk.inj hkey
    rw [List.lookup_cons_self] at hlookup
    cases hlookup
    exact ⟨binding, hsettled, hcompile⟩
  · rw [List.lookup_cons, beq_false_of_ne hkey] at hlookup
    exact hsound otherLanguage otherText other hlookup

/-- `compile` is a use, whether or not the query is remembered. -/
theorem uses_compile (handler : QueryHandler Q) (host : Host Q) (language : Language)
    (category : Category) (text : String) :
    Uses host.engine handler (handler.compile host language category text).2 := by
  have hbuild := handler.build_snd host language category text
  have hbound : Uses host.engine handler (handler.build host language category text).2 := by
    rw [hbuild]
    exact handler.uses_of_keeps (handler.service.keeps_bind host.files language)
  unfold compile
  split
  · exact .refl handler
  · dsimp only
    split
    · rename_i query hquery
      obtain ⟨binding, hbind, hcompile⟩ := compile_of_build_eq_ok hquery
      -- the language of the new entry has just been settled
      have hsettled : (handler.build host language category text).2.service.Settled language
          (.ok binding) := by
        rw [hbuild, ← hbind]
        exact handler.service.settled_bind host.files language
      exact hbound.trans (uses_remember _ hsettled hcompile)
    · exact hbound

/-- **A sound handler compiles as if it remembered nothing**: `compile` gives what the
engine gives. -/
theorem compile_fst {handler : QueryHandler Q} {host : Host Q} {language : Language}
    {binding : Binding} (hsound : handler.Sound host.engine)
    (hsettled : handler.service.Settled language (.ok binding)) (category : Category)
    (text : String) :
    (handler.compile host language category text).1 =
      (host.engine.compile language binding.grammar text).mapError
        (.compile language category) := by
  unfold compile
  split
  · rename_i query hlookup
    obtain ⟨binding', hsettled', hcompile⟩ := hsound language text query hlookup
    obtain rfl := Except.ok.inj (hsettled.unique hsettled')
    rw [hcompile]
    rfl
  · have hbuild : (handler.build host language category text).1 =
        (host.engine.compile language binding.grammar text).mapError
          (.compile language category) := by
      rw [build, hsettled.bind]
      dsimp only
      rw [compileFor]
      cases host.engine.compile language binding.grammar text <;> rfl
    dsimp only
    rw [← hbuild]
    split
    · rename_i hquery
      rw [hquery]
    · rename_i hquery
      rw [hquery]

/-- `findCategory` is a use. -/
theorem uses_findCategory (handler : QueryHandler Q) (host : Host Q) (t : SyntaxTree)
    (root : Handle) (category : Category) :
    Uses host.engine handler (handler.findCategory host t root category).2 := by
  unfold findCategory
  split
  · exact .refl handler
  · exact handler.uses_compile host t.language category _

/-- `findNodesByType` is a use. -/
theorem uses_findNodesByType (handler : QueryHandler Q) (host : Host Q) (t : SyntaxTree)
    (root : Handle) (kind : String) :
    Uses host.engine handler (handler.findNodesByType host t root kind).2 := by
  have hsnd : (handler.findNodesByType host t root kind).2 =
      (handler.build host t.language target (kindQuery kind)).2 := rfl
  rw [hsnd, build_snd]
  exact handler.uses_of_keeps (handler.service.keeps_bind host.files t.language)

/-- `runCategories` is a use, by induction over the categories. -/
theorem uses_runCategories (host : Host Q) (t : SyntaxTree) (strict : Bool)
    (categories : List Category) (handler : QueryHandler Q) (log : RunLog) :
    Uses host.engine handler (runCategories host t strict categories handler log).2 := by
  induction categories generalizing handler log with
  | nil => exact .refl handler
  | cons category categories ih =>
    have hfirst := handler.uses_findCategory host t t.rootHandle category
    rw [runCategories]
    dsimp only
    split
    · exact hfirst
    · rename_i found log' hrecord
      have hrest := ih (handler.findCategory host t t.rootHandle category).2 log'
      split
      · rename_i e handler' hrun
        rw [hrun] at hrest
        exact hfirst.trans hrest
      · rename_i others log'' handler' hrun
        rw [hrun] at hrest
        exact hfirst.trans hrest

/-- A whole analysis is a use. -/
theorem uses_analyze (handler : QueryHandler Q) (host : Host Q) (t : SyntaxTree)
    (strict : Bool) :
    Uses host.engine handler (Outline.analyze handler host t strict).2 := by
  have hrun := uses_runCategories host t strict analyzedCategories handler {}
  unfold Outline.analyze
  dsimp only
  split
  · exact hrun
  · split
    · exact hrun
    · exact hrun

end QueryHandler

end SourceOutline
