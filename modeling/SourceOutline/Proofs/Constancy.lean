import SourceOutline.Proofs.History
import SourceOutline.Proofs.Outcomes
import SourceOutline.Proofs.QueryCache

/-!
# Answers While the Files Stay

Asking an analyzer something may settle languages, load grammars, compile queries and
number trees. As long as the files stay the same, nothing of this shows in any other
answer: an outcome that is not settled yet would be the same later, a query that is not
compiled yet would compile to the same, and the number of a tree can be exchanged.

`Concurs` is what asking does under this condition. It strengthens `Uses` by the outcomes
that are not settled yet.

## Main results

* `QueryHandler.concurs_findCategory`, `Analyzer.concurs_parse`: what asking leaves behind
  concurs.
* `QueryHandler.Concurs.findCategory_fst`: handlers that concur give the same answers.
* `QueryHandler.runCategories_fst_eq_askAll`: the answers of an analysis are those that
  the handler gives at its start.
* `Analyzer.Concurs.parseFile_fst`: analyzers that concur give the same outlines, but for
  the number of the tree.
-/

namespace SourceOutline

variable {Q : Type}

/-! ### Services -/

namespace LanguageService

/-- Two services have the same outcome for every language, settled or not, while there are
some files. -/
def Agrees (files : FileTree) (service service' : LanguageService) : Prop :=
  ∀ language, (service'.bind files language).1 = (service.bind files language).1

/-- `bind` leaves a service that agrees. -/
theorem agrees_bind (service : LanguageService) (files : FileTree) (language : Language) :
    service.Agrees files (service.bind files language).2 :=
  service.bind_bind_fst files language

end LanguageService

/-! ### Handlers -/

namespace QueryHandler

/-- What asking a handler does to it while the files stay: it is used, and no outcome
changes. -/
structure Concurs (engine : Engine Q) (files : FileTree) (handler handler' : QueryHandler Q) :
    Prop extends
    Uses engine handler handler' where
  agrees : handler.service.Agrees files handler'.service

variable {engine : Engine Q} {files : FileTree} {host : Host Q}
  {handler handler' : QueryHandler Q}

/-- `Concurs` is reflexive. -/
theorem Concurs.refl (handler : QueryHandler Q) : Concurs engine files handler handler :=
  ⟨.refl handler, fun _ => rfl⟩

/-- `Concurs` is transitive. -/
theorem Concurs.trans {first second third : QueryHandler Q}
    (h : Concurs engine files first second) (h' : Concurs engine files second third) :
    Concurs engine files first third :=
  ⟨h.toUses.trans h'.toUses, fun language => (h'.agrees language).trans (h.agrees language)⟩

/-- `bind` leaves a handler that concurs. -/
theorem concurs_bind (handler : QueryHandler Q) (host : Host Q) (language : Language) :
    Concurs host.engine host.files handler
      { handler with service := (handler.service.bind host.files language).2 } :=
  ⟨handler.uses_of_keeps (handler.service.keeps_bind host.files language),
    handler.service.agrees_bind host.files language⟩

/-- `compile` settles the language of a query, unless the query is remembered. -/
theorem service_compile (handler : QueryHandler Q) (host : Host Q) (language : Language)
    (category : Category) (text : String) :
    (handler.compile host language category text).2.service = handler.service ∨
    (handler.compile host language category text).2.service =
      (handler.service.bind host.files language).2 := by
  have hbuild := handler.build_snd host language category text
  unfold compile
  cases handler.compiled.lookup (language, text) with
  | some query => exact Or.inl rfl
  | none =>
    dsimp only
    rw [hbuild]
    cases (handler.build host language category text).1 with
    | ok query => exact Or.inr rfl
    | error e => exact Or.inr rfl

/-- `compile` leaves a handler that concurs. -/
theorem concurs_compile (handler : QueryHandler Q) (host : Host Q) (language : Language)
    (category : Category) (text : String) :
    Concurs host.engine host.files handler
      (handler.compile host language category text).2 := by
  refine ⟨handler.uses_compile host language category text, ?_⟩
  rcases handler.service_compile host language category text with hservice | hservice
  · rw [hservice]
    exact fun _ => rfl
  · rw [hservice]
    exact handler.service.agrees_bind host.files language

/-- `findCategory` leaves a handler that concurs. -/
theorem concurs_findCategory (handler : QueryHandler Q) (host : Host Q) (t : SyntaxTree)
    (root : Handle) (category : Category) :
    Concurs host.engine host.files handler (handler.findCategory host t root category).2 := by
  cases hpattern : handler.registry.patternFor category t.language with
  | none =>
    rw [findCategory_of_none hpattern]
    exact .refl handler
  | some text =>
    rw [findCategory_of_pattern hpattern]
    exact handler.concurs_compile host t.language category text

/-- What `build` gives depends on the outcome for the language only. -/
theorem build_fst_congr {language : Language}
    (h : (handler'.service.bind host.files language).1 =
      (handler.service.bind host.files language).1)
    (category : Category) (text : String) :
    (handler'.build host language category text).1 =
      (handler.build host language category text).1 := by
  unfold build
  dsimp only
  rw [h]
  cases (handler.service.bind host.files language).1 with
  | ok binding => rfl
  | error e => rfl

/-- **Handlers that concur give the same answers**: so does `findCategory`. -/
theorem Concurs.findCategory_fst (h : handler.Concurs host.engine host.files handler')
    (hsound : handler.Sound host.engine) (t : SyntaxTree) (root : Handle)
    (category : Category) :
    (handler'.findCategory host t root category).1 =
      (handler.findCategory host t root category).1 := by
  have hpatterns := congrArg (Registry.patternFor · category t.language) h.registry_eq
  cases hpattern : handler.registry.patternFor category t.language with
  | none => rw [findCategory_of_none hpattern, findCategory_of_none (hpatterns.trans hpattern)]
  | some text =>
    have hcompile : (handler'.compile host t.language category text).1 =
        (handler.compile host t.language category text).1 := by
      rw [(compile_eq_build hsound t.language category text).1,
        (compile_eq_build (h.sound hsound) t.language category text).1]
      exact build_fst_congr (h.agrees t.language) category text
    rw [findCategory_of_pattern hpattern, findCategory_of_pattern (hpatterns.trans hpattern)]
    dsimp only
    rw [hcompile, h.settingsFor]

/-- **The answers of an analysis are those that the handler gives at its start**:
`runCategories` is `askAll` of them. -/
theorem runCategories_fst_eq_askAll (hsound : handler.Sound host.engine) (t : SyntaxTree)
    (strict : Bool) (categories : List Category) (log : RunLog) :
    (runCategories host t strict categories handler log).1 =
      Basis.askAll strict (fun category =>
        (handler.findCategory host t t.rootHandle category).1) categories log := by
  induction categories generalizing handler log with
  | nil => rfl
  | cons category categories ih =>
    have hconcurs := handler.concurs_findCategory host t t.rootHandle category
    have hrest := fun log => ih (hconcurs.sound hsound) log
    simp only [hconcurs.findCategory_fst hsound t t.rootHandle] at hrest
    rw [runCategories, Basis.askAll]
    dsimp only
    cases log.record strict category (handler.findCategory host t t.rootHandle category).1 with
    | error e => rfl
    | ok noted =>
      obtain ⟨found, log'⟩ := noted
      dsimp only
      rw [← hrest log']
      rcases runCategories host t strict categories
        (handler.findCategory host t t.rootHandle category).2 log' with
        ⟨e | ⟨others, log''⟩, last⟩
      · rfl
      · rfl

end QueryHandler

/-! ### Analyzers -/

namespace Analyzer

/-- What asking an analyzer does to it while the files stay. -/
structure Concurs (engine : Engine Q) (files : FileTree) (a a' : Analyzer Q) : Prop where
  handler : a.handler.Concurs engine files a'.handler
  strict_eq : a'.strict = a.strict

variable {engine : Engine Q} {files : FileTree} {host : Host Q} {a a' : Analyzer Q}

/-- `Concurs` is reflexive. -/
theorem Concurs.refl (a : Analyzer Q) : Concurs engine files a a :=
  ⟨.refl _, rfl⟩

/-- `Concurs` is transitive. -/
theorem Concurs.trans {first second third : Analyzer Q} (h : Concurs engine files first second)
    (h' : Concurs engine files second third) : Concurs engine files first third :=
  ⟨h.handler.trans h'.handler, h'.strict_eq.trans h.strict_eq⟩

/-- `parse` leaves an analyzer that concurs. -/
theorem concurs_parse (a : Analyzer Q) (host : Host Q) (content : Bytes)
    (language : Language) :
    Concurs host.engine host.files a (a.parse host content language).2 := by
  refine ⟨?_, (a.uses_parse host content language).strict_eq⟩
  rw [handler_parse]
  exact a.handler.concurs_bind host language

/-- Analyzers that concur give the same outlines of sources, but for the number of the
tree, at times that the runs cannot tell apart. -/
theorem Concurs.parseContent_fst (h : a.Concurs host.engine host.files a')
    (hsound : a.handler.Sound host.engine) {clocks : Category → Query.Clock}
    (htime : a.handler.SameTimes host.clocks clocks) (content : Bytes) (language : Language) :
    (a'.parseContent (host.withClocks clocks) content language).1 =
      (a.parseContent host content language).1.map (Outline.renumber a'.nextTree) := by
  have hanalyze (grammar : Grammar) (t : SyntaxTree) :
      (a'.handler.basis (host.withClocks clocks) language grammar a'.strict).analyze t =
        (a.handler.basis host language grammar a.strict).analyze t := by
    have hpatterns (category : Category) :=
      congrArg (Registry.patternFor · category language) h.handler.registry_eq
    exact Basis.analyze_congr t rfl rfl (fun category _ => hpatterns category)
      (funext h.handler.settingsFor) htime h.strict_eq
  have hengine : (host.withClocks clocks).engine = host.engine := rfl
  exact parseContent_renumber hengine hsound (h.handler.sound hsound)
    (h.handler.agrees language) hanalyze
    content

/-- **Analyzers that concur give the same outlines of files**, but for the number of the
tree, at times that the runs cannot tell apart. -/
theorem Concurs.parseFile_fst (h : a.Concurs host.engine host.files a')
    (hsound : a.handler.Sound host.engine) {clocks : Category → Query.Clock}
    (htime : a.handler.SameTimes host.clocks clocks) (path : Path) :
    (a'.parseFile (host.withClocks clocks) path).1 =
      (a.parseFile host path).1.map (Outline.renumber a'.nextTree) := by
  have hfiles : (host.withClocks clocks).files = host.files := rfl
  unfold parseFile
  rw [hfiles]
  cases host.files.readBytes path with
  | error e => rfl
  | ok content => exact h.parseContent_fst hsound htime content _

end Analyzer

end SourceOutline
