import SourceOutline.Proofs.Renumbering

/-!
# History Does Not Matter

Between two identical questions a session may go through anything: other sources and
files, queries, lookups, changed files, registered patterns. The second answer is that of
the first all the same, as long as the patterns in effect for the language are: the
grammar was settled by the first question at the latest, the limits and the strictness
never change, and what was compiled in between is what would be compiled now. Only the
number of the tree is another one.

## Main results

* `Basis.analyze_congr`: an analysis depends on the patterns of the four categories only.
* `Analyzer.parseContent_renumber`: analyzers that agree on a language give the same
  answers but for the number.
* `outline_history_independent`: two identical questions have the same answer, whatever
  happens between them.
-/

namespace SourceOutline

variable {Q : Type}

/-! ### Analyzers that agree -/

/-- `askAll` only depends on the answers of those categories that are asked. -/
theorem Basis.askAll_congr {ask ask' : Category → Except QueryError CategoryMatches}
    {categories : List Category} (h : ∀ category ∈ categories, ask' category = ask category)
    (strict : Bool) (log : RunLog) :
    askAll strict ask' categories log = askAll strict ask categories log := by
  induction categories generalizing log with
  | nil => rfl
  | cons category categories ih =>
    have hrest := ih fun other hother => h other (List.mem_cons_of_mem _ hother)
    rw [askAll, askAll, h category List.mem_cons_self]
    simp only [hrest]

/-- `Basis.analyze` depends on the patterns of the analyzed categories only, and on the
clock as far as their runs tell the time. -/
theorem Basis.analyze_congr {basis basis' : Basis Q} (t : SyntaxTree)
    (hengine : basis'.engine = basis.engine) (hcompile : basis'.compile = basis.compile)
    (hpatterns : ∀ category ∈ analyzedCategories, basis'.patternFor category =
      basis.patternFor category)
    (hsettings : basis'.settingsFor = basis.settingsFor)
    (htime : ∀ category ∈ analyzedCategories,
      (basis.settingsFor category).SameTime (basis.clocks category) (basis'.clocks category))
    (hstrict : basis'.strict = basis.strict) : basis'.analyze t = basis.analyze t := by
  have hask : ∀ category ∈ analyzedCategories, basis'.ask t category =
      basis.ask t category := by
    intro category hcategory
    rw [ask, ask, hpatterns category hcategory, hcompile, hengine, hsettings]
    simp only [SyntaxTree.matchesOf_of_sameTime (htime category hcategory)]
  rw [analyze, analyze, hstrict, askAll_congr hask]

namespace Analyzer

/-- The number of a tree does not matter for whether `treeFrom` builds it. -/
theorem treeFrom_renumber (engine : Engine Q) (outcome : Except LanguageError Binding)
    (id id' : Nat) (content : Bytes) (language : Language) :
    treeFrom engine outcome id' content language =
      (treeFrom engine outcome id content language).map (·.renumber id') := by
  unfold treeFrom
  cases outcome with
  | error e => rfl
  | ok binding =>
    dsimp only
    split
    · unfold SyntaxTree.parseWith
      cases engine.parse language binding.grammar content <;> rfl
    · rfl

/-- **Analyzers that agree on a language give the same answers**, but for the number of
the tree. -/
theorem parseContent_renumber {a a' : Analyzer Q} {host host' : Host Q} {language : Language}
    (hengine : host'.engine = host.engine) (hsound : a.handler.Sound host.engine)
    (hsound' : a'.handler.Sound host'.engine)
    (hbind : (a'.handler.service.bind host'.files language).1 =
      (a.handler.service.bind host.files language).1)
    (hanalyze : ∀ grammar t, (a'.handler.basis host' language grammar a'.strict).analyze t =
      (a.handler.basis host language grammar a.strict).analyze t)
    (content : Bytes) :
    (a'.parseContent host' content language).1 =
      (a.parseContent host content language).1.map (Outline.renumber a'.nextTree) := by
  have htree : (a'.parse host' content language).1 =
      (a.parse host content language).1.map (·.renumber a'.nextTree) := by
    rw [parse_fst, parse_fst, hbind, hengine]
    exact treeFrom_renumber ..
  cases hparse : (a.parse host content language).1 with
  | error e =>
    rw [hparse] at htree
    rw [parseContent_fst_of_error hparse, parseContent_fst_of_error htree]
    rfl
  | ok t =>
    rw [hparse] at htree
    have hok := hparse
    rw [parse_fst] at hok
    obtain ⟨binding, tree, hbinding, -, -, -⟩ := treeFrom_eq_ok hok
    rw [parseContent_fst_of_ok hsound hparse hbinding,
      parseContent_fst_of_ok hsound' htree (hbind.trans hbinding), hanalyze,
      Basis.analyze_renumber]
    cases (a.handler.basis host language binding.grammar a.strict).analyze t <;> rfl

/-- A language is `Settled` after a source in it was analyzed. -/
theorem settled_parseContent (a : Analyzer Q) (host : Host Q) (content : Bytes)
    (language : Language) :
    (a.parseContent host content language).2.handler.service.Settled language
      (a.handler.service.bind host.files language).1 := by
  have hparsed : (a.parse host content language).2.handler.service.Settled language
      (a.handler.service.bind host.files language).1 := by
    rw [handler_parse]
    exact a.handler.service.settled_bind host.files language
  exact (a.uses_parseContent_of_parse host content language).handler.keeps _ _ hparsed

end Analyzer

/-! ### Two questions in a session -/

namespace Session

/-- The answer to the question about a source. -/
def outline (engine : Engine Q) (s : Session Q) (content : Bytes) (language : Language) :
    Except AnalyzerError Outline :=
  (s.analyzer.parseContent (s.host engine) content language).1

/-- The pattern in effect for a category and a language. -/
def patternFor (s : Session Q) (category : Category) (language : Language) : Option String :=
  s.analyzer.handler.registry.patternFor category language

/-- A later answer is the first one with another number, if the patterns in effect are the
same. -/
theorem outline_run {engine : Engine Q} {s s' : Session Q} (h : Reachable engine s)
    {content : Bytes} {language : Language} {calls : List Call}
    (hrun : (s.step engine (.parseContent content language)).run engine calls = s')
    (hpatterns : ∀ category ∈ analyzedCategories, s'.patternFor category language =
      s.patternFor category language)
    (htime : s.analyzer.handler.SameTimes s.clocks s'.clocks) :
    s'.outline engine content language =
      (s.outline engine content language).map (Outline.renumber s'.analyzer.nextTree) := by
  have hafter : (s.step engine (.parseContent content language)).analyzer.Extends engine
      s'.analyzer := by
    rw [← hrun]
    exact extends_run engine calls _
  have hextends : s.analyzer.Extends engine s'.analyzer :=
    (s.extends_step engine (.parseContent content language)).trans hafter
  have hsound : s'.analyzer.handler.Sound engine := hextends.handler.sound h.sound
  -- the first question settles the grammar
  have hsettled : s'.analyzer.handler.service.Settled language
      (s.analyzer.handler.service.bind s.files language).1 :=
    hafter.handler.keeps _ _ (s.analyzer.settled_parseContent (s.host engine) content language)
  have hbind : (s'.analyzer.handler.service.bind s'.files language).1 =
      (s.analyzer.handler.service.bind s.files language).1 := by
    rw [hsettled.bind]
  have hanalyze (grammar : Grammar) (t : SyntaxTree) :
      (s'.analyzer.handler.basis (s'.host engine) language grammar s'.analyzer.strict).analyze
        t =
        (s.analyzer.handler.basis (s.host engine) language grammar s.analyzer.strict).analyze
          t :=
    Basis.analyze_congr t rfl rfl hpatterns (funext hextends.handler.settingsFor) htime
      hextends.strict_eq
  have hhost : (s'.host engine).engine = (s.host engine).engine := rfl
  exact Analyzer.parseContent_renumber hhost h.sound hsound hbind hanalyze content

/-- Every registration among calls leaves the patterns in effect for what is analyzed in a
language as they are. -/
def KeepsPatterns (engine : Engine Q) (language : Language) : List Call → Session Q → Prop
  | [], _ => True
  | call :: calls, s =>
    (call.isRegistration = true → ∀ category ∈ analyzedCategories,
      (s.step engine call).patternFor category language = s.patternFor category language) ∧
    KeepsPatterns engine language calls (s.step engine call)

/-- The patterns in effect are the same after calls whose registrations leave them as they
are. -/
theorem patternFor_run {engine : Engine Q} {language : Language} {calls : List Call}
    {s : Session Q} (h : KeepsPatterns engine language calls s) {category : Category}
    (hcategory : category ∈ analyzedCategories) :
    (s.run engine calls).patternFor category language = s.patternFor category language := by
  induction calls generalizing s with
  | nil => rfl
  | cons call calls ih =>
    obtain ⟨hregistration, hrest⟩ := h
    have hstep : (s.step engine call).patternFor category language =
        s.patternFor category language := by
      cases hcall : call.isRegistration with
      | true => exact hregistration hcall category hcategory
      | false => rw [patternFor, (s.uses_step engine hcall).handler.registry_eq, patternFor]
    exact (ih hrest).trans hstep

end Session

/-- The number of the tree does not show in `toData`. -/
theorem Outline.toData_renumber (outline : Outline) (id : Nat) :
    (outline.renumber id).toData = outline.toData := by
  simp only [toData, renumber, List.map_map]
  rfl

/-- **History does not matter**, whatever the engine parses, compiles and runs. Two
identical questions about a source have the same answer, whatever happens between them, as
long as registrations leave the patterns in effect for its language as they are, and no
run with a time budget is late in one case and not in the other (`SameTimes`, which asks
nothing if there are no budgets). The outlines differ at most in the number of the tree,
and have the same metadata and the same form as data. -/
theorem outline_history_independent {engine : Engine Q} {s s' : Session Q}
    (h : Reachable engine s) {content : Bytes} {language : Language} {calls : List Call}
    (hcalls : Session.KeepsPatterns engine language calls
      (s.step engine (.parseContent content language)))
    (hrun : (s.step engine (.parseContent content language)).run engine calls = s')
    (htime : s.analyzer.handler.SameTimes s.clocks s'.clocks) :
    (∀ id, (s'.outline engine content language).map (Outline.renumber id) =
      (s.outline engine content language).map (Outline.renumber id)) ∧
    (s'.outline engine content language).map (·.metadata) =
      (s.outline engine content language).map (·.metadata) ∧
    (s'.outline engine content language).map (·.toData) =
      (s.outline engine content language).map (·.toData) := by
  have hpatterns : ∀ category ∈ analyzedCategories,
      s'.patternFor category language = s.patternFor category language := by
    have hall : s.KeepsPatterns engine language (.parseContent content language :: calls) :=
      ⟨fun hregistration => (nomatch hregistration), hcalls⟩
    rw [← hrun]
    exact fun category hcategory => Session.patternFor_run hall hcategory
  rw [Session.outline_run h hrun hpatterns htime]
  cases s.outline engine content language with
  | error e => exact ⟨fun _ => rfl, rfl, rfl⟩
  | ok outline =>
    refine ⟨fun id => ?_, rfl, ?_⟩
    · exact congrArg Except.ok (outline.renumber_renumber _ id)
    · exact congrArg Except.ok (outline.toData_renumber _)

/-- A pattern for another language that does not compile was registered, another source
was analyzed, the files have changed and time has gone by, when the question is asked
again. There is no time budget. -/
theorem outline_history_independent_registered :
    let engine :=
      Query.engine (fun _ _ _ => some (.node default [])) fun _ _ => { named := ["module"] }
    let s : Session Query :=
      { analyzer := .default { home := some "/home" }, files := .empty,
        clocks := fun _ _ => 0 }
    let calls : List Call :=
      [.register (.language .rust) .classes "(module", .parseContent [32] .rust, .bind .go,
        .changeFiles { entries := [([[97]], .file [32])] },
        .passTime fun _ reading => 1000 * reading]
    let asked := s.step engine (.parseContent [10] .python)
    let s' := asked.run engine calls
    Reachable engine s ∧ asked.KeepsPatterns engine .python calls ∧
      s.analyzer.handler.SameTimes s.clocks s'.clocks ∧
      (s'.outline engine [10] .python).map (·.metadata) =
        (s.outline engine [10] .python).map (·.metadata) := by
  intro engine s calls asked s'
  have hreachable : Reachable engine s := .new (Analyzer.isNew_default _)
  have hother (r : Registry) (category : Category) :
      (r.register (.language .rust) .classes "(module").patternFor category .python =
        r.patternFor category .python := by
    simp [Registry.patternFor, Registry.lookup, Registry.get?_register]
  have hcalls : asked.KeepsPatterns engine .python calls :=
    ⟨fun _ category _ => hother _ category, fun h => (nomatch h), fun h => (nomatch h),
      fun h => (nomatch h), fun h => (nomatch h), trivial⟩
  have htime : s.analyzer.handler.SameTimes s.clocks s'.clocks := fun _ _ =>
    QuerySettings.sameTime_of_untimed rfl _ _
  exact ⟨hreachable, hcalls, htime,
    (outline_history_independent hreachable hcalls rfl htime).2.1⟩

end SourceOutline
