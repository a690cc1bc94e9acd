import SourceOutline.Proofs.Captures
import SourceOutline.Proofs.Session
import SourceOutline.Query.Engine

/-!
# The Remembered Queries Cannot Be Noticed

A handler remembers the queries that it has compiled. A query that is remembered is given
without asking for the grammar of its language, while a query that is not remembered has
to wait for the grammar to be found. The two agree since a query is only remembered after
the grammar of its language is settled: then asking for the grammar changes nothing, and
compiling the text gives the query that is remembered.

So every answer of a reachable handler is the one that it would give if it had forgotten
all queries. The registry, the limits and the service are the same afterwards, too.

## Main results

* `build_of_lookup`: what is remembered is what compiling afresh gives, and changes nothing.
* `compile_cases`: what asking for a query gives, and what it leaves behind.
* `query_cache_transparent`: answers with and without remembered queries, and what is
  remembered.
-/

namespace SourceOutline

namespace QueryHandler

variable {Q : Type}

/-! ### Questions -/

/-- A question to a handler. -/
inductive Question where
  | findCategory (t : SyntaxTree) (root : Handle) (category : Category)
  | compile (language : Language) (category : Category) (text : String)
  | findNodesByType (t : SyntaxTree) (root : Handle) (kind : String)

/-- What a handler answers. -/
inductive Answer (Q : Type) where
  | found (outcome : Except QueryError CategoryMatches)
  | compiled (outcome : Except QueryError Q)
  | nodes (outcome : Except QueryError (List Handle))

/-- The answer to a question, and the handler afterwards. -/
def ask (handler : QueryHandler Q) (host : Host Q) : Question → Answer Q × QueryHandler Q
  | .findCategory t root category =>
    let (outcome, handler) := handler.findCategory host t root category
    (.found outcome, handler)
  | .compile language category text =>
    let (outcome, handler) := handler.compile host language category text
    (.compiled outcome, handler)
  | .findNodesByType t root kind =>
    let (outcome, handler) := handler.findNodesByType host t root kind
    (.nodes outcome, handler)

/-- The text that a question wants compiled and remembered, with its language and category. -/
def wanted? (handler : QueryHandler Q) : Question → Option (Language × Category × String)
  | .findCategory t _ category =>
    (handler.registry.patternFor category t.language).map fun text =>
      (t.language, category, text)
  | .compile language category text => some (language, category, text)
  | .findNodesByType .. => none

/-- The limits of the run that a question asks for, with the category that it is timed
under. -/
def limits? (handler : QueryHandler Q) : Question → Option (Category × QuerySettings)
  | .findCategory _ _ category => some (category, handler.settingsFor category)
  | .compile .. => none
  | .findNodesByType .. => some (target, handler.settings)

/-- Clocks that the run of a question cannot tell apart. -/
def SameTime (handler : QueryHandler Q) (question : Question)
    (clocks clocks' : Category → Query.Clock) : Prop :=
  ∀ category settings, handler.limits? question = some (category, settings) →
    settings.SameTime (clocks category) (clocks' category)

/-- A handler that has forgotten all queries. -/
def forget (handler : QueryHandler Q) : QueryHandler Q :=
  { handler with compiled := [] }

/-! ### Compiling with and without memory -/

variable {handler : QueryHandler Q} {host : Host Q}

/-- `build` does not look at what is remembered. -/
theorem build_forget (handler : QueryHandler Q) (host : Host Q) (language : Language)
    (category : Category) (text : String) :
    handler.forget.build host language category text =
      ((handler.build host language category text).1,
        (handler.build host language category text).2.forget) := by
  unfold build forget
  dsimp only
  split <;> rfl

/-- **What is remembered is what `build` gives**, and compiling afresh would change
nothing. -/
theorem build_of_lookup (hsound : handler.Sound host.engine) {language : Language}
    {text : String} {query : Q}
    (hlookup : handler.compiled.lookup (language, text) = some query) (category : Category) :
    handler.build host language category text = (.ok query, handler) := by
  obtain ⟨binding, hsettled, hcompile⟩ := hsound language text query hlookup
  rw [build, hsettled.bind]
  dsimp only
  rw [compileFor, hcompile]

/-- `build` leaves what is remembered alone. -/
theorem compiled_build (handler : QueryHandler Q) (host : Host Q) (language : Language)
    (category : Category) (text : String) :
    (handler.build host language category text).2.compiled = handler.compiled := by
  rw [build_snd]

/-- **What asking a sound handler for a query does.** `compile` gives what `build` gives,
and leaves the same behind, but for a query that compiled, which is remembered from then
on. -/
theorem compile_cases (hsound : handler.Sound host.engine) (language : Language)
    (category : Category) (text : String) :
    (∃ e, (handler.build host language category text).1 = .error e ∧
      handler.compile host language category text =
        handler.build host language category text) ∨
    ∃ query compiled, (handler.build host language category text).1 = .ok query ∧
      handler.compile host language category text =
        (.ok query, { (handler.build host language category text).2 with compiled }) ∧
      ∀ key, compiled.lookup key = if key = (language, text) then some query
        else handler.compiled.lookup key := by
  unfold compile
  cases hlookup : handler.compiled.lookup (language, text) with
  | some query =>
    rw [build_of_lookup hsound hlookup]
    refine Or.inr ⟨query, handler.compiled, rfl, rfl, fun key => ?_⟩
    by_cases hkey : key = (language, text)
    · rw [if_pos hkey, hkey, hlookup]
    · rw [if_neg hkey]
  | none =>
    have hcompiled := handler.compiled_build host language category text
    rcases hbuild : handler.build host language category text with ⟨e | query, handler'⟩
    · exact Or.inl ⟨e, rfl, rfl⟩
    · rw [hbuild] at hcompiled
      refine Or.inr ⟨query, _, rfl, rfl, fun key => ?_⟩
      rw [List.lookup_cons, show handler'.compiled = _ from hcompiled]
      by_cases hkey : key = (language, text)
      · rw [if_pos hkey, beq_iff_eq.2 hkey]
      · rw [if_neg hkey, beq_false_of_ne hkey]

/-- `compile` of a sound handler gives what `build` gives. -/
theorem compile_eq_build (hsound : handler.Sound host.engine) (language : Language)
    (category : Category) (text : String) :
    (handler.compile host language category text).1 =
      (handler.build host language category text).1 ∧
    (handler.compile host language category text).2.forget =
      (handler.build host language category text).2.forget := by
  rcases compile_cases hsound language category text with
    ⟨e, -, hcompile⟩ | ⟨query, compiled, hbuild, hcompile, -⟩
  · rw [hcompile]
    exact ⟨rfl, rfl⟩
  · rw [hcompile, hbuild]
    exact ⟨rfl, rfl⟩

/-- `compile` of a sound handler gives what it gives without memory. -/
theorem compile_forget (hsound : handler.Sound host.engine) (language : Language)
    (category : Category) (text : String) :
    (handler.forget.compile host language category text).1 =
      (handler.compile host language category text).1 ∧
    (handler.forget.compile host language category text).2.forget =
      (handler.compile host language category text).2.forget := by
  have hforgotten : handler.forget.Sound host.engine := sound_of_compiled_eq_nil rfl
  obtain ⟨hfst, hsnd⟩ := compile_eq_build hsound language category text
  obtain ⟨hfst', hsnd'⟩ := compile_eq_build hforgotten language category text
  rw [hfst, hsnd, hfst', hsnd', build_forget]
  exact ⟨rfl, rfl⟩

/-! ### Answers -/

/-- `findCategory` is compiling the pattern of a category and running the query. -/
theorem findCategory_of_pattern {t : SyntaxTree} {category : Category} {text : String}
    (h : handler.registry.patternFor category t.language = some text) (host : Host Q)
    (root : Handle) :
    handler.findCategory host t root category =
      ((handler.compile host t.language category text).1.bind fun query =>
        (execute host category t query root (handler.settingsFor category)).bind fun result =>
          .ok { category, groups := Query.groupCaptures result.captures, result },
        (handler.compile host t.language category text).2) := by
  unfold findCategory
  rw [h]
  rfl

/-- `findCategory` changes nothing for a category without a pattern. -/
theorem findCategory_of_none {t : SyntaxTree} {category : Category}
    (h : handler.registry.patternFor category t.language = none) (host : Host Q)
    (root : Handle) :
    handler.findCategory host t root category =
      (.error (.unsupported category t.language), handler) := by
  unfold findCategory
  rw [h]

/-- **Answers do not depend on what is remembered**, and neither does what they leave
behind (`ask`). -/
theorem ask_forget (hsound : handler.Sound host.engine) (question : Question) :
    (handler.forget.ask host question).1 = (handler.ask host question).1 ∧
      (handler.forget.ask host question).2.forget = (handler.ask host question).2.forget := by
  cases question with
  | findCategory t root category =>
    unfold ask
    dsimp only
    cases hpattern : handler.registry.patternFor category t.language with
    | none =>
      have hpattern' : handler.forget.registry.patternFor category t.language = none :=
        hpattern
      rw [findCategory_of_none hpattern, findCategory_of_none hpattern']
      exact ⟨rfl, rfl⟩
    | some text =>
      have hpattern' : handler.forget.registry.patternFor category t.language = some text :=
        hpattern
      obtain ⟨hfst, hsnd⟩ := compile_forget hsound t.language category text
      rw [findCategory_of_pattern hpattern, findCategory_of_pattern hpattern']
      dsimp only
      rw [hfst, hsnd]
      exact ⟨rfl, rfl⟩
  | compile language category text =>
    obtain ⟨hfst, hsnd⟩ := compile_forget hsound language category text
    exact ⟨congrArg Answer.compiled hfst, hsnd⟩
  | findNodesByType t root kind =>
    unfold ask findNodesByType
    dsimp only
    rw [build_forget]
    exact ⟨rfl, rfl⟩

/-- `execute` runs a query alike at times that it cannot tell apart. -/
theorem execute_withClocks {settings : QuerySettings} {category : Category}
    {clocks : Category → Query.Clock}
    (h : settings.SameTime (host.clocks category) (clocks category)) (t : SyntaxTree)
    (query : Q) (root : Handle) :
    execute (host.withClocks clocks) category t query root settings =
      execute host category t query root settings := by
  unfold execute
  rw [Query.execute_of_sameTime h]
  rfl

/-- `findCategory` gives the same at times that its run cannot tell apart. -/
theorem findCategory_withClocks {category : Category} {clocks : Category → Query.Clock}
    (h : (handler.settingsFor category).SameTime (host.clocks category) (clocks category))
    (t : SyntaxTree) (root : Handle) :
    handler.findCategory (host.withClocks clocks) t root category =
      handler.findCategory host t root category := by
  cases hpattern : handler.registry.patternFor category t.language with
  | none => rw [findCategory_of_none hpattern, findCategory_of_none hpattern]
  | some text =>
    rw [findCategory_of_pattern hpattern, findCategory_of_pattern hpattern]
    simp only [execute_withClocks h]
    rfl

/-- **A question has one answer at times that its run cannot tell apart** (`SameTime`). -/
theorem ask_withClocks {question : Question} {clocks : Category → Query.Clock}
    (h : handler.SameTime question host.clocks clocks) :
    handler.ask (host.withClocks clocks) question = handler.ask host question := by
  cases question with
  | findCategory t root category =>
    rw [ask, ask, findCategory_withClocks (h category _ rfl)]
  | compile language category text => rfl
  | findNodesByType t root kind =>
    have htime : handler.settings.SameTime (host.clocks target) (clocks target) :=
      h target _ rfl
    have hsettings : (handler.build host t.language target (kindQuery kind)).2.settings =
        handler.settings := by
      rw [build_snd]
    have hbuild : handler.build (host.withClocks clocks) t.language target (kindQuery kind) =
        handler.build host t.language target (kindQuery kind) := rfl
    unfold ask findNodesByType
    dsimp only
    rw [hbuild, hsettings]
    simp only [execute_withClocks htime]

/-- What `ask` leaves behind does not depend on the time. -/
theorem ask_withClocks_snd (handler : QueryHandler Q) (host : Host Q) (question : Question)
    (clocks : Category → Query.Clock) :
    (handler.ask (host.withClocks clocks) question).2 = (handler.ask host question).2 := by
  cases question with
  | findCategory t root category =>
    unfold ask
    dsimp only
    cases hpattern : handler.registry.patternFor category t.language with
    | none => rw [findCategory_of_none hpattern, findCategory_of_none hpattern]
    | some text =>
      rw [findCategory_of_pattern hpattern, findCategory_of_pattern hpattern]
      rfl
  | compile language category text => rfl
  | findNodesByType t root kind => rfl

/-- A question that wants a text compiled leaves behind what compiling it does. -/
theorem ask_snd_of_wanted {question : Question} {language : Language} {category : Category}
    {text : String} (h : handler.wanted? question = some (language, category, text))
    (host : Host Q) :
    (handler.ask host question).2 = (handler.compile host language category text).2 := by
  cases question with
  | findCategory t root asked =>
    obtain ⟨pattern, hpattern, heq⟩ := Option.map_eq_some_iff.1 h
    cases heq
    unfold ask
    dsimp only
    rw [findCategory_of_pattern hpattern]
  | compile _ _ _ =>
    cases h
    rfl
  | findNodesByType t root kind => cases h

/-- A question that wants no text compiled leaves what is remembered alone. -/
theorem compiled_ask_of_not_wanted {question : Question}
    (h : handler.wanted? question = none) (host : Host Q) :
    (handler.ask host question).2.compiled = handler.compiled := by
  cases question with
  | findCategory t root asked =>
    unfold ask
    dsimp only
    rw [findCategory_of_none (Option.map_eq_none_iff.1 h)]
  | compile language category text => cases h
  | findNodesByType t root kind =>
    exact handler.compiled_build host t.language target (kindQuery kind)

/-- **Remembered queries cannot be noticed**, whatever the engine compiles and runs.
Wherever calls have led:

* Every answer is the one of a handler that has forgotten all queries. If the question
  asks for a run with a time budget, the two are compared at times that the run cannot
  tell apart (`SameTime`).
* Both leave the same registry, limits and service behind, at all times.
* A question that wants nothing compiled, such as one for nodes of a kind, leaves what is
  remembered alone. So does a text that does not compile. A text that compiles is
  remembered, and all else stays.
* What is remembered is the query that the engine compiles its own text to, for the
  grammar of its own language. -/
theorem query_cache_transparent {engine : Engine Q} {s : Session Q} (h : Reachable engine s)
    (question : Question) :
    let handler := s.analyzer.handler
    let host := s.host engine
    (∀ clocks, handler.SameTime question host.clocks clocks →
      (handler.ask host question).1 =
        (handler.forget.ask (host.withClocks clocks) question).1) ∧
    (∀ clocks, (handler.ask host question).2.forget =
      (handler.forget.ask (host.withClocks clocks) question).2.forget) ∧
    (handler.wanted? question = none →
      (handler.ask host question).2.compiled = handler.compiled) ∧
    (∀ language category text, handler.wanted? question = some (language, category, text) →
      (∀ e, (handler.compile host language category text).1 = .error e →
        (handler.ask host question).2.compiled = handler.compiled) ∧
      ∀ query, (handler.compile host language category text).1 = .ok query → ∀ key,
        (handler.ask host question).2.compiled.lookup key =
          if key = (language, text) then some query else handler.compiled.lookup key) ∧
    ∀ language text query, handler.compiled.lookup (language, text) = some query →
      ∃ binding, handler.service.Settled language (.ok binding) ∧
        engine.compile language binding.grammar text = .ok query := by
  intro handler host
  have hsound : handler.Sound host.engine := h.sound
  obtain ⟨hanswer, hstate⟩ := ask_forget hsound question
  refine ⟨fun clocks htime => ?_, fun clocks => ?_,
    fun hwanted => compiled_ask_of_not_wanted hwanted host,
    fun language category text hwanted => ?_, h.sound⟩
  · have htime' : handler.forget.SameTime question host.clocks clocks := htime
    rw [ask_withClocks htime', hanswer]
  · rw [ask_withClocks_snd, hstate]
  · rw [ask_snd_of_wanted hwanted]
    rcases compile_cases hsound language category text with
      ⟨e, hbuild, hcompile⟩ | ⟨query, compiled, -, hcompile, hlookup⟩
    · refine ⟨fun _ _ => ?_, fun query hquery => ?_⟩
      · rw [hcompile, compiled_build]
      · rw [hcompile, hbuild] at hquery
        cases hquery
    · rw [hcompile]
      refine ⟨fun e he => ?_, fun other hother => ?_⟩
      · cases he
      · obtain rfl := Except.ok.inj hother
        exact hlookup

/-- A query that is remembered is asked for again, after a text that does not compile and
a registration, and its category is run later. -/
theorem query_cache_transparent_again :
    let engine :=
      Query.engine (fun _ _ _ => some (.node default [])) fun _ _ => { named := ["module"] }
    let start : Session Query :=
      { analyzer := .default { home := some "/home" }, files := .empty,
        clocks := fun _ _ => 0 }
    let s := start.run engine
      [.compile .python .functions "(module) @m", .compile .python .classes "(module",
        .register (.language .python) .classes "(module) @m"]
    let t := SyntaxTree.ofTree 0 .python [] (.node default [])
    Reachable engine s ∧
    (s.analyzer.handler.compiled.lookup (.python, "(module) @m")).isSome = true ∧
    (s.analyzer.handler.compiled.lookup (.python, "(module")).isSome = false ∧
    ∀ clocks, (s.analyzer.handler.ask (s.host engine)
        (.compile .python .classes "(module) @m")).1 =
        (s.analyzer.handler.forget.ask ((s.host engine).withClocks clocks)
          (.compile .python .classes "(module) @m")).1 ∧
      (s.analyzer.handler.ask (s.host engine) (.findCategory t ⟨0, 0⟩ .classes)).1 =
        (s.analyzer.handler.forget.ask ((s.host engine).withClocks clocks)
          (.findCategory t ⟨0, 0⟩ .classes)).1 := by
  intro engine start s t
  have hstart : Reachable engine start := .new (Analyzer.isNew_default _)
  have hreachable : Reachable engine s := hstart.run _
  -- the limits that are preset have no time budget
  have hbudget : (s.analyzer.handler.settingsFor .classes).timeout = none := by decide +kernel
  refine ⟨hreachable, by decide +kernel, by decide +kernel, fun clocks => ⟨?_, ?_⟩⟩
  · refine (query_cache_transparent hreachable (.compile .python .classes "(module) @m")).1
      clocks ?_
    intro category settings hlimits
    cases hlimits
  · refine (query_cache_transparent hreachable (.findCategory t ⟨0, 0⟩ .classes)).1 clocks ?_
    intro category settings hlimits
    obtain ⟨rfl, rfl⟩ := Prod.mk.inj (Option.some.inj hlimits)
    exact QuerySettings.sameTime_of_untimed hbudget _ _

end QueryHandler

end SourceOutline
