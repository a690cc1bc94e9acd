import SourceOutline.Proofs.Constancy

/-!
# The Account of an Analysis

An analysis asks its categories one after the other and notes what they give. The answers
alone determine what becomes of it: a language without a grammar ends it, a pattern that
does not compile ends it if it is strict, and else the outline is put together from what
was found and from the account of the answers, `RunLog.account`.

`Basis` says the same of trees whose grammar is settled. Here the handler is asked as it
is, so that trees of languages without a grammar are covered too.

## Main results

* `QueryHandler.answer_cases`: a category has no pattern, a broken one, or one that is
  run, unless there is no grammar.
* `RunLog.askAll_lenient`: what an analysis notes of the answers of the categories.
* `QueryHandler.analyze_fst_eq_bind`: an analysis by the answers of its categories.
* `QueryHandler.exists_outline`: the outline of an analysis that nothing ends.
* `QueryHandler.exists_parts_of_analyze`: what an outline is assembled from.
-/

namespace SourceOutline

variable {Q : Type}

/-! ### The answers of categories -/

namespace QueryHandler

/-- What a category gives for a tree, by `findCategory` at its root. -/
def answer (handler : QueryHandler Q) (host : Host Q) (t : SyntaxTree) (category : Category) :
    Except QueryError CategoryMatches :=
  (handler.findCategory host t t.rootHandle category).1

/-- The pattern in effect for a category does not compile, for whatever reason. -/
def Breaks (handler : QueryHandler Q) (host : Host Q) (language : Language)
    (category : Category) : Prop :=
  ∃ text e, handler.registry.patternFor category language = some text ∧
    (handler.compile host language category text).1 = .error e

variable {handler : QueryHandler Q} {host : Host Q} {t : SyntaxTree} {category : Category}

/-- `compile` fails because a text does not compile, or because there is no grammar. -/
theorem compile_eq_error (hsound : handler.Sound host.engine) {language : Language}
    {text : String} {e : QueryError}
    (h : (handler.compile host language category text).1 = .error e) :
    ((∃ binding, (handler.service.bind host.files language).1 = .ok binding) ∧
      ∃ issue, e = .compile language category issue) ∨
    ∃ missing, (handler.service.bind host.files language).1 = .error missing ∧
      e = .language missing := by
  rw [(compile_eq_build hsound language category text).1] at h
  unfold build at h
  dsimp only at h
  cases hbind : (handler.service.bind host.files language).1 with
  | error missing =>
    rw [hbind] at h
    exact Or.inr ⟨missing, rfl, (Except.error.inj h).symm⟩
  | ok binding =>
    rw [hbind] at h
    dsimp only [compileFor] at h
    refine Or.inl ⟨⟨binding, rfl⟩, ?_⟩
    split at h
    · cases h
    · exact ⟨_, (Except.error.inj h).symm⟩

/-- A pattern that compiles is run: its answer is `matchesOf` the query. -/
theorem answer_of_compile {text : String} {query : Q}
    (hpattern : handler.registry.patternFor category t.language = some text)
    (hcompile : (handler.compile host t.language category text).1 = .ok query) :
    handler.answer host t category =
      .ok (t.matchesOf host.engine (host.clocks category) category query
        (handler.settingsFor category)) := by
  rw [answer, findCategory_of_pattern hpattern, hcompile]
  dsimp only [Except.bind]
  rw [execute, Query.execute_rootHandle]
  rfl

/-- A category answers with `matchesOf` the query that its pattern is compiled to, unless
it fails. -/
theorem exists_query_of_answer {found : CategoryMatches}
    (h : handler.answer host t category = .ok found) :
    ∃ text query, (handler.compile host t.language category text).1 = .ok query ∧
      found = t.matchesOf host.engine (host.clocks category) category query
        (handler.settingsFor category) := by
  cases hpattern : handler.registry.patternFor category t.language with
  | none =>
    rw [answer, findCategory_of_none hpattern] at h
    cases h
  | some text =>
    cases hcompile : (handler.compile host t.language category text).1 with
    | error e =>
      rw [answer, findCategory_of_pattern hpattern, hcompile] at h
      cases h
    | ok query =>
      rw [answer_of_compile hpattern hcompile] at h
      exact ⟨text, query, hcompile, (Except.ok.inj h).symm⟩

/-- **The four kinds of answers.** A category has no pattern, a pattern that does not
compile for the grammar, or a pattern whose query is run; or there is no grammar for the
language. -/
theorem answer_cases (hsound : handler.Sound host.engine) (t : SyntaxTree)
    (category : Category) :
    (¬ handler.Breaks host t.language category ∧
      handler.answer host t category = .error (.unsupported category t.language)) ∨
    (∃ text issue, handler.registry.patternFor category t.language = some text ∧
      (handler.compile host t.language category text).1 =
        .error (.compile t.language category issue) ∧
      handler.answer host t category = .error (.compile t.language category issue)) ∨
    (¬ handler.Breaks host t.language category ∧ ∃ query,
      handler.answer host t category =
        .ok (t.matchesOf host.engine (host.clocks category) category query
        (handler.settingsFor category))) ∨
    (handler.Breaks host t.language category ∧ ∃ missing,
      (handler.service.bind host.files t.language).1 = .error missing ∧
      handler.answer host t category = .error (.language missing)) := by
  cases hpattern : handler.registry.patternFor category t.language with
  | none =>
    refine Or.inl ⟨?_, ?_⟩
    · rintro ⟨text, e, htext, -⟩
      rw [hpattern] at htext
      cases htext
    · rw [answer, findCategory_of_none hpattern]
  | some text =>
    cases hcompile : (handler.compile host t.language category text).1 with
    | ok query =>
      refine Or.inr (Or.inr (Or.inl ⟨?_, query, answer_of_compile hpattern hcompile⟩))
      rintro ⟨text', e, htext, hfails⟩
      obtain rfl := Option.some.inj (hpattern.symm.trans htext)
      rw [hcompile] at hfails
      cases hfails
    | error e =>
      have hanswer : handler.answer host t category = .error e := by
        rw [answer, findCategory_of_pattern hpattern, hcompile]
        rfl
      rcases compile_eq_error hsound hcompile with ⟨-, issue, rfl⟩ | ⟨missing, hmissing, rfl⟩
      · exact Or.inr (Or.inl ⟨text, issue, rfl, hcompile, hanswer⟩)
      · exact Or.inr
          (Or.inr (Or.inr ⟨⟨text, _, hpattern, hcompile⟩, missing, hmissing, hanswer⟩))

/-- `answer` gives the same at times that the run of the category cannot tell apart. -/
theorem answer_withClocks {clocks : Category → Query.Clock}
    (h : (handler.settingsFor category).SameTime (host.clocks category) (clocks category))
    (t : SyntaxTree) :
    handler.answer (host.withClocks clocks) t category = handler.answer host t category := by
  rw [answer, findCategory_withClocks h, answer]

end QueryHandler

/-- An answer that ends every analysis. -/
def EndsAnalysis : Except QueryError CategoryMatches → Prop
  | .error (.language _) => True
  | .error (.traversal _) => True
  | _ => False

/-- An answer that ends a strict analysis. -/
def IsBroken : Except QueryError CategoryMatches → Prop
  | .error (.compile _ _ _) => True
  | _ => False

namespace RunLog

/-- The account of one category. -/
def of (category : Category) : Except QueryError CategoryMatches → RunLog
  | .ok found =>
    if found.truncated then { diagnostics := [category.name ++ " results truncated"],
                              truncated := [category] } else {}
  | .error (.unsupported _ _) => { unsupported := [category] }
  | .error (.compile language category issue) =>
    { diagnostics := [(QueryError.compile language category issue).message], degraded := true }
  | .error _ => {}

/-- One account after the other. -/
def append (log log' : RunLog) : RunLog where
  diagnostics := log.diagnostics ++ log'.diagnostics
  unsupported := log.unsupported ++ log'.unsupported
  truncated := log.truncated ++ log'.truncated
  degraded := log.degraded || log'.degraded

/-- The account of categories by their answers. -/
def account (ask : Category → Except QueryError CategoryMatches) (categories : List Category) :
    RunLog where
  diagnostics := categories.flatMap fun category => (of category (ask category)).diagnostics
  unsupported := categories.flatMap fun category => (of category (ask category)).unsupported
  truncated := categories.flatMap fun category => (of category (ask category)).truncated
  degraded := categories.any fun category => (of category (ask category)).degraded

variable {ask : Category → Except QueryError CategoryMatches} {categories : List Category}

/-- The account of categories begins with that of the first one. -/
theorem append_account_cons (log : RunLog) (category : Category) (categories : List Category) :
    log.append (account ask (category :: categories)) =
      (log.append (of category (ask category))).append (account ask categories) := by
  simp [append, account, List.append_assoc, Bool.or_assoc]

/-- What `record` notes of an answer in an analysis that is not strict. -/
theorem record_lenient {outcome : Except QueryError CategoryMatches}
    (h : ¬ EndsAnalysis outcome) (log : RunLog) (category : Category) :
    log.record false category outcome =
      .ok (outcome.toOption, log.append (of category outcome)) := by
  cases outcome with
  | ok found =>
    unfold record of
    dsimp only
    split
    · simp [append, Except.toOption]
    · simp [append, Except.toOption]
  | error e =>
    cases e with
    | compile => simp [record, append, of, Except.toOption]
    | unsupported => simp [record, append, of, Except.toOption]
    | language => exact absurd trivial h
    | traversal => exact absurd trivial h

/-- Only an answer that `IsBroken` makes a difference to a strict analysis. -/
theorem record_strict {outcome : Except QueryError CategoryMatches} (h : ¬ IsBroken outcome)
    (log : RunLog) (category : Category) :
    log.record true category outcome = log.record false category outcome := by
  cases outcome with
  | ok found => rfl
  | error e =>
    cases e with
    | compile => exact absurd trivial h
    | unsupported => rfl
    | language => rfl
    | traversal => rfl

/-- **What an analysis that is not strict notes** if no answer ends it: its `account`. -/
theorem askAll_lenient (h : ∀ category ∈ categories, ¬ EndsAnalysis (ask category))
    (log : RunLog) :
    Basis.askAll false ask categories log =
      .ok (categories.map fun category => (ask category).toOption,
        log.append (account ask categories)) := by
  induction categories generalizing log with
  | nil => simp [Basis.askAll, append, account]
  | cons category categories ih =>
    have hrest := ih (fun other hother => h other (List.mem_cons_of_mem _ hother))
    rw [Basis.askAll, record_lenient (h category List.mem_cons_self), append_account_cons]
    dsimp only
    rw [hrest]
    rfl

/-- `askAll` does not depend on the strictness if all patterns compile. -/
theorem askAll_strict (h : ∀ category ∈ categories, ¬ IsBroken (ask category)) (log : RunLog) :
    Basis.askAll true ask categories log = Basis.askAll false ask categories log := by
  induction categories generalizing log with
  | nil => rfl
  | cons category categories ih =>
    have hrest := ih (fun other hother => h other (List.mem_cons_of_mem _ hother))
    rw [Basis.askAll, Basis.askAll, record_strict (h category List.mem_cons_self)]
    simp only [hrest]

/-- What an analysis that nothing ends goes on with is what the categories found. -/
theorem askAll_eq_ok {strict : Bool} {log log' : RunLog}
    {founds : List (Option CategoryMatches)}
    (h : Basis.askAll strict ask categories log = .ok (founds, log')) :
    founds = categories.map fun category => (ask category).toOption := by
  induction categories generalizing log founds with
  | nil => exact (Prod.mk.inj (Except.ok.inj h)).1.symm
  | cons category categories ih =>
    rw [Basis.askAll] at h
    split at h
    · cases h
    next found next hrecord =>
      split at h
      · cases h
      next others last hothers =>
        obtain ⟨rfl, rfl⟩ := Prod.mk.inj (Except.ok.inj h)
        rw [List.map_cons, record_eq_ok hrecord, ih hothers]

/-! ### What an account says -/

/-- An account is degraded by a pattern that does not compile. -/
theorem degraded_of {category : Category} {outcome : Except QueryError CategoryMatches} :
    (of category outcome).degraded = true ↔ IsBroken outcome := by
  cases outcome with
  | ok found => cases htruncated : found.truncated <;> simp [of, IsBroken, htruncated]
  | error e => cases e <;> simp [of, IsBroken]

/-- An account is degraded if the pattern of one of its categories does not compile. -/
theorem degraded_account :
    (account ask categories).degraded = true ↔
    ∃ category ∈ categories, IsBroken (ask category) := by
  simp only [account, List.any_eq_true, degraded_of]

/-- An account is not degraded if all patterns compile. -/
theorem degraded_account_eq_false (h : ∀ category ∈ categories, ¬ IsBroken (ask category)) :
    (account ask categories).degraded = false := by
  rw [Bool.eq_false_iff]
  intro hdegraded
  obtain ⟨category, hcategory, hbroken⟩ := degraded_account.1 hdegraded
  exact h category hcategory hbroken

end RunLog

/-! ### The outline of an analysis -/

namespace Outline

/-- The parts of an outline by the answers of the categories. -/
def partsFrom (t : SyntaxTree) (ask : Category → Except QueryError CategoryMatches) :
    Except TraversalError Parts :=
  gather t (findingsOf (analyzedCategories.map fun category => (ask category).toOption) {})

/-- `gather` depends on the groups that were found only. -/
theorem gather_congr {t : SyntaxTree} {findings findings' : Findings}
    (hclasses : groupsOf findings'.classes = groupsOf findings.classes)
    (hfunctions : groupsOf findings'.functions = groupsOf findings.functions)
    (himports : groupsOf findings'.imports = groupsOf findings.imports)
    (herrors : groupsOf findings'.errors = groupsOf findings.errors) :
    gather t findings' = gather t findings := by
  unfold gather
  rw [hclasses, hfunctions, himports, herrors]

/-- Only `isValid` and `errors` of an outline say whether a pattern was broken. -/
theorem ofParts_of_not_degraded {log log' : RunLog}
    (hunsupported : log'.unsupported = log.unsupported)
    (htruncated : log'.truncated = log.truncated) (hdegraded : log'.degraded = false)
    (t : SyntaxTree) (parts : Parts) :
    ofParts t log' parts =
      { ofParts t log parts with isValid := true, errors := log'.diagnostics } := by
  unfold ofParts
  dsimp only
  rw [hunsupported, htruncated, hdegraded]
  rfl

/-- The parts of an outline depend on the groups of the analyzed categories only. -/
theorem partsFrom_congr {t : SyntaxTree}
    {ask ask' : Category → Except QueryError CategoryMatches}
    (h : ∀ category ∈ analyzedCategories, groupsOf (ask' category).toOption =
      groupsOf (ask category).toOption) :
    partsFrom t ask' = partsFrom t ask :=
  gather_congr (h .classes (by decide)) (h .functions (by decide)) (h .imports (by decide))
    (h .errors (by decide))

end Outline

namespace QueryHandler

variable {handler : QueryHandler Q} {host : Host Q} {t : SyntaxTree}

/-- What a category leaves in its groups are nodes of the tree. -/
theorem owns_groupsOf_answer (handler : QueryHandler Q) (host : Host Q) (t : SyntaxTree)
    (category : Category) :
    ∀ group ∈ Outline.groupsOf (handler.answer host t category).toOption,
      ∀ node ∈ group.handles, t.Owns node := by
  cases hask : handler.answer host t category with
  | error e => exact fun group hgroup => absurd hgroup List.not_mem_nil
  | ok found =>
    obtain ⟨-, query, -, rfl⟩ := exists_query_of_answer hask
    exact t.owns_matchesOf _ _ category query _

/-- **An analysis by the answers of its categories**: `analyze` asks for them in turn and
assembles what they have found. -/
theorem analyze_fst_eq_bind (hsound : handler.Sound host.engine) (t : SyntaxTree)
    (strict : Bool) :
    (Outline.analyze handler host t strict).1 =
      (Basis.askAll strict (handler.answer host t) analyzedCategories {}).bind fun run =>
        (Outline.assemble t (Outline.findingsOf run.1 run.2)).mapError .traversal := by
  have hrun : (runCategories host t strict analyzedCategories handler {}).1 =
      Basis.askAll strict (handler.answer host t) analyzedCategories {} :=
    runCategories_fst_eq_askAll hsound t strict analyzedCategories {}
  unfold Outline.analyze
  dsimp only
  rw [hrun]
  rcases Basis.askAll strict (handler.answer host t) analyzedCategories {} with
    e | ⟨founds, log⟩
  · rfl
  · dsimp only [Except.bind]
    cases Outline.assemble t (Outline.findingsOf founds log) with
    | ok outline => rfl
    | error e => rfl

/-- **The outline of an analysis that nothing ends**: it is made by `ofParts`, with the
`account` of the answers. -/
theorem exists_outline (hsound : handler.Sound host.engine) {strict : Bool}
    (hends : ∀ category ∈ analyzedCategories, ¬ EndsAnalysis (handler.answer host t category))
    (hstrict : strict = true → ∀ category ∈ analyzedCategories,
      ¬ IsBroken (handler.answer host t category)) :
    ∃ parts, Outline.partsFrom t (handler.answer host t) = .ok parts ∧
      (Outline.analyze handler host t strict).1 =
        .ok (Outline.ofParts t (RunLog.account (handler.answer host t) analyzedCategories)
          parts) := by
  have hgroups := owns_groupsOf_answer handler host t
  have howns : Outline.OwnsFindings t
      (Outline.findingsOf (analyzedCategories.map fun category =>
        (handler.answer host t category).toOption) {}) :=
    ⟨hgroups .classes, hgroups .functions, hgroups .imports, hgroups .errors⟩
  obtain ⟨parts, hparts⟩ := howns.exists_gather
  have hall : Basis.askAll strict (handler.answer host t) analyzedCategories {} =
      .ok (analyzedCategories.map fun category => (handler.answer host t category).toOption,
        RunLog.account (handler.answer host t) analyzedCategories) := by
    cases strict with
    | true =>
      rw [RunLog.askAll_strict (hstrict rfl)]
      exact RunLog.askAll_lenient hends {}
    | false => exact RunLog.askAll_lenient hends {}
  have hassemble : Outline.assemble t
      (Outline.findingsOf (analyzedCategories.map fun category =>
        (handler.answer host t category).toOption)
        (RunLog.account (handler.answer host t) analyzedCategories)) =
      .ok (Outline.ofParts t (RunLog.account (handler.answer host t) analyzedCategories)
        parts) :=
    congrArg (Except.map _) hparts
  refine ⟨parts, hparts, ?_⟩
  rw [analyze_fst_eq_bind hsound, hall]
  exact congrArg (Except.mapError _) hassemble

/-- The same for an analysis that is not strict: only `EndsAnalysis` matters. -/
theorem exists_outline_lenient (hsound : handler.Sound host.engine)
    (hends : ∀ category ∈ analyzedCategories,
      ¬ EndsAnalysis (handler.answer host t category)) :
    ∃ parts, Outline.partsFrom t (handler.answer host t) = .ok parts ∧
      (Outline.analyze handler host t false).1 =
        .ok (Outline.ofParts t (RunLog.account (handler.answer host t) analyzedCategories)
          parts) :=
  exists_outline hsound hends fun hstrict => absurd hstrict Bool.false_ne_true

/-- **What an outline is assembled from**: the answers of the categories, by
`partsFrom`. -/
theorem exists_parts_of_analyze (hsound : handler.Sound host.engine) {strict : Bool}
    {outline : Outline} (h : (Outline.analyze handler host t strict).1 = .ok outline) :
    ∃ log parts, Outline.partsFrom t (handler.answer host t) = .ok parts ∧
      outline = Outline.ofParts t log parts := by
  rw [analyze_fst_eq_bind hsound] at h
  obtain ⟨⟨founds, log⟩, hall, h⟩ := exists_of_bind_eq_ok h
  obtain rfl := RunLog.askAll_eq_ok hall
  dsimp only [Outline.assemble] at h
  cases hgather :
    Outline.gather t (Outline.findingsOf (analyzedCategories.map fun category =>
      (handler.answer host t category).toOption) log) with
  | error e =>
    rw [hgather] at h
    cases h
  | ok parts =>
    rw [hgather] at h
    exact ⟨log, parts, hgather, (Except.ok.inj h).symm⟩

/-- If there is a grammar, a pattern that does not compile is what its category answers
with. -/
theorem Breaks.exists_answer {category : Category}
    (h : handler.Breaks host t.language category) (hsound : handler.Sound host.engine)
    {binding : Binding}
    (hbinding : (handler.service.bind host.files t.language).1 = .ok binding) :
    ∃ issue, handler.answer host t category = .error (.compile t.language category issue) := by
  rcases answer_cases hsound t category with
    ⟨hnot, -⟩ | ⟨text, issue, -, -, hask⟩ | ⟨hnot, -⟩ | ⟨-, missing, hmissing, -⟩
  · exact absurd h hnot
  · exact ⟨issue, hask⟩
  · exact absurd h hnot
  · rw [hmissing] at hbinding
    cases hbinding

/-- An answer that `IsBroken` says that the pattern does not compile. -/
theorem breaks_of_isBroken {category : Category} (hsound : handler.Sound host.engine)
    (h : IsBroken (handler.answer host t category)) :
    handler.Breaks host t.language category := by
  rcases answer_cases hsound t category with
    ⟨-, hask⟩ | ⟨text, issue, hpattern, hcompile, -⟩ | ⟨-, query, hask⟩ | ⟨hbreaks, -⟩
  · rw [hask] at h
    exact False.elim h
  · exact ⟨text, _, hpattern, hcompile⟩
  · rw [hask] at h
    exact False.elim h
  · exact hbreaks

/-- With a grammar no answer `EndsAnalysis`. -/
theorem not_endsAnalysis_answer (hsound : handler.Sound host.engine) {binding : Binding}
    (h : (handler.service.bind host.files t.language).1 = .ok binding) (category : Category) :
    ¬ EndsAnalysis (handler.answer host t category) := by
  rcases answer_cases hsound t category with
    ⟨-, hask⟩ | ⟨text, issue, -, -, hask⟩ | ⟨-, query, hask⟩ | ⟨-, missing, hmissing, -⟩
  · rw [hask]
    exact id
  · rw [hask]
    exact id
  · rw [hask]
    exact id
  · rw [h] at hmissing
    cases hmissing

end QueryHandler

end SourceOutline
