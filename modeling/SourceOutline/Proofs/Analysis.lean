import SourceOutline.Proofs.Captures
import SourceOutline.Proofs.Session
import SourceOutline.Query.Engine

/-!
# What an Analysis Depends On

The outline of a source depends on the engine, the grammar that is settled for its
language, the patterns in effect, the limits, the strictness, and on the clock where there
is a time budget; on nothing else that an analyzer remembers. `Basis` collects these, and
`Basis.analyze` is the analysis as a function of them. A sound handler does exactly that.

From this form one reads off which problems end an analysis. The handles of all groups are
good for the tree, whatever the engine has delivered, so putting an outline together never
fails; the only error is a pattern that the engine does not compile under a strict
analysis, for the first such category.

## Main results

* `QueryHandler.runCategories_fst`, `Analyzer.parseContent_fst_of_ok`: what a sound
  analyzer answers, by its basis.
* `Outline.OwnsFindings.exists_gather`: the parts of an outline can always be read at
  nodes of the tree.
* `Basis.analyze_cases`: an analysis either stops at the first category that it has to
  refuse, or gives an outline.
* `Analyzer.parseContent_eq_error_iff`: when there is no outline, and what the error is then.
* `parseContent_problems_are_data`: which problems are errors, and what becomes of the others.
-/

namespace SourceOutline

variable {Q : Type}

/-! ### The basis of an analysis -/

/-- What an analysis depends on besides its tree. -/
structure Basis (Q : Type) where
  engine : Engine Q
  /-- The query that a text is compiled to. -/
  compile : String → Except Query.Issue Q
  /-- The pattern in effect for a category. -/
  patternFor : Category → Option String
  settingsFor : Category → QuerySettings
  clocks : Category → Query.Clock
  strict : Bool

/-- What a handler analyzes with, for the grammar of a language. -/
def QueryHandler.basis (handler : QueryHandler Q) (host : Host Q) (language : Language)
    (grammar : Grammar) (strict : Bool) : Basis Q where
  engine := host.engine
  compile := host.engine.compile language grammar
  patternFor category := handler.registry.patternFor category language
  settingsFor := handler.settingsFor
  clocks := host.clocks
  strict := strict

/-- No run of an analysis tells two clocks apart. Without time budgets, this is so for any
two. -/
def QueryHandler.SameTimes (handler : QueryHandler Q)
    (clocks clocks' : Category → Query.Clock) : Prop :=
  ∀ category ∈ analyzedCategories,
    (handler.settingsFor category).SameTime (clocks category) (clocks' category)

/-- `SameTimes` is reflexive. -/
theorem QueryHandler.SameTimes.refl (handler : QueryHandler Q)
    (clocks : Category → Query.Clock) :
    handler.SameTimes clocks clocks :=
  fun category _ => .refl _ (clocks category)

/-- What a query finds in a tree. -/
def SyntaxTree.matchesOf (t : SyntaxTree) (engine : Engine Q) (clock : Query.Clock)
    (category : Category) (query : Q) (settings : QuerySettings) : CategoryMatches :=
  let result := Query.resultOf t (engine.patternCount query) settings clock t.hasError
    (engine.run t.toArena query 0 settings.maxStartDepth
      (Query.atLeastOne settings.matchLimit))
  { category, groups := Query.groupCaptures result.captures, result }

/-- `matchesOf` gives the same at times that the run of the query cannot tell apart. -/
theorem SyntaxTree.matchesOf_of_sameTime {settings : QuerySettings}
    {clock clock' : Query.Clock} (h : settings.SameTime clock clock') (t : SyntaxTree)
    (engine : Engine Q) (category : Category) (query : Q) :
    t.matchesOf engine clock category query settings =
      t.matchesOf engine clock' category query settings := by
  unfold matchesOf
  rw [Query.resultOf_of_sameTime h]

namespace Basis

/-- The pattern in effect for a category does not compile. -/
def Refuses (basis : Basis Q) (category : Category) (issue : Query.Issue) : Prop :=
  ∃ text, basis.patternFor category = some text ∧ basis.compile text = .error issue

/-- What a category gives for a tree. -/
def ask (basis : Basis Q) (t : SyntaxTree) (category : Category) :
    Except QueryError CategoryMatches :=
  match basis.patternFor category with
  | none => .error (.unsupported category t.language)
  | some text =>
    match basis.compile text with
    | .ok query =>
      .ok (t.matchesOf basis.engine (basis.clocks category) category query
        (basis.settingsFor category))
    | .error issue => .error (.compile t.language category issue)

/-- The answers of categories, one after the other, until one ends the analysis:
`runCategories` without a handler. -/
def askAll (strict : Bool) (ask : Category → Except QueryError CategoryMatches) :
    List Category → RunLog → Except QueryError (List (Option CategoryMatches) × RunLog)
  | [], log => .ok ([], log)
  | category :: categories, log =>
    match log.record strict category (ask category) with
    | .error e => .error e
    | .ok (found, log) =>
      match askAll strict ask categories log with
      | .error e => .error e
      | .ok (others, log) => .ok (found :: others, log)

/-- The outline of a tree. -/
def analyze (basis : Basis Q) (t : SyntaxTree) : Except QueryError Outline :=
  match askAll basis.strict (basis.ask t) analyzedCategories {} with
  | .error e => .error e
  | .ok (founds, log) =>
    (Outline.assemble t (Outline.findingsOf founds log)).mapError .traversal

end Basis

namespace QueryHandler

variable {handler : QueryHandler Q} {host : Host Q} {t : SyntaxTree} {binding : Binding}

/-- What a sound handler answers about a tree for one category is what its basis does
`ask`. -/
theorem findCategory_fst (hsound : handler.Sound host.engine)
    (hsettled : handler.service.Settled t.language (.ok binding))
    (strict : Bool) (category : Category) :
    (handler.findCategory host t t.rootHandle category).1 =
      (handler.basis host t.language binding.grammar strict).ask t category := by
  unfold findCategory Basis.ask
  dsimp only [basis]
  cases hpattern : handler.registry.patternFor category t.language with
  | none => rfl
  | some text =>
    dsimp only
    rw [compile_fst hsound hsettled]
    cases host.engine.compile t.language binding.grammar text with
    | error issue => rfl
    | ok query =>
      have hquery : (Except.ok query : Except Query.Issue Q).mapError
          (QueryError.compile t.language category) = .ok query := rfl
      rw [hquery]
      dsimp only [bind, Except.bind]
      rw [execute, Query.execute_rootHandle]
      rfl

/-- What a sound handler answers about a tree for categories is `askAll` of its basis. -/
theorem runCategories_fst (hsound : handler.Sound host.engine)
    (hsettled : handler.service.Settled t.language (.ok binding))
    (strict : Bool) (categories : List Category) (log : RunLog) :
    (runCategories host t strict categories handler log).1 =
      Basis.askAll strict ((handler.basis host t.language binding.grammar strict).ask t)
        categories log := by
  induction categories generalizing handler log with
  | nil => rfl
  | cons category categories ih =>
    have huses := handler.uses_findCategory host t t.rootHandle category
    -- the next handler has the same basis
    have hbasis : (handler.findCategory host t t.rootHandle category).2.basis host t.language
        binding.grammar strict = handler.basis host t.language binding.grammar strict := by
      simp only [basis, huses.registry_eq, funext huses.settingsFor]
    have hrest := fun log => ih (huses.sound hsound) (huses.keeps _ _ hsettled) log
    rw [hbasis] at hrest
    rw [runCategories, Basis.askAll, ← findCategory_fst hsound hsettled]
    dsimp only
    cases log.record strict category (handler.findCategory host t t.rootHandle category).1 with
    | error e => rfl
    | ok noted =>
      obtain ⟨found, log'⟩ := noted
      dsimp only
      rw [← hrest log']
      rcases runCategories host t strict categories
        (handler.findCategory host t t.rootHandle category).2 log' with
        ⟨e | ⟨others, log''⟩, handler'⟩
      · rfl
      · rfl

/-- What a sound handler answers about a tree is what its basis does `analyze`. -/
theorem analyze_fst (hsound : handler.Sound host.engine)
    (hsettled : handler.service.Settled t.language (.ok binding))
    (strict : Bool) :
    (Outline.analyze handler host t strict).1 =
      (handler.basis host t.language binding.grammar strict).analyze t := by
  have hstrict : (handler.basis host t.language binding.grammar strict).strict = strict := rfl
  unfold Outline.analyze Basis.analyze
  dsimp only
  rw [runCategories_fst hsound hsettled, hstrict]
  cases Basis.askAll strict ((handler.basis host t.language binding.grammar strict).ask t)
    analyzedCategories {} with
  | error e => rfl
  | ok answers =>
    obtain ⟨founds, log⟩ := answers
    dsimp only
    cases Outline.assemble t (Outline.findingsOf founds log) <;> rfl

end QueryHandler

/-! ### Putting an outline together -/

namespace SyntaxTree

variable {t : SyntaxTree}

/-- A handle that the tree `Owns` has an entry. -/
theorem Owns.exists_node {handle : Handle} (h : t.Owns handle) :
    ∃ entry, t.node handle = .ok entry := by
  obtain ⟨htree, hindex⟩ := h
  refine ⟨t.nodes[handle.index], ?_⟩
  rw [node, if_neg (not_not_intro htree), Array.getElem?_eq_getElem hindex]

/-- The missing nodes of a tree are nodes of it. -/
theorem exists_missingNodes (t : SyntaxTree) :
    ∃ missing, t.missingNodes t.rootHandle = .ok missing ∧
      ∀ handle ∈ missing, t.Owns handle := by
  unfold missingNodes
  rw [t.check_rootHandle]
  refine ⟨_, rfl, fun handle hmem => ?_⟩
  obtain ⟨index, hindex, rfl⟩ := List.mem_map.1 hmem
  obtain ⟨entry, hentry, -⟩ := (Option.any_eq_true _ _).1 (List.mem_filter.1 hindex).2
  exact ⟨rfl, (Array.getElem?_eq_some_iff.1 hentry).1⟩

end SyntaxTree

namespace Outline

variable {t : SyntaxTree}

/-- A group at a node of the tree has a definition: `definitionOf` does not fail. -/
theorem exists_definitionOf {group : Query.Group} (h : t.Owns group.definition)
    (names : List (Handle × String)) :
    ∃ definition, definitionOf t names group = .ok definition := by
  obtain ⟨entry, hentry⟩ := h.exists_node
  rw [definitionOf, hentry]
  exact ⟨_, rfl⟩

/-- There is an issue at every node of the tree: `issueOf` does not fail. -/
theorem exists_issueOf {handle : Handle} (h : t.Owns handle) (kind : IssueKind) :
    ∃ issue, issueOf t kind handle = .ok issue := by
  obtain ⟨entry, hentry⟩ := h.exists_node
  rw [issueOf, hentry]
  exact ⟨_, rfl⟩

/-- The definitions of all groups that were found are nodes of the tree. -/
structure OwnsFindings (t : SyntaxTree) (findings : Findings) : Prop where
  classes : ∀ group ∈ groupsOf findings.classes, ∀ node ∈ group.handles, t.Owns node
  functions : ∀ group ∈ groupsOf findings.functions, ∀ node ∈ group.handles, t.Owns node
  imports : ∀ group ∈ groupsOf findings.imports, ∀ node ∈ group.handles, t.Owns node
  errors : ∀ group ∈ groupsOf findings.errors, ∀ node ∈ group.handles, t.Owns node

/-- The nodes of errors that were found are nodes of the tree. -/
theorem OwnsFindings.errorNodes {findings : Findings} (h : OwnsFindings t findings) :
    ∀ node ∈ (groupsOf findings.errors).map (·.definition), t.Owns node := by
  intro node hnode
  obtain ⟨group, hgroup, rfl⟩ := List.mem_map.1 hnode
  exact h.errors group hgroup group.definition List.mem_cons_self

/-- **The parts of an outline can always be read** at nodes of the tree: `gather` does not
fail. -/
theorem OwnsFindings.exists_gather {findings : Findings} (h : OwnsFindings t findings) :
    ∃ parts, gather t findings = .ok parts := by
  have hdefinitions (found : Option CategoryMatches)
      (howns : ∀ group ∈ groupsOf found, ∀ node ∈ group.handles, t.Owns node) :
      ∃ definitions, (groupsOf found).mapM
        (definitionOf t (classNames t (groupsOf findings.classes))) = .ok definitions :=
    exists_mapM_eq_ok fun group hgroup =>
      exists_definitionOf (howns group hgroup group.definition List.mem_cons_self) _
  have hissues (kind : IssueKind) (handles : List Handle)
      (howns : ∀ handle ∈ handles, t.Owns handle) :
      ∃ issues, handles.mapM (issueOf t kind) = .ok issues :=
    exists_mapM_eq_ok fun handle hhandle => exists_issueOf (howns handle hhandle) kind
  obtain ⟨missing, hmissing, howned⟩ := t.exists_missingNodes
  obtain ⟨classes, hclasses⟩ := hdefinitions findings.classes h.classes
  obtain ⟨functions, hfunctions⟩ := hdefinitions findings.functions h.functions
  obtain ⟨imports, himports⟩ := hdefinitions findings.imports h.imports
  obtain ⟨missingNodes, hmissingNodes⟩ := hissues .missing missing howned
  obtain ⟨errors, herrors⟩ := hissues .error _ h.errorNodes
  refine ⟨{ classes, functions, imports, missingNodes, errors }, ?_⟩
  rw [gather, hmissing]
  dsimp only [bind, Except.bind]
  rw [hclasses, hfunctions, himports, hmissingNodes, herrors]

end Outline

/-! ### How an analysis ends -/

/-- What `record` passes on of a category is what it found, if anything. -/
theorem RunLog.record_eq_ok {log log' : RunLog} {strict : Bool} {category : Category}
    {outcome : Except QueryError CategoryMatches} {found : Option CategoryMatches}
    (h : log.record strict category outcome = .ok (found, log')) :
    found = outcome.toOption := by
  rw [record.eq_def] at h
  split at h
  · split at h <;> exact (Prod.mk.inj (Except.ok.inj h)).1.symm
  · exact (Prod.mk.inj (Except.ok.inj h)).1.symm
  · split at h
    · cases h
    · exact (Prod.mk.inj (Except.ok.inj h)).1.symm
  · cases h

/-- The nodes in the groups of `matchesOf` are nodes of the tree, whatever the engine
delivers. -/
theorem SyntaxTree.owns_matchesOf (t : SyntaxTree) (engine : Engine Q) (clock : Query.Clock)
    (category : Category) (query : Q) (settings : QuerySettings) :
    ∀ group ∈ (t.matchesOf engine clock category query settings).groups,
      ∀ node ∈ group.handles, t.Owns node := by
  intro group hgroup node hnode
  obtain ⟨capture, hcapture, rfl⟩ := Query.exists_mem_of_mem_handles hgroup hnode
  exact Query.owns_captures_execute (Query.execute_rootHandle engine clock t query settings)
    capture
    hcapture

namespace Basis

variable {basis : Basis Q} {t : SyntaxTree}

/-- The three kinds of answers that `ask` can give. -/
theorem ask_cases (basis : Basis Q) (t : SyntaxTree) (category : Category) :
    (basis.patternFor category = none ∧
      basis.ask t category = .error (.unsupported category t.language)) ∨
    (∃ issue, basis.Refuses category issue ∧
      basis.ask t category = .error (.compile t.language category issue)) ∨
    ((basis.patternFor category).isSome = true ∧ (∀ issue, ¬ basis.Refuses category issue) ∧
      ∃ query, basis.ask t category =
        .ok (t.matchesOf basis.engine (basis.clocks category) category query
        (basis.settingsFor category))) := by
  unfold ask Refuses
  cases hpattern : basis.patternFor category with
  | none => exact Or.inl ⟨rfl, rfl⟩
  | some text =>
    dsimp only
    cases hcompile : basis.compile text with
    | error issue => exact Or.inr (Or.inl ⟨issue, ⟨text, rfl, hcompile⟩, rfl⟩)
    | ok query =>
      refine Or.inr (Or.inr ⟨rfl, ?_, query, rfl⟩)
      rintro issue ⟨text', htext, hissue⟩
      cases htext
      rw [hcompile] at hissue
      cases hissue

/-- What `ask` leaves in the groups of a category are nodes of the tree. -/
theorem owns_groupsOf_ask (basis : Basis Q) (t : SyntaxTree) (category : Category) :
    ∀ group ∈ Outline.groupsOf (basis.ask t category).toOption, ∀ node ∈ group.handles,
      t.Owns node := by
  rcases basis.ask_cases t category with ⟨-, hask⟩ | ⟨issue, -, hask⟩ | ⟨-, -, query, hask⟩
  · rw [hask]
    exact fun group hgroup => nomatch hgroup
  · rw [hask]
    exact fun group hgroup => nomatch hgroup
  · rw [hask]
    exact t.owns_matchesOf _ _ category query _

/-- What the answers of an analysis leave are nodes of the tree (`OwnsFindings`). -/
theorem ownsFindings (basis : Basis Q) (t : SyntaxTree) (log : RunLog) :
    Outline.OwnsFindings t
      (Outline.findingsOf (analyzedCategories.map fun c => (basis.ask t c).toOption) log) where
  classes := basis.owns_groupsOf_ask t .classes
  functions := basis.owns_groupsOf_ask t .functions
  imports := basis.owns_groupsOf_ask t .imports
  errors := basis.owns_groupsOf_ask t .errors

/-- What is noted of one category: a strict analysis ends if its pattern does not compile,
and any other takes the answer, and notes a category without a pattern. -/
theorem record_ask (basis : Basis Q) (t : SyntaxTree) (category : Category) (log : RunLog) :
    (basis.strict = true ∧ ∃ issue, basis.Refuses category issue ∧
      log.record basis.strict category (basis.ask t category) =
        .error (.compile t.language category issue)) ∨
    ((basis.strict = true → ∀ issue, ¬ basis.Refuses category issue) ∧ ∃ log',
      log.record basis.strict category (basis.ask t category) =
        .ok ((basis.ask t category).toOption, log') ∧
      log'.unsupported =
        log.unsupported ++ if (basis.patternFor category).isNone then [category] else []) := by
  rcases basis.ask_cases t category with
    ⟨hnone, hask⟩ | ⟨issue, hrefuses, hask⟩ | ⟨hsome, haccepts, query, hask⟩
  · rw [hask, hnone]
    refine Or.inr ⟨?_, _, rfl, rfl⟩
    rintro - issue ⟨text, htext, -⟩
    rw [hnone] at htext
    cases htext
  · rw [hask]
    obtain ⟨text, htext, -⟩ := id hrefuses
    cases hstrict : basis.strict with
    | true => exact Or.inl ⟨rfl, issue, hrefuses, rfl⟩
    | false =>
      refine Or.inr ⟨fun h => Bool.noConfusion h, _, rfl, ?_⟩
      rw [htext]
      exact (List.append_nil _).symm
  · rw [hask]
    have hnote : (if (basis.patternFor category).isNone = true then [category] else []) =
        [] := by
      rw [Option.isNone_eq_false_iff.2 hsome]
      rfl
    refine Or.inr ⟨fun _ => haccepts, ?_⟩
    rw [RunLog.record, hnote, List.append_nil]
    split
    · exact ⟨_, rfl, rfl⟩
    · exact ⟨_, rfl, rfl⟩

/-- **How the answers of categories end.** A strict analysis stops at the first category
whose pattern does not compile. Any other analysis goes through all of them and notes
those without a pattern. -/
theorem askAll_cases (basis : Basis Q) (t : SyntaxTree) (categories : List Category)
    (log : RunLog) :
    (basis.strict = true ∧ ∃ category issue,
      IsFirst (fun c => ∃ issue, basis.Refuses c issue) categories category ∧
      basis.Refuses category issue ∧
      askAll basis.strict (basis.ask t) categories log =
        .error (.compile t.language category issue)) ∨
    ((basis.strict = true → ∀ c ∈ categories, ∀ issue, ¬ basis.Refuses c issue) ∧ ∃ log',
      askAll basis.strict (basis.ask t) categories log =
        .ok (categories.map fun c => (basis.ask t c).toOption, log') ∧
      log'.unsupported = log.unsupported ++ categories.filter fun c =>
        (basis.patternFor c).isNone) := by
  induction categories generalizing log with
  | nil => exact Or.inr ⟨fun _ c hc => (nomatch hc), log, rfl, (List.append_nil _).symm⟩
  | cons category categories ih =>
    rcases basis.record_ask t category log with
      ⟨hstrict, issue, hrefuses, hrecord⟩ | ⟨haccepts, log', hrecord, hlog⟩
    · refine Or.inl ⟨hstrict, category, issue, ?_, hrefuses, ?_⟩
      · exact ⟨[], categories, rfl, ⟨issue, hrefuses⟩, fun c hc => (nomatch hc)⟩
      · rw [askAll, hrecord]
    · rcases ih log' with
        ⟨hstrict, first, issue, hfirst, hrefuses, hrest⟩ | ⟨hrest, log'', hall, hlog'⟩
      · -- the first category passes, so the first to be refused is among the others
        obtain ⟨before, after, rfl, hsome, hbefore⟩ := hfirst
        refine Or.inl ⟨hstrict, first, issue, ⟨category :: before, after, rfl, hsome, ?_⟩,
          hrefuses, ?_⟩
        · intro c hc
          rcases List.mem_cons.1 hc with rfl | hc
          · rintro ⟨issue', hissue'⟩
            exact haccepts hstrict issue' hissue'
          · exact hbefore c hc
        · rw [askAll, hrecord]
          dsimp only
          rw [hrest]
      · refine Or.inr ⟨fun hstrict c hc => ?_, log'', ?_, ?_⟩
        · rcases List.mem_cons.1 hc with rfl | hc
          · exact haccepts hstrict
          · exact hrest hstrict c hc
        · rw [askAll, hrecord]
          dsimp only
          rw [hall]
          rfl
        · rw [hlog', hlog, List.append_assoc, List.filter_cons]
          split <;> rfl

/-- **How an analysis ends.** A strict analysis fails with the first category whose
pattern does not compile. Any other analysis gives an outline, which notes the categories
without a pattern. -/
theorem analyze_cases (basis : Basis Q) (t : SyntaxTree) :
    (basis.strict = true ∧ ∃ category issue,
      IsFirst (fun c => ∃ issue, basis.Refuses c issue) analyzedCategories category ∧
      basis.Refuses category issue ∧
      basis.analyze t = .error (.compile t.language category issue)) ∨
    ((basis.strict = true → ∀ c ∈ analyzedCategories, ∀ issue, ¬ basis.Refuses c issue) ∧
      ∃ outline, basis.analyze t = .ok outline ∧ outline.tree = some t ∧
        outline.metadata.unsupportedCategories =
          analyzedCategories.filter fun c => (basis.patternFor c).isNone) := by
  rcases basis.askAll_cases t analyzedCategories {} with
    ⟨hstrict, category, issue, hfirst, hrefuses, hall⟩ | ⟨haccepts, log, hall, hlog⟩
  · refine Or.inl ⟨hstrict, category, issue, hfirst, hrefuses, ?_⟩
    rw [analyze, hall]
  · obtain ⟨parts, hparts⟩ := (basis.ownsFindings t log).exists_gather
    refine Or.inr ⟨haccepts, Outline.ofParts t log parts, ?_, rfl, hlog⟩
    rw [analyze, hall]
    dsimp only
    rw [Outline.assemble, hparts]
    rfl

end Basis

/-! ### What an analyzer answers -/

namespace Analyzer

variable {a : Analyzer Q} {host : Host Q} {content : Bytes} {language : Language}

/-- The tree of a source, from the outcome for its language. -/
def treeFrom (engine : Engine Q) (outcome : Except LanguageError Binding) (id : Nat)
    (content : Bytes) (language : Language) : Except ParseError SyntaxTree :=
  match outcome with
  | .error e => .error (.language e)
  | .ok binding =>
    if binding.grammar.isCompatible then
      SyntaxTree.parseWith (engine.parse language binding.grammar) id language content
    else .error (.language (.incompatible language binding.grammar.refusal))

/-- `parse` depends on the outcome for the language and on the number of the tree
(`treeFrom`). -/
theorem parse_fst (a : Analyzer Q) (host : Host Q) (content : Bytes) (language : Language) :
    (a.parse host content language).1 =
      treeFrom host.engine (a.handler.service.bind host.files language).1 a.nextTree content
        language := by
  unfold parse LanguageService.bindParser treeFrom
  dsimp only
  cases (a.handler.service.bind host.files language).1 with
  | error e => rfl
  | ok binding =>
    dsimp only
    cases binding.grammar.isCompatible <;> rfl

/-- A tree that `treeFrom` gives was built by a grammar that parsers accept. -/
theorem treeFrom_eq_ok {engine : Engine Q} {outcome : Except LanguageError Binding}
    {id : Nat} {t : SyntaxTree} (h : treeFrom engine outcome id content language = .ok t) :
    ∃ binding tree, outcome = .ok binding ∧ binding.grammar.isCompatible = true ∧
      engine.parse language binding.grammar content = some tree ∧
      t = SyntaxTree.ofTree id language content tree := by
  unfold treeFrom at h
  cases outcome with
  | error e => cases h
  | ok binding =>
    dsimp only at h
    split at h
    · rename_i hcompatible
      unfold SyntaxTree.parseWith at h
      split at h
      · rename_i tree htree
        cases h
        exact ⟨binding, tree, rfl, hcompatible, htree, rfl⟩
      · cases h
    · cases h

/-- The handler after a source was parsed. -/
theorem handler_parse (a : Analyzer Q) (host : Host Q) (content : Bytes)
    (language : Language) :
    (a.parse host content language).2.handler =
      { a.handler with service := (a.handler.service.bind host.files language).2 } := by
  unfold parse
  dsimp only
  rw [← LanguageService.bindParser_snd]
  split <;> rfl

/-- A source that cannot be parsed has an outline that says so, `Outline.unparsed`. -/
theorem parseContent_fst_of_error {e : ParseError}
    (h : (a.parse host content language).1 = .error e) :
    (a.parseContent host content language).1 = .ok (Outline.unparsed language e.message) := by
  unfold parseContent
  dsimp only
  rw [h]

/-- **Where outlines come from**: a source that cannot be parsed, or the analysis of a tree. -/
theorem parseContent_eq_ok {outline : Outline}
    (h : (a.parseContent host content language).1 = .ok outline) :
    (∃ e, (a.parse host content language).1 = .error e ∧
      outline = Outline.unparsed language e.message) ∨
    ∃ t, (a.parse host content language).1 = .ok t ∧
      (Outline.analyze (a.parse host content language).2.handler host t
        (a.parse host content language).2.strict).1 =
        .ok outline := by
  cases hparse : (a.parse host content language).1 with
  | error e =>
    rw [parseContent_fst_of_error hparse] at h
    exact Or.inl ⟨e, rfl, (Except.ok.inj h).symm⟩
  | ok t =>
    refine Or.inr ⟨t, rfl, ?_⟩
    rw [parseContent] at h
    dsimp only at h
    rw [hparse] at h
    dsimp only at h
    split at h
    next outline' hanalyze => rw [hanalyze, Except.ok.inj h]
    · cases h

/-- **What a sound analyzer answers about a source with a tree**: the analysis by its
`basis`. -/
theorem parseContent_fst_of_ok (hsound : a.handler.Sound host.engine) {t : SyntaxTree}
    {binding : Binding} (htree : (a.parse host content language).1 = .ok t)
    (hbinding : (a.handler.service.bind host.files language).1 = .ok binding) :
    (a.parseContent host content language).1 =
      ((a.handler.basis host language binding.grammar a.strict).analyze t).mapError
        .query := by
  have hparse := a.uses_parse host content language
  have hhandler := a.handler_parse host content language
  have hok := htree
  rw [parse_fst] at hok
  obtain ⟨binding', tree, hbinding', -, -, rfl⟩ := treeFrom_eq_ok hok
  obtain rfl := Except.ok.inj (hbinding.symm.trans hbinding')
  -- the language was settled when the source was parsed, so the queries are compiled for
  -- the same grammar
  have hsettled : (a.parse host content language).2.handler.service.Settled language
      (.ok binding) := by
    rw [hhandler, ← hbinding]
    exact a.handler.service.settled_bind host.files language
  have hbasis : (a.parse host content language).2.handler.basis host language binding.grammar
      (a.parse host content language).2.strict =
      a.handler.basis host language binding.grammar a.strict := by
    rw [hhandler, hparse.strict_eq]
    rfl
  have hanalyze :=
    QueryHandler.analyze_fst (t := SyntaxTree.ofTree a.nextTree language content tree)
    (hparse.handler.sound hsound) hsettled (a.parse host content language).2.strict
  have hlanguage : (SyntaxTree.ofTree a.nextTree language content tree).language =
      language := rfl
  rw [hlanguage, hbasis] at hanalyze
  rw [← hanalyze]
  unfold parseContent
  dsimp only
  rw [htree]
  dsimp only
  cases (Outline.analyze (a.parse host content language).2.handler host
    (SyntaxTree.ofTree a.nextTree language content tree)
    (a.parse host content language).2.strict).1 <;> rfl

/-- The pattern in effect for a category does not compile for the grammar of a language. -/
def Refuses (a : Analyzer Q) (host : Host Q) (language : Language) (category : Category)
    (issue : Query.Issue) : Prop :=
  ∃ binding text, (a.handler.service.bind host.files language).1 = .ok binding ∧
    a.handler.registry.patternFor category language = some text ∧
    host.engine.compile language binding.grammar text = .error issue

/-- A pattern is refused in one way. -/
theorem Refuses.unique {category : Category} {issue issue' : Query.Issue}
    (h : a.Refuses host language category issue)
    (h' : a.Refuses host language category issue') :
    issue = issue' := by
  obtain ⟨binding, text, hbinding, htext, hissue⟩ := h
  obtain ⟨binding', text', hbinding', htext', hissue'⟩ := h'
  obtain rfl := Except.ok.inj (hbinding.symm.trans hbinding')
  obtain rfl := Option.some.inj (htext.symm.trans htext')
  exact Except.error.inj (hissue.symm.trans hissue')

/-- A language with a grammar has its patterns refused by the `basis` of the analysis. -/
theorem refuses_iff {binding : Binding}
    (hbinding : (a.handler.service.bind host.files language).1 = .ok binding)
    (category : Category) (issue : Query.Issue) :
    a.Refuses host language category issue ↔
      (a.handler.basis host language binding.grammar a.strict).Refuses category issue := by
  constructor
  · rintro ⟨binding', text, hbinding', htext, hissue⟩
    obtain rfl := Except.ok.inj (hbinding.symm.trans hbinding')
    exact ⟨text, htext, hissue⟩
  · rintro ⟨text, htext, hissue⟩
    exact ⟨binding, text, hbinding, htext, hissue⟩

/-- **The three kinds of answers of a sound analyzer.** A source without a tree has an
outline that says why. A strict analyzer fails with the first category whose pattern does
not compile. Otherwise there is an outline of the tree, which lists the categories without
a pattern. -/
theorem parseContent_cases (hsound : a.handler.Sound host.engine) (content : Bytes)
    (language : Language) :
    (∃ e, (a.parse host content language).1 = .error e ∧
      (a.parseContent host content language).1 = .ok (Outline.unparsed language e.message)) ∨
    (∃ t, (a.parse host content language).1 = .ok t ∧ a.strict = true ∧ ∃ category issue,
      IsFirst (fun c => ∃ issue, a.Refuses host language c issue) analyzedCategories category ∧
      a.Refuses host language category issue ∧
      (a.parseContent host content language).1 =
        .error (.query (.compile language category issue))) ∨
    (∃ t outline, (a.parse host content language).1 = .ok t ∧
      (a.strict = true → ∀ c ∈ analyzedCategories, ∀ issue,
        ¬ a.Refuses host language c issue) ∧
      (a.parseContent host content language).1 = .ok outline ∧ outline.tree = some t ∧
      outline.metadata.unsupportedCategories =
        analyzedCategories.filter fun c =>
          (a.handler.registry.patternFor c language).isNone) := by
  cases hparse : (a.parse host content language).1 with
  | error e => exact Or.inl ⟨e, rfl, parseContent_fst_of_error hparse⟩
  | ok t =>
    have hok := hparse
    rw [parse_fst] at hok
    obtain ⟨binding, tree, hbinding, -, -, ht⟩ := treeFrom_eq_ok hok
    have hlanguage : t.language = language := by
      rw [ht]
      rfl
    rw [parseContent_fst_of_ok hsound hparse hbinding]
    simp only [refuses_iff hbinding]
    rcases (a.handler.basis host language binding.grammar a.strict).analyze_cases t with
      ⟨hstrict, category, issue, hfirst, hrefuses, hanalyze⟩ |
      ⟨haccepts, outline, hanalyze, htree, hunsupported⟩
    · refine Or.inr (Or.inl ⟨t, rfl, hstrict, category, issue, hfirst, hrefuses, ?_⟩)
      rw [hanalyze, hlanguage]
      rfl
    · refine Or.inr (Or.inr ⟨t, outline, rfl, haccepts, ?_, htree, hunsupported⟩)
      rw [hanalyze]
      rfl

/-- **When there is no outline**: a strict analyzer built a tree, and the pattern of some
category does not compile. The error is that of the first one. -/
theorem parseContent_eq_error_iff (hsound : a.handler.Sound host.engine) {e : AnalyzerError} :
    (a.parseContent host content language).1 = .error e ↔
      a.strict = true ∧ (∃ t, (a.parse host content language).1 = .ok t) ∧ ∃ category issue,
        IsFirst (fun c => ∃ issue, a.Refuses host language c issue) analyzedCategories
          category ∧
        a.Refuses host language category issue ∧
        e = .query (.compile language category issue) := by
  have hcases := parseContent_cases hsound content language
  constructor
  · intro herror
    rw [herror] at hcases
    rcases hcases with
      ⟨e', -, hok⟩ | ⟨t, ht, hstrict, category, issue, hfirst, hrefuses, heq⟩ |
      ⟨t, outline, -, -, hok, -⟩
    · cases hok
    · exact ⟨hstrict, ⟨t, ht⟩, category, issue, hfirst, hrefuses, Except.error.inj heq⟩
    · cases hok
  · rintro ⟨hstrict, ⟨t, ht⟩, category, issue, hfirst, hrefuses, rfl⟩
    rcases hcases with
      ⟨e', hparse, -⟩ | ⟨t', -, -, category', issue', hfirst', hrefuses', heq⟩ |
      ⟨t', outline, -, haccepts, -⟩
    · rw [ht] at hparse
      cases hparse
    · obtain rfl := hfirst.unique hfirst'
      obtain rfl := hrefuses.unique hrefuses'
      exact heq
    · exact absurd hrefuses (haccepts hstrict category hfirst.mem issue)

/-- `parseContent` of an analyzer that is not strict always gives an outline. -/
theorem exists_parseContent_eq_ok (hsound : a.handler.Sound host.engine)
    (hlenient : a.strict = false) :
    ∃ outline, (a.parseContent host content language).1 = .ok outline := by
  cases hanswer : (a.parseContent host content language).1 with
  | ok outline => exact ⟨outline, rfl⟩
  | error e =>
    obtain ⟨hstrict, -⟩ := (parseContent_eq_error_iff hsound).1 hanswer
    rw [hlenient] at hstrict
    cases hstrict

/-- The outline of a source with a tree is that of the tree, and lists the categories
without a pattern. -/
theorem tree_of_parseContent_eq_ok (hsound : a.handler.Sound host.engine) {t : SyntaxTree}
    {outline : Outline} (ht : (a.parse host content language).1 = .ok t)
    (houtline : (a.parseContent host content language).1 = .ok outline) :
    outline.tree = some t ∧ outline.metadata.unsupportedCategories =
      analyzedCategories.filter fun c =>
        (a.handler.registry.patternFor c language).isNone := by
  have hcases := parseContent_cases hsound content language
  rw [ht, houtline] at hcases
  rcases hcases with ⟨e, herror, -⟩ | ⟨t', -, -, category, issue, -, -, herror⟩ |
    ⟨t', outline', ht', -, houtline', htree, hunsupported⟩
  · cases herror
  · cases herror
  · obtain rfl := Except.ok.inj ht'
    obtain rfl := Except.ok.inj houtline'
    exact ⟨htree, hunsupported⟩

end Analyzer

/-- **Problems with a source or its grammar are data**, for every engine, whatever it
compiles and delivers. An analyzer that is not strict always gives an outline. A strict
one fails exactly if a tree was built and a pattern does not compile, with the first
category of which that is so. A source without a tree has an outline that says why, and
categories without a pattern are listed. -/
theorem parseContent_problems_are_data {engine : Engine Q} {s : Session Q}
    (h : Reachable engine s) (content : Bytes) (language : Language) :
    let a := s.analyzer
    let host := s.host engine
    let answer := (a.parseContent host content language).1
    (a.strict = false → ∃ outline, answer = .ok outline) ∧
    (a.strict = true → ∀ e, answer = .error e ↔
      (∃ t, (a.parse host content language).1 = .ok t) ∧ ∃ category issue,
        IsFirst (fun c => ∃ issue, a.Refuses host language c issue) analyzedCategories
          category ∧
        a.Refuses host language category issue ∧
        e = .query (.compile language category issue)) ∧
    (∀ e, (a.parse host content language).1 = .error e →
      answer = .ok (Outline.unparsed language e.message)) ∧
    (∀ t outline, (a.parse host content language).1 = .ok t → answer = .ok outline →
      outline.tree = some t ∧ outline.metadata.unsupportedCategories =
        analyzedCategories.filter fun c =>
          (a.handler.registry.patternFor c language).isNone) := by
  have hsound : s.analyzer.handler.Sound (s.host engine).engine := h.sound
  dsimp only
  refine ⟨Analyzer.exists_parseContent_eq_ok hsound, fun hstrict e => ?_,
    fun e => Analyzer.parseContent_fst_of_error,
    fun t outline => Analyzer.tree_of_parseContent_eq_ok hsound⟩
  rw [Analyzer.parseContent_eq_error_iff hsound]
  exact ⟨fun herror => herror.2, fun hrefused => ⟨hstrict, hrefused⟩⟩

/-- A strict analyzer fails with the pattern for functions, although that for imports does
not compile either; the category of classes has no pattern. -/
theorem parseContent_problems_are_data_strict :
    let engine :=
      Query.engine (fun _ _ _ => some (.node default [])) fun _ _ => { named := ["module"] }
    let registry :=
      (Registry.empty.register .base .functions "(function)").register .base .imports "(module"
    let s : Session Query :=
      { analyzer := { handler := { service := .ofLoader { searchPaths := [] }, registry },
                      strict := true }
        files := .empty
        clocks := fun _ _ => 0 }
    Reachable engine s ∧ (s.analyzer.parseContent (s.host engine) [] .python).1 =
      .error (.query (.compile .python .functions ⟨0, 1, "\"function\""⟩)) := by
  intro engine registry s
  have hreachable : Reachable engine s := .new rfl
  refine ⟨hreachable, ((parseContent_problems_are_data hreachable [] .python).2.1 rfl _).2 ?_⟩
  have hbinding : (s.analyzer.handler.service.bind s.files .python).1 =
      .ok { grammar := ⟨14, 275, 32⟩, origin := .bundled } := rfl
  have hrefuses : s.analyzer.Refuses (s.host engine) .python .functions
      ⟨0, 1, "\"function\""⟩ :=
    ⟨_, "(function)", hbinding, by decide, rfl⟩
  refine ⟨⟨_, rfl⟩, .functions, _, ⟨[.classes], [.imports, .errors], rfl, ⟨_, hrefuses⟩, ?_⟩,
    hrefuses, rfl⟩
  rintro category hcategory ⟨issue, binding, text, -, htext, -⟩
  obtain rfl := List.mem_singleton.1 hcategory
  cases htext

end SourceOutline
