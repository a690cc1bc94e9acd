import SourceOutline.Proofs.Issues
import SourceOutline.Proofs.MatchCounts
import SourceOutline.Proofs.NodeQueries

/-!
# Clean Subtrees

A node of a tree is flagged if there is an error in its subtree. The flags come from the
grammar engine, and the verdicts on a node are read off its own flag: whether it verifies,
whether a run from it is valid, and for the root whether the source is supported at all.
This module says when such a verdict covers the whole subtree.

All that is asked of the engine is that it flags errors and missing nodes, and the parent
of what it flags (`Tree.FlagsErrors`). So a flag goes up from each child to its parent
(`Arena.Flagged.parent`), and from a node to all that enclose it. Read the other way, a
node without a flag has none below it.

## Main results

* `Arena.Flagged.of_encloses`: a flag goes up to all that enclose the node.
* `SyntaxTree.verifyNode_eq_true_iff`: nodes verify that have no flag.
* `QueryHandler.capturesOnlyErrors_of_pattern`: the pattern for error nodes captures
  nothing else.
* `clean_verdict_covers_subtree`: what a clean verdict says of a subtree, and of an outline.
-/

namespace SourceOutline

/-- Errors are flagged: each error and each missing node has the flag, and so has the
parent of what has it. -/
structure Tree.FlagsErrors (tree : Tree) : Prop where
  own : ∀ node ∈ tree.preorder, node.record.isError = true ∨ node.record.isMissing = true →
    node.record.hasError = true
  parent : ∀ node ∈ tree.preorder, ∀ child ∈ node.children, child.record.hasError = true →
    node.record.hasError = true

/-! ### Flags go up -/

namespace Arena

open SourceOutline.Tree

variable {arena : Arena} {i p : Nat}

/-- The node at a position has the flag for errors. -/
def Flagged (arena : Arena) (index : Nat) : Prop :=
  ∃ entry, arena.nodes[index]? = some entry ∧ entry.record.hasError = true

/-- What `Holds` in an arena is a node of its tree. -/
theorem Holds.mem_preorder {place : Place} {tree : Tree} (h : arena.Holds place tree) :
    tree ∈ arena.root.preorder := by
  rw [← map_snd_placed rootPlace]
  exact List.mem_map_of_mem h

/-- A flag is that of the subtree that is held. -/
theorem Holds.flagged_iff {place : Place} {tree : Tree} (h : arena.Holds place tree) :
    arena.Flagged place.index ↔ tree.record.hasError = true := by
  constructor
  · rintro ⟨entry, hentry, hflag⟩
    rw [h.getElem?] at hentry
    obtain rfl := Option.some.inj hentry
    exact hflag
  · intro hflag
    exact ⟨_, h.getElem?, hflag⟩

/-- **One step up**: the parent of a flagged node is flagged. -/
theorem Flagged.parent (hflags : arena.root.FlagsErrors) (h : arena.Flagged i)
    (hchild : arena.ChildOf i p) :
    arena.Flagged p := by
  obtain ⟨place, tree, hold, rfl⟩ := holds_of_bind_eq_some hchild
  obtain ⟨above, record, before, later, habove, -, rfl⟩ :=
    hold.exists_above (hold.parent?.symm.trans hchild)
  have hmem : tree ∈ (Tree.node record (before ++ tree :: later)).children := by
    rw [children]
    simp
  exact habove.flagged_iff.2 (hflags.parent _ habove.mem_preorder tree hmem
    (hold.flagged_iff.1 h))

/-- **A flag goes up** to all that `Encloses` the node. -/
theorem Flagged.of_encloses (hflags : arena.root.FlagsErrors) (h : arena.Flagged i)
    (hencloses : arena.Encloses p i) :
    arena.Flagged p := by
  induction hencloses with
  | refl => exact h
  | tail _ hchild ih => exact ih.parent hflags hchild

/-- What a node encloses is in the arena with it. -/
theorem Encloses.lt_nodeCount (hencloses : arena.Encloses p i) (h : p < arena.nodeCount) :
    i < arena.nodeCount := by
  rcases Relation.ReflTransGen.cases_head hencloses with rfl | ⟨above, hchild, -⟩
  · exact h
  · exact hchild.lt.2

/-- Errors and missing nodes are flagged. -/
theorem flagged_of_read (hflags : arena.root.FlagsErrors) {entry : Entry}
    (hentry : arena.nodes[i]? = some entry)
    (h : entry.record.isError = true ∨ entry.record.isMissing = true) : arena.Flagged i := by
  obtain ⟨place, tree, hold, rfl, rfl⟩ := getElem?_nodes_eq_some_iff.1 hentry
  exact hold.flagged_iff.2 (hflags.own tree hold.mem_preorder h)

end Arena

/-! ### Verdicts on nodes -/

namespace SyntaxTree

variable {t : SyntaxTree} {node other : Handle}

/-- **`verifyNode` accepts the nodes that have no flag.** -/
theorem verifyNode_eq_true_iff (hflags : t.root.FlagsErrors) :
    t.verifyNode node = .ok true ↔ t.Owns node ∧ ¬t.Flagged node.index := by
  by_cases howns : t.Owns node
  · obtain ⟨entry, hentry, hnode, -⟩ := howns.exists_entry
    have hverify : t.verifyNode node =
        .ok (!entry.record.hasError && !entry.record.isError && !entry.record.isMissing) := by
      rw [verifyNode, hnode]
      rfl
    have hflag : t.Flagged node.index ↔ entry.record.hasError = true := by
      simp [Arena.Flagged, hentry]
    have hown := Arena.flagged_of_read hflags hentry
    rw [hflag] at hown
    rw [hverify, hflag]
    simp only [Except.ok.injEq, Bool.and_eq_true, Bool.not_eq_true', howns, true_and]
    grind
  · have hverify : t.verifyNode node = .error (t.refusal node) := by
      rw [verifyNode, node_of_not_owns howns]
      rfl
    simp [hverify, howns]

/-- **A node that `verifyNode` accepts encloses only nodes that it accepts.** -/
theorem verifyNode_of_encloses (hflags : t.root.FlagsErrors)
    (h : t.verifyNode node = .ok true) (htree : other.tree = t.id)
    (hencloses : t.Encloses node.index other.index) : t.verifyNode other = .ok true := by
  obtain ⟨howns, hflag⟩ := (verifyNode_eq_true_iff hflags).1 h
  have hother : t.Owns other := ⟨htree, hencloses.lt_nodeCount howns.2⟩
  exact (verifyNode_eq_true_iff hflags).2 ⟨hother,
    fun hother => hflag (hother.of_encloses hflags hencloses)⟩

/-- What is read at a node that `verifyNode` accepts. -/
theorem exists_clean_of_verifyNode (h : t.verifyNode node = .ok true) :
    ∃ entry, t.node node = .ok entry ∧ entry.record.hasError = false ∧
      entry.record.isError = false ∧
      entry.record.isMissing = false := by
  obtain ⟨entry, hentry, h⟩ := exists_of_bind_eq_ok h
  have hclean := Except.ok.inj h
  rw [Bool.and_eq_true, Bool.and_eq_true, Bool.not_eq_true', Bool.not_eq_true',
    Bool.not_eq_true', and_assoc] at hclean
  exact ⟨entry, hentry, hclean⟩

/-- What is read is a node of the tree. -/
theorem owns_of_node {entry : Entry} (h : t.node node = .ok entry) : t.Owns node := by
  by_contra hforeign
  rw [node_of_not_owns hforeign] at h
  cases h

/-- `missingNodes` finds nothing below a node that verifies. -/
theorem missingNodes_of_verifyNode (hflags : t.root.FlagsErrors)
    (h : t.verifyNode node = .ok true) :
    t.missingNodes node = .ok [] := by
  obtain ⟨howns, -⟩ := (verifyNode_eq_true_iff hflags).1 h
  rw [howns.missingNodes_eq_scan]
  refine congrArg _ (List.eq_nil_iff_forall_not_mem.2 fun other hother => ?_)
  obtain ⟨htree, hencloses, entry, hentry, hmissing⟩ := howns.mem_scan_iff.1 hother
  obtain ⟨entry', hentry', -, -, hclean⟩ :=
    exists_clean_of_verifyNode (verifyNode_of_encloses hflags h htree hencloses)
  obtain rfl := Except.ok.inj (hentry.symm.trans hentry')
  rw [hclean] at hmissing
  cases hmissing

/-- `execute` gives valid runs from a node that verifies, whatever the engine finds. -/
theorem exists_valid_of_verifyNode (h : t.verifyNode node = .ok true) {Q : Type}
    (engine : Engine Q) (clock : Query.Clock) (query : Q) (settings : QuerySettings) :
    ∃ result, Query.execute engine clock t query node settings = .ok result ∧
      result.isValid = true := by
  obtain ⟨entry, hentry, hclean, -⟩ := exists_clean_of_verifyNode h
  have howns := owns_of_node hentry
  obtain ⟨place, tree, hold, hindex⟩ := Arena.exists_holds howns.2
  rw [node_of_read howns.1 (hindex ▸ hold.getElem?)] at hentry
  obtain rfl := Except.ok.inj hentry
  rw [Query.execute, howns.engineNode_eq hold hindex]
  refine ⟨_, rfl, ?_⟩
  rw [Query.resultOf, Bool.not_eq_true']
  exact hclean

/-- **In a tree without errors, all nodes verify.** -/
theorem Owns.verifyNode_of_clean (howns : t.Owns node) (hflags : t.root.FlagsErrors)
    (h : t.hasError = false) :
    t.verifyNode node = .ok true := by
  have hencloses : t.Encloses 0 node.index := by
    refine ((Arena.Holds.root t.toArena).encloses_iff node.index).2 ⟨Nat.zero_le _, ?_⟩
    rw [← t.nodeCount_eq_size]
    exact Nat.lt_of_lt_of_eq howns.2 (Nat.zero_add _).symm
  refine (verifyNode_eq_true_iff hflags).2 ⟨howns, fun hflag => ?_⟩
  have hroot := (Arena.Holds.root t.toArena).flagged_iff.1 (hflag.of_encloses hflags hencloses)
  exact absurd (hroot.symm.trans h) (by decide)

end SyntaxTree

/-! ### Patterns for errors -/

namespace Query

variable {arena : Arena} {test : NodeTest} {name : String}

/-- The hits of `nodeQuery` are at nodes that pass the test. -/
theorem passes_of_mem_deliver {root : Nat} {maxStartDepth : Option Nat} {hit : Hit}
    (h : hit ∈ deliver arena (nodeQuery test name) root maxStartDepth) :
    ∃ index entry, hit = nodeHit name index ∧ arena.nodes[index]? = some entry ∧
      test.passes entry.record = true := by
  obtain ⟨candidate, hcandidate, rfl⟩ := List.mem_map.1 h
  have hmem := (sort_perm _ _).mem_iff.1 hcandidate
  obtain ⟨⟨rule, patternIndex⟩, hrule, hmem⟩ := List.mem_flatMap.1 hmem
  obtain ⟨rfl, rfl⟩ := Prod.mk.inj (List.mem_singleton.1 hrule)
  obtain ⟨index, -, hmem⟩ := List.mem_flatMap.1 hmem
  rw [candidatesAt_node] at hmem
  split at hmem
  next hpasses =>
    obtain ⟨entry, hentry, hpasses⟩ := (Option.any_eq_true _ _).1 hpasses
    obtain rfl := List.mem_singleton.1 hmem
    exact ⟨index, entry, rfl, hentry, hpasses⟩
  next => cases hmem

/-- **What `nodeQuery` captures** are nodes that pass the test, if the engine's numbers are all
different. -/
theorem passes_of_mem_captures {t : SyntaxTree}
    (hids : (t.root.preorder.map fun node => node.record.id).Nodup) {settings : QuerySettings}
    {clock : Clock} {hasError : Bool} {patternCount root capacity : Nat}
    {maxStartDepth : Option Nat} {capture : Capture} (hcapacity : 0 < capacity)
    (h : capture ∈ (resultOf t patternCount settings clock hasError
      (run t.toArena (nodeQuery test name) root maxStartDepth capacity)).captures) :
    ∃ entry, t.node capture.node = .ok entry ∧ test.passes entry.record = true := by
  obtain ⟨m, hm, pair, hpair, hnode⟩ := mem_captures_resultOf h
  rw [found_run, deliverWithin, exceeded_runBounded_nodeQuery hcapacity] at hm
  obtain ⟨hit, hhit, rfl⟩ := List.mem_map.1 hm
  obtain ⟨index, entry, rfl, hentry, hpasses⟩ := passes_of_mem_deliver hhit
  have hindex : index < t.nodeCount := (Array.getElem?_eq_some_iff.1 hentry).1
  obtain ⟨tree, hcaptures, hhandle⟩ := capturesAt_nodeHit hids name hindex
  rw [hcaptures] at hpair
  obtain rfl := List.mem_singleton.1 hpair
  rw [← Option.some.inj (hhandle.symm.trans hnode)]
  exact ⟨entry, SyntaxTree.node_of_read rfl hentry, hpasses⟩

end Query

namespace QueryHandler

/-- The pattern in effect for errors captures only errors in a tree. -/
def CapturesOnlyErrors {Q : Type} (handler : QueryHandler Q) (host : Host Q) (t : SyntaxTree) :
    Prop :=
  ∀ found, handler.answer host t .errors = .ok found → ∀ capture ∈ found.result.captures,
    ∃ entry, t.node capture.node = .ok entry ∧ entry.record.isError = true

/-- The pattern for error nodes is compiled to the `nodeQuery` for them. -/
theorem compile_errorPattern (vocabulary : Vocabulary) :
    Query.compile vocabulary "(ERROR) @error.def" = .ok (Query.nodeQuery .error "error.def") :=
  @Query.compile_nodeQuery vocabulary "(ERROR) @error.def" "ERROR".toList "error.def".toList
    .error rfl
    ⟨rfl, rfl⟩ (fun _ => rfl) ⟨rfl, rfl⟩

/-- **With `Query.engine`, the pattern for error nodes captures only errors**, whatever
the settings and the clock are. -/
theorem capturesOnlyErrors_of_pattern {handler : QueryHandler Query} {t : SyntaxTree}
    {files : FileTree} {clocks : Category → Query.Clock}
    {parse : Language → Grammar → Bytes → Option Tree}
    {vocabulary : Language → Grammar → Vocabulary}
    (hsound : handler.Sound (Query.engine parse vocabulary))
    (hids : (t.root.preorder.map fun node => node.record.id).Nodup)
    (hpattern : handler.registry.patternFor .errors t.language = some "(ERROR) @error.def") :
    handler.CapturesOnlyErrors { files, engine := Query.engine parse vocabulary, clocks }
      t := by
  intro found hfound capture hcapture
  generalize hhost :
    ({ files, engine := Query.engine parse vocabulary, clocks } : Host Query) = host
    at hfound
  have hengine : host.engine = Query.engine parse vocabulary := by rw [← hhost]
  cases hcompile : (handler.compile host t.language .errors "(ERROR) @error.def").1 with
  | error e =>
    rw [answer, findCategory_of_pattern hpattern, hcompile] at hfound
    cases hfound
  | ok query =>
    obtain rfl : query = Query.nodeQuery .error "error.def" := by
      rw [(compile_eq_build (hengine ▸ hsound) t.language .errors _).1] at hcompile
      obtain ⟨binding, -, hquery⟩ := compile_of_build_eq_ok hcompile
      rw [hengine] at hquery
      change Query.compileFor _ _ _ = _ at hquery
      unfold Query.compileFor at hquery
      split at hquery
      · exact Except.ok.inj (hquery.symm.trans (compile_errorPattern _))
      · cases hquery
    rw [answer_of_compile hpattern hcompile, hengine] at hfound
    obtain rfl := Except.ok.inj hfound
    exact Query.passes_of_mem_captures hids (Nat.le_max_right ..) hcapture

end QueryHandler

/-! ### Verdicts on outlines -/

/-- In a clean tree, a pattern that captures only errors has no groups. -/
theorem QueryHandler.CapturesOnlyErrors.groupsOf_eq_nil {Q : Type} {handler : QueryHandler Q}
    {host : Host Q} {t : SyntaxTree} (h : handler.CapturesOnlyErrors host t)
    (hflags : t.root.FlagsErrors) (hclean : t.hasError = false) :
    Outline.groupsOf (handler.answer host t .errors).toOption = [] := by
  cases hask : handler.answer host t .errors with
  | error e => rfl
  | ok found =>
    have hcaptures : found.result.captures = [] := by
      rw [List.eq_nil_iff_forall_not_mem]
      intro capture hcapture
      obtain ⟨entry, hentry, herror⟩ := h _ hask capture hcapture
      have hverify := (SyntaxTree.owns_of_node hentry).verifyNode_of_clean hflags hclean
      obtain ⟨entry', hentry', -, hsound', -⟩ := SyntaxTree.exists_clean_of_verifyNode hverify
      obtain rfl := Except.ok.inj (hentry.symm.trans hentry')
      exact absurd (herror.symm.trans hsound') (by decide)
    obtain ⟨-, query, -, rfl⟩ := exists_query_of_answer hask
    exact congrArg Query.groupCaptures hcaptures

/-- **A clean verdict covers the whole subtree.** Let errors and missing nodes be flagged
in a tree, and the parents of what is flagged. Then, if a node verifies,

* a walk from it visits only nodes that verify, and none of them is an error or missing;
* no missing nodes are found from it;
* a run of any query from it is valid, whatever the engine finds and whatever the clock and the
  settings are.

If the root has no flag, each outline of the tree, of any analyzer, lists no missing
nodes, says that the source is supported and was parsed without a problem, and lists no
issues at all if the pattern in effect for errors captures only errors. -/
theorem clean_verdict_covers_subtree {t : SyntaxTree} (hflags : t.root.FlagsErrors) :
    (∀ node, t.verifyNode node = .ok true →
      (∀ once, ∃ visited, t.traverse node once = .ok visited ∧
        ∀ other ∈ visited, t.verifyNode other = .ok true ∧
        ∃ entry, t.node other = .ok entry ∧ entry.record.isError = false ∧
          entry.record.isMissing = false) ∧
      t.missingNodes node = .ok [] ∧
      ∀ (Q : Type) (engine : Engine Q) clock (query : Q) settings,
        ∃ result, Query.execute engine clock t query node settings = .ok result ∧
          result.isValid = true) ∧
    (t.hasError = false → ∀ (Q : Type) (engine : Engine Q) s, Reachable engine s →
      ∀ strict outline, (Outline.analyze s.analyzer.handler (s.host engine) t strict).1 =
        .ok outline →
      outline.missingNodes = [] ∧ outline.status = .parsedOk ∧ outline.isSupported = true ∧
        (s.analyzer.handler.CapturesOnlyErrors (s.host engine) t →
          outline.errorNodes = [])) := by
  constructor
  · intro node hnode
    refine ⟨fun once => ?_, SyntaxTree.missingNodes_of_verifyNode hflags hnode,
      fun Q engine => SyntaxTree.exists_valid_of_verifyNode hnode engine⟩
    obtain ⟨howns, -⟩ := (SyntaxTree.verifyNode_eq_true_iff hflags).1 hnode
    obtain ⟨place, tree, hold, hindex⟩ := Arena.exists_holds howns.2
    have hvisited := howns.traverse_eq hold hindex once
    refine ⟨_, hvisited, fun other hother => ?_⟩
    obtain ⟨htree, hencloses⟩ := (SyntaxTree.mem_traverse_iff hvisited).1 hother
    have hverify := SyntaxTree.verifyNode_of_encloses hflags hnode htree hencloses
    obtain ⟨entry, hentry, -, hclean⟩ := SyntaxTree.exists_clean_of_verifyNode hverify
    exact ⟨hverify, entry, hentry, hclean⟩
  · intro hclean Q engine s hreachable strict outline houtline
    have hsound : s.analyzer.handler.Sound (s.host engine).engine := hreachable.sound
    obtain ⟨log, parts, missing, rfl, hmissing, hstands, herrors⟩ :=
      Outline.exists_issues_of_analyze hsound houtline
    have hroot : t.Owns t.rootHandle := SyntaxTree.owns_handle t.nodeCount_pos
    rw [SyntaxTree.missingNodes_of_verifyNode hflags
      (hroot.verifyNode_of_clean hflags hclean)] at hmissing
    obtain rfl := Except.ok.inj hmissing
    have hnone : parts.missingNodes = [] := List.forall₂_nil_left_iff.1 hstands
    refine ⟨hnone, if_neg (ne_true_of_eq_false hclean), congrArg not hclean, fun honly => ?_⟩
    · rw [honly.groupsOf_eq_nil hflags hclean] at herrors
      rw [Outline.errorNodes_ofParts, hnone, List.forall₂_nil_left_iff.1 herrors]
      rfl

/-- An object in a list verifies, although the number after it is an error and the list
does not. In the tree of a source without errors, the patterns that are built in find no
issues. -/
theorem clean_verdict_covers_subtree_object :
    let flagged (id : Nat) (kind : String) (isError : Bool) (children : List Tree) : Tree :=
      .node { (default : NodeRecord) with id, kind, isError, hasError := true } children
    let faulty := SyntaxTree.ofTree 0 .json [] <| flagged 0 "document" false
      [flagged 1 "array" false
        [SyntaxTree.kindOnly 2 "object" [SyntaxTree.kindOnly 3 "pair" []],
          flagged 4 "ERROR" true [SyntaxTree.kindOnly 5 "number" []]]]
    let engine := Query.engine (fun _ _ _ => none) fun _ _ => {}
    let s : Session Query :=
      { analyzer := { handler := { service := .ofLoader { searchPaths := [] },
                                   registry := .builtin } }
        files := .empty
        clocks := fun _ _ => 0 }
    let sound := SyntaxTree.ofTree 1 .python [] <|
      SyntaxTree.kindOnly 0 "module" [SyntaxTree.kindOnly 1 "pass" []]
    faulty.root.FlagsErrors ∧ faulty.verifyNode ⟨0, 1⟩ = .ok false ∧
      faulty.verifyNode ⟨0, 2⟩ = .ok true ∧ faulty.missingNodes ⟨0, 2⟩ = .ok [] ∧
      (∀ clock query settings, ∃ result,
        Query.execute engine clock faulty query ⟨0, 2⟩ settings = .ok result ∧
          result.isValid = true) ∧
      sound.root.FlagsErrors ∧ sound.hasError = false ∧ Reachable engine s ∧
      ∃ outline, (Outline.analyze s.analyzer.handler (s.host engine) sound false).1 =
        .ok outline ∧
        outline.errorNodes = [] := by
  intro flagged faulty engine s sound
  have hfaulty : faulty.root.FlagsErrors := ⟨by decide, by decide⟩
  have hsound : sound.root.FlagsErrors := ⟨by decide, by decide⟩
  have hobject : faulty.verifyNode ⟨0, 2⟩ = .ok true := by decide
  have hreachable : Reachable engine s := .new rfl
  have hhandler : s.analyzer.handler.Sound (s.host engine).engine := hreachable.sound
  have hbinding : (s.analyzer.handler.service.bind s.files sound.language).1 =
      .ok { grammar := ⟨14, 275, 32⟩, origin := .bundled } := rfl
  obtain ⟨parts, -, houtline⟩ := QueryHandler.exists_outline_lenient hhandler
    fun category _ => QueryHandler.not_endsAnalysis_answer hhandler hbinding category
  have hpattern : Registry.builtin.patternFor .errors .python = some "(ERROR) @error.def" := by
    simp only [Registry.patternFor_eq, Registry.get?_builtin]
    rfl
  have honly : s.analyzer.handler.CapturesOnlyErrors (s.host engine) sound :=
    QueryHandler.capturesOnlyErrors_of_pattern hhandler (by decide) hpattern
  obtain ⟨-, hmissing, hvalid⟩ := (clean_verdict_covers_subtree hfaulty).1 _ hobject
  obtain ⟨-, -, -, hissues⟩ :=
    (clean_verdict_covers_subtree hsound).2 rfl Query engine s hreachable false _ houtline
  exact ⟨hfaulty, by decide, hobject, hmissing, hvalid Query engine, hsound, rfl,
    hreachable, _, houtline, hissues honly⟩

end SourceOutline
