import Mathlib.Data.List.Forall2
import SourceOutline.Proofs.Accounts
import SourceOutline.Proofs.Containers
import SourceOutline.Proofs.KindQueries

/-!
# Syntax Issues

An outline lists the places where a source could not be parsed: what the pattern for
errors has found, and the missing nodes of the tree. The two lists are made apart, put one
after the other and sorted by node. This module says that nothing is lost and nothing is
added: each list can be read off the result, in its own order.

Any pattern may be in effect for errors, so it may well capture missing nodes. Then a node
has two issues. The sort keeps the order of what it does not tell apart (`pairwise_sort`),
so the error comes first. No list has a node twice: groups of captures have different
definitions, and a scan passes each position once. So the order of the result is strict
(`Outline.pairwise_mergeIssues`), and what is strictly ordered is known by its elements.

## Main results

* `Outline.pairwise_mergeIssues`: the merged issues are strictly ordered.
* `Outline.filter_mergeIssues`: the issues of one kind are those that were put in, in the
  same order.
* `Outline.issues_of_gather`: the issues that are read at the nodes of a tree.
* `merged_issues_complete`: the issues of an outline, and what its metadata say of them.
-/

namespace SourceOutline

theorem Handle.le_total (a b : Handle) : (a.le b || b.le a) = true := by
  simp only [le, Bool.or_eq_true, Bool.and_eq_true, decide_eq_true_eq]
  omega

theorem Handle.le_trans (a b c : Handle) (hab : a.le b = true) (hbc : b.le c = true) :
    a.le c = true := by
  simp only [le, Bool.or_eq_true, Bool.and_eq_true, decide_eq_true_eq] at *
  omega

/-- Of two handles, the later one does not come first by `Handle.le`. -/
theorem Handle.Before.not_le {a b : Handle} (h : a.Before b) : ¬b.le a = true := by
  simp only [Before, le, Bool.or_eq_true, Bool.and_eq_true, decide_eq_true_eq] at *
  omega

/-- Handles in the order `Handle.le` are the same, or one comes before the other. -/
theorem Handle.le_cases {a b : Handle} (h : a.le b = true) : a.Before b ∨ a = b := by
  by_cases heq : a = b
  · exact Or.inr heq
  · exact Or.inl ((le_iff_before heq).1 h)

namespace SyntaxIssue

/-- The order of issues: by node, and at one node an error comes before what is missing. -/
def Before (a b : SyntaxIssue) : Prop :=
  a.handle.Before b.handle ∨ a.handle = b.handle ∧ a.kind = .error ∧ b.kind = .missing

/-- No two issues come before each other. -/
theorem Before.asymm {a b : SyntaxIssue} (h : a.Before b) : ¬b.Before a := by
  rintro (hba | ⟨hba, hkind, -⟩)
  · rcases h with hab | ⟨hab, -, -⟩
    · exact (hab.trans hba).ne rfl
    · exact hba.ne hab.symm
  · rcases h with hab | ⟨-, -, hkind'⟩
    · exact hab.ne hba.symm
    · rw [hkind] at hkind'
      cases hkind'

/-- Issues of one kind, at different nodes and in their order. -/
structure OfKind (kind : IssueKind) (issues : List SyntaxIssue) : Prop where
  kind_eq : ∀ issue ∈ issues, issue.kind = kind
  ordered : issues.Pairwise fun a b => a.handle.Before b.handle

/-- Issues of one kind are ordered by `Before`. -/
theorem OfKind.pairwise {kind : IssueKind} {issues : List SyntaxIssue}
    (h : OfKind kind issues) :
    issues.Pairwise Before :=
  h.ordered.imp Or.inl

/-- An issue of a kind says what the tree says of a node. -/
structure StandsAt (t : SyntaxTree) (kind : IssueKind) (node : Handle) (issue : SyntaxIssue) :
    Prop where
  kind_eq : issue.kind = kind
  handle_eq : issue.handle = node
  exists_entry : ∃ entry, t.node node = .ok entry ∧ issue.nodeType = entry.record.kind ∧
    issue.position = t.startPosition entry.record

section StandsAt

variable {t : SyntaxTree} {kind : IssueKind} {nodes : List Handle} {issues : List SyntaxIssue}

/-- The nodes of issues are those that they stand at. -/
theorem map_handle_of_standsAt (h : List.Forall₂ (StandsAt t kind) nodes issues) :
    issues.map (·.handle) = nodes := by
  induction h with
  | nil => rfl
  | cons hstands _ ih => rw [List.map_cons, hstands.handle_eq, ih]

/-- Issues of one kind that stand at different nodes, in their order, are `OfKind`. -/
theorem ofKind_of_standsAt (h : List.Forall₂ (StandsAt t kind) nodes issues)
    (hnodes : nodes.Pairwise Handle.Before) : OfKind kind issues := by
  constructor
  · clear hnodes
    induction h with
    | nil => simp
    | cons hstands _ ih => exact List.forall_mem_cons.2 ⟨hstands.kind_eq, ih⟩
  · rw [← map_handle_of_standsAt h] at hnodes
    exact List.pairwise_map.1 hnodes

end StandsAt

end SyntaxIssue

namespace Outline

open SyntaxIssue (OfKind StandsAt)

/-! ### Merging -/

section Merging

variable {errors missing : List SyntaxIssue}

/-- **The issues of `mergeIssues` are strictly ordered.** -/
theorem pairwise_mergeIssues (herrors : OfKind .error errors)
    (hmissing : OfKind .missing missing) :
    (mergeIssues errors missing).Pairwise SyntaxIssue.Before := by
  have hties : (errors ++ missing).Pairwise fun a b =>
      b.handle.le a.handle = true → a.kind = .error ∧ b.kind = .missing := by
    refine List.pairwise_append.2 ⟨?_, ?_, ?_⟩
    · exact herrors.ordered.imp fun hbefore hle => absurd hle hbefore.not_le
    · exact hmissing.ordered.imp fun hbefore hle => absurd hle hbefore.not_le
    · intro a ha b hb _
      exact ⟨herrors.kind_eq a ha, hmissing.kind_eq b hb⟩
  have hsorted : (mergeIssues errors missing).Pairwise fun a b =>
      a.handle.le b.handle = true ∧
        (b.handle.le a.handle = true → a.kind = .error ∧ b.kind = .missing) :=
    pairwise_sort (fun a b => a.handle.le_total b.handle)
      (fun a b c => a.handle.le_trans b.handle c.handle) hties
  refine hsorted.imp ?_
  rintro a b ⟨hle, htie⟩
  rcases Handle.le_cases hle with hbefore | heq
  · exact Or.inl hbefore
  · refine Or.inr ⟨heq, htie ?_⟩
    rw [heq] at hle ⊢
    exact hle

/-- **`mergeIssues` loses nothing and adds nothing**: the merged issues of one kind are
those that were put in. -/
theorem filter_mergeIssues (herrors : OfKind .error errors)
    (hmissing : OfKind .missing missing) :
    (mergeIssues errors missing).filter (·.kind = .error) = errors ∧
      (mergeIssues errors missing).filter (·.kind = .missing) = missing := by
  have hmerged := pairwise_mergeIssues herrors hmissing
  have hperm : (mergeIssues errors missing).Perm (errors ++ missing) := sort_perm ..
  have hfilter (kind : IssueKind) (issues : List SyntaxIssue) (hissues : OfKind kind issues)
      (heq : (errors ++ missing).filter (·.kind = kind) = issues) :
      (mergeIssues errors missing).filter (·.kind = kind) = issues := by
    refine List.Perm.eq_of_pairwise ?_ (hmerged.filter _) hissues.pairwise ?_
    · intro a b _ _ hab hba
      exact absurd hba hab.asymm
    · rw [← heq]
      exact hperm.filter _
  have hkeep {kind : IssueKind} {issues : List SyntaxIssue} (hissues : OfKind kind issues) :
      issues.filter (·.kind = kind) = issues :=
    List.filter_eq_self.2 fun issue hissue => decide_eq_true (hissues.kind_eq issue hissue)
  have hdrop {kind other : IssueKind} {issues : List SyntaxIssue}
      (hissues : OfKind kind issues) (hne : kind ≠ other) :
      issues.filter (·.kind = other) = [] := by
    refine List.filter_eq_nil_iff.2 fun issue hissue => ?_
    rw [hissues.kind_eq issue hissue]
    simpa using hne
  constructor
  · refine hfilter .error errors herrors ?_
    rw [List.filter_append, hkeep herrors, hdrop hmissing (by decide), List.append_nil]
  · refine hfilter .missing missing hmissing ?_
    rw [List.filter_append, hdrop herrors (by decide), hkeep hmissing, List.nil_append]

end Merging

/-! ### Issues of a tree -/

variable {t : SyntaxTree}

/-- The issue that `issueOf` gives at a node stands there. -/
theorem standsAt_of_issueOf {kind : IssueKind} {node : Handle} {issue : SyntaxIssue}
    (h : issueOf t kind node = .ok issue) : issue.StandsAt t kind node := by
  obtain ⟨entry, hentry, hissue⟩ := exists_of_bind_eq_ok h
  obtain rfl := Except.ok.inj hissue
  exact ⟨rfl, rfl, entry, hentry, rfl, rfl⟩

/-- **The issues that `gather` reads at the nodes of a tree**: one for each missing node,
and one for each group of the pattern for errors. -/
theorem issues_of_gather {findings : Findings} {parts : Parts}
    (h : gather t findings = .ok parts) :
    ∃ missing, t.missingNodes t.rootHandle = .ok missing ∧
      List.Forall₂ (StandsAt t .missing) missing parts.missingNodes ∧
      List.Forall₂ (StandsAt t .error) ((groupsOf findings.errors).map (·.definition))
        parts.errors := by
  obtain ⟨missing, hmissing, h⟩ := exists_of_bind_eq_ok h
  obtain ⟨classes, -, h⟩ := exists_of_bind_eq_ok h
  obtain ⟨functions, -, h⟩ := exists_of_bind_eq_ok h
  obtain ⟨imports, -, h⟩ := exists_of_bind_eq_ok h
  obtain ⟨missingNodes, hmissingNodes, h⟩ := exists_of_bind_eq_ok h
  obtain ⟨errors, herrors, h⟩ := exists_of_bind_eq_ok h
  obtain rfl := Except.ok.inj h
  exact ⟨missing, hmissing, (forall₂_of_mapM hmissingNodes).imp fun _ _ => standsAt_of_issueOf,
    (forall₂_of_mapM herrors).imp fun _ _ => standsAt_of_issueOf⟩

/-- The groups in the `answer` for a category are captures of nodes of the tree. -/
theorem isGrouping_answer {Q : Type} (handler : QueryHandler Q) (host : Host Q)
    (t : SyntaxTree) (category : Category) :
    IsGrouping t (groupsOf (handler.answer host t category).toOption) := by
  cases hanswer : handler.answer host t category with
  | error e => exact isGrouping_nil
  | ok found => exact isGrouping_findCategory hanswer

/-- **The issues that the outline of `analyze` is made of**: those at the missing nodes,
and those at what the pattern for errors has found. -/
theorem exists_issues_of_analyze {Q : Type} {handler : QueryHandler Q} {host : Host Q}
    (hsound : handler.Sound host.engine) {strict : Bool} {outline : Outline}
    (h : (analyze handler host t strict).1 = .ok outline) :
    ∃ log parts missing, outline = ofParts t log parts ∧
      t.missingNodes t.rootHandle = .ok missing ∧
      List.Forall₂ (StandsAt t .missing) missing parts.missingNodes ∧
      List.Forall₂ (StandsAt t .error)
        ((groupsOf (handler.answer host t .errors).toOption).map (·.definition))
        parts.errors := by
  obtain ⟨log, parts, hparts, heq⟩ := QueryHandler.exists_parts_of_analyze hsound h
  obtain ⟨missing, hmissing, hstands, herrors⟩ := issues_of_gather hparts
  have hasked :
      (findingsOf (analyzedCategories.map fun category =>
        (handler.answer host t category).toOption) {}).errors =
        (handler.answer host t .errors).toOption := rfl
  rw [hasked] at herrors
  exact ⟨log, parts, missing, heq, hmissing, hstands, herrors⟩

/-- The issues of an outline are merged from the errors and the missing nodes of its
parts. -/
@[simp] theorem errorNodes_ofParts (t : SyntaxTree) (log : RunLog) (parts : Parts) :
    (ofParts t log parts).errorNodes = mergeIssues parts.errors parts.missingNodes := rfl

/-- The `metadata` of an outline say where its issues are. -/
theorem locations_ofParts (t : SyntaxTree) (log : RunLog) (parts : Parts) :
    (ofParts t log parts).metadata.errorLocations =
      (ofParts t log parts).errorNodes.map SyntaxIssue.position ∧
      (ofParts t log parts).metadata.missingLocations =
        (ofParts t log parts).missingNodes.map SyntaxIssue.position ∧
      (ofParts t log parts).metadata.hasMissing =
        !(ofParts t log parts).missingNodes.isEmpty :=
  ⟨rfl, rfl, rfl⟩

end Outline

/-- **The issues of an outline.** Let an analyzer, whatever its patterns and its engine
are, give an outline of a tree. Then

* its issues are in the order of their nodes, no two of one kind are at the same node, and
  an error comes before what is missing at the same node;
* its issues of missing nodes are its missing nodes, in the same order, and these are the
  missing nodes of the tree;
* its errors are one for each group of the pattern for errors, in the same order;
* the locations in its metadata are those of its issues, one by one, and the metadata say
  that something is missing just if there is a missing node. -/
theorem merged_issues_complete {Q : Type} {engine : Engine Q} {s : Session Q}
    (h : Reachable engine s) (t : SyntaxTree) (strict : Bool) {outline : Outline}
    (houtline : (Outline.analyze s.analyzer.handler (s.host engine) t strict).1 =
      .ok outline) :
    outline.errorNodes.Pairwise SyntaxIssue.Before ∧
    outline.errorNodes.filter (·.kind = .missing) = outline.missingNodes ∧
    (∃ missing, t.missingNodes t.rootHandle = .ok missing ∧
      List.Forall₂ (SyntaxIssue.StandsAt t .missing) missing outline.missingNodes) ∧
    List.Forall₂ (fun group issue => issue.StandsAt t .error group.definition)
      (Outline.groupsOf (s.analyzer.handler.answer (s.host engine) t .errors).toOption)
      (outline.errorNodes.filter (·.kind = .error)) ∧
    outline.metadata.errorLocations = outline.errorNodes.map SyntaxIssue.position ∧
    outline.metadata.missingLocations = outline.missingNodes.map SyntaxIssue.position ∧
    (outline.metadata.hasMissing = true ↔ outline.missingNodes ≠ []) := by
  have hsound : s.analyzer.handler.Sound (s.host engine).engine := h.sound
  obtain ⟨log, parts, missing, rfl, hmissing, hstands, herrors⟩ :=
    Outline.exists_issues_of_analyze hsound houtline
  obtain ⟨hlocations, hlocations', hhas⟩ := Outline.locations_ofParts t log parts
  -- neither list has a node twice
  have hgroups :=
    (Outline.isGrouping_answer s.analyzer.handler (s.host engine) t .errors).ordered
  have hofKind : SyntaxIssue.OfKind .error parts.errors :=
    SyntaxIssue.ofKind_of_standsAt herrors (List.pairwise_map.2 hgroups)
  have hofKind' : SyntaxIssue.OfKind .missing parts.missingNodes := by
    have hroot : t.Owns t.rootHandle := SyntaxTree.owns_handle t.nodeCount_pos
    rw [hroot.missingNodes_eq_scan] at hmissing
    obtain rfl := Except.ok.inj hmissing
    exact SyntaxIssue.ofKind_of_standsAt hstands (t.pairwise_before_scan _ _)
  obtain ⟨hfilter, hfilter'⟩ := Outline.filter_mergeIssues hofKind hofKind'
  refine ⟨Outline.pairwise_mergeIssues hofKind hofKind', hfilter',
    ⟨missing, hmissing, hstands⟩, ?_, hlocations, hlocations', ?_⟩
  · rw [Outline.errorNodes_ofParts, hfilter]
    exact List.forall₂_map_left_iff.1 herrors
  · rw [hhas]
    simp

/-- The pattern for errors finds the error in a list, and the bracket that is missing at
its end. So there are two issues at the bracket, and the error comes first. -/
theorem merged_issues_complete_bracket :
    let engine := Query.engine (fun _ _ _ => none) fun _ _ => {}
    let registry :=
      Registry.empty.register .base .errors "(ERROR) @error.def (MISSING) @error.def"
    let s : Session Query :=
      { analyzer := { handler := { service := .ofLoader { searchPaths := [] }, registry } }
        files := .empty
        clocks := fun _ _ => 0 }
    let t := SyntaxTree.ofTree 0 .python [] <| SyntaxTree.kindOnly 0 "list"
      [SyntaxTree.kindOnly 1 "[" [],
        .node { (default : NodeRecord) with id := 2, kind := "ERROR", isError := true } [],
        SyntaxTree.inserted 3 "]"]
    Reachable engine s ∧
      ∃ outline, (Outline.analyze s.analyzer.handler (s.host engine) t false).1 = .ok outline ∧
        outline.errorNodes.Pairwise SyntaxIssue.Before ∧
        (outline.errorNodes.filter (·.kind = .error)).map (·.handle) = [⟨0, 2⟩, ⟨0, 3⟩] ∧
        (outline.errorNodes.filter (·.kind = .missing)).map (·.handle) = [⟨0, 3⟩] := by
  intro engine registry s t
  have hreachable : Reachable engine s := .new rfl
  have hsound : s.analyzer.handler.Sound (s.host engine).engine := hreachable.sound
  have hbinding : (s.analyzer.handler.service.bind s.files t.language).1 =
      .ok { grammar := ⟨14, 275, 32⟩, origin := .bundled } := rfl
  have hgroups :
      (Outline.groupsOf (s.analyzer.handler.answer (s.host engine) t .errors).toOption).map
      (·.definition) = [⟨0, 2⟩, ⟨0, 3⟩] := by decide +kernel
  have hscan : t.missingNodes t.rootHandle = .ok [⟨0, 3⟩] := by decide
  obtain ⟨parts, -, houtline⟩ := QueryHandler.exists_outline_lenient hsound
    fun category _ => QueryHandler.not_endsAnalysis_answer hsound hbinding category
  obtain ⟨hordered, hmissing, ⟨missing, hgiven, hstands⟩, herrors, -⟩ :=
    merged_issues_complete hreachable t false houtline
  obtain rfl := Except.ok.inj (hgiven.symm.trans hscan)
  refine ⟨hreachable, _, houtline, hordered, ?_, ?_⟩
  · rw [← hgroups]
    exact SyntaxIssue.map_handle_of_standsAt (List.forall₂_map_left_iff.2 herrors)
  · rw [hmissing]
    exact SyntaxIssue.map_handle_of_standsAt hstands

end SourceOutline
