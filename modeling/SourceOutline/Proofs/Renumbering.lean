import SourceOutline.Proofs.Analysis

/-!
# Numbers of Trees

The number of a tree only says which handles belong to it. Giving a tree another number
gives its handles that number and changes nothing else: whatever is computed from the tree
commutes with it. For what compares handles this takes that they are handles of one tree,
since different trees may be given the same number.

## Main results

* `Query.groupCaptures_renumber`: grouping commutes with renumbering, on captures of one tree.
* `Outline.assemble_renumber`: so does putting an outline together.
* `Basis.analyze_renumber`: the outline of a renumbered tree is the renumbered outline.
-/

namespace SourceOutline

/-! ### Renumbering -/

/-- The handle at the same position of the tree numbered `id`. -/
def Handle.renumber (id : Nat) (handle : Handle) : Handle :=
  { handle with tree := id }

/-- The same tree with another number. -/
def SyntaxTree.renumber (t : SyntaxTree) (id : Nat) : SyntaxTree :=
  { t with id }

/-- A capture in the tree numbered `id`. -/
def Query.Capture.renumber (id : Nat) (capture : Query.Capture) : Query.Capture :=
  { capture with node := capture.node.renumber id }

/-- A group in the tree numbered `id`. -/
def Query.Group.renumber (id : Nat) (group : Query.Group) : Query.Group :=
  { group with
    definition := group.definition.renumber id
    name := group.name.map (Handle.renumber id)
    params := group.params.map (Handle.renumber id)
    body := group.body.map (Handle.renumber id) }

/-- The outcome of a run in the tree numbered `id`. -/
def Query.Result.renumber (id : Nat) (result : Query.Result) : Query.Result :=
  { result with captures := result.captures.map (Query.Capture.renumber id) }

/-- What a category gave, in the tree numbered `id`. -/
def CategoryMatches.renumber (id : Nat) (found : CategoryMatches) : CategoryMatches :=
  { found with
    groups := found.groups.map (Query.Group.renumber id)
    result := found.result.renumber id }

/-- A definition in the tree numbered `id`. -/
def Definition.renumber (id : Nat) (definition : Definition) : Definition :=
  { definition with handle := definition.handle.renumber id }

/-- An issue in the tree numbered `id`. -/
def SyntaxIssue.renumber (id : Nat) (issue : SyntaxIssue) : SyntaxIssue :=
  { issue with handle := issue.handle.renumber id }

/-- What the runs of an analysis found, in the tree numbered `id`. -/
def Findings.renumber (id : Nat) (findings : Findings) : Findings :=
  { findings with
    classes := findings.classes.map (CategoryMatches.renumber id)
    functions := findings.functions.map (CategoryMatches.renumber id)
    imports := findings.imports.map (CategoryMatches.renumber id)
    errors := findings.errors.map (CategoryMatches.renumber id) }

/-- The parts of an outline in the tree numbered `id`. -/
def Outline.Parts.renumber (id : Nat) (parts : Outline.Parts) : Outline.Parts where
  classes := parts.classes.map (Definition.renumber id)
  functions := parts.functions.map (Definition.renumber id)
  imports := parts.imports.map (Definition.renumber id)
  missingNodes := parts.missingNodes.map (SyntaxIssue.renumber id)
  errors := parts.errors.map (SyntaxIssue.renumber id)

/-- An outline with its tree numbered `id`. -/
def Outline.renumber (id : Nat) (outline : Outline) : Outline :=
  { outline with
    functions := outline.functions.map (Definition.renumber id)
    classes := outline.classes.map (Definition.renumber id)
    imports := outline.imports.map (Definition.renumber id)
    errorNodes := outline.errorNodes.map (SyntaxIssue.renumber id)
    missingNodes := outline.missingNodes.map (SyntaxIssue.renumber id)
    tree := outline.tree.map (·.renumber id) }

namespace Handle

/-- `Handle.le` on handles of one tree is the order of their positions. -/
theorem le_eq_true_iff {a b : Handle} (h : a.tree = b.tree) :
    a.le b = true ↔ a.index ≤ b.index := by
  simp only [le, h, Bool.or_eq_true, Bool.and_eq_true, decide_eq_true_eq, Nat.lt_irrefl,
    false_or, true_and]

/-- Handles of one tree keep their order. -/
theorem le_renumber {a b : Handle} (h : a.tree = b.tree) (id : Nat) :
    (a.renumber id).le (b.renumber id) = a.le b := by
  have hid : (a.renumber id).tree = (b.renumber id).tree := rfl
  rw [Bool.eq_iff_iff, le_eq_true_iff h, le_eq_true_iff hid]
  exact Iff.rfl

/-- Handles of one tree stay different. -/
theorem renumber_inj {a b : Handle} (h : a.tree = b.tree) (id : Nat) :
    a.renumber id = b.renumber id ↔ a = b := by
  obtain ⟨treeA, indexA⟩ := a
  obtain ⟨treeB, indexB⟩ := b
  obtain rfl : treeA = treeB := h
  simp [renumber]

end Handle

/-! ### Groups -/

namespace Query

variable {id : Nat}

/-- `membersOf` commutes with renumbering. -/
theorem membersOf_renumber (captures : List Capture) (matchId : Nat) :
    membersOf (captures.map (Capture.renumber id)) matchId =
      (membersOf captures matchId).map (Capture.renumber id) := by
  rw [membersOf, List.filter_map]
  rfl

/-- `liveMatchIds` do not depend on the number of the tree. -/
theorem liveMatchIds_renumber (captures : List Capture) :
    liveMatchIds (captures.map (Capture.renumber id)) = liveMatchIds captures := by
  rw [liveMatchIds, List.filter_map, List.map_map]
  rfl

/-- `nodeOfRole` commutes with renumbering. -/
theorem nodeOfRole_renumber (roles : List String) (members : List Capture) :
    nodeOfRole roles (members.map (Capture.renumber id)) =
      (nodeOfRole roles members).map (Handle.renumber id) := by
  rw [nodeOfRole, List.find?_map, Option.map_map, nodeOfRole, Option.map_map]
  rfl

/-- `ofMembers?` commutes with renumbering. -/
theorem ofMembers?_renumber (members : List Capture) :
    Group.ofMembers? (members.map (Capture.renumber id)) =
      (Group.ofMembers? members).map (Group.renumber id) := by
  rcases members with _ | ⟨first, more⟩
  · rfl
  · simp only [List.map_cons, Group.ofMembers?]
    rw [← List.map_cons]
    simp only [nodeOfRole_renumber, Option.map_some, Group.renumber, Option.some.injEq,
      Group.mk.injEq, true_and]
    refine ⟨?_, rfl⟩
    cases nodeOfRole ["def"] (first :: more) <;> rfl

/-- `absorb` commutes with renumbering. -/
theorem absorb_renumber (group later : Group) :
    (group.renumber id).absorb (later.renumber id) = (group.absorb later).renumber id := by
  simp only [Group.absorb, Group.renumber, Group.mk.injEq, true_and, and_true]
  refine ⟨?_, ?_, ?_⟩
  · cases group.name <;> rfl
  · cases group.params <;> rfl
  · cases group.body <;> rfl

/-- `addGroup` commutes with renumbering, among groups of one tree. -/
theorem addGroup_renumber {tree : Nat} {group : Group} {groups : List Group}
    (hgroup : group.definition.tree = tree)
    (hgroups : ∀ other ∈ groups, other.definition.tree = tree) :
    addGroup (group.renumber id) (groups.map (Group.renumber id)) =
      (addGroup group groups).map (Group.renumber id) := by
  induction groups with
  | nil => rfl
  | cons other groups ih =>
    have hother : other.definition.tree = group.definition.tree :=
      (hgroups other List.mem_cons_self).trans hgroup.symm
    have hrest := ih fun g hg => hgroups g (List.mem_cons_of_mem _ hg)
    have heq : (other.renumber id).definition = (group.renumber id).definition ↔
        other.definition = group.definition := Handle.renumber_inj hother id
    have hle : (group.renumber id).definition.le (other.renumber id).definition =
        group.definition.le other.definition := Handle.le_renumber hother.symm id
    rw [List.map_cons, addGroup, addGroup, hle, absorb_renumber, hrest]
    by_cases hsame : other.definition = group.definition
    · rw [if_pos hsame, if_pos (heq.2 hsame)]
      rfl
    · rw [if_neg hsame, if_neg (mt heq.1 hsame)]
      split <;> rfl

/-- A fold of `addGroup` commutes with renumbering, among groups of one tree. -/
theorem foldl_addGroup_renumber (id : Nat) {tree : Nat} {more groups : List Group}
    (hmore : ∀ group ∈ more, group.definition.tree = tree)
    (hgroups : ∀ group ∈ groups, group.definition.tree = tree) :
    (more.map (Group.renumber id)).foldl (fun acc group => addGroup group acc)
        (groups.map (Group.renumber id)) =
      (more.foldl (fun acc group => addGroup group acc) groups).map (Group.renumber id) := by
  induction more generalizing groups with
  | nil => rfl
  | cons next more ih =>
    have hnext := hmore next List.mem_cons_self
    rw [List.map_cons, List.foldl_cons, addGroup_renumber hnext hgroups]
    refine ih (fun g hg => hmore g (List.mem_cons_of_mem _ hg)) fun g hg => ?_
    rcases definition_mem_addGroup hg with heq | ⟨old, hold, heq⟩
    · rw [heq]
      exact hnext
    · rw [heq]
      exact hgroups old hold

/-- **Grouping commutes with renumbering**: so does `groupCaptures`, on captures of one
tree. -/
theorem groupCaptures_renumber (id : Nat) {tree : Nat} {captures : List Capture}
    (h : ∀ capture ∈ captures, capture.node.tree = tree) :
    groupCaptures (captures.map (Capture.renumber id)) =
      (groupCaptures captures).map (Group.renumber id) := by
  have hmatch : (liveMatchIds captures).filterMap
      (matchGroup? (captures.map (Capture.renumber id))) =
      ((liveMatchIds captures).filterMap (matchGroup? captures)).map (Group.renumber id) := by
    rw [List.map_filterMap]
    refine congrArg (List.filterMap · _) (funext fun matchId => ?_)
    rw [matchGroup?, membersOf_renumber, ofMembers?_renumber]
    rfl
  have hdefinitions : ∀ group ∈ (liveMatchIds captures).filterMap (matchGroup? captures),
      group.definition.tree = tree := by
    intro group hgroup
    obtain ⟨matchId, -, hmatch⟩ := List.mem_filterMap.1 hgroup
    obtain ⟨capture, hcapture, hnode⟩ :=
      exists_mem_of_defines (defines_iff.2 ⟨group, hmatch, rfl⟩)
    rw [← hnode]
    exact h capture hcapture
  have hnone : ∀ group ∈ ([] : List Group), group.definition.tree = tree := fun group hgroup =>
    absurd hgroup List.not_mem_nil
  have hgroups := foldl_addGroup_renumber id hdefinitions hnone
  rw [← hmatch] at hgroups
  rw [groupCaptures, liveMatchIds_renumber]
  exact hgroups

/-! ### Runs -/

/-- What a run has taken, in the tree numbered `id`. -/
def Collected.renumber (id : Nat) (taken : Collected) : Collected :=
  { taken with captures := taken.captures.map (Capture.renumber id) }

/-- The captures of a match commute with renumbering, since `handleFor?` does. -/
theorem tagged_renumber (t : SyntaxTree) (m : Match) (matchId : Nat) :
    m.tagged (t.renumber id) matchId = (m.tagged t matchId).map (Capture.renumber id) := by
  have hhandle (tree : Tree) : (t.renumber id).handleFor? tree =
      (t.handleFor? tree).map (Handle.renumber id) := by
    rw [SyntaxTree.handleFor?, SyntaxTree.handleFor?, Option.map_map]
    rfl
  rw [Match.tagged, Match.tagged, List.map_filterMap]
  simp only [hhandle, Option.map_map]
  rfl

/-- `Collected.add` commutes with renumbering. -/
theorem add_renumber (t : SyntaxTree) (taken : Collected) (m : Match) :
    (taken.renumber id).add (t.renumber id) m = (taken.add t m).renumber id := by
  simp only [Collected.add, Collected.renumber, tagged_renumber, List.map_append]

/-- **What a run takes commutes with renumbering**, event by event. -/
theorem takeUpTo_renumber (t : SyntaxTree) (limit : Nat) (late : Nat → Bool)
    (events : List Event) (reading : Nat) (taken : Collected) :
    takeUpTo (t.renumber id) limit late events reading (taken.renumber id) =
      (takeUpTo t limit late events reading taken).renumber id := by
  have hcount (taken : Collected) : (taken.renumber id).matchCount = taken.matchCount := rfl
  induction events generalizing reading taken with
  | nil => rfl
  | cons event events ih =>
    cases event with
    | progress =>
      rw [takeUpTo, takeUpTo, ih]
      split <;> rfl
    | found m =>
      rw [takeUpTo, takeUpTo, add_renumber, ih, hcount]
      split
      · rfl
      · split <;> rfl

/-- `resultOf` commutes with renumbering. -/
theorem resultOf_renumber (t : SyntaxTree) (id patternCount : Nat) (settings : QuerySettings)
    (clock : Clock) (hasError : Bool) (delivery : Delivery) :
    resultOf (t.renumber id) patternCount settings clock hasError delivery =
      (resultOf t patternCount settings clock hasError delivery).renumber id := by
  have hcollect : collect (t.renumber id) settings clock delivery.events =
      (collect t settings clock delivery.events).renumber id :=
    takeUpTo_renumber t _ _ delivery.events 1 {}
  unfold resultOf Result.renumber
  dsimp only
  rw [hcollect]
  dsimp only [Collected.renumber]
  rw [List.length_map]
  rfl

end Query

variable {Q : Type}

/-- What a query finds commutes with renumbering (`matchesOf`). -/
theorem SyntaxTree.matchesOf_renumber (t : SyntaxTree) (id : Nat) (engine : Engine Q)
    (clock : Query.Clock) (category : Category) (query : Q) (settings : QuerySettings) :
    (t.renumber id).matchesOf engine clock category query settings =
      (t.matchesOf engine clock category query settings).renumber id := by
  have howns :=
    Query.owns_captures_execute (Query.execute_rootHandle engine clock t query settings)
  have hgroups :=
    Query.groupCaptures_renumber id fun capture hcapture => (howns capture hcapture).1
  have hresult :=
    Query.resultOf_renumber t id (engine.patternCount query) settings clock t.hasError
    (engine.run t.toArena query 0 settings.maxStartDepth
      (Query.atLeastOne settings.matchLimit))
  unfold matchesOf CategoryMatches.renumber
  dsimp only
  rw [← hgroups, ← hresult]
  exact congrArg (fun result => CategoryMatches.mk category
    (Query.groupCaptures result.captures) _) hresult

namespace Basis

/-- `ask` commutes with renumbering. -/
theorem ask_renumber (basis : Basis Q) (t : SyntaxTree) (id : Nat) (category : Category) :
    basis.ask (t.renumber id) category =
      (basis.ask t category).map (CategoryMatches.renumber id) := by
  unfold ask
  cases basis.patternFor category with
  | none => rfl
  | some text =>
    dsimp only
    cases basis.compile text with
    | error issue => rfl
    | ok query =>
      dsimp only [Except.map]
      rw [t.matchesOf_renumber]

/-- What `record` notes of a category does not depend on numbers. -/
theorem record_renumber (log : RunLog) (strict : Bool) (category : Category) (id : Nat)
    (outcome : Except QueryError CategoryMatches) :
    log.record strict category (outcome.map (CategoryMatches.renumber id)) =
      (log.record strict category outcome).map fun (found, log) =>
        (found.map (CategoryMatches.renumber id), log) := by
  rcases outcome with e | found
  · cases e with
    | compile language category issue => cases strict <;> rfl
    | unsupported category language => rfl
    | language error => rfl
    | traversal error => rfl
  · have htruncated : (found.renumber id).truncated = found.truncated := rfl
    simp only [Except.map, RunLog.record, htruncated]
    split <;> rfl

/-- `askAll` commutes with renumbering. -/
theorem askAll_renumber {ask ask' : Category → Except QueryError CategoryMatches} {id : Nat}
    (h : ∀ category, ask' category = (ask category).map (CategoryMatches.renumber id))
    (strict : Bool) (categories : List Category) (log : RunLog) :
    askAll strict ask' categories log =
      (askAll strict ask categories log).map fun (founds, log) =>
        (founds.map (Option.map (CategoryMatches.renumber id)), log) := by
  induction categories generalizing log with
  | nil => rfl
  | cons category categories ih =>
    rw [askAll, askAll, h, record_renumber]
    rcases log.record strict category (ask category) with e | ⟨found, log'⟩
    · rfl
    · dsimp only [Except.map]
      rw [ih log']
      rcases askAll strict ask categories log' with e | ⟨others, log''⟩
      · rfl
      · rfl

end Basis

/-! ### Outlines -/

/-- `sort` commutes with what keeps the order of its elements. -/
theorem sort_map {α β : Type} {le : α → α → Bool} {le' : β → β → Bool} {f : α → β}
    {as : List α} (h : ∀ a ∈ as, ∀ b ∈ as, le' (f a) (f b) = le a b) :
    sort le' (as.map f) = (sort le as).map f := by
  have hinsert (a : α) (bs : List α) (hbs : ∀ b ∈ bs, le' (f a) (f b) = le a b) :
      insertSorted le' (f a) (bs.map f) = (insertSorted le a bs).map f := by
    induction bs with
    | nil => rfl
    | cons b bs ih =>
      rw [List.map_cons, insertSorted, insertSorted, hbs b List.mem_cons_self,
        ih fun b hb => hbs b (List.mem_cons_of_mem _ hb)]
      split <;> rfl
  induction as with
  | nil => rfl
  | cons a as ih =>
    have hrest :=
      ih fun x hx y hy => h x (List.mem_cons_of_mem _ hx) y (List.mem_cons_of_mem _ hy)
    have hfirst : ∀ b ∈ sort le as, le' (f a) (f b) = le a b := fun b hb =>
      h a List.mem_cons_self b (List.mem_cons_of_mem _ ((sort_perm le as).mem_iff.1 hb))
    change insertSorted le' (f a) (sort le' (as.map f)) =
        (insertSorted le a (sort le as)).map f
    rw [hrest, hinsert a _ hfirst]

/-- An entry does not depend on the number of its tree. -/
theorem SyntaxTree.node_renumber (t : SyntaxTree) (id : Nat) {handle : Handle}
    (h : handle.tree = t.id) :
    (t.renumber id).node (handle.renumber id) = t.node handle := by
  have hid : (handle.renumber id).tree = (t.renumber id).id := rfl
  unfold node
  rw [if_neg (not_not_intro h), if_neg (not_not_intro hid)]
  rfl

namespace Outline

variable {t : SyntaxTree} {id : Nat}

/-- `textOf?` does not depend on the number of the tree. -/
theorem textOf?_renumber {handle : Handle} (h : handle.tree = t.id) :
    textOf? (t.renumber id) (handle.renumber id) = textOf? t handle := by
  unfold textOf?
  rw [t.node_renumber id h]
  rfl

/-- The text of a part of a group does not depend on the number of the tree. -/
theorem bind_textOf?_renumber {part : Option Handle}
    (h : ∀ handle ∈ part.toList, t.Owns handle) :
    (part.map (Handle.renumber id)).bind (textOf? (t.renumber id)) =
      part.bind (textOf? t) := by
  cases part with
  | none => rfl
  | some handle => exact textOf?_renumber (h handle (Option.mem_toList.2 rfl)).1

/-- The name of a class with its node in the tree numbered `id`. -/
def renumberName (id : Nat) (name : Handle × String) : Handle × String :=
  (name.1.renumber id, name.2)

/-- `classNames` commute with renumbering. -/
theorem classNames_renumber {groups : List Query.Group}
    (h : ∀ group ∈ groups, ∀ node ∈ group.handles, t.Owns node) :
    classNames (t.renumber id) (groups.map (Query.Group.renumber id)) =
      (classNames t groups).map (renumberName id) := by
  have hname (group : Query.Group) (hgroup : ∀ node ∈ group.handles, t.Owns node) :
      className? (t.renumber id) (group.renumber id) =
        (className? t group).map (renumberName id) := by
    have hpart : ∀ node ∈ group.name.toList, t.Owns node := fun node hnode =>
      hgroup node (Query.Group.name_mem_handles hnode)
    rw [className?, Query.Group.renumber, bind_textOf?_renumber hpart, className?,
      Option.map_map]
    rfl
  induction groups with
  | nil => rfl
  | cons group groups ih =>
    have hrest := ih fun other hother => h other (List.mem_cons_of_mem _ hother)
    unfold classNames at hrest ⊢
    rw [List.map_cons, List.filterMap_cons, List.filterMap_cons,
      hname group (h group List.mem_cons_self), hrest]
    cases className? t group <;> rfl

/-- Looking a name up commutes with renumbering, among classes of one tree. -/
theorem lookup_renumber {names : List (Handle × String)} {handle : Handle}
    (h : ∀ name ∈ names, name.1.tree = handle.tree) :
    (names.map (renumberName id)).lookup (handle.renumber id) = names.lookup handle := by
  induction names with
  | nil => rfl
  | cons name names ih =>
    obtain ⟨key, text⟩ := name
    have hkey : key.tree = handle.tree := h (key, text) List.mem_cons_self
    have hbeq : (handle.renumber id == key.renumber id) = (handle == key) := by
      rw [Bool.eq_iff_iff, beq_iff_eq, beq_iff_eq, Handle.renumber_inj hkey.symm]
    rw [List.map_cons, renumberName, List.lookup_cons, List.lookup_cons, hbeq,
      ih fun other hother => h other (List.mem_cons_of_mem _ hother)]

/-- `containerOf` does not depend on the number of the tree. -/
theorem containerOf_renumber {names : List (Handle × String)}
    (h : ∀ name ∈ names, name.1.tree = t.id) (node : Handle) :
    containerOf (t.renumber id) (names.map (renumberName id)) (node.renumber id) =
      containerOf t names node := by
  unfold containerOf
  refine congrArg (List.findSome? · _) (funext fun index => ?_)
  have hkeys : ∀ name ∈ names, name.1.tree = (t.handle index).tree := h
  exact lookup_renumber hkeys

/-- `definitionOf` commutes with renumbering. -/
theorem definitionOf_renumber {names : List (Handle × String)}
    (hnames : ∀ name ∈ names, name.1.tree = t.id) {group : Query.Group}
    (hgroup : ∀ node ∈ group.handles, t.Owns node) :
    definitionOf (t.renumber id) (names.map (renumberName id)) (group.renumber id) =
      (definitionOf t names group).map (Definition.renumber id) := by
  have hdefinition := (hgroup group.definition List.mem_cons_self).1
  have hname : ∀ node ∈ group.name.toList, t.Owns node := fun node hnode =>
    hgroup node (Query.Group.name_mem_handles hnode)
  have hparams : ∀ node ∈ group.params.toList, t.Owns node := fun node hnode =>
    hgroup node (Query.Group.params_mem_handles hnode)
  unfold definitionOf
  rw [Query.Group.renumber, t.node_renumber id hdefinition, bind_textOf?_renumber hname,
    bind_textOf?_renumber hparams, containerOf_renumber hnames]
  cases t.node group.definition <;> rfl

/-- `issueOf` commutes with renumbering. -/
theorem issueOf_renumber (kind : IssueKind) {handle : Handle} (h : handle.tree = t.id) :
    issueOf (t.renumber id) kind (handle.renumber id) =
      (issueOf t kind handle).map (SyntaxIssue.renumber id) := by
  unfold issueOf
  rw [t.node_renumber id h]
  cases t.node handle <;> rfl

/-- The names of classes are at nodes of the tree. -/
theorem tree_of_mem_classNames {groups : List Query.Group}
    (h : ∀ group ∈ groups, ∀ node ∈ group.handles, t.Owns node) :
    ∀ name ∈ classNames t groups, name.1.tree = t.id := by
  intro name hname
  obtain ⟨group, hgroup, hclass⟩ := List.mem_filterMap.1 hname
  obtain ⟨text, -, rfl⟩ := Option.map_eq_some_iff.1 hclass
  exact (h group hgroup group.definition List.mem_cons_self).1

/-- An issue is at the node that was asked about. -/
theorem handle_of_issueOf {kind : IssueKind} {handle : Handle} {issue : SyntaxIssue}
    (h : issueOf t kind handle = .ok issue) : issue.handle = handle := by
  unfold issueOf at h
  cases hnode : t.node handle with
  | error e =>
    rw [hnode] at h
    cases h
  | ok entry =>
    rw [hnode] at h
    cases h
    rfl

/-- Issues that come of nodes of a tree are at them. -/
theorem tree_of_mem_issues {kind : IssueKind} {handles : List Handle}
    {issues : List SyntaxIssue} (h : handles.mapM (issueOf t kind) = .ok issues)
    (hhandles : ∀ handle ∈ handles, t.Owns handle) :
    ∀ issue ∈ issues, issue.handle.tree = t.id := by
  intro issue hissue
  obtain ⟨handle, hhandle, hof⟩ := exists_of_mem_mapM h issue hissue
  rw [handle_of_issueOf hof]
  exact (hhandles handle hhandle).1

/-- `mergeIssues` commutes with renumbering, among issues of one tree. -/
theorem mergeIssues_renumber (id : Nat) {errors missing : List SyntaxIssue}
    (herrors : ∀ issue ∈ errors, issue.handle.tree = t.id)
    (hmissing : ∀ issue ∈ missing, issue.handle.tree = t.id) :
    mergeIssues (errors.map (SyntaxIssue.renumber id))
      (missing.map (SyntaxIssue.renumber id)) =
      (mergeIssues errors missing).map (SyntaxIssue.renumber id) := by
  have hall : ∀ issue ∈ errors ++ missing, issue.handle.tree = t.id := by
    intro issue hissue
    rcases List.mem_append.1 hissue with hissue | hissue
    · exact herrors issue hissue
    · exact hmissing issue hissue
  rw [mergeIssues, ← List.map_append]
  exact sort_map fun a ha b hb => Handle.le_renumber ((hall a ha).trans (hall b hb).symm) id

/-- `groupsOf` commutes with renumbering. -/
theorem groupsOf_renumber (found : Option CategoryMatches) :
    groupsOf (found.map (CategoryMatches.renumber id)) =
      (groupsOf found).map (Query.Group.renumber id) := by
  cases found <;> rfl

/-- `namesOf` does not depend on the number of the tree. -/
theorem namesOf_renumber (definitions : List Definition) :
    namesOf (definitions.map (Definition.renumber id)) = namesOf definitions := by
  rw [namesOf, List.filterMap_map]
  rfl

/-- The missing nodes of a tree are nodes of it. -/
theorem owns_missingNodes {missing : List Handle}
    (h : t.missingNodes t.rootHandle = .ok missing) :
    ∀ handle ∈ missing, t.Owns handle := by
  obtain ⟨missing', hmissing', howns⟩ := t.exists_missingNodes
  obtain rfl := Except.ok.inj (h.symm.trans hmissing')
  exact howns

/-- `missingNodes` commute with renumbering. -/
theorem missingNodes_renumber (t : SyntaxTree) (id : Nat) :
    (t.renumber id).missingNodes (t.renumber id).rootHandle =
      (t.missingNodes t.rootHandle).map (List.map (Handle.renumber id)) := by
  rw [SyntaxTree.missingNodes, SyntaxTree.missingNodes, t.check_rootHandle,
    (t.renumber id).check_rootHandle]
  dsimp only [bind, Except.bind, Except.map]
  rw [List.map_map]
  rfl

/-- The definitions of groups commute with renumbering. -/
theorem mapM_definitionOf_renumber {names : List (Handle × String)}
    (hnames : ∀ name ∈ names, name.1.tree = t.id) {found : Option CategoryMatches}
    (h : ∀ group ∈ groupsOf found, ∀ node ∈ group.handles, t.Owns node) :
    (groupsOf (found.map (CategoryMatches.renumber id))).mapM
        (definitionOf (t.renumber id) (names.map (renumberName id))) =
      ((groupsOf found).mapM (definitionOf t names)).map
        (List.map (Definition.renumber id)) := by
  rw [groupsOf_renumber]
  exact mapM_map_eq fun group hgroup => definitionOf_renumber hnames (h group hgroup)

/-- The issues at nodes commute with renumbering. -/
theorem mapM_issueOf_renumber (kind : IssueKind) {handles : List Handle}
    (h : ∀ handle ∈ handles, t.Owns handle) :
    (handles.map (Handle.renumber id)).mapM (issueOf (t.renumber id) kind) =
      (handles.mapM (issueOf t kind)).map (List.map (SyntaxIssue.renumber id)) :=
  mapM_map_eq fun handle hhandle => issueOf_renumber kind (h handle hhandle).1

/-- `gather` commutes with renumbering. -/
theorem gather_renumber {findings : Findings} (h : OwnsFindings t findings) :
    gather (t.renumber id) (findings.renumber id) =
      (gather t findings).map (Parts.renumber id) := by
  have hnames := tree_of_mem_classNames h.classes
  have hclassNames : classNames (t.renumber id) (groupsOf (findings.renumber id).classes) =
      (classNames t (groupsOf findings.classes)).map (renumberName id) := by
    rw [Findings.renumber, groupsOf_renumber, classNames_renumber h.classes]
  have herrors : (groupsOf (findings.renumber id).errors).map (·.definition) =
      ((groupsOf findings.errors).map (·.definition)).map (Handle.renumber id) := by
    rw [Findings.renumber, groupsOf_renumber, List.map_map, List.map_map]
    rfl
  rw [gather, gather, hclassNames, herrors]
  refine bind_map_eq (missingNodes_renumber t id) fun missing hmissing => ?_
  refine bind_map_eq (mapM_definitionOf_renumber hnames h.classes) fun classes _ => ?_
  refine bind_map_eq (mapM_definitionOf_renumber hnames h.functions) fun functions _ => ?_
  refine bind_map_eq (mapM_definitionOf_renumber hnames h.imports) fun imports _ => ?_
  refine bind_map_eq (mapM_issueOf_renumber .missing (owns_missingNodes hmissing))
    fun missingNodes _ => ?_
  exact bind_map_eq (mapM_issueOf_renumber .error h.errorNodes) fun errors _ => rfl

/-- The issues of an outline are at nodes of the tree. -/
theorem OwnsFindings.tree_of_mem_parts {findings : Findings} (h : OwnsFindings t findings)
    {parts : Parts} (hparts : gather t findings = .ok parts) :
    (∀ issue ∈ parts.errors, issue.handle.tree = t.id) ∧
      ∀ issue ∈ parts.missingNodes, issue.handle.tree = t.id := by
  obtain ⟨missing, hmissing, hparts⟩ := exists_of_bind_eq_ok hparts
  obtain ⟨classes, -, hparts⟩ := exists_of_bind_eq_ok hparts
  obtain ⟨functions, -, hparts⟩ := exists_of_bind_eq_ok hparts
  obtain ⟨imports, -, hparts⟩ := exists_of_bind_eq_ok hparts
  obtain ⟨missingNodes, hmissingNodes, hparts⟩ := exists_of_bind_eq_ok hparts
  obtain ⟨errors, herrors, hparts⟩ := exists_of_bind_eq_ok hparts
  cases hparts
  exact ⟨tree_of_mem_issues herrors h.errorNodes,
    tree_of_mem_issues hmissingNodes (owns_missingNodes hmissing)⟩

/-- `ofParts` commutes with renumbering. -/
theorem ofParts_renumber (id : Nat) (log : RunLog) {parts : Parts}
    (herrors : ∀ issue ∈ parts.errors, issue.handle.tree = t.id)
    (hmissing : ∀ issue ∈ parts.missingNodes, issue.handle.tree = t.id) :
    ofParts (t.renumber id) log (parts.renumber id) = (ofParts t log parts).renumber id := by
  have hissues := mergeIssues_renumber id herrors hmissing
  simp only [ofParts, Parts.renumber, Outline.renumber, hissues, namesOf_renumber,
    List.countP_map, List.length_map, List.isEmpty_map, List.map_map]
  rfl

/-- **Putting an outline together commutes with renumbering** (`assemble`). -/
theorem assemble_renumber {findings : Findings} (h : OwnsFindings t findings) :
    assemble (t.renumber id) (findings.renumber id) =
      (assemble t findings).map (Outline.renumber id) := by
  obtain ⟨parts, hparts⟩ := h.exists_gather
  obtain ⟨herrors, hmissing⟩ := h.tree_of_mem_parts hparts
  rw [assemble, assemble, gather_renumber h, hparts]
  exact congrArg Except.ok (ofParts_renumber id findings.log herrors hmissing)

/-- `findingsOf` commutes with renumbering. -/
theorem findingsOf_renumber (founds : List (Option CategoryMatches)) (log : RunLog) :
    findingsOf (founds.map (Option.map (CategoryMatches.renumber id))) log =
      (findingsOf founds log).renumber id := by
  have hget (i : Nat) : (founds.map (Option.map (CategoryMatches.renumber id))).getD i none =
      (founds.getD i none).map (CategoryMatches.renumber id) := by
    rw [List.getD_eq_getElem?_getD, List.getD_eq_getElem?_getD, List.getElem?_map]
    cases founds[i]? <;> rfl
  rw [findingsOf, hget, hget, hget, hget]
  rfl

/-- An outline that is renumbered twice has the last number. -/
theorem renumber_renumber (outline : Outline) (first second : Nat) :
    (outline.renumber first).renumber second = outline.renumber second := by
  simp only [renumber, List.map_map, Option.map_map]
  rfl

end Outline

/-- **The outline of a renumbered tree is the renumbered outline**: `analyze` commutes
with renumbering. -/
theorem Basis.analyze_renumber (basis : Basis Q) (t : SyntaxTree) (id : Nat) :
    basis.analyze (t.renumber id) = (basis.analyze t).map (Outline.renumber id) := by
  rw [analyze, analyze, askAll_renumber (basis.ask_renumber t id)]
  rcases basis.askAll_cases t analyzedCategories {} with
    ⟨-, category, issue, -, -, hall⟩ | ⟨-, log, hall, -⟩
  · rw [hall]
    rfl
  · rw [hall]
    dsimp only [Except.map]
    rw [Outline.findingsOf_renumber, Outline.assemble_renumber (basis.ownsFindings t log)]
    generalize Outline.assemble t _ = assembled
    cases assembled <;> rfl

end SourceOutline
