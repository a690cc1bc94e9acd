import SourceOutline.Proofs.MergedView
import SourceOutline.Proofs.QueryCache
import SourceOutline.Proofs.Renumbering
import SourceOutline.Proofs.Scanning

/-!
# Containers

Each definition of an outline may be in a class. The class is looked up on the way up from
the definition: parents are climbed until one is the definition of a class that has a
name. This module says which class that is without a climb: of all named classes whose
definitions are proper ancestors, the deepest one.

The climb is followed one parent at a time (`Arena.findSome?_upwards_cases`), for any
table that it looks positions up in. The table at hand has one entry for each named class,
since no two groups have the same definition (`Outline.lookup_classNames_iff`).

## Main results

* `Arena.findSome?_tail_cases`: a climb finds what is stored at the nearest proper
  ancestor, if there is anything.
* `Outline.contained_definitionOf`: the container of a definition is the nearest named class.
* `Outline.exists_runs_of_analyze`: outlines are assembled from what the runs of
  categories find.
* `Outline.exists_grouped_of_analyze`: all outlines are assembled from groups of captures.
* `Outline.container_is_nearest_class`: the containers of all definitions of an outline.
-/

namespace SourceOutline

namespace Arena

variable {arena : Arena} {a i p : Nat} {α : Type}

/-! ### Climbing to the nearest ancestor -/

/-- The proper ancestors of a child are what encloses its parent. -/
theorem ChildOf.below_iff (h : arena.ChildOf i p) : arena.Below i a ↔ arena.Encloses a p := by
  rw [Arena.below_iff, h.encloses_iff]
  constructor
  · rintro ⟨hne, hencloses | rfl⟩
    · exact hencloses
    · exact absurd rfl hne
  · intro hencloses
    exact ⟨Nat.ne_of_gt (Nat.lt_of_le_of_lt hencloses.le h.lt.1), Or.inl hencloses⟩

/-- Nothing is above the root. -/
theorem not_below_zero : ¬arena.Below 0 a :=
  fun h => Nat.not_lt_zero a h.lt

/-- A child is one level deeper than its parent. -/
theorem ChildOf.depth_eq (h : arena.ChildOf i p) {entry above : Entry}
    (hi : arena.nodes[i]? = some entry) (hp : arena.nodes[p]? = some above) :
    entry.depth = above.depth + 1 := by
  have hparent : entry.parent = some p := (link_of_read hi (·.parent)).symm.trans h
  obtain ⟨-, parent, hread, hdepth⟩ := arena.wellLinked.parent_before hi hparent
  obtain rfl := Option.some.inj (hp.symm.trans hread)
  exact hdepth

/-- **Ancestors are less deep**: `Below` makes the depth smaller. -/
theorem Below.depth_lt (h : arena.Below i a) {entry above : Entry}
    (hi : arena.nodes[i]? = some entry) (ha : arena.nodes[a]? = some above) :
    above.depth < entry.depth := by
  induction h generalizing above with
  | single hchild =>
    rw [hchild.depth_eq hi ha]
    exact Nat.lt_succ_self _
  | tail _ hchild ih =>
    obtain ⟨middle, hmiddle⟩ := exists_read hchild.lt.2
    have hlt := ih hmiddle
    rw [hchild.depth_eq hmiddle ha] at hlt
    exact Nat.lt_of_succ_lt hlt

/-- **What a climb finds** on `upwards` from a node, itself included: what is stored at
the nearest position where anything is. -/
theorem findSome?_upwards_cases (f : Nat → Option α) (hi : i < arena.nodeCount) :
    ((arena.upwards i).findSome? f = none ∧ ∀ a, arena.Encloses a i → f a = none) ∨
      ∃ a found, (arena.upwards i).findSome? f = some found ∧ arena.Encloses a i ∧
        f a = some found ∧
        ∀ b, arena.Encloses b i → f b ≠ none → arena.Encloses b a := by
  -- from parents to children, as the climb goes on with the parent
  induction hi using arena.parent_induct with
  | root =>
    rw [upwards_zero, List.findSome?_singleton]
    simp only [encloses_zero_iff]
    cases hf : f 0 with
    | none => exact Or.inl ⟨rfl, fun a ha => ha ▸ hf⟩
    | some found =>
      refine Or.inr ⟨0, found, rfl, rfl, hf, fun b hb _ => ?_⟩
      rw [hb]
      exact Encloses.refl arena 0
  | child i p hchild ih =>
    rw [upwards_of_childOf hchild, List.findSome?_cons]
    cases hf : f i with
    | some found =>
      exact Or.inr ⟨i, found, rfl, Encloses.refl arena i, hf, fun b hb _ => hb⟩
    | none =>
      rcases ih with ⟨hnone, hall⟩ | ⟨a, found, hfound, ha, hfa, hnearest⟩
      · refine Or.inl ⟨hnone, fun a ha => ?_⟩
        rcases hchild.encloses_iff.1 ha with ha | rfl
        · exact hall a ha
        · exact hf
      · refine Or.inr ⟨a, found, hfound, ha.child hchild, hfa, fun b hb hfb => ?_⟩
        rcases hchild.encloses_iff.1 hb with hb | rfl
        · exact hnearest b hb hfb
        · exact absurd hf hfb

/-- **What a climb finds above a node**, on the tail of `upwards`: what is stored at the
nearest proper ancestor where anything is. -/
theorem findSome?_tail_cases (f : Nat → Option α) (hi : i < arena.nodeCount) :
    ((arena.upwards i).tail.findSome? f = none ∧ ∀ a, arena.Below i a → f a = none) ∨
      ∃ a found, (arena.upwards i).tail.findSome? f = some found ∧ arena.Below i a ∧
        f a = some found ∧
        ∀ b, arena.Below i b → f b ≠ none → arena.Encloses b a := by
  cases hi using arena.parent_induct with
  | root =>
    rw [upwards_zero]
    exact Or.inl ⟨rfl, fun a ha => absurd ha not_below_zero⟩
  | child i p hchild _ =>
    rw [upwards_of_childOf hchild, List.tail_cons]
    simp only [hchild.below_iff]
    exact findSome?_upwards_cases f (Nat.lt_trans hchild.lt.1 hchild.lt.2)

end Arena

namespace Outline

variable {t : SyntaxTree} {classes : List Query.Group}

/-! ### Classes around a node -/

/-- Groups of captures of nodes of a tree. -/
def IsGrouping (t : SyntaxTree) (groups : List Query.Group) : Prop :=
  ∃ captures : List Query.Capture, (∀ capture ∈ captures, t.Owns capture.node) ∧
    groups = Query.groupCaptures captures

/-- `Findings` that are groups of captures of nodes of a tree. -/
structure GroupedFindings (t : SyntaxTree) (findings : Findings) : Prop where
  classes : IsGrouping t (groupsOf findings.classes)
  functions : IsGrouping t (groupsOf findings.functions)
  imports : IsGrouping t (groupsOf findings.imports)
  errors : IsGrouping t (groupsOf findings.errors)

/-- A class is around a node: it has a name, and its definition is a proper ancestor of
the node. -/
structure IsAround (t : SyntaxTree) (classes : List Query.Group) (node : Handle)
    (outer : Query.Group) : Prop where
  mem : outer ∈ classes
  isNamed : outer.isNamed = true
  below : t.Below node.index outer.definition.index

/-- A class is the nearest one around a node: the definitions of all others are less deep. -/
structure IsNearest (t : SyntaxTree) (classes : List Query.Group) (node : Handle)
    (outer : Query.Group) : Prop
    extends IsAround t classes node outer where
  deepest : ∀ other, IsAround t classes node other → other ≠ outer →
    ∃ depth outerDepth, t.nodeDepth other.definition = .ok depth ∧
      t.nodeDepth outer.definition = .ok outerDepth ∧
      depth < outerDepth

/-- A text is that of the name of a group. -/
def IsNamedBy (t : SyntaxTree) (group : Query.Group) (text : String) : Prop :=
  ∃ name entry, group.name = some name ∧ t.node name = .ok entry ∧ t.textOf entry.record = text

/-- A definition is that of a group, and its container is the nearest class around the
group. -/
structure Contained (t : SyntaxTree) (classes : List Query.Group) (group : Query.Group)
    (definition : Definition) :
    Prop where
  handle_eq : definition.handle = group.definition
  container_eq_some_iff : ∀ text, definition.container = some text ↔
    ∃ outer, IsNearest t classes group.definition outer ∧ IsNamedBy t outer text
  container_eq_none_iff : definition.container = none ↔
    ∀ outer, ¬IsAround t classes group.definition outer
  definition_ne : ∀ outer, IsAround t classes group.definition outer →
    outer.definition ≠ group.definition

/-- The nodes of a grouping are nodes of the tree. -/
theorem IsGrouping.owns {groups : List Query.Group} (h : IsGrouping t groups) :
    ∀ group ∈ groups, ∀ node ∈ group.handles, t.Owns node := by
  obtain ⟨captures, howns, rfl⟩ := h
  intro group hgroup node hnode
  obtain ⟨capture, hcapture, rfl⟩ := Query.exists_mem_of_mem_handles hgroup hnode
  exact howns capture hcapture

theorem IsGrouping.owns_definition {groups : List Query.Group} (h : IsGrouping t groups) :
    ∀ group ∈ groups, t.Owns group.definition :=
  fun group hgroup => h.owns group hgroup group.definition List.mem_cons_self

/-- A grouping is `Ordered` by definitions. -/
theorem IsGrouping.ordered {groups : List Query.Group} (h : IsGrouping t groups) :
    Query.Ordered groups := by
  obtain ⟨captures, -, rfl⟩ := h
  exact Query.ordered_groupCaptures captures

/-- In groups that are `Ordered`, a definition tells the group. -/
theorem eq_of_definition_eq (h : Query.Ordered classes) {group other : Query.Group}
    (hgroup : group ∈ classes) (hother : other ∈ classes)
    (heq : group.definition = other.definition) : group = other := by
  have hfind := h.find?_eq_some hgroup
  rw [heq, h.find?_eq_some hother] at hfind
  exact (Option.some.inj hfind).symm

/-- `textOf?` gives the text of a node that can be read. -/
theorem textOf?_eq_some_iff {handle : Handle} {text : String} :
    textOf? t handle = some text ↔ ∃ entry, t.node handle = .ok entry ∧
      t.textOf entry.record = text := by
  rw [textOf?]
  cases t.node handle with
  | error e => simp
  | ok entry => simp

/-- A group has one name. -/
theorem IsNamedBy.unique {group : Query.Group} {text text' : String}
    (h : IsNamedBy t group text) (h' : IsNamedBy t group text') : text = text' := by
  obtain ⟨name, entry, hname, hentry, rfl⟩ := h
  obtain ⟨name', entry', hname', hentry', rfl⟩ := h'
  obtain rfl := Option.some.inj (hname.symm.trans hname')
  obtain rfl := Except.ok.inj (hentry.symm.trans hentry')
  rfl

/-- A group of nodes of the tree with a name is named by a text. -/
theorem exists_isNamedBy {group : Query.Group} (howns : ∀ node ∈ group.handles, t.Owns node)
    (h : group.isNamed = true) : ∃ text, IsNamedBy t group text := by
  obtain ⟨name, hname⟩ := Option.isSome_iff_exists.1 h
  have hmem : name ∈ group.name.toList := by rw [hname]; exact List.mem_singleton_self name
  obtain ⟨entry, hentry⟩ := (howns name (Query.Group.name_mem_handles hmem)).exists_node
  exact ⟨_, name, entry, hname, hentry, rfl⟩

/-- A group that is named by a text has a name. -/
theorem IsNamedBy.isNamed {group : Query.Group} {text : String} (h : IsNamedBy t group text) :
    group.isNamed = true := by
  obtain ⟨name, -, hname, -⟩ := h
  rw [Query.Group.isNamed, hname]
  rfl

/-- **`classNames`, the table of named classes,** has the name of a class under its
definition. -/
theorem lookup_classNames_iff (h : Query.Ordered classes) {handle : Handle} {text : String} :
    (classNames t classes).lookup handle = some text ↔
      ∃ outer ∈ classes, outer.definition = handle ∧ IsNamedBy t outer text := by
  have hkeys : ((classNames t classes).map (·.1)).Nodup := by
    rw [classNames, List.Nodup, List.pairwise_map, List.pairwise_filterMap]
    refine h.imp fun hbefore entry hentry other hother => ?_
    obtain ⟨text, -, rfl⟩ := Option.map_eq_some_iff.1 hentry
    obtain ⟨text', -, rfl⟩ := Option.map_eq_some_iff.1 hother
    exact hbefore.ne
  rw [← mem_iff_lookup_eq_some hkeys, classNames, List.mem_filterMap]
  refine exists_congr fun outer => and_congr_right fun _ => ?_
  rw [className?, Option.map_eq_some_iff]
  constructor
  · rintro ⟨text, hname, heq⟩
    obtain ⟨rfl, rfl⟩ := Prod.mk.inj heq
    obtain ⟨name, hname, htext⟩ := Option.bind_eq_some_iff.1 hname
    obtain ⟨entry, hentry, hentrytext⟩ := textOf?_eq_some_iff.1 htext
    exact ⟨rfl, name, entry, hname, hentry, hentrytext⟩
  · rintro ⟨rfl, name, entry, hname, hentry, htext⟩
    exact ⟨text, Option.bind_eq_some_iff.2 ⟨name, hname,
      textOf?_eq_some_iff.2 ⟨entry, hentry, htext⟩⟩, rfl⟩

/-- There is one nearest class around a node. -/
theorem IsNearest.unique {node : Handle} {outer outer' : Query.Group}
    (h : IsNearest t classes node outer) (h' : IsNearest t classes node outer') :
    outer = outer' := by
  by_contra hne
  obtain ⟨depth, depth', hdepth, hdepth', hlt⟩ := h'.deepest outer h.toIsAround hne
  obtain ⟨depth₂', depth₂, hdepth₂', hdepth₂, hlt₂⟩ :=
    h.deepest outer' h'.toIsAround (Ne.symm hne)
  obtain rfl := Except.ok.inj (hdepth.symm.trans hdepth₂)
  obtain rfl := Except.ok.inj (hdepth'.symm.trans hdepth₂')
  exact Nat.lt_asymm hlt hlt₂

/-- The definition of a class is less deep than that of a class below it. -/
theorem exists_depths {other outer : Query.Group} (hother : t.Owns other.definition)
    (houter : t.Owns outer.definition)
    (h : t.Below outer.definition.index other.definition.index) :
    ∃ depth outerDepth, t.nodeDepth other.definition = .ok depth ∧
      t.nodeDepth outer.definition = .ok outerDepth ∧
      depth < outerDepth := by
  obtain ⟨above, habove, haboveNode, -⟩ := hother.exists_entry
  obtain ⟨entry, hentry, hentryNode, -⟩ := houter.exists_entry
  refine ⟨above.depth, entry.depth, ?_, ?_, h.depth_lt hentry habove⟩
  · rw [SyntaxTree.nodeDepth, haboveNode]
    rfl
  · rw [SyntaxTree.nodeDepth, hentryNode]
    rfl

/-- **What `containerOf` looks up on the way up from a node**: the name of the nearest
class around it, or nothing if there is no class around it. -/
theorem containerOf_cases (h : IsGrouping t classes) {node : Handle} (hnode : t.Owns node) :
    (containerOf t (classNames t classes) node = none ∧
      ∀ outer, ¬IsAround t classes node outer) ∨
      ∃ outer text, containerOf t (classNames t classes) node = some text ∧
        IsNearest t classes node outer ∧
        IsNamedBy t outer text := by
  have howns := h.owns_definition
  -- a class around the node is in the table, at the position of its definition
  have hlisted (outer : Query.Group) (haround : IsAround t classes node outer) :
      (classNames t classes).lookup (t.handle outer.definition.index) ≠ none := by
    obtain ⟨text, htext⟩ := exists_isNamedBy (h.owns outer haround.mem) haround.isNamed
    have hlookup := (lookup_classNames_iff h.ordered).2 ⟨outer, haround.mem, rfl, htext⟩
    rw [SyntaxTree.handle_index (howns outer haround.mem).1, hlookup]
    exact Option.some_ne_none text
  rcases Arena.findSome?_tail_cases (fun index => (classNames t classes).lookup
    (t.handle index)) hnode.2 with
    ⟨hnone, hall⟩ | ⟨a, text, hfound, hbelow, hlookup, hnearest⟩
  · exact Or.inl ⟨hnone, fun outer haround => hlisted outer haround (hall _ haround.below)⟩
  · obtain ⟨outer, hmem, hdefinition, htext⟩ := (lookup_classNames_iff h.ordered).1 hlookup
    obtain rfl : outer.definition.index = a := congrArg Handle.index hdefinition
    refine Or.inr ⟨outer, text, hfound,
      ⟨⟨hmem, htext.isNamed, hbelow⟩, fun other haround hne => ?_⟩, htext⟩
    have hencloses := hnearest _ haround.below (hlisted other haround)
    have hindex : outer.definition.index ≠ other.definition.index := fun heq =>
      hne (eq_of_definition_eq h.ordered haround.mem hmem
        (by rw [← SyntaxTree.handle_index (howns other haround.mem).1, ← heq,
          SyntaxTree.handle_index (howns outer hmem).1]))
    exact exists_depths (howns other haround.mem) (howns outer hmem)
      (Arena.below_iff.2 ⟨hindex, hencloses⟩)

/-- **The container that `definitionOf` gives** is the nearest named class. -/
theorem contained_definitionOf (h : IsGrouping t classes) {group : Query.Group}
    (hgroup : t.Owns group.definition) {definition : Definition}
    (hdefinition : definitionOf t (classNames t classes) group = .ok definition) :
    Contained t classes group definition := by
  obtain ⟨entry, -, hok⟩ := exists_of_bind_eq_ok hdefinition
  obtain rfl := Except.ok.inj hok
  have hne (outer : Query.Group) (haround : IsAround t classes group.definition outer) :
      outer.definition ≠ group.definition :=
        fun heq => Nat.lt_irrefl _ (heq ▸ haround.below.lt)
  rcases containerOf_cases h hgroup with ⟨hnone, hall⟩ | ⟨outer, text, hsome, hnearest, htext⟩
  · refine ⟨rfl, fun text => ⟨fun hsome => ?_, ?_⟩, ⟨fun _ => hall, fun _ => hnone⟩, hne⟩
    · cases hnone.symm.trans hsome
    · rintro ⟨outer, hnearest, -⟩
      exact absurd hnearest.toIsAround (hall outer)
  · refine ⟨rfl, fun text' => ⟨fun hsome' => ?_, ?_⟩, ⟨fun hnone => ?_, fun hall => ?_⟩, hne⟩
    · obtain rfl := Option.some.inj (hsome.symm.trans hsome')
      exact ⟨outer, hnearest, htext⟩
    · rintro ⟨outer', hnearest', htext'⟩
      obtain rfl := hnearest.unique hnearest'
      obtain rfl := htext.unique htext'
      exact hsome
    · cases hnone.symm.trans hsome
    · exact absurd hnearest.toIsAround (hall outer)

/-! ### Outlines -/

variable {Q : Type}

/-- The definitions of the groups of a category, each with its container. -/
theorem forall₂_contained (h : IsGrouping t classes) {groups : List Query.Group}
    (hgroups : IsGrouping t groups) {definitions : List Definition}
    (hdefinitions : groups.mapM (definitionOf t (classNames t classes)) = .ok definitions) :
    List.Forall₂ (Contained t classes) groups definitions := by
  have hall := (List.forall₂_and_left groups definitions).2
    ⟨hgroups.owns_definition, forall₂_of_mapM hdefinitions⟩
  exact hall.imp fun group definition hgroup => contained_definitionOf h hgroup.1 hgroup.2

/-- Groups of captures are nodes of the tree in all categories. -/
theorem GroupedFindings.ownsFindings {findings : Findings} (h : GroupedFindings t findings) :
    OwnsFindings t findings where
  classes := h.classes.owns
  functions := h.functions.owns
  imports := h.imports.owns
  errors := h.errors.owns

theorem isGrouping_nil : IsGrouping t [] :=
  ⟨[], List.forall_mem_nil _, rfl⟩

/-- What `findCategory` finds are groups of captures of nodes of the tree. -/
theorem isGrouping_findCategory {handler : QueryHandler Q} {host : Host Q} {root : Handle}
    {category : Category} {found : CategoryMatches}
    (h : (handler.findCategory host t root category).1 = .ok found) :
    IsGrouping t found.groups := by
  cases hpattern : handler.registry.patternFor category t.language with
  | none =>
    rw [QueryHandler.findCategory_of_none hpattern] at h
    cases h
  | some text =>
    rw [QueryHandler.findCategory_of_pattern hpattern] at h
    obtain ⟨query, -, h⟩ := exists_of_bind_eq_ok h
    obtain ⟨result, hresult, h⟩ := exists_of_bind_eq_ok h
    obtain rfl := Except.ok.inj h
    refine ⟨result.captures, ?_, rfl⟩
    rw [QueryHandler.execute] at hresult
    cases hexecute : Query.execute host.engine (host.clocks category) t query root
        (handler.settingsFor category) with
    | error e =>
      rw [hexecute] at hresult
      cases hresult
    | ok result' =>
      rw [hexecute] at hresult
      obtain rfl := Except.ok.inj hresult
      exact Query.owns_captures_execute hexecute

/-- What `record` notes of a category is what it found, or nothing. -/
theorem isGrouping_record {log log' : RunLog} {strict : Bool} {category : Category}
    {outcome : Except QueryError CategoryMatches} {found : Option CategoryMatches}
    (houtcome : ∀ matched, outcome = .ok matched → IsGrouping t matched.groups)
    (h : log.record strict category outcome = .ok (found, log')) :
    IsGrouping t (groupsOf found) := by
  obtain rfl := RunLog.record_eq_ok h
  cases outcome with
  | ok matched => exact houtcome matched rfl
  | error e => exact isGrouping_nil

/-- `runCategories` runs one category after the other: what the first one gives is noted,
and the others go on with that. -/
theorem exists_of_runCategories_cons {host : Host Q} {strict : Bool} {category : Category}
    {categories : List Category} {handler : QueryHandler Q} {log log' : RunLog}
    {founds : List (Option CategoryMatches)}
    (h : (QueryHandler.runCategories host t strict (category :: categories) handler log).1 =
      .ok (founds, log')) :
    ∃ found next others, founds = found :: others ∧
      log.record strict category (handler.findCategory host t t.rootHandle category).1 =
        .ok (found, next) ∧
      (QueryHandler.runCategories host t strict categories
        (handler.findCategory host t t.rootHandle category).2 next).1 =
          .ok (others, log') := by
  rw [QueryHandler.runCategories] at h
  dsimp only at h
  split at h
  · cases h
  next found next hrecord =>
    split at h
    · cases h
    next others last handler' hothers =>
      obtain ⟨rfl, rfl⟩ := Prod.mk.inj (Except.ok.inj h)
      exact ⟨found, next, others, rfl, hrecord, congrArg Prod.fst hothers⟩

/-- What `runCategories` finds are groups of captures of nodes of the tree. -/
theorem isGrouping_runCategories {host : Host Q} {strict : Bool} {categories : List Category}
    {handler : QueryHandler Q} {log log' : RunLog} {founds : List (Option CategoryMatches)}
    (h : (QueryHandler.runCategories host t strict categories handler log).1 =
      .ok (founds, log')) :
    ∀ found ∈ founds, IsGrouping t (groupsOf found) := by
  induction categories generalizing handler log log' founds with
  | nil =>
    obtain ⟨rfl, -⟩ := Prod.mk.inj (Except.ok.inj h)
    exact List.forall_mem_nil _
  | cons category categories ih =>
    obtain ⟨found, next, others, rfl, hrecord, hothers⟩ := exists_of_runCategories_cons h
    exact List.forall_mem_cons.2 ⟨isGrouping_record (fun _ => isGrouping_findCategory) hrecord,
      ih hothers⟩

/-- The outline of `analyze` is assembled from what the runs of the analyzed categories
have found. -/
theorem exists_runs_of_analyze {handler : QueryHandler Q} {host : Host Q} {strict : Bool}
    {outline : Outline} (h : (analyze handler host t strict).1 = .ok outline) :
    ∃ founds log, (QueryHandler.runCategories host t strict analyzedCategories handler {}).1 =
      .ok (founds, log) ∧
      assemble t (findingsOf founds log) = .ok outline := by
  rw [analyze] at h
  dsimp only at h
  split at h
  · cases h
  next founds log hruns =>
    split at h
    next outline' houtline =>
      obtain rfl := Except.ok.inj h
      exact ⟨founds, log, hruns, houtline⟩
    · cases h

/-- **All outlines are assembled from groups of captures** of nodes of their trees. -/
theorem exists_grouped_of_analyze {handler : QueryHandler Q} {host : Host Q} {strict : Bool}
    {outline : Outline} (h : (analyze handler host t strict).1 = .ok outline) :
    ∃ findings, GroupedFindings t findings ∧ assemble t findings = .ok outline := by
  obtain ⟨founds, log, hruns, houtline⟩ := exists_runs_of_analyze h
  have hgrouping (place : Nat) : IsGrouping t (groupsOf (founds.getD place none)) := by
    rw [List.getD_eq_getElem?_getD]
    cases hplace : founds[place]? with
    | none => exact isGrouping_nil
    | some found => exact isGrouping_runCategories hruns found (List.mem_of_getElem? hplace)
  exact ⟨findingsOf founds log, ⟨hgrouping 0, hgrouping 1, hgrouping 2, hgrouping 3⟩, houtline⟩

/-- What `assemble` makes of findings has the parts that `gather` read at them. -/
theorem exists_parts_of_assemble {findings : Findings} {outline : Outline}
    (h : assemble t findings = .ok outline) :
    ∃ parts, gather t findings = .ok parts ∧ outline = ofParts t findings.log parts := by
  rw [assemble] at h
  cases hgather : gather t findings with
  | error e =>
    rw [hgather] at h
    cases h
  | ok parts =>
    rw [hgather] at h
    exact ⟨parts, rfl, (Except.ok.inj h).symm⟩

/-- The outline of `analyze` is made of parts that were read at groups of captures. -/
theorem exists_parts_of_analyze {handler : QueryHandler Q} {host : Host Q} {strict : Bool}
    {outline : Outline} (h : (analyze handler host t strict).1 = .ok outline) :
    ∃ findings parts, GroupedFindings t findings ∧ gather t findings = .ok parts ∧
      outline = ofParts t findings.log parts := by
  obtain ⟨findings, hgrouped, hassemble⟩ := exists_grouped_of_analyze h
  obtain ⟨parts, hgather, houtline⟩ := exists_parts_of_assemble hassemble
  exact ⟨findings, parts, hgrouped, hgather, houtline⟩

/-- **Containers are the nearest named classes.** From any groups of captures of nodes of
a tree, an outline is assembled. It has one definition for each group, in their order. For
each of them, be it a class, a function or an import,

* the container is the text of the name of a class just if that class is the deepest one
  of the classes with a name whose definitions are proper ancestors of its node; classes
  without a name are passed over;
* there is no container just if no proper ancestor of its node is the definition of a
  class with a name;
* a class around it is not at its own node, so no class contains itself. -/
theorem container_is_nearest_class (t : SyntaxTree) {findings : Findings}
    (h : GroupedFindings t findings) :
    ∃ outline, assemble t findings = .ok outline ∧
      List.Forall₂ (Contained t (groupsOf findings.classes)) (groupsOf findings.classes)
        outline.classes ∧
      List.Forall₂ (Contained t (groupsOf findings.classes)) (groupsOf findings.functions)
        outline.functions ∧
      List.Forall₂ (Contained t (groupsOf findings.classes)) (groupsOf findings.imports)
        outline.imports := by
  obtain ⟨parts, hparts⟩ := h.ownsFindings.exists_gather
  refine ⟨ofParts t findings.log parts, by rw [assemble, hparts]; rfl, ?_⟩
  obtain ⟨missing, -, hparts⟩ := exists_of_bind_eq_ok hparts
  obtain ⟨classes, hclasses, hparts⟩ := exists_of_bind_eq_ok hparts
  obtain ⟨functions, hfunctions, hparts⟩ := exists_of_bind_eq_ok hparts
  obtain ⟨imports, himports, hparts⟩ := exists_of_bind_eq_ok hparts
  obtain ⟨missingNodes, -, hparts⟩ := exists_of_bind_eq_ok hparts
  obtain ⟨errors, -, hparts⟩ := exists_of_bind_eq_ok hparts
  obtain rfl := Except.ok.inj hparts
  exact ⟨forall₂_contained h.classes h.classes hclasses,
    forall₂_contained h.classes h.functions hfunctions,
    forall₂_contained h.classes h.imports himports⟩

/-- A part of a source of which nothing is known but where it is. -/
def spanOnly (start stop : Nat) (children : List Tree) : Tree :=
  .node { (default : NodeRecord) with start := start, stop := stop } children

/-- The tree of a source `AB` with a class `A`, in which there is a class without a name.
In that one there are two functions, and a class `B` with a function is in the first of
them. Another function is outside of all classes. -/
def nestedClasses : SyntaxTree :=
  .ofTree 0 .python [65, 66] <| spanOnly 0 2
    [spanOnly 0 2
      [spanOnly 0 1 [],
        spanOnly 1 2 [spanOnly 1 2 [spanOnly 1 2 [spanOnly 1 2 [], spanOnly 2 2 []]],
          spanOnly 2 2 []]],
      spanOnly 2 2 []]

/-- The captures of definitions and names, one match for each definition. -/
def nestedCaptures (definitions : List (Nat × Option Nat)) : List Query.Capture :=
  definitions.zipIdx.flatMap fun ((definition, name), matchId) =>
    ⟨"def", ⟨0, definition⟩, 0, matchId⟩ :: name.toList.map fun name =>
      ⟨"name", ⟨0, name⟩, 0, matchId⟩

/-- What is found in nested classes. -/
def nestedFindings : Findings :=
  let found (category : Category) (definitions : List (Nat × Option Nat)) : CategoryMatches :=
    { category, groups := Query.groupCaptures (nestedCaptures definitions), result := default }
  { classes := found .classes [(1, some 2), (3, none), (5, some 6)]
    functions := found .functions [(4, none), (7, none), (8, none), (9, none)]
    imports := none
    errors := none
    log := {} }

/-- In nested classes, the class without a name is passed over: the nearest class around
the functions right below it is `A`, and the nearest class around the class `B` is `A`,
too. -/
theorem container_is_nearest_class_nested :
    let classes := groupsOf nestedFindings.classes
    GroupedFindings nestedClasses nestedFindings ∧
      ∃ outline, assemble nestedClasses nestedFindings = .ok outline ∧
        outline.classes.map (·.container) = [none, some "A", some "A"] ∧
        outline.functions.map (·.container) = [some "A", some "B", some "A", none] ∧
        ∃ outer, IsNearest nestedClasses classes ⟨0, 4⟩ outer ∧
          IsNamedBy nestedClasses outer "A" := by
  intro classes
  have hgrouped : GroupedFindings nestedClasses nestedFindings :=
    ⟨⟨nestedCaptures [(1, some 2), (3, none), (5, some 6)], by decide, rfl⟩,
      ⟨nestedCaptures [(4, none), (7, none), (8, none), (9, none)], by decide, rfl⟩,
      isGrouping_nil, isGrouping_nil⟩
  have hgiven : (gather nestedClasses nestedFindings).map
      (fun parts => (parts.classes.map (·.container), parts.functions.map (·.container))) =
        .ok ([none, some "A", some "A"], [some "A", some "B", some "A", none]) := by
      decide +kernel
  have hgroups : (groupsOf nestedFindings.functions).head? =
      some ⟨⟨0, 4⟩, none, none, none, 0⟩ := by decide
  obtain ⟨outline, houtline, -, hfunctions, -⟩ :=
    container_is_nearest_class nestedClasses hgrouped
  cases hparts : gather nestedClasses nestedFindings with
  | error e =>
    rw [hparts] at hgiven
    cases hgiven
  | ok parts =>
    obtain rfl : ofParts nestedClasses nestedFindings.log parts = outline := by
      rw [assemble, hparts] at houtline
      exact Except.ok.inj houtline
    rw [hparts] at hgiven
    obtain ⟨hclasses, hcontainers⟩ := Prod.mk.inj (Except.ok.inj hgiven)
    refine ⟨hgrouped, _, houtline, hclasses, hcontainers, ?_⟩
    obtain ⟨rest, hrest⟩ := List.head?_eq_some_iff.1 hgroups
    rw [hrest] at hfunctions
    obtain ⟨definition, definitions, hfirst, -, hlist⟩ :=
      List.forall₂_cons_left_iff.1 hfunctions
    have hlist : parts.functions = definition :: definitions := hlist
    rw [hlist, List.map_cons] at hcontainers
    exact (hfirst.container_eq_some_iff "A").1 (List.cons.inj hcontainers).1

end Outline

end SourceOutline
