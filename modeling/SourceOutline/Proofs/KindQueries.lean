import Mathlib.Data.List.Sort
import SourceOutline.Analyzer
import SourceOutline.Proofs.CommonAncestor
import SourceOutline.Proofs.Handler
import SourceOutline.Proofs.MatchCounts
import SourceOutline.Proofs.NodeQueries

/-!
# Nodes of One Kind, by Queries and by Walks

The nodes of a kind are found in two ways. A walk looks at each node of a subtree. The
query handler compiles the query `(kind) @target`, runs it within its limit, and puts the
captured nodes in order. The two differ in two points: a query finds named nodes only, and
its limit cuts the answer without a word.

What is assumed of the run is `OneMatchEach`: one match for each named node of the kind,
in any order. Whatever order that is, the handles that are left are put in order by
insertion, and so they are a sublist of what the walk finds. The cursor keeps to the
assumption (`QueryHandler.oneMatchEach_passing`) with the query that the text is compiled
to (`QueryHandler.build_kindQuery`).

## Main results

* `foldr_addHandle_take`: what a limit leaves of handles in any order, when it is put in order.
* `QueryHandler.findNodesByType_eq`: what is found, by the positions in the order of their
  matches.
* `QueryHandler.kind_lookups_agree`: how the two answers compare.
-/

namespace SourceOutline

/-! ### Handles in order -/

instance : Std.Irrefl Handle.Before := ⟨fun _ h => h.ne rfl⟩

instance : Std.Antisymm Handle.Before := ⟨fun _ _ hab hba => absurd rfl (hab.trans hba).ne⟩

section Insertion

open QueryHandler

/-- `addHandle` adds one handle, unless it is there. -/
theorem mem_addHandle {handle other : Handle} {handles : List Handle} :
    other ∈ addHandle handle handles ↔ other = handle ∨ other ∈ handles := by
  induction handles with
  | nil => rw [addHandle, List.mem_singleton, List.mem_nil_iff, or_false]
  | cons first rest ih =>
    rw [addHandle]
    split
    next heq =>
      subst heq
      rw [List.mem_cons, ← or_assoc, or_self]
    next =>
      split
      · rw [List.mem_cons]
      · rw [List.mem_cons, List.mem_cons, ih, or_left_comm]

/-- `addHandle` keeps handles strictly increasing. -/
theorem pairwise_addHandle {handles : List Handle} (h : handles.Pairwise Handle.Before)
    (handle : Handle) :
    (addHandle handle handles).Pairwise Handle.Before := by
  induction handles with
  | nil => exact List.pairwise_singleton ..
  | cons first rest ih =>
    obtain ⟨hfirst, hrest⟩ := List.pairwise_cons.1 h
    rw [addHandle]
    split
    · exact h
    next hne =>
      split
      next hle =>
        have hbefore : handle.Before first := (Handle.le_iff_before (Ne.symm hne)).1 hle
        refine List.pairwise_cons.2 ⟨fun other hother => ?_, h⟩
        rcases List.mem_cons.1 hother with rfl | hother
        · exact hbefore
        · exact hbefore.trans (hfirst other hother)
      next hle =>
        have hbefore : first.Before handle :=
          Handle.before_of_not_le (Ne.symm hne) (Bool.eq_false_iff.2 hle)
        refine List.pairwise_cons.2 ⟨fun other hother => ?_, ih hrest⟩
        rcases mem_addHandle.1 hother with rfl | hother
        · exact hbefore
        · exact hfirst other hother

/-- What is put in order is what there was. -/
theorem mem_foldr_addHandle {handles : List Handle} {handle : Handle} :
    handle ∈ handles.foldr addHandle [] ↔ handle ∈ handles := by
  induction handles with
  | nil => rfl
  | cons first rest ih => rw [List.foldr_cons, mem_addHandle, ih, List.mem_cons]

/-- **`addHandle` puts handles in order**, each of them once. -/
theorem pairwise_foldr_addHandle (handles : List Handle) :
    (handles.foldr addHandle []).Pairwise Handle.Before := by
  induction handles with
  | nil => exact List.Pairwise.nil
  | cons first rest ih => exact pairwise_addHandle ih first

/-- Of handles that differ, none is lost. -/
theorem length_foldr_addHandle {handles : List Handle} (h : handles.Nodup) :
    (handles.foldr addHandle []).length = handles.length :=
  ((List.perm_ext_iff_of_nodup (pairwise_foldr_addHandle handles).nodup h).2
    fun _ => mem_foldr_addHandle).length_eq

/-- **What a limit leaves of handles in any order**, when it is put in order: a sublist of
the handles in order, as long as the limit allows. -/
theorem foldr_addHandle_take {handles ordered : List Handle} (hperm : handles.Perm ordered)
    (hordered : ordered.Pairwise Handle.Before) (limit : Nat) :
    ((handles.take limit).foldr addHandle []).Sublist ordered ∧
      ((handles.take limit).foldr addHandle []).length = min limit ordered.length := by
  have htaken : (handles.take limit).Nodup :=
    (hperm.nodup_iff.2 hordered.nodup).sublist (List.take_sublist limit handles)
  have hsubset : (handles.take limit).foldr addHandle [] ⊆ ordered := fun handle hhandle =>
    hperm.mem_iff.1 (List.mem_of_mem_take (mem_foldr_addHandle.1 hhandle))
  constructor
  · exact List.sublist_of_subperm_of_pairwise
      (List.subperm_of_subset (pairwise_foldr_addHandle _).nodup hsubset)
      (pairwise_foldr_addHandle _) hordered
  · rw [length_foldr_addHandle htaken, List.length_take, hperm.length_eq]

end Insertion

/-! ### Named nodes of a kind -/

section Named

variable {t : SyntaxTree} {root : Handle} {kind : String}

/-- Whether `handle` is that of a named node of `t`. -/
def SyntaxTree.isNamedNode (t : SyntaxTree) (handle : Handle) : Bool :=
  (t.node handle).toOption.any (·.record.isNamed)

/-- Whether what was read is a named node of `kind`. -/
def Entry.isNamedOf (kind : String) (entry : Entry) : Bool :=
  entry.record.isNamed && entry.record.kind = kind

/-- The positions of the named nodes of a kind in a subtree, each of them once, in any
order. -/
structure ListsNamed (t : SyntaxTree) (root : Handle) (kind : String) (positions : List Nat) :
    Prop where
  nodup : positions.Nodup
  mem_iff : ∀ index, index ∈ positions ↔ t.Encloses root.index index ∧
    ∃ entry, t.node (t.handle index) = .ok entry ∧ entry.record.isNamed = true ∧
      entry.record.kind = kind

/-- Matches are one for each named node of a kind in a subtree, which is captured as the
target, in any order. -/
def OneMatchEach (t : SyntaxTree) (root : Handle) (kind : String) (ms : List Query.Match) :
    Prop :=
  ∃ positions, ListsNamed t root kind positions ∧
    List.Forall₂ (Query.CapturesAt t "target") ms positions

/-- What it is to be a named node of a kind. -/
theorem Entry.isNamedOf_eq_true_iff {entry : Entry} :
    entry.isNamedOf kind = true ↔ entry.record.isNamed = true ∧ entry.record.kind = kind := by
  rw [isNamedOf, Bool.and_eq_true, decide_eq_true_eq]

/-- The named nodes among those of a kind are found by one `scan` for both. -/
theorem SyntaxTree.filter_scan (t : SyntaxTree) (kind : String) (root : Nat) :
    (t.scan (fun entry => entry.record.kind = kind) root).filter t.isNamedNode =
      t.scan (Entry.isNamedOf kind) root := by
  have hnode (index : Nat) : t.isNamedNode (t.handle index) =
      t.acceptedAt (·.record.isNamed) index := by
    rw [Bool.eq_iff_iff, acceptedAt_iff, isNamedNode, Option.any_eq_true]
    cases t.node (t.handle index) with
    | error e => simp [Except.toOption]
    | ok entry => simp [Except.toOption]
  have hboth : (fun index => t.isNamedNode (t.handle index) &&
      t.acceptedAt (fun entry => entry.record.kind = kind) index) =
        t.acceptedAt (Entry.isNamedOf kind) := by
    funext index
    rw [hnode, acceptedAt, acceptedAt, acceptedAt]
    cases t.nodes[index]? with
    | none => rfl
    | some entry => rfl
  rw [scan, scan, List.filter_map, List.filter_filter, ← hboth]
  rfl

/-- Matches with one capture each have one captured node each in `taggedFrom`. -/
theorem Query.map_node_taggedFrom {name : String} {ms : List Query.Match}
    {positions : List Nat} (h : List.Forall₂ (Query.CapturesAt t name) ms positions)
    (first : Nat) :
    (Query.taggedFrom t first ms).map (·.node) = positions.map t.handle := by
  induction h generalizing first with
  | nil => rfl
  | @cons m index ms positions hm _ ih =>
    obtain ⟨tree, hcaptures, hhandle⟩ := hm
    have hnode : (m.tagged t first).map (·.node) = [t.handle index] := by
      rw [Query.Match.tagged, hcaptures, List.filterMap_cons, hhandle]
      rfl
    rw [Query.taggedFrom, List.map_append, ih, hnode, List.map_cons, List.singleton_append]

/-- Handles of one tree are in order as their positions are. -/
theorem SyntaxTree.pairwise_before_scan (t : SyntaxTree) (accept : Entry → Bool) (root : Nat) :
    (t.scan accept root).Pairwise Handle.Before := by
  have hlt := t.pairwise_scan accept root
  rw [scan, List.pairwise_map] at hlt ⊢
  exact hlt.imp fun h => Or.inr ⟨rfl, h⟩

/-- **Positions that are listed in any order** are those of the nodes that `scan`
finds. -/
theorem ListsNamed.perm_scan (hroot : t.Owns root) {positions : List Nat}
    (h : ListsNamed t root kind positions) :
    (positions.map t.handle).Perm (t.scan (Entry.isNamedOf kind) root.index) := by
  refine (List.perm_ext_iff_of_nodup (h.nodup.map t.handle_injective)
    (t.pairwise_before_scan _ _).nodup).2 fun handle => ?_
  rw [hroot.mem_scan_iff, List.mem_map]
  constructor
  · rintro ⟨index, hindex, rfl⟩
    obtain ⟨hencloses, entry, hentry, hnamed⟩ := (h.mem_iff index).1 hindex
    exact ⟨rfl, hencloses, entry, hentry, Entry.isNamedOf_eq_true_iff.2 hnamed⟩
  · rintro ⟨htree, hencloses, entry, hentry, hnamed⟩
    refine ⟨handle.index,
      (h.mem_iff _).2 ⟨hencloses, entry, ?_, Entry.isNamedOf_eq_true_iff.1 hnamed⟩,
      SyntaxTree.handle_index htree⟩
    rwa [SyntaxTree.handle_index htree]

end Named

namespace QueryHandler

/-! ### What the query finds -/

section Found

variable {Q : Type} {handler : QueryHandler Q} {host : Host Q} {t : SyntaxTree} {root : Handle}
  {kind : String} {query : Q} {delivery : Query.Delivery}

/-- **What `findNodesByType` finds in a run without a time budget**: the nodes that the
first matches capture, put in order. -/
theorem findNodesByType_eq (hroot : t.Owns root) (hbudget : handler.settings.timeout = none)
    (hquery : (handler.build host t.language target (kindQuery kind)).1 = .ok query)
    (hdelivery : host.engine.run t.toArena query root.index handler.settings.maxStartDepth
      (Query.atLeastOne handler.settings.matchLimit) = delivery)
    {positions : List Nat}
    (hcaptures : List.Forall₂ (Query.CapturesAt t "target") delivery.found positions) :
    (handler.findNodesByType host t root kind).1 =
      .ok (((positions.map t.handle).take
        (Query.atLeastOne handler.settings.matchLimit)).foldr addHandle []) := by
  have hsettings : (handler.build host t.language target (kindQuery kind)).2.settings =
      handler.settings := by
    rw [build_snd]
  obtain ⟨entry, -, hresult⟩ :=
    Query.execute_of_untimed (host.clocks target) query hroot hbudget hdelivery
  have hnodes : (Query.firstMatches t handler.settings.matchLimit delivery.found).captures.map
      (·.node) =
      (positions.map t.handle).take (Query.atLeastOne handler.settings.matchLimit) := by
    rw [← List.map_take]
    exact Query.map_node_taggedFrom (List.forall₂_take _ hcaptures) 0
  have hfound : (handler.findNodesByType host t root kind).1 =
      (handler.build host t.language target (kindQuery kind)).1.bind fun query =>
        (execute host target t query root
          (handler.build host t.language target (kindQuery kind)).2.settings).bind
          fun result =>
            .ok ((result.captures.map (·.node)).foldr addHandle []) := rfl
  rw [hfound, hquery, hsettings]
  dsimp only [Except.bind]
  rw [execute, hresult]
  exact congrArg (fun nodes => Except.ok (nodes.foldr addHandle [])) hnodes

end Found

/-! ### What the cursor delivers -/

/-- **The text for a kind**, `kindQuery`, is compiled to the query for it, if the kind is
a word of the grammar and is read as a name. -/
theorem build_kindQuery {handler : QueryHandler Query} {host : Host Query}
    {parse : Language → Grammar → Bytes → Option Tree}
    {vocabulary : Language → Grammar → Vocabulary}
    (hengine : host.engine = Query.engine parse vocabulary) {language : Language}
    {binding : Binding}
    (hbinding : (handler.service.bind host.files language).1 = .ok binding)
    (hcompatible : binding.grammar.isCompatible = true) {kind : String}
    (hname : Query.Read.IsName kind.toList)
    (hplain : kind ≠ "_" ∧ kind ≠ "ERROR" ∧ kind ≠ "MISSING")
    (hknown : kind ∈ (vocabulary language binding.grammar).named) :
    (handler.build host language target (kindQuery kind)).1 =
      .ok (Query.nodeQuery (.kind kind) "target") := by
  have htext : (kindQuery kind).toList =
      '(' :: (kind.toList ++ ')' :: ' ' :: '@' :: "target".toList) := by
    rw [kindQuery, String.toList_append, String.toList_append]
    rfl
  have htest (start : Nat) : Query.Read.nodeTest (vocabulary language binding.grammar) start
      (String.ofList kind.toList) = pure (.kind kind) := by
    rw [String.ofList_toList, Query.Read.nodeTest, if_neg hplain.1, if_neg hplain.2.1,
      if_neg hplain.2.2, if_pos (List.contains_iff_mem.2 hknown)]
  have hcompile : host.engine.compile language binding.grammar (kindQuery kind) =
      .ok (Query.nodeQuery (.kind kind) "target") := by
    rw [hengine, Query.engine]
    dsimp only
    rw [Query.compileFor, if_pos hcompatible,
      Query.compile_nodeQuery htext hname htest ⟨rfl, rfl⟩]
    rfl
  have hbuild : (handler.build host language target (kindQuery kind)).1 =
      compileFor host.engine language target (kindQuery kind) binding.grammar := by
    rw [build]
    dsimp only
    rw [hbinding]
  rw [hbuild, compileFor, hcompile]

/-- **The cursor has one match for each named node of a kind**, in a tree where the
engine's numbers are all different. -/
theorem oneMatchEach_passing {t : SyntaxTree}
    (hids : (t.root.preorder.map fun node => node.record.id).Nodup) {root : Handle}
    (hroot : t.Owns root) (kind : String) :
    OneMatchEach t root kind ((Query.passing t.toArena (.kind kind) root.index).map
      fun index => (Query.nodeHit "target" index).toMatch t.toArena) := by
  have hscan : t.scan (Entry.isNamedOf kind) root.index =
      (Query.passing t.toArena (.kind kind) root.index).map t.handle := rfl
  refine ⟨Query.passing t.toArena (.kind kind) root.index, ⟨?_, fun index => ?_⟩, ?_⟩
  · exact (Query.pairwise_passing ..).nodup
  · rw [← List.mem_map_of_injective t.handle_injective, ← hscan, hroot.mem_scan_iff]
    simp only [Entry.isNamedOf_eq_true_iff]
    exact and_iff_right rfl
  · refine List.forall₂_map_left_iff.2 (List.forall₂_same.2 fun index hindex => ?_)
    rw [Query.passing, List.mem_filter] at hindex
    obtain ⟨entry, hentry, -⟩ := (Option.any_eq_true _ _).1 hindex.2
    exact Query.capturesAt_nodeHit hids "target" (Array.getElem?_eq_some_iff.1 hentry).1

/-- **Nodes of a kind are found alike by queries and by walks.** Let a run of the query
for a kind, without a time budget and a bound on where matches start, be delivered one
match for each named node of the kind in the subtree of `root`, in any order. Let `l` be
its limit, where 0 counts as 1, and let `named` be what a walk from `root` finds, without
the anonymous nodes. Then both have an answer, the query finds named nodes of the kind in
strictly increasing order, and

* it finds `named` if that is at most `l` nodes;
* otherwise it finds a sublist of `named` of `l` nodes. -/
theorem kind_lookups_agree {Q : Type} (handler : QueryHandler Q) (host : Host Q)
    (t : SyntaxTree) {root : Handle} (hroot : t.Owns root) (kind : String)
    (hbudget : handler.settings.timeout = none)
    (hdepth : handler.settings.maxStartDepth = none) {query : Q}
    (hquery : (handler.build host t.language target (kindQuery kind)).1 = .ok query)
    {ms : List Query.Match}
    (hms : (host.engine.run t.toArena query root.index none
      (max handler.settings.matchLimit 1)).found = ms)
    (hone : OneMatchEach t root kind ms) :
    ∃ found all, (handler.findNodesByType host t root kind).1 = .ok found ∧
      t.findNodesByType root kind = .ok all ∧
      found.Pairwise Handle.Before ∧
      (∀ handle ∈ found, ∃ entry,
        t.node handle = .ok entry ∧ entry.record.isNamed = true ∧ entry.record.kind = kind) ∧
      ((all.filter t.isNamedNode).length ≤ max handler.settings.matchLimit 1 →
        found = all.filter t.isNamedNode) ∧
      (max handler.settings.matchLimit 1 < (all.filter t.isNamedNode).length →
        found.Sublist (all.filter t.isNamedNode) ∧
          found.length = max handler.settings.matchLimit 1) := by
  obtain ⟨positions, hlisted, hcaptures⟩ := hone
  rw [← hms, ← hdepth] at hcaptures
  refine ⟨_, _, findNodesByType_eq hroot hbudget hquery rfl hcaptures,
    hroot.findNodes_eq_scan _, pairwise_foldr_addHandle _, ?_⟩
  obtain ⟨hsublist, hlength⟩ := foldr_addHandle_take (hlisted.perm_scan hroot)
    (t.pairwise_before_scan _ _) (Query.atLeastOne handler.settings.matchLimit)
  rw [t.filter_scan]
  refine ⟨fun handle hhandle => ?_, fun hfits => ?_, fun hmore => ⟨hsublist, ?_⟩⟩
  · obtain ⟨-, -, entry, hentry, hnamed⟩ := hroot.mem_scan_iff.1 (hsublist.subset hhandle)
    exact ⟨entry, hentry, Entry.isNamedOf_eq_true_iff.1 hnamed⟩
  · exact hsublist.eq_of_length (hlength.trans (Nat.min_eq_right hfits))
  · exact hlength.trans (Nat.min_eq_left (Nat.le_of_lt hmore))

/-- A named node of a kind, with the engine's number for it. -/
def namedNode (id : Nat) (kind : String) (children : List Tree) : Tree :=
  .node { (default : NodeRecord) with id := id, kind := kind, isNamed := true } children

/-- The tree of the list `[null, null]`, in which each named node has an anonymous one of
the same kind below it. -/
def nullList : SyntaxTree :=
  .ofTree 0 .json [] <| namedNode 0 "document"
    [namedNode 1 "array"
      [SyntaxTree.kindOnly 2 "[" [], namedNode 3 "null" [SyntaxTree.kindOnly 4 "null" []],
        SyntaxTree.kindOnly 5 "," [], namedNode 6 "null" [SyntaxTree.kindOnly 7 "null" []],
        SyntaxTree.kindOnly 8 "]" []]]

/-- In a list of two nulls, a walk finds four nodes of that kind. The query finds the two
that are named, and one of them if its limit is 0. -/
theorem kind_lookups_agree_nulls :
    let engine := Query.engine (fun _ _ _ => none) fun _ _ => { named := ["null"] }
    let host : Host Query := { files := .empty, engine, clocks := fun _ _ => 0 }
    let handler (limit : Nat) : QueryHandler Query :=
      { (Analyzer.default { home := some "/home" }).handler with
        settings := { matchLimit := limit } }
    nullList.Owns ⟨0, 1⟩ ∧
      nullList.findNodesByType ⟨0, 1⟩ "null" = .ok [⟨0, 3⟩, ⟨0, 4⟩, ⟨0, 6⟩, ⟨0, 7⟩] ∧
      ((handler 2).findNodesByType host nullList ⟨0, 1⟩ "null").1 = .ok [⟨0, 3⟩, ⟨0, 6⟩] ∧
      ∃ found, ((handler 0).findNodesByType host nullList ⟨0, 1⟩ "null").1 = .ok found ∧
        found.Sublist [⟨0, 3⟩, ⟨0, 6⟩] ∧ found.length = 1 := by
  intro engine host handler
  have hroot : nullList.Owns ⟨0, 1⟩ := by decide
  have hwalk : nullList.findNodesByType ⟨0, 1⟩ "null" =
      .ok [⟨0, 3⟩, ⟨0, 4⟩, ⟨0, 6⟩, ⟨0, 7⟩] := by decide
  have hids : (nullList.root.preorder.map fun node => node.record.id).Nodup := by decide
  have hquery (limit : Nat) : ((handler limit).build host .json target (kindQuery "null")).1 =
      .ok (Query.nodeQuery (.kind "null") "target") := by
    -- the grammar is one of those that are bundled
    have hbound :
        ((Analyzer.default (Q := Query) { home := some "/home" }).handler.service.bind
        .empty .json).1.toOption.any (·.grammar.isCompatible) = true := by decide +kernel
    cases hbinding :
      ((Analyzer.default (Q := Query) { home := some "/home" }).handler.service.bind
        .empty .json).1 with
    | error e =>
      rw [hbinding] at hbound
      cases hbound
    | ok binding =>
      rw [hbinding] at hbound
      exact build_kindQuery rfl hbinding hbound ⟨rfl, rfl⟩ (by decide)
        (List.mem_singleton_self _)
  have hagree (limit : Nat) :=
    have hcapacity : 0 < max limit 1 :=
      Nat.lt_of_lt_of_le Nat.zero_lt_one (Nat.le_max_right ..)
    kind_lookups_agree (handler limit) host nullList hroot "null" rfl rfl (hquery limit)
      (Query.run_nodeQuery hcapacity 1).1 (oneMatchEach_passing hids hroot "null")
  refine ⟨hroot, hwalk, ?_, ?_⟩
  · obtain ⟨found, all, hfound, hall, -, -, hfits, -⟩ := hagree 2
    obtain rfl := Except.ok.inj (hall.symm.trans hwalk)
    rw [hfits (by decide)] at hfound
    exact hfound
  · obtain ⟨found, all, hfound, hall, -, -, -, hmore⟩ := hagree 0
    obtain rfl := Except.ok.inj (hall.symm.trans hwalk)
    exact ⟨found, hfound, hmore (by decide)⟩

end QueryHandler

end SourceOutline
