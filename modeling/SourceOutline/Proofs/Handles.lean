import SourceOutline.Proofs.Captures
import SourceOutline.Proofs.Reading
import SourceOutline.Query.Handler
import SourceOutline.Tree.Summary

/-!
# Handles and What They Are Good For

A handle is good for the tree that it was taken from and for no other. This module says so
of all operations on nodes at once: `SyntaxTree.Operation` lists them with their
arguments, `Operation.run` carries one out, and `Operation.checked` is the same with every
read of the arena guarded. Guarded operations have no result if they read out of range or
are cut off, so that they always have one is what safety means here.

An operation checks its handles first, in order; a handle that fails the check decides the
answer. With good handles every operation rests on one of three things of
`Proofs/Reading`: it reads one entry, it climbs to the root, or it walks through a
subtree.

## Main results

* `Operation.refused_of_find?`: the first handle that is not good is what an operation
  fails on.
* `Operation.exists_answers`: with good handles, there is an answer, and all handles in it
  are good.
* `Operation.handles_safe`: both, that no read is out of range, and that no query runs at
  a foreign node.
-/

namespace SourceOutline

namespace SyntaxTree

instance (t : SyntaxTree) (handle : Handle) : Decidable (t.Owns handle) :=
  inferInstanceAs (Decidable (_ ∧ _))

/-- An operation on nodes that are given by handles. -/
inductive Operation where
  | node (handle : Handle)
  | engineNode (handle : Handle)
  | traverse (node : Handle) (once : Bool)
  | findNodes (root : Handle) (accept : Entry → Bool) (limits : SearchLimits)
  | findNodesByType (root : Handle) (kind : String)
  | ancestorChain (node : Handle)
  | parentOfType (node : Handle) (kind : String)
  | nodeDepth (node : Handle)
  | nodePath (node : Handle)
  | previousSibling (node : Handle)
  | nextSibling (node : Handle)
  | commonAncestor (a b : Handle)
  | nodesInRange (root : Handle) (startLine endLine : Nat)
  | verifyNode (node : Handle)
  /-- The summary of a node, with what is remembered already. -/
  | summarize (cache : SummaryCache) (node : Handle)
  | missingNodes (root : Handle)

/-- What an operation answers. -/
inductive Answer where
  | entry (entry : Entry)
  | engineNode (tree : Tree)
  | nodes (handles : List Handle)
  | relative (handle : Option Handle)
  | node (handle : Handle)
  | depth (depth : Nat)
  | kinds (kinds : List String)
  | verdict (sound : Bool)
  | summary (summary : Summary)

/-- The handles in an answer. Those in an entry are the relatives that it links to. -/
def Answer.handles (t : SyntaxTree) : Answer → List Handle
  | .entry found => found.links.map t.handle
  | .nodes handles => handles
  | .relative handle => handle.toList
  | .node handle => [handle]
  | .engineNode _ | .depth _ | .kinds _ | .verdict _ | .summary _ => []

variable (t : SyntaxTree)

/-- Why a handle that is not good is refused. -/
def refusal (handle : Handle) : TraversalError :=
  if handle.tree ≠ t.id then .foreignNode t.id handle.tree
  else .invalidNode handle.index t.nodeCount

/-! ### Guarded operations -/

/-- Goes on if a handle passes the check. -/
def admitting {α : Type} (handle : Handle) (body : Option (Except TraversalError α)) :
    Option (Except TraversalError α) :=
  match t.check handle with
  | .ok _ => body
  | .error e => some (.error e)

/-- Answers by the entry of a node. -/
def reading (handle : Handle) (answer : Entry → Answer) :
    Option (Except TraversalError Answer) :=
  t.admitting handle do
    let entry ← t.nodes[handle.index]?
    some (.ok (answer entry))

/-- Goes on with the way from a node up to the root. -/
def climbing (handle : Handle)
    (body : List (Nat × Entry) → Option (Except TraversalError Answer)) :
    Option (Except TraversalError Answer) :=
  t.admitting handle do
    let steps ← t.climb? t.nodeCount handle.index
    body steps

/-- The handles on a way up, from the root down. -/
def chainOf (steps : List (Nat × Entry)) : List Handle :=
  (steps.map (·.1)).reverse.map t.handle

/-- Answers by a search of a subtree. -/
def searching (root : Handle) (accept : Entry → Bool) (limits : SearchLimits) :
    Option (Except TraversalError Answer) :=
  t.admitting root <|
    if limits.maxNodes = some 0 then some (.ok (.nodes []))
    else do
      let indices ← t.search? accept limits.maxDepth t.nodeCount limits.maxNodes
          [(root.index, 0)]
      some (.ok (.nodes (indices.map t.handle)))

namespace Operation

/-- The handles given to an operation, in the order in which they are checked. -/
def handles : Operation → List Handle
  | .node handle | .engineNode handle => [handle]
  | .traverse handle _ | .ancestorChain handle | .parentOfType handle _ | .nodeDepth
    handle | .nodePath handle
  | .previousSibling handle | .nextSibling handle | .verifyNode handle | .summarize _ handle =>
    [handle]
  | .findNodes root _ _ | .findNodesByType root _ | .nodesInRange root _ _ | .missingNodes
    root => [root]
  | .commonAncestor a b => [a, b]

/-- Carries out an operation. -/
def run : Operation → Except TraversalError Answer
  | .node handle => (t.node handle).map .entry
  | .engineNode handle => (t.engineNode handle).map .engineNode
  | .traverse handle once => (t.traverse handle once).map .nodes
  | .findNodes root accept limits => (t.findNodes root accept limits).map .nodes
  | .findNodesByType root kind => (t.findNodesByType root kind).map .nodes
  | .ancestorChain handle => (t.ancestorChain handle).map .nodes
  | .parentOfType handle kind => (t.parentOfType handle kind).map .relative
  | .nodeDepth handle => (t.nodeDepth handle).map .depth
  | .nodePath handle => (t.nodePath handle).map .kinds
  | .previousSibling handle => (t.previousSibling handle).map .relative
  | .nextSibling handle => (t.nextSibling handle).map .relative
  | .commonAncestor a b => (t.commonAncestor a b).map .node
  | .nodesInRange root startLine endLine => (t.nodesInRange root startLine endLine).map .nodes
  | .verifyNode handle => (t.verifyNode handle).map .verdict
  | .summarize cache handle => (cache.summarize t handle).1.map .summary
  | .missingNodes root => (t.missingNodes root).map .nodes

/-- Carries out an operation with every read guarded: without a result if a position is
read that the arena does not have, if a list is read beyond its end, or if a loop is cut
off. -/
def checked : Operation → Option (Except TraversalError Answer)
  | .node handle => t.reading handle .entry
  | .engineNode handle => t.climbing handle fun steps => do
    let tree ← t.root.descend? (Arena.wayBack steps)
    some (.ok (.engineNode tree))
  | .traverse handle once => t.admitting handle do
    let indices ←
      if once then t.walkOnce? handle.index t.nodeCount [] [handle.index]
      else t.walk? handle.index t.nodeCount [handle.index]
    some (.ok (.nodes (indices.map t.handle)))
  | .findNodes root accept limits => t.searching root accept limits
  | .findNodesByType root kind =>
    t.searching root (fun entry => entry.record.kind = kind) .unbounded
  | .ancestorChain handle => t.climbing handle fun steps =>
    some (.ok (.nodes (t.chainOf steps)))
  | .parentOfType handle kind => t.climbing handle fun steps =>
    let ancestor := (steps.tail.find? fun step => step.2.record.kind = kind).map (·.1)
    some (.ok (.relative (ancestor.map t.handle)))
  | .nodeDepth handle => t.reading handle fun entry => .depth entry.depth
  | .nodePath handle => t.climbing handle fun steps =>
    some (.ok (.kinds (steps.reverse.map (·.2.record.kind))))
  | .previousSibling handle => t.reading handle fun entry =>
    .relative (entry.prevSibling.map t.handle)
  | .nextSibling handle => t.reading handle fun entry =>
    .relative (entry.nextSibling.map t.handle)
  | .commonAncestor a b =>
    t.climbing a fun stepsA => t.climbing b fun stepsB => do
      let shared := sharedLength (t.chainOf stepsA) (t.chainOf stepsB)
      let common ← (t.chainOf stepsA)[max shared 1 - 1]?
      some (.ok (.node common))
  | .nodesInRange root startLine endLine =>
    t.searching root
      (fun entry =>
        entry.record.isNamed && startLine ≤ (t.startPosition entry.record).line
          && (t.endPosition entry.record).line ≤ endLine)
      .unbounded
  | .verifyNode handle => t.reading handle fun entry =>
    .verdict (!entry.record.hasError && !entry.record.isError && !entry.record.isMissing)
  | .summarize cache handle => t.reading handle fun entry =>
    .summary (((cache.focus t.id).entries.lookup handle).getD (t.summary entry))
  | .missingNodes root => t.climbing root fun steps => do
    let stop := (steps.findSome? (·.2.nextSibling)).getD t.nodeCount
    let scanned ← t.scan? (List.range' root.index (stop - root.index))
    let indices := (scanned.filter (·.2.record.isMissing)).map (·.1)
    some (.ok (.nodes (indices.map t.handle)))

end Operation

variable {t}

/-! ### Handles that are refused -/

/-- Good handles pass the check. -/
theorem check_of_owns {handle : Handle} (h : t.Owns handle) : t.check handle = .ok () :=
  (t.check_eq_ok_iff handle).2 h

/-- Other handles do not pass the check, and `refusal` says why. -/
theorem check_of_not_owns {handle : Handle} (h : ¬t.Owns handle) :
    t.check handle = .error (t.refusal handle) := by
  rw [check, refusal]
  split
  · rfl
  next htree =>
    rw [if_pos (Nat.le_of_not_lt fun hlt => h ⟨not_not.1 htree, hlt⟩)]

/-- No entry is read with a handle that is not good. -/
theorem node_of_not_owns {handle : Handle} (h : ¬t.Owns handle) :
    t.node handle = .error (t.refusal handle) := by
  rw [node, refusal]
  split
  · rfl
  next htree =>
    have hnone : t.nodes[handle.index]? = none :=
      Array.getElem?_eq_none (Nat.le_of_not_lt fun hlt => h ⟨not_not.1 htree, hlt⟩)
    rw [hnone]

section Admitting

variable {α : Type} {handle : Handle} {body : Option (Except TraversalError α)}

/-- With a good handle, `admitting` goes on. -/
theorem admitting_of_owns (h : t.Owns handle) : t.admitting handle body = body := by
  rw [admitting, check_of_owns h]

/-- With any other handle, `admitting` fails. -/
theorem admitting_of_not_owns (h : ¬t.Owns handle) :
    t.admitting handle body = some (.error (t.refusal handle)) := by
  rw [admitting, check_of_not_owns h]

end Admitting

namespace Operation

variable {op : Operation} {handle : Handle} {rest : List Handle}

/-- `checked` fails on the first handle given if it is not good. -/
theorem checked_of_head (hop : op.handles = handle :: rest) (h : ¬t.Owns handle) :
    op.checked t = some (.error (t.refusal handle)) := by
  cases op <;> cases hop <;> exact admitting_of_not_owns h

/-- `run` fails on the first handle given if it is not good. -/
theorem run_of_head (hop : op.handles = handle :: rest) (h : ¬t.Owns handle) :
    op.run t = .error (t.refusal handle) := by
  have hcheck := check_of_not_owns h
  have hnode := node_of_not_owns h
  cases op with
  | node given =>
    cases hop
    rw [run, hnode]
    rfl
  | engineNode given =>
    cases hop
    rw [run, SyntaxTree.engineNode, hcheck]
    rfl
  | traverse given once =>
    cases hop
    rw [run, SyntaxTree.traverse, hcheck]
    rfl
  | findNodes root accept limits =>
    cases hop
    rw [run, SyntaxTree.findNodes, hcheck]
    rfl
  | findNodesByType root kind =>
    cases hop
    rw [run, SyntaxTree.findNodesByType, SyntaxTree.findNodes, hcheck]
    rfl
  | ancestorChain given =>
    cases hop
    rw [run, SyntaxTree.ancestorChain, hcheck]
    rfl
  | parentOfType given kind =>
    cases hop
    rw [run, SyntaxTree.parentOfType, hcheck]
    rfl
  | nodeDepth given =>
    cases hop
    rw [run, SyntaxTree.nodeDepth, hnode]
    rfl
  | nodePath given =>
    cases hop
    rw [run, SyntaxTree.nodePath, SyntaxTree.ancestorChain, hcheck]
    rfl
  | previousSibling given =>
    cases hop
    rw [run, SyntaxTree.previousSibling, hnode]
    rfl
  | nextSibling given =>
    cases hop
    rw [run, SyntaxTree.nextSibling, hnode]
    rfl
  | commonAncestor a b =>
    cases hop
    rw [run, SyntaxTree.commonAncestor, SyntaxTree.ancestorChain, hcheck]
    rfl
  | nodesInRange root startLine endLine =>
    cases hop
    rw [run, SyntaxTree.nodesInRange, SyntaxTree.findNodes, hcheck]
    rfl
  | verifyNode given =>
    cases hop
    rw [run, SyntaxTree.verifyNode, hnode]
    rfl
  | summarize cache given =>
    cases hop
    rw [run, SummaryCache.summarize, hnode]
    rfl
  | missingNodes root =>
    cases hop
    rw [run, SyntaxTree.missingNodes, hcheck]
    rfl

end Operation

/-! ### Good handles -/

/-- The handle of a position in range is good: the tree `Owns` it. -/
theorem owns_handle {index : Nat} (h : index < t.nodeCount) : t.Owns (t.handle index) :=
  ⟨rfl, h⟩

/-- The handles of positions in range are good. -/
theorem owns_of_mem_map {indices : List Nat} (h : ∀ index ∈ indices, index < t.nodeCount) :
    ∀ handle ∈ indices.map t.handle, t.Owns handle := by
  intro handle hmem
  obtain ⟨index, hindex, rfl⟩ := List.mem_map.1 hmem
  exact owns_handle (h index hindex)

/-- The handles of `chainOf` are good, for a way up that was read. -/
theorem owns_chainOf {steps : List (Nat × Entry)} (h : t.Located steps) :
    ∀ handle ∈ t.chainOf steps, t.Owns handle :=
  owns_of_mem_map fun _ hindex => h.lt_nodeCount (List.mem_reverse.1 hindex)

/-- The handle of a linked position is good. -/
theorem owns_of_link {index : Nat} {entry : Entry} (h : t.nodes[index]? = some entry)
    {link : Option Nat} (hlink : ∀ position, link = some position → position ∈ entry.links) :
    ∀ handle ∈ (link.map t.handle).toList, t.Owns handle := by
  intro handle hmem
  obtain ⟨position, hposition, rfl⟩ := Option.map_eq_some_iff.1 (Option.mem_toList.1 hmem)
  exact owns_handle (Arena.lt_nodeCount_of_mem_links h (hlink position hposition))

/-- The entry behind a handle of the tree. -/
theorem node_of_read {handle : Handle} {entry : Entry} (htree : handle.tree = t.id)
    (h : t.nodes[handle.index]? = some entry) : t.node handle = .ok entry := by
  rw [node, if_neg (not_not_intro htree), h]

namespace Owns

variable {handle : Handle}

/-- A good handle has an entry, by which `reading` answers. -/
theorem exists_entry (h : t.Owns handle) :
    ∃ entry, t.nodes[handle.index]? = some entry ∧ t.node handle = .ok entry ∧
      ∀ answer, t.reading handle answer = some (.ok (answer entry)) := by
  obtain ⟨entry, hentry⟩ := Arena.exists_read h.2
  refine ⟨entry, hentry, ?_, fun answer => ?_⟩
  · exact node_of_read h.1 hentry
  · rw [reading, admitting_of_owns h, hentry]
    rfl

/-- From a good handle there is a way up, with which `climbing` goes on. -/
theorem exists_climb (h : t.Owns handle) :
    ∃ steps, t.upwards handle.index = steps.map (·.1) ∧ t.Located steps ∧ steps ≠ [] ∧
      (t.root.descend? (Arena.wayBack steps)).isSome = true ∧
      ∀ body, t.climbing handle body = body steps := by
  obtain ⟨place, tree, hold, hindex⟩ := Arena.exists_holds h.2
  obtain ⟨steps, hsteps, hdescend⟩ := hold.exists_climb? (hindex ▸ h.2)
  rw [hindex] at hsteps
  obtain ⟨hclimb, hlocated⟩ := Arena.climb_of_climb? hsteps
  refine ⟨steps, hclimb, hlocated, Arena.ne_nil_of_climb? hsteps,
    Option.isSome_of_eq_some hdescend, fun body => ?_⟩
  rw [climbing, admitting_of_owns h, hsteps]
  rfl

end Owns

/-- `ancestorChain`, by what was read on the way up from a node. -/
theorem Owns.ancestorChain_eq {handle : Handle} (h : t.Owns handle)
    {steps : List (Nat × Entry)} (hup : t.upwards handle.index = steps.map (·.1)) :
    t.ancestorChain handle = .ok (t.chainOf steps) := by
  rw [ancestorChain, check_of_owns h, hup]
  rfl

/-- `pathTo`, by what was read on the way up from a node. -/
theorem pathTo_eq {index : Nat} {steps : List (Nat × Entry)}
    (hup : t.upwards index = steps.map (·.1)) (h : t.Located steps) :
    t.pathTo index = Arena.wayBack steps := by
  rw [Arena.pathTo, Arena.wayBack, hup, ← List.map_dropLast, List.map_map]
  refine congrArg List.reverse (List.map_congr_left fun step hstep => ?_)
  rw [Function.comp_apply, h step ((List.dropLast_sublist steps).subset hstep)]
  rfl

/-- The kinds of some nodes, by what was read of them. -/
theorem mapM_kind_eq {steps : List (Nat × Entry)} (h : t.Located steps) :
    ((steps.map (·.1)).map t.handle).mapM (fun handle => do
        let entry ← t.node handle
        .ok entry.record.kind) =
      .ok (steps.map (·.2.record.kind)) := by
  induction steps with
  | nil => rfl
  | cons step steps ih =>
    have hnode : t.node (t.handle step.1) = .ok step.2 :=
      node_of_read rfl (h step List.mem_cons_self)
    have hrest := ih fun other hother => h other (List.mem_cons_of_mem _ hother)
    rw [List.map_cons, List.map_cons, List.mapM_cons, hnode, hrest]
    rfl

/-- `findNodes` from a good handle ends and finds nodes of the tree. -/
theorem Owns.exists_search {root : Handle} (h : t.Owns root) (accept : Entry → Bool)
    (limits : SearchLimits) :
    ∃ handles, t.findNodes root accept limits = .ok handles ∧
      t.searching root accept limits = some (.ok (.nodes handles)) ∧
      ∀ handle ∈ handles, t.Owns handle := by
  rw [findNodes, searching, check_of_owns h, admitting_of_owns h]
  by_cases hnone : limits.maxNodes = some 0
  · rw [if_pos hnone, if_pos hnone]
    exact ⟨[], rfl, rfl, fun _ hmem => absurd hmem List.not_mem_nil⟩
  · rw [if_neg hnone, if_neg hnone]
    obtain ⟨place, tree, hold, hindex⟩ := Arena.exists_holds h.2
    have hstacked : t.Stacked [(root.index, 0)] [tree] := .cons ⟨place, hold, hindex⟩ .nil
    have hfuel : Tree.forestSize [tree] ≤ t.nodeCount := by
      have := hold.index_add_size_le
      rw [Tree.forestSize, Tree.forestSize]
      omega
    obtain ⟨out, hout⟩ :=
      Arena.exists_search? accept limits.maxDepth hstacked hfuel limits.maxNodes
    obtain ⟨hsearch, hrange⟩ := Arena.search_of_search? hout
    refine ⟨out.map t.handle, ?_, ?_, owns_of_mem_map hrange⟩
    · rw [hsearch]
      rfl
    · rw [hout]
      rfl

/-- `traverse` from a good handle, whether it passes over visited nodes or not, ends and
passes nodes of the tree. -/
theorem Owns.exists_walk {node : Handle} (h : t.Owns node) :
    ∃ indices, t.walk? node.index t.nodeCount [node.index] = some indices ∧
      t.walkOnce? node.index t.nodeCount [] [node.index] = some indices ∧
      (∀ once, t.traverse node once = .ok (indices.map t.handle)) ∧
      ∀ index ∈ indices, index < t.nodeCount := by
  obtain ⟨place, tree, hold, hindex⟩ := Arena.exists_holds h.2
  have hwalk := hold.walk?_eq
  have hle := hold.index_add_size_le
  rw [hindex] at hwalk hle
  have honce := Arena.walkOnce?_of_walk? hwalk List.nodup_range' fun _ _ => List.not_mem_nil
  refine ⟨List.range' node.index tree.size, hwalk, honce, fun once => ?_, fun index hmem => ?_⟩
  · rw [traverse, check_of_owns h]
    dsimp only [bind, Except.bind]
    rw [Arena.walk_of_walk? hwalk, Arena.walkOnce_of_walkOnce? honce, ite_self]
  · rw [List.mem_range'_1] at hmem
    omega

/-- `subtreeEnd`, by what was read on the way up from a node, is no further than the
end. -/
theorem subtreeEnd_eq {index : Nat} {steps : List (Nat × Entry)}
    (hup : t.upwards index = steps.map (·.1)) (h : t.Located steps) :
    t.subtreeEnd index = (steps.findSome? (·.2.nextSibling)).getD t.nodeCount ∧
      t.subtreeEnd index ≤ t.nodeCount := by
  have heq : t.subtreeEnd index = (steps.findSome? (·.2.nextSibling)).getD t.nodeCount := by
    rw [Arena.subtreeEnd, hup]
    exact congrArg (·.getD t.nodeCount) (h.findSome? (·.nextSibling))
  refine ⟨heq, ?_⟩
  rw [heq]
  cases hnext : steps.findSome? (·.2.nextSibling) with
  | none => exact Nat.le_refl _
  | some next =>
    obtain ⟨step, hstep, hlink⟩ := List.exists_of_findSome?_eq_some hnext
    have hmem : next ∈ step.2.links := by simp [Entry.links, hlink]
    exact Nat.le_of_lt (Arena.lt_nodeCount_of_mem_links (h step hstep) hmem)

/-- `sharedLength` is no more than the first chain has. -/
theorem sharedLength_le (as bs : List Handle) : sharedLength as bs ≤ as.length := by
  refine Nat.le_trans (List.takeWhile_sublist _).length_le ?_
  rw [List.length_zip]
  exact Nat.min_le_left ..

namespace Operation

/-- What a safe operation is: there is an answer, it is found with every read guarded, and
all handles in it are good. -/
def Answers (t : SyntaxTree) (op : Operation) (answer : Answer) : Prop :=
  op.run t = .ok answer ∧ op.checked t = some (.ok answer) ∧
    ∀ handle ∈ answer.handles t, t.Owns handle

/-- Good handles have a common ancestor. -/
theorem exists_answers_commonAncestor {a b : Handle} (ha : t.Owns a) (hb : t.Owns b) :
    ∃ answer, Answers t (.commonAncestor a b) answer := by
  obtain ⟨stepsA, hupA, hlocatedA, hneA, -, hclimbA⟩ := ha.exists_climb
  obtain ⟨stepsB, hupB, -, -, -, hclimbB⟩ := hb.exists_climb
  have hlength : (t.chainOf stepsA).length = stepsA.length := by simp [chainOf]
  have hpos := List.length_pos_of_ne_nil hneA
  have hshared := sharedLength_le (t.chainOf stepsA) (t.chainOf stepsB)
  obtain ⟨common, hcommon⟩ : ∃ common,
      (t.chainOf stepsA)[max (sharedLength (t.chainOf stepsA) (t.chainOf stepsB)) 1 - 1]? =
        some common :=
    ⟨_, List.getElem?_eq_getElem (by omega)⟩
  refine ⟨.node common, ?_, ?_, ?_⟩
  · rw [run, SyntaxTree.commonAncestor, ha.ancestorChain_eq hupA, hb.ancestorChain_eq hupB]
    dsimp only [bind, Except.bind]
    rw [hcommon]
    rfl
  · rw [checked, hclimbA, hclimbB]
    dsimp only
    rw [hcommon]
    rfl
  · intro handle hmem
    rw [List.mem_singleton.1 hmem]
    exact owns_chainOf hlocatedA common (List.mem_of_getElem? hcommon)

/-- A good handle has a node of the engine. -/
theorem exists_answers_engineNode {handle : Handle} (howns : t.Owns handle) :
    ∃ answer, Answers t (.engineNode handle) answer := by
  obtain ⟨steps, hup, hlocated, -, hsome, hclimb⟩ := howns.exists_climb
  obtain ⟨tree, hdescend⟩ := Option.isSome_iff_exists.1 hsome
  refine ⟨.engineNode tree, ?_, ?_, fun _ hmem => absurd hmem List.not_mem_nil⟩
  · rw [run, SyntaxTree.engineNode, check_of_owns howns, pathTo_eq hup hlocated]
    dsimp only [bind, Except.bind]
    rw [hdescend]
    rfl
  · rw [checked, hclimb, hdescend]
    rfl

/-- A good handle has a nearest ancestor of a kind or none. -/
theorem exists_answers_parentOfType {handle : Handle} (howns : t.Owns handle) (kind : String) :
    ∃ answer, Answers t (.parentOfType handle kind) answer := by
  obtain ⟨steps, hup, hlocated, -, -, hclimb⟩ := howns.exists_climb
  have htail : t.Located steps.tail :=
    fun step hstep => hlocated step (List.mem_of_mem_tail hstep)
  have hfind := htail.find? fun entry => entry.record.kind = kind
  refine ⟨.relative _, ?_, hclimb _, ?_⟩
  · rw [run, SyntaxTree.parentOfType, check_of_owns howns, hup, ← List.map_tail]
    dsimp only [bind, Except.bind, Except.map]
    exact congrArg (fun found => Except.ok (Answer.relative (Option.map t.handle found))) hfind
  · intro ancestor hmem
    obtain ⟨index, hindex, rfl⟩ := Option.map_eq_some_iff.1 (Option.mem_toList.1 hmem)
    obtain ⟨step, hstep, rfl⟩ := Option.map_eq_some_iff.1 hindex
    exact owns_handle (Arena.lt_nodeCount_of_read
      (htail step (List.mem_of_find?_eq_some hstep)))

/-- A good handle has a path of kinds. -/
theorem exists_answers_nodePath {handle : Handle} (howns : t.Owns handle) :
    ∃ answer, Answers t (.nodePath handle) answer := by
  obtain ⟨steps, hup, hlocated, -, -, hclimb⟩ := howns.exists_climb
  have hkinds := mapM_kind_eq (fun step hstep => hlocated step (List.mem_reverse.1 hstep))
  refine ⟨.kinds _, ?_, hclimb _, fun _ hmem => absurd hmem List.not_mem_nil⟩
  rw [run, SyntaxTree.nodePath, howns.ancestorChain_eq hup, chainOf, ← List.map_reverse]
  dsimp only [bind, Except.bind] at hkinds ⊢
  rw [hkinds]
  rfl

/-- A good handle has missing nodes below it or none. -/
theorem exists_answers_missingNodes {root : Handle} (howns : t.Owns root) :
    ∃ answer, Answers t (.missingNodes root) answer := by
  obtain ⟨steps, hup, hlocated, -, -, hclimb⟩ := howns.exists_climb
  obtain ⟨hstop, hle⟩ := subtreeEnd_eq hup hlocated
  have hrange : ∀ index ∈ List.range' root.index (t.subtreeEnd root.index - root.index),
      index < t.nodeCount := by
    intro index hindex
    rw [List.mem_range'_1] at hindex
    omega
  obtain ⟨scanned, hscan, hindices, hscanned⟩ := Arena.exists_scan? hrange
  have hfilter := hscanned.filter (·.record.isMissing)
  rw [hindices] at hfilter
  refine ⟨.nodes (((scanned.filter (·.2.record.isMissing)).map (·.1)).map t.handle),
    ?_, ?_, ?_⟩
  · rw [run, SyntaxTree.missingNodes, check_of_owns howns]
    dsimp only [bind, Except.bind]
    rw [hfilter]
    rfl
  · rw [hstop] at hscan
    rw [checked, hclimb]
    dsimp only
    rw [hscan]
    rfl
  · refine owns_of_mem_map fun index hmem => hscanned.lt_nodeCount ?_
    obtain ⟨step, hstep, rfl⟩ := List.mem_map.1 hmem
    exact List.mem_map_of_mem (List.mem_filter.1 hstep).1

/-- **With good handles**, every operation has an answer (`Answers`). -/
theorem exists_answers {op : Operation} (h : ∀ handle ∈ op.handles, t.Owns handle) :
    ∃ answer, Answers t op answer := by
  cases op with
  | node handle =>
    obtain ⟨entry, hentry, hnode, hreading⟩ := (h handle List.mem_cons_self).exists_entry
    refine ⟨.entry entry, by rw [run, hnode]; rfl, hreading .entry, ?_⟩
    exact owns_of_mem_map fun index hindex => Arena.lt_nodeCount_of_mem_links hentry hindex
  | engineNode handle =>
    exact exists_answers_engineNode (h handle List.mem_cons_self)
  | traverse handle once =>
    have howns := h handle List.mem_cons_self
    obtain ⟨indices, hwalk, honce, htraverse, hrange⟩ := howns.exists_walk
    refine ⟨.nodes (indices.map t.handle), by rw [run, htraverse]; rfl, ?_,
      owns_of_mem_map hrange⟩
    rw [checked, admitting_of_owns howns, hwalk, honce, ite_self]
    rfl
  | findNodes root accept limits =>
    obtain ⟨handles, hfound, hchecked, howned⟩ :=
      (h root List.mem_cons_self).exists_search accept limits
    exact ⟨.nodes handles, by rw [run, hfound]; rfl, hchecked, howned⟩
  | findNodesByType root kind =>
    obtain ⟨handles, hfound, hchecked, howned⟩ :=
      (h root List.mem_cons_self).exists_search _ .unbounded
    exact ⟨.nodes handles, by rw [run, SyntaxTree.findNodesByType, hfound]; rfl,
      hchecked, howned⟩
  | ancestorChain handle =>
    have howns := h handle List.mem_cons_self
    obtain ⟨steps, hup, hlocated, -, -, hclimb⟩ := howns.exists_climb
    refine ⟨.nodes (t.chainOf steps), ?_, hclimb _, owns_chainOf hlocated⟩
    rw [run, howns.ancestorChain_eq hup]
    rfl
  | parentOfType handle kind =>
    exact exists_answers_parentOfType (h handle List.mem_cons_self) kind
  | nodeDepth handle =>
    obtain ⟨entry, -, hnode, hreading⟩ := (h handle List.mem_cons_self).exists_entry
    refine ⟨.depth entry.depth, ?_, hreading _, fun _ hmem => absurd hmem List.not_mem_nil⟩
    rw [run, SyntaxTree.nodeDepth, hnode]
    rfl
  | nodePath handle =>
    exact exists_answers_nodePath (h handle List.mem_cons_self)
  | previousSibling handle =>
    obtain ⟨entry, hentry, hnode, hreading⟩ := (h handle List.mem_cons_self).exists_entry
    refine ⟨.relative (entry.prevSibling.map t.handle), ?_, hreading _, ?_⟩
    · rw [run, SyntaxTree.previousSibling, hnode]
      rfl
    · exact owns_of_link hentry fun position hposition => by simp [Entry.links, hposition]
  | nextSibling handle =>
    obtain ⟨entry, hentry, hnode, hreading⟩ := (h handle List.mem_cons_self).exists_entry
    refine ⟨.relative (entry.nextSibling.map t.handle), ?_, hreading _, ?_⟩
    · rw [run, SyntaxTree.nextSibling, hnode]
      rfl
    · exact owns_of_link hentry fun position hposition => by simp [Entry.links, hposition]
  | commonAncestor a b =>
    exact exists_answers_commonAncestor (h a List.mem_cons_self)
      (h b (List.mem_cons_of_mem _ List.mem_cons_self))
  | nodesInRange root startLine endLine =>
    obtain ⟨handles, hfound, hchecked, howned⟩ :=
      (h root List.mem_cons_self).exists_search _ .unbounded
    exact ⟨.nodes handles, by rw [run, SyntaxTree.nodesInRange, hfound]; rfl, hchecked, howned⟩
  | verifyNode handle =>
    obtain ⟨entry, -, hnode, hreading⟩ := (h handle List.mem_cons_self).exists_entry
    refine ⟨.verdict _, ?_, hreading _, fun _ hmem => absurd hmem List.not_mem_nil⟩
    rw [run, SyntaxTree.verifyNode, hnode]
    rfl
  | summarize cache handle =>
    obtain ⟨entry, -, hnode, hreading⟩ := (h handle List.mem_cons_self).exists_entry
    refine ⟨.summary _, ?_, hreading _, fun _ hmem => absurd hmem List.not_mem_nil⟩
    rw [run, SummaryCache.summarize, hnode]
    dsimp only
    cases (cache.focus t.id).entries.lookup handle with
    | none => rfl
    | some summary => rfl
  | missingNodes root =>
    exact exists_answers_missingNodes (h root List.mem_cons_self)

/-- Of two handles, the second decides if the first is good. -/
theorem refused_of_second {a b : Handle} (ha : t.Owns a) (hb : ¬t.Owns b) :
    (commonAncestor a b).run t = .error (t.refusal b) ∧
      (commonAncestor a b).checked t = some (.error (t.refusal b)) := by
  obtain ⟨steps, hup, -, -, -, hclimb⟩ := ha.exists_climb
  constructor
  · rw [run, SyntaxTree.commonAncestor, ha.ancestorChain_eq hup, SyntaxTree.ancestorChain,
      check_of_not_owns hb]
    rfl
  · rw [checked, hclimb]
    exact admitting_of_not_owns hb

/-- **The first handle that is not good** is what an operation fails on, both by `run` and
by `checked`. -/
theorem refused_of_find? {op : Operation} {handle : Handle}
    (h : op.handles.find? (fun given => ¬t.Owns given) = some handle) :
    op.run t = .error (t.refusal handle) ∧
    op.checked t = some (.error (t.refusal handle)) := by
  obtain ⟨first, rest, hop⟩ : ∃ first rest, op.handles = first :: rest := by
    cases op <;> exact ⟨_, _, rfl⟩
  rw [hop, List.find?_cons] at h
  by_cases hfirst : t.Owns first
  · rw [decide_eq_false (not_not_intro hfirst)] at h
    cases op with
    | commonAncestor a b =>
      cases hop
      dsimp only at h
      have hbad := List.find?_some h
      obtain rfl := List.mem_singleton.1 (List.mem_of_find?_eq_some h)
      exact refused_of_second hfirst (of_decide_eq_true hbad)
    | _ =>
      cases hop
      cases h
  · rw [decide_eq_true hfirst] at h
    obtain rfl := Option.some.inj h
    exact ⟨run_of_head hop hfirst, checked_of_head hop hfirst⟩

end Operation

end SyntaxTree

/-! ### Queries -/

/-- `Query.execute` does not run at a handle that is not good. -/
theorem Query.execute_of_not_owns {Q : Type} {t : SyntaxTree} {root : Handle}
    (h : ¬t.Owns root) (engine : Engine Q) (clock : Clock) (query : Q)
    (settings : QuerySettings) :
    Query.execute engine clock t query root settings = .error (t.refusal root) := by
  rw [execute, SyntaxTree.engineNode, SyntaxTree.check_of_not_owns h]
  rfl

namespace QueryHandler

variable {Q : Type} {t : SyntaxTree} {root : Handle}

/-- Nor does a run in a handler, for any category. -/
theorem execute_of_not_owns (h : ¬t.Owns root) (host : Host Q) (category : Category)
    (query : Q) (settings : QuerySettings) :
    execute host category t query root settings = .error (.traversal (t.refusal root)) := by
  rw [execute, Query.execute_of_not_owns h]

/-- `findCategory` finds nothing at a handle that is not good. -/
theorem findCategory_ne_ok (h : ¬t.Owns root) (handler : QueryHandler Q) (host : Host Q)
    (category : Category) (found : CategoryMatches) :
    (handler.findCategory host t root category).1 ≠ .ok found := by
  rw [findCategory]
  cases handler.registry.patternFor category t.language with
  | none =>
    intro hok
    cases hok
  | some text =>
    dsimp only
    cases (handler.compile host t.language category text).1 with
    | error e =>
      intro hok
      cases hok
    | ok query =>
      dsimp only [bind, Except.bind]
      rw [execute_of_not_owns h]
      intro hok
      cases hok

/-- `findNodesByType` finds nothing at a handle that is not good. -/
theorem findNodesByType_ne_ok (h : ¬t.Owns root) (handler : QueryHandler Q) (host : Host Q)
    (kind : String) (found : List Handle) :
    (handler.findNodesByType host t root kind).1 ≠ .ok found := by
  rw [findNodesByType]
  dsimp only
  cases (handler.build host t.language target (kindQuery kind)).1 with
  | error e =>
    intro hok
    cases hok
  | ok query =>
    dsimp only [bind, Except.bind]
    rw [execute_of_not_owns h]
    intro hok
    cases hok

end QueryHandler

namespace SyntaxTree.Operation

/-- **Handles are safe.** For every tree and every operation on it:

* It succeeds exactly if all handles given to it are good: if they carry the number of the
  tree and a position that the tree has.
* If it fails, it does so because of the first handle that is not good. A handle of
  another tree is a foreign node, whatever its position; one of this tree is an invalid
  node.
* All handles in the answer are good.
* It never reads the arena out of range, and none of its loops is cut off.
* No query runs at a handle of another tree. -/
theorem handles_safe (t : SyntaxTree) (op : Operation) :
    ((∃ answer, op.run t = .ok answer) ↔ ∀ handle ∈ op.handles, t.Owns handle) ∧
    (∀ handle, op.handles.find? (fun given => ¬t.Owns given) = some handle →
      op.run t = .error
        (if handle.tree ≠ t.id then .foreignNode t.id handle.tree
          else .invalidNode handle.index t.nodeCount)) ∧
    (∀ answer, op.run t = .ok answer → ∀ handle ∈ answer.handles t, t.Owns handle) ∧
    op.checked t = some (op.run t) ∧
    (∀ {Q : Type} (handler : QueryHandler Q) (host : Host Q) (root : Handle),
      root.tree ≠ t.id →
      (∀ category found, (handler.findCategory host t root category).1 ≠ .ok found) ∧
      ∀ kind found, (handler.findNodesByType host t root kind).1 ≠ .ok found) := by
  have hqueries : ∀ {Q : Type} (handler : QueryHandler Q) (host : Host Q) (root : Handle),
      root.tree ≠ t.id →
      (∀ category found, (handler.findCategory host t root category).1 ≠ .ok found) ∧
      ∀ kind found, (handler.findNodesByType host t root kind).1 ≠ .ok found := by
    intro Q handler host root hforeign
    have hroot : ¬t.Owns root := fun howns => hforeign howns.1
    exact ⟨QueryHandler.findCategory_ne_ok hroot handler host,
      QueryHandler.findNodesByType_ne_ok hroot handler host⟩
  by_cases hall : ∀ handle ∈ op.handles, t.Owns handle
  · obtain ⟨answer, hrun, hchecked, howned⟩ := exists_answers hall
    refine ⟨⟨fun _ => hall, fun _ => ⟨answer, hrun⟩⟩, fun handle hfind => ?_,
      fun answer' hrun' => ?_, ?_, hqueries⟩
    · have hbad := List.find?_some hfind
      exact absurd (hall handle (List.mem_of_find?_eq_some hfind)) (of_decide_eq_true hbad)
    · obtain rfl := Except.ok.inj (hrun.symm.trans hrun')
      exact howned
    · rw [hchecked, hrun]
  · -- some handle is not good, so there is a first one, and it alone decides what the
    -- operation does
    obtain ⟨handle, hfind⟩ : ∃ handle, op.handles.find? (fun given => ¬t.Owns given) =
        some handle := by
      rw [← Option.isSome_iff_exists, List.find?_isSome]
      simpa using hall
    obtain ⟨hrun, hchecked⟩ := refused_of_find? hfind
    refine ⟨⟨fun ⟨answer, hok⟩ => ?_, fun h => absurd h hall⟩, fun other hother => ?_,
      fun answer hok => ?_, ?_, hqueries⟩
    · cases hrun.symm.trans hok
    · obtain rfl := Option.some.inj (hfind.symm.trans hother)
      exact hrun
    · cases hrun.symm.trans hok
    · rw [hchecked, hrun]

/-- In a tree with two leaves, these have the root as their common ancestor, but neither
of them has one with a node of another tree. -/
theorem handles_safe_two_leaves :
    let t := ofTree 3 .python [] (.node default [.node default [], .node default []])
    (∀ handle ∈ (commonAncestor ⟨3, 1⟩ ⟨3, 2⟩).handles, t.Owns handle) ∧
    (∃ answer, (commonAncestor ⟨3, 1⟩ ⟨3, 2⟩).run t = .ok answer) ∧
    (∀ answer, (commonAncestor ⟨3, 1⟩ ⟨3, 2⟩).run t = .ok answer →
      ∀ handle ∈ answer.handles t, t.Owns handle) ∧
    (commonAncestor ⟨3, 1⟩ ⟨4, 2⟩).handles.find? (fun given => ¬t.Owns given) = some ⟨4, 2⟩ ∧
    (commonAncestor ⟨3, 1⟩ ⟨4, 2⟩).run t = .error (.foreignNode 3 4) := by
  intro t
  have hgood : ∀ handle ∈ (commonAncestor ⟨3, 1⟩ ⟨3, 2⟩).handles, t.Owns handle := by decide
  have hfirst : (commonAncestor ⟨3, 1⟩ ⟨4, 2⟩).handles.find? (fun given => ¬t.Owns given) =
      some ⟨4, 2⟩ := by decide
  obtain ⟨hiff, -, howned, -, -⟩ := handles_safe t (commonAncestor ⟨3, 1⟩ ⟨3, 2⟩)
  obtain ⟨-, hrefused, -, -, -⟩ := handles_safe t (commonAncestor ⟨3, 1⟩ ⟨4, 2⟩)
  exact ⟨hgood, hiff.2 hgood, howned, hfirst, hrefused ⟨4, 2⟩ hfirst⟩

end SyntaxTree.Operation

end SourceOutline
