import Mathlib.Data.List.Chain
import SourceOutline.Proofs.Enclosure

/-!
# Ancestors

Parents lead from a node up to the root, and back down they are the ancestors of the node
in order. The same relation shows in three ways: in the links to parents, in the depths
that are stored, and in the subtrees that walks pass through. Here the way down from the
root is tied to all three.

Parents stand before their children, so what passes from parents to children holds
everywhere (`parent_induct`), and the way down to a child is the way down to its parent
with one more step (`wayDown_of_childOf`). All that is said of ways down follows from
these two.

## Main results

* `Arena.mem_wayDown_iff`: the way down to a node passes the nodes that enclose it.
* `Arena.length_wayDown`: its length is the depth that is stored.
* `SyntaxTree.ancestorChain_agrees`: chains of ancestors agree with depths, subtrees and kinds.
-/

namespace SourceOutline

/-- The last element that passes a test is the first one from the end. -/
theorem find?_reverse_eq_some_iff {α : Type} {p : α → Bool} {xs : List α} {x : α} :
    xs.reverse.find? p = some x ↔
      ∃ before after, xs = before ++ x :: after ∧ p x = true ∧ ∀ y ∈ after, p y = false := by
  rw [List.find?_eq_some_iff_append]
  constructor
  · rintro ⟨hx, later, earlier, hsplit, hlater⟩
    refine ⟨earlier.reverse, later.reverse, ?_, hx, fun y hy => ?_⟩
    · rw [← List.reverse_reverse xs, hsplit]
      simp
    · simpa using hlater y (List.mem_reverse.1 hy)
  · rintro ⟨before, after, rfl, hx, hafter⟩
    refine ⟨hx, after.reverse, before.reverse, by simp, fun y hy => ?_⟩
    rw [hafter y (List.mem_reverse.1 hy)]
    rfl

namespace Arena

variable {arena : Arena} {a i p : Nat}

/-- Induction along parents: what holds of the root and passes from parents to children
holds at every position. -/
theorem parent_induct (arena : Arena) {motive : (i : Nat) → i < arena.nodeCount → Prop}
    (root : motive 0 arena.nodeCount_pos)
    (child : ∀ i p (h : arena.ChildOf i p), motive p (Nat.lt_trans h.lt.1 h.lt.2) →
      motive i h.lt.2)
    {i : Nat} (hi : i < arena.nodeCount) : motive i hi := by
  induction i using Nat.strong_induction_on with
  | _ i ih =>
    obtain ⟨entry, hentry⟩ := exists_read hi
    cases hparent : entry.parent with
    | none =>
      obtain rfl := (arena.wellLinked.parent_eq_none_iff hentry).1 hparent
      exact root
    | some p =>
      have hchild : arena.ChildOf i p := (link_of_read hentry (·.parent)).trans hparent
      exact child i p hchild (ih p hchild.lt.1 (Nat.lt_trans hchild.lt.1 hi))

/-- What `Encloses` a child is the child or encloses the parent. -/
theorem ChildOf.encloses_iff (h : arena.ChildOf i p) :
    arena.Encloses a i ↔ arena.Encloses a p ∨ a = i := by
  constructor
  · intro hencloses
    rcases Relation.ReflTransGen.cases_head hencloses with rfl | ⟨p', hchild, hencloses⟩
    · exact Or.inr rfl
    · obtain rfl := ChildOf.rightUnique arena hchild h
      exact Or.inl hencloses
  · rintro (hencloses | rfl)
    · exact hencloses.child h
    · exact Encloses.refl arena a

/-- The root is enclosed by itself alone. -/
theorem encloses_zero_iff : arena.Encloses a 0 ↔ a = 0 := by
  constructor
  · exact fun h => Nat.le_zero.1 h.le
  · rintro rfl
    exact Encloses.refl arena 0

/-! ### Ways down -/

/-- The positions from the root down to a node. -/
def wayDown (arena : Arena) (index : Nat) : List Nat :=
  (arena.upwards index).reverse

/-- A `climb` that has steps enough does not depend on how many. -/
theorem climb_congr {fuel fuel' : Nat} (h : i < fuel) (h' : i < fuel') :
    arena.climb fuel i = arena.climb fuel' i := by
  induction fuel generalizing fuel' i with
  | zero => exact absurd h (Nat.not_lt_zero i)
  | succ fuel ih =>
    obtain ⟨fuel', rfl⟩ : ∃ k, fuel' = k + 1 := ⟨fuel' - 1, by omega⟩
    rw [climb, climb]
    cases hparent : arena.parent? i with
    | none => rfl
    | some p =>
      have hlt : p < i := (show arena.ChildOf i p from hparent).lt.1
      exact congrArg (i :: ·) (ih (by omega) (by omega))

/-- The root is reached without a step, by `wayDown`. -/
theorem wayDown_zero (arena : Arena) : arena.wayDown 0 = [0] := by
  obtain ⟨entry, hentry⟩ := exists_read arena.nodeCount_pos
  have hparent : arena.parent? 0 = none :=
    (link_of_read hentry (·.parent)).trans ((arena.wellLinked.parent_eq_none_iff hentry).2 rfl)
  rw [wayDown, upwards, climb_congr arena.nodeCount_pos Nat.one_pos, climb, hparent]
  rfl

/-- **The way down to a child** is the way down to its parent and one step more. -/
theorem wayDown_of_childOf (h : arena.ChildOf i p) :
    arena.wayDown i = arena.wayDown p ++ [i] := by
  have hi := h.lt.2
  have hup : arena.upwards i = i :: arena.upwards p := by
    -- with one step more at hand, the climb from the child leaves the climb from the
    -- parent all of its own
    rw [upwards, climb_congr hi (Nat.lt_succ_of_lt hi), climb, show arena.parent? i =
      some p from h]
    rfl
  rw [wayDown, hup, List.reverse_cons, ← wayDown]

/-- A way down begins at the root. -/
theorem head?_wayDown (hi : i < arena.nodeCount) : (arena.wayDown i).head? = some 0 := by
  induction hi using arena.parent_induct with
  | root => rw [wayDown_zero]; rfl
  | child i p hchild ih => rw [wayDown_of_childOf hchild, List.head?_append, ih]; rfl

/-- A way down ends at the node. -/
theorem getLast?_wayDown (hi : i < arena.nodeCount) : (arena.wayDown i).getLast? = some i := by
  induction hi using arena.parent_induct with
  | root => rw [wayDown_zero]; rfl
  | child i p hchild _ => rw [wayDown_of_childOf hchild, List.getLast?_concat]

/-- **A way down passes the nodes that enclose its end**: `wayDown` lists what `Encloses`
it. -/
theorem mem_wayDown_iff (hi : i < arena.nodeCount) :
    a ∈ arena.wayDown i ↔ arena.Encloses a i := by
  induction hi using arena.parent_induct with
  | root => rw [wayDown_zero, List.mem_singleton, encloses_zero_iff]
  | child i p hchild ih =>
    rw [wayDown_of_childOf hchild, List.mem_append, List.mem_singleton, ih,
      hchild.encloses_iff]

/-- **A way down is as long as its end is deep.** -/
theorem length_wayDown {entry : Entry} (h : arena.nodes[i]? = some entry) :
    (arena.wayDown i).length = entry.depth + 1 := by
  have hi := lt_nodeCount_of_read h
  induction hi using arena.parent_induct generalizing entry with
  | root => rw [wayDown_zero, arena.wellLinked.depth_root h]; rfl
  | child i p hchild ih =>
    have hparent : entry.parent = some p := (link_of_read h (·.parent)).symm.trans hchild
    obtain ⟨-, above, habove, hdepth⟩ := arena.wellLinked.parent_before h hparent
    rw [wayDown_of_childOf hchild, List.length_append, ih habove, hdepth]
    rfl

/-- A way down goes on to later positions. -/
theorem pairwise_wayDown (hi : i < arena.nodeCount) : (arena.wayDown i).Pairwise (· < ·) := by
  induction hi using arena.parent_induct with
  | root => rw [wayDown_zero]; exact List.pairwise_singleton _ _
  | child i p hchild ih =>
    obtain ⟨hlt, hi⟩ := hchild.lt
    rw [wayDown_of_childOf hchild, List.pairwise_append]
    refine ⟨ih, List.pairwise_singleton _ _, fun a ha b hb => ?_⟩
    obtain rfl := List.mem_singleton.1 hb
    exact Nat.lt_of_le_of_lt ((mem_wayDown_iff (Nat.lt_trans hlt hi)).1 ha).le hlt

/-- A way down goes from parents to children. -/
theorem isChain_wayDown (hi : i < arena.nodeCount) :
    (arena.wayDown i).IsChain fun a b => arena.ChildOf b a := by
  induction hi using arena.parent_induct with
  | root => rw [wayDown_zero]; exact List.isChain_singleton _
  | child i p hchild ih =>
    obtain ⟨hlt, hi⟩ := hchild.lt
    rw [wayDown_of_childOf hchild, List.isChain_append]
    refine ⟨ih, List.isChain_singleton _, fun a ha b hb => ?_⟩
    rw [getLast?_wayDown (Nat.lt_trans hlt hi)] at ha
    obtain rfl := Option.some.inj ha
    obtain rfl := Option.some.inj hb
    exact hchild

end Arena

namespace SyntaxTree

variable {t : SyntaxTree} {node other : Handle}

/-! ### Chains of ancestors -/

/-- The handles from the root down to a node. -/
def chainTo (t : SyntaxTree) (index : Nat) : List Handle :=
  (t.wayDown index).map t.handle

/-- The `ancestorChain` of a good handle goes down to its node. -/
theorem Owns.ancestorChain_eq_chainTo (h : t.Owns node) :
    t.ancestorChain node = .ok (t.chainTo node.index) := by
  rw [ancestorChain, check_of_owns h]
  rfl

/-- Before its own node, a chain has the proper ancestors. -/
theorem Owns.exists_above (h : t.Owns node) :
    ∃ above : List Nat, t.wayDown node.index = above ++ [node.index] := by
  obtain ⟨above, habove⟩ := List.getLast?_eq_some_iff.1 (Arena.getLast?_wayDown h.2)
  exact ⟨above, habove⟩

/-- **A chain has the nodes in whose walks its own node occurs** (`chainTo`,
`traverse`). -/
theorem Owns.mem_chain_iff (h : t.Owns node) (once : Bool) :
    other ∈ t.chainTo node.index ↔ ∃ visited, t.traverse other once = .ok visited ∧
      node ∈ visited := by
  constructor
  · intro hmem
    obtain ⟨index, hindex, rfl⟩ := List.mem_map.1 hmem
    have hencloses := (Arena.mem_wayDown_iff h.2).1 hindex
    have howns := owns_handle (t := t) (Nat.lt_of_le_of_lt hencloses.le h.2)
    obtain ⟨visited, -, -, hvisited, -⟩ := howns.exists_walk
    exact ⟨_, hvisited once, (mem_traverse_iff (hvisited once)).2 ⟨h.1, hencloses⟩⟩
  · rintro ⟨visited, hvisited, hmem⟩
    obtain ⟨-, hencloses⟩ := (mem_traverse_iff hvisited).1 hmem
    exact List.mem_map.2 ⟨other.index, (Arena.mem_wayDown_iff h.2).2 hencloses,
      handle_index (owns_of_traverse hvisited).1⟩

/-- The kinds of `nodePath` are those of the chain. -/
theorem Owns.exists_nodePath (h : t.Owns node) :
    ∃ kinds, t.nodePath node = .ok kinds ∧
      List.Forall₂ (fun handle kind => t.hasKind kind handle.index = true)
        (t.chainTo node.index) kinds := by
  obtain ⟨steps, hup, hlocated, -, -, -⟩ := h.exists_climb
  have hreversed : t.Located steps.reverse :=
    fun step hstep => hlocated step (List.mem_reverse.1 hstep)
  have hkinds := mapM_kind_eq hreversed
  have hdown : t.wayDown node.index = steps.reverse.map (·.1) := by
    rw [Arena.wayDown, hup, List.map_reverse]
  refine ⟨steps.reverse.map (·.2.record.kind), ?_, ?_⟩
  · rw [nodePath, h.ancestorChain_eq_chainTo, chainTo, hdown]
    exact hkinds
  · rw [chainTo, hdown, List.map_map, List.forall₂_map_left_iff, List.forall₂_map_right_iff,
      List.forall₂_same]
    intro step hstep
    rw [hasKind, Function.comp_apply, handle, hreversed step hstep]
    exact decide_eq_true rfl

/-- `parentOfType` gives the last node of the kind on the chain above a node. -/
theorem Owns.parentOfType_eq (h : t.Owns node) {above : List Nat}
    (habove : t.wayDown node.index = above ++ [node.index]) (kind : String) :
    t.parentOfType node kind =
      .ok ((above.map t.handle).reverse.find? fun handle => t.hasKind kind handle.index) := by
  have hup : t.upwards node.index = node.index :: above.reverse := by
    rw [← List.reverse_reverse (t.upwards node.index), ← Arena.wayDown, habove,
      List.reverse_append]
    rfl
  rw [parentOfType, check_of_owns h, hup, ← List.map_reverse, List.find?_map]
  rfl

/-- **Chains of ancestors agree with subtrees and depths.** The chain of a node is found
without reading out of range or being cut off. It begins at the root, goes down from
parents to children, to later positions at every step, and ends at the node; it has one
entry more than the depth of the node, and its entries are the nodes in whose walks the
node occurs. The path of the node has the kinds of these entries. The nearest ancestor of
a kind is the last entry of that kind before the node, and there is none just if no entry
before the node is of that kind. -/
theorem ancestorChain_agrees (t : SyntaxTree) {node : Handle} (h : t.Owns node) :
    ∃ chain above, t.ancestorChain node = .ok chain ∧
      (Operation.ancestorChain node).checked t = some (.ok (.nodes chain)) ∧
      chain.head? = some t.rootHandle ∧ chain = above ++ [node] ∧
      (∃ depth, t.nodeDepth node = .ok depth ∧ chain.length = depth + 1) ∧
      chain.Pairwise (fun a b => a.index < b.index) ∧
      chain.IsChain (fun a b => t.ChildOf b.index a.index) ∧
      (∀ once handle, handle ∈ chain ↔ ∃ visited, t.traverse handle once = .ok visited ∧
        node ∈ visited) ∧
      (∃ kinds, t.nodePath node = .ok kinds ∧
        (Operation.nodePath node).checked t = some (.ok (.kinds kinds)) ∧
        List.Forall₂ (fun handle kind => t.hasKind kind handle.index = true) chain kinds) ∧
      ∀ kind, ∃ found, t.parentOfType node kind = .ok found ∧
        (Operation.parentOfType node kind).checked t = some (.ok (.relative found)) ∧
        (found = none ↔ ∀ handle ∈ above, ¬t.hasKind kind handle.index = true) ∧
        ∀ handle, found = some handle ↔
          ∃ before after, above = before ++ handle :: after ∧
            t.hasKind kind handle.index = true ∧
            ∀ other ∈ after, t.hasKind kind other.index = false := by
  obtain ⟨above, habove⟩ := h.exists_above
  obtain ⟨entry, hentry, hnode, -⟩ := h.exists_entry
  obtain ⟨kinds, hpath, hkinds⟩ := h.exists_nodePath
  have hchain := h.ancestorChain_eq_chainTo
  refine ⟨_, above.map t.handle, hchain, ?_, ?_, ?_, ⟨entry.depth, ?_, ?_⟩, ?_, ?_,
    fun once handle => h.mem_chain_iff once, ⟨kinds, hpath, ?_, hkinds⟩,
    fun kind => ⟨_, h.parentOfType_eq habove kind, ?_, ?_, fun handle => ?_⟩⟩
  · rw [h.checked_eq rfl, Operation.run, hchain]
    rfl
  · rw [chainTo, List.head?_map, Arena.head?_wayDown h.2]
    rfl
  · rw [chainTo, habove, List.map_append, List.map_singleton, handle_index h.1]
  · rw [nodeDepth, hnode]
    rfl
  · rw [chainTo, List.length_map, Arena.length_wayDown hentry]
  · exact List.pairwise_map.2 (Arena.pairwise_wayDown h.2)
  · exact (List.isChain_map _).2 (Arena.isChain_wayDown h.2)
  · rw [h.checked_eq rfl, Operation.run, hpath]
    rfl
  · rw [h.checked_eq rfl, Operation.run, h.parentOfType_eq habove]
    rfl
  · rw [List.find?_eq_none]
    exact ⟨fun hnone handle hmem => hnone handle (List.mem_reverse.2 hmem),
      fun hnone handle hmem => hnone handle (List.mem_reverse.1 hmem)⟩
  · exact find?_reverse_eq_some_iff

/-- The first number of a faulty list is three steps below the root, and the nearest list
that it is in is above the error. -/
theorem ancestorChain_agrees_first_number :
    faultyList.Owns ⟨0, 4⟩ ∧
      faultyList.ancestorChain ⟨0, 4⟩ = .ok [⟨0, 0⟩, ⟨0, 1⟩, ⟨0, 3⟩, ⟨0, 4⟩] ∧
      faultyList.parentOfType ⟨0, 4⟩ "array" = .ok (some ⟨0, 1⟩) ∧
      ∀ once handle, handle ∈ [(⟨0, 0⟩ : Handle), ⟨0, 1⟩, ⟨0, 3⟩, ⟨0, 4⟩] ↔
        ∃ visited, faultyList.traverse handle once = .ok visited ∧ ⟨0, 4⟩ ∈ visited := by
  have howns : faultyList.Owns ⟨0, 4⟩ := by decide
  have hgiven : faultyList.ancestorChain ⟨0, 4⟩ =
      .ok [⟨0, 0⟩, ⟨0, 1⟩, ⟨0, 3⟩, ⟨0, 4⟩] := by decide
  obtain ⟨chain, -, hchain, -, -, -, -, -, -, hvisited, -⟩ :=
    ancestorChain_agrees faultyList howns
  obtain rfl := Except.ok.inj (hchain.symm.trans hgiven)
  exact ⟨howns, hgiven, by decide, hvisited⟩

end SyntaxTree

end SourceOutline
