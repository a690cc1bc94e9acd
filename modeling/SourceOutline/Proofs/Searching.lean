import SourceOutline.Proofs.Enclosure

/-!
# Bounded Searches

A search keeps a stack of subtrees, each with its level below the start. It opens a node
by putting its children on the stack, unless they are too deep, and ends early when it has
found enough. A walk does none of that. The two agree: a search finds the first nodes, as
many as there is room for, of those that a walk visits, that are not too deep and that are
accepted.

What a stack still owes is `placedAll`, the nodes of its subtrees. One step takes the
first of them and leaves the others, up to nodes that are too deep and would not be kept;
the rest is an induction on the number of steps.

## Main results

* `SyntaxTree.search_eq`: a search finds the first accepted nodes of what its stack owes.
* `SyntaxTree.findNodes_filters_walk`: a search is a walk that is filtered and cut.
* `SyntaxTree.shallower_search_not_sublist`: with both limits, a smaller depth can bring
  up other nodes.
-/

namespace SourceOutline

/-- The first elements of a list, as many as there is room for. -/
def upTo {α : Type} (room : Option Nat) (xs : List α) : List α :=
  match room with
  | some count => xs.take count
  | none => xs

section UpTo

variable {α β : Type} {room : Option Nat} (xs : List α)

/-- There is nothing to keep of an empty list. -/
theorem upTo_nil (room : Option Nat) : upTo room ([] : List α) = [] := by
  cases room with
  | none => rfl
  | some count => exact List.take_nil

/-- The first element is kept if there is room for it. -/
theorem upTo_cons (h : room ≠ some 0) (x : α) :
    upTo room (x :: xs) = x :: upTo (room.map (· - 1)) xs := by
  cases room with
  | none => rfl
  | some count =>
    obtain ⟨count, rfl⟩ : ∃ k, count = k + 1 :=
      Nat.exists_eq_succ_of_ne_zero fun hzero => h (congrArg some hzero)
    rfl

/-- `upTo` commutes with a map. -/
theorem map_upTo (f : α → β) (room : Option Nat) :
    (upTo room xs).map f = upTo room (xs.map f) := by
  cases room with
  | none => rfl
  | some count => exact List.map_take

/-- `upTo` keeps elements in their order. -/
theorem upTo_sublist (room : Option Nat) : (upTo room xs).Sublist xs := by
  cases room with
  | none => exact List.Sublist.refl xs
  | some count => exact List.take_sublist count xs

/-- With less room `upTo` gives fewer of the same. -/
theorem upTo_isPrefix {fewer : Nat} (h : ∀ max ∈ room, fewer ≤ max) :
    upTo (some fewer) xs <+: upTo room xs := by
  cases room with
  | none => exact List.take_prefix fewer xs
  | some count => exact List.take_prefix_take_left (h count rfl)

/-- There is room left after one of several. -/
theorem map_pred_ne_zero (hroom : room ≠ some 0) (hlast : room ≠ some 1) :
    room.map (· - 1) ≠ some 0 := by
  cases room with
  | none =>
    intro h
    cases h
  | some count =>
    intro h
    have hzero : count - 1 = 0 := Option.some.inj h
    have : count ≠ 0 := fun h => hroom (congrArg some h)
    have : count ≠ 1 := fun h => hlast (congrArg some h)
    omega

/-- With room for all, `upTo` gives all. -/
theorem upTo_eq_self (h : ∀ max ∈ room, xs.length ≤ max) : upTo room xs = xs := by
  cases room with
  | none => rfl
  | some count => exact List.take_of_length_le (h count rfl)

end UpTo

/-- Whether a depth exceeds another by at most the given number of levels. -/
def reaches (maxDepth : Option Nat) (top depth : Nat) : Bool :=
  maxDepth.all fun max => depth ≤ top + max

section Reaches

variable {maxDepth : Option Nat} {top depth : Nat}

/-- What `reaches` says, as a bound on the depth. -/
theorem reaches_iff :
    reaches maxDepth top depth = true ↔ ∀ max ∈ maxDepth, depth ≤ top + max := by
  cases maxDepth with
  | none => simp [reaches]
  | some max => simp [reaches]

/-- The top is always reached. -/
theorem reaches_self (maxDepth : Option Nat) (top : Nat) : reaches maxDepth top top = true :=
  reaches_iff.2 fun _ _ => Nat.le_add_right _ _

/-- What is above a reached depth is reached. -/
theorem reaches_of_le {deeper : Nat} (hle : depth ≤ deeper)
    (h : reaches maxDepth top deeper = true) :
    reaches maxDepth top depth = true :=
  reaches_iff.2 fun max hmax => Nat.le_trans hle (reaches_iff.1 h max hmax)

/-- What a smaller limit `reaches`, a larger one does. -/
theorem reaches_mono {shallower : Nat} (hle : ∀ max ∈ maxDepth, shallower ≤ max)
    (h : reaches (some shallower) top depth = true) : reaches maxDepth top depth = true := by
  refine reaches_iff.2 fun max hmax => ?_
  have hdepth := reaches_iff.1 h shallower rfl
  have := hle max hmax
  omega

/-- The children of a node are left out just if their depth is not reached. -/
theorem any_eq_not_reaches (h : top ≤ depth) :
    maxDepth.any (· ≤ depth - top) = !reaches maxDepth top (depth + 1) := by
  cases maxDepth with
  | none => rfl
  | some max =>
    rw [reaches, Option.any_some, Option.all_some, ← decide_not]
    exact decide_eq_decide.2 (by omega)

end Reaches

namespace Tree

/-! ### What a stack owes -/

/-- The roots of some siblings with their places, when the first of them stands at `index`. -/
def siblingRoots (parent index : Nat) (prevSibling : Option Nat) (childIndex depth : Nat) :
    List Tree → List (Place × Tree)
  | [] => []
  | tree :: later =>
    (firstPlace parent index prevSibling childIndex depth tree later, tree)
      :: siblingRoots parent (index + tree.size) (some index) (childIndex + 1) depth later

/-- The children of a placed node with their places. -/
def childRoots (x : Place × Tree) : List (Place × Tree) :=
  siblingRoots x.1.index (x.1.index + 1) none 0 (x.1.depth + 1) x.2.children

/-- The nodes of some placed trees, in order. -/
def placedAll (roots : List (Place × Tree)) : List (Place × Tree) :=
  roots.flatMap fun x => x.2.placed x.1

/-- The nodes of the first root come first. -/
@[simp] theorem placedAll_cons (x : Place × Tree) (roots : List (Place × Tree)) :
    placedAll (x :: roots) = x.2.placed x.1 ++ placedAll roots :=
  List.flatMap_cons

/-- The nodes of the first roots come first. -/
@[simp] theorem placedAll_append (first second : List (Place × Tree)) :
    placedAll (first ++ second) = placedAll first ++ placedAll second :=
  List.flatMap_append

section SiblingRoots

variable (parent index : Nat) (prevSibling : Option Nat) (childIndex depth : Nat)
  (trees : List Tree)

/-- `placedAll` of the roots of siblings is `placedSiblings`. -/
theorem placedAll_siblingRoots :
    placedAll (siblingRoots parent index prevSibling childIndex depth trees) =
      placedSiblings parent index prevSibling childIndex depth trees := by
  induction trees generalizing index prevSibling childIndex with
  | nil => rfl
  | cons tree later ih => rw [siblingRoots, placedAll_cons, ih, placedSiblings]

/-- The roots of siblings stand at `siblingIndices`. -/
theorem map_index_siblingRoots :
    (siblingRoots parent index prevSibling childIndex depth trees).map (·.1.index) =
      siblingIndices index trees := by
  induction trees generalizing index prevSibling childIndex with
  | nil => rfl
  | cons tree later ih =>
    rw [siblingRoots, List.map_cons, ih, siblingIndices]
    rfl

/-- Siblings are equally deep. -/
theorem depth_of_mem_siblingRoots {x : Place × Tree}
    (h : x ∈ siblingRoots parent index prevSibling childIndex depth trees) :
    x.1.depth = depth := by
  induction trees generalizing index prevSibling childIndex with
  | nil => cases h
  | cons tree later ih =>
    rcases List.mem_cons.1 h with rfl | h
    · rfl
    · exact ih _ _ _ h

end SiblingRoots

/-- A tree is its root and then the trees of its `childRoots`. -/
theorem placed_eq_cons (x : Place × Tree) :
    x.2.placed x.1 = x :: placedAll (childRoots x) := by
  obtain ⟨place, record, children⟩ := x
  rw [childRoots, placedAll_siblingRoots, placed]
  rfl

/-- A child is part of the tree. -/
theorem mem_placed_of_mem_childRoots {x y : Place × Tree} (h : y ∈ childRoots x) :
    y ∈ x.2.placed x.1 := by
  rw [placed_eq_cons, placedAll]
  exact List.mem_cons_of_mem _ (List.mem_flatMap.2 ⟨y, h, self_mem_placed _ _⟩)

/-- The nodes of a tree are no higher than its root. -/
theorem depth_le_of_mem_placed {place : Place} {tree : Tree} {x : Place × Tree}
    (h : x ∈ tree.placed place) :
    place.depth ≤ x.1.depth := by
  induction tree using Tree.induct generalizing place with
  | step record children ih =>
    rcases mem_placed_iff.1 h with rfl | ⟨before, child, later, rfl, hpart⟩
    · exact Nat.le_refl _
    · have hle := ih child (by simp) hpart
      rw [depth_childPlace] at hle
      omega

/-- The nodes below a root are deeper than it. -/
theorem depth_lt_of_mem_childRoots {x y : Place × Tree} (h : y ∈ placedAll (childRoots x)) :
    x.1.depth + 1 ≤ y.1.depth := by
  obtain ⟨root, hroot, hmem⟩ := List.mem_flatMap.1 h
  rw [← depth_of_mem_siblingRoots _ _ _ _ _ _ hroot]
  exact depth_le_of_mem_placed hmem

/-- The children that a search puts on its stack: none if they are too deep. -/
def openRoots (maxDepth : Option Nat) (top : Nat) (x : Place × Tree) : List (Place × Tree) :=
  if reaches maxDepth top (x.1.depth + 1) then childRoots x else []

/-- Whether a search that comes to a node keeps it. -/
def keeps (accept : Entry → Bool) (maxDepth : Option Nat) (top : Nat) (x : Place × Tree) :
    Bool :=
  reaches maxDepth top x.1.depth && accept (entryOf x)

/-- **Nodes that are too deep are not missed.** Of what a stack owes, the same is kept
when the first root is taken off and only its open children are put back. -/
theorem filter_placedAll_cons (accept : Entry → Bool) (maxDepth : Option Nat) (top : Nat)
    (x : Place × Tree) (roots : List (Place × Tree)) :
    (placedAll (x :: roots)).filter (keeps accept maxDepth top) =
      (x :: placedAll (openRoots maxDepth top x ++ roots)).filter
        (keeps accept maxDepth top) := by
  have hbelow : (placedAll (childRoots x)).filter (keeps accept maxDepth top) =
      (placedAll (openRoots maxDepth top x)).filter (keeps accept maxDepth top) := by
    rw [openRoots]
    split
    · rfl
    next hdeep =>
      refine List.filter_eq_nil_iff.2 fun y hy hkeep => hdeep ?_
      rw [keeps, Bool.and_eq_true] at hkeep
      exact reaches_of_le (depth_lt_of_mem_childRoots hy) hkeep.1
  rw [placedAll_cons, placed_eq_cons, placedAll_append, ← List.cons_append, List.filter_append,
    List.filter_append, List.filter_cons, List.filter_cons, hbelow]

/-- A step leaves less to do, by the length of `placedAll`. -/
theorem length_placedAll_openRoots_lt (maxDepth : Option Nat) (top : Nat) (x : Place × Tree)
    (roots : List (Place × Tree)) :
    (placedAll (openRoots maxDepth top x ++ roots)).length <
      (placedAll (x :: roots)).length := by
  have hle : (placedAll (openRoots maxDepth top x)).length ≤
      (placedAll (childRoots x)).length := by
    rw [openRoots]
    split
    · exact Nat.le_refl _
    · exact Nat.zero_le _
  rw [placedAll_append, placedAll_cons, placed_eq_cons, List.length_append, List.length_append,
    List.length_cons]
  omega

end Tree

namespace SyntaxTree

open SourceOutline.Tree

variable {t : SyntaxTree} {root : Handle} {maxDepth : Option Nat} {top : Nat}

/-! ### The search -/

/-- What a search knows of a subtree on its stack: it is held, and it is not too deep. -/
structure Pending (t : SyntaxTree) (maxDepth : Option Nat) (top : Nat) (x : Place × Tree) :
    Prop where
  holds : t.Holds x.1 x.2
  top_le : top ≤ x.1.depth
  reached : reaches maxDepth top x.1.depth = true

/-- The slot of a subtree on the stack: its position, and its level below the top. -/
def slot (top : Nat) (x : Place × Tree) : Nat × Nat :=
  (x.1.index, x.1.depth - top)

/-- `openRoots` may be put on the stack. -/
theorem Pending.openRoots {x : Place × Tree} (h : t.Pending maxDepth top x) :
    ∀ y ∈ Tree.openRoots maxDepth top x, t.Pending maxDepth top y := by
  intro y hy
  rw [Tree.openRoots] at hy
  split at hy
  next hreach =>
    have hdepth := depth_of_mem_siblingRoots _ _ _ _ _ _ hy
    refine ⟨placed_trans h.holds (mem_placed_of_mem_childRoots hy),
      ?_, by rw [hdepth]; exact hreach⟩
    have := h.top_le
    omega
  next => cases hy

/-- The slots of the children of a node are one level below its own. -/
theorem Pending.map_childrenOf {x : Place × Tree} (h : t.Pending maxDepth top x) :
    (t.childrenOf x.1.index).map (fun child => (child, x.1.depth - top + 1)) =
      (childRoots x).map (slot top) := by
  obtain ⟨place, record, children⟩ := x
  have htop : top ≤ place.depth := h.top_le
  rw [h.holds.childrenOf, ← map_index_siblingRoots place.index (place.index + 1) none 0
    (place.depth + 1), List.map_map]
  refine List.map_congr_left fun y hy => ?_
  have hdepth : y.1.depth = place.depth + 1 := depth_of_mem_siblingRoots _ _ _ _ _ _ hy
  rw [Function.comp_apply, slot, hdepth, Nat.sub_add_comm htop]

/-- **One step of a search** puts the open children of a node on its stack: `deeper` is
`openRoots`. -/
theorem Pending.deeper_eq {x : Place × Tree} (h : t.Pending maxDepth top x)
    (roots : List (Place × Tree)) :
    t.deeper maxDepth x.1.index (x.1.depth - top) (roots.map (slot top)) =
      (Tree.openRoots maxDepth top x ++ roots).map (slot top) := by
  rw [deeper, any_eq_not_reaches h.top_le, h.map_childrenOf, Tree.openRoots]
  cases reaches maxDepth top (x.1.depth + 1) with
  | false => rfl
  | true => exact List.map_append.symm

/-- **A search finds the first accepted nodes of what its stack owes**, as many as there
is room for (`placedAll`, `keeps`). -/
theorem search_eq (accept : Entry → Bool) {fuel : Nat} {room : Option Nat}
    {roots : List (Place × Tree)} (hpending : ∀ x ∈ roots, t.Pending maxDepth top x)
    (hfuel : (placedAll roots).length ≤ fuel) (hroom : room ≠ some 0) :
    t.search accept maxDepth fuel room (roots.map (slot top)) =
      upTo room (((placedAll roots).filter (keeps accept maxDepth top)).map (·.1.index)) := by
  -- by induction on the steps that are left, of which every one takes a node off what is owed
  induction fuel generalizing room roots with
  | zero =>
    have hnone : placedAll roots = [] := List.length_eq_zero_iff.1 (Nat.le_zero.1 hfuel)
    rw [hnone]
    exact (upTo_nil room).symm
  | succ fuel ih =>
    cases roots with
    | nil => exact (upTo_nil room).symm
    | cons x roots =>
      have hx := hpending x List.mem_cons_self
      have hnext : ∀ y ∈ openRoots maxDepth top x ++ roots, t.Pending maxDepth top y := by
        intro y hy
        rcases List.mem_append.1 hy with hy | hy
        · exact hx.openRoots y hy
        · exact hpending y (List.mem_cons_of_mem _ hy)
      have hless := length_placedAll_openRoots_lt maxDepth top x roots
      have haccept : t.nodes[x.1.index]?.any accept = keeps accept maxDepth top x := by
        rw [hx.holds.getElem?, keeps, hx.reached]
        rfl
      rw [List.map_cons, slot, search, hx.deeper_eq, filter_placedAll_cons, haccept,
        List.filter_cons]
      by_cases hkeep : keeps accept maxDepth top x = true
      · rw [if_pos hkeep, if_pos hkeep, List.map_cons, upTo_cons _ hroom]
        by_cases hlast : room = some 1
        · rw [if_pos hlast, hlast]
          rfl
        · rw [if_neg hlast, ih hnext (by omega) (map_pred_ne_zero hroom hlast)]
      · rw [if_neg hkeep, if_neg hkeep, ih hnext (by omega) hroom]

/-- Whether a node that a walk visits may be found: it is not too deep below the start,
and it is accepted. -/
def eligible (t : SyntaxTree) (accept : Entry → Bool) (maxDepth : Option Nat) (start : Entry)
    (handle : Handle) : Bool :=
  t.nodes[handle.index]?.any fun entry => reaches maxDepth start.depth entry.depth &&
    accept entry

/-- `findNodes` from a good handle, by the walk from there. -/
theorem Owns.findNodes_eq (h : t.Owns root) {start : Entry}
    (hstart : t.node root = .ok start) {once : Bool} {visited : List Handle}
    (hvisited : t.traverse root once = .ok visited) (accept : Entry → Bool)
    (limits : SearchLimits) :
    t.findNodes root accept limits =
      .ok (upTo limits.maxNodes (visited.filter
        (t.eligible accept limits.maxDepth start))) := by
  obtain ⟨place, tree, hold, hindex⟩ := Arena.exists_holds h.2
  rw [h.traverse_eq hold hindex, ← hindex, ← map_index_placed, List.map_map] at hvisited
  obtain rfl := Except.ok.inj hvisited
  rw [node_of_read h.1 (hindex ▸ hold.getElem?)] at hstart
  obtain rfl := Except.ok.inj hstart
  have hfilter : ((tree.placed place).map (t.handle ∘ (·.1.index))).filter
        (t.eligible accept limits.maxDepth (entryOf (place, tree))) =
      (((tree.placed place).filter (keeps accept limits.maxDepth place.depth)).map
        (·.1.index)).map t.handle := by
    rw [List.filter_map, List.map_map]
    refine congrArg (List.map _) (List.filter_congr fun x hx => ?_)
    have hentry : t.nodes[x.1.index]? = some (entryOf x) :=
      Arena.Holds.getElem? (placed_trans hold hx)
    rw [Function.comp_apply, Function.comp_apply, eligible, handle, hentry]
    rfl
  have hpending : t.Pending limits.maxDepth place.depth (place, tree) :=
    ⟨hold, Nat.le_refl _, reaches_self _ _⟩
  -- the stack that a search begins with owes the subtree of the start
  have hslot : [(root.index, 0)] = [(place, tree)].map (slot place.depth) := by
    rw [List.map_singleton, slot, hindex, Nat.sub_self]
  have howed : placedAll [(place, tree)] = tree.placed place := by
    rw [placedAll_cons]
    exact List.append_nil _
  rw [findNodes, check_of_owns h, hfilter]
  dsimp only [bind, Except.bind]
  split
  next hnone =>
    rw [hnone]
    rfl
  next hroom =>
    have hfuel : (placedAll [(place, tree)]).length ≤ t.nodeCount := by
      rw [howed, length_placed]
      exact Nat.le_of_add_left_le hold.index_add_size_le
    rw [hslot, search_eq accept (fun x hx => List.mem_singleton.1 hx ▸ hpending) hfuel hroom,
      howed, map_upTo]

/-- What is found comes in document order. -/
theorem Owns.pairwise_findNodes (h : t.Owns root) {accept : Entry → Bool}
    {limits : SearchLimits} {found : List Handle}
    (hfound : t.findNodes root accept limits = .ok found) :
    found.Pairwise fun a b => a.index < b.index := by
  obtain ⟨start, -, hstart, -⟩ := h.exists_entry
  obtain ⟨place, tree, hold, hindex⟩ := Arena.exists_holds h.2
  rw [h.findNodes_eq hstart (h.traverse_eq hold hindex false)] at hfound
  obtain rfl := Except.ok.inj hfound
  refine List.Pairwise.sublist ((upTo_sublist _ _).trans List.filter_sublist) ?_
  exact List.pairwise_map.2 List.pairwise_lt_range'

/-- **A search is a walk that is filtered and cut.** From a node of the tree it always
ends, without reading out of range, and for all limits it finds the first `maxNodes` of
the nodes that the walk from there visits, whose depth exceeds that of the start by at
most `maxDepth`, and that are accepted; without a limit, all of them. Hence:

* What is found comes in document order.
* With a smaller `maxNodes`, the search finds a prefix.
* With a smaller `maxDepth`, it finds a sublist of what it would find without `maxNodes`.
  That is what it finds if `maxNodes` leaves room for all of it. -/
theorem findNodes_filters_walk (t : SyntaxTree) {root : Handle} (h : t.Owns root)
    (accept : Entry → Bool) :
    ∃ start visited, t.node root = .ok start ∧ (∀ once, t.traverse root once = .ok visited) ∧
      (∀ limits,
        t.findNodes root accept limits =
          .ok (upTo limits.maxNodes (visited.filter
            (t.eligible accept limits.maxDepth start))) ∧
        (Operation.findNodes root accept limits).checked t =
          some ((t.findNodes root accept limits).map .nodes)) ∧
      (∀ limits found, t.findNodes root accept limits = .ok found →
        found.Pairwise fun a b => a.index < b.index) ∧
      (∀ (limits : SearchLimits) (fewer : Nat) (found found' : List Handle),
        (∀ max ∈ limits.maxNodes, fewer ≤ max) →
        t.findNodes root accept limits = .ok found →
        t.findNodes root accept { limits with maxNodes := some fewer } = .ok found' →
          found' <+: found) ∧
      (∀ (limits : SearchLimits) (shallower : Nat) (all found' : List Handle),
        (∀ max ∈ limits.maxDepth, shallower ≤ max) →
        t.findNodes root accept { limits with maxNodes := none } = .ok all →
        t.findNodes root accept { limits with maxDepth := some shallower } = .ok found' →
        found'.Sublist all ∧
          ((∀ max ∈ limits.maxNodes, all.length ≤ max) →
            t.findNodes root accept limits = .ok all)) := by
  obtain ⟨start, -, hstart, -⟩ := h.exists_entry
  obtain ⟨place, tree, hold, hindex⟩ := Arena.exists_holds h.2
  have hvisited := h.traverse_eq hold hindex
  have hfound := h.findNodes_eq hstart (hvisited false) accept
  refine ⟨start, _, hstart, hvisited, fun limits => ⟨hfound limits, h.checked_eq rfl⟩,
    fun limits found => h.pairwise_findNodes,
    fun limits fewer found found' hfewer hall hless => ?_,
    fun limits shallower all found' hshallower hall hless => ?_⟩
  · rw [hfound] at hall hless
    obtain rfl := Except.ok.inj hall
    obtain rfl := Except.ok.inj hless
    exact upTo_isPrefix _ hfewer
  · rw [hfound] at hall hless
    obtain rfl := Except.ok.inj hall
    obtain rfl := Except.ok.inj hless
    refine ⟨(upTo_sublist _ _).trans (List.monotone_filter_right _ fun handle hkeep => ?_),
      fun hroom => ?_⟩
    · obtain ⟨entry, hentry, hkeep⟩ := (Option.any_eq_true _ _).1 hkeep
      rw [Bool.and_eq_true] at hkeep
      rw [eligible, hentry, Option.any_some, reaches_mono hshallower hkeep.1, hkeep.2]
      rfl
    · rw [hfound]
      exact congrArg Except.ok (upTo_eq_self _ hroom)

/-- In a faulty list, the first number right below the list is the one that is not in the
error. -/
theorem findNodes_filters_walk_faulty_list :
    faultyList.Owns ⟨0, 1⟩ ∧
      faultyList.findNodes ⟨0, 1⟩ (fun entry => entry.record.kind = "number")
        ⟨some 1, some 1⟩ = .ok [⟨0, 5⟩] ∧
      ∀ found, faultyList.findNodes ⟨0, 1⟩ (fun entry => entry.record.kind = "number")
        ⟨some 1, none⟩ = .ok found →
        [⟨0, 5⟩] <+: found := by
  have howns : faultyList.Owns ⟨0, 1⟩ := by decide
  have hone : faultyList.findNodes ⟨0, 1⟩ (fun entry => entry.record.kind = "number")
      ⟨some 1, some 1⟩ =
      .ok [⟨0, 5⟩] := by decide
  obtain ⟨-, -, -, -, -, -, hfewer, -⟩ :=
    findNodes_filters_walk faultyList howns fun entry => entry.record.kind = "number"
  exact ⟨howns, hone, fun found hfound => hfewer ⟨some 1, none⟩ 1 found _ (by simp)
    hfound hone⟩

/-- **With both limits, a smaller depth need not give a sublist.** In a faulty list, the
first number down to depth 3 is the one in the error; the first one down to depth 2 is the
other one. -/
theorem shallower_search_not_sublist :
    faultyList.findNodes ⟨0, 0⟩ (fun entry => entry.record.kind = "number") ⟨some 3, some 1⟩ =
      .ok [⟨0, 4⟩] ∧
      faultyList.findNodes ⟨0, 0⟩ (fun entry => entry.record.kind = "number")
        ⟨some 2, some 1⟩ = .ok [⟨0, 5⟩] ∧
      ¬[(⟨0, 5⟩ : Handle)].Sublist [⟨0, 4⟩] := by
  decide

end SyntaxTree

end SourceOutline
