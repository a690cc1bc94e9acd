import Mathlib.Data.List.Forall2
import SourceOutline.Proofs.Links
import SourceOutline.Tree.Traversal

/-!
# Reading within the Arena

Loops over an arena go from position to position by the links that they read, and all of
them are bounded. Each has a guarded form here that has no result if it reads a position
that the arena does not have, or if it is cut off before its end. Two things are shown of
each: where the guarded loop has a result, so has the loop, and the guarded loop has a
result from every position of the arena. So no loop reads out of range, and the bounds
never show.

The first is an induction on the bound and needs nothing about arenas. The second follows
the tree: a climb ends since parents stand before their children, a walk from a node
passes the interval of positions that its subtree takes, and a search has a stack of
subtrees that hold no more nodes than steps are left.

## Main results

* `climb_of_climb?`, `walk_of_walk?`, `walkOnce_of_walkOnce?`, `search_of_search?`:
  guarded loops agree with loops.
* `Holds.exists_climb?`: a climb ends, and the child indices on it lead down to where it began.
* `Holds.walk?_eq`: a walk passes the positions of a subtree, in order.
* `exists_search?`: a search ends.
-/

namespace SourceOutline

open SyntaxTree (pushOn)

/-- The positions that an entry links to. -/
def Entry.links (entry : Entry) : List Nat :=
  entry.parent.toList ++ entry.firstChild.toList ++ entry.nextSibling.toList ++
    entry.prevSibling.toList

/-- A tree has one node more than its children, by `size` and `forestSize`. -/
theorem Tree.size_eq (tree : Tree) : tree.size = forestSize tree.children + 1 := by
  obtain ⟨record, children⟩ := tree
  exact Nat.add_comm 1 _

/-- `descend?` along one way and then another. -/
theorem Tree.descend?_append (tree : Tree) (path path' : List Nat) :
    tree.descend? (path ++ path') = (tree.descend? path).bind (·.descend? path') := by
  induction path generalizing tree with
  | nil => rfl
  | cons i path ih =>
    rw [List.cons_append, descend?, descend?]
    cases tree.children[i]? with
    | none => rfl
    | some child => exact ih child

namespace Arena

open SourceOutline.Tree

variable (arena : Arena)

/-! ### Guarded loops -/

/-- `climb` with every read guarded: the way from a node up to the root, with the entries
that were read on it. -/
def climb? : Nat → Nat → Option (List (Nat × Entry))
  | 0, _ => none
  | fuel + 1, index => do
    let entry ← arena.nodes[index]?
    match entry.parent with
    | some parent =>
      let rest ← climb? fuel parent
      some ((index, entry) :: rest)
    | none => some [(index, entry)]

/-- `siblingsFrom` with every read guarded: a node and the siblings after it. -/
def siblingsFrom? : Nat → Option Nat → Option (List Nat)
  | _, none => some []
  | 0, some _ => none
  | fuel + 1, some index => do
    let entry ← arena.nodes[index]?
    let rest ← siblingsFrom? fuel entry.nextSibling
    some (index :: rest)

/-- `childrenOf` with every read guarded. -/
def childrenOf? (index : Nat) : Option (List Nat) := do
  let entry ← arena.nodes[index]?
  arena.siblingsFrom? arena.nodeCount entry.firstChild

/-- The stack after a node was taken from it and its entry was read. -/
def stackAfter (start index : Nat) (entry : Entry) (stack : List Nat) : List Nat :=
  pushOn (if index = start then stack else pushOn stack entry.nextSibling) entry.firstChild

/-- `SyntaxTree.walk` from `start` with every read guarded. -/
def walk? (start : Nat) : Nat → List Nat → Option (List Nat)
  | _, [] => some []
  | 0, _ :: _ => none
  | fuel + 1, index :: stack => do
    let entry ← arena.nodes[index]?
    let rest ← walk? start fuel (stackAfter start index entry stack)
    some (index :: rest)

/-- A walk from `start` that passes over the nodes it has visited. -/
def walkOnce? (start : Nat) : Nat → List Nat → List Nat → Option (List Nat)
  | _, _, [] => some []
  | 0, _, _ :: _ => none
  | fuel + 1, visited, index :: stack => do
    let entry ← arena.nodes[index]?
    let stack := stackAfter start index entry stack
    if visited.contains index then walkOnce? start fuel visited stack
    else
      let rest ← walkOnce? start fuel (index :: visited) stack
      some (index :: rest)

/-- The stack of a search after a node, whose children are read unless they are too deep. -/
def deeper? (maxDepth : Option Nat) (index level : Nat) (stack : List (Nat × Nat)) :
    Option (List (Nat × Nat)) :=
  if maxDepth.any (· ≤ level) then some stack
  else do
    let children ← arena.childrenOf? index
    some (children.map (fun child => (child, level + 1)) ++ stack)

/-- `SyntaxTree.search` with every read guarded. The children of the last node that there
is room for are not read. -/
def search? (accept : Entry → Bool) (maxDepth : Option Nat) :
    Nat → Option Nat → List (Nat × Nat) → Option (List Nat)
  | _, _, [] => some []
  | 0, _, _ :: _ => none
  | fuel + 1, room, (index, level) :: stack => do
    let entry ← arena.nodes[index]?
    if accept entry then
      if room = some 1 then some [index]
      else
        let stack ← arena.deeper? maxDepth index level stack
        let rest ← search? accept maxDepth fuel (room.map (· - 1)) stack
        some (index :: rest)
    else
      let stack ← arena.deeper? maxDepth index level stack
      search? accept maxDepth fuel room stack

/-- The entries at some positions. -/
def scan? (indices : List Nat) : Option (List (Nat × Entry)) :=
  indices.mapM fun index => do
    let entry ← arena.nodes[index]?
    some (index, entry)

variable {arena}

/-- A position that was read is in range. -/
theorem lt_nodeCount_of_read {index : Nat} {entry : Entry}
    (h : arena.nodes[index]? = some entry) :
    index < arena.nodeCount :=
  (Array.getElem?_eq_some_iff.1 h).1

/-- A position in range can be read. -/
theorem exists_read {index : Nat} (h : index < arena.nodeCount) :
    ∃ entry, arena.nodes[index]? = some entry :=
  ⟨_, Array.getElem?_eq_getElem h⟩

/-- The link of a position, by what was read there. -/
theorem link_of_read {index : Nat} {entry : Entry} (h : arena.nodes[index]? = some entry)
    (link : Entry → Option Nat) : arena.nodes[index]?.bind link = link entry := by
  rw [h, Option.bind_some]

/-! ### Links -/

/-- A position that has a neighbour is in range, and so is the neighbour. -/
theorem Adjacent.lt_nodeCount {i j : Nat} (h : arena.Adjacent i j) :
    i < j ∧ j < arena.nodeCount := by
  obtain ⟨above, record, before, tree, next, later, habove, rfl, rfl⟩ := h
  have hnext : arena.Holds above (.node record ((before ++ [tree]) ++ next :: later)) := by
    rwa [List.append_assoc]
  have hle := hnext.child.index_add_size_le
  rw [index_childPlace, forestSize_snoc] at hle
  have := tree.size_pos
  have := next.size_pos
  omega

/-- **Links lead to positions in range**: all `links` of an entry are below
`nodeCount`. -/
theorem lt_nodeCount_of_mem_links {i j : Nat} {entry : Entry}
    (h : arena.nodes[i]? = some entry) (hmem : j ∈ entry.links) : j < arena.nodeCount := by
  simp only [Entry.links, List.mem_append, Option.mem_toList] at hmem
  rcases hmem with ((hparent | hchild) | hnext) | hprev
  · obtain ⟨-, above, habove, -⟩ := arena.wellLinked.parent_before h hparent
    exact lt_nodeCount_of_read habove
  · obtain ⟨place, tree, hold, rfl, rfl⟩ := getElem?_nodes_eq_some_iff.1 h
    have hle := hold.index_add_size_le
    obtain ⟨record, _ | ⟨child, children⟩⟩ := tree
    · cases hchild
    · obtain rfl : place.index + 1 = j := Option.some.inj hchild
      have := child.size_pos
      rw [size, forestSize] at hle
      omega
  · have hlink : arena.nextSibling? i = some j := (link_of_read h (·.nextSibling)).trans hnext
    exact ((arena.nextSibling?_eq_some_iff i j).1 hlink).lt_nodeCount.2
  · have hlink : arena.prevSibling? i = some j := (link_of_read h (·.prevSibling)).trans hprev
    have := ((arena.prevSibling?_eq_some_iff j i).1 hlink).lt_nodeCount
    omega

/-! ### What was read -/

/-- Positions with the entries that stand there. -/
def Located (arena : Arena) (steps : List (Nat × Entry)) : Prop :=
  ∀ step ∈ steps, arena.nodes[step.1]? = some step.2

namespace Located

variable {steps : List (Nat × Entry)}

/-- Positions that were read are in range. -/
theorem lt_nodeCount (h : arena.Located steps) {index : Nat} (hmem : index ∈ steps.map (·.1)) :
    index < arena.nodeCount := by
  obtain ⟨step, hstep, rfl⟩ := List.mem_map.1 hmem
  exact lt_nodeCount_of_read (h step hstep)

/-- To keep positions by what stands there is to keep them by what was read, if they are
`Located`. -/
theorem filter (h : arena.Located steps) (accept : Entry → Bool) :
    (steps.map (·.1)).filter (fun index => arena.nodes[index]?.any accept) =
      (steps.filter fun step => accept step.2).map (·.1) := by
  rw [List.filter_map]
  refine congrArg (List.map _) (List.filter_congr fun step hstep => ?_)
  rw [Function.comp_apply, h step hstep]
  rfl

/-- To look for a position by what stands there is to look for it by what was read, if it
is `Located`. -/
theorem find? (h : arena.Located steps) (accept : Entry → Bool) :
    (steps.map (·.1)).find? (fun index => arena.nodes[index]?.any accept) =
      (steps.find? fun step => accept step.2).map (·.1) := by
  rw [← List.head?_filter, h.filter, List.head?_map, List.head?_filter]

/-- To follow the first link of some positions is to follow the first that was read. -/
theorem findSome? (h : arena.Located steps) (link : Entry → Option Nat) :
    (steps.map (·.1)).findSome? (fun index => arena.nodes[index]?.bind link) =
      steps.findSome? fun step => link step.2 := by
  induction steps with
  | nil => rfl
  | cons step steps ih =>
    rw [List.map_cons, List.findSome?_cons, List.findSome?_cons, h step List.mem_cons_self,
      ih fun other hother => h other (List.mem_cons_of_mem _ hother)]
    rfl

end Located

/-- One more position that was read. -/
theorem Located.cons {steps : List (Nat × Entry)} {index : Nat} {entry : Entry}
    (hentry : arena.nodes[index]? = some entry) (h : arena.Located steps) :
    arena.Located ((index, entry) :: steps) := by
  intro step hstep
  rcases List.mem_cons.1 hstep with rfl | hstep
  · exact hentry
  · exact h step hstep

/-- `scan?` of positions in range reads all of them. -/
theorem exists_scan? {indices : List Nat} (h : ∀ index ∈ indices, index < arena.nodeCount) :
    ∃ steps, arena.scan? indices = some steps ∧ steps.map (·.1) = indices ∧
      arena.Located steps := by
  induction indices with
  | nil => exact ⟨[], rfl, rfl, fun _ hstep => absurd hstep List.not_mem_nil⟩
  | cons index indices ih =>
    obtain ⟨steps, hscan, hindices, hlocated⟩ :=
      ih fun other hother => h other (List.mem_cons_of_mem _ hother)
    obtain ⟨entry, hentry⟩ := exists_read (h index List.mem_cons_self)
    refine ⟨(index, entry) :: steps, ?_, congrArg (index :: ·) hindices, hlocated.cons hentry⟩
    rw [scan?] at hscan ⊢
    rw [List.mapM_cons, hscan, hentry]
    rfl

/-! ### Climbs -/

/-- `climb?` agrees with `climb`, and what it reads is `Located`. -/
theorem climb_of_climb? {fuel index : Nat} {steps : List (Nat × Entry)}
    (h : arena.climb? fuel index = some steps) :
    arena.climb fuel index = steps.map (·.1) ∧ arena.Located steps := by
  induction fuel generalizing index steps with
  | zero => cases h
  | succ fuel ih =>
    rw [climb?] at h
    obtain ⟨entry, hentry, h⟩ := Option.bind_eq_some_iff.1 h
    have hparent : arena.parent? index = entry.parent := link_of_read hentry (·.parent)
    rw [climb, hparent]
    cases hlink : entry.parent with
    | none =>
      rw [hlink] at h
      obtain rfl := Option.some.inj h
      exact ⟨rfl, fun step hstep => List.mem_singleton.1 hstep ▸ hentry⟩
    | some parent =>
      rw [hlink] at h
      obtain ⟨rest, hrest, h⟩ := Option.bind_eq_some_iff.1 h
      obtain rfl := Option.some.inj h
      obtain ⟨hclimb, hlocated⟩ := ih hrest
      exact ⟨congrArg (index :: ·) hclimb, hlocated.cons hentry⟩

/-- A climb passes its first position. -/
theorem ne_nil_of_climb? {fuel index : Nat} {steps : List (Nat × Entry)}
    (h : arena.climb? fuel index = some steps) : steps ≠ [] := by
  rintro rfl
  obtain ⟨hclimb, -⟩ := climb_of_climb? h
  cases fuel with
  | zero => cases h
  | succ fuel => cases hclimb

/-- The child indices on the way back from the end of a climb. -/
def wayBack (steps : List (Nat × Entry)) : List Nat :=
  (steps.dropLast.map (·.2.childIndex)).reverse

/-- **A climb ends**, and the child indices of `wayBack` lead down to the subtree where it
began. -/
theorem Holds.exists_climb? {place : Place} {tree : Tree} (h : arena.Holds place tree)
    {fuel : Nat} (hfuel : place.index < fuel) :
    ∃ steps, arena.climb? fuel place.index = some steps ∧
      arena.root.descend? (wayBack steps) = some tree := by
  induction fuel generalizing place tree with
  | zero => exact absurd hfuel (Nat.not_lt_zero _)
  | succ fuel ih =>
    have hentry := h.getElem?
    rcases h.parent_cases with ⟨rfl, rfl⟩ | ⟨above, record, before, later, habove, rfl⟩
    · refine ⟨[(rootPlace.index, entryOf (rootPlace, arena.root))], ?_, rfl⟩
      rw [climb?, hentry]
      rfl
    · -- the parent stands before the node, so one step less is enough from there
      have hlt : above.index < fuel := by
        rw [index_childPlace] at hfuel
        omega
      obtain ⟨steps, hsteps, hdescend⟩ := ih habove hlt
      have hparent : (entryOf (childPlace above before tree later, tree)).parent =
          some above.index :=
        parent_childPlace ..
      have hindex : (entryOf (childPlace above before tree later, tree)).childIndex =
          before.length :=
        childIndex_childPlace ..
      refine ⟨((childPlace above before tree later).index,
        entryOf (childPlace above before tree later, tree)) ::
        steps, ?_, ?_⟩
      · rw [climb?, hentry]
        simp only [Option.bind_eq_bind, Option.bind_some, hparent, hsteps]
      · rw [wayBack, List.dropLast_cons_of_ne_nil (ne_nil_of_climb? hsteps), List.map_cons,
          List.reverse_cons, descend?_append, ← wayBack, hdescend, hindex]
        simp [descend?, children]

/-! ### Children -/

/-- `siblingsFrom?` agrees with `siblingsFrom`. -/
theorem siblingsFrom_of_siblingsFrom? {fuel : Nat} {start : Option Nat} {out : List Nat}
    (h : arena.siblingsFrom? fuel start = some out) : arena.siblingsFrom fuel start = out := by
  induction fuel generalizing start out with
  | zero =>
    cases start with
    | none => exact Option.some.inj h
    | some index => cases h
  | succ fuel ih =>
    cases start with
    | none => exact Option.some.inj h
    | some index =>
      rw [siblingsFrom?] at h
      obtain ⟨entry, hentry, h⟩ := Option.bind_eq_some_iff.1 h
      obtain ⟨rest, hrest, h⟩ := Option.bind_eq_some_iff.1 h
      obtain rfl := Option.some.inj h
      have hnext : arena.nextSibling? index = entry.nextSibling :=
        link_of_read hentry (·.nextSibling)
      rw [siblingsFrom, hnext, ih hrest]

/-- `childrenOf?` agrees with `childrenOf`. -/
theorem childrenOf_of_childrenOf? {index : Nat} {children : List Nat}
    (h : arena.childrenOf? index = some children) : arena.childrenOf index = children := by
  obtain ⟨entry, hentry, h⟩ := Option.bind_eq_some_iff.1 h
  have hfirst : arena.firstChild? index = entry.firstChild :=
    link_of_read hentry (·.firstChild)
  rw [childrenOf, hfirst]
  exact siblingsFrom_of_siblingsFrom? h

/-- Siblings in range can be read to their end. -/
theorem siblingsFrom?_eq {start : Option Nat} {positions : List Nat}
    (h : Follows arena.nextSibling? start positions)
    (hrange : ∀ index ∈ positions, index < arena.nodeCount) {fuel : Nat}
    (hfuel : positions.length ≤ fuel) : arena.siblingsFrom? fuel start = some positions := by
  induction h generalizing fuel with
  | done => cases fuel <;> rfl
  | @step index rest _ ih =>
    rw [List.length_cons] at hfuel
    obtain ⟨fuel, rfl⟩ : ∃ k, fuel = k + 1 := ⟨fuel - 1, by omega⟩
    obtain ⟨entry, hentry⟩ := exists_read (hrange index List.mem_cons_self)
    have hnext : arena.nextSibling? index = entry.nextSibling :=
      link_of_read hentry (·.nextSibling)
    have hrest := ih (fun other hother => hrange other (List.mem_cons_of_mem _ hother))
      (Nat.le_of_succ_le_succ hfuel)
    rw [hnext] at hrest
    rw [siblingsFrom?, hentry, Option.bind_eq_bind, Option.bind_some, hrest]
    rfl

/-- The children of a subtree that is held are held at their positions. -/
theorem Holds.forall₂_children {place : Place} {record : NodeRecord} (before rest : List Tree)
    (h : arena.Holds place (.node record (before ++ rest))) :
    List.Forall₂ (fun index tree => ∃ place, arena.Holds place tree ∧ place.index = index)
      (siblingIndices (place.index + 1 + forestSize before) rest) rest := by
  induction rest generalizing before with
  | nil => exact .nil
  | cons child rest ih =>
    have hsplit : arena.Holds place (.node record ((before ++ [child]) ++ rest)) := by
      rwa [List.append_assoc]
    have hrest := ih (before ++ [child]) hsplit
    rw [forestSize_snoc, ← Nat.add_assoc] at hrest
    exact .cons ⟨_, h.child, index_childPlace ..⟩ hrest

/-- **The children of a subtree** that is held can be read: `childrenOf?` gives their
positions. -/
theorem Holds.childrenOf?_eq {place : Place} {record : NodeRecord} {children : List Tree}
    (h : arena.Holds place (.node record children)) :
    arena.childrenOf? place.index = some (siblingIndices (place.index + 1) children) := by
  have hfollows := h.follows_firstChild?
  rw [Arena.firstChild?, h.getElem?, Option.bind_some] at hfollows
  have hrange : ∀ index ∈ siblingIndices (place.index + 1) children, index <
      arena.nodeCount := by
    intro index hmem
    obtain ⟨before, child, later, rfl, rfl⟩ := mem_siblingIndices_iff.1 hmem
    have := h.child.index_add_size_le
    have := child.size_pos
    rw [index_childPlace] at *
    omega
  rw [childrenOf?, h.getElem?, Option.bind_eq_bind, Option.bind_some]
  refine siblingsFrom?_eq hfollows hrange ?_
  have hlen := length_le_forestSize children
  have hle := h.index_add_size_le
  rw [size] at hle
  rw [length_siblingIndices]
  omega

/-! ### Walks -/

/-- `nextStack`, by what was read. -/
theorem nextStack_of_read {t : SyntaxTree} {index : Nat} {entry : Entry}
    (h : t.nodes[index]? = some entry) (start : Nat) (stack : List Nat) :
    t.nextStack start index stack = stackAfter start index entry stack := by
  rw [SyntaxTree.nextStack, nextSibling?, firstChild?, h]
  rfl

/-- `walk?` agrees with `walk`. -/
theorem walk_of_walk? {t : SyntaxTree} {start fuel : Nat} {stack out : List Nat}
    (h : t.walk? start fuel stack = some out) : t.walk start fuel stack = out := by
  induction fuel generalizing stack out with
  | zero =>
    cases stack with
    | nil => exact Option.some.inj h
    | cons index stack => cases h
  | succ fuel ih =>
    cases stack with
    | nil => exact Option.some.inj h
    | cons index stack =>
      rw [walk?] at h
      obtain ⟨entry, hentry, h⟩ := Option.bind_eq_some_iff.1 h
      obtain ⟨rest, hrest, h⟩ := Option.bind_eq_some_iff.1 h
      obtain rfl := Option.some.inj h
      rw [SyntaxTree.walk, nextStack_of_read hentry, ih hrest]

/-- `walkOnce?` agrees with `walkOnce`. -/
theorem walkOnce_of_walkOnce? {t : SyntaxTree} {start fuel : Nat}
    {visited stack out : List Nat} (h : t.walkOnce? start fuel visited stack = some out) :
    t.walkOnce start fuel visited stack = out := by
  induction fuel generalizing visited stack out with
  | zero =>
    cases stack with
    | nil => exact Option.some.inj h
    | cons index stack => cases h
  | succ fuel ih =>
    cases stack with
    | nil => exact Option.some.inj h
    | cons index stack =>
      rw [walkOnce?] at h
      obtain ⟨entry, hentry, h⟩ := Option.bind_eq_some_iff.1 h
      rw [SyntaxTree.walkOnce, nextStack_of_read hentry]
      dsimp only at h ⊢
      split at h
      next hvisited =>
        rw [if_pos hvisited, ih h]
      next hvisited =>
        obtain ⟨rest, hrest, h⟩ := Option.bind_eq_some_iff.1 h
        obtain rfl := Option.some.inj h
        rw [if_neg hvisited, ih hrest]

/-- `walkOnce?` has nothing to pass over where `walk?` comes to no node twice. -/
theorem walkOnce?_of_walk? {start fuel : Nat} {visited stack out : List Nat}
    (h : arena.walk? start fuel stack = some out) (hnodup : out.Nodup)
    (hfresh : ∀ index ∈ out, index ∉ visited) :
    arena.walkOnce? start fuel visited stack = some out := by
  induction fuel generalizing visited stack out with
  | zero =>
    cases stack with
    | nil => exact h
    | cons index stack => cases h
  | succ fuel ih =>
    cases stack with
    | nil => exact h
    | cons index stack =>
      rw [walk?] at h
      obtain ⟨entry, hentry, h⟩ := Option.bind_eq_some_iff.1 h
      obtain ⟨rest, hrest, h⟩ := Option.bind_eq_some_iff.1 h
      obtain rfl := Option.some.inj h
      obtain ⟨hnew, hnodup⟩ := List.nodup_cons.1 hnodup
      have hunvisited : ¬visited.contains index = true := by
        rw [List.contains_iff_mem]
        exact hfresh index List.mem_cons_self
      -- what comes later was not visited before, nor is it this position
      have hfresh' : ∀ other ∈ rest, other ∉ index :: visited := by
        intro other hother hvisited
        rcases List.mem_cons.1 hvisited with rfl | hvisited
        · exact hnew hother
        · exact hfresh other (List.mem_cons_of_mem _ hother) hvisited
      rw [walkOnce?, hentry, Option.bind_eq_bind, Option.bind_some]
      dsimp only
      rw [if_neg hunvisited, ih hrest hnodup hfresh']
      rfl

/-- A walk with a subtree's first child on its stack passes what is below the subtree's
root, and goes on with the rest of the stack. -/
def WalksBelow (arena : Arena) (start : Nat) (place : Place) (tree : Tree) : Prop :=
  ∀ fuel stack,
    arena.walk? start (forestSize tree.children + fuel)
      (pushOn stack (arena.firstChild? place.index)) =
      (arena.walk? start fuel stack).map
        (List.range' (place.index + 1) (forestSize tree.children) ++ ·)

/-- A walk with a sibling on its stack passes the subtrees of the sibling and those after
it, and goes on with the rest of the stack. -/
theorem Holds.walk?_siblings {place : Place} {record : NodeRecord} {start : Nat}
    (before rest : List Tree) (h : arena.Holds place (.node record (before ++ rest)))
    (hstart : start ≤ place.index)
    (hbelow : ∀ child ∈ rest, ∀ place', arena.Holds place' child → place.index ≤ place'.index →
      arena.WalksBelow start place' child)
    (fuel : Nat) (stack : List Nat) :
    arena.walk? start (forestSize rest + fuel)
        (pushOn stack (if rest.isEmpty then none
          else some (place.index + 1 + forestSize before))) =
      (arena.walk? start fuel stack).map
        (List.range' (place.index + 1 + forestSize before) (forestSize rest) ++ ·) := by
  induction rest generalizing before stack with
  | nil =>
    rw [forestSize, Nat.zero_add]
    exact Option.map_id'.symm
  | cons child rest ih =>
    have hchild := h.child
    have hentry := hchild.getElem?
    have hsplit : arena.Holds place (.node record ((before ++ [child]) ++ rest)) := by
      rwa [List.append_assoc]
    -- the next sibling goes on the stack below the first child, and its turn comes after
    -- the child's subtree
    have hafter (stack : List Nat) : stackAfter start (place.index + 1 + forestSize before)
        (entryOf (childPlace place before child rest, child)) stack =
          pushOn (pushOn stack (if rest.isEmpty then none
            else some (place.index + 1 + forestSize (before ++ [child]))))
            (arena.firstChild? (childPlace place before child rest).index) := by
      rw [stackAfter, if_neg (by omega), hchild.firstChild?, forestSize_snoc, ← Nat.add_assoc]
      exact congrArg (fun next => pushOn (pushOn stack next) _) (nextSibling_childPlace ..)
    have hchild' := hbelow child List.mem_cons_self _ hchild (by rw [index_childPlace]; omega)
    have hrest := ih (before ++ [child]) hsplit fun other hother =>
      hbelow other (List.mem_cons_of_mem _ hother)
    rw [index_childPlace] at hentry
    have hfuel : forestSize (child :: rest) + fuel =
        forestSize child.children + (forestSize rest + fuel) + 1 := by
      rw [forestSize, size_eq]
      omega
    have hstack :
        pushOn stack (if (child :: rest).isEmpty then none
          else some (place.index + 1 + forestSize before)) =
          (place.index + 1 + forestSize before) :: stack := rfl
    have hpositions : List.range' (place.index + 1 + forestSize before)
        (forestSize (child :: rest)) =
        (place.index + 1 + forestSize before) ::
          (List.range' (place.index + 1 + forestSize before + 1) (forestSize child.children) ++
            List.range' (place.index + 1 + forestSize (before ++ [child]))
              (forestSize rest)) := by
      rw [forestSize, ← List.range'_append_1, forestSize_snoc, ← Nat.add_assoc, size_eq,
        List.range'_succ]
      rfl
    rw [hfuel, hstack, walk?, hentry, Option.bind_eq_bind, Option.bind_some, hafter,
      hchild', hrest, index_childPlace, hpositions]
    cases arena.walk? start fuel stack with
    | none => rfl
    | some out => simp

/-- **What is below a subtree's root** is walked through in order, by induction over the
tree (`WalksBelow`). -/
theorem Holds.walksBelow {place : Place} {tree : Tree} (h : arena.Holds place tree)
    {start : Nat} (hstart : start ≤ place.index) : arena.WalksBelow start place tree := by
  induction tree using Tree.induct generalizing place with
  | step record children ih =>
    intro fuel stack
    rw [h.firstChild?]
    exact Holds.walk?_siblings [] children h hstart
      (fun child hmem place' hold hle => ih child hmem hold (Nat.le_trans hstart hle))
      fuel stack

/-- **A walk passes the positions of a subtree**, in order: `walk?` gives the interval of
its positions. -/
theorem Holds.walk?_eq {place : Place} {tree : Tree} (h : arena.Holds place tree) :
    arena.walk? place.index arena.nodeCount [place.index] =
      some (List.range' place.index tree.size) := by
  obtain ⟨spare, hspare⟩ := Nat.exists_eq_add_of_le (Nat.le_of_add_left_le h.index_add_size_le)
  have hfuel : arena.nodeCount = forestSize tree.children + spare + 1 := by
    rw [hspare, size_eq]
    omega
  have hstart : stackAfter place.index place.index (entryOf (place, tree)) [] =
      pushOn [] (arena.firstChild? place.index) := by
    rw [stackAfter, if_pos rfl, h.firstChild?]
    rfl
  have hbelow := h.walksBelow (Nat.le_refl place.index) spare []
  rw [hfuel, walk?, h.getElem?, Option.bind_eq_bind, Option.bind_some, hstart, hbelow, size_eq,
    List.range'_succ]
  cases spare <;> simp [walk?]

/-! ### Searches -/

/-- `deeper?` agrees with `deeper`. -/
theorem deeper_of_deeper? {t : SyntaxTree} {maxDepth : Option Nat} {index level : Nat}
    {stack stack' : List (Nat × Nat)}
    (h : t.deeper? maxDepth index level stack = some stack') :
    t.deeper maxDepth index level stack = stack' := by
  rw [deeper?] at h
  rw [SyntaxTree.deeper]
  split at h
  next hdeep =>
    rw [if_pos hdeep]
    exact Option.some.inj h
  next hdeep =>
    obtain ⟨children, hchildren, h⟩ := Option.bind_eq_some_iff.1 h
    rw [if_neg hdeep, childrenOf_of_childrenOf? hchildren]
    exact Option.some.inj h

/-- `search?` agrees with `search` and finds positions in range. -/
theorem search_of_search? {t : SyntaxTree} {accept : Entry → Bool}
    {maxDepth room : Option Nat} {fuel : Nat} {stack : List (Nat × Nat)} {out : List Nat}
    (h : t.search? accept maxDepth fuel room stack = some out) :
    t.search accept maxDepth fuel room stack = out ∧ ∀ index ∈ out, index < t.nodeCount := by
  induction fuel generalizing room stack out with
  | zero =>
    cases stack with
    | nil =>
      obtain rfl := Option.some.inj h
      exact ⟨rfl, fun _ hmem => absurd hmem List.not_mem_nil⟩
    | cons slot stack => cases h
  | succ fuel ih =>
    cases stack with
    | nil =>
      obtain rfl := Option.some.inj h
      exact ⟨rfl, fun _ hmem => absurd hmem List.not_mem_nil⟩
    | cons slot stack =>
      obtain ⟨index, level⟩ := slot
      rw [search?] at h
      obtain ⟨entry, hentry, h⟩ := Option.bind_eq_some_iff.1 h
      have haccept : t.nodes[index]?.any accept = accept entry := by rw [hentry]; rfl
      rw [SyntaxTree.search, haccept]
      have hindex := lt_nodeCount_of_read hentry
      split at h
      next hyes =>
        rw [if_pos hyes]
        split at h
        next hfull =>
          obtain rfl := Option.some.inj h
          rw [if_pos hfull]
          exact ⟨rfl, fun other hmem => List.mem_singleton.1 hmem ▸ hindex⟩
        next hfull =>
          obtain ⟨stack', hdeeper, h⟩ := Option.bind_eq_some_iff.1 h
          obtain ⟨rest, hrest, h⟩ := Option.bind_eq_some_iff.1 h
          obtain rfl := Option.some.inj h
          obtain ⟨hsearch, hrange⟩ := ih hrest
          rw [if_neg hfull, deeper_of_deeper? hdeeper, hsearch]
          exact ⟨rfl, List.forall_mem_cons.2 ⟨hindex, hrange⟩⟩
      next hno =>
        obtain ⟨stack', hdeeper, h⟩ := Option.bind_eq_some_iff.1 h
        rw [if_neg hno, deeper_of_deeper? hdeeper]
        exact ih h

/-- The positions on the stack of a search are those of subtrees that are held. -/
def Stacked (arena : Arena) (stack : List (Nat × Nat)) (trees : List Tree) : Prop :=
  List.Forall₂ (fun slot tree => ∃ place, arena.Holds place tree ∧ place.index = slot.1)
    stack trees

/-- After `deeper?` the subtrees on the stack have fewer nodes together. -/
theorem Stacked.exists_deeper? {stack : List (Nat × Nat)} {trees : List Tree}
    {index level : Nat} {tree : Tree}
    (h : arena.Stacked ((index, level) :: stack) (tree :: trees)) (maxDepth : Option Nat) :
    ∃ stack' trees', arena.deeper? maxDepth index level stack = some stack' ∧
      arena.Stacked stack' trees' ∧
      forestSize trees' < forestSize (tree :: trees) := by
  obtain ⟨⟨place, hold, rfl⟩, hstack⟩ := List.forall₂_cons.1 h
  rw [forestSize, size_eq]
  by_cases hdeep : maxDepth.any (· ≤ level) = true
  · exact ⟨stack, trees, if_pos hdeep, hstack, by omega⟩
  · obtain ⟨record, children⟩ := tree
    have hchildren := Holds.forall₂_children [] children hold
    refine ⟨(siblingIndices (place.index + 1) children).map
      (fun child => (child, level + 1)) ++ stack, children ++ trees, ?_, ?_, ?_⟩
    · rw [deeper?, if_neg hdeep, hold.childrenOf?_eq]
      rfl
    · exact List.rel_append (List.forall₂_map_left_iff.2 hchildren) hstack
    · rw [forestSize_append]
      exact Nat.add_lt_add_right (Nat.lt_succ_self _) _

/-- **A search ends** within as many steps as the subtrees on its stack have nodes:
`search?` has a result. -/
theorem exists_search? (accept : Entry → Bool) (maxDepth : Option Nat) {fuel : Nat}
    {stack : List (Nat × Nat)} {trees : List Tree} (h : arena.Stacked stack trees)
    (hfuel : forestSize trees ≤ fuel) (room : Option Nat) :
    ∃ out, arena.search? accept maxDepth fuel room stack = some out := by
  induction fuel generalizing stack trees room with
  | zero =>
    cases h with
    | nil => exact ⟨[], rfl⟩
    | @cons slot tree stack trees hslot hstack =>
      have := tree.size_pos
      rw [forestSize] at hfuel
      omega
  | succ fuel ih =>
    cases h with
    | nil => exact ⟨[], rfl⟩
    | @cons slot tree stack trees hslot hstack =>
      obtain ⟨index, level⟩ := slot
      -- a step leaves fewer nodes on the stack, so there is fuel for the rest
      obtain ⟨stack', trees', hdeeper, hstacked, hfewer⟩ :=
        Stacked.exists_deeper? (List.Forall₂.cons hslot hstack) maxDepth
      obtain ⟨place, hold, rfl⟩ := hslot
      obtain ⟨out, hout⟩ := ih hstacked (by omega) room
      obtain ⟨out', hout'⟩ := ih hstacked (by omega) (room.map (· - 1))
      rw [search?, hold.getElem?, Option.bind_eq_bind, Option.bind_some, hdeeper,
        Option.bind_eq_bind, Option.bind_eq_bind, Option.bind_some, Option.bind_some,
        hout, hout']
      split
      · split
        · exact ⟨_, rfl⟩
        · exact ⟨_, rfl⟩
      · exact ⟨_, rfl⟩

end Arena

end SourceOutline
