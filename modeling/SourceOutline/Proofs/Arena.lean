import SourceOutline.Tree.Arena

/-!
# What an Arena Holds

The arena of a tree is built by a walk that patches earlier entries as it goes. This
module says what comes out of it by a recursion on the tree: `placed place tree` lists the
nodes of a tree in pre-order, each with its place when the root has the given one. Places
need no search, since a tree whose root stands at `i` takes the positions from `i` up to
`i + size`.

The link between the two is an adequacy statement for the walk. A walk that stands at a
tree visits all of it and then moves on as if it had left the root of that tree; until
then the entries of the open ancestors are behind by exactly the children that have not
been visited (`run_tree`, `run_siblings`).

## Main results

* `map_snd_placed`: the placed nodes of a tree are its nodes in pre-order.
* `run_tree`: a walk that stands at a tree adds the entries of its placed nodes.
* `flatten_eq_placed`: the arena of a tree is the list of its placed nodes.
-/

namespace SourceOutline.Tree

/-- Where a node stands in an arena. -/
structure Place where
  /-- The position of the node. -/
  index : Nat
  parent : Option Nat
  prevSibling : Option Nat
  nextSibling : Option Nat
  childIndex : Nat
  depth : Nat
  deriving DecidableEq, Repr, Inhabited

/-- The place of the first of some siblings, when the following ones are `later`. -/
def firstPlace (parent index : Nat) (prevSibling : Option Nat) (childIndex depth : Nat)
    (tree : Tree) (later : List Tree) : Place where
  index := index
  parent := some parent
  prevSibling := prevSibling
  nextSibling := if later.isEmpty then none else some (index + tree.size)
  childIndex := childIndex
  depth := depth

mutual

/-- The nodes of a tree in pre-order with their places, when the root has the given place. -/
def placed (place : Place) : Tree → List (Place × Tree)
  | .node record children =>
    (place, .node record children)
      :: placedSiblings place.index (place.index + 1) none 0 (place.depth + 1) children

/-- The nodes of some siblings with their places, when the first of them stands at `index`. -/
def placedSiblings (parent index : Nat) (prevSibling : Option Nat) (childIndex depth : Nat) :
    List Tree → List (Place × Tree)
  | [] => []
  | tree :: later =>
    tree.placed (firstPlace parent index prevSibling childIndex depth tree later)
      ++ placedSiblings parent (index + tree.size) (some index) (childIndex + 1) depth later

end

/-- The `Entry` of a placed node. -/
def entryOf (x : Place × Tree) : Entry where
  record := x.2.record
  parent := x.1.parent
  firstChild := if x.2.children.isEmpty then none else some (x.1.index + 1)
  nextSibling := x.1.nextSibling
  prevSibling := x.1.prevSibling
  childIndex := x.1.childIndex
  childCount := x.2.children.length
  namedChildCount := x.2.children.countP (·.record.isNamed)
  depth := x.1.depth

/-- The place of a whole tree. -/
def rootPlace : Place where
  index := 0
  parent := none
  prevSibling := none
  nextSibling := none
  childIndex := 0
  depth := 0

mutual

/-- `placed` has one element for each node of a tree. -/
theorem length_placed (place : Place) : ∀ tree : Tree, (tree.placed place).length = tree.size
  | .node _ children => by
    rw [placed, size, List.length_cons, length_placedSiblings]
    omega

/-- `placedSiblings` has one element for each node of the siblings. -/
theorem length_placedSiblings (parent index : Nat) (prevSibling : Option Nat)
    (childIndex depth : Nat) : ∀ trees : List Tree,
    (placedSiblings parent index prevSibling childIndex depth trees).length = forestSize trees
  | [] => rfl
  | tree :: later => by
    rw [placedSiblings, forestSize, List.length_append, length_placed, length_placedSiblings]

end

mutual

/-- The nodes in `placed` are those of `preorder`. -/
theorem map_snd_placed (place : Place) :
    ∀ tree : Tree, (tree.placed place).map (·.2) = tree.preorder
  | .node record children => by
    rw [placed, preorder, List.map_cons, map_snd_placedSiblings]

/-- The nodes in `placedSiblings` are those of `forestPreorder`. -/
theorem map_snd_placedSiblings (parent index : Nat) (prevSibling : Option Nat)
    (childIndex depth : Nat) : ∀ trees : List Tree,
    (placedSiblings parent index prevSibling childIndex depth trees).map (·.2) =
      forestPreorder trees
  | [] => rfl
  | tree :: later => by
    rw [placedSiblings, forestPreorder, List.map_append, map_snd_placed,
      map_snd_placedSiblings]

end

/-! ### The walk -/

/-- The entry of a node after it was given children, the first of which stands at `index`. -/
def addChildren (entry : Entry) (index : Nat) : List Tree → Entry
  | [] => entry
  | child :: later =>
    addChildren (entry.addChild index child.record.isNamed) (index + child.size) later

/-- What `addChildren` adds to an entry, all at once. -/
theorem addChildren_eq (entry : Entry) (index : Nat) (children : List Tree) :
    addChildren entry index children =
      { entry with
        firstChild := entry.firstChild.or (if children.isEmpty then none else some index)
        childCount := entry.childCount + children.length
        namedChildCount := entry.namedChildCount + children.countP (·.record.isNamed) } := by
  induction children generalizing entry index with
  | nil => simp [addChildren]
  | cons child later ih =>
    rw [addChildren, ih]
    by_cases hn : child.record.isNamed <;> simp [Entry.addChild, hn] <;> omega

namespace Walk

/-- What is left of a walk with the given entries when its next move is known. -/
def resume (fuel : Nat) (nodes : Array Entry) : Option (Cursor × OpenNodes) → Array Entry
  | some (cursor, opened) => run fuel { cursor, nodes, opened }
  | none => nodes

/-- The number of children that the node at a position has so far. -/
def childCountAt (nodes : Array Entry) (index : Nat) : Nat :=
  ((nodes[index]?).map (·.childCount)).getD 0

/-- The entries up to a node's children, brought up to date with those children that
follow the child `last`. -/
def linkAll (nodes : Array Entry) (parent : Nat) (last : Option Nat) : List Tree → Array Entry
  | [] => nodes
  | child :: later =>
    let linked := nodes.modify parent (addChildren · nodes.size (child :: later))
    match last with
    | some prev => linked.modify prev (·.precede nodes.size)
    | none => linked

/-- The place that a walk gives to the node it has come to, before any later sibling is
seen. -/
def arrival (nodes : Array Entry) (opened : OpenNodes) : Place where
  index := nodes.size
  parent := opened.head?.map (·.1)
  prevSibling := opened.head?.bind (·.2)
  nextSibling := none
  childIndex := ((opened.head?.map (·.1)).map (childCountAt nodes)).getD 0
  depth := opened.length

/-- The nearest ancestor and its last child are among the entries so far. -/
def Fits (size : Nat) : OpenNodes → Prop
  | [] => True
  | (parent, last) :: _ => parent < size ∧ ∀ prev, last = some prev → parent < prev ∧
    prev < size

/-- One step of `run`: visit the node at hand, then go where `move` leads. -/
theorem run_succ (fuel : Nat) (cursor : Cursor) (nodes : Array Entry) (opened : OpenNodes) :
    run (fuel + 1) { cursor, nodes, opened } =
      resume fuel (visit nodes opened cursor.focus.record)
        (move cursor nodes.size (note nodes.size opened)) := by
  rw [run]
  cases move cursor nodes.size (note nodes.size opened) <;> rfl

/-- Going down to the children of a node is a `leave` from what would stand before
them. -/
theorem move_eq_leave (cursor : Cursor) (index : Nat) (opened : OpenNodes) :
    move cursor index opened =
      leave cursor.focus.children (cursor.later :: cursor.above)
        ((index, none) :: opened) := by
  rw [move]
  cases cursor.focus.children <;> rfl

/-- `link` changes entries and adds none. -/
@[simp] theorem size_link (nodes : Array Entry) (index : Nat) (isNamed : Bool)
    (opened : OpenNodes) :
    (link nodes index isNamed opened).size = nodes.size := by
  rcases opened with _ | ⟨⟨parent, _ | prev⟩, opened⟩ <;> simp [link]

/-- A change before the end of the first array does not touch the second one. -/
theorem modify_append_of_lt {xs : Array Entry} {i : Nat} (h : i < xs.size) (ys : Array Entry)
    (f : Entry → Entry) : (xs ++ ys).modify i f = xs.modify i f ++ ys := by
  apply Array.ext_getElem?
  intro j
  simp only [Array.getElem?_modify, Array.getElem?_append, Array.size_modify]
  by_cases hj : j < xs.size
  · simp [hj]
  · have hne : i ≠ j := by omega
    simp [hj, hne]

/-- A change right at the end of the first array touches the first element of the second
one. -/
theorem modify_append_of_eq {xs : Array Entry} {i : Nat} (h : i = xs.size) (ys : Array Entry)
    (entry : Entry) (f : Entry → Entry) :
    (xs ++ (#[entry] ++ ys)).modify i f = xs ++ (#[f entry] ++ ys) := by
  subst h
  apply Array.ext_getElem?
  intro j
  simp only [Array.getElem?_modify, Array.getElem?_append]
  rcases Nat.lt_trichotomy j xs.size with hj | rfl | hj
  · simp [hj, Nat.ne_of_gt hj]
  · simp
  · have hsub : ¬ j - xs.size < 1 := by omega
    simp [Nat.not_lt_of_gt hj, Nat.ne_of_lt hj, hsub]

/-- A change before the end does not touch a new element. -/
theorem modify_push_of_lt {xs : Array Entry} {i : Nat} (h : i < xs.size) (entry : Entry)
    (f : Entry → Entry) : (xs.push entry).modify i f = (xs.modify i f).push entry := by
  rw [Array.push_eq_append, modify_append_of_lt h, ← Array.push_eq_append]

/-- Changes at different places can be made in any order. -/
theorem modify_comm {i j : Nat} (h : i ≠ j) (xs : Array Entry) (f g : Entry → Entry) :
    (xs.modify i f).modify j g = (xs.modify j g).modify i f := by
  apply Array.ext_getElem?
  intro k
  simp only [Array.getElem?_modify]
  by_cases hi : i = k <;> by_cases hj : j = k <;> simp [hi, hj]
  omega

/-- Links go to earlier entries only, so `visit` may make them before the new entry is
there. -/
theorem visit_eq_push {nodes : Array Entry} {opened : OpenNodes} (h : Fits nodes.size opened)
    (record : NodeRecord) :
    visit nodes opened record =
      (link nodes nodes.size record.isNamed opened).push (newEntry nodes opened record) := by
  rcases opened with _ | ⟨⟨parent, _ | prev⟩, opened⟩
  · rfl
  · rw [visit, link, modify_push_of_lt h.1]
    rfl
  · have hprev := (h.2 prev rfl).2
    rw [visit, link, modify_push_of_lt h.1, modify_push_of_lt (by simpa using hprev)]
    rfl

/-- A `newEntry` with all its children is that of a placed node, up to the next
sibling. -/
theorem addChildren_newEntry (nodes : Array Entry) (opened : OpenNodes) (record : NodeRecord)
    (children : List Tree) :
    addChildren (newEntry nodes opened record) (nodes.size + 1) children =
      entryOf (arrival nodes opened, .node record children) := by
  rw [addChildren_eq]
  rcases opened with _ | ⟨⟨parent, last⟩, opened⟩ <;>
    simp [newEntry, entryOf, arrival, childCountAt, Tree.record, Tree.children]

/-- `linkAll` changes nothing before a node that has just been visited but for its own
children. -/
theorem linkAll_push {nodes : Array Entry} {index : Nat} (h : nodes.size = index)
    (entry : Entry) (children : List Tree) :
    linkAll (nodes.push entry) index none children =
      nodes.push (addChildren entry (index + 1) children) := by
  cases children with
  | nil => rfl
  | cons child later =>
    have hlast :=
      modify_append_of_eq h.symm #[] entry (addChildren · (index + 1) (child :: later))
    rw [Array.append_empty, Array.append_empty, ← Array.push_eq_append,
      ← Array.push_eq_append] at hlast
    rw [linkAll, Array.size_push, h]
    exact hlast

/-- To `link` the first of some children and then count the others is `linkAll`, up to the
siblings. -/
theorem modify_link {nodes : Array Entry} {parent : Nat} {last : Option Nat}
    {opened : OpenNodes} (h : Fits nodes.size ((parent, last) :: opened)) (child : Tree)
    (later : List Tree) :
    (link nodes nodes.size child.record.isNamed ((parent, last) :: opened)).modify parent
        (addChildren · (nodes.size + child.size) later) =
      linkAll nodes parent last (child :: later) := by
  obtain ⟨-, hl⟩ := h
  have hself : (nodes.modify parent (·.addChild nodes.size child.record.isNamed)).modify parent
        (addChildren · (nodes.size + child.size) later) =
      nodes.modify parent (addChildren · nodes.size (child :: later)) := by
    apply Array.ext_getElem?
    intro i
    simp only [Array.getElem?_modify, addChildren]
    split
    · rw [Option.map_map]; rfl
    · rfl
  cases last with
  | none => exact hself
  | some prev =>
    have hne : prev ≠ parent := Nat.ne_of_gt (hl prev rfl).1
    rw [link, modify_comm hne, hself]
    rfl

/-- To `link` the first of some children and then the others is `linkAll` of all of them:
the first one, whose entries come last, learns of its next sibling. -/
theorem linkAll_append {nodes : Array Entry} {parent : Nat} {last : Option Nat}
    {opened : OpenNodes} (h : Fits nodes.size ((parent, last) :: opened)) (child : Tree)
    (later : List Tree) (entry : Entry) (entries : Array Entry)
    (hsize : entries.size + 1 = child.size) :
    linkAll (link nodes nodes.size child.record.isNamed ((parent, last) :: opened) ++
      (#[entry] ++ entries))
        parent (some nodes.size) later =
      linkAll nodes parent last (child :: later) ++
        (#[if later.isEmpty then entry else entry.precede (nodes.size + child.size)] ++
          entries) := by
  cases later with
  | nil => cases last <;> rfl
  | cons next later =>
    have hlen := size_link nodes nodes.size child.record.isNamed ((parent, last) :: opened)
    have hlink := modify_link h child (next :: later)
    generalize link nodes nodes.size child.record.isNamed ((parent, last) :: opened) =
      linked at hlen hlink ⊢
    have hall : (linked ++ (#[entry] ++ entries)).size = nodes.size + child.size := by
      simp only [Array.size_append, hlen, List.size_toArray, List.length_singleton]
      omega
    have hparent : parent < linked.size := hlen ▸ h.1
    have hchild : nodes.size = (linked.modify parent
        (addChildren · (nodes.size + child.size) (next :: later))).size := by
      rw [Array.size_modify, hlen]
    rw [linkAll, hall, modify_append_of_lt hparent, modify_append_of_eq hchild, hlink]
    rfl

/-- The entries of a tree, those of its root first. -/
theorem entries_placed (place : Place) (record : NodeRecord) (children : List Tree) :
    ((placed place (.node record children)).map entryOf).toArray =
      #[entryOf (place, .node record children)] ++
        ((placedSiblings place.index (place.index + 1) none 0 (place.depth + 1) children).map
          entryOf).toArray := by
  rw [placed, List.map_cons]
  apply Array.ext'
  simp

/-- At its `firstPlace` the root of a tree has the entry of its `arrival` when no sibling
follows, and else learns of that one. -/
theorem entryOf_firstPlace (nodes : Array Entry) (parent : Nat) (last : Option Nat)
    (opened : OpenNodes) (child : Tree) (later : List Tree) :
    entryOf (firstPlace parent nodes.size last (childCountAt nodes parent) (opened.length + 1)
        child later, child) =
      if later.isEmpty then entryOf (arrival nodes ((parent, last) :: opened), child)
      else (entryOf (arrival nodes ((parent, last) :: opened), child)).precede
        (nodes.size + child.size) := by
  cases later <;> rfl

/-- A child that `link` has added is counted by `childCountAt`, also when more entries
follow. -/
theorem childCountAt_link {nodes : Array Entry} {parent : Nat} {last : Option Nat}
    {opened : OpenNodes} (h : Fits nodes.size ((parent, last) :: opened)) (index : Nat)
    (isNamed : Bool) (entries : Array Entry) :
    childCountAt (link nodes index isNamed ((parent, last) :: opened) ++ entries) parent =
      childCountAt nodes parent + 1 := by
  obtain ⟨hp, hl⟩ := h
  cases last with
  | none =>
    simp only [childCountAt, link]
    rw [Array.getElem?_append_left (by simpa using hp), Array.getElem?_modify, if_pos rfl,
      Array.getElem?_eq_getElem hp]
    rfl
  | some prev =>
    have hne : prev ≠ parent := Nat.ne_of_gt (hl prev rfl).1
    simp only [childCountAt, link]
    rw [Array.getElem?_append_left (by simpa using hp), Array.getElem?_modify, if_neg hne,
      Array.getElem?_modify, if_pos rfl, Array.getElem?_eq_getElem hp]
    rfl

/-- The entries of a child of an open node, when `linkAll` has linked its later siblings
as well. -/
theorem linkAll_entries {nodes : Array Entry} {parent : Nat} {last : Option Nat}
    {opened : OpenNodes} (h : Fits nodes.size ((parent, last) :: opened)) (child : Tree)
    (later : List Tree) :
    linkAll
        (link nodes nodes.size child.record.isNamed ((parent, last) :: opened) ++
          ((child.placed (arrival nodes ((parent, last) :: opened))).map entryOf).toArray)
        parent (some nodes.size) later =
      linkAll nodes parent last (child :: later) ++
        ((child.placed (firstPlace parent nodes.size last (childCountAt nodes parent)
          (opened.length + 1)
          child later)).map entryOf).toArray := by
  obtain ⟨record, children⟩ := child
  rw [entries_placed, entries_placed, linkAll_append h, entryOf_firstPlace]
  · rfl
  · rw [List.size_toArray, List.length_map, length_placedSiblings, size]
    omega

mutual

/-- **A walk that stands at a tree** visits all of it: `run` adds the entries of `placed`
and moves on from the root. -/
theorem run_tree (fuel : Nat) (later : List Tree) (above : List (List Tree))
    (nodes : Array Entry) (opened : OpenNodes) (h : Fits nodes.size opened) : ∀ tree : Tree,
    run (tree.size + fuel) { cursor := { focus := tree, later, above }, nodes, opened } =
      resume fuel
        (link nodes nodes.size tree.record.isNamed opened ++
          ((tree.placed (arrival nodes opened)).map entryOf).toArray)
        (leave later above (note nodes.size opened))
  | .node record children => by
    have hsize : (node record children).size + fuel = forestSize children + fuel + 1 := by
      rw [size]; omega
    have hlen := size_link nodes nodes.size record.isNamed opened
    have hdepth : (note nodes.size opened).length = opened.length := by
      rcases opened with _ | ⟨⟨_, _⟩, _⟩ <;> rfl
    rw [hsize, run_succ, move_eq_leave, visit_eq_push h, entries_placed]
    simp only [Tree.record, Tree.children]
    generalize link nodes nodes.size record.isNamed opened = linked at hlen ⊢
    have hnew : childCountAt (linked.push (newEntry nodes opened record)) nodes.size = 0 := by
      rw [childCountAt, ← hlen, Array.getElem?_push_size]
      rfl
    have hfit : Fits (linked.push (newEntry nodes opened record)).size
        ((nodes.size, none) :: note nodes.size opened) := by
      refine ⟨?_, by simp⟩
      rw [Array.size_push, hlen]
      omega
    rw [run_siblings fuel later above _ nodes.size none _ hfit children, linkAll_push hlen,
      hnew, hdepth, addChildren_newEntry, Array.push_eq_append, Array.append_assoc,
      Array.size_push, hlen]
    rfl

/-- **A walk that is about to go on among siblings** visits them: `resume` adds the
entries of `placedSiblings` and moves on from their parent. -/
theorem run_siblings (fuel : Nat) (below : List Tree) (above : List (List Tree))
    (nodes : Array Entry) (parent : Nat) (last : Option Nat) (opened : OpenNodes)
    (h : Fits nodes.size ((parent, last) :: opened)) : ∀ children : List Tree,
    resume (forestSize children + fuel) nodes
        (leave children (below :: above) ((parent, last) :: opened)) =
      resume fuel
        (linkAll nodes parent last children ++
          ((placedSiblings parent nodes.size last (childCountAt nodes parent)
            (opened.length + 1)
            children).map entryOf).toArray)
        (leave below above opened)
  | [] => by simp [forestSize, leave, linkAll, placedSiblings]
  | child :: later => by
    have hsize : forestSize (child :: later) + fuel =
        child.size + (forestSize later + fuel) := by
      rw [forestSize]; omega
    have hlen := size_link nodes nodes.size child.record.isNamed ((parent, last) :: opened)
    have hnext : nodes.size + child.size =
        (link nodes nodes.size child.record.isNamed ((parent, last) :: opened) ++
          ((child.placed (arrival nodes ((parent, last) :: opened))).map
            entryOf).toArray).size := by
      simp only [Array.size_append, hlen, List.size_toArray, List.length_map, length_placed]
    have hfit : Fits (nodes.size + child.size) ((parent, some nodes.size) :: opened) := by
      have hpos := child.size_pos
      refine ⟨Nat.lt_add_right _ h.1, ?_⟩
      rintro prev ⟨rfl⟩
      exact ⟨h.1, by omega⟩
    rw [hsize, leave, resume, run_tree _ later (below :: above) nodes _ h child, note]
    rw [run_siblings fuel below above _ parent (some nodes.size) opened (hnext ▸ hfit) later,
      ← hnext, linkAll_entries h, childCountAt_link h, placedSiblings, List.map_append,
      ← List.append_toArray, Array.append_assoc]

end

end Walk

/-- **The arena of a tree** is the list of its placed nodes: `flatten` agrees with
`placed`. -/
theorem flatten_eq_placed (tree : Tree) :
    tree.flatten = ((tree.placed rootPlace).map entryOf).toArray := by
  have h := Walk.run_tree 0 [] [] #[] [] trivial tree
  rw [Nat.add_zero] at h
  rw [flatten, h]
  simp only [Walk.leave, Walk.resume, Walk.link, Array.empty_append]
  rfl

end SourceOutline.Tree
