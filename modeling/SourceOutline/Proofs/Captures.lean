import Mathlib.Data.List.Induction
import SourceOutline.Proofs.Grouping
import SourceOutline.Proofs.Links

/-!
# Captured Nodes

Whatever a run of a query captures is a node of the tree it ran in, for every engine. The
engine hands out nodes of its own, and nothing is assumed of them; a run keeps those for
which `handleFor?` has a handle. The table behind `handleFor?` was filled from the arena,
so what it gives is a position of the tree (`lookup_positions_eq_some_iff`).

A run stops where the limit or the clock says so, but what it has taken by then are the
first of the delivered matches (`exists_captures_takeUpTo`), by induction on the events of
the delivery.

## Main results

* `Arena.lookup_positions_eq_some_iff`: the table gives the last position of a number.
* `SyntaxTree.owns_of_handleFor?`: the handle of an engine's node is good for the tree.
* `Query.owns_captures_execute`: what a run captures are nodes of its tree.
* `Query.execute_of_sameTime`: the clock matters only as far as a run is late.
* `Query.exists_mem_of_mem_handles`: the nodes of the groups of captures are among the
  captured ones.
* `Query.execute_rootHandle`: a run from the root of a tree never fails.
-/

namespace SourceOutline

namespace Arena

variable {arena : Arena} {i : Nat}

/-! ### The table of positions -/

/-- A position of some entries is the last one under a number. -/
def IsLastUnder (id : Nat) (entries : List Entry) (i : Nat) : Prop :=
  (∃ entry, entries[i]? = some entry ∧ entry.record.id = id) ∧
    ∀ j entry, i < j → entries[j]? = some entry → entry.record.id ≠ id

/-- What stands at a position of entries with one more at the end. -/
theorem getElem?_snoc_eq_some_iff {entries : List Entry} {last entry : Entry} :
    (entries ++ [last])[i]? = some entry ↔
      entries[i]? = some entry ∨ i = entries.length ∧ last = entry := by
  grind

/-- An entry at the end is the last one under its own number. -/
theorem isLastUnder_snoc_self {entries : List Entry} {last : Entry} :
    IsLastUnder last.record.id (entries ++ [last]) i ↔ i = entries.length := by
  have hend : (entries ++ [last])[entries.length]? = some last :=
    getElem?_snoc_eq_some_iff.2 (Or.inr ⟨rfl, rfl⟩)
  constructor
  · rintro ⟨⟨entry, hentry, -⟩, hlater⟩
    rcases getElem?_snoc_eq_some_iff.1 hentry with hbefore | ⟨rfl, -⟩
    · have hlt := (List.getElem?_eq_some_iff.1 hbefore).1
      exact absurd rfl (hlater entries.length last hlt hend)
    · rfl
  · rintro rfl
    refine ⟨⟨last, hend, rfl⟩, fun j entry hj hentry => ?_⟩
    rcases getElem?_snoc_eq_some_iff.1 hentry with hbefore | ⟨rfl, -⟩
    · exact absurd (List.getElem?_eq_some_iff.1 hbefore).1 (Nat.lt_asymm hj)
    · exact absurd hj (Nat.lt_irrefl _)

/-- An entry at the end does not matter for other numbers. -/
theorem isLastUnder_snoc_of_ne {entries : List Entry} {last : Entry} {id : Nat}
    (h : last.record.id ≠ id) :
    IsLastUnder id (entries ++ [last]) i ↔ IsLastUnder id entries i := by
  constructor
  · rintro ⟨⟨entry, hentry, heq⟩, hlater⟩
    refine ⟨⟨entry, ?_, heq⟩, fun j other hj hother =>
      hlater j other hj (getElem?_snoc_eq_some_iff.2 (Or.inl hother))⟩
    rcases getElem?_snoc_eq_some_iff.1 hentry with hbefore | ⟨-, rfl⟩
    · exact hbefore
    · exact absurd heq h
  · rintro ⟨⟨entry, hentry, heq⟩, hlater⟩
    refine ⟨⟨entry, getElem?_snoc_eq_some_iff.2 (Or.inl hentry), heq⟩,
      fun j other hj hother => ?_⟩
    rcases getElem?_snoc_eq_some_iff.1 hother with hbefore | ⟨-, rfl⟩
    · exact hlater j other hj hbefore
    · exact h

/-- What the table gives for a number: the last position that was noted under it. -/
theorem lookup_foldl_noted_eq_some_iff {entries : List Entry} {id : Nat} :
    (entries.zipIdx.foldl (fun noted node => (node.1.record.id, node.2) :: noted) []).lookup
      id = some i ↔ IsLastUnder id entries i := by
  -- from the end, since the entry that is noted last is looked up first
  induction entries using List.reverseRecOn with
  | nil =>
    constructor
    · intro h
      cases h
    · rintro ⟨⟨entry, hentry, -⟩, -⟩
      cases hentry
  | append_singleton entries last ih =>
    rw [List.zipIdx_append, List.foldl_append, List.zipIdx_singleton, List.foldl_cons,
      List.foldl_nil, Nat.zero_add, List.lookup_cons]
    by_cases hid : last.record.id = id
    · subst hid
      rw [beq_self_eq_true, isLastUnder_snoc_self, eq_comm]
      exact Option.some_inj
    · rw [beq_false_of_ne (Ne.symm hid), isLastUnder_snoc_of_ne hid]
      exact ih

/-- **The table `positions` gives the last position of a number.** -/
theorem lookup_positions_eq_some_iff {id : Nat} :
    arena.positions.lookup id = some i ↔
      (∃ entry, arena.nodes[i]? = some entry ∧ entry.record.id = id) ∧
        ∀ j entry, i < j → arena.nodes[j]? = some entry → entry.record.id ≠ id := by
  rw [positions, lookup_foldl_noted_eq_some_iff, IsLastUnder]
  simp only [Array.getElem?_toList]

end Arena

namespace SyntaxTree

variable {t : SyntaxTree}

/-- A handle is good for a tree: it was taken from it and is in range. -/
def Owns (t : SyntaxTree) (handle : Handle) : Prop :=
  handle.tree = t.id ∧ handle.index < t.nodeCount

/-- **The handle that `handleFor?` gives** is good for the tree, whatever the engine's
node is. -/
theorem owns_of_handleFor? {tree : Tree} {handle : Handle}
    (h : t.handleFor? tree = some handle) :
    t.Owns handle := by
  obtain ⟨index, hlookup, rfl⟩ := Option.map_eq_some_iff.1 h
  obtain ⟨⟨entry, hentry, -⟩, -⟩ := Arena.lookup_positions_eq_some_iff.1 hlookup
  exact ⟨rfl, (Array.getElem?_eq_some_iff.1 hentry).1⟩

end SyntaxTree

namespace Query

variable {t : SyntaxTree}

/-! ### What a run takes -/

/-- A capture of `tagged` stands for a node that has a handle. -/
theorem exists_of_mem_tagged {m : Match} {matchId : Nat} {capture : Capture}
    (h : capture ∈ m.tagged t matchId) :
    ∃ pair ∈ m.captures, t.handleFor? pair.2 = some capture.node := by
  obtain ⟨pair, hpair, hmap⟩ := List.mem_filterMap.1 h
  obtain ⟨node, hnode, rfl⟩ := Option.map_eq_some_iff.1 hmap
  exact ⟨pair, hpair, hnode⟩

/-- A capture of `taggedFrom` is one of a match. -/
theorem mem_taggedFrom {first : Nat} {ms : List Match} {capture : Capture}
    (h : capture ∈ taggedFrom t first ms) :
    ∃ m ∈ ms, ∃ pair ∈ m.captures, t.handleFor? pair.2 = some capture.node := by
  induction ms generalizing first with
  | nil => cases h
  | cons m ms ih =>
    rcases List.mem_append.1 h with hm | hms
    · exact ⟨m, List.mem_cons_self, exists_of_mem_tagged hm⟩
    · obtain ⟨other, hother, hpair⟩ := ih hms
      exact ⟨other, List.mem_cons_of_mem _ hother, hpair⟩

/-- **What `takeUpTo` has taken when it stops** are the first of the matches, whatever
stopped it. -/
theorem exists_captures_takeUpTo (limit : Nat) (late : Nat → Bool) (events : List Event)
    (reading : Nat) (taken : Collected) :
    ∃ n ≤ (matchesOf events).length,
      (takeUpTo t limit late events reading taken).captures =
        taken.captures ++ taggedFrom t taken.matchCount ((matchesOf events).take n) ∧
      (takeUpTo t limit late events reading taken).matchCount = taken.matchCount + n := by
  -- a loop that stops here has taken none of the matches to come
  have hstop (taken stopped : Collected) (hcaptures : stopped.captures = taken.captures)
      (hcount : stopped.matchCount = taken.matchCount) (ms : List Match) :
      ∃ n ≤ ms.length, stopped.captures = taken.captures ++
        taggedFrom t taken.matchCount (ms.take n) ∧
        stopped.matchCount = taken.matchCount + n :=
    ⟨0, Nat.zero_le _, by rw [hcaptures, List.take_zero, taggedFrom, List.append_nil], hcount⟩
  induction events generalizing reading taken with
  | nil => exact hstop taken taken rfl rfl []
  | cons event events ih =>
    cases event with
    | progress =>
      rw [takeUpTo]
      split
      · exact hstop taken _ rfl rfl _
      · exact ih _ taken
    | found m =>
      rw [takeUpTo]
      split
      · exact hstop taken _ rfl rfl _
      · split
        · exact hstop taken _ rfl rfl _
        · obtain ⟨n, hn, hcaptures, hcount⟩ := ih (reading + 1) (taken.add t m)
          refine ⟨n + 1, Nat.succ_le_succ hn, ?_, ?_⟩
          · rw [hcaptures, Collected.add, List.append_assoc]
            rfl
          · rw [hcount, Collected.add, Nat.add_assoc, Nat.add_comm 1]

/-- What `resultOf` reports as captured was captured by a match that was delivered. -/
theorem mem_captures_resultOf {patternCount : Nat} {settings : QuerySettings} {clock : Clock}
    {hasError : Bool} {delivery : Delivery} {capture : Capture}
    (h : capture ∈ (resultOf t patternCount settings clock hasError delivery).captures) :
    ∃ m ∈ delivery.found, ∃ pair ∈ m.captures, t.handleFor? pair.2 = some capture.node := by
  obtain ⟨n, -, hcaptures, -⟩ :=
    exists_captures_takeUpTo (t := t) (atLeastOne settings.matchLimit)
    (isLate settings.timeout clock) delivery.events 1 {}
  rw [resultOf, collect, hcaptures, List.nil_append] at h
  obtain ⟨m, hm, hpair⟩ := mem_taggedFrom h
  exact ⟨m, List.mem_of_mem_take hm, hpair⟩

variable {Q : Type} {engine : Engine Q} {clock : Clock} {query : Q}

/-- **What a run captures are nodes of its tree**, whatever the engine delivers. -/
theorem owns_captures_execute {root : Handle} {settings : QuerySettings} {result : Result}
    (h : execute engine clock t query root settings = .ok result) :
    ∀ capture ∈ result.captures, t.Owns capture.node := by
  intro capture hcapture
  unfold execute at h
  cases hnode : t.engineNode root with
  | error e =>
    rw [hnode] at h
    cases h
  | ok node =>
    rw [hnode] at h
    cases h
    obtain ⟨m, -, pair, -, hhandle⟩ := mem_captures_resultOf hcapture
    exact SyntaxTree.owns_of_handleFor? hhandle

end Query

/-- No run with these limits tells two clocks apart: it is late at a reading of the one
just if it is late at that reading of the other. Any two clocks will do if there is no
time budget. -/
def QuerySettings.SameTime (settings : QuerySettings) (clock clock' : Query.Clock) : Prop :=
  ∀ reading, Query.isLate settings.timeout clock reading =
    Query.isLate settings.timeout clock' reading

/-- `SameTime` is reflexive. -/
theorem QuerySettings.SameTime.refl (settings : QuerySettings) (clock : Query.Clock) :
    settings.SameTime clock clock :=
  fun _ => rfl

/-- Without a time budget, **no clock matters** (`SameTime` asks nothing). -/
theorem QuerySettings.sameTime_of_untimed {settings : QuerySettings}
    (h : settings.timeout = none) (clock clock' : Query.Clock) :
    settings.SameTime clock clock' := by
  intro reading
  rw [h]
  rfl

namespace Query

section SameTime

variable {settings : QuerySettings} {clock clock' : Clock}

/-- **A run has one outcome**: `resultOf` does not depend on the clock at times that it
cannot tell apart. -/
theorem resultOf_of_sameTime (h : settings.SameTime clock clock') (t : SyntaxTree)
    (patternCount : Nat) (hasError : Bool) (delivery : Delivery) :
    resultOf t patternCount settings clock hasError delivery =
      resultOf t patternCount settings clock' hasError delivery := by
  have hcollect : collect t settings clock delivery.events =
      collect t settings clock' delivery.events := by
    rw [collect, collect, funext h]
  rw [resultOf, resultOf, hcollect]

/-- `execute` has one outcome at times that the run cannot tell apart. -/
theorem execute_of_sameTime {Q : Type} (h : settings.SameTime clock clock') (engine : Engine Q)
    (t : SyntaxTree) (query : Q) (root : Handle) :
    execute engine clock t query root settings =
      execute engine clock' t query root settings := by
  unfold execute
  simp only [resultOf_of_sameTime h]

end SameTime

/-! ### The nodes of groups -/

/-- The nodes of a group. -/
def Group.handles (group : Group) : List Handle :=
  group.definition :: (group.name.toList ++ group.params.toList ++ group.body.toList)

/-- The name of a group is one of its `handles`. -/
theorem Group.name_mem_handles {group : Group} {node : Handle} (h : node ∈ group.name.toList) :
    node ∈ group.handles :=
  List.mem_cons_of_mem _ (List.mem_append_left _ (List.mem_append_left _ h))

/-- The parameters of a group are among its `handles`. -/
theorem Group.params_mem_handles {group : Group} {node : Handle}
    (h : node ∈ group.params.toList) :
    node ∈ group.handles :=
  List.mem_cons_of_mem _ (List.mem_append_left _ (List.mem_append_right _ h))

/-- What `Fills` a role was captured. -/
theorem exists_mem_of_fills {captures : List Capture} {matchId : Nat} {roles : List String}
    {node : Handle} (h : Fills captures matchId roles node) :
    ∃ capture ∈ captures, capture.node = node := by
  obtain ⟨capture, hfirst, hnode⟩ := h
  exact ⟨capture, hfirst.mem, hnode⟩

/-- What a match `Defines` was captured. -/
theorem exists_mem_of_defines {captures : List Capture} {matchId : Nat} {node : Handle}
    (h : Defines captures matchId node) : ∃ capture ∈ captures, capture.node = node := by
  rcases h with hfills | ⟨-, capture, hfirst, hnode⟩
  · exact exists_mem_of_fills hfills
  · exact ⟨capture, hfirst.mem, hnode⟩

/-- What `FilledBySmallest` finds was captured. -/
theorem FilledBySmallest.exists_mem {captures : List Capture} {definition node : Handle}
    {roles : List String} {part : Option Handle}
    (h : FilledBySmallest captures definition roles part) (hnode : node ∈ part.toList) :
    ∃ capture ∈ captures, capture.node = node := by
  obtain rfl := Option.mem_toList.1 hnode
  obtain ⟨matchId, -, hfills, -⟩ := h
  exact exists_mem_of_fills hfills

/-- All `handles` of the groups of captures were captured. -/
theorem exists_mem_of_mem_handles {captures : List Capture} {group : Group} {node : Handle}
    (hgroup : group ∈ groupCaptures captures) (hnode : node ∈ group.handles) :
    ∃ capture ∈ captures, capture.node = node := by
  obtain ⟨hname, hparams, hbody⟩ := filledBySmallest_of_mem hgroup
  rcases List.mem_cons.1 hnode with rfl | hnode
  · obtain ⟨matchId, hdefines⟩ :=
      (exists_mem_groupCaptures_iff captures _).1 ⟨group, hgroup, rfl⟩
    exact exists_mem_of_defines hdefines
  · rcases List.mem_append.1 hnode with hnode | hnode
    · rcases List.mem_append.1 hnode with hnode | hnode
      · exact hname.exists_mem hnode
      · exact hparams.exists_mem hnode
    · exact hbody.exists_mem hnode

end Query

/-- The root handle passes `check`. -/
theorem SyntaxTree.check_rootHandle (t : SyntaxTree) : t.check t.rootHandle = .ok () :=
  (t.check_eq_ok_iff t.rootHandle).2 ⟨rfl, t.nodeCount_pos⟩

/-- The engine's node behind the root handle is the root. -/
theorem SyntaxTree.engineNode_rootHandle (t : SyntaxTree) :
    t.engineNode t.rootHandle = .ok t.root := by
  have hparent : t.parent? 0 = none := (Arena.Holds.root t.toArena).parent?
  obtain ⟨n, hn⟩ := Nat.exists_eq_add_of_lt t.nodeCount_pos
  have hpath : t.pathTo 0 = [] := by
    rw [Arena.pathTo, Arena.upwards, hn, Nat.zero_add, Arena.climb, hparent]
    rfl
  have hdescend : t.root.descend? (t.pathTo t.rootHandle.index) = some t.root := by
    rw [rootHandle, handle, hpath, Tree.descend?]
  rw [engineNode, t.check_rootHandle]
  dsimp only [bind, Except.bind]
  rw [hdescend]

/-- **A run from the root of a tree never fails**: `execute` gives its `resultOf`. -/
theorem Query.execute_rootHandle {Q : Type} (engine : Engine Q) (clock : Clock)
    (t : SyntaxTree) (query : Q) (settings : QuerySettings) :
    Query.execute engine clock t query t.rootHandle settings =
      .ok (resultOf t (engine.patternCount query) settings clock t.hasError
        (engine.run t.toArena query 0 settings.maxStartDepth
          (atLeastOne settings.matchLimit))) := by
  rw [execute, t.engineNode_rootHandle]
  rfl

end SourceOutline
