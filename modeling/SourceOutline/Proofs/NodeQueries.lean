import Mathlib.Data.List.TakeWhile
import Mathlib.Tactic.IntervalCases
import SourceOutline.Proofs.EngineNodes
import SourceOutline.Query.Engine

/-!
# Queries for Single Nodes

The simplest query asks for nodes that pass a test, and captures each of them:
`(kind) @name`. This module follows such a query through the reader and through a run.

The reader is followed step by step. A step that succeeds hands its value and its place on
(`Read.bind_of_eq`), so the lemmas say of each step what it makes of the text before it,
where `Read.IsName` tells the texts that are read as one name. A run never keeps a partial
match from one node to the next: what starts at a node is complete there
(`enter_nodeQuery`). So it needs one list of captures at a time, and is never exceeded.

## Main results

* `compile_nodeQuery`: the query that such a text is compiled to.
* `run_nodeQuery`: a run delivers one match for each node that passes the test, in
  document order.
* `capturesAt_nodeHit`: the node that such a match captures.
-/

namespace SourceOutline.Query

/-- The query for nodes that pass `test`, captured under `name`. -/
def nodeQuery (test : NodeTest) (name : String) : Query where
  rules := [{ pattern := .node test none [] [name] [], conditions := [] }]
  captureNames := [name]

/-! ### Reading -/

namespace Read

/-- A step that succeeds hands its value and its place to the steps after it. -/
theorem bind_of_eq {α β : Type} {step : Read α} {next : α → Read β} {s s' : ReadState} {a : α}
    (h : step s = .ok (a, s')) : (step >>= next) s = next a s' := by
  change (step s >>= fun (a, s) => next a s) = next a s'
  rw [h]
  rfl

/-- Characters that `identifier` reads as one name. -/
structure IsName (word : List Char) : Prop where
  head : word.head?.any startsIdentifier = true
  tail : word.tail.all continuesIdentifier = true

/-- No name starts with a blank: what `startsIdentifier` accepts is not `isSpace`. -/
theorem isSpace_eq_false {c : Char} (h : startsIdentifier c = true) : isSpace c = false := by
  rw [Bool.eq_false_iff]
  intro hspace
  rw [isSpace, Bool.or_eq_true, Bool.and_eq_true] at hspace
  rcases hspace with hblank | ⟨hlow, hhigh⟩
  · obtain rfl := of_decide_eq_true hblank
    cases h
  · -- the other blanks are five control characters, none of which starts a name
    have hlow : 9 ≤ c.toNat := UInt32.le_iff_toNat_le.1 (of_decide_eq_true hlow)
    have hhigh : c.toNat ≤ 13 := UInt32.le_iff_toNat_le.1 (of_decide_eq_true hhigh)
    rw [← Char.ofNat_toNat c] at h
    generalize c.toNat = n at h hlow hhigh
    interval_cases n <;> cases h

section Steps

variable {vocabulary : Vocabulary} {fuel : Nat} {word : List Char} {names : List String}
  {conditions : List RawCondition}

/-- A name is a first character that `startsIdentifier` accepts and characters that
continue it. -/
theorem IsName.exists_cons (h : IsName word) :
    ∃ c cs, word = c :: cs ∧ startsIdentifier c = true ∧
      ∀ d ∈ cs, continuesIdentifier d = true := by
  obtain ⟨c, hc, hstart⟩ := (Option.any_eq_true ..).1 h.head
  obtain ⟨cs, rfl⟩ := List.head?_eq_some_iff.1 hc
  exact ⟨c, cs, rfl, hstart, List.all_eq_true.1 h.tail⟩

/-- A text that starts with a name does not start with a character that no name starts with. -/
theorem IsName.head?_append_ne (h : IsName word) {rest : List Char} {c : Char}
    (hc : startsIdentifier c = false) : (word ++ rest).head? ≠ some c := by
  obtain ⟨d, ds, rfl, hd, -⟩ := h.exists_cons
  intro hhead
  obtain rfl := Option.some.inj hhead
  rw [hc] at hd
  cases hd

theorem peek_eq (s : ReadState) : peek s = .ok (s.rest.head?, s) := rfl

theorem offset_eq (s : ReadState) : offset s = .ok (s.offset, s) := rfl

/-- `advance` steps over one character, by as many bytes as it has. -/
theorem advance_cons (start : Nat) (c : Char) (rest : List Char) :
    advance ⟨start, c :: rest, names, conditions⟩ =
      .ok ((), ⟨start + byteLength [c], rest, names, conditions⟩) := rfl

/-- `skipBlanks` has nothing to skip before a name. -/
theorem skipBlanks_append (h : IsName word) (start : Nat) (rest : List Char) :
    skipBlanks ⟨start, word ++ rest, names, conditions⟩ =
      .ok ((), ⟨start, word ++ rest, names, conditions⟩) := by
  obtain ⟨c, cs, rfl, hc, -⟩ := h.exists_cons
  have hcomment : c ≠ ';' := by
    rintro rfl
    cases hc
  have hblanks : leadingBlanks false (c :: cs ++ rest) = [] := by
    rw [List.cons_append, leadingBlanks, isSpace_eq_false hc]
    simp [hcomment]
  have hskip : skipBlanks ⟨start, c :: cs ++ rest, names, conditions⟩ =
      skipChars (leadingBlanks false (c :: cs ++ rest))
        ⟨start, c :: cs ++ rest, names, conditions⟩ := rfl
  rw [hskip, hblanks]
  rfl

/-- `identifier` reads a name up to what cannot continue it. -/
theorem identifier_append (h : IsName word) (start : Nat) {rest : List Char}
    (hrest : rest.takeWhile continuesIdentifier = []) :
    identifier ⟨start, word ++ rest, names, conditions⟩ =
      .ok (String.ofList word, ⟨start + byteLength word, rest, names, conditions⟩) := by
  obtain ⟨c, cs, rfl, hc, hcs⟩ := h.exists_cons
  have htake : (cs ++ rest).takeWhile continuesIdentifier = cs := by
    rw [List.takeWhile_append_of_pos hcs, hrest, List.append_nil]
  have hskip : skipChars (c :: cs) ⟨start, c :: cs ++ rest, names, conditions⟩ =
      .ok ((), ⟨start + byteLength (c :: cs), rest, names, conditions⟩) := by
    change Except.ok ((), ReadState.mk _ ((c :: cs ++ rest).drop (c :: cs).length) _ _) = _
    rw [List.drop_left]
  change (if startsIdentifier c then
    (do skipChars (c :: (cs ++ rest).takeWhile continuesIdentifier)
        return String.ofList (c :: (cs ++ rest).takeWhile continuesIdentifier) : Read String)
    else malformed) _ = _
  rw [if_pos hc, htake, bind_of_eq hskip]
  rfl

/-- `captures` adds the capture at the end of a text to the pattern before it. -/
theorem captures_last (h : IsName word) (start : Nat) (p : Pattern) :
    ∃ stop, captures (fuel + 2) p ⟨start, ' ' :: '@' :: word, [], conditions⟩ =
      .ok (p.capture (String.ofList word), ⟨stop, [], [String.ofList word], conditions⟩) := by
  have hblank : skipBlanks ⟨start, ' ' :: '@' :: word, [], conditions⟩ =
      .ok ((), ⟨start + byteLength [' '], '@' :: word, [], conditions⟩) := rfl
  have hword (start : Nat) : identifier ⟨start, word, [], conditions⟩ =
      .ok (String.ofList word, ⟨start + byteLength word, [], [], conditions⟩) := by
    rw [← identifier_append h start rfl, List.append_nil]
  refine ⟨start + byteLength [' '] + byteLength ['@'] + byteLength word, ?_⟩
  rw [captures, bind_of_eq hblank, bind_of_eq (peek_eq _)]
  simp only [List.head?_cons]
  rw [bind_of_eq (advance_cons _ _ _), bind_of_eq (hword _)]
  rfl

/-- `pattern` reads a kind in parentheses with a capture at the end of a text. -/
theorem pattern_node {kind : List Char} {test : NodeTest} (hkind : IsName kind)
    (htest : ∀ start, nodeTest vocabulary start (String.ofList kind) = pure test)
    (hword : IsName word) (start : Nat) :
    ∃ stop, pattern vocabulary (fuel + 3) ⟨start, '(' :: (kind ++ ')' :: ' ' :: '@' :: word),
      [], conditions⟩ =
      .ok (.pattern (.node test none [] [String.ofList word] []),
        ⟨stop, [], [String.ofList word], conditions⟩) := by
  have hblank (start : Nat) : skipBlanks ⟨start, ')' :: ' ' :: '@' :: word, [], conditions⟩ =
      .ok ((), ⟨start, ')' :: ' ' :: '@' :: word, [], conditions⟩) := rfl
  have hclose (start : Nat) :
      children vocabulary (fuel + 2) [] [] ⟨start, ')' :: ' ' :: '@' :: word, [], conditions⟩ =
        .ok (([], []), ⟨start + byteLength [')'], ' ' :: '@' :: word, [], conditions⟩) := rfl
  obtain ⟨stop, hcaptures⟩ := @captures_last fuel word conditions hword
    (start + byteLength ['('] + byteLength kind + byteLength [')']) (.node test none [] [] [])
  refine ⟨stop, ?_⟩
  rw [pattern, bind_of_eq (peek_eq _)]
  simp only [List.head?_cons]
  rw [bind_of_eq (advance_cons _ _ _), bind_of_eq (skipBlanks_append hkind _ _),
    bind_of_eq (peek_eq _)]
  -- a name is behind the parenthesis, and so neither a condition nor a group
  generalize hnext : List.head? _ = next
  split
  case h_5 =>
    rw [bind_of_eq (offset_eq _), bind_of_eq (identifier_append hkind _ rfl), htest, pure_bind,
      bind_of_eq (hblank _), bind_of_eq (hclose _)]
    dsimp only
    rw [bind_of_eq hcaptures]
    rfl
  all_goals exact absurd hnext (hkind.head?_append_ne rfl)

/-- A text that is one pattern is one rule. -/
theorem rules_of_pattern {c : Char} {cs : List Char} {p : Pattern} {stop : Nat}
    (h : pattern vocabulary (fuel + 1) ⟨0, c :: cs, [], []⟩ =
      .ok (.pattern p, ⟨stop, [], names, conditions⟩)) :
    ∃ row, rules vocabulary (c :: cs) (fuel + 2) [] ⟨0, c :: cs, [], []⟩ =
      .ok ([⟨row, p, conditions⟩], ⟨stop, [], names, conditions⟩) := by
  have hpeek : peek ⟨0, c :: cs, [], []⟩ = .ok (some c, ⟨0, c :: cs, [], []⟩) := rfl
  have hmore : ¬(some c).isNone = true := Bool.false_ne_true
  have hmodify : (modify fun s => { s with conditions := [] } : Read Unit)
      ⟨0, c :: cs, [], []⟩ =
      .ok ((), ⟨0, c :: cs, [], []⟩) := rfl
  refine ⟨?row, ?_⟩
  case row =>
    exact ((c :: cs).take ((c :: cs).length - (splitAtByte 0 none (c :: cs)).2.length)).countP
      (· = '\n')
  rw [rules, bind_of_eq hpeek, if_neg hmore, bind_of_eq (offset_eq _), bind_of_eq hmodify,
    bind_of_eq h]
  rfl

end Steps

end Read

/-- **A text for single nodes** is compiled to the `nodeQuery` for them. -/
theorem compile_nodeQuery {vocabulary : Vocabulary} {text : String} {kind word : List Char}
    {test : NodeTest} (htext : text.toList = '(' :: (kind ++ ')' :: ' ' :: '@' :: word))
    (hkind : Read.IsName kind)
    (htest : ∀ start, Read.nodeTest vocabulary start (String.ofList kind) = pure test)
    (hword : Read.IsName word) :
    compile vocabulary text = .ok (nodeQuery test (String.ofList word)) := by
  rw [compile, htext]
  generalize hfuel : 4 * ('(' :: (kind ++ ')' :: ' ' :: '@' :: word)).length = fuel
  obtain ⟨stop, hpattern⟩ :=
    @Read.pattern_node vocabulary fuel word [] kind test hkind htest hword 0
  obtain ⟨row, hrules⟩ := Read.rules_of_pattern hpattern
  have hblank : Read.skipBlanks ⟨0, '(' :: (kind ++ ')' :: ' ' :: '@' :: word), [], []⟩ =
      .ok ((), ⟨0, '(' :: (kind ++ ')' :: ' ' :: '@' :: word), [], []⟩) := rfl
  have hread : readText vocabulary ('(' :: (kind ++ ')' :: ' ' :: '@' :: word)) =
      .ok ([⟨row, .node test none [] [String.ofList word] [], []⟩], [String.ofList word]) := by
    rw [readText, hfuel]
    dsimp only [StateT.run]
    rw [Read.bind_of_eq hblank, hrules]
    rfl
  rw [hread]
  rfl

/-! ### Matches -/

section Matches

variable (arena : Arena) (test : NodeTest) (name : String) (root : Nat)

/-- The positions of a subtree at which `test` is passed. -/
def passing : List Nat :=
  (List.range' root (arena.subtreeEnd root - root)).filter fun index =>
    arena.nodes[index]?.any fun entry => test.passes entry.record

/-- Positions are passed in document order. -/
theorem pairwise_passing : (passing arena test root).Pairwise (· < ·) :=
  List.Pairwise.sublist List.filter_sublist List.pairwise_lt_range'

/-- The match of a node that is captured under a name. -/
def nodeHit (index : Nat) : Hit where
  patternIndex := 0
  captures := [(name, index)]

/-- The candidate of a node that is captured under a name. -/
def nodeCandidate (index : Nat) : Candidate where
  placement := { captures := [(name, index)], last := index }
  rootDepth := (arena.nodes[index]?.map (·.depth)).getD 0
  patternIndex := 0

/-- Without a field and absent fields, `admits` asks for the test only. -/
theorem admits_of_test (index : Nat) :
    admits arena test none [] index = arena.nodes[index]?.any fun entry =>
      test.passes entry.record := by
  rw [admits, Option.isNone_none, Bool.true_or, Bool.and_true, List.all_nil, Bool.and_true]

/-- The one way to match a node is to capture it: `candidatesAt` has its
`nodeCandidate`. -/
theorem candidatesAt_node (index : Nat) :
    candidatesAt arena 0 { pattern := .node test none [] [name] [], conditions := [] } index =
      if arena.nodes[index]?.any fun entry => test.passes
        entry.record then [nodeCandidate arena name index]
      else [] := by
  rw [candidatesAt, Pattern.placements, childPlacements, admits_of_test]
  split
  · rfl
  · rfl

/-- What is made of some elements only, one of each. -/
theorem flatMap_ite_singleton {α β : Type} (p : α → Bool) (f : α → β) (as : List α) :
    as.flatMap (fun a => if p a then [f a] else []) = (as.filter p).map f := by
  induction as with
  | nil => rfl
  | cons a as ih =>
    rw [List.flatMap_cons, ih, List.filter_cons]
    split
    · rfl
    · rfl

/-- **The matches of `nodeQuery`** are those of the nodes that pass the test, in document
order. -/
theorem deliver_nodeQuery :
    deliver arena (nodeQuery test name) root none =
      (passing arena test root).map (nodeHit name) := by
  have hstarts : startPositions arena root none =
      List.range' root (arena.subtreeEnd root - root) := by
    rw [startPositions]
    exact List.filter_eq_self.2 fun _ _ => rfl
  have hfound : (startPositions arena root none).flatMap
      (candidatesAt arena 0 { pattern := .node test none [] [name] [], conditions := [] }) =
        (passing arena test root).map (nodeCandidate arena name) := by
    rw [hstarts, passing, ← flatMap_ite_singleton]
    exact congrArg (List.flatMap · _) (funext (candidatesAt_node arena test name))
  -- the order of candidates goes by the last position first, and that is the position of
  -- the node
  have hsorted : ((passing arena test root).map (nodeCandidate arena name)).Pairwise
      fun a b => lexLe a.key b.key = true := by
    refine List.pairwise_map.2 ((pairwise_passing arena test root).imp ?_)
    intro a b hab
    change (decide (a < b) || _) = true
    rw [decide_eq_true hab, Bool.true_or]
  have hdeliver : deliver arena (nodeQuery test name) root none =
      (sort (fun a b => lexLe a.key b.key) ((startPositions arena root none).flatMap
        (candidatesAt arena 0 { pattern := .node test none [] [name] [], conditions := [] }) ++
          [])).map
          fun candidate => { patternIndex := candidate.patternIndex,
                             captures := candidate.placement.captures } := rfl
  rw [hdeliver, List.append_nil, hfound, sort_of_pairwise hsorted, List.map_map]
  rfl

end Matches

/-! ### Bounded runs -/

section Runs

variable {arena : Arena} {test : NodeTest} {name : String} {capacity : Nat}

/-- The partial match that may start at a node. -/
def nodeStart (test : NodeTest) (name : String) (depth : Nat) : PartialMatch where
  patternIndex := 0
  startDepth := depth
  captures := []
  pending := [(0, .node test none [] [name] [])]
  isNew := true
  isDead := false

/-- A run starts `nodeStart` at the nodes that `admits` accepts, and nothing elsewhere. -/
theorem startsAt_nodeQuery (index depth : Nat) :
    startsAt arena (nodeQuery test name) index depth =
      if admits arena test none [] index then [nodeStart test name depth] else [] := by
  simp only [startsAt, nodeQuery, List.zipIdx_cons, List.zipIdx_nil, List.flatMap_cons,
    List.flatMap_nil, Pattern.branches, List.append_nil, List.filter_cons, List.filter_nil]
  split
  · rfl
  · rfl

/-- By `visit`, what starts at a node that passes the test is complete there, if there is
a list of captures at all. -/
theorem visit_nodeStart (hcapacity : 0 < capacity) {index : Nat}
    (h : admits arena test none [] index = true) (depth : Nat) (exceeded : Bool) :
    visit arena capacity index depth (nodeStart test name depth) ⟨[], [], exceeded⟩ =
      ([(nodeStart test name depth).matchedAt index 0 [name] [] []], ⟨[], [], exceeded⟩) := by
  simp [visit, nodeStart, h, canMatchLater, passOver, roomFor, PartialMatch.isHolding,
    makeRoom, hcapacity, proceed, PartialMatch.matchedAt]

/-- **One step of a run**: `enter` keeps no partial match, and the run is not exceeded by
it. -/
theorem enter_nodeQuery (hcapacity : 0 < capacity) (mayStart : Nat → Bool) (index : Nat)
    {cursor : Cursor} (h : cursor.partials = []) :
    (cursor.enter arena (nodeQuery test name) capacity mayStart index).partials = [] ∧
      (cursor.enter arena (nodeQuery test name) capacity mayStart index).exceeded =
        cursor.exceeded := by
  rw [Cursor.enter, h, startsAt_nodeQuery]
  generalize (arena.nodes[index]?.map (·.depth)).getD 0 = depth
  cases hstart : mayStart depth with
  | false => exact ⟨rfl, rfl⟩
  | true =>
    cases hadmits : admits arena test none [] index with
    | false => exact ⟨rfl, rfl⟩
    | true =>
      simp only [if_true, List.filter_nil, List.nil_append, List.length_singleton, visitAll]
      rw [visit_nodeStart hcapacity hadmits]
      exact ⟨rfl, rfl⟩

/-- Runs of `nodeQuery` are never exceeded. -/
theorem exceeded_runBounded_nodeQuery (hcapacity : 0 < capacity) (root : Nat)
    (maxStartDepth : Option Nat) :
    (runBounded arena (nodeQuery test name) root maxStartDepth capacity).exceeded = false := by
  have hrun (mayStart : Nat → Bool) (positions : List Nat) {cursor : Cursor}
      (h : cursor.partials = []) :
      (positions.foldl (fun cursor index => cursor.enter arena (nodeQuery test name) capacity
        mayStart index)
        cursor).exceeded = cursor.exceeded := by
    induction positions generalizing cursor with
    | nil => rfl
    | cons index positions ih =>
      obtain ⟨hnext, hexceeded⟩ := enter_nodeQuery hcapacity mayStart index h
      rw [List.foldl_cons, ih hnext, hexceeded]
  exact hrun _ _ rfl

/-- The cursor finds a match for each node of the subtree that passes the test. -/
theorem deliverWithin_nodeQuery (hcapacity : 0 < capacity) (root : Nat) :
    deliverWithin arena (nodeQuery test name) root none capacity =
      { found := (passing arena test root).map (nodeHit name), exceeded := false } := by
  rw [deliverWithin, exceeded_runBounded_nodeQuery hcapacity, deliver_nodeQuery]
  rfl

/-- **What a run of `nodeQuery` delivers**: a match for each node of the subtree that
passes the test, with room for all of them. -/
theorem run_nodeQuery (hcapacity : 0 < capacity) (root : Nat) :
    (run arena (nodeQuery test name) root none capacity).found =
        (passing arena test root).map (fun index => (nodeHit name index).toMatch arena) ∧
      (run arena (nodeQuery test name) root none capacity).exceeded = false := by
  constructor
  · rw [found_run, deliverWithin_nodeQuery hcapacity, List.map_map]
    rfl
  · rw [run, deliverWithin_nodeQuery hcapacity]

end Runs

/-! ### Captured nodes -/

/-- A match captures one node, under a name. Its handle, by `handleFor?`, is that of a
position. -/
def CapturesAt (t : SyntaxTree) (name : String) (m : Match) (index : Nat) : Prop :=
  ∃ tree, m.captures = [(name, tree)] ∧ t.handleFor? tree = some (t.handle index)

/-- **The node that a match for a single node captures** is the one at its position, if
the engine's numbers are all different. -/
theorem capturesAt_nodeHit {t : SyntaxTree}
    (hids : (t.root.preorder.map fun node => node.record.id).Nodup) (name : String)
    {index : Nat} (hindex : index < t.nodeCount) :
    CapturesAt t name ((nodeHit name index).toMatch t.toArena) index := by
  obtain ⟨place, tree, hold, rfl⟩ := Arena.exists_holds hindex
  have hnode : t.nodeAt? place.index = some tree := hold.descend?_pathTo
  refine ⟨tree, ?_, SyntaxTree.handleFor?_of_holds hids hold⟩
  rw [Hit.toMatch, nodeHit]
  dsimp only
  rw [List.filterMap_cons, hnode]
  rfl

end SourceOutline.Query
