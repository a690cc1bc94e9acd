import Mathlib.Data.List.Basic
import SourceOutline.Proofs.Grouping
import SourceOutline.Query.Engine

/-!
# Raising a Limit

A run of a query ends after a number of matches. This module compares two runs under
different limits. What the run under the smaller limit captures is what the other captures
first, and since no match is cut in the middle, its groups can only be added to and
completed: the parts that they have stay.

That much holds for every engine. A limit also bounds the room for partial matches, and
what an engine does with more room is its own affair. `Query.engine` keeps lists of
captures; `Steady` says of a step of its cursor that more lists change nothing unless it
wanted for one. It is shown for each step, and so a run of that engine that was not
truncated is the same under every larger limit.

## Main results

* `groupCaptures_append`: later matches extend the groups of earlier ones.
* `captures_firstMatches_append`: a larger limit adds the captures of later matches.
* `runBounded_eq_of_le`: more lists of captures change nothing for a run that was not exceeded.
* `raising_limit_extends`: what a larger limit does to the outcome of a run.
-/

namespace SourceOutline.Query

/-! ### Groups that are extended -/

/-- A part of a group stays if there is one; if not, it may be filled. -/
def Fulfils (part later : Option Handle) : Prop :=
  ∀ node, part = some node → later = some node

/-- A group extends another: it is of the same definition and pattern and has all parts
that the other has. -/
structure Group.Extends (group later : Group) : Prop where
  definition_eq : later.definition = group.definition
  patternIndex_eq : later.patternIndex = group.patternIndex
  name : Fulfils group.name later.name
  params : Fulfils group.params later.params
  body : Fulfils group.body later.body

/-- What `findSome?` finds in a list, it finds in a longer one (`Fulfils`). -/
theorem fulfils_findSome?_append {α : Type} (part : α → Option Handle) (first more : List α) :
    Fulfils (first.findSome? part) ((first ++ more).findSome? part) := by
  intro node hnode
  rw [List.findSome?_append, hnode]
  rfl

/-- What more groups are merged into `Extends` the group of the first ones. -/
theorem merge?_append {first : List Group} {group : Group} (h : merge? first = some group)
    (more : List Group) :
    ∃ later, merge? (first ++ more) = some later ∧ group.Extends later := by
  obtain ⟨⟨head, hhead, hdefinition, hpattern⟩, hname, hparams, hbody⟩ := merge?_eq_some h
  have hsome : ∃ later, merge? (first ++ more) = some later := by
    rcases first with _ | ⟨other, rest⟩
    · cases hhead
    · exact ⟨_, rfl⟩
  obtain ⟨later, hlater⟩ := hsome
  obtain ⟨⟨head', hhead', hdefinition', hpattern'⟩, hname', hparams', hbody'⟩ :=
    merge?_eq_some hlater
  obtain rfl : head' = head := by
    rw [List.head?_append, hhead] at hhead'
    exact (Option.some.inj hhead').symm
  refine ⟨later, hlater, hdefinition'.trans hdefinition.symm, hpattern'.trans hpattern.symm,
    ?_, ?_, ?_⟩
  · rw [hname, hname']
    exact fulfils_findSome?_append _ first more
  · rw [hparams, hparams']
    exact fulfils_findSome?_append _ first more
  · rw [hbody, hbody']
    exact fulfils_findSome?_append _ first more

/-! ### Matches that follow others -/

/-- All captures of a list are of earlier matches than those of another. -/
def Precede (first more : List Capture) : Prop :=
  ∀ c ∈ first, ∀ d ∈ more, c.matchId < d.matchId

/-- `addId` puts a number behind those that are smaller. -/
theorem addId_append {front : List Nat} {id : Nat} (h : ∀ other ∈ front, other < id)
    (back : List Nat) :
    addId id (front ++ back) = front ++ addId id back := by
  induction front with
  | nil => rfl
  | cons first rest ih =>
    have hlt : first < id := h first List.mem_cons_self
    rw [List.cons_append, addId, if_neg (Nat.ne_of_lt hlt), if_neg (Nat.lt_asymm hlt),
      ih fun other hother => h other (List.mem_cons_of_mem _ hother), List.cons_append]

/-- A fold of `addId` puts numbers behind those that are smaller. -/
theorem foldl_addId_append {front : List Nat} (ids back : List Nat)
    (h : ∀ other ∈ front, ∀ id ∈ ids, other < id) :
    ids.foldl (fun acc id => addId id acc) (front ++ back) =
      front ++ ids.foldl (fun acc id => addId id acc) back := by
  induction ids generalizing back with
  | nil => rfl
  | cons id ids ih =>
    rw [List.foldl_cons, addId_append fun other hother => h other hother id List.mem_cons_self]
    exact ih _ fun other hother id' hid => h other hother id' (List.mem_cons_of_mem _ hid)

/-- A match that has a capture that counts is the match of a capture. -/
theorem exists_mem_of_mem_liveMatchIds {captures : List Capture} {matchId : Nat}
    (h : matchId ∈ liveMatchIds captures) :
    ∃ capture ∈ captures, capture.matchId = matchId := by
  obtain ⟨capture, hcapture⟩ :=
    List.exists_mem_of_ne_nil _ (((liveMatchIds_spec captures).2 matchId).1 h)
  obtain ⟨hmem, hlive⟩ := List.mem_filter.1 hcapture
  rw [Bool.and_eq_true, decide_eq_true_eq] at hlive
  exact ⟨capture, hmem, hlive.2⟩

/-- `liveMatchIds` of captures of which some precede the others. -/
theorem liveMatchIds_append {first more : List Capture} (h : Precede first more) :
    liveMatchIds (first ++ more) = liveMatchIds first ++ liveMatchIds more := by
  have hafter : ∀ other ∈ liveMatchIds first,
      ∀ id ∈ (more.filter Capture.isLive).map (·.matchId), other < id := by
    intro other hother id hid
    obtain ⟨c, hc, rfl⟩ := exists_mem_of_mem_liveMatchIds hother
    obtain ⟨d, hd, rfl⟩ := List.mem_map.1 hid
    exact h c hc d (List.mem_filter.1 hd).1
  have hfold := foldl_addId_append ((more.filter Capture.isLive).map (·.matchId)) [] hafter
  rw [List.append_nil] at hfold
  rw [liveMatchIds, List.filter_append, List.map_append, List.foldl_append]
  exact hfold

/-- Later matches add nothing to an earlier one. -/
theorem membersOf_append_of_mem {first more : List Capture} (h : Precede first more)
    {matchId : Nat} (hmatch : matchId ∈ liveMatchIds first) :
    membersOf (first ++ more) matchId = membersOf first matchId := by
  obtain ⟨c, hc, rfl⟩ := exists_mem_of_mem_liveMatchIds hmatch
  have hnone : membersOf more c.matchId = [] := by
    rw [membersOf, List.filter_eq_nil_iff]
    intro d hd hlive
    rw [Bool.and_eq_true, decide_eq_true_eq] at hlive
    have hlt := h c hc d hd
    omega
  rw [membersOf, List.filter_append]
  exact (congrArg (membersOf first c.matchId ++ ·) hnone).trans (List.append_nil _)

/-- **Later matches extend the groups of earlier ones**: every group of `groupCaptures`
has one that `Extends` it. -/
theorem groupCaptures_append {first more : List Capture} (h : Precede first more)
    {group : Group} (hgroup : group ∈ groupCaptures first) :
    ∃ later ∈ groupCaptures (first ++ more), group.Extends later := by
  have hmerge := merge?_of_mem hgroup
  -- the groups of the definition begin with those of the earlier matches
  have hearlier :
      (liveMatchIds first).filterMap (definitionGroup? (first ++ more) group.definition) =
      (liveMatchIds first).filterMap (definitionGroup? first group.definition) := by
    refine List.filterMap_congr fun matchId hmatch => ?_
    rw [definitionGroup?, matchGroup?, membersOf_append_of_mem h hmatch, definitionGroup?,
      matchGroup?]
  have hfind := find?_groupCaptures (first ++ more) group.definition
  rw [liveMatchIds_append h, List.filterMap_append, hearlier] at hfind
  obtain ⟨later, hlater, hextends⟩ := merge?_append hmerge
    ((liveMatchIds more).filterMap (definitionGroup? (first ++ more) group.definition))
  exact ⟨later, List.mem_of_find?_eq_some (hfind.trans hlater), hextends⟩

/-! ### The captures of a run -/

section Captures

variable (t : SyntaxTree)

/-- `taggedFrom` numbers the matches that follow others on from them. -/
theorem taggedFrom_append (first : Nat) (ms more : List Match) :
    taggedFrom t first (ms ++ more) = taggedFrom t first ms ++
      taggedFrom t (first + ms.length) more := by
  induction ms generalizing first with
  | nil => rfl
  | cons m ms ih =>
    rw [List.cons_append, taggedFrom, ih, taggedFrom, List.append_assoc, List.length_cons,
      Nat.add_assoc, Nat.add_comm 1]

/-- The captures of matches have the numbers of these. -/
theorem matchId_of_mem_taggedFrom {first : Nat} {ms : List Match} {capture : Capture}
    (h : capture ∈ taggedFrom t first ms) :
    first ≤ capture.matchId ∧ capture.matchId < first + ms.length := by
  induction ms generalizing first with
  | nil => cases h
  | cons m ms ih =>
    rw [List.length_cons]
    rcases List.mem_append.1 h with hm | hms
    · obtain ⟨pair, -, hmap⟩ := List.mem_filterMap.1 hm
      obtain ⟨node, -, rfl⟩ := Option.map_eq_some_iff.1 hmap
      exact ⟨Nat.le_refl _, by dsimp only; omega⟩
    · have := ih hms
      omega

/-- A larger limit adds captures of later matches to `firstMatches`. -/
theorem captures_firstMatches_append {l₁ l₂ : Nat} (h : atLeastOne l₁ ≤ atLeastOne l₂)
    (ms : List Match) :
    ∃ more, (firstMatches t l₂ ms).captures = (firstMatches t l₁ ms).captures ++ more ∧
      Precede (firstMatches t l₁ ms).captures more := by
  obtain ⟨later, hsplit⟩ : ms.take (atLeastOne l₁) <+: ms.take (atLeastOne l₂) :=
    List.take_prefix_take_left h
  refine ⟨taggedFrom t (0 + (ms.take (atLeastOne l₁)).length) later, ?_, fun c hc d hd => ?_⟩
  · rw [firstMatches, firstMatches, ← hsplit, taggedFrom_append]
  · have hearly := matchId_of_mem_taggedFrom t hc
    have hlate := matchId_of_mem_taggedFrom t hd
    omega

/-- A larger limit changes nothing where a smaller one cuts nothing off. -/
theorem firstMatches_eq_of_not_truncated {l₁ l₂ : Nat} (h : atLeastOne l₁ ≤ atLeastOne l₂)
    {ms : List Match} (hall : (firstMatches t l₁ ms).truncated = false) :
    firstMatches t l₂ ms = firstMatches t l₁ ms := by
  have hlen : ms.length ≤ atLeastOne l₁ := by
    rw [firstMatches, decide_eq_false_iff_not] at hall
    omega
  have hlen' : ms.length ≤ atLeastOne l₂ := Nat.le_trans hlen h
  rw [firstMatches, firstMatches, List.take_of_length_le hlen, List.take_of_length_le hlen',
    Nat.min_eq_left hlen, Nat.min_eq_left hlen', decide_eq_false (Nat.not_lt.2 hlen),
    decide_eq_false (Nat.not_lt.2 hlen')]

end Captures

section Results

variable {t : SyntaxTree} {settings : QuerySettings}

/-- The outcome of a run without a time budget, by what was collected and whether the room
for partial matches did not suffice. -/
def untimedResult (patternCount : Nat) (hasError : Bool) (collected : Collected)
    (exceeded : Bool) :
    Result where
  captures := collected.captures
  patternCount := patternCount
  captureCount := collected.captures.length
  matchCount := collected.matchCount
  truncated := collected.truncated || exceeded
  isValid := !hasError
  errors := (if hasError then [partialNote] else [])
    ++ (if collected.truncated || exceeded then [truncatedNote collected.matchCount] else [])

/-- Without a time budget the clock does not matter: `firstMatches` and the room for
partial ones decide. -/
theorem resultOf_of_untimed (h : settings.timeout = none) (patternCount : Nat) (clock : Clock)
    (hasError : Bool) (delivery : Delivery) :
    resultOf t patternCount settings clock hasError delivery =
      untimedResult patternCount hasError (firstMatches t settings.matchLimit delivery.found)
        delivery.exceeded := by
  rw [resultOf, collect_of_untimed t h]
  simp only [firstMatches, Bool.or_false, Bool.false_eq_true, if_false]
  rfl

end Results

/-! ### More lists of captures -/

/-- The outcomes `x₁` and `x₂` of a step at a board, the second with more lists of
captures, are the same unless the run is exceeded after the first. What is exceeded stays
so. -/
def Steady {β : Type} (board : Board) (x₁ x₂ : β × Board) : Prop :=
  x₁.2.exceeded = false → board.exceeded = false ∧ x₂ = x₁

/-- A step that wants no list is `Steady`. -/
theorem Steady.refl {β : Type} {board : Board} {x : β × Board}
    (h : x.2.exceeded = board.exceeded) :
    Steady board x x := by
  intro hcalm
  rw [h] at hcalm
  exact ⟨hcalm, rfl⟩

section Steps

variable {arena : Arena} {c₁ c₂ : Nat}

/-- There is room without giving anything up, or the run is exceeded. -/
theorem steady_makeRoom (hle : c₁ ≤ c₂) (own : List PartialMatch) (board : Board) :
    Steady board (makeRoom arena c₁ own board) (makeRoom arena c₂ own board) := by
  intro hcalm
  unfold makeRoom at hcalm ⊢
  dsimp only at hcalm ⊢
  by_cases hroom : (board.before.reverse ++ own ++ board.after).countP PartialMatch.isHolding <
    c₁
  · rw [if_pos hroom] at hcalm ⊢
    rw [if_pos (Nat.lt_of_lt_of_le hroom hle)]
    exact ⟨hcalm, rfl⟩
  · rw [if_neg hroom] at hcalm
    split at hcalm
    · cases hcalm
    · split at hcalm
      · cases hcalm
      · split at hcalm
        · cases hcalm
        · cases hcalm

/-- `makeCopy` is steady: it asks for room once. -/
theorem steady_makeCopy (hle : c₁ ≤ c₂) (p : PartialMatch) (board : Board) :
    Steady board (makeCopy arena c₁ p board) (makeCopy arena c₂ p board) := by
  unfold makeCopy
  split
  · exact steady_makeRoom hle [p] board
  · exact .refl rfl

/-- `branchOut` is steady, by induction over the branches. -/
theorem steady_branchOut (hle : c₁ ≤ c₂) (depth : Nat) (later : List (Nat × Pattern))
    (branches : List Pattern) (p : PartialMatch) (board : Board) :
    Steady board (branchOut arena c₁ depth later branches p board)
      (branchOut arena c₂ depth later branches p board) := by
  induction branches generalizing p board with
  | nil => exact .refl rfl
  | cons branch branches ih =>
    intro hcalm
    rw [branchOut] at hcalm
    rw [branchOut, branchOut]
    dsimp only at hcalm ⊢
    split at hcalm
    · rename_i hcopied
      obtain ⟨hcopy, hrest⟩ := ih _ _ hcalm
      obtain ⟨hboard, hsame⟩ := steady_makeCopy hle p board hcopy
      refine ⟨hboard, ?_⟩
      rw [hsame, if_pos hcopied, if_pos hcopied]
      exact hrest
    · rename_i hcopied
      obtain ⟨hboard, hsame⟩ := steady_makeCopy hle p board hcalm
      refine ⟨hboard, ?_⟩
      rw [hsame, if_neg hcopied, if_neg hcopied]

/-- `passOver` is steady: it makes at most one copy. -/
theorem steady_passOver (hle : c₁ ≤ c₂) (isWanted : Bool) (p : PartialMatch) (board : Board) :
    Steady board (passOver arena c₁ isWanted p board)
      (passOver arena c₂ isWanted p board) := by
  unfold passOver
  split
  · intro hcalm
    obtain ⟨hboard, hsame⟩ := steady_makeCopy hle p board hcalm
    rw [hsame]
    exact ⟨hboard, rfl⟩
  · exact .refl rfl

/-- `roomFor` is steady: it asks for room at most once. -/
theorem steady_roomFor (hle : c₁ ≤ c₂) (captures : List String) (p : PartialMatch)
    (skipping : List PartialMatch) (board : Board) :
    Steady board (roomFor arena c₁ captures p skipping board)
      (roomFor arena c₂ captures p skipping board) := by
  unfold roomFor
  split
  · exact .refl rfl
  · exact steady_makeRoom hle skipping board

/-- `proceed` is steady, whether or not the pattern has branches. -/
theorem steady_proceed (hle : c₁ ≤ c₂) (p : PartialMatch) (skipping : List PartialMatch)
    (board : Board) :
    Steady board (proceed arena c₁ p skipping board) (proceed arena c₂ p skipping board) := by
  unfold proceed
  split
  · rename_i next pattern rest hpending
    split
    · rename_i branch branches hbranches
      intro hcalm
      obtain ⟨hboard, hsame⟩ := steady_branchOut hle next rest branches _ _ hcalm
      dsimp only
      rw [hsame]
      exact ⟨hboard, rfl⟩
    · exact .refl rfl
  · exact .refl rfl

/-- `visit` of a node with a partial match is `Steady`. -/
theorem steady_visit (hle : c₁ ≤ c₂) (index depth : Nat) (p : PartialMatch) (board : Board) :
    Steady board (visit arena c₁ index depth p board)
      (visit arena c₂ index depth p board) := by
  unfold visit
  split
  · rename_i level test field absent captures children later hpending
    split
    · exact .refl rfl
    · split
      · exact .refl rfl
      · dsimp only
        split
        · exact .refl rfl
        · generalize (canMatchLater arena p field index &&
            ((Pattern.node test field absent captures children).hasCaptures ||
              !children.isEmpty)) = isOpen
          intro hcalm
          -- the three steps in turn, from the last to the first
          have hroom : (roomFor arena c₁ captures p (passOver arena c₁ isOpen p board).1
              (passOver arena c₁ isOpen p board).2).2.exceeded = false := by
            split at hcalm
            · exact hcalm
            · exact (steady_proceed hle _ _ _ hcalm).1
          obtain ⟨hpassed, hsameRoom⟩ := steady_roomFor hle captures p _ _ hroom
          obtain ⟨hboard, hsamePassed⟩ := steady_passOver hle isOpen p board hpassed
          refine ⟨hboard, ?_⟩
          rw [hsamePassed, hsameRoom]
          split at hcalm
          · rename_i hfull
            rw [if_pos hfull, if_pos hfull]
          · rename_i hfree
            rw [if_neg hfree, if_neg hfree]
            exact (steady_proceed hle _ _ _ hcalm).2
  · exact .refl rfl

/-- `visitAll` at a node comes out the same with more lists of captures. -/
theorem visitAll_eq_of_le (hle : c₁ ≤ c₂) (index depth fuel : Nat) {board : Board}
    (hcalm : (visitAll arena c₁ index depth fuel board).exceeded = false) :
    board.exceeded = false ∧
      visitAll arena c₂ index depth fuel board = visitAll arena c₁ index depth fuel board := by
  induction fuel generalizing board with
  | zero => exact ⟨hcalm, rfl⟩
  | succ fuel ih =>
    rw [visitAll] at hcalm
    rw [visitAll, visitAll]
    split at hcalm
    · exact ⟨hcalm, rfl⟩
    · rename_i p rest hafter
      dsimp only at hcalm ⊢
      obtain ⟨hvisited, hrest⟩ := ih hcalm
      obtain ⟨hboard, hsame⟩ :=
        steady_visit hle index depth p { board with after := rest } hvisited
      rw [hsame]
      exact ⟨hboard, hrest⟩

/-- `enter` at a node comes out the same with more lists of captures. -/
theorem enter_eq_of_le (hle : c₁ ≤ c₂) (query : Query) (mayStart : Nat → Bool) (index : Nat)
    {cursor : Cursor} (hcalm : (cursor.enter arena query c₁ mayStart index).exceeded = false) :
    cursor.exceeded = false ∧
      cursor.enter arena query c₂ mayStart index =
        cursor.enter arena query c₁ mayStart index := by
  obtain ⟨hcursor, hsame⟩ := visitAll_eq_of_le hle index _ _ hcalm
  refine ⟨hcursor, ?_⟩
  unfold Cursor.enter
  dsimp only
  rw [hsame]

/-- **A run that was not exceeded** comes out the same with more lists of captures
(`runBounded`). -/
theorem runBounded_eq_of_le (hle : c₁ ≤ c₂) {query : Query} {root : Nat}
    {maxStartDepth : Option Nat}
    (hcalm : (runBounded arena query root maxStartDepth c₁).exceeded = false) :
    runBounded arena query root maxStartDepth c₂ =
      runBounded arena query root maxStartDepth c₁ := by
  unfold runBounded at hcalm ⊢
  dsimp only at hcalm ⊢
  generalize (fun depth => maxStartDepth.all fun most =>
    decide (depth - (arena.nodes[root]?.map (·.depth)).getD 0 ≤ most)) = mayStart at hcalm ⊢
  generalize List.range' root (arena.subtreeEnd root - root) = indices at hcalm ⊢
  have hfold : ∀ (cursor : Cursor),
      (indices.foldl (fun cursor index => cursor.enter arena query c₁ mayStart index)
        cursor).exceeded = false →
      cursor.exceeded = false ∧
        indices.foldl (fun cursor index => cursor.enter arena query c₂ mayStart index) cursor =
          indices.foldl (fun cursor index => cursor.enter arena query c₁ mayStart index)
            cursor := by
    clear hcalm
    induction indices with
    | nil => exact fun _ hcursor => ⟨hcursor, rfl⟩
    | cons index indices ih =>
      intro cursor hcursor
      rw [List.foldl_cons] at hcursor
      rw [List.foldl_cons, List.foldl_cons]
      obtain ⟨hentered, hrest⟩ := ih _ hcursor
      obtain ⟨hstart, hsame⟩ := enter_eq_of_le hle query mayStart index hentered
      rw [hsame]
      exact ⟨hstart, hrest⟩
  exact (hfold {} hcalm).2

/-- What `deliverWithin` delivers without being exceeded is delivered with more lists of
captures. -/
theorem deliverWithin_eq_of_le (hle : c₁ ≤ c₂) {query : Query} {root : Nat}
    {maxStartDepth : Option Nat}
    (hcalm : (deliverWithin arena query root maxStartDepth c₁).exceeded = false) :
    deliverWithin arena query root maxStartDepth c₂ =
      deliverWithin arena query root maxStartDepth c₁ := by
  have hrun : (runBounded arena query root maxStartDepth c₁).exceeded = false := by
    unfold deliverWithin at hcalm
    dsimp only at hcalm
    split at hcalm
    · cases hcalm
    · rename_i hcalm'
      exact Bool.eq_false_iff.2 hcalm'
  unfold deliverWithin
  rw [runBounded_eq_of_le hle hrun]

end Steps

/-! ### Two limits -/

section Limits

variable {t : SyntaxTree} {settings : QuerySettings} {l₁ l₂ : Nat}

/-- More room changes nothing for a run of the engine that was not exceeded. -/
theorem run_eq_of_le {arena : Arena} {query : Query} {root : Nat}
    {maxStartDepth : Option Nat} {c₁ c₂ : Nat} (hle : c₁ ≤ c₂)
    (hcalm : (run arena query root maxStartDepth c₁).exceeded = false) :
    run arena query root maxStartDepth c₂ = run arena query root maxStartDepth c₁ := by
  have hhits : deliverWithin arena query root maxStartDepth c₂ =
      deliverWithin arena query root maxStartDepth c₁ := deliverWithin_eq_of_le hle hcalm
  rw [run, run, hhits]

variable {parse : Language → Grammar → Bytes → Option Tree}
  {vocabulary : Language → Grammar → Vocabulary}
  {clock₁ clock₂ : Clock}

/-- **A run that was not truncated** has the same outcome under every larger limit, at any
time. -/
theorem execute_eq_of_not_truncated (hbudget : settings.timeout = none)
    (hle : atLeastOne l₁ ≤ atLeastOne l₂) {query : Query} {root : Handle} {result : Result}
    (h : execute (engine parse vocabulary) clock₁ t query root
      { settings with matchLimit := l₁ } = .ok result)
    (hall : result.truncated = false) :
    execute (engine parse vocabulary) clock₂ t query root { settings with matchLimit := l₂ } =
      .ok result := by
  unfold execute at h ⊢
  cases hnode : t.engineNode root with
  | error e =>
    rw [hnode] at h
    cases h
  | ok node =>
    rw [hnode] at h
    obtain rfl := Except.ok.inj h
    rw [resultOf_of_untimed (by exact hbudget)] at hall ⊢
    obtain ⟨hcollected, hcalm⟩ := Bool.or_eq_false_iff.1 hall
    have hdelivery := run_eq_of_le hle hcalm
    dsimp only [bind, Except.bind, engine] at hdelivery hcollected ⊢
    rw [hdelivery, resultOf_of_untimed (by exact hbudget),
      firstMatches_eq_of_not_truncated t hle hcollected]

end Limits

/-- **Raising a limit.** Let runs of a query under two limits, without a time budget, be
delivered one sequence of matches. What is captured under the smaller limit comes first
under the larger one, and every group stays: it has the same definition and pattern, and
the parts that it has. Where the smaller limit cut nothing off, the larger one changes
nothing, except that the run may be noted as exceeded; and a run of `Query.engine` is not. -/
theorem raising_limit_extends (t : SyntaxTree) (settings : QuerySettings)
    (hbudget : settings.timeout = none) {l₁ l₂ : Nat} (hle : atLeastOne l₁ ≤ atLeastOne l₂) :
    (∀ (patternCount : Nat) (clock₁ clock₂ : Clock) (hasError : Bool) (d₁ d₂ : Delivery),
      d₁.found = d₂.found →
      let r₁ := resultOf t patternCount { settings with matchLimit := l₁ } clock₁ hasError d₁
      let r₂ := resultOf t patternCount { settings with matchLimit := l₂ } clock₂ hasError d₂
      r₁.captures <+: r₂.captures ∧
      (∀ group ∈ groupCaptures r₁.captures,
        ∃ later ∈ groupCaptures r₂.captures, group.Extends later) ∧
      (r₁.truncated = false →
        r₂ = { r₁ with truncated := d₂.exceeded, errors := r₂.errors } ∧
          (d₂.exceeded = false → r₂ = r₁))) ∧
    ∀ (parse : Language → Grammar → Bytes → Option Tree)
      (vocabulary : Language → Grammar → Vocabulary)
      (clock₁ clock₂ : Clock) (query : Query) (root : Handle) (result : Result),
      execute (engine parse vocabulary) clock₁ t query root
        { settings with matchLimit := l₁ } =
        .ok result → result.truncated = false →
        execute (engine parse vocabulary) clock₂ t query root
          { settings with matchLimit := l₂ } =
          .ok result := by
  refine ⟨fun patternCount clock₁ clock₂ hasError d₁ d₂ hfound => ?_,
    fun _ _ _ _ _ root result => execute_eq_of_not_truncated hbudget hle⟩
  rw [resultOf_of_untimed (by exact hbudget), resultOf_of_untimed (by exact hbudget), hfound]
  obtain ⟨more, hcaptures, hprecede⟩ := captures_firstMatches_append t hle d₂.found
  refine ⟨⟨more, hcaptures.symm⟩, fun group hgroup => ?_, fun hall => ?_⟩
  · have hlater := groupCaptures_append hprecede hgroup
    rwa [← hcaptures] at hlater
  · obtain ⟨hcollected, hcalm⟩ := Bool.or_eq_false_iff.1 hall
    dsimp only at hcollected ⊢
    rw [firstMatches_eq_of_not_truncated t hle hcollected]
    refine ⟨?_, fun hcalm' => ?_⟩
    · rw [untimedResult, untimedResult, hcollected]
      rfl
    · rw [hcalm, hcalm']

/-- A leaf of which nothing is known but the engine's number. -/
def leaf (id : Nat) : Tree :=
  .node { (default : NodeRecord) with id } []

/-- Two matches of one definition of which only the second has a name: a limit that counts
as 1 gives a group without a name, and the next larger one fills it. -/
theorem raising_limit_extends_name :
    let t := SyntaxTree.ofTree 0 .python [] (.node default [leaf 1, leaf 2])
    let delivery : Delivery :=
      { events :=
          [.found ⟨0, [("class.def", leaf 1)]⟩,
           .found ⟨1, [("class.def", leaf 1), ("class.name", leaf 2)]⟩]
        exceeded := false }
    let r₁ := resultOf t 2 { matchLimit := 0 } (fun _ => 0) false delivery
    let r₂ := resultOf t 2 { matchLimit := 2 } (fun _ => 7) false delivery
    atLeastOne 0 ≤ atLeastOne 2 ∧ groupCaptures r₁.captures = [⟨⟨0, 1⟩, none, none, none, 0⟩] ∧
      r₁.captures <+: r₂.captures ∧
      ∃ later ∈ groupCaptures r₂.captures, Group.Extends ⟨⟨0, 1⟩, none, none, none, 0⟩
        later := by
  intro t delivery r₁ r₂
  have hgroups : groupCaptures r₁.captures = [⟨⟨0, 1⟩, none, none, none, 0⟩] := by decide
  have hraised := (raising_limit_extends t {} rfl (by decide : atLeastOne 0 ≤ atLeastOne 2)).1
    2 (fun _ => 0) (fun _ => 7) false delivery delivery rfl
  refine ⟨by decide, hgroups, hraised.1, hraised.2.1 _ ?_⟩
  rw [show groupCaptures _ = _ from hgroups]
  exact List.mem_singleton.2 rfl

end SourceOutline.Query
