import SourceOutline.Proofs.EngineNodes
import SourceOutline.Proofs.Truncation

/-!
# Counting Matches

A run takes matches one by one and tests its limit between fetching a match and counting
it. So it is cut off by the first match beyond the limit, and not by reaching it. What the
loop has taken at each point is said where it is defined (`Query.takeUpTo_of_untimed`);
here it is carried to the outcome of a run, with the notes that go with it. Nothing is
assumed of the engine but what it delivers.

A run starts at the engine's own node, and the outcome says whether that node has errors.
It is the node that the arena has an entry for (`SyntaxTree.Owns.engineNode_eq`), so the
two agree about errors.

## Main results

* `Query.execute_of_untimed`: the outcome of a run without a time budget.
* `Query.match_limit_exact`: what a run reports of the matches that are delivered to it.
-/

namespace SourceOutline

namespace Query

/-! ### Numbered captures -/

/-- `taggedFrom` lists the captures of each match with its number, one after the other. -/
theorem taggedFrom_eq_flatMap (t : SyntaxTree) (first : Nat) (ms : List Match) :
    taggedFrom t first ms = (ms.zipIdx first).flatMap fun (m, matchId) =>
      m.tagged t matchId := by
  induction ms generalizing first with
  | nil => rfl
  | cons m ms ih => rw [taggedFrom, ih, List.zipIdx_cons, List.flatMap_cons]

/-- A match of which every node has a handle keeps all its captures in `tagged`. -/
theorem length_tagged (t : SyntaxTree) {m : Match}
    (h : ∀ capture ∈ m.captures, (t.handleFor? capture.2).isSome = true) (matchId : Nat) :
    (m.tagged t matchId).length = m.captures.length := by
  have hkept : m.captures.countP (fun capture =>
      ((t.handleFor? capture.2).map fun node =>
        Capture.mk capture.1 node m.patternIndex matchId).isSome) = m.captures.length := by
    refine List.countP_eq_length.2 fun capture hcapture => ?_
    rw [Option.isSome_map]
    exact h capture hcapture
  rw [Match.tagged, List.length_filterMap_eq_countP]
  exact hkept

/-- Matches of which every node has a handle keep all their captures. -/
theorem length_taggedFrom (t : SyntaxTree) (first : Nat) {ms : List Match}
    (h : ∀ m ∈ ms, ∀ capture ∈ m.captures, (t.handleFor? capture.2).isSome = true) :
    (taggedFrom t first ms).length = (ms.flatMap (·.captures)).length := by
  induction ms generalizing first with
  | nil => rfl
  | cons m ms ih =>
    rw [taggedFrom, List.length_append, length_tagged t (h m List.mem_cons_self),
      ih _ fun other hother => h other (List.mem_cons_of_mem _ hother), List.flatMap_cons,
      List.length_append]

/-! ### Outcomes -/

section Outcomes

variable {Q : Type} {engine : Engine Q} {clock : Clock} {t : SyntaxTree} {root : Handle}
  {settings : QuerySettings}

/-- **The outcome of a run without a time budget**, by `firstMatches` of what is
delivered. -/
theorem execute_of_untimed (clock : Clock) (query : Q) (hroot : t.Owns root)
    (hbudget : settings.timeout = none) {delivery : Delivery}
    (hdelivery : engine.run t.toArena query root.index settings.maxStartDepth
      (atLeastOne settings.matchLimit) = delivery) :
    ∃ entry, t.node root = .ok entry ∧
      execute engine clock t query root settings =
        .ok (untimedResult (engine.patternCount query) entry.record.hasError
          (firstMatches t settings.matchLimit delivery.found) delivery.exceeded) := by
  obtain ⟨place, tree, hold, hindex⟩ := Arena.exists_holds hroot.2
  refine ⟨_, SyntaxTree.node_of_read hroot.1 (hindex ▸ hold.getElem?), ?_⟩
  rw [execute, hroot.engineNode_eq hold hindex]
  dsimp only [bind, Except.bind]
  rw [hdelivery, resultOf_of_untimed hbudget]
  rfl

end Outcomes

/-- **Match limits are exact.** Let a run from a node of a tree, without a time budget, be
delivered the matches `ms`, with room for all partial ones. Let `l` be its limit, where 0
counts as 1. Then there is an outcome, and

* the number of matches is that of `ms`, but at most `l`;
* the captures are those of so many matches of `ms` from the first on, in order, each with
  the handle of the captured node, the pattern of its match and the position of its match
  in `ms`, and they are counted; a node without a handle is passed over, and if there is
  none, no capture is lost;
* the run is truncated just if `ms` has more than `l` matches;
* it is valid just if the node has no errors;
* there is a note on errors unless it is valid, and then a note on the number of matches
  if it is truncated, and no other notes. -/
theorem match_limit_exact {Q : Type} (engine : Engine Q) (clock : Clock) (t : SyntaxTree)
    (query : Q) {root : Handle} (hroot : t.Owns root) (settings : QuerySettings)
    (hbudget : settings.timeout = none) {ms : List Match}
    (hms : (engine.run t.toArena query root.index settings.maxStartDepth
      (max settings.matchLimit 1)).found = ms)
    (hroom : (engine.run t.toArena query root.index settings.maxStartDepth
      (max settings.matchLimit 1)).exceeded = false) :
    ∃ entry result, t.node root = .ok entry ∧
      execute engine clock t query root settings = .ok result ∧
      result.matchCount = min ms.length (max settings.matchLimit 1) ∧
      result.captures = (ms.take result.matchCount).zipIdx.flatMap (fun (m, position) =>
        m.captures.filterMap fun (name, tree) => (t.handleFor? tree).map fun node =>
          { name, node, patternIndex := m.patternIndex, matchId := position }) ∧
      result.captureCount = result.captures.length ∧
      ((∀ m ∈ ms, ∀ capture ∈ m.captures, (t.handleFor? capture.2).isSome = true) →
        result.captureCount = ((ms.take result.matchCount).flatMap (·.captures)).length) ∧
      (result.truncated = true ↔ max settings.matchLimit 1 < ms.length) ∧
      (result.isValid = true ↔ entry.record.hasError = false) ∧
      result.errors =
        (if result.isValid then []
          else ["subtree contains syntax errors; matches may be partial"])
          ++ (if result.truncated then
            ["truncated after " ++ toString result.matchCount ++ " matches"] else []) := by
  obtain ⟨entry, hentry, hresult⟩ := execute_of_untimed clock query hroot hbudget rfl
  have hdelivery : engine.run t.toArena query root.index settings.maxStartDepth
      (atLeastOne settings.matchLimit) =
        engine.run t.toArena query root.index settings.maxStartDepth
        (max settings.matchLimit 1) := rfl
  rw [hdelivery, hms, hroom] at hresult
  -- the first `l` matches are so many as are counted
  have htake : ms.take (min ms.length (atLeastOne settings.matchLimit)) =
      ms.take (atLeastOne settings.matchLimit) := by
    rw [Nat.min_comm]
    exact (List.take_eq_take_min ..).symm
  refine ⟨entry, _, hentry, hresult, rfl, ?_, rfl, fun hhandles => ?_, ?_, ?_, ?_⟩
  · dsimp only [untimedResult, firstMatches]
    rw [htake, taggedFrom_eq_flatMap]
    rfl
  · dsimp only [untimedResult, firstMatches]
    rw [htake]
    exact length_taggedFrom t 0 fun m hm => hhandles m (List.mem_of_mem_take hm)
  · rw [untimedResult, Bool.or_false]
    exact decide_eq_true_iff
  · rw [untimedResult, Bool.not_eq_true']
  · dsimp only [untimedResult]
    cases entry.record.hasError with
    | false => rfl
    | true => rfl

/-- A limit of 0 lets one of the two numbers of a faulty list through, and the run is
truncated after it. -/
theorem match_limit_exact_first_number :
    let engine := Query.engine (fun _ _ _ => none) fun _ _ => {}
    let query : Query :=
      { rules := [⟨.node (.anonymous "number") none [] ["value"] [], []⟩],
        captureNames := ["value"] }
    let t := SyntaxTree.faultyList
    let ms : List Match :=
      [⟨0, [("value", SyntaxTree.kindOnly 4 "number" [])]⟩,
       ⟨0, [("value", SyntaxTree.kindOnly 5 "number" [])]⟩]
    t.Owns ⟨0, 1⟩ ∧ (engine.run t.toArena query 1 none (max 0 1)).found = ms ∧
      (engine.run t.toArena query 1 none (max 0 1)).exceeded = false ∧
      ∃ result, execute engine (fun _ => 0) t query ⟨0, 1⟩ { matchLimit := 0 } = .ok result ∧
        result.matchCount = 1 ∧ result.captures = [⟨"value", ⟨0, 4⟩, 0, 0⟩] ∧
        result.captureCount = 1 ∧ result.truncated = true ∧
        result.errors = ["truncated after 1 matches"] := by
  intro engine query t ms
  have hroot : t.Owns ⟨0, 1⟩ := by decide
  have hhits : deliverWithin t.toArena query 1 none (max 0 1) =
      ⟨[⟨0, [("value", 4)]⟩, ⟨0, [("value", 5)]⟩], false⟩ := by decide
  have hms : (engine.run t.toArena query 1 none (max 0 1)).found = ms := by
    change (run t.toArena query 1 none (max 0 1)).found = ms
    rw [found_run, hhits]
    rfl
  have hroom : (engine.run t.toArena query 1 none (max 0 1)).exceeded = false := by
    change (run t.toArena query 1 none (max 0 1)).exceeded = false
    rw [run, hhits]
  obtain ⟨entry, result, hentry, hresult, hcount, hcaptures, -, hall, htruncated, hvalid,
      herrors⟩ :=
    match_limit_exact engine (fun _ => 0) t query hroot { matchLimit := 0 } rfl hms hroom
  have hsound : entry.record.hasError = false := by
    obtain rfl := Except.ok.inj hentry
    rfl
  have hcut : result.truncated = true := htruncated.2 (by decide)
  rw [hcount] at hcaptures hall
  rw [hvalid.2 hsound, hcut, hcount] at herrors
  exact ⟨hroot, hms, hroom, result, hresult, hcount, hcaptures, hall (by decide), hcut,
    herrors.trans (by decide)⟩

end Query

end SourceOutline
