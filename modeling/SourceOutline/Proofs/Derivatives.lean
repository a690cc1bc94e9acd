import SourceOutline.Regex.Search

/-!
# The Search Finds What Occurs

The running search keeps partial derivatives of an expression; what the expression means
is said by the relation `Regex.Matches`. The two agree: the search succeeds on a text
exactly if the expression matches some part of it.

A match that reads nothing is what `nullable` decides, since an assertion looks at no more
than the two symbols next to its place (`matches_nil_iff`). A match that reads a symbol
first goes on as a match of one of the derivatives, which stands one symbol further on
(`matches_cons_iff`). For a repetition this is so because the rounds that read nothing can
be left out (`exists_round_of_matches_star`).

`Begins r before rest` says that a match starts between `before` and `rest`, wherever it
ends. The search goes over the places of a text and keeps, for each match begun so far,
what is still to be matched (`searchFrom_iff`).

## Main results

* `matches_seq_iff`, `matches_star_iff`, ...: what a match of each kind of expression
  consists of.
* `matches_nil_iff`, `matches_cons_iff`: matches by their first symbol.
* `search_iff_occurs`: **the search finds exactly the expressions that occur.**
-/

namespace SourceOutline.Regex

variable {r s : Regex} {before mid after rest : Subject}

/-! ### What a match consists of -/

theorem not_matches_fail : ¬ Matches .fail before mid after := by
  intro h
  cases h

theorem matches_empty_iff : Matches .empty before mid after ↔ mid = [] := by
  constructor
  · intro h
    cases h
    rfl
  · rintro rfl
    exact .empty before after

/-- `set` matches one symbol that it accepts. -/
theorem matches_set_iff {set : CharSet} :
    Matches (.set set) before mid after ↔ ∃ x, mid = [x] ∧ accepts set x = true := by
  constructor
  · intro h
    cases h with
    | set before after h => exact ⟨_, rfl, h⟩
  · rintro ⟨x, rfl, hx⟩
    cases x with
    | none => cases hx
    | some c => exact .set before after hx

/-- `look` reads nothing, at a place where its assertion holds. -/
theorem matches_look_iff {a : Assertion} :
    Matches (.look a) before mid after ↔ mid = [] ∧
      a.holds (placeBetween before after) = true := by
  constructor
  · intro h
    cases h with
    | look before after h => exact ⟨rfl, h⟩
  · rintro ⟨rfl, h⟩
    exact .look before after h

/-- `seq` matches two parts, one after the other. -/
theorem matches_seq_iff :
    Matches (.seq r s) before mid after ↔
      ∃ left right, mid = left ++ right ∧ Matches r before left (right ++ after) ∧
        Matches s (before ++ left) right after := by
  constructor
  · intro h
    cases h with
    | seq hr hs => exact ⟨_, _, rfl, hr, hs⟩
  · rintro ⟨left, right, rfl, hr, hs⟩
    exact .seq hr hs

theorem matches_alt_iff :
    Matches (.alt r s) before mid after ↔ Matches r before mid after ∨
      Matches s before mid after := by
  constructor
  · intro h
    cases h with
    | altLeft h => exact Or.inl h
    | altRight h => exact Or.inr h
  · rintro (h | h)
    · exact .altLeft h
    · exact .altRight h

/-- `star` reads nothing, or makes one round and goes on. -/
theorem matches_star_iff :
    Matches (.star r) before mid after ↔
      mid = [] ∨ ∃ left right, mid = left ++ right ∧ Matches r before left (right ++ after) ∧
        Matches (.star r) (before ++ left) right after := by
  constructor
  · intro h
    cases h with
    | starNil => exact Or.inl rfl
    | starCons hr hs => exact Or.inr ⟨_, _, rfl, hr, hs⟩
  · rintro (rfl | ⟨left, right, rfl, hr, hs⟩)
    · exact .starNil before after
    · exact .starCons hr hs

/-! ### Matches by their first symbol -/

/-- **A match that reads nothing** depends on its place only: the expression is `nullable`
there. -/
theorem matches_nil_iff :
    Matches r before [] after ↔ r.nullable (placeBetween before after) = true := by
  induction r with
  | fail => simp [not_matches_fail, nullable]
  | empty => simp [matches_empty_iff, nullable]
  | set set => simp [matches_set_iff, nullable]
  | look a => simp [matches_look_iff, nullable]
  | alt r s ihr ihs => simp [matches_alt_iff, nullable, ihr, ihs]
  | star r => exact iff_of_true (.starNil before after) rfl
  | seq r s ihr ihs =>
    rw [nullable, Bool.and_eq_true, ← ihr, ← ihs, matches_seq_iff]
    constructor
    · rintro ⟨left, right, hmid, hr, hs⟩
      obtain ⟨rfl, rfl⟩ := List.append_eq_nil_iff.1 hmid.symm
      exact ⟨hr, by simpa using hs⟩
    · rintro ⟨hr, hs⟩
      exact ⟨[], [], rfl, hr, by simpa using hs⟩

/-- A sequence that reads a symbol first reads it in its first part, or in its second one
after nothing. -/
theorem matches_seq_cons_iff {x : Symbol} :
    Matches (.seq r s) before (x :: mid) after ↔
      (∃ left right, mid = left ++ right ∧ Matches r before (x :: left) (right ++ after) ∧
        Matches s (before ++ x :: left) right after) ∨
      Matches r before [] (x :: mid ++ after) ∧ Matches s before (x :: mid) after := by
  rw [matches_seq_iff]
  constructor
  · rintro ⟨left, right, hmid, hr, hs⟩
    rcases List.cons_eq_append_iff.1 hmid with ⟨rfl, rfl⟩ | ⟨left, rfl, rfl⟩
    · exact Or.inr ⟨hr, by simpa using hs⟩
    · exact Or.inl ⟨left, right, rfl, hr, hs⟩
  · rintro (⟨left, right, rfl, hr, hs⟩ | ⟨hr, hs⟩)
    · exact ⟨x :: left, right, rfl, hr, hs⟩
    · exact ⟨[], x :: mid, rfl, hr, by simpa using hs⟩

/-- The first round of a repetition that reads something. -/
theorem exists_round_of_matches_star {x : Symbol}
    (h : Matches (.star r) before (x :: mid) after) :
    ∃ left right, mid = left ++ right ∧ Matches r before (x :: left) (right ++ after) ∧
      Matches (.star r) (before ++ x :: left) right after := by
  generalize hexpr : Regex.star r = expr at h
  generalize hread : x :: mid = read at h
  induction h with
  | empty | set | look | seq | altLeft | altRight => cases hexpr
  | starNil => cases hread
  | @starCons r before left right after hr hs _ ih =>
    obtain rfl := Regex.star.inj hexpr
    -- a round that reads nothing is passed over
    rcases List.cons_eq_append_iff.1 hread with ⟨rfl, rfl⟩ | ⟨left, rfl, rfl⟩
    · simpa using ih rfl rfl
    · exact ⟨left, right, rfl, hr, hs⟩

/-- `followedBy` is `seq`, but for a first part that reads nothing. -/
theorem matches_followedBy_iff {d : Regex} :
    Matches (followedBy d s) before mid after ↔ Matches (.seq d s) before mid after := by
  cases d with
  | empty =>
    rw [followedBy, matches_seq_iff]
    constructor
    · intro h
      exact ⟨[], mid, rfl, .empty _ _, by simpa using h⟩
    · rintro ⟨left, right, rfl, hleft, h⟩
      obtain rfl := matches_empty_iff.1 hleft
      simpa using h
  | fail | set | look | seq | alt | star => rfl

/-- The `derivatives` of an expression with another one after them. -/
theorem exists_mem_map_followedBy_iff {x : Symbol} {found : List Regex}
    (hr : ∀ {left after : Subject}, Matches r before (x :: left) after ↔
      ∃ d ∈ found, Matches d (before ++ [x]) left after) :
    (∃ d ∈ found.map (followedBy · s), Matches d (before ++ [x]) mid after) ↔
      ∃ left right, mid = left ++ right ∧ Matches r before (x :: left) (right ++ after) ∧
        Matches s (before ++ x :: left) right after := by
  simp only [List.mem_map, hr]
  constructor
  · rintro ⟨_, ⟨d, hd, rfl⟩, h⟩
    obtain ⟨left, right, rfl, hleft, hright⟩ := matches_seq_iff.1 (matches_followedBy_iff.1 h)
    exact ⟨left, right, rfl, ⟨d, hd, hleft⟩, by simpa using hright⟩
  · rintro ⟨left, right, rfl, ⟨d, hd, hleft⟩, hright⟩
    refine ⟨followedBy d s, ⟨d, hd, rfl⟩, matches_followedBy_iff.2 (.seq hleft ?_)⟩
    simpa using hright

/-- **A match that reads a symbol first** goes on as a match of one of the
`derivatives`. -/
theorem matches_cons_iff {x : Symbol} :
    Matches r before (x :: mid) after ↔
      ∃ d ∈ r.derivatives before.getLast? x, Matches d (before ++ [x]) mid after := by
  induction r generalizing mid after with
  | fail => simp [not_matches_fail, derivatives]
  | empty => simp [matches_empty_iff, derivatives]
  | look a => simp [matches_look_iff, derivatives]
  | set set =>
    rw [matches_set_iff, derivatives]
    split
    next hx =>
      simp only [List.cons.injEq, List.mem_singleton, exists_eq_left, matches_empty_iff]
      exact ⟨fun ⟨_, ⟨_, hmid⟩, _⟩ => hmid, fun hmid => ⟨x, ⟨rfl, hmid⟩, hx⟩⟩
    next hx =>
      simp only [List.cons.injEq, List.not_mem_nil, false_and, exists_false, iff_false]
      rintro ⟨_, ⟨rfl, _⟩, h⟩
      exact hx h
  | alt r s ihr ihs =>
    rw [matches_alt_iff, ihr, ihs, derivatives]
    simp only [List.mem_append, or_and_right, exists_or]
  | star r ih =>
    rw [derivatives, exists_mem_map_followedBy_iff ih]
    constructor
    · exact exists_round_of_matches_star
    · rintro ⟨left, right, rfl, hr, hs⟩
      exact .starCons hr hs
  | seq r s ihr ihs =>
    -- the second part reads the symbol if the first can read nothing here
    have hplace : Matches r before [] (x :: mid ++ after) ↔
        r.nullable ⟨before.getLast?, some x⟩ = true :=
      matches_nil_iff
    rw [matches_seq_cons_iff, hplace, derivatives, ihs, ← exists_mem_map_followedBy_iff ihr]
    split
    next hnull => simp only [hnull, true_and, List.mem_append, or_and_right, exists_or]
    next hnull => simp only [hnull, false_and, or_false, Bool.false_eq_true]

/-! ### Where a match begins -/

/-- A match of `r` starts between `before` and `rest`. -/
def Begins (r : Regex) (before rest : Subject) : Prop :=
  ∃ mid after, rest = mid ++ after ∧ Matches r before mid after

/-- At the end of a text, a match starts that is `nullable` there. -/
theorem begins_nil_iff : Begins r before [] ↔ r.nullable ⟨before.getLast?, none⟩ = true := by
  have hnull : Matches r before [] [] ↔ r.nullable ⟨before.getLast?, none⟩ = true :=
    matches_nil_iff
  rw [← hnull]
  constructor
  · rintro ⟨mid, after, hrest, h⟩
    obtain ⟨rfl, rfl⟩ := List.append_eq_nil_iff.1 hrest.symm
    exact h
  · intro h
    exact ⟨[], [], rfl, h⟩

/-- A match that `Begins` before a symbol reads nothing, or goes on as a match of a
derivative after it. -/
theorem begins_cons_iff {x : Symbol} :
    Begins r before (x :: rest) ↔
      r.nullable ⟨before.getLast?, some x⟩ = true ∨
      ∃ d ∈ r.derivatives before.getLast? x, Begins d (before ++ [x]) rest := by
  have hnull : Matches r before [] (x :: rest) ↔ r.nullable ⟨before.getLast?, some x⟩ = true :=
    matches_nil_iff
  rw [← hnull]
  constructor
  · rintro ⟨mid, after, hrest, h⟩
    rcases List.cons_eq_append_iff.1 hrest with ⟨rfl, rfl⟩ | ⟨mid, rfl, rfl⟩
    · exact Or.inl h
    · obtain ⟨d, hd, h⟩ := matches_cons_iff.1 h
      exact Or.inr ⟨d, hd, mid, after, rfl, h⟩
  · rintro (h | ⟨d, hd, mid, after, rfl, h⟩)
    · exact ⟨[], x :: rest, rfl, h⟩
    · exact ⟨x :: mid, after, rfl, matches_cons_iff.2 ⟨d, hd, h⟩⟩

/-- An expression occurs in a text if a match starts at one of its places. -/
theorem occurs_iff {text : Subject} :
    Occurs r text ↔ ∃ skipped rest, text = skipped ++ rest ∧ Begins r skipped rest := by
  constructor
  · rintro ⟨before, mid, after, rfl, h⟩
    exact ⟨before, mid ++ after, List.append_assoc .., mid, after, rfl, h⟩
  · rintro ⟨before, _, rfl, mid, after, rfl, h⟩
    exact ⟨before, mid, after, (List.append_assoc ..).symm, h⟩

/-! ### The search -/

/-- One step of the search: matches that were begun read nothing more, or go on after the
symbol. -/
theorem exists_begins_cons_iff {pending : List Regex} {x : Symbol} :
    (∃ d ∈ pending, Begins d before (x :: rest)) ↔
      pending.any (nullable ⟨before.getLast?, some x⟩) = true ∨
      ∃ d ∈ (pending.flatMap (derivatives before.getLast? x)).eraseDups,
        Begins d (before ++ [x]) rest := by
  simp only [begins_cons_iff, and_or_left, exists_or, List.any_eq_true, List.mem_eraseDups,
    List.mem_flatMap]
  refine or_congr_right ?_
  constructor
  · rintro ⟨d, hd, d', hd', h⟩
    exact ⟨d', ⟨d, hd, hd'⟩, h⟩
  · rintro ⟨d', ⟨d, hd, hd'⟩, h⟩
    exact ⟨d, hd, d', hd', h⟩

/-- A match starts at one of the places to come if it starts here or after the next symbol. -/
theorem exists_later_cons_iff {x : Symbol} :
    (∃ skipped later, x :: rest = skipped ++ later ∧ Begins r (before ++ skipped) later) ↔
      Begins r before (x :: rest) ∨
      ∃ skipped later, rest = skipped ++ later ∧
        Begins r (before ++ [x] ++ skipped) later := by
  constructor
  · rintro ⟨skipped, later, hrest, h⟩
    rcases List.cons_eq_append_iff.1 hrest with ⟨rfl, rfl⟩ | ⟨skipped, rfl, rfl⟩
    · exact Or.inl (by simpa using h)
    · exact Or.inr ⟨skipped, later, rfl, by simpa using h⟩
  · rintro (h | ⟨skipped, later, rfl, h⟩)
    · exact ⟨[], x :: rest, rfl, by simpa using h⟩
    · exact ⟨x :: skipped, later, rfl, by simpa using h⟩

/-- `searchFrom` goes on with the matches that were begun, and looks for a new one at
every place to come. -/
theorem searchFrom_iff {pending : List Regex} :
    searchFrom r before.getLast? pending rest = true ↔
      (∃ d ∈ pending, Begins d before rest) ∨
      ∃ skipped later, rest = skipped ++ later ∧ Begins r (before ++ skipped) later := by
  induction rest generalizing before pending with
  | nil =>
    simp only [searchFrom, List.any_cons, Bool.or_eq_true, List.any_eq_true, ← begins_nil_iff]
    constructor
    · rintro (h | h)
      · exact Or.inr ⟨[], [], rfl, by simpa using h⟩
      · exact Or.inl h
    · rintro (h | ⟨skipped, later, hnil, h⟩)
      · exact Or.inr h
      · obtain ⟨rfl, rfl⟩ := List.append_eq_nil_iff.1 hnil.symm
        exact Or.inl (by simpa using h)
  | cons x rest ih =>
    have hlast : (before ++ [x]).getLast? = some x := List.getLast?_concat
    have hgo :=
      @ih (before ++ [x]) ((r :: pending).flatMap (derivatives before.getLast? x)).eraseDups
    rw [hlast] at hgo
    rw [searchFrom, Bool.or_eq_true, hgo, ← or_assoc, ← exists_begins_cons_iff,
      exists_later_cons_iff, ← or_assoc]
    refine or_congr_left ?_
    simp only [List.mem_cons, exists_eq_or_imp]
    exact or_comm

/-- **`search` finds exactly the expressions that occur.** -/
theorem search_iff_occurs {text : Subject} : r.search text = true ↔ Occurs r text := by
  have h : r.search text = true ↔ _ := @searchFrom_iff r [] text []
  rw [h, occurs_iff]
  simp only [List.not_mem_nil, false_and, exists_false, false_or, List.nil_append]

end SourceOutline.Regex
