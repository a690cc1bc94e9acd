import SourceOutline.Proofs.InterpreterLines

/-!
# Line Endings Do Not Matter

Putting a carriage return before each line feed of a text changes neither its interpreter
line nor the content markers that occur in it, so the text is recognised as before.

A match in the one text is carried over to the other. Every place of the text without
returns is a place of the text with them, and the only new places are those between a
return and its line feed (`exists_cut`). A match could stop in such a place, or start
there, and then it has no counterpart. Whether an expression can do so is decided by
looking at the expression:

* `startsClean`: no match starts between a return and a line feed. The derivatives of the
  expression tell this.
* `endsClean`: no match that reads something ends with a return.
* `carriesOver`: the matches of the expression are the same in both texts, read with or
  without returns. A run of blanks is such an expression, although a single blank is not.
* `ignoresReturns`: matches start at the same places, wherever they end. Here a single
  blank will do, and so will blanks up to the end of a line.

All content markers pass the test (`markers_ignoreReturns`).

## Main results

* `matches_withReturns_iff`, `begins_withReturns_iff`: soundness of `carriesOver` and of
  `ignoresReturns`.
* `occurs_withReturns_iff`: an expression that passes occurs in both texts or in neither.
* `detect_withReturns`: **the language of a text does not depend on its line endings.**
-/

namespace SourceOutline

/-- A text with a carriage return put before each line feed. -/
def Text.withReturns (cs : List Char) : List Char :=
  cs.flatMap fun c => if c = '\n' then ['\r', '\n'] else [c]

namespace Regex

variable {r s : Regex} {before mid after rest text left right : Subject}

/-! ### Texts with returns -/

/-- A subject with a carriage return put before each line feed. -/
def withReturns (text : Subject) : Subject :=
  text.flatMap fun x => if x = some '\n' then [some '\r', some '\n'] else [x]

@[simp] theorem withReturns_nil : withReturns [] = [] := rfl

@[simp] theorem withReturns_feed :
    withReturns (some '\n' :: text) = some '\r' :: some '\n' :: withReturns text := rfl

theorem withReturns_cons {x : Symbol} (hx : x ≠ some '\n') :
    withReturns (x :: text) = x :: withReturns text := by
  simp [withReturns, hx]

@[simp] theorem withReturns_append :
    withReturns (left ++ right) = withReturns left ++ withReturns right :=
  List.flatMap_append

/-- On characters, `withReturns` of a subject is that of the text. -/
theorem withReturns_map_some (cs : List Char) :
    withReturns (cs.map some) = (Text.withReturns cs).map some := by
  rw [withReturns, Text.withReturns, List.flatMap_map, List.map_flatMap]
  refine congrArg (cs.flatMap ·) (funext fun c => ?_)
  by_cases hc : c = '\n' <;> simp [hc]

/-- Returns are put before line feeds only, so the last symbol stays. -/
theorem getLast?_withReturns (text : Subject) :
    (withReturns text).getLast? = text.getLast? := by
  rcases List.eq_nil_or_concat text with rfl | ⟨text, x, rfl⟩
  · rfl
  · by_cases hx : x = some '\n'
    · subst hx
      simp
    · have hone : withReturns [x] = [x] := withReturns_cons hx
      simp [hone]

theorem withReturns_eq_nil_iff : withReturns text = [] ↔ text = [] := by
  rw [← List.getLast?_eq_none_iff, getLast?_withReturns, List.getLast?_eq_none_iff]

/-- What becomes a single symbol is that symbol, and no line feed. -/
theorem withReturns_eq_singleton_iff {x : Symbol} :
    withReturns text = [x] ↔ text = [x] ∧ x ≠ some '\n' := by
  cases text with
  | nil => simp
  | cons y text =>
    by_cases hy : y = some '\n'
    · subst hy
      simpa using fun h _ => Eq.symm h
    · rw [withReturns_cons hy, List.cons.injEq, withReturns_eq_nil_iff, List.cons.injEq]
      exact ⟨fun h => ⟨h, h.1 ▸ hy⟩, fun h => h.1⟩

/-- A return is put before a line feed that comes first, and any other symbol stays first. -/
theorem head?_withReturns (text : Subject) :
    (withReturns text).head? = text.head?.map fun x => if x = some '\n' then some '\r'
      else x := by
  cases text with
  | nil => rfl
  | cons x text =>
    by_cases hx : x = some '\n'
    · simp [hx]
    · simp [withReturns_cons hx, hx]

/-- A property that a return has if line feeds have it holds throughout both subjects or
neither. -/
theorem forall_mem_withReturns {p : Symbol → Prop} (hp : p (some '\n') → p (some '\r')) :
    (∀ x ∈ withReturns text, p x) ↔ ∀ x ∈ text, p x := by
  induction text with
  | nil => rfl
  | cons x text ih =>
    by_cases hx : x = some '\n'
    · subst hx
      simp only [withReturns_feed, List.forall_mem_cons, ih]
      exact ⟨fun ⟨_, h⟩ => h, fun h => ⟨hp h.1, h⟩⟩
    · rw [withReturns_cons hx, List.forall_mem_cons, List.forall_mem_cons, ih]

/-- **The places of a text `withReturns`** are those of the text, and those between a
return and its line feed. -/
theorem exists_cut (h : withReturns text = left ++ right) :
    (∃ l r, text = l ++ r ∧ left = withReturns l ∧ right = withReturns r) ∨
    ∃ l r, text = l ++ some '\n' :: r ∧ left = withReturns l ++ [some '\r'] ∧
      right = some '\n' :: withReturns r := by
  induction text generalizing left with
  | nil =>
    obtain ⟨rfl, rfl⟩ := List.append_eq_nil_iff.1 h.symm
    exact Or.inl ⟨[], [], rfl, rfl, rfl⟩
  | cons x text ih =>
    cases left with
    | nil => exact Or.inl ⟨[], x :: text, rfl, rfl, h.symm⟩
    | cons y left =>
      by_cases hx : x = some '\n'
      · subst hx
        rw [withReturns_feed, List.cons_append, List.cons.injEq] at h
        obtain ⟨rfl, h⟩ := h
        -- the cut is right after the return, or further on
        cases left with
        | nil => exact Or.inr ⟨[], text, rfl, rfl, h.symm⟩
        | cons z left =>
          rw [List.cons_append, List.cons.injEq] at h
          obtain ⟨rfl, h⟩ := h
          rcases ih h with ⟨l, r, rfl, rfl, rfl⟩ | ⟨l, r, rfl, rfl, rfl⟩
          · exact Or.inl ⟨some '\n' :: l, r, rfl, rfl, rfl⟩
          · exact Or.inr ⟨some '\n' :: l, r, rfl, rfl, rfl⟩
      · rw [withReturns_cons hx, List.cons_append, List.cons.injEq] at h
        obtain ⟨rfl, h⟩ := h
        rcases ih h with ⟨l, r, rfl, rfl, rfl⟩ | ⟨l, r, rfl, rfl, rfl⟩
        · exact Or.inl ⟨x :: l, r, rfl, (withReturns_cons hx).symm, rfl⟩
        · refine Or.inr ⟨x :: l, r, rfl, ?_, rfl⟩
          rw [withReturns_cons hx, List.cons_append]

/-- The place between a return and a line feed. -/
def Inside (before after : Subject) : Prop :=
  before.getLast? = some (some '\r') ∧ after.head? = some (some '\n')

/-- A place that is not between a return and a line feed is a place of the text without
returns. -/
theorem exists_cut_of_not_inside (h : withReturns text = left ++ right)
    (hinside : ¬ Inside left right) :
    ∃ l r, text = l ++ r ∧ left = withReturns l ∧ right = withReturns r := by
  rcases exists_cut h with hcut | ⟨l, r, -, rfl, rfl⟩
  · exact hcut
  · exact absurd ⟨by simp, rfl⟩ hinside

/-- `holds` is the same in both texts: the neighbours of a place are words or not in both,
and one precedes in both or in neither. -/
theorem holds_withReturns_iff {a : Assertion} (ha : a ≠ .lineEnd) :
    a.holds (placeBetween (withReturns before) (withReturns after)) =
      a.holds (placeBetween before after) := by
  have hword : isWord (withReturns after).head? = isWord after.head? := by
    rw [head?_withReturns]
    cases after.head? with
    | none => rfl
    | some x =>
      by_cases hx : x = some '\n'
      · subst hx
        decide
      · simp [hx]
  rw [placeBetween, placeBetween, getLast?_withReturns]
  cases a with
  | textStart => rfl
  | lineStart => rfl
  | lineEnd => exact absurd rfl ha
  | textEnd => simp [Assertion.holds, head?_withReturns]
  | wordBoundary => simp [Assertion.holds, hword]
  | noWordBoundary => simp [Assertion.holds, hword]

/-! ### Clean starts and clean ends -/

/-- No match starts between a return and a line feed. -/
def startsClean (r : Regex) : Bool :=
  !r.nullable ⟨some (some '\r'), some (some '\n')⟩ &&
    (r.derivatives (some (some '\r')) (some '\n')).isEmpty

/-- No match that reads something ends with a return. -/
def endsClean : Regex → Bool
  | .fail => true
  | .empty => true
  | .set s => !s.contains '\r'
  | .look _ => true
  | .seq r s => r.endsClean && s.endsClean
  | .alt r s => r.endsClean && s.endsClean
  | .star r => r.endsClean

/-- An expression that `startsClean` does not begin between a return and a line feed. -/
theorem not_inside_of_startsClean (hclean : r.startsClean = true) (h : Begins r before rest) :
    ¬ Inside before rest := by
  rintro ⟨hbefore, hrest⟩
  obtain ⟨rest, rfl⟩ := List.head?_eq_some_iff.1 hrest
  rw [startsClean, Bool.and_eq_true, Bool.not_eq_true', List.isEmpty_iff] at hclean
  rw [begins_cons_iff, hbefore, hclean.1, hclean.2] at h
  simp at h

/-- An expression that `endsClean` does not end with a return. -/
theorem getLast?_ne_of_endsClean (hclean : r.endsClean = true)
    (h : Matches r before mid after) :
    mid.getLast? ≠ some (some '\r') := by
  have happend : ∀ {left right : Subject}, left.getLast? ≠ some (some '\r') →
      right.getLast? ≠ some (some '\r') →
      (left ++ right).getLast? ≠ some (some '\r') := by
    intro left right hleft hright
    rw [List.getLast?_append]
    cases hlast : right.getLast? with
    | none => simpa using hleft
    | some x => simpa [hlast] using hright
  induction h with
  | empty | look | starNil => simp
  | @set s c before after hc =>
    intro hlast
    obtain rfl := Option.some.inj (Option.some.inj hlast)
    simp [endsClean, hc] at hclean
  | seq _ _ ihr ihs =>
    rw [endsClean, Bool.and_eq_true] at hclean
    exact happend (ihr hclean.1) (ihs hclean.2)
  | altLeft _ ih =>
    rw [endsClean, Bool.and_eq_true] at hclean
    exact ih hclean.1
  | altRight _ ih =>
    rw [endsClean, Bool.and_eq_true] at hclean
    exact ih hclean.2
  | starCons _ _ ihr ihs => exact happend (ihr hclean) (ihs hclean)

/-! ### Runs of characters of one set -/

/-- A repeated set matches the runs of its symbols. -/
theorem matches_star_set_iff {set : CharSet} :
    Matches (.star (.set set)) before mid after ↔ ∀ x ∈ mid, accepts set x = true := by
  constructor
  · intro h
    induction mid generalizing before with
    | nil => exact fun x hx => absurd hx List.not_mem_nil
    | cons x mid ih =>
      obtain ⟨left, right, rfl, hx, hrest⟩ := exists_round_of_matches_star h
      obtain ⟨y, hy, hset⟩ := matches_set_iff.1 hx
      obtain ⟨rfl, rfl⟩ := List.cons.inj hy
      exact List.forall_mem_cons.2 ⟨hset, ih hrest⟩
  · intro h
    induction mid generalizing before with
    | nil => exact .starNil before after
    | cons x mid ih =>
      rw [List.forall_mem_cons] at h
      exact matches_star_iff.2 (Or.inr ⟨[x], mid, rfl, matches_set_iff.2 ⟨x, rfl, h.1⟩,
        ih h.2⟩)

/-- A set that is repeated at least once matches the runs that are not empty. -/
theorem matches_plus_set_iff {set : CharSet} :
    Matches (.seq (.set set) (.star (.set set))) before mid after ↔
      mid ≠ [] ∧ ∀ x ∈ mid, accepts set x = true := by
  simp only [matches_seq_iff, matches_set_iff, matches_star_set_iff]
  constructor
  · rintro ⟨_, right, rfl, ⟨x, rfl, hx⟩, hright⟩
    exact ⟨List.cons_ne_nil x right, List.forall_mem_cons.2 ⟨hx, hright⟩⟩
  · rintro ⟨hne, hmid⟩
    obtain ⟨x, right, rfl⟩ := List.exists_cons_of_ne_nil hne
    rw [List.forall_mem_cons] at hmid
    exact ⟨[x], right, rfl, ⟨x, rfl, hmid.1⟩, hmid.2⟩

/-- A run of characters of one set, possibly empty or not, which holds returns if it holds
line feeds. -/
def isRun : Regex → Bool
  | .star (.set s) => !s.contains '\n' || s.contains '\r'
  | .seq (.set s) (.star (.set s')) => s = s' && (!s.contains '\n' || s.contains '\r')
  | _ => false

/-- Runs are the same with and without returns. -/
theorem matches_withReturns_of_isRun (h : r.isRun = true) :
    Matches r (withReturns before) (withReturns mid) (withReturns after) ↔
    Matches r before mid after := by
  have hreturn : ∀ {set : CharSet}, (!set.contains '\n' || set.contains '\r') = true →
      accepts set (some '\n') = true → accepts set (some '\r') = true := by
    intro set hset hfeed
    have hfeed : set.contains '\n' = true := hfeed
    simpa [accepts, hfeed] using hset
  fun_cases isRun r
  case case1 s =>
    rw [isRun] at h
    rw [matches_star_set_iff, matches_star_set_iff, forall_mem_withReturns (hreturn h)]
  case case2 s s' =>
    rw [isRun, Bool.and_eq_true, decide_eq_true_eq] at h
    obtain ⟨rfl, h⟩ := h
    rw [matches_plus_set_iff, matches_plus_set_iff, forall_mem_withReturns (hreturn h), ne_eq,
      withReturns_eq_nil_iff]
  case case3 => simp_all [isRun]

/-! ### Matches that carry over -/

/-- The matches are the same with and without returns, as far as the expression tells. -/
def carriesOver : Regex → Bool
  | .fail => true
  | .empty => true
  | .set s => !s.contains '\n'
  | .look a => a ≠ .lineEnd
  | .alt r s => r.carriesOver && s.carriesOver
  | .seq r s =>
    isRun (.seq r s) || r.carriesOver && s.carriesOver &&
      (r.endsClean || s.startsClean || s = .empty)
  | .star r => isRun (.star r) || r.carriesOver && r.endsClean

/-- Two matches, one after the other, meet at a place of the text without returns. -/
theorem exists_cut_of_matches {left' right' meet : Subject}
    (hcut : withReturns mid = left' ++ right') (hr : Matches r before left' meet)
    (hs : Matches s (before ++ left') right' after)
    (hclean : (r.endsClean || s.startsClean || s = .empty) = true) :
    ∃ left right, mid = left ++ right ∧ left' = withReturns left ∧
      right' = withReturns right := by
  rcases exists_cut hcut with hplace | ⟨left, right, -, rfl, rfl⟩
  · exact hplace
  · exfalso
    simp only [Bool.or_eq_true, decide_eq_true_eq] at hclean
    rcases hclean with (hclean | hclean) | rfl
    · exact getLast?_ne_of_endsClean hclean hr (by simp)
    · exact not_inside_of_startsClean hclean ⟨_, after, rfl, hs⟩ ⟨by simp, rfl⟩
    · exact List.cons_ne_nil _ _ (matches_empty_iff.1 hs)

/-- Rounds that carry over and end clean make repetitions that carry over. -/
theorem matches_star_withReturns_iff (hclean : r.endsClean = true)
    (hr : ∀ {before mid after : Subject}, Matches r (withReturns before) (withReturns mid)
      (withReturns after) ↔ Matches r before mid after) :
    Matches (.star r) (withReturns before) (withReturns mid) (withReturns after) ↔
      Matches (.star r) before mid after := by
  constructor
  · intro h
    -- on the match: a round ends clean, so the next one starts at a place of the text
    generalize hexpr : Regex.star r = expr at h
    generalize hbefore : withReturns before = before' at h
    generalize hmid : withReturns mid = mid' at h
    generalize hafter : withReturns after = after' at h
    induction h generalizing before mid with
    | empty | set | look | seq | altLeft | altRight => cases hexpr
    | starNil =>
      rw [withReturns_eq_nil_iff] at hmid
      rw [hmid]
      exact .starNil before after
    | @starCons r before' left' right' after' hround hrest _ ih =>
      obtain rfl := Regex.star.inj hexpr
      subst hbefore hafter
      obtain ⟨left, right, rfl, rfl, rfl⟩ :=
        exists_cut_of_matches hmid hround hrest (by simp [hclean])
      rw [← withReturns_append, hr] at hround
      exact .starCons hround (ih rfl withReturns_append rfl rfl)
  · intro h
    generalize hexpr : Regex.star r = expr at h
    induction h with
    | empty | set | look | seq | altLeft | altRight => cases hexpr
    | starNil => exact .starNil _ _
    | @starCons r before left right after hround _ _ ih =>
      obtain rfl := Regex.star.inj hexpr
      have hrest := ih rfl
      rw [withReturns_append] at hrest ⊢
      rw [← hr, withReturns_append] at hround
      exact .starCons hround hrest

/-- **Matches carry over**, provided that they start and end at places of the text without
returns. -/
theorem matches_withReturns_iff (h : r.carriesOver = true) :
    Matches r (withReturns before) (withReturns mid) (withReturns after) ↔
    Matches r before mid after := by
  induction r generalizing before mid after with
  | fail => exact iff_of_false not_matches_fail not_matches_fail
  | empty => rw [matches_empty_iff, matches_empty_iff, withReturns_eq_nil_iff]
  | set set =>
    simp only [matches_set_iff, withReturns_eq_singleton_iff]
    constructor
    · rintro ⟨x, ⟨hmid, -⟩, hx⟩
      exact ⟨x, hmid, hx⟩
    · rintro ⟨x, hmid, hx⟩
      refine ⟨x, ⟨hmid, ?_⟩, hx⟩
      rintro rfl
      have hfeed : set.contains '\n' = true := hx
      simp [carriesOver, hfeed] at h
  | look a =>
    have ha : a ≠ .lineEnd := by simpa [carriesOver] using h
    rw [matches_look_iff, matches_look_iff, withReturns_eq_nil_iff, holds_withReturns_iff ha]
  | alt r s ihr ihs =>
    rw [carriesOver, Bool.and_eq_true] at h
    rw [matches_alt_iff, matches_alt_iff, ihr h.1, ihs h.2]
  | star r ih =>
    rw [carriesOver, Bool.or_eq_true, Bool.and_eq_true] at h
    rcases h with h | ⟨hr, hclean⟩
    · exact matches_withReturns_of_isRun h
    · exact matches_star_withReturns_iff hclean (ih hr)
  | seq r s ihr ihs =>
    rw [carriesOver, Bool.or_eq_true, Bool.and_eq_true, Bool.and_eq_true] at h
    rcases h with h | ⟨⟨hr, hs⟩, hclean⟩
    · exact matches_withReturns_of_isRun h
    rw [matches_seq_iff, matches_seq_iff]
    constructor
    · rintro ⟨left', right', hcut, hleft, hright⟩
      obtain ⟨left, right, rfl, rfl, rfl⟩ := exists_cut_of_matches hcut hleft hright hclean
      rw [← withReturns_append, ihr hr] at hleft
      rw [← withReturns_append, ihs hs] at hright
      exact ⟨left, right, rfl, hleft, hright⟩
    · rintro ⟨left, right, rfl, hleft, hright⟩
      rw [← ihr hr, withReturns_append] at hleft
      rw [← ihs hs, withReturns_append] at hright
      exact ⟨withReturns left, withReturns right, withReturns_append, hleft, hright⟩

/-! ### Matches that start at the same places -/

/-- Characters of a set up to the end of a line, returns among them. -/
def endsLine : Regex → Bool
  | .seq (.star (.set s)) (.seq (.look .lineEnd) .empty) => s.contains '\r'
  | _ => false

/-- Matches start at the same places with and without returns, as far as the expression
tells. -/
def ignoresReturns : Regex → Bool
  | .fail => true
  | .empty => true
  | .set s => s.contains '\n' == s.contains '\r'
  | .look a => a ≠ .lineEnd
  | .alt r s => r.ignoresReturns && s.ignoresReturns
  | .seq r s =>
    endsLine (.seq r s) || s = .empty && r.ignoresReturns
      || r.carriesOver && s.ignoresReturns && (r.endsClean || s.startsClean)
  | .star _ => true

/-- `seq` begins where its first part matches and its second one begins after that. -/
theorem begins_seq_iff :
    Begins (.seq r s) before rest ↔
      ∃ left right, rest = left ++ right ∧ Matches r before left right ∧
        Begins s (before ++ left) right := by
  constructor
  · rintro ⟨mid, after, rfl, h⟩
    obtain ⟨left, right, rfl, hr, hs⟩ := matches_seq_iff.1 h
    exact ⟨left, right ++ after, List.append_assoc .., hr, right, after, rfl, hs⟩
  · rintro ⟨left, _, rfl, hr, right, after, rfl, hs⟩
    exact ⟨left ++ right, after, (List.append_assoc ..).symm, .seq hr hs⟩

theorem begins_alt_iff :
    Begins (.alt r s) before rest ↔ Begins r before rest ∨ Begins s before rest := by
  simp only [Begins, matches_alt_iff, and_or_left, exists_or]

theorem begins_empty (before rest : Subject) : Begins .empty before rest :=
  ⟨[], rest, rfl, .empty before rest⟩

/-- `empty` after an expression changes nothing about where it begins. -/
theorem begins_seq_empty_iff : Begins (.seq r .empty) before rest ↔ Begins r before rest := by
  rw [begins_seq_iff]
  constructor
  · rintro ⟨left, right, hrest, hr, -⟩
    exact ⟨left, right, hrest, hr⟩
  · rintro ⟨left, right, hrest, hr⟩
    exact ⟨left, right, hrest, hr, begins_empty _ _⟩

/-- `set` begins before a symbol that it accepts. -/
theorem begins_set_iff {set : CharSet} :
    Begins (.set set) before rest ↔ ∃ x, rest.head? = some x ∧ accepts set x = true := by
  simp only [Begins, matches_set_iff]
  constructor
  · rintro ⟨_, after, rfl, x, rfl, hx⟩
    exact ⟨x, rfl, hx⟩
  · rintro ⟨x, hrest, hx⟩
    obtain ⟨after, rfl⟩ := List.head?_eq_some_iff.1 hrest
    exact ⟨[x], after, rfl, x, rfl, hx⟩

/-- `look` begins where its assertion holds. -/
theorem begins_look_iff {a : Assertion} :
    Begins (.look a) before rest ↔ a.holds (placeBetween before rest) = true := by
  simp only [Begins, matches_look_iff]
  constructor
  · rintro ⟨_, after, rfl, rfl, h⟩
    exact h
  · intro h
    exact ⟨[], rest, rfl, rfl, h⟩

/-- Characters of a set up to the end of a line. -/
theorem begins_upToEnd_iff {set : CharSet} :
    Begins (.seq (.star (.set set)) (.seq (.look .lineEnd) .empty)) before rest ↔
      ∃ left right, rest = left ++ right ∧ (∀ x ∈ left, accepts set x = true) ∧
        (right = [] ∨ right.head? = some (some '\n')) := by
  rw [begins_seq_iff]
  refine exists_congr fun left => exists_congr fun right => and_congr_right fun _ => ?_
  rw [matches_star_set_iff, begins_seq_empty_iff, begins_look_iff]
  simp [Assertion.holds, placeBetween]

/-- Before the end of a line, the return that was put before the line feed is read with
the other characters. -/
theorem begins_withReturns_of_endsLine (h : r.endsLine = true) :
    Begins r (withReturns before) (withReturns rest) ↔ Begins r before rest := by
  fun_cases endsLine r
  case case2 => simp_all [endsLine]
  case case1 set =>
    have hreturn : accepts set (some '\r') = true := h
    have hleft : ∀ {left : Subject},
        (∀ x ∈ withReturns left, accepts set x = true) ↔ ∀ x ∈ left, accepts set x = true :=
      forall_mem_withReturns fun _ => hreturn
    rw [begins_upToEnd_iff, begins_upToEnd_iff]
    constructor
    · rintro ⟨left', right', hcut, hall, hend⟩
      rcases exists_cut hcut with ⟨left, right, rfl, rfl, rfl⟩ | ⟨left, right, rfl, rfl, rfl⟩
      · refine ⟨left, right, rfl, hleft.1 hall, Or.inl ?_⟩
        -- a text with returns starts with no line feed
        rw [withReturns_eq_nil_iff, head?_withReturns] at hend
        rcases hend with hend | hend
        · exact hend
        · obtain ⟨x, -, hx⟩ := Option.map_eq_some_iff.1 hend
          split at hx <;> simp_all
      · rw [List.forall_mem_append] at hall
        exact ⟨left, some '\n' :: right, rfl, hleft.1 hall.1, Or.inr rfl⟩
    · rintro ⟨left, right, rfl, hall, rfl | hend⟩
      · exact ⟨withReturns left, [], by simp, hleft.2 hall, Or.inl rfl⟩
      · obtain ⟨right, rfl⟩ := List.head?_eq_some_iff.1 hend
        refine ⟨withReturns left ++ [some '\r'], some '\n' :: withReturns right, by simp, ?_,
          Or.inr rfl⟩
        exact List.forall_mem_append.2 ⟨hleft.2 hall, by simpa using hreturn⟩

/-- **Matches start at the same places.** -/
theorem begins_withReturns_iff (h : r.ignoresReturns = true) :
    Begins r (withReturns before) (withReturns rest) ↔ Begins r before rest := by
  induction r generalizing before rest with
  | fail =>
    have hnever : ∀ {before rest}, ¬ Begins .fail before rest :=
      fun ⟨_, _, _, h⟩ => not_matches_fail h
    exact iff_of_false hnever hnever
  | empty => exact iff_of_true (begins_empty _ _) (begins_empty _ _)
  | star r => exact iff_of_true ⟨[], _, rfl, .starNil _ _⟩ ⟨[], _, rfl, .starNil _ _⟩
  | look a =>
    rw [begins_look_iff, begins_look_iff, holds_withReturns_iff
      (by simpa [ignoresReturns] using h)]
  | set set =>
    have hends : accepts set (some '\n') = accepts set (some '\r') := by
      simpa [ignoresReturns, accepts] using h
    rw [begins_set_iff, begins_set_iff, head?_withReturns]
    cases rest.head? with
    | none => simp
    | some x => by_cases hx : x = some '\n' <;> simp [hx, hends]
  | alt r s ihr ihs =>
    rw [ignoresReturns, Bool.and_eq_true] at h
    rw [begins_alt_iff, begins_alt_iff, ihr h.1, ihs h.2]
  | seq r s ihr ihs =>
    simp only [ignoresReturns, Bool.or_eq_true, Bool.and_eq_true, decide_eq_true_eq] at h
    rcases h with (hline | ⟨rfl, hr⟩) | ⟨⟨hr, hs⟩, hclean⟩
    · exact begins_withReturns_of_endsLine hline
    · rw [begins_seq_empty_iff, begins_seq_empty_iff, ihr hr]
    rw [begins_seq_iff, begins_seq_iff]
    constructor
    · rintro ⟨left', right', hcut, hleft, hright⟩
      -- the parts do not meet after a return: the first ends clean, or the second starts so
      have hinside : ¬ Inside left' right' := by
        rintro ⟨hreturn, hfeed⟩
        rcases hclean with hclean | hclean
        · exact getLast?_ne_of_endsClean hclean hleft hreturn
        · exact not_inside_of_startsClean hclean hright
            ⟨by simp [List.getLast?_append, hreturn], hfeed⟩
      obtain ⟨left, right, rfl, rfl, rfl⟩ := exists_cut_of_not_inside hcut hinside
      rw [matches_withReturns_iff hr] at hleft
      rw [← withReturns_append, ihs hs] at hright
      exact ⟨left, right, rfl, hleft, hright⟩
    · rintro ⟨left, right, rfl, hleft, hright⟩
      rw [← matches_withReturns_iff hr] at hleft
      rw [← ihs hs, withReturns_append] at hright
      exact ⟨withReturns left, withReturns right, withReturns_append, hleft, hright⟩

/-- **An expression that passes the tests `startsClean` and `ignoresReturns`** occurs in a
text with returns exactly if it occurs in the text without. -/
theorem occurs_withReturns_iff (hstart : r.startsClean = true) (h : r.ignoresReturns = true) :
    Occurs r (withReturns text) ↔ Occurs r text := by
  rw [occurs_iff, occurs_iff]
  constructor
  · rintro ⟨skipped', rest', hcut, hbegins⟩
    obtain ⟨skipped, rest, rfl, rfl, rfl⟩ :=
      exists_cut_of_not_inside hcut (not_inside_of_startsClean hstart hbegins)
    exact ⟨skipped, rest, rfl, (begins_withReturns_iff h).1 hbegins⟩
  · rintro ⟨skipped, rest, rfl, hbegins⟩
    exact ⟨withReturns skipped, withReturns rest, withReturns_append,
      (begins_withReturns_iff h).2 hbegins⟩

-- a letter at the end of a line does not pass: the return stands between the two
example : ignoresReturns (.concat [.char 'a', .look .lineEnd]) = false := by decide

end Regex

/-! ### The language of a text -/

namespace Language

open Text

/-- All content markers pass the tests. -/
theorem markers_ignoreReturns {entry : Regex × Language} (h : entry ∈ Marker.all) :
    entry.1.startsClean = true ∧ entry.1.ignoresReturns = true := by
  have hall : (Marker.all.all fun entry => entry.1.startsClean && entry.1.ignoresReturns) =
      true := by
    decide +kernel
  simpa using List.all_eq_true.1 hall entry h

/-- `ofMarkers?` finds the same marker with and without returns. -/
theorem ofMarkers?_withReturns (cs : List Char) :
    ofMarkers? (withReturns cs) = ofMarkers? cs := by
  rw [ofMarkers?, ofMarkers?]
  refine congrArg _ (List.find?_congr fun entry hentry => ?_)
  obtain ⟨hstart, hreturns⟩ := markers_ignoreReturns hentry
  rw [Bool.eq_iff_iff, Regex.searchChars, Regex.searchChars, Regex.search_iff_occurs,
    Regex.search_iff_occurs, ← Regex.withReturns_map_some,
    Regex.occurs_withReturns_iff hstart hreturns]

/-- The first line is followed by a return if it is not the only one. -/
theorem takeWhile_withReturns (cs : List Char) :
    (withReturns cs).takeWhile (· ≠ '\n') = cs.takeWhile (· ≠ '\n') ++ if '\n' ∈ cs then ['\r']
      else [] := by
  induction cs with
  | nil => rfl
  | cons c cs ih =>
    by_cases hc : c = '\n'
    · subst hc
      simp [withReturns]
    · have hcons : withReturns (c :: cs) = c :: withReturns cs := by simp [withReturns, hc]
      have hmem : '\n' ∈ c :: cs ↔ '\n' ∈ cs := by simp [Ne.symm hc]
      rw [hcons, List.takeWhile_cons_of_pos (by simpa using hc), ih,
        List.takeWhile_cons_of_pos (by simpa using hc), List.cons_append]
      simp only [hmem]

/-- The return at the end of the first line is trimmed, so `firstLine` stays. -/
theorem firstLine_withReturns (cs : List Char) :
    firstLine (withReturns cs) = firstLine cs := by
  have hreturn : isBlank '\r' = true := by decide
  rw [firstLine_eq, firstLine_eq, takeWhile_withReturns]
  split
  next => exact trim_append_of_blank (by simp [hreturn]) _
  next => rw [List.append_nil]

/-- **The language that `detect` gives does not depend on the line endings of a text.** -/
theorem detect_withReturns (content : String) :
    detect (String.ofList (withReturns content.toList)) = detect content := by
  rw [detect, detect, String.toList_ofList, detectChars, detectChars, firstLine_withReturns,
    ofMarkers?_withReturns]

end Language

end SourceOutline
