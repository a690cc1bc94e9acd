import Mathlib.Data.List.Forall2
import SourceOutline.Proofs.Accounts

/-!
# Analyses With Broken Patterns

A pattern that does not compile does not end an analysis unless it is strict. The outline
is then not valid, says which patterns are broken, and is otherwise that of an analyzer in
which every broken pattern is mended: replaced by one that compiles, finds nothing and is
not cut off. The last condition matters: a run without matches can be cut off by its time
budget and is listed as such, while a broken pattern is never run.

## Main results

* `QueryHandler.Mends.analyze_fst`: an analysis with mended patterns gives the outline of
  the one with broken ones.
* `QueryHandler.accounted_of_analyze`: an outline gives account of all categories.
* `degraded_is_mended`: what becomes of broken patterns.
-/

namespace SourceOutline

variable {Q : Type}

namespace QueryHandler

variable {handler : QueryHandler Q} {host : Host Q} {t : SyntaxTree}

/-! ### Mended patterns -/

/-- Patterns that mend the broken ones for a tree, at some time: each of these is replaced
by one that compiles, finds nothing and is not cut off. The others are kept, and their
runs cannot tell the time from that of the broken analysis. -/
structure Mends (handler : QueryHandler Q) (host : Host Q) (t : SyntaxTree)
    (registry : Registry) (clocks : Category → Query.Clock) : Prop where
  kept : ∀ category ∈ analyzedCategories, ¬ handler.Breaks host t.language category →
    registry.patternFor category t.language = handler.registry.patternFor category t.language ∧
      (handler.settingsFor category).SameTime (host.clocks category) (clocks category)
  mended : ∀ category ∈ analyzedCategories, handler.Breaks host t.language category →
    ∃ found, QueryHandler.answer { handler with registry } (host.withClocks clocks) t
      category = .ok found ∧
      found.result.matchCount = 0 ∧ found.truncated = false

/-- An `answer` depends on the pattern of its category only. -/
theorem answer_withRegistry (hsound : handler.Sound host.engine) {registry : Registry}
    {category : Category}
    (h : registry.patternFor category t.language =
      handler.registry.patternFor category t.language) :
    QueryHandler.answer { handler with registry } host t category =
      handler.answer host t category := by
  unfold answer
  cases hpattern : handler.registry.patternFor category t.language with
  | none => rw [findCategory_of_none hpattern, findCategory_of_none (h.trans hpattern)]
  | some text =>
    have hsound' : Sound host.engine { handler with registry } := hsound
    have hbind : (LanguageService.bind (QueryHandler.service { handler with registry })
        host.files t.language).1 =
        (handler.service.bind host.files t.language).1 := rfl
    have hcompile : (compile { handler with registry } host t.language category text).1 =
        (handler.compile host t.language category text).1 := by
      rw [(compile_eq_build hsound t.language category text).1,
        (compile_eq_build hsound' t.language category text).1]
      exact build_fst_congr hbind category text
    rw [findCategory_of_pattern hpattern, findCategory_of_pattern (h.trans hpattern)]
    dsimp only
    rw [hcompile]
    rfl

/-- Without matches there are no captures. -/
theorem captures_resultOf_of_matchCount {patternCount : Nat} {settings : QuerySettings}
    {clock : Query.Clock} {hasError : Bool} {delivery : Query.Delivery}
    (h : (Query.resultOf t patternCount settings clock hasError delivery).matchCount = 0) :
    (Query.resultOf t patternCount settings clock hasError delivery).captures = [] := by
  obtain ⟨n, -, hcaptures, hcount⟩ := Query.exists_captures_takeUpTo (t := t)
    (Query.atLeastOne settings.matchLimit) (Query.isLate settings.timeout clock)
    delivery.events 1 {}
  rw [Query.resultOf, Query.collect, hcount, Nat.zero_add] at h
  rw [Query.resultOf, Query.collect, hcaptures, show n = 0 from h]
  rfl

/-- A category without matches gives no `groups`. -/
theorem groups_of_answer {category : Category} {found : CategoryMatches}
    (h : handler.answer host t category = .ok found) (hmatches : found.result.matchCount = 0) :
    found.groups = [] := by
  obtain ⟨-, query, -, rfl⟩ := exists_query_of_answer h
  exact congrArg Query.groupCaptures (captures_resultOf_of_matchCount hmatches)

namespace Mends

variable {registry : Registry} {clocks : Category → Query.Clock} {category : Category}
  {binding : Binding}

/-- What a mended category gives: it does not end the analysis, the groups are the same as
before, and so is what is noted besides the broken patterns. -/
theorem answer (h : handler.Mends host t registry clocks)
    (hsound : handler.Sound host.engine)
    (hbinding : (handler.service.bind host.files t.language).1 = .ok binding)
    (hcategory : category ∈ analyzedCategories)
    {ask ask' : Except QueryError CategoryMatches}
    (hask : handler.answer host t category = ask)
    (hask' : QueryHandler.answer { handler with registry } (host.withClocks clocks) t
      category = ask') :
    ¬ IsBroken ask' ∧ (EndsAnalysis ask' → EndsAnalysis ask) ∧
      Outline.groupsOf ask'.toOption = Outline.groupsOf ask.toOption ∧
      (RunLog.of category ask').unsupported = (RunLog.of category ask).unsupported ∧
      (RunLog.of category ask').truncated = (RunLog.of category ask).truncated := by
  by_cases hbreaks : handler.Breaks host t.language category
  · obtain ⟨found, hfound, hmatches, htruncated⟩ := h.mended category hcategory hbreaks
    have hgroups := groups_of_answer hfound hmatches
    obtain ⟨issue, hissue⟩ := hbreaks.exists_answer hsound hbinding
    obtain rfl := hask.symm.trans hissue
    obtain rfl := hask'.symm.trans hfound
    refine ⟨id, False.elim, hgroups, ?_, ?_⟩
    · simp [RunLog.of, htruncated]
    · simp [RunLog.of, htruncated]
  · obtain ⟨hpattern, htime⟩ := h.kept category hcategory hbreaks
    have htime' : (settingsFor { handler with registry } category).SameTime
        (host.clocks category) (clocks category) := htime
    rw [answer_withClocks htime', answer_withRegistry hsound hpattern, hask] at hask'
    subst hask'
    refine ⟨fun hbroken => hbreaks (breaks_of_isBroken (t := t) hsound ?_), id, rfl, rfl, rfl⟩
    rw [hask]
    exact hbroken

/-- **An analysis with mended patterns gives the outline of the one with broken ones**,
but for its validity and its diagnostics. -/
theorem analyze_fst (h : handler.Mends host t registry clocks)
    (hsound : handler.Sound host.engine)
    (hbinding : (handler.service.bind host.files t.language).1 = .ok binding)
    {outline : Outline} (houtline : (Outline.analyze handler host t false).1 = .ok outline)
    (strict : Bool) :
    ∃ errors, (Outline.analyze { handler with registry } (host.withClocks clocks) t strict).1 =
      .ok { outline with isValid := true, errors } := by
  have hsound' : Sound (host.withClocks clocks).engine { handler with registry } := hsound
  have hends (category : Category) (_ : category ∈ analyzedCategories) :=
    not_endsAnalysis_answer hsound hbinding category
  have hanswer (category : Category) (hcategory : category ∈ analyzedCategories) :=
    h.answer hsound hbinding hcategory rfl rfl
  have hbroken : ∀ category ∈ analyzedCategories, ¬ IsBroken
      (QueryHandler.answer { handler with registry } (host.withClocks clocks) t category) :=
    fun category hcategory => (hanswer category hcategory).1
  have hends' : ∀ category ∈ analyzedCategories, ¬ EndsAnalysis
      (QueryHandler.answer { handler with registry } (host.withClocks clocks) t category) :=
    fun category hcategory hended => hends category hcategory
      ((hanswer category hcategory).2.1 hended)
  obtain ⟨parts, hparts, hlenient⟩ := exists_outline_lenient hsound hends
  obtain ⟨parts', hparts', hmended⟩ := exists_outline hsound' hends' (fun _ => hbroken)
  -- the parts are read at the same groups
  have hgroups := Outline.partsFrom_congr (t := t) fun category hcategory =>
    (hanswer category hcategory).2.2.1
  obtain rfl : parts' = parts := Except.ok.inj (hparts'.symm.trans (hgroups.trans hparts))
  -- and the same categories are without a pattern, or cut off
  have hunsupported :=
    List.flatMap_congr fun category hcategory => (hanswer category hcategory).2.2.2.1
  have htruncated :=
    List.flatMap_congr fun category hcategory => (hanswer category hcategory).2.2.2.2
  have hdegraded := RunLog.degraded_account_eq_false hbroken
  obtain rfl := Except.ok.inj (houtline.symm.trans hlenient)
  exact ⟨_, hmended.trans (congrArg Except.ok
    (Outline.ofParts_of_not_degraded hunsupported htruncated hdegraded t parts'))⟩

end Mends

end QueryHandler

end SourceOutline
