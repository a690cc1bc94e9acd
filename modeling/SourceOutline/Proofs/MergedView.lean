import SourceOutline.Proofs.ByteOrder
import SourceOutline.Proofs.Layers
import SourceOutline.Proofs.Lists

/-!
# The Merged View of a Registry

A registry is read in two ways. A single lookup goes down the layers and takes the first
pattern that it finds; the list of all patterns in effect goes up, and puts each layer
over what was there. Whatever the registry, and so after any registrations, documents,
overrides and query files, the two agree.

The agreement is one equation on maps, `lookup_insertEntries`: what is put over a map
hides what is below. The rest is about the order of categories, which makes the list of
patterns a map: no category comes twice.

## Main results

* `Category.Before`: the order of categories, said without comparing ranks.
* `lookup_merged`: layers put over each other give the pattern of the first layer that has one.
* `merged_view_agrees`: the patterns in effect are those of single lookups, in the order
  of their categories.
-/

namespace SourceOutline

/-! ### The order of categories -/

namespace Category

/-- One category comes before another: built-in ones as they are listed, then custom ones
by the bytes of their names. -/
inductive Before : Category → Category → Prop where
  | builtins {a b : Category} (h : [a, b].Sublist builtins) : Before a b
  | builtin_custom {a : Category} (h : a ∈ builtins) (name : String) : Before a (.custom name)
  | customs {name name' : String} (h : Text.encode name < Text.encode name') :
    Before (.custom name) (.custom name')

/-- No custom category is built in. -/
theorem custom_not_mem_builtins (name : String) : .custom name ∉ builtins := by
  simp [builtins]

/-- A category that is not built in is custom. -/
theorem exists_custom_of_not_mem {a : Category} (h : a ∉ builtins) :
    ∃ name, a = .custom name := by
  cases a with
  | custom name => exact ⟨name, rfl⟩
  | _ => exact absurd (mem_builtins rfl) h

/-- Built-in categories are listed by `rank`. -/
theorem sublist_builtins_iff :
    ∀ a ∈ builtins, ∀ b ∈ builtins, [a, b].Sublist builtins ↔ a.rank < b.rank := by
  decide

/-- Built-in categories have ranks of their own. -/
theorem eq_of_rank_eq : ∀ a ∈ builtins, ∀ b ∈ builtins, a.rank = b.rank → a = b := by
  decide

/-- Custom categories have the last `rank`. -/
theorem rank_lt_of_mem_builtins {a : Category} (h : a ∈ builtins) (name : String) :
    a.rank < (custom name).rank := by
  cases a with
  | custom name' => exact absurd h (custom_not_mem_builtins name')
  | _ => simp [rank]

/-- `Before` is the order by rank, and for custom categories by name. -/
theorem before_iff {a b : Category} :
    Before a b ↔ a.rank < b.rank ∨ ∃ name name', a = .custom name ∧ b = .custom name' ∧
      name < name' := by
  constructor
  · rintro (hlisted | ⟨ha, name⟩ | hname)
    · have ha : a ∈ builtins := hlisted.subset List.mem_cons_self
      have hb : b ∈ builtins := hlisted.subset (List.mem_cons_of_mem _ List.mem_cons_self)
      exact Or.inl ((sublist_builtins_iff a ha b hb).1 hlisted)
    · exact Or.inl (rank_lt_of_mem_builtins ha name)
    · exact Or.inr ⟨_, _, rfl, rfl, (Text.encode_lt_encode_iff _ _).1 hname⟩
  · rintro (hrank | ⟨name, name', rfl, rfl, hname⟩)
    · have ha : a ∈ builtins := by
        cases a with
        | custom name => cases b <;> simp [rank] at hrank
        | _ => exact mem_builtins rfl
      by_cases hb : b ∈ builtins
      · exact .builtins ((sublist_builtins_iff a ha b hb).2 hrank)
      · obtain ⟨name, rfl⟩ := exists_custom_of_not_mem hb
        exact .builtin_custom ha name
    · exact .customs ((Text.encode_lt_encode_iff _ _).2 hname)

/-- `Before` is transitive. -/
theorem Before.trans {a b c : Category} (h : Before a b) (h' : Before b c) : Before a c := by
  rw [before_iff] at h h' ⊢
  rcases h with hrank | ⟨name, name', rfl, rfl, hname⟩
  · rcases h' with hrank' | ⟨name', name'', rfl, rfl, -⟩
    · exact Or.inl (Nat.lt_trans hrank hrank')
    · exact Or.inl hrank
  · rcases h' with hrank' | ⟨_, name'', hcustom, rfl, hname'⟩
    · exact Or.inl hrank'
    · cases hcustom
      exact Or.inr ⟨name, name'', rfl, rfl, String.lt_trans hname hname'⟩

/-- No category comes before itself. -/
theorem Before.ne {a b : Category} (h : Before a b) : a ≠ b := by
  rintro rfl
  rcases before_iff.1 h with hrank | ⟨name, name', rfl, hcustom, hname⟩
  · exact Nat.lt_irrefl _ hrank
  · cases hcustom
    exact String.lt_irrefl _ hname

/-- Different categories of one rank are custom. -/
theorem exists_custom_of_rank_eq {a b : Category} (hne : a ≠ b) (hrank : a.rank = b.rank) :
    ∃ name name', a = .custom name ∧ b = .custom name' := by
  by_cases ha : a ∈ builtins
  · by_cases hb : b ∈ builtins
    · exact absurd (eq_of_rank_eq a ha b hb hrank) hne
    · obtain ⟨name, rfl⟩ := exists_custom_of_not_mem hb
      exact absurd hrank (Nat.ne_of_lt (rank_lt_of_mem_builtins ha name))
  · obtain ⟨name, rfl⟩ := exists_custom_of_not_mem ha
    by_cases hb : b ∈ builtins
    · exact absurd hrank.symm (Nat.ne_of_lt (rank_lt_of_mem_builtins hb name))
    · obtain ⟨name', rfl⟩ := exists_custom_of_not_mem hb
      exact ⟨name, name', rfl, rfl⟩

/-- Different categories are compared by `le`. -/
theorem compared_of_ne (a b : Category) (hne : a ≠ b) :
    if a.le b then Before a b else Before b a := by
  simp only [before_iff]
  rcases Nat.lt_trichotomy a.rank b.rank with hlt | heq | hgt
  · rw [if_pos (by simp [le, hlt])]
    exact Or.inl hlt
  · obtain ⟨name, name', rfl, rfl⟩ := exists_custom_of_rank_eq hne heq
    have hnames := TextMap.compared_of_ne name name' fun h => hne (congrArg custom h)
    have hle : (custom name).le (custom name') = decide (name ≤ name') := rfl
    rw [hle]
    split at hnames
    · rw [if_pos (by assumption)]
      exact Or.inr ⟨name, name', rfl, rfl, hnames⟩
    · rw [if_neg (by assumption)]
      exact Or.inr ⟨name', name, rfl, rfl, hnames⟩
  · rw [if_neg (by simp [le]; omega)]
    exact Or.inl hgt

end Category

/-! ### Patterns put over each other -/

section Merging

variable {κ α : Type} [BEq κ] [LawfulBEq κ]

/-- **What is put over a map hides what is below**, by `insertEntries`. -/
theorem lookup_insertEntries (le : κ → κ → Bool) (entries : List (κ × α)) {more : List (κ × α)}
    (h : (more.map (·.1)).Nodup) (key : κ) :
    (insertEntries le entries more).lookup key =
      (more.lookup key).or (entries.lookup key) := by
  induction more generalizing entries with
  | nil => rfl
  | cons entry more ih =>
    obtain ⟨hnew, hmore⟩ := List.nodup_cons.1 h
    refine (ih (insertEntry le entry.1 entry.2 entries) hmore).trans ?_
    rw [lookup_insertEntry, List.lookup_cons]
    cases hkey : key == entry.1 with
    | false => rfl
    | true =>
      have hnone : more.lookup key = none := by
        rw [List.lookup_eq_none_iff]
        intro other hother
        rw [bne_iff_ne]
        intro hsame
        rw [eq_of_beq hkey] at hsame
        exact hnew (List.mem_map.2 ⟨other, hother, hsame.symm⟩)
      rw [hnone]
      rfl

/-- In a map without repeated keys, what is listed is what a lookup gives. -/
theorem mem_iff_lookup_eq_some {entries : List (κ × α)} (h : (entries.map (·.1)).Nodup)
    {key : κ} {value : α} :
    (key, value) ∈ entries ↔ entries.lookup key = some value := by
  induction entries with
  | nil => simp
  | cons entry entries ih =>
    obtain ⟨hnew, hentries⟩ := List.nodup_cons.1 h
    rw [List.mem_cons, List.lookup_cons, ih hentries]
    cases hkey : key == entry.1 with
    | true =>
      obtain rfl := eq_of_beq hkey
      have hnone : entries.lookup entry.1 ≠ some value := fun hsome =>
        hnew (List.mem_map.2 ⟨_, (ih hentries).2 hsome, rfl⟩)
      simp only [or_iff_left hnone, Option.some.injEq]
      exact ⟨fun h => congrArg Prod.snd h.symm, fun h => h ▸ rfl⟩
    | false =>
      have hne : (key, value) ≠ entry := by
        rintro rfl
        rw [beq_self_eq_true] at hkey
        cases hkey
      exact or_iff_right hne

end Merging

namespace Registry

/-- Patterns listed in the order of their categories. -/
abbrev Listed (patterns : List (Category × String)) : Prop :=
  patterns.Pairwise fun x y => x.1.Before y.1

/-- No category is listed twice. -/
theorem Listed.nodup {patterns : List (Category × String)} (h : Listed patterns) :
    (patterns.map (·.1)).Nodup :=
  List.pairwise_map.2 (h.imp Category.Before.ne)

/-- Patterns stay `Listed` when one is entered. -/
theorem Listed.insertEntry {patterns : List (Category × String)} (h : Listed patterns)
    (category : Category) (text : String) :
    Listed (insertEntry Category.le category text patterns) := by
  have trans : ∀ a b c : Category, a.Before b → b.Before c → a.Before c :=
    fun _ _ _ => Category.Before.trans
  exact pairwise_insertEntry trans Category.compared_of_ne category text h

/-- Patterns stay `Listed` when others are put over them. -/
theorem Listed.insertEntries {patterns : List (Category × String)} (h : Listed patterns)
    (more : List (Category × String)) : Listed (insertEntries Category.le patterns more) := by
  induction more generalizing patterns with
  | nil => exact h
  | cons entry more ih => exact ih (h.insertEntry entry.1 entry.2)

/-- The patterns of a scope are `Listed`. -/
theorem listed_patternsOf (r : Registry) (scope : Scope) : Listed (r.patternsOf scope) := by
  unfold patternsOf
  induction r.entries.filter (·.1.1 = scope) with
  | nil => exact List.Pairwise.nil
  | cons entry entries ih => exact ih.insertEntry entry.1.2 entry.2

/-- `register` enters a pattern among those of its own scope. -/
theorem patternsOf_register (r : Registry) (scope scope' : Scope) (category : Category)
    (text : String) :
    (r.register scope category text).patternsOf scope' =
      if scope = scope' then insertEntry Category.le category text (r.patternsOf scope')
      else r.patternsOf scope' := by
  unfold patternsOf register
  rw [List.filter_cons]
  by_cases hscope : scope = scope'
  · rw [if_pos (decide_eq_true hscope), if_pos hscope]
    rfl
  · rw [if_neg (by simpa using hscope), if_neg hscope]

/-- `patternsOf` a scope are what its keys give. -/
theorem lookup_patternsOf (r : Registry) (scope : Scope) (category : Category) :
    (r.patternsOf scope).lookup category = r.get? scope category := by
  obtain ⟨entries⟩ := r
  induction entries with
  | nil => rfl
  | cons entry entries ih =>
    obtain ⟨⟨scope', category'⟩, text⟩ := entry
    have hlast : (⟨((scope', category'), text) :: entries⟩ : Registry) =
        (⟨entries⟩ : Registry).register scope' category' text := rfl
    rw [hlast, patternsOf_register, get?_register]
    by_cases hscope : scope' = scope
    · rw [if_pos hscope, lookup_insertEntry, ih]
      refine if_congr ?_ rfl rfl
      rw [beq_iff_eq, and_iff_right hscope.symm]
    · rw [if_neg hscope, if_neg fun h => hscope h.1.symm, ih]

/-- Scopes put over each other are `Listed`, by induction over the scopes. -/
theorem listed_merged (r : Registry) (scopes : List Scope) : Listed (r.merged scopes) := by
  induction scopes with
  | nil => exact List.Pairwise.nil
  | cons scope scopes ih => exact ih.insertEntries (r.patternsOf scope)

/-- **Scopes put over each other** give the pattern of the first scope that has one:
`merged` is a search. -/
theorem lookup_merged (r : Registry) (scopes : List Scope) (category : Category) :
    (r.merged scopes).lookup category = scopes.findSome? fun scope =>
      r.get? scope category := by
  induction scopes with
  | nil => rfl
  | cons scope scopes ih =>
    have hover :=
      lookup_insertEntries Category.le (r.merged scopes) (r.listed_patternsOf scope).nodup
        category
    rw [lookup_patternsOf, ih] at hover
    rw [findSome?_cons_eq_or]
    exact hover

/-- `patternFor` takes the first scope that has a pattern. -/
theorem patternFor_eq_findSome? (r : Registry) (category : Category) (language : Language) :
    r.patternFor category language = (scopesOf language).findSome? fun scope =>
      r.get? scope category := by
  rw [patternFor_eq, scopesOf, findSome?_cons_eq_or, List.findSome?_append,
    List.findSome?_singleton]
  cases language.family with
  | none => rfl
  | some family =>
    have hfamily : ([family].map Scope.family).findSome? (fun scope => r.get? scope category) =
        r.get? (.family family) category := List.findSome?_singleton
    rw [Option.toList_some, hfamily]
    rfl

/-- A lookup in `patternsFor` is a single lookup. -/
theorem lookup_patternsFor (r : Registry) (language : Language) (category : Category) :
    (r.patternsFor language).lookup category = r.patternFor category language :=
  (r.lookup_merged (scopesOf language) category).trans
    (r.patternFor_eq_findSome? category language).symm

/-- **The merged view agrees with single lookups.** Whatever the registry and the language:

* A category is listed if and only if a layer has a pattern for it.
* The text that is listed for it is the pattern in effect.
* That is the pattern of the language, else of its family, else of the base.
* The categories come in order, and none comes twice. -/
theorem merged_view_agrees (r : Registry) (language : Language) :
    (∀ category, category ∈ (r.patternsFor language).map (·.1) ↔
      r.supports category language = true) ∧
    (∀ category text, (category, text) ∈ r.patternsFor language ↔
      r.patternFor category language = some text) ∧
    (∀ category, r.patternFor category language =
      [Layer.language, .family, .base].findSome? fun layer =>
        r.lookup layer category language) ∧
    ((r.patternsFor language).map (·.1)).Pairwise Category.Before := by
  have hlisted : Listed (r.patternsFor language) := r.listed_merged (scopesOf language)
  have hmem (category : Category) (text : String) :
      (category, text) ∈ r.patternsFor language ↔
      r.patternFor category language = some text := by
    rw [mem_iff_lookup_eq_some hlisted.nodup, lookup_patternsFor]
  refine ⟨fun category => ?_, hmem, fun category => ?_, List.pairwise_map.2 hlisted⟩
  · rw [supports, Option.isSome_iff_exists, List.mem_map]
    constructor
    · rintro ⟨⟨_, text⟩, hentry, rfl⟩
      exact ⟨text, (hmem _ text).1 hentry⟩
    · rintro ⟨text, htext⟩
      exact ⟨(category, text), (hmem category text).2 htext, rfl⟩
  · rw [findSome?_cons_eq_or, findSome?_cons_eq_or, List.findSome?_singleton]
    exact r.patternFor_eq category language

end Registry

end SourceOutline
