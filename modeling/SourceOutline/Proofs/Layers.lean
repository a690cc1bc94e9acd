import Mathlib.Data.List.Induction
import SourceOutline.Pattern.Registry

/-!
# Layered Lookup over Whole Runs

Clients register patterns for languages and for families, in any order and any number of
them; a run is the sequence in which their registrations come. This module says what a
registry gives after a run, by the run and the registry that it started with: the last
registration for a key counts, a language's own pattern comes before its family's, and
that before the base, which no client can write to.

All of it rests on one lemma on the maps behind the layers, `get?_after`. What a lookup
gives is computed from them, so the laws on lookups are laws on `Option.or`.

## Main results

* `get?_after`: the last registration for a key, or else what there was at the start.
* `get?_builtin`: the built-in registry starts with the built-in tables.
* `layered_lookup`: the pattern in effect after any run, and what single registrations do.
-/

namespace SourceOutline

/-- A registration that a client can make. -/
inductive PatternCall where
  | forLanguage (language : Language) (category : Category) (text : String)
  | forFamily (family : Family) (category : Category) (text : String)

namespace PatternCall

/-- What a pattern is registered for. -/
def scope : PatternCall → Scope
  | .forLanguage language _ _ => .language language
  | .forFamily family _ _ => .family family

/-- The category of a registration. -/
def category : PatternCall → Category
  | .forLanguage _ category _ | .forFamily _ category _ => category

/-- The text of a registration. -/
def text : PatternCall → String
  | .forLanguage _ _ text | .forFamily _ _ text => text

/-- What a registration writes to. -/
def key (call : PatternCall) : Scope × Category :=
  (call.scope, call.category)

/-- The text of the last registration for a scope and category. -/
def lastText (calls : List PatternCall) (scope : Scope) (category : Category) :
    Option String :=
  (calls.reverse.find? (·.key = (scope, category))).map (·.text)

/-- No client registers for all languages. -/
theorem lastText_base (calls : List PatternCall) (category : Category) :
    lastText calls .base category = none := by
  rw [lastText, Option.map_eq_none_iff, List.find?_eq_none]
  intro call _ hkey
  have hscope : call.scope = .base := congrArg Prod.fst (of_decide_eq_true hkey)
  cases call <;> cases hscope

end PatternCall

open PatternCall

namespace Registry

/-! ### The maps behind the layers -/

/-- The registry after a registration. -/
def step (r : Registry) (call : PatternCall) : Registry :=
  r.register call.scope call.category call.text

/-- The registry after registrations, one after the other. -/
def after (start : Registry) (calls : List PatternCall) : Registry :=
  calls.foldl step start

/-- Registrations after registrations. -/
theorem after_append (start : Registry) (calls more : List PatternCall) :
    start.after (calls ++ more) = (start.after calls).after more :=
  List.foldl_append

/-- `Registry.empty` gives nothing. -/
theorem get?_empty (scope : Scope) (category : Category) : empty.get? scope category = none :=
  rfl

/-- A registration writes to its own key only, as `get?` shows. -/
theorem get?_step (r : Registry) (call : PatternCall) (scope : Scope) (category : Category) :
    (r.step call).get? scope category =
      if call.key = (scope, category) then some call.text else r.get? scope category := by
  rw [step, get?_register]
  refine if_congr ?_ rfl rfl
  rw [key, Prod.mk.injEq, @eq_comm _ scope, @eq_comm _ category]

/-- A registration changes nothing of other scopes. -/
theorem get?_step_of_scope_ne (r : Registry) {call : PatternCall} {scope : Scope}
    (h : call.scope ≠ scope) (category : Category) :
    (r.step call).get? scope category = r.get? scope category := by
  rw [get?_step, if_neg fun hkey => h (congrArg Prod.fst hkey)]

/-- What a key gives after registrations, whatever they are read from: the last one for
it, or else what there was at the start. -/
theorem get?_foldl_register {β : Type} (key : β → Scope × Category) (text : β → String)
    (writes : List β) (start : Registry) (scope : Scope) (category : Category) :
    (writes.foldl (fun r write => r.register (key write).1 (key write).2 (text write))
      start).get? scope category =
      ((writes.reverse.find? (key · = (scope, category))).map text).or
        (start.get? scope category) := by
  induction writes generalizing start with
  | nil => rfl
  | cons write writes ih =>
    have hone :
        (start.register (key write).1 (key write).2 (text write)).get? scope category =
        (([write].find? (key · = (scope, category))).map text).or
          (start.get? scope category) := by
      rw [get?_register, List.find?_singleton]
      by_cases h : key write = (scope, category)
      · rw [if_pos (by rw [h]; exact ⟨rfl, rfl⟩), if_pos (decide_eq_true h)]
        rfl
      · rw [if_neg fun hkey => h (Prod.ext hkey.1.symm hkey.2.symm), if_neg (by simpa using h)]
        rfl
    rw [List.foldl_cons, ih, hone, List.reverse_cons, List.find?_append, ← Option.or_assoc,
      Option.map_or]

/-- **What a key gives after a run**: its `lastText`, or else what there was at the
start. -/
theorem get?_after (start : Registry) (calls : List PatternCall) (scope : Scope)
    (category : Category) :
    (start.after calls).get? scope category =
      (lastText calls scope category).or (start.get? scope category) :=
  get?_foldl_register key text calls start scope category

/-- What a key gives is not lost. -/
theorem isSome_get?_after {start : Registry} {scope : Scope} {category : Category}
    (h : (start.get? scope category).isSome = true) (calls : List PatternCall) :
    ((start.after calls).get? scope category).isSome = true := by
  rw [get?_after, Option.isSome_or, h, Bool.or_true]

/-- Registrations for different keys can be made in any order, whatever comes after them. -/
theorem get?_after_swap (start : Registry) {a b : PatternCall} (h : a.key ≠ b.key)
    (more : List PatternCall) (scope : Scope) (category : Category) :
    (start.after (a :: b :: more)).get? scope category =
      (start.after (b :: a :: more)).get? scope category := by
  have hpair : ((start.step a).step b).get? scope category =
      ((start.step b).step a).get? scope category := by
    simp only [get?_step]
    by_cases ha : a.key = (scope, category)
    · rw [if_pos ha, if_neg fun hb => h (ha.trans hb.symm), if_pos ha]
    · rw [if_neg ha, if_neg ha]
  have hrest (r : Registry) := get?_after r more scope category
  exact (hrest _).trans ((congrArg _ hpair).trans (hrest _).symm)

/-! ### The tables at the start -/

/-- The built-in table of a scope. -/
def builtinTable : Scope → Pattern.Builtin.Table
  | .base => Pattern.Builtin.base
  | .family family => Pattern.Builtin.ofFamily family
  | .language language => Pattern.Builtin.ofLanguage language

/-- No `builtinTable` has two patterns for a category. -/
theorem nodup_builtinTable (scope : Scope) : ((builtinTable scope).map (·.1)).Nodup := by
  cases scope with
  | base => decide
  | family family => cases family <;> decide
  | language language => cases language <;> decide

/-- `registerTable` writes to its own scope only. -/
theorem get?_registerTable_of_ne (r : Registry) {scope scope' : Scope} (h : scope' ≠ scope)
    (table : Pattern.Builtin.Table) (category : Category) :
    (r.registerTable scope table).get? scope' category = r.get? scope' category := by
  induction table generalizing r with
  | nil => rfl
  | cons entry table ih =>
    refine (ih (r.register scope entry.1 entry.2)).trans ?_
    rw [get?_register, if_neg fun hkey => h hkey.1]

/-- After `registerTable` a scope gives what its table has. -/
theorem get?_registerTable_self (r : Registry) (scope : Scope) {table : Pattern.Builtin.Table}
    (h : (table.map (·.1)).Nodup) (category : Category) :
    (r.registerTable scope table).get? scope category =
      (table.lookup category).or (r.get? scope category) := by
  induction table generalizing r with
  | nil => rfl
  | cons entry table ih =>
    obtain ⟨hnew, hrest⟩ := List.nodup_cons.1 h
    refine (ih (r.register scope entry.1 entry.2) hrest).trans ?_
    rw [get?_register, List.lookup_cons]
    by_cases heq : category = entry.1
    · have hnone : table.lookup category = none := by
        rw [List.lookup_eq_none_iff]
        intro other hother
        rw [bne_iff_ne, heq]
        intro hsame
        exact hnew (List.mem_map.2 ⟨other, hother, hsame.symm⟩)
      rw [if_pos ⟨rfl, heq⟩, hnone, beq_iff_eq.2 heq]
      rfl
    · rw [if_neg fun hkey => heq hkey.2, beq_false_of_ne heq]

/-- Every scope. -/
def allScopes : List Scope :=
  .base :: (Family.all.map .family ++ Language.all.map .language)

/-- `allScopes` has every scope. -/
theorem mem_allScopes (scope : Scope) : scope ∈ allScopes := by
  cases scope with
  | base => exact List.mem_cons_self
  | family family =>
    exact List.mem_cons_of_mem _ (List.mem_append_left
      _ (List.mem_map_of_mem (Family.mem_all family)))
  | language language =>
    exact List.mem_cons_of_mem _ (List.mem_append_right
      _ (List.mem_map_of_mem (Language.mem_all language)))

/-- The registry with the built-in table of a scope. -/
def registerBuiltin (r : Registry) (scope : Scope) : Registry :=
  r.registerTable scope (builtinTable scope)

/-- `Registry.builtin` has the tables of all scopes. -/
theorem builtin_eq_foldl : builtin = allScopes.foldl registerBuiltin empty := by
  rw [allScopes, List.foldl_cons, List.foldl_append, List.foldl_map, List.foldl_map]
  rfl

/-- A scope gives what its `builtinTable` has, after the tables of some scopes were
registered. -/
theorem get?_foldl_registerBuiltin (scopes : List Scope) (r : Registry) (scope : Scope)
    (category : Category) :
    (scopes.foldl registerBuiltin r).get? scope category =
      if scope ∈ scopes then ((builtinTable scope).lookup category).or (r.get? scope category)
      else r.get? scope category := by
  induction scopes generalizing r with
  | nil => rfl
  | cons first scopes ih =>
    rw [List.foldl_cons, ih, registerBuiltin]
    by_cases heq : scope = first
    · subst heq
      rw [get?_registerTable_self r scope (nodup_builtinTable scope),
        if_pos List.mem_cons_self]
      split
      · rw [← Option.or_assoc, Option.or_self]
      · rfl
    · rw [get?_registerTable_of_ne r heq]
      refine if_congr ?_ rfl rfl
      rw [List.mem_cons, or_iff_right heq]

/-- **The built-in registry** gives what the built-in tables have, in each scope that of
its own `builtinTable`. -/
theorem get?_builtin (scope : Scope) (category : Category) :
    builtin.get? scope category = (builtinTable scope).lookup category := by
  rw [builtin_eq_foldl, get?_foldl_registerBuiltin, if_pos (mem_allScopes scope)]
  exact Option.or_none

/-! ### Lookups -/

/-- `patternFor`, layer by layer. -/
theorem patternFor_eq (r : Registry) (category : Category) (language : Language) :
    r.patternFor category language =
      (r.get? (.language language) category).or
        ((language.family.bind fun family => r.get? (.family family) category).or
          (r.get? .base category)) := by
  rw [patternFor, lookup]
  exact Option.or_assoc

/-- `lookup` agrees in registries whose keys give the same. -/
theorem lookup_congr {r r' : Registry}
    (h : ∀ scope category, r.get? scope category = r'.get? scope category) (layer : Layer)
    (category : Category) (language : Language) :
    r.lookup layer category language = r'.lookup layer category language := by
  have hfamily : (language.family.bind fun family => r.get? (.family family) category) =
      language.family.bind fun family => r'.get? (.family family) category :=
    Option.bind_congr fun family _ => h (.family family) category
  cases layer with
  | base => exact h .base category
  | family => exact hfamily
  | language => exact h (.language language) category
  | effective =>
    rw [lookup, lookup, h, h, hfamily]

/-- `lookup` finds something in every registry whose keys give more. -/
theorem isSome_lookup_mono {r r' : Registry}
    (h : ∀ scope category, (r.get? scope category).isSome = true →
      (r'.get? scope category).isSome = true)
    (layer : Layer) (category : Category) (language : Language)
    (hsome : (r.lookup layer category language).isSome = true) :
    (r'.lookup layer category language).isSome = true := by
  have hfamily : (language.family.bind fun family => r.get? (.family family) category).isSome =
      true →
      (language.family.bind fun family => r'.get? (.family family) category).isSome =
        true := by
    cases language.family with
    | none => exact id
    | some family => exact h (.family family) category
  cases layer with
  | base => exact h .base category hsome
  | family => exact hfamily hsome
  | language => exact h (.language language) category hsome
  | effective =>
    simp only [lookup, Option.isSome_or, Bool.or_eq_true] at hsome ⊢
    exact hsome.imp (Or.imp (h _ category) hfamily) (h .base category)

/-- A registration for a language changes its own pattern only. -/
theorem patternFor_step_forLanguage (r : Registry) (language' : Language)
    (category' : Category) (text : String) (category : Category) (language : Language) :
    (r.step (.forLanguage language' category' text)).patternFor category language =
      if language' = language ∧ category' = category then some text
      else r.patternFor category language := by
  have hfamily (family : Family) : (r.step (.forLanguage language' category' text)).get?
      (.family family) category =
      r.get? (.family family) category := r.get?_step_of_scope_ne Scope.noConfusion category
  have hbase : (r.step (.forLanguage language' category' text)).get? .base category =
      r.get? .base category :=
    r.get?_step_of_scope_ne Scope.noConfusion category
  simp only [patternFor_eq, hfamily, hbase, get?_step, key, scope, PatternCall.category,
    PatternCall.text, Prod.mk.injEq, Scope.language.injEq]
  split
  · rfl
  · rfl

/-- A registration for a family shows through for languages of the family without a
pattern of their own. -/
theorem patternFor_step_forFamily (r : Registry) (family : Family) (category' : Category)
    (text : String) (category : Category) (language : Language) :
    (r.step (.forFamily family category' text)).patternFor category language =
      if language.family = some family ∧ category' = category ∧
      r.get? (.language language) category = none
      then some text else r.patternFor category language := by
  have hown : (r.step (.forFamily family category' text)).get? (.language language) category =
      r.get? (.language language) category :=
        r.get?_step_of_scope_ne Scope.noConfusion category
  have hbase : (r.step (.forFamily family category' text)).get? .base category =
      r.get? .base category :=
    r.get?_step_of_scope_ne Scope.noConfusion category
  rw [patternFor_eq, patternFor_eq, hown, hbase]
  cases r.get? (.language language) category with
  | some text' => rw [if_neg (by simp), Option.some_or, Option.some_or]
  | none =>
    simp only [and_true, Option.none_or]
    cases hfamily : language.family with
    | none => rw [if_neg (by simp)]; rfl
    | some family' =>
      simp only [Option.bind_some, get?_step, key, scope, PatternCall.category,
        PatternCall.text, Prod.mk.injEq,
        Scope.family.injEq, Option.some.injEq, @eq_comm _ family' family]
      split
      · rfl
      · rfl

/-- `patternFor` after a run, layer by layer and in each the run's last registration
first. -/
theorem patternFor_after (start : Registry) (calls : List PatternCall) (category : Category)
    (language : Language) :
    (start.after calls).patternFor category language =
      (lastText calls (.language language) category).or
        ((start.get? (.language language) category).or
          ((language.family.bind fun family => lastText calls (.family family) category).or
            ((language.family.bind fun family => start.get? (.family family) category).or
              (start.get? .base category)))) := by
  have hfamily :
      (language.family.bind fun family => (start.after calls).get? (.family family) category) =
      (language.family.bind fun family => lastText calls (.family family) category).or
        (language.family.bind fun family => start.get? (.family family) category) := by
    cases language.family with
    | none => rfl
    | some family => exact get?_after start calls (.family family) category
  rw [patternFor_eq, hfamily, get?_after, get?_after, lastText_base, Option.none_or,
    Option.or_assoc, Option.or_assoc]

/-- **Layered lookup over whole runs.** Whatever the registry and the registrations, which
may come from any number of clients in any order:

* The pattern in effect is the last registration for the language, else what the language
  started with, else the last registration for its family, else what the family started
  with, else the base.
* No lookup that finds something fails after more registrations.
* A registration changes nothing but its own key. The pattern in effect changes for the
  language that it is for; one for a family, for the languages of the family that have no
  pattern of their own.
* Registrations for different keys can change places.

The empty registry starts with nothing, and the built-in one with the built-in tables. -/
theorem layered_lookup (start : Registry) (calls : List PatternCall) :
    (∀ category language,
      (start.after calls).patternFor category language =
        (lastText calls (.language language) category).or
          ((start.get? (.language language) category).or
            ((language.family.bind fun family => lastText calls (.family family) category).or
              ((language.family.bind fun family => start.get? (.family family) category).or
                (start.get? .base category))))) ∧
    (∀ more layer category language,
      ((start.after calls).lookup layer category language).isSome = true →
        ((start.after (calls ++ more)).lookup layer category language).isSome = true) ∧
    (∀ call scope category, call.key ≠ (scope, category) →
      (start.after (calls ++ [call])).get? scope category =
        (start.after calls).get? scope category) ∧
    (∀ language' category' text category language,
      (start.after (calls ++ [.forLanguage language' category' text])).patternFor category
        language =
        if language' = language ∧ category' = category then some text
        else (start.after calls).patternFor category language) ∧
    (∀ family category' text category language,
      (start.after (calls ++ [.forFamily family category' text])).patternFor category
        language =
        if language.family = some family ∧ category' = category ∧
            (start.after calls).get? (.language language) category = none then some text
        else (start.after calls).patternFor category language) ∧
    (∀ a b more, a.key ≠ b.key → ∀ layer category language,
      (start.after (calls ++ a :: b :: more)).lookup layer category language =
        (start.after (calls ++ b :: a :: more)).lookup layer category language) ∧
    (∀ scope category, empty.get? scope category = none ∧
      builtin.get? scope category = (builtinTable scope).lookup category) := by
  refine ⟨patternFor_after start calls, ?_, ?_, ?_, ?_, ?_, ?_⟩
  · intro more layer category language hsome
    rw [after_append]
    exact isSome_lookup_mono (fun _ _ h => isSome_get?_after h more) layer category
      language hsome
  · intro call scope category hkey
    rw [after_append]
    exact (get?_step _ call scope category).trans (if_neg hkey)
  · intro language' category' text category language
    rw [after_append]
    exact patternFor_step_forLanguage _ language' category' text category language
  · intro family category' text category language
    rw [after_append]
    exact patternFor_step_forFamily _ family category' text category language
  · intro a b more hkey layer category language
    rw [after_append, after_append]
    exact lookup_congr (get?_after_swap (start.after calls) hkey more) layer category language
  · intro scope category
    exact ⟨get?_empty scope category, get?_builtin scope category⟩

/-- A pattern for a language, and then one for its family, on top of the built-in ones:
the language keeps its own, other languages of the family get the new one, and so they do
in the other order. -/
theorem layered_lookup_own_then_family :
    let own : PatternCall := .forLanguage .typeScript .functions "own"
    let shared : PatternCall := .forFamily .ecmaScript .functions "shared"
    own.key ≠ shared.key ∧
    (builtin.after [own, shared]).patternFor .functions .typeScript = some "own" ∧
    (builtin.after [own, shared]).patternFor .functions .javaScript = some "shared" ∧
    ∀ layer category language, (builtin.after [own, shared]).lookup layer category language =
      (builtin.after [shared, own]).lookup layer category language := by
  intro own shared
  have hkey : own.key ≠ shared.key := by decide
  obtain ⟨hlookup, -, -, -, -, -, hstart⟩ := layered_lookup builtin [own, shared]
  obtain ⟨-, -, -, -, -, hswap, -⟩ := layered_lookup builtin []
  have hnone : builtin.get? (.language .javaScript) .functions = none := (hstart _ _).2
  refine ⟨hkey, hlookup .functions .typeScript, ?_, hswap own shared [] hkey⟩
  rw [hlookup .functions .javaScript, hnone]
  rfl

end Registry

end SourceOutline
