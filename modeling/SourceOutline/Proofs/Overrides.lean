import SourceOutline.Pattern.Overrides
import SourceOutline.Proofs.ByteOrder
import SourceOutline.Proofs.Layers

/-!
# Overrides Are Applied as a Whole

Overrides have tables by language and by family, each a map from names of categories to
texts. Several keys can name one language, and several names one category, so that many
texts may be meant for one cell of the registry. This module says what becomes of each
cell, by the tables alone: the text of the last entry for it counts, in the order of the
bytes of keys and names. It also says when overrides are refused, which key is to blame,
and that nothing is registered then.

Tables for languages and tables for families are read alike. The lemmas are stated for any
way to read a key, and `applyOverrides_cases` puts the two together.

## Main results

* `last?_settles`: what stands last in the listing of tables is the last in the order of bytes.
* `ofTables_cases`: tables are refused for their smallest unknown key, or all their
  entries are registered.
* `overrides_all_or_nothing`: when overrides fail, with what, and what they do otherwise.
-/

namespace SourceOutline

/-! ### The entries of tables -/

/-- One text of some tables, with the key of its table and the name of its category. -/
structure TableEntry where
  key : String
  name : String
  text : String

namespace TableEntry

/-- One entry comes before another: in the order of the bytes of their keys and, under one
key, of their names. -/
def Before (a b : TableEntry) : Prop :=
  Text.encode a.key < Text.encode b.key ∨ a.key = b.key ∧
    Text.encode a.name < Text.encode b.name

/-- The entries of a table that stands under a key. -/
def ofTable (key : String) (table : TextMap String) : List TableEntry :=
  table.entries.map fun (name, text) => { key, name, text }

/-- The entries of tables, table by table. -/
def entriesOf (tables : List (String × TextMap String)) : List TableEntry :=
  tables.flatMap fun (key, table) => ofTable key table

/-- The entries of the first table come first. -/
theorem entriesOf_cons (key : String) (table : TextMap String)
    (tables : List (String × TextMap String)) :
    entriesOf ((key, table) :: tables) = ofTable key table ++ entriesOf tables :=
  rfl

/-- An entry is the last of those that count. -/
def IsLast (entries : List TableEntry) (counts : TableEntry → Prop) (entry : TableEntry) :
    Prop :=
  entry ∈ entries ∧ counts entry ∧ ∀ other ∈ entries, counts other → other = entry ∨
    other.Before entry

/-- What entries make of a cell: the text of the last one that counts, or what was there
if none counts. -/
def Settles (entries : List TableEntry) (counts : TableEntry → Prop)
    (old new : Option String) : Prop :=
  (∃ entry, IsLast entries counts entry ∧ new = some entry.text) ∨
    (∀ entry ∈ entries, ¬ counts entry) ∧ new = old

/-- The text that counts and stands last. -/
def last? (entries : List TableEntry) (counts : TableEntry → Bool) : Option String :=
  (entries.reverse.find? counts).map (·.text)

/-- **What stands last is the last**, if entries are listed in order (`last?`,
`Settles`). -/
theorem last?_settles {entries : List TableEntry} (h : entries.Pairwise Before)
    (counts : TableEntry → Bool) (old : Option String) :
    Settles entries (counts · = true) old ((last? entries counts).or old) := by
  unfold last?
  cases hfind : entries.reverse.find? counts with
  | none =>
    refine Or.inr ⟨fun entry hentry => ?_, rfl⟩
    exact List.find?_eq_none.1 hfind entry (List.mem_reverse.2 hentry)
  | some entry =>
    obtain ⟨hcounts, later, earlier, hsplit, hlater⟩ := List.find?_eq_some_iff_append.1 hfind
    have hentries : entries = earlier.reverse ++ entry :: later.reverse := by
      rw [← List.reverse_reverse entries, hsplit]
      simp
    rw [hentries] at h ⊢
    refine Or.inl ⟨entry, ⟨by simp, hcounts, fun other hother hcounts' => ?_⟩, rfl⟩
    rcases List.mem_append.1 hother with hearlier | hother
    · exact Or.inr ((List.pairwise_append.1 h).2.2 other hearlier entry List.mem_cons_self)
    · rcases List.mem_cons.1 hother with heq | hother
      · exact Or.inl heq
      · have hnot := hlater other (List.mem_reverse.1 hother)
        rw [hcounts'] at hnot
        cases hnot

end TableEntry

open TableEntry

namespace PatternTables

/-- The keys of tables. -/
def keys (tables : PatternTables) : List String :=
  tables.entries.map (·.1)

/-- The entries of tables, in order. -/
def listing (tables : PatternTables) : List TableEntry :=
  entriesOf tables.entries

/-- A key of tables that means nothing. -/
def Unknown {α : Type} (read : String → Option α) (tables : PatternTables) (key : String) :
    Prop :=
  key ∈ tables.keys ∧ read key = none

/-- The `listing` of tables is in order. -/
theorem pairwise_listing (tables : PatternTables) :
    tables.listing.Pairwise TableEntry.Before := by
  refine List.pairwise_flatMap.2 ⟨fun (key, table) _ => ?_,
    tables.ordered.imp fun {x y} hkeys => ?_⟩
  · refine List.pairwise_map.2 (table.ordered.imp fun hnames => ?_)
    exact Or.inr ⟨rfl, (Text.encode_lt_encode_iff _ _).2 hnames⟩
  · intro a ha b hb
    obtain ⟨_, -, rfl⟩ := List.mem_map.1 ha
    obtain ⟨_, -, rfl⟩ := List.mem_map.1 hb
    exact Or.inl ((Text.encode_lt_encode_iff _ _).2 hkeys)

/-- The key of an entry is one of the tables. -/
theorem key_mem_keys {tables : PatternTables} {entry : TableEntry}
    (h : entry ∈ tables.listing) :
    entry.key ∈ tables.keys := by
  obtain ⟨⟨key, table⟩, htable, hentry⟩ := List.mem_flatMap.1 h
  obtain ⟨_, -, rfl⟩ := List.mem_map.1 hentry
  exact List.mem_map.2 ⟨_, htable, rfl⟩

end PatternTables

/-- The smallest of some texts, in the order of bytes. -/
def Smallest (among : String → Prop) (text : String) : Prop :=
  among text ∧ ∀ other, among other → Text.encode text ≤ Text.encode other

/-! ### Reading tables -/

namespace Registration

section Tables

variable {α : Type} (read : String → Option α) (toScope : α → Scope)
  (refusal : String → OverrideError)

/-- What a table is for, by the meaning of its key. -/
def scopeBy (key : String) : Except OverrideError Scope :=
  match read key with
  | some a => .ok (toScope a)
  | none => .error (refusal key)

/-- What is registered for an entry whose key means something. -/
def ofEntry (entry : TableEntry) : Registration where
  scope := ((read entry.key).map toScope).getD .base
  category := Category.ofName entry.name
  text := entry.text

/-- An entry is for a cell: its key and the name of its category mean those of the cell. -/
def isFor [DecidableEq α] (a : α) (category : Category) (entry : TableEntry) : Bool :=
  decide (read entry.key = some a ∧ Category.ofName entry.name = category)

/-- One table is registered entry by entry, each as its `ofEntry`. -/
theorem ofTable_eq_map {key : String} {a : α} (h : read key = some a)
    (table : TextMap String) :
    ofTable (toScope a) table = (TableEntry.ofTable key table).map (ofEntry read toScope) := by
  rw [ofTable, TableEntry.ofTable, List.map_map]
  refine List.map_congr_left fun (name, text) _ => ?_
  simp only [Function.comp_apply, ofEntry, h, Option.map_some, Option.getD_some]

/-- `ofTables` stops at the first key that means nothing, or else all entries are
registered. -/
theorem ofTables_eq (tables : List (String × TextMap String)) :
    (∃ before key table after, tables = before ++ (key, table) :: after ∧
      (∀ entry ∈ before, read entry.1 ≠ none) ∧ read key = none ∧
      ofTables (scopeBy read toScope refusal) tables = .error (refusal key)) ∨
    (∀ entry ∈ tables, read entry.1 ≠ none) ∧
      ofTables (scopeBy read toScope refusal) tables =
        .ok ((entriesOf tables).map (ofEntry read toScope)) := by
  induction tables with
  | nil => exact Or.inr ⟨fun _ h => absurd h List.not_mem_nil, rfl⟩
  | cons first tables ih =>
    obtain ⟨key, table⟩ := first
    cases hread : read key with
    | none =>
      refine Or.inl ⟨[], key, table, tables, rfl, fun _ h => absurd h List.not_mem_nil,
        hread, ?_⟩
      rw [ofTables, scopeBy, hread]
      rfl
    | some a =>
      have hknown : read key ≠ none := by
        rw [hread]
        exact Option.some_ne_none a
      rcases ih with ⟨before, key', table', after, rfl, hbefore, hread', herror⟩ | ⟨hall, hok⟩
      · refine Or.inl ⟨(key, table) :: before, key', table', after, rfl, ?_, hread', ?_⟩
        · exact List.forall_mem_cons.2 ⟨hknown, hbefore⟩
        · rw [ofTables, herror, scopeBy, hread]
          rfl
      · refine Or.inr ⟨List.forall_mem_cons.2 ⟨hknown, hall⟩, ?_⟩
        rw [ofTables, hok, scopeBy, hread, entriesOf_cons, List.map_append,
          ← ofTable_eq_map read toScope hread]
        rfl

/-- **Tables are refused for their smallest unknown key**, or all their entries are
registered (`ofTables`). -/
theorem ofTables_cases (tables : PatternTables) :
    (∃ key, Smallest (tables.Unknown read) key ∧
      ofTables (scopeBy read toScope refusal) tables.entries = .error (refusal key)) ∨
    (∀ key, ¬ tables.Unknown read key) ∧
      ofTables (scopeBy read toScope refusal) tables.entries =
        .ok (tables.listing.map (ofEntry read toScope)) := by
  rcases ofTables_eq read toScope refusal tables.entries with
    ⟨before, key, table, after, hentries, hbefore, hread, herror⟩ | ⟨hall, hok⟩
  · refine Or.inl ⟨key, ⟨⟨?_, hread⟩, fun other hother => ?_⟩, herror⟩
    · rw [PatternTables.keys, hentries]
      simp
    -- another unknown key stands behind, since the keys before are known
    · obtain ⟨hkey, hunknown⟩ := hother
      have hordered := tables.ordered
      rw [PatternTables.keys] at hkey
      rw [hentries] at hkey hordered
      obtain ⟨entry, hentry, rfl⟩ := List.mem_map.1 hkey
      rw [Text.encode_le_encode_iff]
      rcases List.mem_append.1 hentry with hentry | hentry
      · exact absurd hunknown (hbefore entry hentry)
      · rcases List.mem_cons.1 hentry with rfl | hentry
        · exact String.le_refl _
        · have hlt :=
            (List.pairwise_cons.1 (List.pairwise_append.1 hordered).2.1).1 entry hentry
          exact String.not_lt.1 (String.lt_asymm hlt)
  · refine Or.inr ⟨fun key hkey => ?_, hok⟩
    obtain ⟨entry, hentry, rfl⟩ := List.mem_map.1 hkey.1
    exact hall entry hentry hkey.2

/-- The last text for a cell in the `listing` of tables is the last one in order. -/
theorem settles_listing [DecidableEq α] (tables : PatternTables) (a : α) (category : Category)
    (old : Option String) :
    Settles tables.listing (fun entry => read entry.key = some a ∧
      Category.ofName entry.name = category) old
      ((last? tables.listing (isFor read a category)).or old) := by
  have hsettles := last?_settles tables.pairwise_listing (isFor read a category) old
  simp only [isFor, decide_eq_true_eq] at hsettles
  exact hsettles

variable {read toScope}

/-- What is registered for an entry of tables whose keys are known. -/
theorem scope_ofEntry_eq_iff {tables : PatternTables}
    (hknown : ∀ key, ¬ tables.Unknown read key) {entry : TableEntry}
    (hentry : entry ∈ tables.listing) (scope : Scope) :
    (ofEntry read toScope entry).scope = scope ↔ ∃ a, read entry.key = some a ∧
      toScope a = scope := by
  obtain ⟨a, ha⟩ : ∃ a, read entry.key = some a :=
    Option.ne_none_iff_exists'.1 fun hnone => hknown entry.key
      ⟨PatternTables.key_mem_keys hentry, hnone⟩
  simp [ofEntry, ha]

/-- `registerAll` leaves in a cell the last text that counts for it. -/
theorem get?_registerAll {scope : Scope} {category : Category} {entries : List TableEntry}
    {counts : TableEntry → Bool}
    (h : ∀ entry ∈ entries, ((ofEntry read toScope entry).scope = scope ∧
      Category.ofName entry.name = category) ↔ counts entry = true)
    (r : Registry) :
    (r.registerAll (entries.map (ofEntry read toScope))).get? scope category =
      (last? entries counts).or (r.get? scope category) := by
  let key (entry : TableEntry) : Scope × Category :=
    ((ofEntry read toScope entry).scope, Category.ofName entry.name)
  have hfind : entries.reverse.find? (key · = (scope, category)) =
      entries.reverse.find? counts := by
    rw [← List.head?_filter, ← List.head?_filter]
    refine congrArg List.head? (List.filter_congr fun entry hentry => ?_)
    rw [Bool.eq_iff_iff, decide_eq_true_iff, Prod.mk.injEq]
    exact h entry (List.mem_reverse.1 hentry)
  rw [Registry.registerAll, List.foldl_map, last?, ← hfind]
  exact Registry.get?_foldl_register key TableEntry.text entries r scope category

/-- `registerAll` of the entries of known keys leaves in a cell the last text for it. -/
theorem get?_registerAll_listing [DecidableEq α] (hinj : ∀ a b, toScope a = toScope b → a = b)
    {tables : PatternTables} (hknown : ∀ key, ¬ tables.Unknown read key) (r : Registry) (a : α)
    (category : Category) :
    (r.registerAll (tables.listing.map (ofEntry read toScope))).get? (toScope a) category =
      (last? tables.listing (isFor read a category)).or (r.get? (toScope a) category) := by
  refine get?_registerAll (fun entry hentry => ?_) r
  rw [scope_ofEntry_eq_iff hknown hentry, isFor, decide_eq_true_iff]
  refine and_congr_left fun _ => ⟨?_, fun hread => ⟨a, hread, rfl⟩⟩
  rintro ⟨b, hread, hscope⟩
  rwa [← hinj b a hscope]

/-- `registerAll` of the entries of known keys changes no cell of another kind. -/
theorem get?_registerAll_listing_of_ne {scope : Scope} (hne : ∀ a, toScope a ≠ scope)
    {tables : PatternTables} (hknown : ∀ key, ¬ tables.Unknown read key) (r : Registry)
    (category : Category) :
    (r.registerAll (tables.listing.map (ofEntry read toScope))).get? scope category =
      r.get? scope category := by
  have hnone : last? tables.listing (fun _ => false) = none := by
    rw [last?, Option.map_eq_none_iff, List.find?_eq_none]
    exact fun _ _ => Bool.false_ne_true
  rw [get?_registerAll (fun entry hentry => ?_) r, hnone, Option.none_or]
  rw [scope_ofEntry_eq_iff hknown hentry]
  refine iff_of_false ?_ Bool.false_ne_true
  rintro ⟨⟨a, -, hscope⟩, -⟩
  exact hne a hscope

end Tables

/-- Tables for languages are read by the names of languages. -/
theorem languageScope_eq :
    languageScope = scopeBy Language.ofName? .language fun key =>
      .language (.unknownLanguage key) := by
  funext key
  rw [languageScope, Language.parse, scopeBy]
  cases Language.ofName? key <;> rfl

/-- Tables for families are read by the names of families. -/
theorem familyScope_eq : familyScope = scopeBy Family.ofName? .family .unknownFamily := by
  funext key
  rw [familyScope, scopeBy]
  cases Family.ofName? key <;> rfl

end Registration

/-! ### Applying overrides -/

namespace PatternOverrides

/-- A key for a language that names none. -/
def UnknownLanguage (overrides : PatternOverrides) (key : String) : Prop :=
  overrides.languages.Unknown Language.ofName? key

/-- A key for a family that names none. -/
def UnknownFamily (overrides : PatternOverrides) (key : String) : Prop :=
  overrides.families.Unknown Family.ofName? key

end PatternOverrides

namespace Registry

open PatternOverrides Registration

/-- **What `applyOverrides` can do**: it is refused for the smallest unknown language,
else for the smallest unknown family, and else registers everything. -/
theorem applyOverrides_cases (r : Registry) (overrides : PatternOverrides) :
    (∃ key, Smallest overrides.UnknownLanguage key ∧
      r.applyOverrides overrides = (.error (.language (.unknownLanguage key)), r)) ∨
    (∀ key, ¬ overrides.UnknownLanguage key) ∧
      ((∃ key, Smallest overrides.UnknownFamily key ∧
        r.applyOverrides overrides = (.error (.unknownFamily key), r)) ∨
      (∀ key, ¬ overrides.UnknownFamily key) ∧
        r.applyOverrides overrides =
          (.ok (overrides.languages.listing.length + overrides.families.listing.length),
            (r.registerAll (overrides.families.listing.map
              (ofEntry Family.ofName? .family))).registerAll
              (overrides.languages.listing.map (ofEntry Language.ofName? .language)))) := by
  unfold applyOverrides
  rw [languageScope_eq, familyScope_eq]
  rcases ofTables_cases Language.ofName? .language
    (fun key => .language (.unknownLanguage key))
    overrides.languages with
    ⟨key, hkey, hlanguages⟩ | ⟨hknown, hlanguages⟩
  · rw [hlanguages]
    exact Or.inl ⟨key, hkey, rfl⟩
  · refine Or.inr ⟨hknown, ?_⟩
    rw [hlanguages]
    rcases ofTables_cases Family.ofName? .family .unknownFamily overrides.families with
      ⟨key, hkey, hfamilies⟩ | ⟨hknown', hfamilies⟩
    · rw [hfamilies]
      exact Or.inl ⟨key, hkey, rfl⟩
    · rw [hfamilies]
      refine Or.inr ⟨hknown', ?_⟩
      dsimp only
      rw [List.length_map, List.length_map]

/-- Overrides fail if and only if they have an unknown key. -/
theorem applyOverrides_eq_error_iff (r : Registry) (overrides : PatternOverrides) :
    (∃ e, (r.applyOverrides overrides).1 = .error e) ↔
      (∃ key, overrides.UnknownLanguage key) ∨ ∃ key, overrides.UnknownFamily key := by
  rcases r.applyOverrides_cases overrides with
    ⟨key, hkey, happly⟩ | ⟨hknown, ⟨key, hkey, happly⟩ | ⟨hknown', happly⟩⟩
  · rw [happly]
    exact iff_of_true ⟨_, rfl⟩ (Or.inl ⟨key, hkey.1⟩)
  · rw [happly]
    exact iff_of_true ⟨_, rfl⟩ (Or.inr ⟨key, hkey.1⟩)
  · rw [happly]
    refine iff_of_false ?_ ?_
    · rintro ⟨e, he⟩
      cases he
    · rintro (⟨key, hkey⟩ | ⟨key, hkey⟩)
      · exact hknown key hkey
      · exact hknown' key hkey

/-- What stands in the cells after overrides were registered. -/
theorem applyOverrides_of_known (r : Registry) {overrides : PatternOverrides}
    (hlanguages : ∀ key, ¬ overrides.UnknownLanguage key)
    (hfamilies : ∀ key, ¬ overrides.UnknownFamily key) :
    ∃ r', r.applyOverrides overrides =
        (.ok (overrides.languages.listing.length + overrides.families.listing.length), r') ∧
      (∀ language category, r'.get? (.language language) category =
        (last? overrides.languages.listing (isFor Language.ofName? language category)).or
          (r.get? (.language language) category)) ∧
      (∀ family category, r'.get? (.family family) category =
        (last? overrides.families.listing (isFor Family.ofName? family category)).or
          (r.get? (.family family) category)) ∧
      ∀ category, r'.get? .base category = r.get? .base category := by
  rcases r.applyOverrides_cases overrides with
    ⟨key, hkey, -⟩ | ⟨-, ⟨key, hkey, -⟩ | ⟨-, happly⟩⟩
  · exact absurd hkey.1 (hlanguages key)
  · exact absurd hkey.1 (hfamilies key)
  · refine ⟨_, happly, fun language category => ?_, fun family category => ?_,
      fun category => ?_⟩
    · rw [get?_registerAll_listing (fun _ _ => Scope.language.inj) hlanguages,
        get?_registerAll_listing_of_ne (fun _ => Scope.noConfusion) hfamilies]
    · rw [get?_registerAll_listing_of_ne (fun _ => Scope.noConfusion) hlanguages,
        get?_registerAll_listing (fun _ _ => Scope.family.inj) hfamilies]
    · rw [get?_registerAll_listing_of_ne (fun _ => Scope.noConfusion) hlanguages,
        get?_registerAll_listing_of_ne (fun _ => Scope.noConfusion) hfamilies]

/-- **Overrides are applied as a whole.** Whatever the registry and the overrides:

* They fail if and only if a key for a language names no language, or a key for a family
  no family, also if its table is empty.
* A failure reports the smallest such key for a language, or the smallest one for a family
  if all languages are known, and leaves the registry as it was.
* Otherwise they give the number of all entries. Each cell of a language holds the text of
  the last entry whose key names the language and whose name means the category, or what
  it held if there is none; so do the cells of families; and the base is left alone. -/
theorem overrides_all_or_nothing (r : Registry) (overrides : PatternOverrides) :
    ((∃ e, (r.applyOverrides overrides).1 = .error e) ↔
      (∃ key, overrides.UnknownLanguage key) ∨ ∃ key, overrides.UnknownFamily key) ∧
    (∀ e, (r.applyOverrides overrides).1 = .error e →
      ((∃ key, Smallest overrides.UnknownLanguage key ∧ e = .language (.unknownLanguage key)) ∨
        (∀ key, ¬ overrides.UnknownLanguage key) ∧
          ∃ key, Smallest overrides.UnknownFamily key ∧ e = .unknownFamily key) ∧
      (r.applyOverrides overrides).2 = r) ∧
    ((∀ key, ¬ overrides.UnknownLanguage key) → (∀ key, ¬ overrides.UnknownFamily key) →
      (r.applyOverrides overrides).1 =
        .ok (overrides.languages.listing.length + overrides.families.listing.length) ∧
      (∀ language category, Settles overrides.languages.listing
        (fun entry => Language.ofName? entry.key = some language ∧
          Category.ofName entry.name = category)
        (r.get? (.language language) category)
        ((r.applyOverrides overrides).2.get? (.language language) category)) ∧
      (∀ family category, Settles overrides.families.listing
        (fun entry => Family.ofName? entry.key = some family ∧
          Category.ofName entry.name = category)
        (r.get? (.family family) category)
        ((r.applyOverrides overrides).2.get? (.family family) category)) ∧
      ∀ category, (r.applyOverrides overrides).2.get? .base category =
        r.get? .base category) := by
  refine ⟨r.applyOverrides_eq_error_iff overrides, ?_, fun hlanguages hfamilies => ?_⟩
  · intro e he
    rcases r.applyOverrides_cases overrides with
      ⟨key, hkey, happly⟩ | ⟨hknown, ⟨key, hkey, happly⟩ | ⟨-, happly⟩⟩
    · rw [happly] at he ⊢
      exact ⟨Or.inl ⟨key, hkey, (Except.error.inj he).symm⟩, rfl⟩
    · rw [happly] at he ⊢
      exact ⟨Or.inr ⟨hknown, key, hkey, (Except.error.inj he).symm⟩, rfl⟩
    · rw [happly] at he
      cases he
  · obtain ⟨r', happly, hlanguage, hfamily, hbase⟩ :=
      r.applyOverrides_of_known hlanguages hfamilies
    rw [happly]
    refine ⟨rfl, fun language category => ?_, fun family category => ?_, hbase⟩
    · rw [hlanguage]
      exact settles_listing Language.ofName? overrides.languages language category _
    · rw [hfamily]
      exact settles_listing Family.ofName? overrides.families family category _

/-- Three entries for one cell, under two keys that name Python, and the same with a table
without entries for a family that does not exist. -/
theorem overrides_all_or_nothing_spellings :
    let good : PatternOverrides :=
      { languages := .ofEntries
          [("py", .ofEntries [("function", "third"), ("Functions", "second")]),
            ("Python", .ofEntries [("function", "first")])] }
    let bad : PatternOverrides :=
      { good with families := .ofEntries [("klingon", .empty), ("shell", .empty)] }
    (∀ key, ¬ good.UnknownLanguage key) ∧ (∀ key, ¬ good.UnknownFamily key) ∧
    (empty.applyOverrides good).1 = .ok 3 ∧
    (empty.applyOverrides good).2.get? (.language .python) .functions = some "third" ∧
    bad.UnknownFamily "klingon" ∧ (∃ e, (empty.applyOverrides bad).1 = .error e) ∧
    (empty.applyOverrides bad).2 = empty := by
  intro good bad
  have hlanguages : ∀ key, ¬ good.UnknownLanguage key := by
    rintro key ⟨hkey, hunknown⟩
    have hkeys : good.languages.keys = ["Python", "py"] := by decide +kernel
    rw [hkeys] at hkey
    rcases List.mem_cons.1 hkey with rfl | hkey
    · exact absurd hunknown (by decide +kernel)
    · obtain rfl := List.mem_singleton.1 hkey
      exact absurd hunknown (by decide +kernel)
  have hfamilies : ∀ key, ¬ good.UnknownFamily key :=
    fun key hkey => absurd hkey.1 List.not_mem_nil
  have hbad : bad.UnknownFamily "klingon" := ⟨by decide +kernel, by decide +kernel⟩
  obtain ⟨-, -, hgood⟩ := overrides_all_or_nothing empty good
  obtain ⟨hfails, hreports, -⟩ := overrides_all_or_nothing empty bad
  obtain ⟨e, he⟩ := hfails.2 (Or.inr ⟨"klingon", hbad⟩)
  obtain ⟨hcount, -⟩ := hgood hlanguages hfamilies
  have hlength : good.languages.listing.length + good.families.listing.length = 3 := by
    decide +kernel
  rw [hlength] at hcount
  exact ⟨hlanguages, hfamilies, hcount, by decide +kernel, hbad, ⟨e, he⟩, (hreports e he).2⟩

end Registry

end SourceOutline
