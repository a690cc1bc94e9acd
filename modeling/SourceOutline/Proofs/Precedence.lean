import SourceOutline.Analyzer
import SourceOutline.Proofs.Overrides

/-!
# The Precedence of Patterns

A configured analyzer has its patterns from six sources: what the configuration says of
the language, query files on the search paths, the built-in patterns of the language, what
the configuration says of the family, the built-in patterns of the family, and the base.
They are written one after the other into the layers of a registry. This module says which
of them a lookup gives: the first in the order above that has a text, whatever the
configuration and the files are.

The sources are described by what the tables and files hold, not by how they are read. A
loader remembers the query files that it found; `GrammarLoader.Coherent` says that what it
remembers is what a search would find, which keeps the languages that share a grammar from
getting different texts.

## Main results

* `Coherent.query`: a coherent loader gives what a search finds, and stays coherent.
* `get?_loadExternal`: what query files leave in the cells of a registry.
* `configured_precedence`: when an analyzer can be had from a configuration, and its
  pattern in effect.
-/

namespace SourceOutline

/-! ### The first of some sources -/

/-- What sources give together: the text of the first one that has a text. -/
inductive FirstPresent : List (String → Prop) → Option String → Prop
  | nil : FirstPresent [] none
  | here {source : String → Prop} {rest : List (String → Prop)} {text : String} :
      source text → FirstPresent (source :: rest) (some text)
  | later {source : String → Prop} {rest : List (String → Prop)} {result : Option String} :
      (∀ text, ¬ source text) → FirstPresent rest result → FirstPresent (source :: rest) result

namespace FirstPresent

/-- A source that is given as an option comes before the rest of `FirstPresent`. -/
theorem or {source : String → Prop} {rest : List (String → Prop)}
    {given result : Option String} (h : ∀ text, source text ↔ given = some text)
    (hrest : FirstPresent rest result) :
    FirstPresent (source :: rest) (given.or result) := by
  cases given with
  | none =>
    refine .later (fun text hsource => ?_) hrest
    cases (h text).1 hsource
  | some text => exact .here ((h text).2 rfl)

/-- Sources that are given as options are searched from the first to the last by
`findSome?`. -/
theorem map_iff {α : Type} {source : α → String → Prop} {given : α → Option String}
    (h : ∀ a text, source a text ↔ given a = some text) {as : List α}
    {result : Option String} :
    FirstPresent (as.map source) result ↔ as.findSome? given = result := by
  induction as with
  | nil =>
    constructor
    · rintro ⟨⟩
      rfl
    · rintro rfl
      exact .nil
  | cons a as ih =>
    rw [List.map_cons, List.findSome?_cons]
    constructor
    · intro hfirst
      cases hfirst with
      | here hsource => rw [(h a _).1 hsource]
      | later hnone hrest =>
        have hgiven : given a = none := Option.eq_none_iff_forall_ne_some.2 fun text htext =>
          hnone text ((h a text).2 htext)
        rw [hgiven]
        exact ih.1 hrest
    · cases hgiven : given a with
      | none =>
        intro hrest
        refine .later (fun text hsource => ?_) (ih.2 hrest)
        rw [h, hgiven] at hsource
        cases hsource
      | some text =>
        rintro rfl
        exact .here ((h a text).2 hgiven)

end FirstPresent

/-! ### Query files -/

/-- A path leads to a file that holds a text. -/
def FileTree.HasText (files : FileTree) (path : Path) (text : String) : Prop :=
  ∃ place node, files.find path = .ok (place, node) ∧ node.content? = some (Text.encode text)

/-- `readText` gives the text of a file exactly if it holds one. -/
theorem FileTree.toOption_readText_eq_some_iff {files : FileTree} {path : Path}
    {text : String} :
    (files.readText path).toOption = some text ↔ files.HasText path text := by
  unfold readText readBytes HasText
  rcases files.find path with e | ⟨place, node⟩
  · simp [bind, Except.bind, Except.toOption]
  · cases hcontent : node.content? with
    | none => simp_all [bind, Except.bind, Except.toOption]
    | some content =>
      have hdecode : Text.decode? content = some text ↔ content = Text.encode text :=
        Text.decode?_eq_some_iff
      cases hread : Text.decode? content with
      | none => simp_all [bind, Except.bind, Except.toOption]
      | some found => simp_all [bind, Except.bind, Except.toOption]

namespace GrammarLoader

/-- The text of the first file on some search paths that is a query file of a grammar and
can be read. -/
def queryText? (files : FileTree) (dirs : List Path) (name kind : String) : Option String :=
  dirs.findSome? fun dir => (files.readText (dir.joinString (queryName name kind))).toOption

/-- What a loader remembers is what a search on its paths finds. -/
structure Coherent (files : FileTree) (dirs : List Path) (loader : GrammarLoader) : Prop where
  searchPaths_eq : loader.searchPaths = dirs
  remembered : ∀ name kind text, loader.queries.lookup (name, kind) = some text →
    queryText? files dirs name kind = some text

variable {files : FileTree} {dirs : List Path} {loader : GrammarLoader}

/-- **A coherent loader gives what a search finds**, `queryText?`, and stays coherent. -/
theorem Coherent.query (h : loader.Coherent files dirs) (name kind : String) :
    (loader.query files name kind).1 = queryText? files dirs name kind ∧
      (loader.query files name kind).2.Coherent files dirs := by
  have hseek : loader.seekQuery? files name kind = queryText? files dirs name kind := by
    rw [seekQuery?, h.searchPaths_eq, queryText?]
  unfold GrammarLoader.query
  cases hlookup : loader.queries.lookup (name, kind) with
  | some text => exact ⟨(h.remembered name kind text hlookup).symm, h⟩
  | none =>
    rw [hseek]
    cases hfound : queryText? files dirs name kind with
    | none => exact ⟨rfl, h⟩
    | some text =>
      refine ⟨rfl, h.searchPaths_eq, fun name' kind' text' hlookup' => ?_⟩
      rw [List.lookup_cons] at hlookup'
      split at hlookup'
      next heq =>
        obtain ⟨rfl, rfl⟩ := Prod.mk.inj (eq_of_beq heq)
        rw [hfound]
        exact hlookup'
      next => exact h.remembered name' kind' text' hlookup'

end GrammarLoader

namespace Registry

open GrammarLoader

variable {files : FileTree} {dirs : List Path}

/-- What query files say of a cell: something only of the built-in categories of languages
with a grammar. -/
def fileText? (files : FileTree) (dirs : List Path) : Scope → Category → Option String
  | .language language, category =>
    if category ∈ Category.builtins then
      language.grammar?.bind fun grammar => queryText? files dirs grammar category.name
    else none
  | .family _, _ | .base, _ => none

/-- What loading did to a cell: it wrote a text if it met the cell and there was one. The
loader stays coherent. -/
structure Writes (files : FileTree) (dirs : List Path) (scope : Scope) (category : Category)
    (text : Option String) (state state' : Loading) : Prop where
  coherent : state'.loader.Coherent files dirs
  get?_eq : state'.registry.get? scope category = text.or (state.registry.get? scope category)

/-- A category writes the text of its query file, to its own cell (`Writes`). -/
theorem writes_category {state : Loading} (h : state.loader.Coherent files dirs)
    (language : Language) (grammar : String) (scope : Scope) (category other : Category) :
    Writes files dirs scope category
      (if scope = .language language ∧
        category = other then queryText? files dirs grammar category.name else none)
      state (state.category files language grammar other) := by
  obtain ⟨htext, hcoherent⟩ := h.query grammar other.name
  unfold Loading.category
  rcases hquery : state.loader.query files grammar other.name with ⟨found, loader⟩
  rw [hquery] at htext hcoherent
  cases found with
  | none =>
    refine ⟨hcoherent, ?_⟩
    dsimp only at htext ⊢
    split
    next hcell => rw [hcell.2, ← htext, Option.none_or]
    next => rw [Option.none_or]
  | some text =>
    refine ⟨hcoherent, ?_⟩
    dsimp only at htext ⊢
    rw [get?_register]
    split
    next hcell => rw [hcell.2, ← htext, Option.some_or]
    next => rw [Option.none_or]

/-- Steps that write one text, if they meet the cell, write it together if one of them
does (`Writes`). -/
theorem writes_foldl {α : Type} {step : Loading → α → Loading} {meets : α → Prop}
    [DecidablePred meets] {scope : Scope} {category : Category} {text : Option String}
    (hstep : ∀ state a, state.loader.Coherent files dirs →
      Writes files dirs scope category (if meets a then text else none) state (step state a))
    (as : List α) {state : Loading} (h : state.loader.Coherent files dirs) :
    Writes files dirs scope category (if ∃ a ∈ as, meets a then text else none) state
      (as.foldl step state) := by
  induction as generalizing state with
  | nil => exact ⟨h, by simp⟩
  | cons a as ih =>
    obtain ⟨hcoherent, hfirst⟩ := hstep state a h
    obtain ⟨hcoherent', hrest⟩ := ih hcoherent
    refine ⟨hcoherent', ?_⟩
    rw [List.foldl_cons, hrest, hfirst, ← Option.or_assoc]
    by_cases hmeets : meets a
    · by_cases hothers : ∃ a ∈ as, meets a <;> simp [hmeets, hothers]
    · simp [hmeets]

/-- A language writes what query files say of its cells, `fileText?`. -/
theorem writes_language {state : Loading} (h : state.loader.Coherent files dirs)
    (language : Language) (scope : Scope) (category : Category) :
    Writes files dirs scope category
      (if scope = .language language then fileText? files dirs scope category else none)
      state (state.language files language) := by
  unfold Loading.language
  cases hgrammar : language.grammar? with
  | none =>
    refine ⟨h, ?_⟩
    by_cases hscope : scope = .language language
    · subst hscope
      simp [fileText?, hgrammar]
    · simp [hscope]
  | some grammar =>
    obtain ⟨hcoherent, hget⟩ := writes_foldl
      (fun state other hstate => writes_category hstate language grammar scope category other)
      Category.builtins h
    refine ⟨hcoherent, ?_⟩
    rw [hget]
    by_cases hscope : scope = .language language
    · subst hscope
      simp [fileText?, hgrammar]
    · simp [hscope]

/-- **What query files leave in the cells of a registry**: `loadExternal` puts them over
what was there. -/
theorem get?_loadExternal {loader : GrammarLoader} (h : loader.Coherent files dirs)
    (r : Registry) (scope : Scope) (category : Category) :
    (r.loadExternal loader files Language.all).registry.get? scope category =
      (fileText? files dirs scope category).or (r.get? scope category) := by
  have hstart : (Loading.mk r loader 0).loader.Coherent files dirs := h
  obtain ⟨-, hget⟩ := writes_foldl
    (fun state language hstate => writes_language hstate language scope category)
    Language.all hstart
  rw [loadExternal, hget]
  cases scope with
  | base => simp [fileText?]
  | family family => simp [fileText?]
  | language language => simp [Language.mem_all]

end Registry

/-! ### What the configuration and the files say -/

/-- An entry that comes before another does not come after it. -/
theorem TableEntry.Before.asymm {a b : TableEntry} (h : a.Before b) : ¬ b.Before a := by
  rintro (hkey' | ⟨hkey', hname'⟩)
  · rcases h with hkey | ⟨hkey, -⟩
    · exact List.lt_asymm hkey hkey'
    · rw [hkey] at hkey'
      exact List.lt_irrefl _ hkey'
  · rcases h with hkey | ⟨-, hname⟩
    · rw [hkey'] at hkey
      exact List.lt_irrefl _ hkey
    · exact List.lt_asymm hname hname'

/-- There is one last entry at most, by `IsLast`. -/
theorem TableEntry.IsLast.unique {entries : List TableEntry} {counts : TableEntry → Prop}
    {a b : TableEntry} (ha : IsLast entries counts a) (hb : IsLast entries counts b) :
    a = b := by
  rcases hb.2.2 a ha.1 ha.2.1 with heq | hbefore
  · exact heq
  · rcases ha.2.2 b hb.1 hb.2.1 with heq | hbefore'
    · exact heq.symm
    · exact absurd hbefore' hbefore.asymm

/-- What tables say of a category of what they are for: the text of the last entry for it,
if there is one. -/
def PatternTables.Says {α : Type} (tables : PatternTables) (read : String → Option α) (a : α)
    (category : Category) (text : String) : Prop :=
  ∃ entry, TableEntry.IsLast tables.listing
    (fun entry => read entry.key = some a ∧ Category.ofName entry.name = category) entry ∧
    entry.text = text

/-- What tables say of a cell is the text of its last entry. -/
theorem PatternTables.says_iff {α : Type} [DecidableEq α] {tables : PatternTables}
    {read : String → Option α} {a : α} {category : Category} {text : String} :
    tables.Says read a category text ↔
      TableEntry.last? tables.listing (Registration.isFor read a category) = some text := by
  rcases Registration.settles_listing read tables a category none with
    ⟨entry, hlast, hsome⟩ | ⟨hnone, hlast⟩
  · rw [Option.or_none] at hsome
    rw [hsome, Option.some.injEq]
    constructor
    · rintro ⟨other, hother, rfl⟩
      rw [hlast.unique hother]
    · rintro rfl
      exact ⟨entry, hlast, rfl⟩
  · rw [Option.or_none] at hlast
    rw [hlast]
    refine iff_of_false ?_ (Option.some_ne_none text).symm
    rintro ⟨entry, hentry, -⟩
    exact hnone entry hentry.1 hentry.2.1

/-- What query files say of a category of a language: the text of the first file of the
right name on the search paths, if the category is built in and the language has a
grammar. -/
def FileTree.QueryFileSays (files : FileTree) (dirs : List Path) (language : Language)
    (category : Category) (text : String) : Prop :=
  category ∈ Category.builtins ∧ ∃ grammar, language.grammar? = some grammar ∧
    FirstPresent (dirs.map fun dir => files.HasText
      (dir.joinString (grammar ++ "." ++ category.name ++ ".scm")))
      (some text)

/-- What query files say of a cell of a language is what loading them writes there. -/
theorem FileTree.queryFileSays_iff {files : FileTree} {dirs : List Path} {language : Language}
    {category : Category} {text : String} :
    files.QueryFileSays dirs language category text ↔
      Registry.fileText? files dirs (.language language) category = some text := by
  unfold QueryFileSays Registry.fileText?
  by_cases hbuiltin : category ∈ Category.builtins
  · simp only [hbuiltin, true_and, if_pos, Option.bind_eq_some_iff]
    refine exists_congr fun grammar => and_congr_right fun _ => ?_
    unfold GrammarLoader.queryText?
    refine FirstPresent.map_iff fun dir text => ?_
    exact toOption_readText_eq_some_iff.symm
  · simp [hbuiltin]

/-- The sources of patterns, the one that counts most first: what overrides say of the
language, what query files say, the built-in pattern of the language, what overrides say
of the family, the built-in pattern of the family, and the base. -/
def patternSources (files : FileTree) (dirs : List Path) (overrides : PatternOverrides)
    (language : Language) (category : Category) : List (String → Prop) :=
  [overrides.languages.Says Language.ofName? language category,
    files.QueryFileSays dirs language category,
    fun text => (Registry.builtinTable (.language language)).lookup category = some text,
    fun text => ∃ family, language.family = some family ∧
      overrides.families.Says Family.ofName? family category text,
    fun text => ∃ family, language.family = some family ∧
      (Registry.builtinTable (.family family)).lookup category = some text,
    fun text => (Registry.builtinTable .base).lookup category = some text]

namespace Registry

/-- What the family of a language gives as an option. -/
theorem exists_family_iff {α : Type} {family : Option α} {source : α → String → Prop}
    {given : α → Option String} (h : ∀ a text, source a text ↔ given a = some text)
    (text : String) :
    (∃ a, family = some a ∧ source a text) ↔ family.bind given = some text := by
  rw [Option.bind_eq_some_iff]
  exact exists_congr fun a => and_congr_right fun _ => h a text

/-- **Overrides over query files over the built-in patterns** give the first of the
sources that has a text. -/
theorem firstPresent_patternFor {files : FileTree} {dirs : List Path}
    {overrides : PatternOverrides} {r r' : Registry} {n : Nat}
    (hr : ∀ scope category, r.get? scope category =
      (fileText? files dirs scope category).or (builtin.get? scope category))
    (happly : r.applyOverrides overrides = (.ok n, r')) (language : Language)
    (category : Category) :
    FirstPresent (patternSources files dirs overrides language category)
      (r'.patternFor category language) := by
  have hok : ¬ ∃ e, (r.applyOverrides overrides).1 = .error e := by
    rw [happly]
    rintro ⟨e, he⟩
    cases he
  rw [applyOverrides_eq_error_iff, not_or, not_exists, not_exists] at hok
  obtain ⟨hlanguages, hfamilies⟩ := hok
  obtain ⟨r'', happly', hlanguage, hfamily, hbase⟩ :=
    r.applyOverrides_of_known hlanguages hfamilies
  obtain rfl : r' = r'' := congrArg Prod.snd (happly.symm.trans happly')
  have hfamilyCell : (language.family.bind fun family => r'.get? (.family family) category) =
      (language.family.bind fun family => TableEntry.last? overrides.families.listing
        (Registration.isFor Family.ofName? family category)).or
      (language.family.bind fun family =>
        (builtinTable (.family family)).lookup category) := by
    cases language.family with
    | none => rfl
    | some family =>
      rw [Option.bind_some, Option.bind_some, Option.bind_some, hfamily, hr, get?_builtin]
      rfl
  have hbaseCell : r'.get? .base category =
      ((builtinTable .base).lookup category).or none := by
    rw [hbase, hr, get?_builtin, Option.or_none]
    rfl
  rw [patternFor_eq, hlanguage, hr, get?_builtin, hfamilyCell, hbaseCell]
  rw [Option.or_assoc, Option.or_assoc, Option.or_assoc]
  exact .or (fun _ => PatternTables.says_iff) <| .or (fun _ => FileTree.queryFileSays_iff) <|
    .or (fun _ => Iff.rfl) <| .or (exists_family_iff fun _ _ => PatternTables.says_iff) <|
    .or (exists_family_iff fun _ _ => Iff.rfl) <| .or (fun _ => Iff.rfl) .nil

end Registry

namespace Analyzer

open Registry

/-- The loader of a configuration is coherent if the shared service has not read query
files yet. -/
theorem coherent_serviceOf (env : Environment) {shared : LanguageService}
    (hpaths : shared.loader.searchPaths = env.searchPaths)
    (hqueries : shared.loader.queries = []) (files : FileTree) (config : AnalyzerConfig) :
    (serviceOf env shared config).loader.Coherent files
      (config.searchPaths ++ env.searchPaths) := by
  have hfresh : (serviceOf env shared config).loader.searchPaths =
      config.searchPaths ++ env.searchPaths ∧
      (serviceOf env shared config).loader.queries = [] := by
    unfold serviceOf
    split
    next hempty =>
      rw [List.isEmpty_iff.1 hempty]
      exact ⟨hpaths, hqueries⟩
    next => exact ⟨rfl, rfl⟩
  refine ⟨hfresh.1, fun name kind text hlookup => ?_⟩
  rw [hfresh.2] at hlookup
  cases hlookup

/-- **The precedence of patterns.** For all configurations and files, if no query files
were read before:

* There is no analyzer if and only if the configuration has an unknown key for a language
  or a family.
* The pattern in effect of an analyzer is the text of the first of the six sources that
  has one. The query files are those in the directories of the configuration, then those
  that the environment lists, then the one for configurations. -/
theorem configured_precedence {Q : Type} (env : Environment) (shared : LanguageService)
    (hpaths : shared.loader.searchPaths = env.searchPaths)
    (hqueries : shared.loader.queries = []) (files : FileTree) (config : AnalyzerConfig) :
    ((∃ e, ofConfig (Q := Q) env shared files config = .error e) ↔
      (∃ key, config.patterns.UnknownLanguage key) ∨
      ∃ key, config.patterns.UnknownFamily key) ∧
    ∀ a : Analyzer Q, ofConfig env shared files config = .ok a → ∀ language category,
      FirstPresent
        (patternSources files (config.searchPaths ++ env.searchPaths) config.patterns
          language category)
        (a.handler.registry.patternFor category language) := by
  have hcells :=
    get?_loadExternal (coherent_serviceOf env hpaths hqueries files config) Registry.builtin
  unfold ofConfig
  dsimp only
  generalize Registry.builtin.loadExternal (serviceOf env shared config).loader files
    Language.all = loading
    at hcells ⊢
  rw [← loading.registry.applyOverrides_eq_error_iff]
  rcases happly : loading.registry.applyOverrides config.patterns with ⟨e | n, r⟩
  · refine ⟨iff_of_true ⟨_, rfl⟩ ⟨e, rfl⟩, fun a ha => ?_⟩
    cases ha
  · refine ⟨iff_of_false ?_ ?_, fun a ha language category => ?_⟩
    · rintro ⟨e, he⟩
      cases he
    · rintro ⟨e, he⟩
      cases he
    · obtain rfl := Except.ok.inj ha
      exact firstPresent_patternFor hcells happly language category

/-- A configuration that says something of shell scripts, with a directory where the query
file for functions of Bash would be, and the query file on a path of the environment. -/
theorem configured_precedence_next_directory :
    let env : Environment := { grammarPath := some "/listed" }
    let files :=
      (FileTree.empty.write (Path.ofString "/first/bash.function.scm") .directory).write
      (Path.ofString "/listed/bash.function.scm") (.file (Text.encode "(program) @é"))
    let config : AnalyzerConfig :=
      { searchPaths := [Path.ofString "/first"]
        patterns :=
          { families := .ofEntries [("shell", .ofEntries [("functions", "(word)")])] } }
    (sharedService env).loader.searchPaths = env.searchPaths ∧
      (sharedService env).loader.queries = [] ∧
    ∃ a : Analyzer Unit, ofConfig env (sharedService env) files config = .ok a ∧
      a.handler.registry.patternFor .functions .bash = some "(program) @é" := by
  intro env files config
  obtain ⟨hfails, hfirst⟩ :=
    configured_precedence (Q := Unit) env (sharedService env) rfl rfl files config
  refine ⟨rfl, rfl, ?_⟩
  have hfile : fileText? files (config.searchPaths ++ env.searchPaths) (.language .bash)
      .functions =
      some "(program) @é" := by
    decide +kernel
  cases hconfig : ofConfig (Q := Unit) env (sharedService env) files config with
  | error e =>
    rcases hfails.1 ⟨e, hconfig⟩ with ⟨key, hkey, -⟩ | ⟨key, hkey, hunknown⟩
    · exact absurd hkey List.not_mem_nil
    · have hkeys : config.patterns.families.keys = ["shell"] := by decide +kernel
      rw [hkeys] at hkey
      obtain rfl := List.mem_singleton.1 hkey
      exact absurd hunknown (by decide +kernel)
  | ok a =>
    refine ⟨a, rfl, ?_⟩
    have hbash := hfirst a hconfig .bash .functions
    generalize a.handler.registry.patternFor .functions .bash = pattern at hbash ⊢
    cases hbash with
    | here hsays =>
      obtain ⟨entry, hlast, -⟩ := hsays
      exact absurd hlast.1 List.not_mem_nil
    | later _ hbash =>
      cases hbash with
      | here hsays => rw [← FileTree.queryFileSays_iff.1 hsays, hfile]
      | later hnone _ => exact absurd (FileTree.queryFileSays_iff.2 hfile) (hnone _)

end Analyzer

end SourceOutline
