import SourceOutline.Proofs.Grouping
import SourceOutline.Proofs.Precedence

/-!
# Runs of a Grammar Loader

A loader is asked for grammars, for the paths they came from and for query files, and gets
more search paths, while the files around it change in any way: every request comes with
the files that there are at the time. What was found once is given for ever after. What
was not found is sought afresh, in the order of the search paths, and files that do not
serve are passed over.

`found?` says in one expression what a loader has for a name: what it remembers, or else
what a search finds. A request leaves it as it is as long as the files stay. The invariant
`Recalls` ties both memories of a loader to the replies that it has given: it remembers
what it once gave, and nothing else.

## Main results

* `get_fst`, `lookup_get`: what a loader gives, and what it remembers then; the same for
  query files.
* `seek?_eq_some_iff`: a search finds what the first directory that offers anything holds.
* `Recalls.serve`, `recalls_serveAll`: every request keeps the invariant, so it holds at
  each point of a run.
* `loader_answers_sticky`: when a loader has no answer, what its first answer is, and that
  it stays.
-/

namespace SourceOutline

/-- A path leads to a library that exports a symbol. -/
def FileTree.HasLibrary (files : FileTree) (path : Path) (symbol : String)
    (grammar : Grammar) : Prop :=
  ∃ place content, files.find path = .ok (place, .library symbol grammar content)

/-- `loadSymbol?` gives the grammar of a library that exports the symbol, and nothing
else. -/
theorem FileTree.loadSymbol?_eq_some_iff {files : FileTree} {path : Path} {symbol : String}
    {grammar : Grammar} :
    files.loadSymbol? path symbol = some grammar ↔ files.HasLibrary path symbol grammar := by
  unfold loadSymbol? HasLibrary
  rcases files.find path with e | ⟨place, node⟩
  · simp
  · cases node with
    | directory => simp
    | file content => simp
    | library exported grammar' content =>
      by_cases hsymbol : exported = symbol
      · simp [hsymbol]
      · simp [hsymbol]

namespace GrammarLoader

/-! ### What directories hold -/

/-- A directory holds a library of a grammar that exports the right symbol. -/
def Offers (files : FileTree) (name : String) (dir : Path) (grammar : Grammar) : Prop :=
  files.HasLibrary (dir.joinString (name ++ ".so"))
    ("tree_sitter_" ++ String.ofList (name.toList.map fun c => if c = '-' then '_' else c))
    grammar

/-- A directory holds a query file of a grammar that can be read as text. -/
def OffersText (files : FileTree) (name kind : String) (dir : Path) (text : String) : Prop :=
  files.HasText (dir.joinString (name ++ "." ++ kind ++ ".scm")) text

/-- What one directory gives to a search for a grammar. -/
def seekIn? (files : FileTree) (name : String) (dir : Path) : Option LoadedGrammar :=
  let path := dir.joinString (libraryName name)
  (files.loadSymbol? path (symbolName name)).map fun grammar => { grammar, path }

/-- One directory gives the library that it offers. -/
theorem seekIn?_eq_some_iff {files : FileTree} {name : String} {dir : Path}
    {loaded : LoadedGrammar} :
    seekIn? files name dir = some loaded ↔
      Offers files name dir loaded.grammar ∧ loaded.path = dir.joinString (name ++ ".so") := by
  unfold seekIn? Offers
  dsimp only
  rw [Option.map_eq_some_iff]
  constructor
  · rintro ⟨grammar, hload, rfl⟩
    exact ⟨FileTree.loadSymbol?_eq_some_iff.1 hload, rfl⟩
  · rintro ⟨hlibrary, hpath⟩
    refine ⟨loaded.grammar, FileTree.loadSymbol?_eq_some_iff.2 hlibrary, ?_⟩
    obtain ⟨grammar, path⟩ := loaded
    exact congrArg (LoadedGrammar.mk grammar) hpath.symm

variable {loader : GrammarLoader} {files : FileTree}

/-- **A search finds the library of the first directory that offers one**, with its path:
`seek?` goes by `searchPaths`. -/
theorem seek?_eq_some_iff {name : String} {loaded : LoadedGrammar} :
    loader.seek? files name = some loaded ↔
      ∃ dir, IsFirst (fun dir => ∃ grammar, Offers files name dir grammar)
        loader.searchPaths dir ∧
        Offers files name dir loaded.grammar ∧
        loaded.path = dir.joinString (name ++ ".so") := by
  have hsome (dir : Path) : (∃ loaded, seekIn? files name dir = some loaded) ↔
      ∃ grammar, Offers files name dir grammar := by
    constructor
    · rintro ⟨loaded, hloaded⟩
      exact ⟨loaded.grammar, (seekIn?_eq_some_iff.1 hloaded).1⟩
    · rintro ⟨grammar, hoffers⟩
      exact ⟨⟨grammar, _⟩, seekIn?_eq_some_iff.2 ⟨hoffers, rfl⟩⟩
  have hseek : loader.seek? files name = loader.searchPaths.findSome? (seekIn? files name) :=
    rfl
  rw [hseek, findSome?_eq_some_iff_isFirst fun _ _ => Iff.rfl]
  simp only [hsome]
  simp only [seekIn?_eq_some_iff]

/-- A search finds no library where no directory offers one. -/
theorem seek?_eq_none_iff {name : String} :
    loader.seek? files name = none ↔
    ∀ dir ∈ loader.searchPaths, ∀ grammar, ¬ Offers files name dir grammar := by
  have hseek : loader.seek? files name = loader.searchPaths.findSome? (seekIn? files name) :=
    rfl
  rw [hseek, findSome?_eq_none_iff_forall fun _ _ => seekIn?_eq_some_iff]
  refine forall₂_congr fun dir _ => ⟨fun hnone grammar hoffers => ?_,
    fun hnone loaded hloaded => ?_⟩
  · exact hnone ⟨grammar, _⟩ ⟨hoffers, rfl⟩
  · exact hnone loaded.grammar hloaded.1

/-- **A search finds the text of the first directory that offers one**: so does
`seekQuery?`. -/
theorem seekQuery?_eq_some_iff {name kind text : String} :
    loader.seekQuery? files name kind = some text ↔
      ∃ dir, IsFirst (fun dir => ∃ text, OffersText files name kind dir text)
        loader.searchPaths dir ∧
        OffersText files name kind dir text :=
  findSome?_eq_some_iff_isFirst fun _ _ => FileTree.toOption_readText_eq_some_iff

/-- A search finds no text where no directory offers one. -/
theorem seekQuery?_eq_none_iff {name kind : String} :
    loader.seekQuery? files name kind = none ↔
      ∀ dir ∈ loader.searchPaths, ∀ text, ¬ OffersText files name kind dir text :=
  findSome?_eq_none_iff_forall fun _ _ => FileTree.toOption_readText_eq_some_iff

/-! ### One request -/

/-- What a loader has for a grammar: what it remembers, or else what a search finds. -/
def found? (loader : GrammarLoader) (files : FileTree) (name : String) :
    Option LoadedGrammar :=
  (loader.grammars.lookup name).or (loader.seek? files name)

/-- What a loader has for a query file: what it remembers, or else what a search finds. -/
def foundQuery? (loader : GrammarLoader) (files : FileTree) (name kind : String) :
    Option String :=
  (loader.queries.lookup (name, kind)).or (loader.seekQuery? files name kind)

/-- `get` gives what the loader has. -/
theorem get_fst (loader : GrammarLoader) (files : FileTree) (name : String) :
    (loader.get files name).1 = (loader.found? files name).map (·.grammar) := by
  unfold GrammarLoader.get found?
  cases loader.grammars.lookup name with
  | some loaded => rfl
  | none => cases loader.seek? files name <;> rfl

/-- What `get` leaves remembered: what it gave, and what was remembered of other names. -/
theorem lookup_get (loader : GrammarLoader) (files : FileTree) (name other : String) :
    (loader.get files name).2.grammars.lookup other =
      if other = name then loader.found? files name else loader.grammars.lookup other := by
  unfold GrammarLoader.get found?
  by_cases hname : other = name
  · subst hname
    rw [if_pos rfl]
    cases hlookup : loader.grammars.lookup other with
    | some loaded => exact hlookup
    | none =>
      cases loader.seek? files other with
      | some loaded => exact List.lookup_cons_self
      | none => exact hlookup
  · rw [if_neg hname]
    split
    · rfl
    · split
      · rw [List.lookup_cons, beq_false_of_ne hname]
      · rfl

/-- `get` leaves the search paths alone. -/
@[simp] theorem searchPaths_get (loader : GrammarLoader) (files : FileTree) (name : String) :
    (loader.get files name).2.searchPaths = loader.searchPaths := by
  unfold GrammarLoader.get
  split
  · rfl
  · split <;> rfl

/-- `get` leaves the query files alone. -/
@[simp] theorem queries_get (loader : GrammarLoader) (files : FileTree) (name : String) :
    (loader.get files name).2.queries = loader.queries := by
  unfold GrammarLoader.get
  split
  · rfl
  · split <;> rfl

/-- `query` gives what the loader has. -/
theorem query_fst (loader : GrammarLoader) (files : FileTree) (name kind : String) :
    (loader.query files name kind).1 = loader.foundQuery? files name kind := by
  unfold GrammarLoader.query foundQuery?
  cases loader.queries.lookup (name, kind) with
  | some text => rfl
  | none => cases loader.seekQuery? files name kind <;> rfl

/-- What `query` leaves remembered: what it gave, and what was remembered of other
files. -/
theorem lookup_query (loader : GrammarLoader) (files : FileTree) (name kind : String)
    (other : String × String) :
    (loader.query files name kind).2.queries.lookup other =
      if other = (name, kind) then loader.foundQuery? files name kind
      else loader.queries.lookup other := by
  unfold GrammarLoader.query foundQuery?
  by_cases hkey : other = (name, kind)
  · subst hkey
    rw [if_pos rfl]
    cases hlookup : loader.queries.lookup (name, kind) with
    | some text => exact hlookup
    | none =>
      cases loader.seekQuery? files name kind with
      | some text => exact List.lookup_cons_self
      | none => exact hlookup
  · rw [if_neg hkey]
    split
    · rfl
    · split
      · rw [List.lookup_cons, beq_false_of_ne hkey]
      · rfl

/-- `query` leaves the search paths alone. -/
@[simp] theorem searchPaths_query (loader : GrammarLoader) (files : FileTree)
    (name kind : String) :
    (loader.query files name kind).2.searchPaths = loader.searchPaths := by
  unfold GrammarLoader.query
  split
  · rfl
  · split <;> rfl

/-- `query` leaves the grammars alone. -/
@[simp] theorem grammars_query (loader : GrammarLoader) (files : FileTree)
    (name kind : String) :
    (loader.query files name kind).2.grammars = loader.grammars := by
  unfold GrammarLoader.query
  split
  · rfl
  · split <;> rfl

/-- **Asking for one grammar does not change what there is for any other** (`found?`), as
long as the files stay. -/
theorem found?_get (loader : GrammarLoader) (files : FileTree) (name other : String) :
    (loader.get files name).2.found? files other = loader.found? files other := by
  have hseek : (loader.get files name).2.seek? files other = loader.seek? files other := by
    rw [seek?, searchPaths_get, seek?]
  rw [found?, lookup_get, hseek]
  split
  next heq =>
    rw [heq, found?, Option.or_assoc, Option.or_self]
  next => rfl

/-! ### Runs -/

/-- Something that is asked of a loader, or done to it. -/
inductive Request where
  | get (name : String)
  | loadedPath (name : String)
  | query (name kind : String)
  | addPath (path : Path)

/-- What a loader replies. -/
inductive Reply where
  | grammar (found : Option Grammar)
  | path (found : Option Path)
  | text (found : Option String)
  /-- A search path was added. -/
  | added

/-- The reply to a request while there are some files, and the loader afterwards. -/
def serve (loader : GrammarLoader) (files : FileTree) : Request → Reply × GrammarLoader
  | .get name =>
    let (found, loader) := loader.get files name
    (.grammar found, loader)
  | .loadedPath name => (.path (loader.loadedPath? name), loader)
  | .query name kind =>
    let (found, loader) := loader.query files name kind
    (.text found, loader)
  | .addPath path => (.added, loader.addPath path)

/-- Requests one after the other, each with the files that there are at the time: what was
replied to them, and the loader afterwards. -/
def serveAll :
    List (FileTree × Request) → GrammarLoader → List (Request × Reply) × GrammarLoader
  | [], loader => ([], loader)
  | (files, request) :: requests, loader =>
    let (reply, loader) := loader.serve files request
    let (past, loader) := serveAll requests loader
    ((request, reply) :: past, loader)

/-- The search path that a request adds. -/
def Request.added? : Request → Option Path
  | .addPath path => some path
  | _ => none

/-- A loader was asked for a grammar, and gave it. -/
def Gave (past : List (Request × Reply)) (name : String) (grammar : Grammar) : Prop :=
  (.get name, .grammar (some grammar)) ∈ past

/-- A loader was asked for a query file, and gave its text. -/
def GaveText (past : List (Request × Reply)) (name kind text : String) : Prop :=
  (.query name kind, .text (some text)) ∈ past

/-- What a loader remembers is what it has given. -/
structure Recalls (past : List (Request × Reply)) (loader : GrammarLoader) : Prop where
  grammar_iff : ∀ name grammar,
    (loader.grammars.lookup name).map (·.grammar) = some grammar ↔ Gave past name grammar
  text_iff : ∀ name kind text, loader.queries.lookup (name, kind) = some text ↔
    GaveText past name kind text

variable {past : List (Request × Reply)}

/-- A loader without memory has given nothing. -/
theorem recalls_new (dirs : List Path) : Recalls [] { searchPaths := dirs } :=
  ⟨fun _ _ => ⟨fun h => absurd h (Option.some_ne_none _).symm,
    fun h => absurd h List.not_mem_nil⟩,
    fun _ _ _ => ⟨fun h => absurd h (Option.some_ne_none _).symm,
      fun h => absurd h List.not_mem_nil⟩⟩

/-- What was given (`Gave`) after one more reply. -/
theorem gave_snoc_iff {entry : Request × Reply} {name : String} {grammar : Grammar} :
    Gave (past ++ [entry]) name grammar ↔
      Gave past name grammar ∨ entry = (.get name, .grammar (some grammar)) := by
  unfold Gave
  rw [List.mem_append, List.mem_singleton, eq_comm (a := entry)]

/-- Which texts were given (`GaveText`) after one more reply. -/
theorem gaveText_snoc_iff {entry : Request × Reply} {name kind text : String} :
    GaveText (past ++ [entry]) name kind text ↔
      GaveText past name kind text ∨ entry = (.query name kind, .text (some text)) := by
  unfold GaveText
  rw [List.mem_append, List.mem_singleton, eq_comm (a := entry)]

/-- A grammar that is asked for is remembered exactly if it is given, now or before. -/
theorem Recalls.get (h : Recalls past loader) (files : FileTree) (name : String) :
    Recalls (past ++ [(.get name, .grammar (loader.get files name).1)])
      (loader.get files name).2 := by
  refine ⟨fun other grammar => ?_, fun other kind text => ?_⟩
  · rw [gave_snoc_iff, lookup_get, ← h.grammar_iff, get_fst]
    by_cases hname : other = name
    · subst hname
      rw [if_pos rfl]
      constructor
      · intro hfound
        rw [hfound]
        exact Or.inr rfl
      · rintro (hremembered | hreply)
        · obtain ⟨loaded, hlookup, rfl⟩ := Option.map_eq_some_iff.1 hremembered
          rw [found?, hlookup, Option.some_or, Option.map_some]
        · exact Reply.grammar.inj (Prod.mk.inj hreply).2
    · rw [if_neg hname]
      refine ⟨Or.inl, fun hor => hor.resolve_right fun hreply => hname ?_⟩
      exact (Request.get.inj (Prod.mk.inj hreply).1).symm
  · rw [gaveText_snoc_iff, queries_get, h.text_iff]
    refine ⟨Or.inl, fun hor => hor.resolve_right fun hreply => ?_⟩
    cases (Prod.mk.inj hreply).1

/-- A query file that is asked for is remembered exactly if it is given, now or before. -/
theorem Recalls.query (h : Recalls past loader) (files : FileTree) (name kind : String) :
    Recalls (past ++ [(.query name kind, .text (loader.query files name kind).1)])
      (loader.query files name kind).2 := by
  refine ⟨fun other grammar => ?_, fun other kind' text => ?_⟩
  · rw [gave_snoc_iff, grammars_query, h.grammar_iff]
    refine ⟨Or.inl, fun hor => hor.resolve_right fun hreply => ?_⟩
    cases (Prod.mk.inj hreply).1
  · rw [gaveText_snoc_iff, lookup_query, ← h.text_iff, query_fst]
    by_cases hkey : (other, kind') = (name, kind)
    · obtain ⟨rfl, rfl⟩ := Prod.mk.inj hkey
      rw [if_pos rfl]
      constructor
      · intro hfound
        rw [hfound]
        exact Or.inr rfl
      · rintro (hremembered | hreply)
        · rw [foundQuery?, hremembered, Option.some_or]
        · exact Reply.text.inj (Prod.mk.inj hreply).2
    · rw [if_neg hkey]
      refine ⟨Or.inl, fun hor => hor.resolve_right fun hreply => hkey ?_⟩
      obtain ⟨rfl, rfl⟩ := Request.query.inj (Prod.mk.inj hreply).1
      rfl

/-- A reply that gives neither a grammar nor a text, from a loader that remembers the same. -/
theorem Recalls.of_same (h : Recalls past loader) {loader' : GrammarLoader}
    {entry : Request × Reply} (hgrammars : loader'.grammars = loader.grammars)
    (hqueries : loader'.queries = loader.queries)
    (hget : ∀ name grammar, entry ≠ (.get name, .grammar (some grammar)))
    (hquery : ∀ name kind text, entry ≠ (.query name kind, .text (some text))) :
    Recalls (past ++ [entry]) loader' := by
  refine ⟨fun name grammar => ?_, fun name kind text => ?_⟩
  · rw [gave_snoc_iff, hgrammars, h.grammar_iff]
    exact ⟨Or.inl, fun hor => hor.resolve_right (hget name grammar)⟩
  · rw [gaveText_snoc_iff, hqueries, h.text_iff]
    exact ⟨Or.inl, fun hor => hor.resolve_right (hquery name kind text)⟩

/-- **Every request keeps the invariant** `Recalls`. -/
theorem Recalls.serve (h : Recalls past loader) (files : FileTree) (request : Request) :
    Recalls (past ++ [(request, (loader.serve files request).1)])
      (loader.serve files request).2 := by
  cases request with
  | get name => exact h.get files name
  | query name kind => exact h.query files name kind
  | loadedPath name =>
    refine h.of_same rfl rfl (fun other grammar heq => ?_) (fun other kind text heq => ?_)
    · cases (Prod.mk.inj heq).1
    · cases (Prod.mk.inj heq).1
  | addPath path =>
    refine h.of_same rfl rfl (fun other grammar heq => ?_) (fun other kind text heq => ?_)
    · cases (Prod.mk.inj heq).1
    · cases (Prod.mk.inj heq).1

/-- A run extends what was replied before, and keeps `Recalls`. -/
theorem Recalls.serveAll (h : Recalls past loader) (requests : List (FileTree × Request)) :
    Recalls (past ++ (serveAll requests loader).1)
      (GrammarLoader.serveAll requests loader).2 := by
  induction requests generalizing past loader with
  | nil =>
    rw [GrammarLoader.serveAll, List.append_nil]
    exact h
  | cons entry requests ih =>
    obtain ⟨files, request⟩ := entry
    have hrest := ih (h.serve files request)
    rw [List.append_assoc] at hrest
    exact hrest

/-- **At each point of a run, a loader remembers what it has given**: it `Recalls` its
replies. -/
theorem recalls_serveAll (dirs : List Path) (requests : List (FileTree × Request)) :
    Recalls (serveAll requests { searchPaths := dirs }).1
      (serveAll requests { searchPaths := dirs }).2 :=
  (recalls_new dirs).serveAll requests

/-- A request adds at most one search path, behind the others. -/
theorem searchPaths_serve (loader : GrammarLoader) (files : FileTree) (request : Request) :
    (loader.serve files request).2.searchPaths =
      loader.searchPaths ++ request.added?.toList := by
  cases request with
  | get name => exact (loader.searchPaths_get files name).trans (List.append_nil _).symm
  | loadedPath name => exact (List.append_nil _).symm
  | query name kind =>
    exact (loader.searchPaths_query files name kind).trans (List.append_nil _).symm
  | addPath path => rfl

/-- The search paths are those at the start and then those that were added. -/
theorem searchPaths_serveAll (requests : List (FileTree × Request)) (loader : GrammarLoader) :
    (serveAll requests loader).2.searchPaths =
      loader.searchPaths ++ requests.filterMap (·.2.added?) := by
  induction requests generalizing loader with
  | nil => exact (List.append_nil _).symm
  | cons entry requests ih =>
    obtain ⟨files, request⟩ := entry
    have hrest := ih (loader.serve files request).2
    rw [searchPaths_serve, List.append_assoc] at hrest
    refine hrest.trans (congrArg (loader.searchPaths ++ ·) ?_)
    rw [List.filterMap_cons]
    cases request.added? <;> rfl

/-- All grammars that one loader remembers are remembered by another, with their paths. -/
def Keeps (loader loader' : GrammarLoader) : Prop :=
  ∀ name loaded, loader.grammars.lookup name = some loaded →
    loader'.grammars.lookup name = some loaded

/-- `get` takes back no grammar. -/
theorem keeps_get (loader : GrammarLoader) (files : FileTree) (name : String) :
    loader.Keeps (loader.get files name).2 := by
  intro other loaded hlookup
  rw [lookup_get]
  split
  next heq =>
    rw [← heq, found?, hlookup, Option.some_or]
  next => exact hlookup

/-- No request takes back a grammar. -/
theorem keeps_serve (loader : GrammarLoader) (files : FileTree) (request : Request) :
    loader.Keeps (loader.serve files request).2 := by
  cases request with
  | get name => exact loader.keeps_get files name
  | query name kind =>
    intro other loaded hlookup
    exact (congrArg (List.lookup other) (loader.grammars_query files name kind)).trans hlookup
  | loadedPath name => exact fun _ _ hlookup => hlookup
  | addPath path => exact fun _ _ hlookup => hlookup

/-- **What is remembered stays**, whatever is asked and whatever happens to the files
(`Keeps`). -/
theorem keeps_serveAll (requests : List (FileTree × Request)) (loader : GrammarLoader) :
    loader.Keeps (serveAll requests loader).2 := by
  induction requests generalizing loader with
  | nil => exact fun _ _ hlookup => hlookup
  | cons entry requests ih =>
    obtain ⟨files, request⟩ := entry
    exact fun name loaded hlookup => ih _ name loaded
      (loader.keeps_serve files request name loaded hlookup)

/-- A grammar that is remembered is given by `get`, and its path by `loadedPath?`. -/
theorem get_of_lookup {name : String} {loaded : LoadedGrammar}
    (h : loader.grammars.lookup name = some loaded) (files : FileTree) :
    (loader.get files name).1 = some loaded.grammar ∧
    loader.loadedPath? name = some loaded.path := by
  rw [get_fst, found?, loadedPath?, h]
  exact ⟨rfl, rfl⟩

/-- A loader remembers no grammar of a name exactly if it never gave one. -/
theorem Recalls.lookup_eq_none_iff (h : Recalls past loader) (name : String) :
    loader.grammars.lookup name = none ↔ ∀ grammar, ¬ Gave past name grammar := by
  rw [← Option.map_eq_none_iff (f := LoadedGrammar.grammar), Option.eq_none_iff_forall_ne_some]
  exact forall_congr' fun grammar => not_congr (h.grammar_iff name grammar)

/-- A loader remembers no text of a query file exactly if it never gave one. -/
theorem Recalls.lookupText_eq_none_iff (h : Recalls past loader) (name kind : String) :
    loader.queries.lookup (name, kind) = none ↔ ∀ text, ¬ GaveText past name kind text := by
  rw [Option.eq_none_iff_forall_ne_some]
  exact forall_congr' fun text => not_congr (h.text_iff name kind text)

/-- What a loader gives that has not given the grammar before, and for ever after. -/
theorem get_of_not_gave (h : Recalls past loader) {name : String}
    (hnever : ∀ grammar, ¬ Gave past name grammar) {grammar : Grammar}
    (hget : (loader.get files name).1 = some grammar) :
    ∃ dir, IsFirst (fun dir => ∃ grammar, Offers files name dir grammar)
      loader.searchPaths dir ∧
      Offers files name dir grammar ∧ ∀ later files',
        let loader' := (serveAll later (loader.get files name).2).2
        loader'.loadedPath? name = some (dir.joinString (name ++ ".so")) ∧
          (loader'.get files' name).1 = some grammar := by
  have hlookup : loader.grammars.lookup name = none := (h.lookup_eq_none_iff name).2 hnever
  rw [get_fst] at hget
  obtain ⟨loaded, hfound, rfl⟩ := Option.map_eq_some_iff.1 hget
  have hseek := hfound
  rw [found?, hlookup, Option.none_or] at hseek
  obtain ⟨dir, hfirst, hoffers, hpath⟩ := seek?_eq_some_iff.1 hseek
  have hremembered : (loader.get files name).2.grammars.lookup name = some loaded := by
    rw [lookup_get, if_pos rfl, hfound]
  refine ⟨dir, hfirst, hoffers, fun later files' => ?_⟩
  obtain ⟨hagain, hloaded⟩ :=
    get_of_lookup (keeps_serveAll later _ name loaded hremembered) files'
  rw [hpath] at hloaded
  exact ⟨hloaded, hagain⟩

/-- **The answers of a loader stay, and earlier paths win.** After any requests to a new
loader, with any files at each of them and any files now:

* The search paths are those at the start and then those that were added.
* There is no text of a query file exactly if none was given before and no search path
  holds a readable one. The first text is that of the earliest search path that holds one,
  and a text that was given once is given again.
* There is no grammar exactly if none was given before and no search path holds a library
  that exports its symbol. The first grammar is that of the earliest search path that
  holds one. It has no path before, and has that path for ever after, and the grammar is
  given again for ever. -/
theorem loader_answers_sticky (dirs : List Path) (requests : List (FileTree × Request))
    (files : FileTree) :
    let past := (serveAll requests { searchPaths := dirs }).1
    let loader := (serveAll requests { searchPaths := dirs }).2
    loader.searchPaths = dirs ++ requests.filterMap (·.2.added?) ∧
    (∀ name kind,
      ((loader.query files name kind).1 = none ↔
        (∀ text, ¬ GaveText past name kind text) ∧
          ∀ dir ∈ loader.searchPaths, ∀ text, ¬ OffersText files name kind dir text) ∧
      ((∀ text, ¬ GaveText past name kind text) →
        ∀ text, (loader.query files name kind).1 = some text →
        ∃ dir, IsFirst (fun dir => ∃ text, OffersText files name kind dir text)
          loader.searchPaths dir ∧
          OffersText files name kind dir text) ∧
      ∀ text, GaveText past name kind text → (loader.query files name kind).1 = some text) ∧
    ∀ name,
      ((loader.get files name).1 = none ↔
        (∀ grammar, ¬ Gave past name grammar) ∧
          ∀ dir ∈ loader.searchPaths, ∀ grammar, ¬ Offers files name dir grammar) ∧
      (loader.loadedPath? name = none ↔ ∀ grammar, ¬ Gave past name grammar) ∧
      ((∀ grammar, ¬ Gave past name grammar) →
        ∀ grammar, (loader.get files name).1 = some grammar →
        ∃ dir, IsFirst (fun dir => ∃ grammar, Offers files name dir grammar)
          loader.searchPaths dir ∧
          Offers files name dir grammar ∧ ∀ later files',
            let loader' := (serveAll later (loader.get files name).2).2
            loader'.loadedPath? name = some (dir.joinString (name ++ ".so")) ∧
              (loader'.get files' name).1 = some grammar) ∧
      ∀ grammar, Gave past name grammar → (loader.get files name).1 = some grammar := by
  intro past loader
  have hrecalls : Recalls past loader := recalls_serveAll dirs requests
  refine ⟨searchPaths_serveAll requests _, fun name kind =>
    ⟨?_, fun hnever text hquery => ?_, fun text hgave => ?_⟩,
    fun name => ⟨?_, ?_, fun hnever grammar hget => ?_, fun grammar hgave => ?_⟩⟩
  · rw [query_fst, foundQuery?, Option.or_eq_none_iff, hrecalls.lookupText_eq_none_iff,
      seekQuery?_eq_none_iff]
  · rw [query_fst, foundQuery?, (hrecalls.lookupText_eq_none_iff name kind).2 hnever,
      Option.none_or] at hquery
    exact seekQuery?_eq_some_iff.1 hquery
  · rw [query_fst, foundQuery?, (hrecalls.text_iff name kind text).2 hgave, Option.some_or]
  · rw [get_fst, Option.map_eq_none_iff, found?, Option.or_eq_none_iff,
      hrecalls.lookup_eq_none_iff, seek?_eq_none_iff]
  · rw [loadedPath?, Option.map_eq_none_iff, hrecalls.lookup_eq_none_iff]
  · exact get_of_not_gave hrecalls hnever hget
  · obtain ⟨loaded, hlookup, rfl⟩ :=
      Option.map_eq_some_iff.1 ((hrecalls.grammar_iff name grammar).2 hgave)
    exact (get_of_lookup hlookup files).1

end GrammarLoader

end SourceOutline
