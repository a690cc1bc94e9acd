import SourceOutline.Proofs.Constancy

/-!
# The Steps of a Task

The analysis of a file takes several steps: the file is opened, its content parsed, and
one category asked after the other. Even the query of a category takes several steps: it
is looked up, built if it was not found, and remembered. `FileTask.step` is one such step.
Between any two of them others may use the same analyzer; they may settle languages, load
grammars, remember queries, also the one that is being built, and use up numbers of trees.

What a task would come to if it were left alone from now on, `FileTask.finish`, is the
same before and after its own steps, and after steps of others but for the number of the
tree.

## Main results

* `FileTask.finish_step`: a step of a task leaves what it comes to.
* `FileTask.rank_step`: every step brings a task nearer to its end.
* `FileTask.Coherent.step`: a step of a task leaves an analyzer that concurs.
* `FileTask.finish_fst_congr`: what others do leaves what a task comes to, but for the
  number of the tree.
-/

namespace SourceOutline

variable {Q : Type}

/-- What a category gives, by the outcome of asking for its query. -/
def QueryHandler.foundWith (handler : QueryHandler Q) (host : Host Q) (t : SyntaxTree)
    (category : Category) (outcome : Except QueryError Q) :
    Except QueryError CategoryMatches :=
  outcome.bind fun query =>
    (execute host category t query t.rootHandle (handler.settingsFor category)).bind
      fun result => .ok { category, groups := Query.groupCaptures result.captures, result }

/-- Remembers a query. -/
def Analyzer.remember (a : Analyzer Q) (language : Language) (text : String) (query : Q) :
    Analyzer Q :=
  { a with
    handler := { a.handler with compiled := ((language, text), query) :: a.handler.compiled } }

/-- An analysis of a tree that is under way. -/
structure Inquiry where
  tree : SyntaxTree
  /-- The categories that are left. -/
  categories : List Category
  /-- What the categories before them gave. -/
  founds : List (Option CategoryMatches)
  log : RunLog

/-- How far the analysis of a file has got. -/
inductive FileTask (Q : Type) where
  | opening (path : Path)
  | parsing (content : Bytes) (language : Language)
  | asking (inquiry : Inquiry)
  /-- The query of a category was not remembered. -/
  | building (inquiry : Inquiry) (category : Category) (text : String)
  /-- The query of a category is built, but not remembered yet. -/
  | remembering (inquiry : Inquiry) (category : Category) (text : String) (query : Q)
  | finished (outcome : Except AnalyzerError Outline)

namespace Inquiry

/-- The inquiry after a category. -/
def add (inquiry : Inquiry) (found : Option CategoryMatches) (log : RunLog) : Inquiry :=
  { inquiry with founds := inquiry.founds ++ [found], log }

/-- Goes on with what a category gave. -/
def note (inquiry : Inquiry) (strict : Bool) (category : Category)
    (outcome : Except QueryError CategoryMatches) : FileTask Q :=
  match inquiry.log.record strict category outcome with
  | .error e => .finished (.error (.query e))
  | .ok (found, log) => .asking (inquiry.add found log)

/-- The outcome, by what the categories that are left give. -/
def conclude (inquiry : Inquiry) :
    Except QueryError (List (Option CategoryMatches) × RunLog) → Except AnalyzerError Outline
  | .error e => .error (.query e)
  | .ok (others, log) =>
    match Outline.assemble inquiry.tree
      (Outline.findingsOf (inquiry.founds ++ others) log) with
    | .ok outline => .ok outline
    | .error e => .error (.query (.traversal e))

/-- What an inquiry comes to if it is left alone. -/
def finish (host : Host Q) (a : Analyzer Q) (inquiry : Inquiry) :
    Except AnalyzerError Outline × Analyzer Q :=
  let (outcome, handler) :=
    QueryHandler.runCategories host inquiry.tree a.strict inquiry.categories a.handler
      inquiry.log
  (inquiry.conclude outcome, { a with handler })

/-- What an inquiry comes to with what a category gave. -/
def finishNoted (host : Host Q) (a : Analyzer Q) (inquiry : Inquiry) (category : Category)
    (outcome : Except QueryError CategoryMatches) :
    Except AnalyzerError Outline × Analyzer Q :=
  match inquiry.log.record a.strict category outcome with
  | .error e => (.error (.query e), a)
  | .ok (found, log) => (inquiry.add found log).finish host a

end Inquiry

namespace FileTask

/-- One step of a task. -/
def step (host : Host Q) (a : Analyzer Q) : FileTask Q → FileTask Q × Analyzer Q
  | .opening path =>
    match host.files.readBytes path with
    | .error e => (.finished (.error (.unreadable path e)), a)
    | .ok content => (.parsing content (Analyzer.languageOfFile path content), a)
  | .parsing content language =>
    match a.parse host content language with
    | (.error e, a) => (.finished (.ok (Outline.unparsed language e.message)), a)
    | (.ok t, a) =>
      (.asking { tree := t, categories := analyzedCategories, founds := [], log := {} }, a)
  | .asking ⟨t, [], founds, log⟩ =>
    (.finished (Inquiry.conclude ⟨t, [], founds, log⟩ (.ok ([], log))), a)
  | .asking ⟨t, category :: categories, founds, log⟩ =>
    let inquiry : Inquiry := ⟨t, categories, founds, log⟩
    match a.handler.registry.patternFor category t.language with
    | none => (inquiry.note a.strict category (.error (.unsupported category t.language)), a)
    | some text =>
      match a.handler.compiled.lookup (t.language, text) with
      | some query =>
        (inquiry.note a.strict category (a.handler.foundWith host t category (.ok query)), a)
      | none => (.building inquiry category text, a)
  | .building inquiry category text =>
    match a.handler.build host inquiry.tree.language category text with
    | (.ok query, handler) => (.remembering inquiry category text query, { a with handler })
    | (.error e, handler) => (inquiry.note a.strict category (.error e), { a with handler })
  | .remembering inquiry category text query =>
    (inquiry.note a.strict category (a.handler.foundWith host inquiry.tree category
      (.ok query)), a.remember inquiry.tree.language text query)
  | .finished outcome => (.finished outcome, a)

/-- What a task comes to if it is left alone. -/
def finish (host : Host Q) (a : Analyzer Q) :
    FileTask Q → Except AnalyzerError Outline × Analyzer Q
  | .opening path => a.parseFile host path
  | .parsing content language => a.parseContent host content language
  | .asking inquiry => inquiry.finish host a
  | .building inquiry category text =>
    match a.handler.build host inquiry.tree.language category text with
    | (.ok query, handler) =>
      inquiry.finishNoted host
        (Analyzer.remember { a with handler } inquiry.tree.language text query) category
        (handler.foundWith host inquiry.tree category (.ok query))
    | (.error e, handler) => inquiry.finishNoted host { a with handler } category (.error e)
  | .remembering inquiry category text query =>
    inquiry.finishNoted host (a.remember inquiry.tree.language text query) category
      (a.handler.foundWith host inquiry.tree category (.ok query))
  | .finished outcome => (outcome, a)

/-- How many steps it takes at most to analyze a file: up to three for each category, and
three more. -/
def turns : Nat := 15

/-- How many steps a task takes at most. -/
def rank : FileTask Q → Nat
  | .opening _ => turns
  | .parsing _ _ => 14
  | .asking inquiry => 3 * inquiry.categories.length + 1
  | .building inquiry _ _ => 3 * inquiry.categories.length + 3
  | .remembering inquiry _ _ _ => 3 * inquiry.categories.length + 2
  | .finished _ => 0

/-- A query that is about to be remembered is what its text compiles to. -/
def Coherent (engine : Engine Q) (a : Analyzer Q) : FileTask Q → Prop
  | .remembering inquiry _ text query =>
    ∃ binding, a.handler.service.Settled inquiry.tree.language (.ok binding) ∧
      engine.compile inquiry.tree.language binding.grammar text = .ok query
  | _ => True

end FileTask

/-! ### The steps of a task -/

variable {host : Host Q} {a b c : Analyzer Q}

namespace Inquiry

/-- A noted inquiry comes to what `finishNoted` says. -/
theorem finish_note (inquiry : Inquiry) (category : Category)
    (outcome : Except QueryError CategoryMatches) :
    (inquiry.note a.strict category outcome).finish host a =
      inquiry.finishNoted host a category outcome := by
  unfold note finishNoted
  rcases inquiry.log.record a.strict category outcome with e | ⟨found, log⟩
  · rfl
  · rfl

/-- `finish` asks the first category of an inquiry and goes on with what that gave. -/
theorem finish_cons (t : SyntaxTree) (category : Category) (categories : List Category)
    (founds : List (Option CategoryMatches)) (log : RunLog) :
    finish host a ⟨t, category :: categories, founds, log⟩ =
      finishNoted host
        { a with handler := (a.handler.findCategory host t t.rootHandle category).2 }
        ⟨t, categories, founds, log⟩ category
        (a.handler.findCategory host t t.rootHandle category).1 := by
  unfold finish finishNoted
  rw [QueryHandler.runCategories]
  dsimp only
  rcases log.record a.strict category
    (a.handler.findCategory host t t.rootHandle category).1 with
    e | ⟨found, log'⟩
  · rfl
  · dsimp only [add, finish]
    rcases QueryHandler.runCategories host t a.strict categories
      (a.handler.findCategory host t t.rootHandle category).2
      log' with
      ⟨e | ⟨others, log''⟩, last⟩
    · rfl
    · dsimp only [conclude]
      rw [List.append_assoc, List.singleton_append]

/-- What is noted takes at most the turns of the categories that are left. -/
theorem rank_note (inquiry : Inquiry) (strict : Bool) (category : Category)
    (outcome : Except QueryError CategoryMatches) :
    (inquiry.note (Q := Q) strict category outcome).rank ≤
      3 * inquiry.categories.length + 1 := by
  unfold note
  rcases inquiry.log.record strict category outcome with e | ⟨found, log⟩
  · exact Nat.zero_le _
  · exact Nat.le_refl _

/-- What is noted has no query to remember. -/
theorem coherent_note (inquiry : Inquiry) (strict : Bool) (category : Category)
    (outcome : Except QueryError CategoryMatches) :
    (inquiry.note strict category outcome).Coherent host.engine a := by
  unfold note
  rcases inquiry.log.record strict category outcome with e | ⟨found, log⟩
  · trivial
  · trivial

end Inquiry

namespace FileTask

/-- What asking a category takes: its pattern is found, then its query, which may have to
be built. -/
theorem step_asking_cases (host : Host Q) (a : Analyzer Q) (t : SyntaxTree)
    (category : Category) (categories : List Category)
    (founds : List (Option CategoryMatches)) (log : RunLog) :
    (step host a (.asking ⟨t, category :: categories, founds, log⟩) =
      (Inquiry.note ⟨t, categories, founds, log⟩ a.strict category
        (a.handler.findCategory host t t.rootHandle category).1, a) ∧
      (a.handler.findCategory host t t.rootHandle category).2 = a.handler) ∨
    ∃ text, a.handler.registry.patternFor category t.language = some text ∧
      a.handler.compiled.lookup (t.language, text) = none ∧
      step host a (.asking ⟨t, category :: categories, founds, log⟩) =
        (.building ⟨t, categories, founds, log⟩ category text, a) := by
  rw [step]
  cases hpattern : a.handler.registry.patternFor category t.language with
  | none =>
    rw [QueryHandler.findCategory_of_none hpattern]
    exact Or.inl ⟨rfl, rfl⟩
  | some text =>
    dsimp only
    cases hlookup : a.handler.compiled.lookup (t.language, text) with
    | some query =>
      have hcompile : a.handler.compile host t.language category text =
          (.ok query, a.handler) := by
        rw [QueryHandler.compile, hlookup]
      rw [QueryHandler.findCategory_of_pattern hpattern, hcompile]
      exact Or.inl ⟨rfl, rfl⟩
    | none => exact Or.inr ⟨text, rfl, hlookup, rfl⟩

/-- **A step of a task leaves what it comes to**: `finish` does not change with `step`. -/
theorem finish_step (host : Host Q) (a : Analyzer Q) (task : FileTask Q) :
    (task.step host a).1.finish host (task.step host a).2 = task.finish host a := by
  cases task with
  | opening path =>
    rw [step, finish, Analyzer.parseFile]
    cases host.files.readBytes path with
    | error e => rfl
    | ok content => rfl
  | parsing content language =>
    rw [step, finish, Analyzer.parseContent]
    rcases a.parse host content language with ⟨e | t, a'⟩
    · rfl
    · dsimp only [finish, Inquiry.finish, Outline.analyze]
      rcases QueryHandler.runCategories host t a'.strict analyzedCategories a'.handler {} with
        ⟨e | ⟨founds, log⟩, handler⟩
      · rfl
      · dsimp only [Inquiry.conclude, List.nil_append]
        cases Outline.assemble t (Outline.findingsOf founds log) with
        | ok outline => rfl
        | error e => rfl
  | asking inquiry =>
    obtain ⟨t, categories, founds, log⟩ := inquiry
    cases categories with
    | nil => rfl
    | cons category categories =>
      rw [finish, Inquiry.finish_cons]
      rcases step_asking_cases host a t category categories founds log with
        ⟨hstep, hsame⟩ | ⟨text, hpattern, hlookup, hstep⟩
      · rw [hstep, hsame, Inquiry.finish_note]
      · rw [hstep, QueryHandler.findCategory_of_pattern hpattern, QueryHandler.compile,
          hlookup]
        have hbuilt := a.handler.build_snd host t.language category text
        dsimp only [finish]
        rcases hbuild : a.handler.build host t.language category text with ⟨e | query, handler⟩
        · rfl
        · -- building has left the limits alone
          rw [hbuild] at hbuilt
          obtain rfl : handler = _ := hbuilt
          rfl
  | building inquiry category text =>
    rw [step, finish]
    rcases a.handler.build host inquiry.tree.language category text with ⟨e | query, handler⟩
    · exact Inquiry.finish_note (a := { a with handler }) inquiry category _
    · rfl
  | remembering inquiry category text query =>
    exact Inquiry.finish_note (a := a.remember inquiry.tree.language text query) inquiry
      category _
  | finished outcome => rfl

/-- Every `step` brings a task nearer to its end, by `rank`. -/
theorem rank_step (host : Host Q) (a : Analyzer Q) (task : FileTask Q) :
    (task.step host a).1.rank ≤ task.rank - 1 := by
  cases task with
  | opening path =>
    rw [step]
    cases host.files.readBytes path with
    | error e => exact Nat.zero_le _
    | ok content => exact Nat.le_refl _
  | parsing content language =>
    rw [step]
    rcases a.parse host content language with ⟨e | t, a'⟩
    · exact Nat.zero_le _
    · exact Nat.le_refl _
  | asking inquiry =>
    obtain ⟨t, categories, founds, log⟩ := inquiry
    cases categories with
    | nil => exact Nat.zero_le _
    | cons category categories =>
      rcases step_asking_cases host a t category categories founds log with
        ⟨hstep, -⟩ | ⟨text, -, -, hstep⟩
      · have hnote := Inquiry.rank_note (Q := Q) ⟨t, categories, founds, log⟩ a.strict category
          (a.handler.findCategory host t t.rootHandle category).1
        rw [hstep]
        simp only [rank, List.length_cons] at hnote ⊢
        omega
      · rw [hstep]
        simp only [rank, List.length_cons]
        omega
  | building inquiry category text =>
    rw [step]
    rcases a.handler.build host inquiry.tree.language category text with ⟨e | query, handler⟩
    · have hnote := inquiry.rank_note (Q := Q) a.strict category (.error e)
      simp only [rank] at hnote ⊢
      omega
    · exact Nat.le_refl _
  | remembering inquiry category text query =>
    exact inquiry.rank_note a.strict category _
  | finished outcome => exact Nat.zero_le _

/-- What others do leaves a task coherent. -/
theorem Coherent.mono {task : FileTask Q} (hcoherent : task.Coherent host.engine a)
    (h : a.Concurs host.engine host.files b) :
    task.Coherent host.engine b := by
  cases task with
  | remembering inquiry category text query =>
    obtain ⟨binding, hsettled, hrest⟩ := hcoherent
    exact ⟨binding, h.handler.keeps _ _ hsettled, hrest⟩
  | opening => trivial
  | parsing => trivial
  | asking => trivial
  | building => trivial
  | finished => trivial

/-- `build` leaves an analyzer that concurs. -/
theorem concurs_build (a : Analyzer Q) (host : Host Q) (language : Language)
    (category : Category) (text : String) :
    a.Concurs host.engine host.files
      { a with handler := (a.handler.build host language category text).2 } := by
  rw [QueryHandler.build_snd]
  exact ⟨a.handler.concurs_bind host language, rfl⟩

/-- So does `remember`, for a query that is what its text compiles to. -/
theorem Coherent.concurs_remember {inquiry : Inquiry} {category : Category} {text : String}
    {query : Q} (h : Coherent host.engine a (.remembering inquiry category text query)) :
    a.Concurs host.engine host.files (a.remember inquiry.tree.language text query) := by
  obtain ⟨binding, hsettled, hcompile⟩ := h
  exact ⟨⟨a.handler.uses_remember hsettled hcompile, fun _ => rfl⟩, rfl⟩

/-- A query that was built is what its text compiles to. -/
theorem coherent_of_build {inquiry : Inquiry} {category : Category} {text : String} {query : Q}
    (h : (a.handler.build host inquiry.tree.language category text).1 = .ok query) :
    Coherent host.engine
      { a with handler := (a.handler.build host inquiry.tree.language category text).2 }
      (.remembering inquiry category text query) := by
  obtain ⟨binding, hbind, hrest⟩ := QueryHandler.compile_of_build_eq_ok h
  refine ⟨binding, ?_, hrest⟩
  rw [QueryHandler.build_snd, ← hbind]
  exact a.handler.service.settled_bind host.files inquiry.tree.language

/-- **A step of a task leaves an analyzer that concurs** (`Concurs`), and a task that is
coherent. -/
theorem Coherent.step {task : FileTask Q} (host : Host Q) (h : task.Coherent host.engine a) :
    a.Concurs host.engine host.files (task.step host a).2 ∧
    (task.step host a).1.Coherent host.engine (task.step host a).2 := by
  cases task with
  | opening path =>
    rw [FileTask.step]
    cases host.files.readBytes path with
    | error e => exact ⟨.refl a, trivial⟩
    | ok content => exact ⟨.refl a, trivial⟩
  | parsing content language =>
    have hparse := a.concurs_parse host content language
    rw [FileTask.step]
    rcases hparsed : a.parse host content language with ⟨e | t, a'⟩
    · rw [hparsed] at hparse
      exact ⟨hparse, trivial⟩
    · rw [hparsed] at hparse
      exact ⟨hparse, trivial⟩
  | asking inquiry =>
    obtain ⟨t, categories, founds, log⟩ := inquiry
    cases categories with
    | nil => exact ⟨.refl a, trivial⟩
    | cons category categories =>
      rcases step_asking_cases host a t category categories founds log with
        ⟨hstep, -⟩ | ⟨text, -, -, hstep⟩
      · rw [hstep]
        exact ⟨.refl a, Inquiry.coherent_note ..⟩
      · rw [hstep]
        exact ⟨.refl a, trivial⟩
  | building inquiry category text =>
    have hconcurs := concurs_build a host inquiry.tree.language category text
    rw [FileTask.step]
    rcases hbuild : a.handler.build host inquiry.tree.language category text with
      ⟨e | query, handler⟩
    · rw [hbuild] at hconcurs
      exact ⟨hconcurs, Inquiry.coherent_note ..⟩
    · have hcoherent : Coherent host.engine _ (.remembering inquiry category text query) :=
        coherent_of_build (congrArg Prod.fst hbuild)
      rw [hbuild] at hconcurs hcoherent
      exact ⟨hconcurs, hcoherent⟩
  | remembering inquiry category text query =>
    exact ⟨h.concurs_remember, Inquiry.coherent_note ..⟩
  | finished outcome => exact ⟨.refl a, trivial⟩

/-! ### Steps of others -/

end FileTask

namespace Inquiry

/-- What an inquiry comes to does not depend on what was asked before. -/
theorem finish_fst_congr (hsound : a.handler.Sound host.engine)
    (hb : a.Concurs host.engine host.files b) (hc : a.Concurs host.engine host.files c)
    (inquiry : Inquiry) : (inquiry.finish host b).1 = (inquiry.finish host c).1 := by
  have hrun {other : Analyzer Q} (h : a.Concurs host.engine host.files other) :
      (QueryHandler.runCategories host inquiry.tree other.strict inquiry.categories
        other.handler inquiry.log).1 =
        Basis.askAll a.strict
          (fun category =>
            (a.handler.findCategory host inquiry.tree inquiry.tree.rootHandle category).1)
          inquiry.categories inquiry.log := by
    rw [QueryHandler.runCategories_fst_eq_askAll (h.handler.sound hsound), h.strict_eq]
    simp only [h.handler.findCategory_fst hsound]
  unfold finish
  dsimp only
  rw [hrun hb, hrun hc]

/-- The same with what a category gave. -/
theorem finishNoted_fst_congr (hsound : a.handler.Sound host.engine)
    (hb : a.Concurs host.engine host.files b) (hc : a.Concurs host.engine host.files c)
    (inquiry : Inquiry) (category : Category) (outcome : Except QueryError CategoryMatches) :
    (inquiry.finishNoted host b category outcome).1 =
      (inquiry.finishNoted host c category outcome).1 := by
  unfold finishNoted
  rw [hb.strict_eq, hc.strict_eq]
  rcases inquiry.log.record a.strict category outcome with e | ⟨found, log⟩
  · rfl
  · exact finish_fst_congr hsound hb hc _

end Inquiry

/-- What a category gives for a query depends on the limits only. -/
theorem QueryHandler.Concurs.foundWith {handler handler' : QueryHandler Q}
    (h : handler.Concurs host.engine host.files handler') (t : SyntaxTree)
    (category : Category) (outcome : Except QueryError Q) :
    handler'.foundWith host t category outcome =
      handler.foundWith host t category outcome := by
  rw [QueryHandler.foundWith, h.settingsFor, QueryHandler.foundWith]

/-- The outcome of a file with its tree numbered `id`. -/
def outcomeAs (id : Nat) (outcome : Except AnalyzerError Outline) :
    Except AnalyzerError Outline :=
  outcome.map (Outline.renumber id)

/-- An outcome that is renumbered twice has the last number. -/
theorem outcomeAs_outcomeAs (id other : Nat) (outcome : Except AnalyzerError Outline) :
    outcomeAs id (outcome.map (Outline.renumber other)) = outcomeAs id outcome := by
  cases outcome with
  | error e => rfl
  | ok outline => exact congrArg Except.ok (outline.renumber_renumber other id)

/-- The number of the tree does not show in the form as data. -/
theorem toData_outcomeAs (id : Nat) (outcome : Except AnalyzerError Outline) :
    (outcomeAs id outcome).map Outline.toData = outcome.map Outline.toData := by
  cases outcome with
  | error e => rfl
  | ok outline => exact congrArg Except.ok (outline.toData_renumber id)

namespace FileTask

/-- What building a query and going on comes to, as one that knows the query would. -/
theorem finish_building_ok {inquiry : Inquiry} {category : Category} {text : String}
    {query : Q}
    (h : (a.handler.build host inquiry.tree.language category text).1 = .ok query) :
    ∃ built, a.Concurs host.engine host.files built ∧
      finish host a (.building inquiry category text) =
      inquiry.finishNoted host built category
        (a.handler.foundWith host inquiry.tree category (.ok query)) := by
  have hconcurs := concurs_build a host inquiry.tree.language category text
  have hremember := (coherent_of_build h).concurs_remember
  rw [finish]
  rcases hbuild : a.handler.build host inquiry.tree.language category text with
    ⟨e | query', handler⟩
  · rw [hbuild] at h
    cases h
  · rw [hbuild] at h hconcurs hremember
    cases h
    refine ⟨_, hconcurs.trans hremember, ?_⟩
    rw [← hconcurs.handler.foundWith]

/-- The same for a text that does not compile. -/
theorem finish_building_error {inquiry : Inquiry} {category : Category} {text : String}
    {e : QueryError}
    (h : (a.handler.build host inquiry.tree.language category text).1 = .error e) :
    ∃ built, a.Concurs host.engine host.files built ∧
      finish host a (.building inquiry category text) =
      inquiry.finishNoted host built category (.error e) := by
  have hconcurs := concurs_build a host inquiry.tree.language category text
  rw [finish]
  rcases hbuild : a.handler.build host inquiry.tree.language category text with
    ⟨e' | query, handler⟩
  · rw [hbuild] at h hconcurs
    cases h
    exact ⟨_, hconcurs, rfl⟩
  · rw [hbuild] at h
    cases h

/-- **What others do to the analyzer leaves what a task comes to**, but for the number of
the tree (`outcomeAs`). -/
theorem finish_fst_congr (hsound : a.handler.Sound host.engine)
    (h : a.Concurs host.engine host.files b) {task : FileTask Q}
    (hcoherent : task.Coherent host.engine a) (id : Nat) :
    outcomeAs id (task.finish host b).1 = outcomeAs id (task.finish host a).1 := by
  cases task with
  | opening path =>
    have hfile : (b.parseFile host path).1 =
        (a.parseFile host path).1.map (Outline.renumber b.nextTree) :=
      h.parseFile_fst hsound (.refl a.handler host.clocks) path
    rw [finish, finish, hfile, outcomeAs_outcomeAs]
  | parsing content language =>
    have hcontent : (b.parseContent host content language).1 =
        (a.parseContent host content language).1.map (Outline.renumber b.nextTree) :=
      h.parseContent_fst hsound (.refl a.handler host.clocks) content language
    rw [finish, finish, hcontent, outcomeAs_outcomeAs]
  | asking inquiry =>
    exact congrArg (outcomeAs id) (inquiry.finish_fst_congr hsound h (.refl a))
  | building inquiry category text =>
    have hbuild :=
      QueryHandler.build_fst_congr (h.handler.agrees inquiry.tree.language) category text
    cases hbuilt : (a.handler.build host inquiry.tree.language category text).1 with
    | error e =>
      obtain ⟨built, hconcurs, hfinish⟩ := finish_building_error hbuilt
      obtain ⟨built', hconcurs', hfinish'⟩ := finish_building_error (hbuild.trans hbuilt)
      rw [hfinish, hfinish', inquiry.finishNoted_fst_congr hsound (h.trans hconcurs') hconcurs]
    | ok query =>
      obtain ⟨built, hconcurs, hfinish⟩ := finish_building_ok hbuilt
      obtain ⟨built', hconcurs', hfinish'⟩ := finish_building_ok (hbuild.trans hbuilt)
      rw [hfinish, hfinish', h.handler.foundWith,
        inquiry.finishNoted_fst_congr hsound (h.trans hconcurs') hconcurs]
  | remembering inquiry category text query =>
    have hremember := hcoherent.concurs_remember
    have hremember' := (hcoherent.mono h).concurs_remember
    rw [finish, finish, h.handler.foundWith,
      inquiry.finishNoted_fst_congr hsound (h.trans hremember') hremember]
  | finished outcome => rfl

/-- A task that takes no more steps is finished. -/
theorem eq_finished_of_rank_eq_zero {task : FileTask Q} (h : task.rank = 0) (host : Host Q)
    (a : Analyzer Q) :
    task = .finished (task.finish host a).1 ∧ (task.finish host a).2 = a := by
  cases task with
  | finished outcome => exact ⟨rfl, rfl⟩
  | opening => cases h
  | parsing => cases h
  | asking => cases h
  | building => cases h
  | remembering => cases h

end FileTask

end SourceOutline
