import SourceOutline.Proofs.Handler
import SourceOutline.Proofs.Loading

/-!
# Runs of a Language Service

A service settles the outcome for a language when it is first consulted about it, while
the files around it change and others use its loader. Service and loader remember by
different rules: the service keeps failures too, the loader keeps only what it found. This
module says that they never contradict each other, whatever the order of requests.

`Justified` says what an outcome can be, and that a grammar from a library is one that the
loader remembers with its path. As nothing that a loader remembers is ever lost, an
outcome that was justified when it was settled stays so. Everything that a service replies
is read off one outcome for each language: `Fits` says how.

## Main results

* `load_fst`, `bind_fst`: the outcome for a language, by what is settled and by what the
  loader has.
* `bind_bind_fst`: while the files stay, settling one language does not change the outcome
  for another.
* `extends_serveAll`: whatever is requested, what is settled stays, and stays justified.
* `service_outcomes_fixed`: all replies of a run fit the outcomes of its end, and what
  these outcomes are.
-/

namespace SourceOutline

/-- Every language of `Grammar.bundled?` has a grammar name. -/
theorem Grammar.isSome_grammar?_of_bundled {language : Language} {grammar : Grammar}
    (h : Grammar.bundled? language = some grammar) : language.grammar? ≠ none := by
  rw [Ne, Language.grammar_eq_none_iff]
  rintro rfl
  cases h

namespace LanguageService

/-! ### The outcome for a language -/

/-- The outcome for a language, by what a loader has for a name. -/
def outcomeFrom (found? : String → Option LoadedGrammar) (language : Language) :
    Except LanguageError Binding :=
  match language.grammar?, Grammar.bundled? language with
  | none, _ => .error (.unsupported language)
  | some _, some grammar => .ok { grammar, origin := .bundled }
  | some name, none =>
    match found? name with
    | some loaded => .ok { grammar := loaded.grammar, origin := .external loaded.path }
    | none => .error (.grammarNotFound language name)

/-- **What `load` does for a language**: the loader is asked only if there is a name for
the grammar and it is not bundled. -/
theorem load_cases (service : LanguageService) (files : FileTree) (language : Language) :
    ((language.grammar? = none ∨ ∃ grammar, Grammar.bundled? language = some grammar) ∧
      service.load files language =
        (outcomeFrom (service.loader.found? files) language, service.loader)) ∨
    ∃ name, language.grammar? = some name ∧ Grammar.bundled? language = none ∧
      service.load files language =
        (outcomeFrom (service.loader.found? files) language,
          (service.loader.get files name).2) := by
  unfold load outcomeFrom
  cases language.grammar? with
  | none => exact Or.inl ⟨Or.inl rfl, rfl⟩
  | some name =>
    cases Grammar.bundled? language with
    | some grammar => exact Or.inl ⟨Or.inr ⟨grammar, rfl⟩, rfl⟩
    | none =>
      refine Or.inr ⟨name, rfl, rfl, ?_⟩
      have hfst := service.loader.get_fst files name
      have hlookup := service.loader.lookup_get files name name
      rw [if_pos rfl] at hlookup
      dsimp only
      generalize service.loader.get files name = asked at hfst hlookup ⊢
      obtain ⟨found, loader⟩ := asked
      dsimp only at hfst hlookup ⊢
      cases hfound : service.loader.found? files name with
      | none =>
        rw [hfound] at hfst
        rw [hfst]
        rfl
      | some loaded =>
        rw [hfound] at hfst hlookup
        -- the loader was asked, so it has the path now
        have hpath : loader.loadedPath? name = some loaded.path := by
          rw [GrammarLoader.loadedPath?, hlookup, Option.map_some]
        rw [hfst]
        dsimp only [Option.map_some]
        rw [hpath, Option.getD_some]

/-- `load` gives the outcome by what the loader has. -/
theorem load_fst (service : LanguageService) (files : FileTree) (language : Language) :
    (service.load files language).1 = outcomeFrom (service.loader.found? files) language := by
  rcases service.load_cases files language with ⟨-, hload⟩ | ⟨name, -, -, hload⟩
  · rw [hload]
  · rw [hload]

/-- `load` does not change what the loader has for any name, as long as the files stay. -/
theorem found?_load (service : LanguageService) (files : FileTree) (language : Language) :
    (service.load files language).2.found? files = service.loader.found? files := by
  rcases service.load_cases files language with ⟨-, hload⟩ | ⟨name, -, -, hload⟩
  · rw [hload]
  · rw [hload]
    exact funext (service.loader.found?_get files name)

/-- `load` loses nothing that the loader remembers. -/
theorem keeps_load (service : LanguageService) (files : FileTree) (language : Language) :
    service.loader.Keeps (service.load files language).2 := by
  rcases service.load_cases files language with ⟨-, hload⟩ | ⟨name, -, -, hload⟩
  · rw [hload]
    exact fun _ _ hlookup => hlookup
  · rw [hload]
    exact service.loader.keeps_get files name

/-- `bind` gives an outcome that is settled, or else the one that `load` gives. -/
theorem bind_fst (service : LanguageService) (files : FileTree) (language : Language) :
    (service.bind files language).1 =
      (service.outcomes.lookup language).getD
        (outcomeFrom (service.loader.found? files) language) := by
  rw [LanguageService.bind]
  cases service.outcomes.lookup language with
  | some outcome => rfl
  | none => exact service.load_fst files language

/-- `bind` settles its own language and no other. -/
theorem lookup_bind (service : LanguageService) (files : FileTree)
    (language other : Language) :
    (service.bind files language).2.outcomes.lookup other =
      if other = language then some (service.bind files language).1
      else service.outcomes.lookup other := by
  split
  next heq =>
    rw [heq]
    exact service.settled_bind files language
  next hne =>
    rw [LanguageService.bind]
    cases service.outcomes.lookup language with
    | some outcome => rfl
    | none =>
      dsimp only
      rw [List.lookup_cons, beq_false_of_ne hne]

/-- `bind` does not change what the loader has for any name, as long as the files stay. -/
theorem found?_bind (service : LanguageService) (files : FileTree) (language : Language) :
    (service.bind files language).2.loader.found? files = service.loader.found? files := by
  rw [LanguageService.bind]
  cases service.outcomes.lookup language with
  | some outcome => rfl
  | none => exact service.found?_load files language

/-- **While the files stay, settling one language does not change the outcome for
another** (`bind`). -/
theorem bind_bind_fst (service : LanguageService) (files : FileTree)
    (other language : Language) :
    ((service.bind files other).2.bind files language).1 =
      (service.bind files language).1 := by
  rw [bind_fst, lookup_bind, found?_bind]
  split
  next heq => rw [heq, Option.getD_some]
  next => rw [bind_fst]

/-- A settled outcome is the one that is given. -/
theorem Settled.bind_fst {service : LanguageService} {language : Language}
    {outcome : Except LanguageError Binding} (h : service.Settled language outcome)
    (files : FileTree) : (service.bind files language).1 = outcome := by
  rw [h.bind]

/-! ### All languages -/

/-- `supportedAmong` lists the languages with a grammar. -/
theorem supportedAmong_fst (service : LanguageService) (files : FileTree)
    (languages : List Language) :
    (service.supportedAmong files languages).1 =
      languages.filter fun language => isBound (service.bind files language).1 := by
  induction languages generalizing service with
  | nil => rfl
  | cons language languages ih =>
    have hrest := ih (service.bind files language).2
    simp only [bind_bind_fst] at hrest
    rw [supportedAmong, List.filter_cons, ← hrest]
    rfl

/-- All languages that `supportedAmong` went through are settled. -/
theorem settled_supportedAmong (service : LanguageService) (files : FileTree)
    {languages : List Language} :
    ∀ language ∈ languages,
      (service.supportedAmong files languages).2.Settled language
        (service.bind files language).1 := by
  induction languages generalizing service with
  | nil => exact fun language hmem => absurd hmem List.not_mem_nil
  | cons first languages ih =>
    intro language hmem
    rcases List.mem_cons.1 hmem with rfl | hmem
    · exact (service.bind files language).2.keeps_supportedAmong files languages _ _
        (service.settled_bind files language)
    · have hrest := ih (service.bind files first).2 language hmem
      rw [bind_bind_fst] at hrest
      exact hrest

/-! ### Justified outcomes -/

/-- What the outcome for a language can be. A grammar that is not bundled is one that the
loader remembers, with the path of its library. -/
inductive Justified (loader : GrammarLoader) (language : Language) :
    Except LanguageError Binding → Prop
  | unsupported : language.grammar? = none →
    Justified loader language (.error (.unsupported language))
  | bundled {grammar : Grammar} : Grammar.bundled? language = some grammar →
      Justified loader language (.ok { grammar, origin := .bundled })
  | external {name : String} {loaded : LoadedGrammar} : language.grammar? = some name →
      Grammar.bundled? language = none → loader.grammars.lookup name = some loaded →
      Justified loader language (.ok { grammar := loaded.grammar,
                                       origin := .external loaded.path })
  | missing {name : String} : language.grammar? = some name →
      Grammar.bundled? language = none →
      Justified loader language (.error (.grammarNotFound language name))

variable {loader loader' : GrammarLoader} {language : Language}
  {outcome : Except LanguageError Binding}

/-- What is `Justified` stays so when the loader remembers more. -/
theorem Justified.mono (h : Justified loader language outcome)
    (hkeeps : loader.Keeps loader') :
    Justified loader' language outcome := by
  cases h with
  | unsupported hname => exact .unsupported hname
  | bundled hbundled => exact .bundled hbundled
  | external hname hbundled hlookup => exact .external hname hbundled (hkeeps _ _ hlookup)
  | missing hname hbundled => exact .missing hname hbundled

/-- A bundled language has its bundled grammar. -/
theorem Justified.eq_of_bundled (h : Justified loader language outcome) {grammar : Grammar}
    (hbundled : Grammar.bundled? language = some grammar) :
    outcome = .ok { grammar, origin := .bundled } := by
  cases h with
  | unsupported hname => exact absurd hname (Grammar.isSome_grammar?_of_bundled hbundled)
  | bundled hbundled' => rw [Option.some.inj (hbundled'.symm.trans hbundled)]
  | external _ hnone _ => cases hnone.symm.trans hbundled
  | missing _ hnone => cases hnone.symm.trans hbundled

/-- The language without a grammar fails as unsupported. -/
theorem Justified.eq_of_unsupported (h : Justified loader .unsupported outcome) :
    outcome = .error (.unsupported .unsupported) := by
  cases h with
  | unsupported => rfl
  | bundled hbundled => cases hbundled
  | external hname => cases hname
  | missing hname => cases hname

/-- A grammar from a library has the path that the loader remembers. -/
theorem Justified.lookup_of_external {grammar : Grammar} {path : Path}
    (h : Justified loader language (.ok { grammar, origin := .external path })) :
    ∃ name, language.grammar? = some name ∧
      loader.grammars.lookup name = some { grammar, path } := by
  cases h with
  | external hname _ hlookup => exact ⟨_, hname, hlookup⟩

/-- `load` gives an outcome that the loader justifies afterwards (`Justified`). -/
theorem justified_load (service : LanguageService) (files : FileTree) (language : Language) :
    Justified (service.load files language).2 language (service.load files language).1 := by
  rcases service.load_cases files language with
    ⟨hknown, hload⟩ | ⟨name, hname, hbundled, hload⟩
  · rw [hload, outcomeFrom]
    rcases hknown with hname | ⟨grammar, hbundled⟩
    · rw [hname]
      exact .unsupported hname
    · obtain ⟨name, hname⟩ :=
        Option.ne_none_iff_exists'.1 (Grammar.isSome_grammar?_of_bundled hbundled)
      rw [hname, hbundled]
      exact .bundled hbundled
  · have hlookup := service.loader.lookup_get files name name
    rw [if_pos rfl] at hlookup
    rw [hload, outcomeFrom, hname, hbundled]
    dsimp only
    cases hfound : service.loader.found? files name with
    | none => exact .missing hname hbundled
    | some loaded => exact .external hname hbundled (hlookup.trans hfound)

/-- Every settled outcome is justified. -/
def Founded (service : LanguageService) : Prop :=
  ∀ language outcome, service.Settled language outcome →
    Justified service.loader language outcome

/-- What may happen to a service: settled outcomes stay, the loader loses nothing, and
what is settled stays justified. -/
structure Extends (service service' : LanguageService) : Prop where
  keeps : service.Keeps service'
  loader : service.loader.Keeps service'.loader
  founded : service.Founded → service'.Founded

/-- `Extends` is reflexive. -/
theorem Extends.refl (service : LanguageService) : service.Extends service :=
  ⟨.refl service, fun _ _ hlookup => hlookup, id⟩

/-- `Extends` is transitive. -/
theorem Extends.trans {first second third : LanguageService} (h : first.Extends second)
    (h' : second.Extends third) : first.Extends third :=
  ⟨h.keeps.trans h'.keeps, fun name loaded hlookup =>
    h'.loader name loaded (h.loader name loaded hlookup), h'.founded ∘ h.founded⟩

/-- A use of the loader settles nothing. -/
theorem extends_of_loader (service : LanguageService) (h : service.loader.Keeps loader) :
    service.Extends { service with loader } :=
  ⟨fun _ _ hsettled => hsettled, h, fun hfounded language outcome hsettled =>
    (hfounded language outcome hsettled).mono h⟩

/-- `bind` extends a service: what it settles is justified by what was loaded. -/
theorem extends_bind (service : LanguageService) (files : FileTree) (language : Language) :
    service.Extends (service.bind files language).2 := by
  have hkeeps := service.keeps_bind files language
  have hlookup := service.lookup_bind files language
  have hjustified := service.justified_load files language
  have hloader := service.keeps_load files language
  rw [LanguageService.bind] at hkeeps hlookup ⊢
  cases hsettled : service.outcomes.lookup language with
  | some outcome => exact .refl service
  | none =>
    rw [hsettled] at hkeeps hlookup
    refine ⟨hkeeps, hloader, fun hfounded other outcome hother => ?_⟩
    have hentry := (hlookup other).symm.trans hother
    split at hentry
    next heq =>
      obtain rfl := Option.some.inj hentry
      rw [heq]
      exact hjustified
    next => exact (hfounded other outcome hentry).mono hloader

/-- `supportedAmong` extends a service, by induction over the languages. -/
theorem extends_supportedAmong (service : LanguageService) (files : FileTree)
    (languages : List Language) :
    service.Extends (service.supportedAmong files languages).2 := by
  induction languages generalizing service with
  | nil => exact .refl service
  | cons language languages ih => exact (service.extends_bind files language).trans (ih _)

/-! ### Runs -/

/-- Something that is asked of a service, or of its loader. -/
inductive Request where
  | languageObject (language : Language)
  | parser (language : Language)
  | binding (language : Language)
  | isSupported (language : Language)
  | supportedLanguages
  /-- A direct use of the loader. -/
  | loader (request : GrammarLoader.Request)

/-- What is replied. -/
inductive Reply where
  | languageObject (outcome : Except LanguageError Grammar)
  | parser (outcome : Except LanguageError Binding)
  | binding (outcome : Except LanguageError Binding)
  | isSupported (supported : Bool)
  | supportedLanguages (languages : List Language)
  | loader (reply : GrammarLoader.Reply)

/-- The reply to a request while there are some files, and the service afterwards. -/
def serve (service : LanguageService) (files : FileTree) : Request → Reply × LanguageService
  | .languageObject language =>
    let (outcome, service) := service.bind files language
    (.languageObject (outcome.map (·.grammar)), service)
  | .parser language =>
    let (outcome, service) := service.bindParser files language
    (.parser outcome, service)
  | .binding language =>
    let (outcome, service) := service.bind files language
    (.binding outcome, service)
  | .isSupported language =>
    let (supported, service) := service.isSupported files language
    (.isSupported supported, service)
  | .supportedLanguages =>
    let (languages, service) := service.supportedLanguages files
    (.supportedLanguages languages, service)
  | .loader request =>
    let (reply, loader) := service.loader.serve files request
    (.loader reply, { service with loader })

/-- Requests one after the other, each with the files that there are at the time: what was
replied to them, and the service afterwards. -/
def serveAll :
    List (FileTree × Request) → LanguageService → List (Request × Reply) × LanguageService
  | [], service => ([], service)
  | (files, request) :: requests, service =>
    let (reply, service) := service.serve files request
    let (past, service) := serveAll requests service
    ((request, reply) :: past, service)

/-- The languages that a request consults the service about. -/
def Request.consulted : Request → List Language
  | .languageObject language | .parser language | .binding language | .isSupported language =>
    [language]
  | .supportedLanguages => Language.all
  | .loader _ => []

/-- The replies that fit an outcome for each language. Only parsers may be refused where
there is a grammar. -/
inductive Fits (outcome : Language → Except LanguageError Binding) : Request → Reply → Prop
  | languageObject (language : Language) :
      Fits outcome (.languageObject language)
        (.languageObject ((outcome language).map (·.grammar)))
  | parser {language : Language} {binding : Binding} : outcome language = .ok binding →
      binding.grammar.isCompatible = true →
        Fits outcome (.parser language) (.parser (.ok binding))
  | refused {language : Language} {binding : Binding} : outcome language = .ok binding →
      binding.grammar.isCompatible = false →
      Fits outcome (.parser language)
        (.parser (.error (.incompatible language binding.grammar.refusal)))
  | noParser {language : Language} {e : LanguageError} : outcome language = .error e →
      Fits outcome (.parser language) (.parser (.error e))
  | binding (language : Language) : Fits outcome (.binding language)
    (.binding (outcome language))
  | isSupported (language : Language) :
      Fits outcome (.isSupported language) (.isSupported (isBound (outcome language)))
  | supportedLanguages : Fits outcome .supportedLanguages
      (.supportedLanguages (Language.all.filter fun language => isBound (outcome language)))
  | loader (request : GrammarLoader.Request) (reply : GrammarLoader.Reply) :
      Fits outcome (.loader request) (.loader reply)

/-- A reply `Fits` all outcomes that agree on the languages that were consulted. -/
theorem Fits.congr {outcome outcome' : Language → Except LanguageError Binding}
    {request : Request} {reply : Reply} (h : Fits outcome request reply)
    (heq : ∀ language ∈ request.consulted, outcome' language = outcome language) :
    Fits outcome' request reply := by
  cases h with
  | languageObject language =>
    rw [← heq language List.mem_cons_self]
    exact .languageObject language
  | parser hok hcompatible => exact .parser ((heq _ List.mem_cons_self).trans hok) hcompatible
  | refused hok hrefused => exact .refused ((heq _ List.mem_cons_self).trans hok) hrefused
  | noParser herror => exact .noParser ((heq _ List.mem_cons_self).trans herror)
  | binding language =>
    rw [← heq language List.mem_cons_self]
    exact .binding language
  | isSupported language =>
    rw [← heq language List.mem_cons_self]
    exact .isSupported language
  | supportedLanguages =>
    obtain rfl : outcome' = outcome :=
      funext fun language => heq language (Language.mem_all language)
    exact .supportedLanguages
  | loader request reply => exact .loader request reply

/-- **Every reply is read off the outcomes of the moment**: what `serve` replies `Fits`
them. -/
theorem fits_serve (service : LanguageService) (files : FileTree) (request : Request) :
    Fits (fun language => (service.bind files language).1) request
      (service.serve files request).1 := by
  cases request with
  | languageObject language => exact .languageObject language
  | parser language =>
    unfold serve bindParser
    dsimp only
    cases hbind : (service.bind files language).1 with
    | error e => exact .noParser hbind
    | ok binding =>
      dsimp only
      cases hcompatible : binding.grammar.isCompatible with
      | true => exact .parser hbind hcompatible
      | false => exact .refused hbind hcompatible
  | binding language => exact .binding language
  | isSupported language => exact .isSupported language
  | supportedLanguages =>
    unfold serve supportedLanguages
    dsimp only
    rw [supportedAmong_fst]
    exact .supportedLanguages
  | loader request => exact .loader request _

/-- `serve` settles the languages that were consulted. -/
theorem settled_serve (service : LanguageService) (files : FileTree) (request : Request) :
    ∀ language ∈ request.consulted,
      (service.serve files request).2.Settled language (service.bind files language).1 := by
  have hsettled := service.settled_bind files
  intro language hmem
  cases request with
  | languageObject asked =>
    obtain rfl := List.mem_singleton.1 hmem
    exact hsettled language
  | parser asked =>
    obtain rfl := List.mem_singleton.1 hmem
    have hsnd := service.bindParser_snd files language
    exact (congrArg (fun s : LanguageService => s.outcomes.lookup language) hsnd).trans
      (hsettled language)
  | binding asked =>
    obtain rfl := List.mem_singleton.1 hmem
    exact hsettled language
  | isSupported asked =>
    obtain rfl := List.mem_singleton.1 hmem
    exact hsettled language
  | supportedLanguages =>
    unfold serve supportedLanguages
    dsimp only
    exact service.settled_supportedAmong files language (Language.mem_all language)
  | loader request => exact absurd hmem List.not_mem_nil

/-- Every request extends the service. -/
theorem extends_serve (service : LanguageService) (files : FileTree) (request : Request) :
    service.Extends (service.serve files request).2 := by
  cases request with
  | languageObject language => exact service.extends_bind files language
  | parser language =>
    have hbind := service.extends_bind files language
    rw [← service.bindParser_snd] at hbind
    exact hbind
  | binding language => exact service.extends_bind files language
  | isSupported language => exact service.extends_bind files language
  | supportedLanguages =>
    unfold serve supportedLanguages
    dsimp only
    exact service.extends_supportedAmong files Language.all
  | loader request =>
    exact service.extends_of_loader (service.loader.keeps_serve files request)

/-- **Whatever is requested, what is settled stays**, and stays justified (`Extends`). -/
theorem extends_serveAll (requests : List (FileTree × Request)) (service : LanguageService) :
    service.Extends (serveAll requests service).2 := by
  induction requests generalizing service with
  | nil => exact .refl service
  | cons entry requests ih =>
    obtain ⟨files, request⟩ := entry
    exact (service.extends_serve files request).trans (ih _)

/-- **All replies of a run fit the outcomes of its end** (`Fits`), whatever the files are
then. -/
theorem fits_serveAll (requests : List (FileTree × Request)) (service : LanguageService)
    (files : FileTree) :
    ∀ entry ∈ (serveAll requests service).1,
      Fits (fun language => ((serveAll requests service).2.bind files language).1) entry.1
        entry.2 := by
  induction requests generalizing service with
  | nil => exact fun entry hmem => absurd hmem List.not_mem_nil
  | cons first requests ih =>
    obtain ⟨earlier, request⟩ := first
    intro entry hmem
    rcases List.mem_cons.1 hmem with rfl | hmem
    · -- what was consulted for the first reply is settled from then on
      refine (service.fits_serve earlier request).congr fun language hlanguage => ?_
      have hsettled := service.settled_serve earlier request language hlanguage
      have hlater :=
        (extends_serveAll requests (service.serve earlier request).2).keeps _ _ hsettled
      exact hlater.bind_fst files
    · exact ih _ entry hmem

/-- A new service has settled nothing. -/
theorem founded_ofLoader (loader : GrammarLoader) : (ofLoader loader).Founded :=
  fun _ _ hsettled => absurd hsettled (Option.some_ne_none _).symm

/-- `isBound` says whether an outcome is a grammar. -/
theorem isBound_eq_true_iff {outcome : Except LanguageError Binding} :
    isBound outcome = true ↔ ∃ binding, outcome = .ok binding := by
  cases outcome <;> simp [isBound]

/-- **The outcomes of a service are fixed at first use, and all that it says of a language
agrees.** After any requests to a new service and to its loader, with any files at each of
them and any files now:

* All replies so far, and the reply to any request now, fit one outcome for each language:
  the one that it has now.
* An outcome that was asked for stays, whatever comes later.
* A language is supported exactly if it is among the supported languages, and exactly if
  its outcome is a grammar.
* A bundled language has its bundled grammar, and the language without a grammar fails as
  unsupported.
* A grammar from a library has the path that the loader has for it, whatever comes later. -/
theorem service_outcomes_fixed (loader : GrammarLoader)
    (requests : List (FileTree × Request)) (files : FileTree) :
    let past := (serveAll requests (ofLoader loader)).1
    let service := (serveAll requests (ofLoader loader)).2
    let outcome := fun language => (service.bind files language).1
    (∀ entry ∈ past, Fits outcome entry.1 entry.2) ∧
    (∀ request, Fits outcome request (service.serve files request).1) ∧
    (∀ language later files',
      ((serveAll later (service.bind files language).2).2.bind files' language).1 =
        outcome language) ∧
    (∀ language,
      ((service.isSupported files language).1 = true ↔
        ∃ binding, outcome language = .ok binding) ∧
      (language ∈ (service.supportedLanguages files).1 ↔
        ∃ binding, outcome language = .ok binding)) ∧
    (∀ language grammar, Grammar.bundled? language = some grammar →
      outcome language = .ok { grammar, origin := .bundled }) ∧
    outcome .unsupported = .error (.unsupported .unsupported) ∧
    ∀ language grammar path, outcome language = .ok { grammar, origin := .external path } →
      ∃ name, language.grammar? = some name ∧ ∀ later,
        (serveAll later (service.bind files language).2).2.loader.loadedPath? name =
          some path := by
  intro past service outcome
  have hfounded : service.Founded :=
    (extends_serveAll requests _).founded (founded_ofLoader loader)
  have hjustified (language : Language) :
      Justified (service.bind files language).2.loader language (outcome language) :=
    (service.extends_bind files language).founded hfounded language
      _ (service.settled_bind files language)
  refine ⟨fits_serveAll requests _ files, service.fits_serve files,
    fun language later files' => ?_,
    fun language => ⟨isBound_eq_true_iff, ?_⟩,
    fun language grammar => (hjustified language).eq_of_bundled,
    (hjustified .unsupported).eq_of_unsupported, fun language grammar path hexternal => ?_⟩
  · have hlater := (extends_serveAll later _).keeps _ _ (service.settled_bind files language)
    exact hlater.bind_fst files'
  · rw [supportedLanguages, supportedAmong_fst, List.mem_filter, isBound_eq_true_iff]
    exact and_iff_right (Language.mem_all language)
  · have hfound := hjustified language
    rw [hexternal] at hfound
    obtain ⟨name, hname, hlookup⟩ := hfound.lookup_of_external
    refine ⟨name, hname, fun later => ?_⟩
    rw [GrammarLoader.loadedPath?, (extends_serveAll later _).loader name _ hlookup,
      Option.map_some]

end LanguageService

end SourceOutline
