import Mathlib.Data.List.Find
import Mathlib.Data.List.Nodup
import Mathlib.Data.List.Pairwise
import SourceOutline.Language.Resolution
import SourceOutline.Proofs.FileNames

/-!
# The Language of a Path in Closed Form

The language of a path is found in three steps, which do not look at the name in the same
way: a table of whole names, globs, and a table of extensions. `Resolves` says in one
place what comes out, for a name in small letters.

A name or an extension stands in the table at most once (`fileName_unique`,
`extension_unique`), and no name is accepted by the globs of two languages
(`eq_of_any_matchesGlob`). So the steps do not depend on the order of the table.

## Main results

* `matchesGlob_iff`: what a glob accepts that is a text followed by a star.
* `ofPath_eq_iff`: the language of a path whose final component is a text.
* `ofPathIn_of_perm`: the order of the table does not matter.
* `path_resolution_closed_form`: **the language of a path.**
-/

namespace SourceOutline

/-! ### Globs -/

namespace Text

/-- `globMatches` for a start without wildcards and a star. -/
theorem globMatches_append_star {start : List Char} (hstart : ∀ c ∈ start, c ≠ '*' ∧ c ≠ '?')
    (cs : List Char) :
    globMatches (start ++ ['*']) cs = true ↔ ∃ rest, cs = start ++ rest := by
  induction start generalizing cs with
  | nil => exact iff_of_true (globMatches_star cs) ⟨cs, rfl⟩
  | cons g start ih =>
    rw [List.forall_mem_cons] at hstart
    cases cs with
    | nil => simp [globMatches, hstart.1.1]
    | cons c cs =>
      simp only [List.cons_append, globMatches, hstart.1.1, hstart.1.2, if_false, decide_false,
        Bool.false_or, Bool.and_eq_true, decide_eq_true_eq, ih hstart.2, List.cons.injEq,
        exists_and_left]
      exact and_congr_left fun _ => eq_comm

/-- **A glob that is a text followed by a star** accepts, by `matchesGlob`, what begins
with the text. -/
theorem matchesGlob_iff {glob start name : String}
    (hglob : glob.toLower.toList = start.toList ++ ['*'])
    (hstart : ∀ c ∈ start.toList, c ≠ '*' ∧ c ≠ '?') :
    matchesGlob glob name = true ↔ ∃ rest, name.toLower = start ++ rest := by
  rw [matchesGlob, hglob, globMatches_append_star hstart]
  constructor
  · rintro ⟨rest, hrest⟩
    exact ⟨String.ofList rest, String.toList_injective (by simp [hrest])⟩
  · rintro ⟨rest, hrest⟩
    exact ⟨rest.toList, by rw [hrest, String.toList_append]⟩

end Text

namespace Language

open Text

/-! ### The table -/

/-- A column of the table without repetitions tells the language. -/
theorem eq_of_mem_column {column : Descriptor → List String}
    (h : (all.flatMap fun l => column l.descriptor).Nodup) {key : String} {l m : Language}
    (hl : key ∈ column l.descriptor) (hm : key ∈ column m.descriptor) : l = m := by
  by_contra hne
  have hsymm : Std.Symm (Function.onFun List.Disjoint fun l : Language =>
      column l.descriptor) :=
    ⟨fun _ _ h _ ha hb => h hb ha⟩
  exact (List.nodup_flatMap.1 h).2.forall (mem_all l) (mem_all m) hne hl hm

/-- The only language with a property is the one that is found. -/
theorem find?_all_eq_some {p : Language → Bool} {l : Language} (hl : p l = true)
    (hunique : ∀ m, p m = true → m = l) :
    all.find? p = some l := by
  cases hfind : all.find? p with
  | none => exact absurd hl (List.find?_eq_none.1 hfind l (mem_all l))
  | some m => rw [hunique m (List.find?_some hfind)]

/-! ### Names in small letters -/

/-- Some language lists a file name. -/
def Listed (name : String) : Prop :=
  ∃ l : Language, name ∈ l.descriptor.fileNames

/-- A name of a Dockerfile with something after the dot. -/
def NamesDockerfile (name : String) : Prop :=
  ∃ rest, name = "dockerfile." ++ rest ∨ name = "containerfile." ++ rest

/-- A name of a Makefile with something after the dot. -/
def NamesMakefile (name : String) : Prop :=
  ∃ rest, name = "makefile." ++ rest

/-- The language of a file name in small letters. -/
inductive Resolves (name : String) : Language → Prop
  /-- The name is listed. -/
  | listed {l : Language} : name ∈ l.descriptor.fileNames → Resolves name l
  | dockerfile : ¬ Listed name → NamesDockerfile name → Resolves name .dockerfile
  | makefile : ¬ Listed name → NamesMakefile name → Resolves name .make
  /-- The extension is listed. -/
  | extension {l : Language} {ext : String} : ¬ Listed name → ¬ NamesDockerfile name →
      ¬ NamesMakefile name →
      HasExtension name ext → ext ∈ l.descriptor.extensions → Resolves name l
  | unknown : ¬ Listed name → ¬ NamesDockerfile name → ¬ NamesMakefile name →
      (∀ l : Language, ∀ ext, HasExtension name ext → ext ∉ l.descriptor.extensions) →
        Resolves name .unsupported

/-- Every name is resolved. -/
theorem exists_resolves (name : String) : ∃ l, Resolves name l := by
  by_cases hlisted : Listed name
  · obtain ⟨l, hl⟩ := hlisted
    exact ⟨l, .listed hl⟩
  by_cases hdocker : NamesDockerfile name
  · exact ⟨_, .dockerfile hlisted hdocker⟩
  by_cases hmake : NamesMakefile name
  · exact ⟨_, .makefile hlisted hmake⟩
  by_cases hext : ∃ l : Language, ∃ ext, HasExtension name ext ∧ ext ∈ l.descriptor.extensions
  · obtain ⟨l, ext, hname, hl⟩ := hext
    exact ⟨l, .extension hlisted hdocker hmake hname hl⟩
  · refine ⟨_, .unknown hlisted hdocker hmake fun l ext hname hl => hext ⟨l, ext, hname, hl⟩⟩

/-! ### The steps -/

section Steps

variable {p : Path} {s : String} {l : Language}

/-- `fileNameIn?` finds the language that lists a name. -/
theorem fileNameIn?_eq_some (h : s.toLower ∈ l.descriptor.fileNames) :
    fileNameIn? all s = some l := by
  refine find?_all_eq_some (by simpa using h) fun m hm => ?_
  exact eq_of_mem_column fileName_unique (by simpa using hm) h

/-- `fileNameIn?` finds nothing for a name that is not listed. -/
theorem fileNameIn?_eq_none (h : ¬ Listed s.toLower) : fileNameIn? all s = none := by
  rw [fileNameIn?, List.find?_eq_none]
  intro l _ hl
  exact h ⟨l, by simpa using hl⟩

/-- Only two languages have `nameGlobs`. -/
theorem nameGlobs_eq_nil (hdocker : l ≠ .dockerfile) (hmake : l ≠ .make) :
    l.descriptor.nameGlobs = [] := by
  cases l <;> simp_all [descriptor]

/-- The names that the globs of a language accept, by `matchesGlob`. -/
theorem any_matchesGlob_iff :
    (l.descriptor.nameGlobs.any fun glob => matchesGlob glob s) = true ↔
      l = .dockerfile ∧ NamesDockerfile s.toLower ∨ l = .make ∧ NamesMakefile s.toLower := by
  by_cases hdocker : l = .dockerfile
  · subst hdocker
    have hglobs : (descriptor .dockerfile).nameGlobs =
        ["Dockerfile.*", "Containerfile.*"] := rfl
    have hfirst : matchesGlob "Dockerfile.*" s = true ↔
        ∃ rest, s.toLower = "dockerfile." ++ rest :=
      matchesGlob_iff (by decide +kernel) (by simp)
    have hsecond : matchesGlob "Containerfile.*" s = true ↔
        ∃ rest, s.toLower = "containerfile." ++ rest :=
      matchesGlob_iff (by decide +kernel) (by simp)
    simp [hglobs, hfirst, hsecond, NamesDockerfile, exists_or]
  by_cases hmake : l = .make
  · subst hmake
    have hglobs : (descriptor .make).nameGlobs = ["Makefile.*"] := rfl
    have hfirst : matchesGlob "Makefile.*" s = true ↔
        ∃ rest, s.toLower = "makefile." ++ rest :=
      matchesGlob_iff (by decide +kernel) (by simp)
    simp [hglobs, hfirst, NamesMakefile]
  · simp [nameGlobs_eq_nil hdocker hmake, hdocker, hmake]

theorem not_namesMakefile (h : NamesDockerfile s) : ¬ NamesMakefile s := by
  rintro ⟨other, rfl⟩
  obtain ⟨rest, h | h⟩ := h
  · have hlist := congrArg String.toList h
    simp at hlist
  · have hlist := congrArg String.toList h
    simp at hlist

/-- The globs of two languages do not accept one name. -/
theorem eq_of_any_matchesGlob {m : Language}
    (hl : (l.descriptor.nameGlobs.any fun glob => matchesGlob glob s) = true)
    (hm : (m.descriptor.nameGlobs.any fun glob => matchesGlob glob s) = true) : l = m := by
  rcases any_matchesGlob_iff.1 hl with ⟨rfl, hdocker⟩ | ⟨rfl, hmake⟩
  · rcases any_matchesGlob_iff.1 hm with ⟨rfl, -⟩ | ⟨-, hmake⟩
    · rfl
    · exact absurd hmake (not_namesMakefile hdocker)
  · rcases any_matchesGlob_iff.1 hm with ⟨-, hdocker⟩ | ⟨rfl, -⟩
    · exact absurd hmake (not_namesMakefile hdocker)
    · rfl

/-- `globIn?` finds the language with a glob that accepts a name. -/
theorem globIn?_of_any_matchesGlob
    (h : (l.descriptor.nameGlobs.any fun glob => matchesGlob glob s) = true) :
    globIn? all s = some l :=
  find?_all_eq_some h fun _ hm => eq_of_any_matchesGlob hm h

/-- `globIn?` finds nothing for other names. -/
theorem globIn?_eq_none (hdocker : ¬ NamesDockerfile s.toLower)
    (hmake : ¬ NamesMakefile s.toLower) :
    globIn? all s = none := by
  rw [globIn?, List.find?_eq_none]
  intro l _ hl
  rcases any_matchesGlob_iff.1 hl with ⟨-, h⟩ | ⟨-, h⟩
  · exact hdocker h
  · exact hmake h

/-- `extensionIn?` looks up an extension without dots in small letters. -/
theorem extensionIn?_eq {table : List Language} {ext : String}
    (hext : '.' ∉ ext.toLower.toList) :
    extensionIn? table ext =
      table.find? fun l => l.descriptor.extensions.contains ext.toLower := by
  have hdrop : ext.toLower.toList.dropWhile (· = '.') = ext.toLower.toList := by
    cases hlist : ext.toLower.toList with
    | nil => rfl
    | cons c cs =>
      rw [hlist, List.mem_cons, not_or] at hext
      exact List.dropWhile_cons_of_neg (by simpa using Ne.symm hext.1)
  rw [extensionIn?, hdrop, String.ofList_toList]

/-- The extension of a name that is a text, looked up in a table. -/
theorem extension_lookup_of_hasExtension {table : List Language} {ext : String}
    (h : HasExtension s.toLower ext) :
    ((Path.extensionOfName (encode s)).bind decode?).bind (extensionIn? table) =
      table.find? fun l => l.descriptor.extensions.contains ext := by
  obtain ⟨e, he, rfl⟩ := hasExtension_toLower_iff.1 h
  rw [extensionOfName_encode_iff.2 ⟨e, he, rfl⟩, Option.bind_some, decode?_eq_some_iff.2 rfl,
    Option.bind_some, extensionIn?_eq h.1]

/-- An extension that no language has is not found. -/
theorem extension_lookup_eq_none {table : List Language}
    (h : ∀ l : Language, ∀ ext, HasExtension s.toLower ext → ext ∉ l.descriptor.extensions) :
    ((Path.extensionOfName (encode s)).bind decode?).bind (extensionIn? table) = none := by
  by_cases hsome : ∃ ext, HasExtension s.toLower ext
  · obtain ⟨ext, hext⟩ := hsome
    rw [extension_lookup_of_hasExtension hext, List.find?_eq_none]
    intro l _ hl
    exact h l ext hext (by simpa using hl)
  · cases hname : Path.extensionOfName (encode s) with
    | none => rfl
    | some bytes =>
      obtain ⟨ext, hext, -⟩ := extensionOfName_encode_iff.1 hname
      exact absurd ⟨_, hasExtension_toLower_iff.2 ⟨ext, hext, rfl⟩⟩ hsome

/-! ### Paths -/

/-- The steps of `ofPathIn` for a path whose final component is a text. -/
theorem ofPathIn_eq (table : List Language) (h : p.IsFinal (encode s)) :
    ofPathIn table p = ((fileNameIn? table s).or ((globIn? table s).or
      (((Path.extensionOfName (encode s)).bind decode?).bind (extensionIn? table)))).getD
      .unsupported := by
  have hname : p.fileName = some (encode s) := Path.fileName_eq_some_iff.2 h
  rw [ofPathIn, Path.extension, hname, Option.bind_some, Option.bind_some,
    decode?_eq_some_iff.2 rfl]

/-- `ofPath` gives the language that the final component resolves to. -/
theorem ofPath_of_resolves (h : p.IsFinal (encode s)) (hl : Resolves s.toLower l) :
    ofPath p = l := by
  rw [ofPath, ofPathIn_eq all h]
  cases hl with
  | listed hl =>
    rw [fileNameIn?_eq_some hl]
    rfl
  | dockerfile hlisted hdocker =>
    rw [fileNameIn?_eq_none hlisted, globIn?_of_any_matchesGlob
      (any_matchesGlob_iff.2 (Or.inl ⟨rfl, hdocker⟩))]
    rfl
  | makefile hlisted hmake =>
    rw [fileNameIn?_eq_none hlisted, globIn?_of_any_matchesGlob
      (any_matchesGlob_iff.2 (Or.inr ⟨rfl, hmake⟩))]
    rfl
  | @extension l ext hlisted hdocker hmake hext hl =>
    have hfind : (all.find? fun l => l.descriptor.extensions.contains ext) = some l :=
      find?_all_eq_some (by simpa using hl) fun m hm =>
        eq_of_mem_column extension_unique (by simpa using hm) hl
    rw [fileNameIn?_eq_none hlisted, globIn?_eq_none hdocker hmake,
      extension_lookup_of_hasExtension hext, hfind]
    rfl
  | unknown hlisted hdocker hmake hext =>
    rw [fileNameIn?_eq_none hlisted, globIn?_eq_none hdocker hmake,
      extension_lookup_eq_none hext]
    rfl

/-- **`ofPath`, the language of a path** whose final component is a text. -/
theorem ofPath_eq_iff (h : p.IsFinal (encode s)) : ofPath p = l ↔ Resolves s.toLower l := by
  refine ⟨?_, ofPath_of_resolves h⟩
  rintro rfl
  obtain ⟨l, hl⟩ := exists_resolves s.toLower
  rwa [ofPath_of_resolves h hl]

/-- `ofPath` does not know paths whose final component is not a text. -/
theorem ofPath_eq_unsupported (h : ¬ ∃ s, p.IsFinal (encode s)) : ofPath p = .unsupported := by
  have hname : p.fileName.bind decode? = none := by
    rw [Option.bind_eq_none_iff]
    intro name hname
    cases hdecode : decode? name with
    | none => rfl
    | some s =>
      rw [decode?_eq_some_iff] at hdecode
      subst hdecode
      exact absurd ⟨s, Path.fileName_eq_some_iff.1 hname⟩ h
  rw [ofPath, ofPathIn, hname]

/-- Names that differ in the case of ASCII letters only are resolved alike, texts or not. -/
theorem ofPath_congr {q : Path} {a b : Bytes} (ha : p.IsFinal a) (hb : q.IsFinal b)
    (h : a.map lowerByte = b.map lowerByte) : ofPath p = ofPath q := by
  have hnone : ∀ {p : Path} {a : Bytes}, p.IsFinal a → decode? a = none →
      ofPath p = .unsupported := by
    intro p a ha hdecode
    rw [ofPath, ofPathIn, Path.fileName_eq_some_iff.2 ha, Option.bind_some, hdecode]
  have hdecode : (decode? a).map String.toLower = (decode? b).map String.toLower := by
    rw [← decode?_map_lowerByte, h, decode?_map_lowerByte]
  cases hda : decode? a with
  | none =>
    rw [hda] at hdecode
    rw [hnone ha hda, hnone hb (Option.map_eq_none_iff.1 hdecode.symm)]
  | some s =>
    rw [hda] at hdecode
    obtain ⟨t, hdb, ht⟩ := Option.map_eq_some_iff.1 hdecode.symm
    rw [decode?_eq_some_iff] at hda hdb
    subst hda hdb
    rw [ofPath_eq_iff ha, ← ht, ← ofPath_eq_iff hb]

/-- **The order of the table does not matter.** -/
theorem ofPathIn_of_perm {table : List Language} (h : table.Perm all) (p : Path) :
    ofPathIn table p = ofPath p := by
  have hfind : ∀ {f : Language → Bool}, (∀ l m, f l = true → f m = true → l = m) →
      table.find? f = all.find? f := by
    intro f hf
    refine List.find?_eq_find?_of_perm h ?_
    rintro l ⟨-, hl⟩ m ⟨-, hm⟩
    exact hf l m hl hm
  have hnames : fileNameIn? table = fileNameIn? all := by
    funext name
    refine hfind fun l m hl hm => ?_
    exact eq_of_mem_column fileName_unique (by simpa using hl) (by simpa using hm)
  have hglobs : globIn? table = globIn? all := by
    funext name
    exact hfind fun l m hl hm => eq_of_any_matchesGlob hl hm
  have hexts : extensionIn? table = extensionIn? all := by
    funext ext
    refine hfind fun l m hl hm => ?_
    exact eq_of_mem_column extension_unique (by simpa using hl) (by simpa using hm)
  rw [ofPath, ofPathIn, ofPathIn, hnames, hglobs, hexts]

end Steps

/-- **The language of a path.** Only its final component matters, in any case of its ASCII
letters: the path is unsupported if there is none or it is not a text, and else what the
component stands for in small letters. A file name and an extension are listed by one
language at most, and the languages can be tried in any order. -/
theorem path_resolution_closed_form :
    (∀ p : Path, (¬ ∃ s, p.IsFinal (encode s)) → ofPath p = .unsupported) ∧
    (∀ (p : Path) (s : String), p.IsFinal (encode s) → ∀ l, ofPath p = l ↔
      Resolves s.toLower l) ∧
    (∀ (p q : Path) (a b : Bytes), p.IsFinal a → q.IsFinal b →
      a.map lowerByte = b.map lowerByte →
      ofPath p = ofPath q) ∧
    (∀ (name : String) (l m : Language), name ∈ l.descriptor.fileNames →
      name ∈ m.descriptor.fileNames → l = m) ∧
    (∀ (ext : String) (l m : Language), ext ∈ l.descriptor.extensions →
      ext ∈ m.descriptor.extensions → l = m) ∧
    ∀ table : List Language, table.Perm all → ∀ p, ofPathIn table p = ofPath p := by
  refine ⟨?_, ?_, ?_, ?_, ?_, ?_⟩
  · intro p hp
    exact ofPath_eq_unsupported hp
  · intro p s hs l
    exact ofPath_eq_iff hs
  · intro p q a b ha hb h
    exact ofPath_congr ha hb h
  · intro name l m hl hm
    exact eq_of_mem_column fileName_unique hl hm
  · intro ext l m hl hm
    exact eq_of_mem_column extension_unique hl hm
  · intro table htable p
    exact ofPathIn_of_perm htable p

/-- A glob wins over the extension, whatever stands before the name and whatever names
nothing after it. -/
theorem path_resolution_closed_form_makefile :
    (Path.ofString "src/../.x/MAKEFILE.py//./").IsFinal (encode "MAKEFILE.py") ∧
    Resolves "MAKEFILE.py".toLower .make ∧
    ofPath (Path.ofString "src/../.x/MAKEFILE.py//./") = .make := by
  have hfinal : (Path.ofString "src/../.x/MAKEFILE.py//./").IsFinal (encode "MAKEFILE.py") :=
    Path.fileName_eq_some_iff.1 (by decide +kernel)
  have hlower : "MAKEFILE.py".toLower = "makefile." ++ "py" := by decide +kernel
  have hresolves : Resolves "MAKEFILE.py".toLower .make := by
    refine .makefile ?_ ⟨"py", hlower⟩
    rintro ⟨l, hl⟩
    rw [hlower] at hl
    revert hl
    cases l <;> decide
  exact ⟨hfinal, hresolves, (path_resolution_closed_form.2.1 _ _ hfinal .make).2 hresolves⟩

end Language

end SourceOutline
