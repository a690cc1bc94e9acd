import SourceOutline.Analyzer
import SourceOutline.Proofs.PathResolution

/-!
# Paths With a Hint

A file is analysed in the language of its path, and its content is looked at only if the
path has no hint: no extension and no listed name. The test for a hint repeats a part of
the resolution and leaves out the globs. It still holds of all paths that are resolved,
because a name that a glob accepts has an extension: each glob has a dot in it that is not
its first character (`hinted_of_resolves`).

`Hinted` says of the bytes of a path what the test decides.

## Main results

* `hasHint_iff`: the test for a hint.
* `hinted_of_ofPath`: a path that is resolved has a hint.
* `path_hint_decides`: **the language in which a file is analysed.**
-/

namespace SourceOutline

namespace Language

open Text

variable {p : Path} {s : String}

/-- The final component has a dot after its first byte, or is listed. -/
def Hinted (p : Path) : Prop :=
  ∃ name, p.IsFinal name ∧
    ((∃ before rest, before ≠ [] ∧ name = before ++ Path.dot :: rest) ∨ ∃ s, name = encode s ∧
      Listed s.toLower)

/-- `fileNameIn?` finds a language for the names that are listed. -/
theorem isSome_fileNameIn?_iff : (fileNameIn? all s).isSome = true ↔ Listed s.toLower := by
  rw [fileNameIn?, List.find?_isSome]
  constructor
  · rintro ⟨l, -, hl⟩
    exact ⟨l, by simpa using hl⟩
  · rintro ⟨l, hl⟩
    exact ⟨l, mem_all l, by simpa using hl⟩

/-- A component is a listed name only if it is a text. -/
theorem isSome_decoded_fileNameIn?_iff {name : Bytes} :
    ((decode? name).bind (fileNameIn? all)).isSome = true ↔ ∃ s, name = encode s ∧
      Listed s.toLower := by
  cases hdecode : decode? name with
  | none =>
    have hno : ∀ s, name ≠ encode s := by
      intro s hs
      rw [decode?_eq_some_iff.2 hs] at hdecode
      cases hdecode
    simp [hno]
  | some s =>
    rw [decode?_eq_some_iff] at hdecode
    subst hdecode
    rw [Option.bind_some, isSome_fileNameIn?_iff]
    constructor
    · intro h
      exact ⟨s, rfl, h⟩
    · rintro ⟨t, ht, h⟩
      rwa [encode_inj.1 ht]

/-- **The test for a hint**: `hasHint` decides `Hinted`. -/
theorem hasHint_iff : hasHint p = true ↔ Hinted p := by
  rw [hasHint, Bool.or_eq_true, Path.extension]
  cases hname : p.fileName with
  | none =>
    have hno : ∀ name, ¬ p.IsFinal name := by
      intro name hfinal
      rw [Path.fileName_eq_some_iff.2 hfinal] at hname
      cases hname
    simp [Hinted, hno]
  | some name =>
    have hfinal : p.IsFinal name := Path.fileName_eq_some_iff.1 hname
    rw [Option.bind_some, Option.bind_some, Path.isSome_extensionOfName_iff,
      isSome_decoded_fileNameIn?_iff]
    constructor
    · intro h
      exact ⟨name, hfinal, h⟩
    · rintro ⟨other, hother, h⟩
      rwa [hother.unique hfinal] at h

/-- A name that is resolved has an extension or is listed. -/
theorem hinted_of_resolves {l : Language} (hfinal : p.IsFinal (encode s))
    (h : Resolves s.toLower l) (hl : l ≠ .unsupported) : Hinted p := by
  have hext : (∃ ext, HasExtension s.toLower ext) → Hinted p := by
    rintro ⟨_, hlower⟩
    obtain ⟨e, he, -⟩ := hasExtension_toLower_iff.1 hlower
    refine ⟨encode s, hfinal, Or.inl (Path.isSome_extensionOfName_iff.1 ?_)⟩
    rw [extensionOfName_encode_iff.2 ⟨e, he, rfl⟩]
    rfl
  cases h with
  | listed h => exact ⟨encode s, hfinal, Or.inr ⟨s, rfl, l, h⟩⟩
  | dockerfile _ h =>
    obtain ⟨rest, h | h⟩ := h
    · exact hext (h ▸ @exists_hasExtension "dockerfile" (by decide) rest)
    · exact hext (h ▸ @exists_hasExtension "containerfile" (by decide) rest)
  | makefile _ h =>
    obtain ⟨rest, h⟩ := h
    exact hext (h ▸ @exists_hasExtension "makefile" (by decide) rest)
  | extension _ _ _ h _ => exact hext ⟨_, h⟩
  | unknown => exact absurd rfl hl

/-- **A path that `ofPath` resolves has a hint.** -/
theorem hinted_of_ofPath (h : ofPath p ≠ .unsupported) : Hinted p := by
  by_cases hfinal : ∃ s, p.IsFinal (encode s)
  · obtain ⟨s, hs⟩ := hfinal
    exact hinted_of_resolves hs ((ofPath_eq_iff hs).1 rfl) h
  · exact absurd (ofPath_eq_unsupported hfinal) h

end Language

namespace Analyzer

open Text

/-- `languageOfFile`, the language in which a file is analysed, by the hint of its
path. -/
theorem languageOfFile_eq (path : Path) (content : Bytes) :
    languageOfFile path content =
      if Language.hasHint path then Language.ofPath path
      else Language.detect (lossy content) := by
  have hdetect : Language.detectChars (lossyChars content) =
      Language.detect (lossy content) := by
    rw [Language.detect, lossy, String.toList_ofList]
  rw [languageOfFile, hdetect]
  cases hhint : Language.hasHint path with
  | true => simp
  | false =>
    have hpath : Language.ofPath path = .unsupported := by
      by_contra h
      rw [Language.hasHint_iff.2 (Language.hinted_of_ofPath h)] at hhint
      cases hhint
    simp [hpath, Language.isUnsupported]

/-- `parseFile` parses the content of a file that can be read, in the language of the
file. -/
theorem parseFile_of_readBytes {Q : Type} {a : Analyzer Q} {host : Host Q} {path : Path}
    {content : Bytes} (h : host.files.readBytes path = .ok content) :
    a.parseFile host path = a.parseContent host content (languageOfFile path content) := by
  rw [parseFile, h]

/-- **The language in which a file is analysed** is that of its path, if the path has a
hint, and else what its content is recognised as. A path that is resolved has a hint, so
its content does not overrule it; and the content is not looked at where the path has an
extension or a listed name. -/
theorem path_hint_decides (path : Path) :
    (Language.hasHint path = true ↔ Language.Hinted path) ∧
    (Language.ofPath path ≠ .unsupported → Language.hasHint path = true) ∧
    ∀ {Q : Type} (a : Analyzer Q) (host : Host Q) (content : Bytes),
      host.files.readBytes path = .ok content →
      a.parseFile host path = a.parseContent host content
        (if Language.hasHint path then Language.ofPath path
          else Language.detect (lossy content)) ∧
      (Language.ofPath path ≠ .unsupported →
        a.parseFile host path = a.parseContent host content (Language.ofPath path)) ∧
      (Language.Hinted path → a.parseFile host path =
        a.parseContent host content (Language.ofPath path)) := by
  have hhint : Language.ofPath path ≠ .unsupported → Language.hasHint path = true :=
    fun h => Language.hasHint_iff.2 (Language.hinted_of_ofPath h)
  refine ⟨Language.hasHint_iff, hhint, fun {Q} a host content hread => ?_⟩
  have hfile : a.parseFile host path = a.parseContent host content
      (if Language.hasHint path then Language.ofPath path
        else Language.detect (lossy content)) := by
    rw [parseFile_of_readBytes hread, languageOfFile_eq]
  refine ⟨hfile, fun h => ?_, fun h => ?_⟩
  · rw [hfile, if_pos (hhint h)]
  · rw [hfile, if_pos (Language.hasHint_iff.2 h)]

/-- A name that only a glob accepts, over a content that names another language. -/
theorem path_hint_decides_glob :
    let path := Path.ofString "/Dockerfile.dev"
    let content := encode "#!/bin/sh\n"
    let host : Host Unit :=
      { files := FileTree.empty.write path (.file content)
        engine := Inhabited.default
        clocks := fun _ _ => 0 }
    let a : Analyzer Unit :=
      { handler := { service := .ofLoader { searchPaths := [] }, registry := .empty } }
    host.files.readBytes path = .ok content ∧ Language.detect (lossy content) = .bash ∧
      Language.Hinted path ∧
      a.parseFile host path = a.parseContent host content .dockerfile := by
  intro path content host a
  have hread : host.files.readBytes path = .ok content := by decide +kernel
  have hpath : Language.ofPath path = .dockerfile := by decide +kernel
  obtain ⟨hiff, hhint, hfile⟩ := path_hint_decides path
  have hne : Language.ofPath path ≠ .unsupported := by rw [hpath]; decide
  refine ⟨hread, by decide +kernel, hiff.1 (hhint hne), ?_⟩
  rw [(hfile a host content hread).2.1 hne, hpath]

end Analyzer

end SourceOutline
