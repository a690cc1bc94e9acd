import SourceOutline.Proofs.Containers
import SourceOutline.Proofs.Spellings
import SourceOutline.Proofs.Utf8

/-!
# Fingerprints

The metadata of an outline are sealed with a fingerprint, which is the hash of their own
text. This module says that the text is as good as the metadata: metadata with one text
agree in everything but the fingerprint. So a fingerprint stands for all the rest, as far
as the hash can be trusted with the two texts at hand (`Blake3.Collide`).

Metadata are first turned into data, then written, then encoded. The last two steps lose
nothing (`Json.render_inj`, `Text.encode_inj`). The first one writes a category as its
name, and a custom category may have the name of one that is built in. But no name stands
for such a category (`Category.IsNamed.name_inj`), and an analysis notes no others
(`RunLog.Named.runCategories`).

## Main results

* `Blake3.hexHash_inj`: a hash is told by its hexadecimal form.
* `Metadata.encode_sealedText_inj`: what is hashed tells the metadata.
* `Outline.Given.exists_sealed`: the metadata of all outlines are sealed.
* `fingerprint_separates`: metadata, their texts and their fingerprints.
-/

namespace SourceOutline

namespace Blake3

/-- Two byte texts that are not the same have one hash. -/
def Collide (bytes bytes' : Bytes) : Prop :=
  bytes ≠ bytes' ∧ hash bytes = hash bytes'

/-- The digits of the numbers below 16 differ. -/
theorem digitChar_inj : ∀ m < 16, ∀ n < 16, Nat.digitChar m = Nat.digitChar n → m = n := by
  decide

/-- A byte is told by the two digits of `hexByte`. -/
theorem hexByte_inj {b b' : UInt8} (h : hexByte b = hexByte b') : b = b' := by
  obtain ⟨hhigh, hlow⟩ := List.cons.inj h
  have hb := b.toNat_lt
  have hb' := b'.toNat_lt
  have hhigh := digitChar_inj _ (by omega) _ (by omega) hhigh
  have hlow := digitChar_inj _ (by omega) _ (by omega) (List.cons.inj hlow).1
  exact UInt8.toNat_inj.1 (by omega)

/-- Bytes are told by their digits. -/
theorem flatMap_hexByte_inj {bytes bytes' : Bytes}
    (h : bytes.flatMap hexByte = bytes'.flatMap hexByte) :
    bytes = bytes' := by
  induction bytes generalizing bytes' with
  | nil =>
    cases bytes' with
    | nil => rfl
    | cons b' bytes' => cases h
  | cons b bytes ih =>
    cases bytes' with
    | nil => cases h
    | cons b' bytes' =>
      rw [List.flatMap_cons, List.flatMap_cons] at h
      obtain ⟨hb, hbytes⟩ := List.append_inj h rfl
      rw [hexByte_inj hb, ih hbytes]

/-- **A hash is told by `hexHash`, its hexadecimal form.** -/
theorem hexHash_inj {bytes bytes' : Bytes} :
    hexHash bytes = hexHash bytes' ↔ hash bytes = hash bytes' := by
  constructor
  · intro h
    exact flatMap_hexByte_inj (String.ofList_inj.1 h)
  · intro h
    rw [hexHash, hexHash, h]

end Blake3

/-! ### Metadata and their texts -/

namespace Metadata

/-- All categories of metadata are such that names stand for them. -/
structure Named (m : Metadata) : Prop where
  unsupported : ∀ category ∈ m.unsupportedCategories, category.IsNamed
  truncated : ∀ category ∈ m.truncatedCategories, category.IsNamed

/-- There are no floating point numbers in texts. -/
theorem exact_strs (texts : List String) : (Data.strs texts).Exact := by
  refine .seq fun d hd => ?_
  obtain ⟨text, -, rfl⟩ := List.mem_map.1 hd
  exact .str text

theorem strs_inj {texts texts' : List String} (h : Data.strs texts = Data.strs texts') :
    texts = texts' :=
  List.map_injective_iff.2 (fun _ _ => Data.str.inj) (Data.seq.inj h)

theorem nat_inj {n n' : Nat} (h : Data.nat n = Data.nat n') : n = n' :=
  Int.ofNat.inj (Data.int.inj h)

/-- There are no floating point numbers in positions. -/
theorem exact_positions (positions : List Position) :
    (Data.seq (positions.map Position.toData)).Exact := by
  refine .seq fun d hd => ?_
  obtain ⟨position, -, rfl⟩ := List.mem_map.1 hd
  refine .map ?_
  simp only [List.forall_mem_cons]
  exact ⟨.int _, .int _, List.forall_mem_nil _⟩

/-- Positions are told by their data. -/
theorem positions_inj {positions positions' : List Position}
    (h : Data.seq (positions.map Position.toData) =
      Data.seq (positions'.map Position.toData)) :
    positions = positions' := by
  refine List.map_injective_iff.2 (fun a b hab => ?_) (Data.seq.inj h)
  have hentries := Data.map.inj hab
  simp only [List.cons.injEq, Prod.mk.injEq, true_and, and_true] at hentries
  obtain ⟨hline, hcolumn⟩ := hentries
  cases a
  cases b
  rw [Position.mk.injEq]
  exact ⟨nat_inj hline, nat_inj hcolumn⟩

/-- There are no floating point numbers in `toData` of metadata. -/
theorem exact_toData (m : Metadata) : m.toData.Exact := by
  refine .map ?_
  simp only [List.forall_mem_cons]
  exact ⟨exact_strs _, exact_strs _, exact_strs _, .int _, .int _, .bool _, .bool _,
    exact_positions _, exact_positions _, exact_strs _, exact_strs _, .int _, .str _,
    List.forall_mem_nil _⟩

/-- **Metadata are told by their data**: `toData` is injective where names stand for
categories. -/
theorem toData_inj {m n : Metadata} (hm : m.Named) (hn : n.Named) (h : m.toData = n.toData) :
    m = n := by
  have hentries := Data.map.inj h
  simp only [List.cons.injEq, Prod.mk.injEq, true_and, and_true] at hentries
  obtain ⟨hfunctions, hclasses, himports, hnamed, hanonymous, herrors, hmissing,
      herrorLocations, hmissingLocations,
    hunsupported, htruncated, hlines, hfingerprint⟩ := hentries
  cases m
  cases n
  rw [Metadata.mk.injEq]
  exact ⟨strs_inj hfunctions, strs_inj hclasses, strs_inj himports, nat_inj hnamed,
    nat_inj hanonymous, Data.bool.inj herrors, Data.bool.inj hmissing,
    positions_inj herrorLocations, positions_inj hmissingLocations,
    Category.map_name_inj hm.unsupported hn.unsupported (strs_inj hunsupported),
    Category.map_name_inj hm.truncated hn.truncated (strs_inj htruncated), nat_inj hlines,
    Data.str.inj hfingerprint⟩

/-- **What is hashed, `sealedText`, tells the metadata**, the fingerprint aside. -/
theorem encode_sealedText_inj {m n : Metadata} (hm : m.Named) (hn : n.Named) :
    Text.encode m.sealedText = Text.encode n.sealedText ↔
    n = { m with fingerprint := n.fingerprint } := by
  rw [Text.encode_inj, sealedText, sealedText,
    Json.render_inj (exact_toData _) (exact_toData _)]
  constructor
  · intro h
    have heq : { m with fingerprint := "" } = { n with fingerprint := "" } :=
      toData_inj ⟨hm.unsupported, hm.truncated⟩ ⟨hn.unsupported, hn.truncated⟩ h
    exact congrArg (fun k : Metadata => { k with fingerprint := n.fingerprint }) heq.symm
  · intro h
    rw [h]

end Metadata

/-! ### Metadata of outlines -/

namespace RunLog

variable {log log' : RunLog} {strict : Bool} {category : Category}

/-- All categories that are noted are such that names stand for them. -/
structure Named (log : RunLog) : Prop where
  unsupported : ∀ category ∈ log.unsupported, category.IsNamed
  truncated : ∀ category ∈ log.truncated, category.IsNamed

/-- What `record` notes of one category is that category. -/
theorem Named.record (h : log.Named) (hcategory : category.IsNamed)
    {outcome : Except QueryError CategoryMatches} {found : Option CategoryMatches}
    (hrecord : log.record strict category outcome = .ok (found, log')) :
    log'.Named := by
  have hsnoc {categories : List Category}
      (hcategories : ∀ category ∈ categories, category.IsNamed) :
      ∀ other ∈ categories ++ [category], other.IsNamed := by
    simpa [or_imp, forall_and] using ⟨hcategories, hcategory⟩
  rw [record.eq_def] at hrecord
  split at hrecord
  · split at hrecord
    · obtain ⟨-, rfl⟩ := Prod.mk.inj (Except.ok.inj hrecord)
      exact ⟨h.unsupported, hsnoc h.truncated⟩
    · obtain ⟨-, rfl⟩ := Prod.mk.inj (Except.ok.inj hrecord)
      exact h
  · obtain ⟨-, rfl⟩ := Prod.mk.inj (Except.ok.inj hrecord)
    exact ⟨hsnoc h.unsupported, h.truncated⟩
  · split at hrecord
    · cases hrecord
    · obtain ⟨-, rfl⟩ := Prod.mk.inj (Except.ok.inj hrecord)
      exact ⟨h.unsupported, h.truncated⟩
  · cases hrecord

/-- What `runCategories` notes of some categories are those categories. -/
theorem Named.runCategories {Q : Type} {host : Host Q} {t : SyntaxTree}
    {categories : List Category} {handler : QueryHandler Q}
    {founds : List (Option CategoryMatches)} (h : log.Named)
    (hcategories : ∀ category ∈ categories, category.IsNamed)
    (hruns : (QueryHandler.runCategories host t strict categories handler log).1 =
      .ok (founds, log')) :
    log'.Named := by
  induction categories generalizing handler log founds with
  | nil =>
    obtain ⟨-, rfl⟩ := Prod.mk.inj (Except.ok.inj hruns)
    exact h
  | cons category categories ih =>
    obtain ⟨hcategory, hcategories⟩ := List.forall_mem_cons.1 hcategories
    obtain ⟨found, next, others, -, hrecord, hothers⟩ :=
      Outline.exists_of_runCategories_cons hruns
    exact ih (h.record hcategory hrecord) hcategories hothers

end RunLog

namespace Outline

/-- An outline that some analyzer gives for some source. -/
def Given (outline : Outline) : Prop :=
  ∃ (Q : Type) (a : Analyzer Q) (host : Host Q) (content : Bytes) (language : Language),
    (a.parseContent host content language).1 = .ok outline

/-- **The metadata of all outlines are sealed**, and their categories are such that names
stand for them. -/
theorem Given.exists_sealed {outline : Outline} (h : outline.Given) :
    ∃ m : Metadata, m.Named ∧ outline.metadata = m.sealed := by
  obtain ⟨Q, a, host, content, language, houtline⟩ := h
  rcases Analyzer.parseContent_eq_ok houtline with ⟨e, -, rfl⟩ | ⟨t, -, hanalyze⟩
  · exact ⟨{}, ⟨List.forall_mem_nil _, List.forall_mem_nil _⟩, rfl⟩
  · obtain ⟨founds, log, hruns, hassemble⟩ := exists_runs_of_analyze hanalyze
    obtain ⟨parts, -, rfl⟩ := exists_parts_of_assemble hassemble
    have hbuiltin : ∀ category ∈ analyzedCategories, category ∈ Category.builtins := by decide
    have hnew : RunLog.Named {} := ⟨List.forall_mem_nil _, List.forall_mem_nil _⟩
    have hlog := hnew.runCategories
      (fun category hcategory => Category.isNamed_of_mem_builtins
        (hbuiltin category hcategory)) hruns
    exact ⟨_, ⟨hlog.unsupported, hlog.truncated⟩, rfl⟩

end Outline

/-- **Fingerprints separate metadata.** Let all categories of two metadata be such that
names stand for them. What is hashed of them is the same just if they agree in all but the
fingerprint. Sealing again changes nothing, and sealing does not depend on the fingerprint
before.

So if two outlines that are given for any sources have one fingerprint, then they have the
same metadata, unless the hash of the two texts that were hashed collides. -/
theorem fingerprint_separates {m n : Metadata} (hm : m.Named) (hn : n.Named) :
    (Text.encode m.sealedText = Text.encode n.sealedText ↔
      n = { m with fingerprint := n.fingerprint }) ∧
    m.sealed.sealed = m.sealed ∧
    (∀ fingerprint, { m with fingerprint := fingerprint }.sealed = m.sealed) ∧
    ∀ outline outline' : Outline, outline.Given → outline'.Given →
      outline.metadata.fingerprint = outline'.metadata.fingerprint →
      outline.metadata = outline'.metadata ∨
        Blake3.Collide (Text.encode outline.metadata.sealedText)
          (Text.encode outline'.metadata.sealedText) := by
  refine ⟨Metadata.encode_sealedText_inj hm hn, m.sealed_sealed, fun _ => rfl, ?_⟩
  intro outline outline' hgiven hgiven' hfingerprint
  obtain ⟨k, hk, hsealed⟩ := hgiven.exists_sealed
  obtain ⟨l, hl, hsealed'⟩ := hgiven'.exists_sealed
  rw [hsealed, hsealed'] at hfingerprint ⊢
  have hhash : Blake3.hash (Text.encode k.sealedText) =
      Blake3.hash (Text.encode l.sealedText) :=
    Blake3.hexHash_inj.1 hfingerprint
  by_cases htext : Text.encode k.sealedText = Text.encode l.sealedText
  · left
    rw [(Metadata.encode_sealedText_inj hk hl).1 htext]
    rfl
  · exact Or.inr ⟨htext, hhash⟩

/-- A name with a comma between quotes is not taken for two names. The outlines of a
source without lines and of one with an empty line have different fingerprints, unless
their texts collide. -/
theorem fingerprint_separates_quotes :
    let m : Metadata :=
      { functionNames := ["a\",\"b"], unsupportedCategories := [.ofName "Tests"] }
    let n : Metadata :=
      { functionNames := ["a", "b"], unsupportedCategories := [.ofName "Tests"] }
    let engine := Query.engine (fun _ _ _ => some (.node default [])) fun _ _ => {}
    let a : Analyzer Query :=
      { handler := { service := .ofLoader { searchPaths := [] }, registry := .empty } }
    let host : Host Query := { files := .empty, engine, clocks := fun _ _ => 0 }
    m.Named ∧ n.Named ∧ Text.encode m.sealedText ≠ Text.encode n.sealedText ∧
      ∃ outline outline', (a.parseContent host [] .python).1 = .ok outline ∧
        (a.parseContent host [0x0A] .python).1 = .ok outline' ∧
        (outline.metadata.fingerprint ≠ outline'.metadata.fingerprint ∨
          Blake3.Collide (Text.encode outline.metadata.sealedText)
            (Text.encode outline'.metadata.sealedText)) := by
  intro m n engine a host
  have hm : m.Named := ⟨by simp [m, Category.IsNamed], by simp [m]⟩
  have hn : n.Named := ⟨by simp [n, Category.IsNamed], by simp [n]⟩
  obtain ⟨htext, -, -, hresults⟩ := fingerprint_separates hm hn
  have hsound : a.handler.Sound host.engine := QueryHandler.sound_of_compiled_eq_nil rfl
  have houtline (content : Bytes) : ∃ outline, (a.parseContent host content .python).1 =
      .ok outline ∧
      outline.metadata.lineCount = Text.lineCount (Text.lossyChars content) := by
    have hexists : ∃ outline, (a.parseContent host content .python).1 = .ok outline :=
      Analyzer.exists_parseContent_eq_ok hsound rfl
    obtain ⟨outline, houtline⟩ := hexists
    refine ⟨outline, houtline, ?_⟩
    rcases Analyzer.parseContent_eq_ok houtline with ⟨e, he, -⟩ | ⟨t, ht, hanalyze⟩
    · cases he
    · obtain rfl := Except.ok.inj ht
      obtain ⟨findings, parts, -, -, rfl⟩ := Outline.exists_parts_of_analyze hanalyze
      rfl
  obtain ⟨outline, hgiven, hlines⟩ := houtline []
  obtain ⟨outline', hgiven', hlines'⟩ := houtline [0x0A]
  refine ⟨hm, hn, fun heq => ?_, outline, outline', hgiven, hgiven', ?_⟩
  · exact absurd (congrArg Metadata.functionNames (htext.1 heq)) (by decide)
  · by_cases hfingerprint : outline.metadata.fingerprint = outline'.metadata.fingerprint
    · rcases hresults outline outline' ⟨_, a, host, [], .python, hgiven⟩
        ⟨_, a, host, [0x0A], .python, hgiven'⟩
        hfingerprint with hmetadata | hcollide
      · rw [hmetadata, hlines'] at hlines
        exact absurd hlines (by decide)
      · exact Or.inr hcollide
    · exact Or.inl hfingerprint

end SourceOutline
