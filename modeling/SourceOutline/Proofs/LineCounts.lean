import SourceOutline.Proofs.Containers
import SourceOutline.Proofs.Utf8

/-!
# Counting Lines

The number of lines of a source is counted on its text, and the text is what the decoder
makes of the bytes, where each ill-formed part is replaced. The same number can be read
off the bytes: one for each line feed, and one more for a last line that has none. So it
does not matter what is replaced, nor where.

`linesEndedBy` is this count for sequences of anything. A piece that ends no line counts
only if nothing comes after it (`linesEndedBy_append`), whatever it is and however long.
The decoder cuts the bytes into such pieces and line feeds, and puts one character in the
place of each: the text has as many lines as the bytes because a piece and what replaces
it count the same.

## Main results

* `Text.exists_illFormed_of_parts`: what the decoder replaces is not empty and holds no
  byte below 128.
* `Text.linesEndedBy_lossyChars`: decoding keeps the number of lines.
* `Text.length_rawLines`: the lines of a text are as many as its line feeds and its
  unfinished last line.
* `lineCount_eq_lineFeeds`: the number of lines in the outline of a source.
-/

namespace SourceOutline

namespace Text

open Utf8

/-! ### Lines of a sequence -/

section Lines

variable {α : Type} {isEnd : α → Bool}

/-- The number of lines of a sequence in which some elements end a line: one for each of
these, and one more for what comes after the last of them. -/
def linesEndedBy (isEnd : α → Bool) (xs : List α) : Nat :=
  xs.countP isEnd + if xs.getLast?.any (!isEnd ·) then 1 else 0

/-- An end is a line of its own, with what stands before it. -/
theorem linesEndedBy_cons_of_end {x : α} (hx : isEnd x = true) (xs : List α) :
    linesEndedBy isEnd (x :: xs) = linesEndedBy isEnd xs + 1 := by
  cases xs with
  | nil => simp [linesEndedBy, hx]
  | cons y ys =>
    simp only [linesEndedBy, List.countP_cons_of_pos hx, List.getLast?_cons_cons]
    omega

/-- **A piece that ends no line** counts for `linesEndedBy` as one only at the end of the
sequence. -/
theorem linesEndedBy_append {piece : List α} (hne : piece ≠ [])
    (hpiece : ∀ x ∈ piece, isEnd x = false) (rest : List α) :
    linesEndedBy isEnd (piece ++ rest) = if rest = [] then 1 else linesEndedBy isEnd rest := by
  have hcount : piece.countP isEnd = 0 := List.countP_eq_zero.2 (by simpa using hpiece)
  split
  next hrest =>
    have hlast : isEnd (piece.getLast hne) = false := hpiece _ (List.getLast_mem hne)
    simp [linesEndedBy, hrest, hcount, List.getLast?_eq_some_getLast hne, hlast]
  next hrest =>
    rw [linesEndedBy, linesEndedBy, List.countP_append, hcount,
      List.getLast?_append_of_ne_nil _ hrest, Nat.zero_add]

end Lines

/-- **The lines of a text** by `rawLines` are as many as its line feeds and its unfinished
last line. -/
theorem length_rawLines (cs : List Char) :
    (rawLines cs).length = linesEndedBy (· == '\n') cs := by
  induction cs with
  | nil => rfl
  | cons c cs ih =>
    rw [rawLines]
    split
    next hc => simp [linesEndedBy_cons_of_end, hc, ih]
    next hc =>
      have hopen : ∀ x ∈ [c], (x == '\n') = false := by simpa using hc
      have hpiece := linesEndedBy_append (List.cons_ne_nil c []) hopen cs
      rw [List.singleton_append] at hpiece
      rw [hpiece, ← ih]
      -- there are no lines only where there is no text
      cases hlines : rawLines cs with
      | nil =>
        have hnil : cs = [] := by rw [← flatten_rawLines cs, hlines, List.flatten_nil]
        simp [hnil]
      | cons line lines =>
        have hne : cs ≠ [] := by
          rintro rfl
          cases hlines
        simp [hne]

/-! ### What the decoder replaces -/

/-- A byte that may come second after `lead` belongs to a longer character. -/
theorem Utf8.le_of_lead {a b lo hi : UInt8} {width : Width}
    (hlead : lead a = some (width, lo, hi))
    (hb : ¬(!(decide (lo ≤ b) && decide (b ≤ hi))) = true) : 0x80 ≤ b := by
  have hlo : 0x80 ≤ lo := by
    rw [lead_eq] at hlead
    split_ifs at hlead <;> obtain ⟨-, rfl, -⟩ := hlead <;> decide
  have hb : lo ≤ b ∧ b ≤ hi := by simpa using hb
  exact UInt8.le_trans hlo hb.1

/-- **What the decoder replaces** is not empty, and all of its bytes belong to longer
characters. -/
theorem exists_illFormed_of_parts {bytes : Bytes} {found : List (Option Char)}
    (h : parts bytes = none :: found) :
    ∃ form rest, form ≠ [] ∧ (∀ b ∈ form, 0x80 ≤ b) ∧ bytes = form ++ rest ∧
      parts rest = found := by
  have hcut (form rest : Bytes) (hne : form ≠ []) (hform : ∀ b ∈ form, 0x80 ≤ b)
      (h : none :: parts rest = none :: found) :
      ∃ form' rest', form' ≠ [] ∧ (∀ b ∈ form', 0x80 ≤ b) ∧ form ++ rest = form' ++ rest' ∧
        parts rest' = found :=
    ⟨form, rest, hne, hform, rfl, List.tail_eq_of_cons_eq h⟩
  have htwo {a b lo hi : UInt8} {width : Width} (ha : ¬a < 0x80)
      (hlead : lead a = some (width, lo, hi))
      (hb : ¬(!(decide (lo ≤ b) && decide (b ≤ hi))) = true) : ∀ x ∈ [a, b], 0x80 ≤ x := by
    simpa using ⟨UInt8.not_lt.1 ha, le_of_lead hlead hb⟩
  have hthree {a b c : UInt8} (hab : ∀ x ∈ [a, b], 0x80 ≤ x) (hc : ¬(!continues c) = true) :
      ∀ x ∈ [a, b, c], 0x80 ≤ x := by
    simp_all [continues]
  have hnil : parts [] = [] := by rw [parts]
  revert h
  fun_cases parts bytes
  -- one byte, since it announces nothing or the second one is missing
  case case3 a rest ha _ => exact hcut [a] rest (by simp) (by simpa using ha)
  case case4 a ha _ _ _ _ => exact hnil ▸ hcut [a] [] (by simp) (by simpa using ha)
  case case5 a ha _ _ _ _ b rest _ => exact hcut [a] (b :: rest) (by simp) (by simpa using ha)
  -- two bytes, since the third one is missing
  case case7 a ha _ _ b hb hlead | case10 a ha _ _ b hb hlead =>
    exact hnil ▸ hcut [a, b] [] (by simp) (htwo ha hlead hb)
  case case8 a ha _ _ b hb c rest _ hlead | case11 a ha _ _ b hb c rest _ hlead =>
    exact hcut [a, b] (c :: rest) (by simp) (htwo ha hlead hb)
  -- three bytes, since the fourth one is missing
  case case12 a ha _ _ b hb c hc hlead =>
    exact hnil ▸ hcut [a, b, c] [] (by simp) (hthree (htwo ha hlead hb) hc)
  case case13 a ha _ _ b hb c hc d rest _ hlead =>
    exact hcut [a, b, c] (d :: rest) (by simp) (hthree (htwo ha hlead hb) hc)
  -- elsewhere the decoder finds nothing or a character
  all_goals
    intro h
    cases h

/-- What `Spells` a character is a line feed, or else there is none in it and the
character is another one. -/
theorem Utf8.Spells.lineFeed_cases {char : Char} {form : Bytes} (h : Spells char form) :
    (char = '\n' ∧ form = [0x0A]) ∨
    (char ≠ '\n' ∧ form ≠ [] ∧ ∀ b ∈ form, b.toNat ≠ 0x0A) := by
  by_cases hchar : char = '\n'
  · subst hchar
    exact Or.inl ⟨rfl, eq_utf8EncodeChar_of_spells h⟩
  · refine Or.inr ⟨hchar, ?_⟩
    rcases h.low_or_high with ⟨a, -, rfl, rfl⟩ | ⟨-, hne, hform⟩
    · refine ⟨by simp, ?_⟩
      rintro b hb hfeed
      obtain rfl := List.mem_singleton.1 hb
      rw [hfeed] at hchar
      exact hchar rfl
    · refine ⟨hne, fun b hb hfeed => ?_⟩
      have hhigh := hform b hb
      omega

/-- **`lossyChars` keeps the number of lines**, also where it replaces ill-formed
parts. -/
theorem linesEndedBy_lossyChars (bytes : Bytes) :
    linesEndedBy (· == '\n') (lossyChars bytes) = linesEndedBy (· == 0x0A) bytes := by
  have hnil (rest : Bytes) : lossyChars rest = [] ↔ rest = [] := by
    rw [lossyChars, List.map_eq_nil_iff, parts_eq_nil_iff]
  -- a piece of the bytes and the character in its place count the same
  have hpiece (char : Char) (form rest : Bytes) (hchar : char ≠ '\n') (hne : form ≠ [])
      (hform : ∀ b ∈ form, b.toNat ≠ 0x0A)
      (ih : linesEndedBy (· == '\n') (lossyChars rest) = linesEndedBy (· == 0x0A) rest) :
      linesEndedBy (· == '\n') (char :: lossyChars rest) =
        linesEndedBy (· == 0x0A) (form ++ rest) := by
    have hform : ∀ b ∈ form, (b == 0x0A) = false := by simpa [← UInt8.toNat_inj] using hform
    rw [linesEndedBy_append hne hform, ← List.singleton_append,
      linesEndedBy_append (List.cons_ne_nil char []) (by simpa using hchar), ih]
    simp only [hnil]
  generalize hparts : parts bytes = found
  induction found generalizing bytes with
  | nil =>
    obtain rfl := parts_eq_nil_iff.1 hparts
    rfl
  | cons part found ih =>
    rw [lossyChars, hparts, List.map_cons]
    cases part with
    | none =>
      obtain ⟨form, rest, hne, hform, rfl, rfl⟩ := exists_illFormed_of_parts hparts
      refine hpiece _ form rest (by decide) hne (fun b hb hfeed => ?_) (ih rest rfl)
      have hlow : 0x80 ≤ b.toNat := UInt8.le_iff_toNat_le.1 (hform b hb)
      omega
    | some char =>
      obtain ⟨form, rest, hspells, rfl, rfl⟩ := exists_spells_of_parts hparts
      rcases hspells.lineFeed_cases with ⟨rfl, rfl⟩ | ⟨hchar, hne, hform⟩
      · calc linesEndedBy (· == '\n') ('\n' :: lossyChars rest)
          _ = linesEndedBy (· == '\n') (lossyChars rest) + 1 := linesEndedBy_cons_of_end rfl _
          _ = linesEndedBy (· == 0x0A) rest + 1 := by rw [ih rest rfl]
          _ = linesEndedBy (· == 0x0A) (0x0A :: rest) :=
            (linesEndedBy_cons_of_end rfl rest).symm
      · exact hpiece char form rest hchar hne hform (ih rest rfl)

end Text

/-! ### Outlines -/

/-- The number of lines in the outline of `analyze` is that of the bytes of the source. -/
theorem Outline.lineCount_of_analyze {Q : Type} {handler : QueryHandler Q} {host : Host Q}
    {t : SyntaxTree} {strict : Bool} {outline : Outline}
    (h : (analyze handler host t strict).1 = .ok outline) :
    outline.metadata.lineCount = Text.linesEndedBy (· == 0x0A) t.source := by
  obtain ⟨findings, parts, -, -, rfl⟩ := exists_parts_of_analyze h
  have hcount : (ofParts t findings.log parts).metadata.lineCount =
      Text.lineCount (Text.lossyChars t.source) := rfl
  rw [hcount, Text.lineCount, Text.length_lines, Text.length_rawLines,
    Text.linesEndedBy_lossyChars]

/-- **The number of lines of a source** that was parsed is the number of its line feeds,
and one more if it is not empty and its last byte is no line feed. Nothing else about the
bytes matters: they may hold carriage returns, and they need not be a text. -/
theorem lineCount_eq_lineFeeds {Q : Type} (a : Analyzer Q) (host : Host Q) (content : Bytes)
    (language : Language) {outline : Outline}
    (h : (a.parseContent host content language).1 = .ok outline)
    (hparsed : outline.status ≠ .unparsed) :
    outline.metadata.lineCount =
      content.count 0x0A + if content ≠ [] ∧ content.getLast? ≠ some 0x0A then 1 else 0 := by
  rcases Analyzer.parseContent_eq_ok h with ⟨e, -, rfl⟩ | ⟨t, ht, hanalyze⟩
  · exact absurd rfl hparsed
  · rw [Analyzer.parse_fst] at ht
    obtain ⟨binding, tree, -, -, -, rfl⟩ := Analyzer.treeFrom_eq_ok ht
    have hlast : (content.getLast?.any fun b => !(b == 0x0A)) = true ↔
        content ≠ [] ∧ content.getLast? ≠ some 0x0A := by
      rw [← List.getLast?_isSome]
      cases content.getLast? <;> simp
    rw [Outline.lineCount_of_analyze hanalyze, Text.linesEndedBy, List.count_eq_countP]
    simp only [SyntaxTree.ofTree, hlast]

/-- The source has a character that is cut off by a line feed, a line feed after a
carriage return, and at its end a character that is written with too many bytes: three
lines. -/
theorem lineCount_eq_lineFeeds_ill_formed :
    let engine := Query.engine (fun _ _ _ => some (.node default [])) fun _ _ => {}
    let a : Analyzer Query :=
      { handler := { service := .ofLoader { searchPaths := [] }, registry := .empty } }
    let host : Host Query := { files := .empty, engine, clocks := fun _ _ => 0 }
    let content : Bytes := [0xE2, 0x82, 0x0A, 0x0D, 0x0A, 0xC0, 0x80]
    ∃ outline, (a.parseContent host content .python).1 = .ok outline ∧
      outline.status = .parsedOk ∧
      outline.metadata.lineCount = 3 := by
  intro engine a host content
  have hsound : a.handler.Sound host.engine := QueryHandler.sound_of_compiled_eq_nil rfl
  have hexists : ∃ outline, (a.parseContent host content .python).1 = .ok outline :=
    Analyzer.exists_parseContent_eq_ok hsound rfl
  obtain ⟨outline, houtline⟩ := hexists
  have hstatus : outline.status = .parsedOk := by
    rcases Analyzer.parseContent_eq_ok houtline with ⟨e, he, -⟩ | ⟨t, ht, hanalyze⟩
    · cases he
    · obtain rfl := Except.ok.inj ht
      obtain ⟨findings, parts, -, -, rfl⟩ := Outline.exists_parts_of_analyze hanalyze
      rfl
  refine ⟨outline, houtline, hstatus, ?_⟩
  rw [lineCount_eq_lineFeeds a host content .python houtline (by rw [hstatus]; decide)]
  decide

end SourceOutline
