import Mathlib.Data.List.Find
import Mathlib.Data.List.Nodup
import Mathlib.Data.List.TakeWhile
import SourceOutline.Language.Detection
import SourceOutline.Proofs.Derivatives

/-!
# What an Interpreter Line Names

A text is recognised by the program that its first line names, if that is a known
interpreter, and else by the first content marker that occurs in it. Here the two are said
without the functions that decide them.

`Text.WordsOf` cuts a text into words. `NamesProgram` describes the texts that name a
program: blanks, the mark `#!`, and words of which the first is a path; what stands after
its last slash is the program, unless this is `env`, which leaves the program to the first
of the following words that is no option. `Bears` says that a program word is an
interpreter's name with a version, and `FirstMarker` which content marker comes first.

No name of an interpreter ends in what can be a version. So a program word bears one name
at most, and it does not matter in which order the interpreters are tried.

## Main results

* `Text.words_eq_iff`: the words of a text.
* `firstLine_eq`: the first line is what stands before the first line feed, trimmed.
* `programWord?_firstLine_iff`: the program word of a text.
* `bears_unique`: a program word bears the name of one interpreter at most.
* `interpreter_line_decides`: the language of a text.
-/

namespace SourceOutline

/-! ### Words -/

namespace Text

variable {cs gap word rest : List Char}

/-- A text and its words: maximal runs without blanks, in order. -/
inductive WordsOf : List Char → List (List Char) → Prop
  | nil {gap : List Char} : (∀ c ∈ gap, isBlank c = true) → WordsOf gap []
  | cons {gap word rest : List Char} {ws : List (List Char)} : (∀ c ∈ gap, isBlank c = true) →
      word ≠ [] →
      (∀ c ∈ word, isBlank c = false) → (∀ c, rest.head? = some c → isBlank c = true) →
        WordsOf rest ws →
      WordsOf (gap ++ word ++ rest) (word :: ws)

/-- A blank at the start of a text is in no word. -/
theorem words_cons_of_blank {c : Char} (hc : isBlank c = true) (cs : List Char) :
    words (c :: cs) = words cs := by
  cases cs <;> simp [words, hc]

theorem words_append_of_blank (hgap : ∀ c ∈ gap, isBlank c = true) (cs : List Char) :
    words (gap ++ cs) = words cs := by
  induction gap with
  | nil => rfl
  | cons c gap ih =>
    rw [List.forall_mem_cons] at hgap
    rw [List.cons_append, words_cons_of_blank hgap.1, ih hgap.2]

/-- A run without blanks that cannot be extended is a word. -/
theorem words_append_of_word (hne : word ≠ []) (hword : ∀ c ∈ word, isBlank c = false)
    (hrest : ∀ c, rest.head? = some c → isBlank c = true) :
    words (word ++ rest) = word :: words rest := by
  induction word with
  | nil => exact absurd rfl hne
  | cons c word ih =>
    rw [List.forall_mem_cons] at hword
    cases word with
    | nil =>
      cases rest with
      | nil => simp [words, hword.1]
      | cons d rest => simp [words, hword.1, hrest d rfl]
    | cons d word =>
      have hd : isBlank d = false := hword.2 d List.mem_cons_self
      have ih := ih (by simp) hword.2
      rw [List.cons_append] at ih
      rw [List.cons_append, List.cons_append, words, ih]
      simp [hword.1, hd]

/-- `words` are the words of a text. -/
theorem words_of_wordsOf {ws : List (List Char)} (h : WordsOf cs ws) : words cs = ws := by
  induction h with
  | @nil gap hgap =>
    have h := words_append_of_blank hgap []
    rwa [List.append_nil] at h
  | cons hgap hne hword hrest _ ih =>
    rw [List.append_assoc, words_append_of_blank hgap,
      words_append_of_word hne hword hrest, ih]

/-- Every text is made of words. -/
theorem exists_wordsOf (cs : List Char) : ∃ ws, WordsOf cs ws := by
  have hnil : ∀ c ∈ ([] : List Char), isBlank c = true :=
    fun _ hc => absurd hc List.not_mem_nil
  induction cs with
  | nil => exact ⟨[], .nil hnil⟩
  | cons c cs ih =>
    obtain ⟨ws, h⟩ := ih
    by_cases hc : isBlank c = true
    · -- a blank joins the blanks that come next
      cases h with
      | nil hgap => exact ⟨[], .nil (List.forall_mem_cons.2 ⟨hc, hgap⟩)⟩
      | cons hgap hne hword hrest h =>
        exact ⟨_, .cons (List.forall_mem_cons.2 ⟨hc, hgap⟩) hne hword hrest h⟩
    · -- any other character is a word of its own before a blank, and else joins the word
      -- that comes next
      have hc : isBlank c = false := by simpa using hc
      have hone : ∀ d ∈ [c], isBlank d = false := by simpa using hc
      cases h with
      | @nil gap hgap =>
        refine ⟨[[c]], .cons hnil (List.cons_ne_nil c []) hone (fun d hd => ?_) (.nil hgap)⟩
        exact hgap d (List.mem_of_mem_head? hd)
      | @cons gap word rest ws hgap hne hword hrest h =>
        cases gap with
        | nil =>
          exact ⟨_, .cons hnil (List.cons_ne_nil c word) (List.forall_mem_cons.2 ⟨hc, hword⟩)
            hrest h⟩
        | cons b gap =>
          refine ⟨_, .cons hnil (List.cons_ne_nil c []) hone (fun d hd => ?_)
            (.cons hgap hne hword hrest h)⟩
          exact hgap d (List.mem_of_mem_head? (by simpa using hd))

/-- **The `words` of a text** are those that it is made of. -/
theorem words_eq_iff {ws : List (List Char)} : words cs = ws ↔ WordsOf cs ws := by
  refine ⟨?_, words_of_wordsOf⟩
  rintro rfl
  obtain ⟨ws, h⟩ := exists_wordsOf cs
  rwa [words_of_wordsOf h]

/-- Blanks at the end of a text add no word. -/
theorem WordsOf.append_blank {ws : List (List Char)} (h : WordsOf cs ws)
    (hgap : ∀ c ∈ gap, isBlank c = true) :
    WordsOf (cs ++ gap) ws := by
  induction h with
  | nil hcs => exact .nil (List.forall_mem_append.2 ⟨hcs, hgap⟩)
  | @cons before word rest ws hbefore hne hword hrest _ ih =>
    rw [List.append_assoc]
    refine .cons hbefore hne hword (fun c hc => ?_) ih
    cases rest with
    | nil => exact hgap c (List.mem_of_mem_head? (by simpa using hc))
    | cons d rest => exact hrest c hc

/-! ### Trimming -/

/-- A text is what `trimRight` leaves of it, and blanks. -/
theorem exists_trimRight_append (cs : List Char) :
    ∃ gap, (∀ c ∈ gap, isBlank c = true) ∧ cs = trimRight cs ++ gap := by
  refine ⟨(cs.reverse.takeWhile isBlank).reverse, fun c hc => ?_, ?_⟩
  · exact List.mem_takeWhile_imp (List.mem_reverse.1 hc)
  · rw [trimRight, ← List.reverse_append, List.takeWhile_append_dropWhile,
      List.reverse_reverse]

/-- Blanks at the start of a text are dropped by `trimLeft`. -/
theorem trimLeft_append_of_blank (hgap : ∀ c ∈ gap, isBlank c = true) (cs : List Char) :
    trimLeft (gap ++ cs) = trimLeft cs :=
  List.dropWhile_append_of_pos hgap

theorem trimRight_append_of_blank (hgap : ∀ c ∈ gap, isBlank c = true) (cs : List Char) :
    trimRight (cs ++ gap) = trimRight cs := by
  rw [trimRight, List.reverse_append, List.dropWhile_append_of_pos (by simpa using hgap),
    ← trimRight]

/-- Blanks at the end of a text are trimmed. -/
theorem trim_append_of_blank (hgap : ∀ c ∈ gap, isBlank c = true) (cs : List Char) :
    trim (cs ++ gap) = trim cs := by
  have hnil : trimLeft gap = [] := List.dropWhile_eq_nil_iff.2 hgap
  rw [trim, trim, trimLeft, List.dropWhile_append]
  split
  next hempty =>
    have hcs : trimLeft cs = [] := List.isEmpty_iff.1 hempty
    rw [hcs, ← trimLeft, hnil]
  next => exact trimRight_append_of_blank hgap _

/-- What `trimRight` drops is in no word. -/
theorem words_trimRight (cs : List Char) : words (trimRight cs) = words cs := by
  obtain ⟨gap, hgap, hcs⟩ := exists_trimRight_append cs
  have h := (words_eq_iff.1 (Eq.refl (words (trimRight cs)))).append_blank hgap
  rw [← hcs] at h
  exact (words_of_wordsOf h).symm

/-- `trimRight` keeps a first character that is not blank. -/
theorem trimRight_cons_of_not_blank {c : Char} (hc : isBlank c = false) (cs : List Char) :
    trimRight (c :: cs) = c :: trimRight cs := by
  rw [trimRight, trimRight, List.reverse_cons, List.dropWhile_append]
  split
  next hempty => simp [List.isEmpty_iff.1 hempty, hc]
  next => simp

/-! ### The first line -/

/-- The first of the `rawLines` goes up to the first line feed, which is part of it. -/
theorem headD_rawLines (cs : List Char) :
    (rawLines cs).headD [] = cs.takeWhile (· ≠ '\n') ++ if '\n' ∈ cs then ['\n'] else [] := by
  induction cs with
  | nil => rfl
  | cons c cs ih =>
    by_cases hc : c = '\n'
    · simp [rawLines, hc]
    · have hhead : (rawLines (c :: cs)).headD [] = c :: (rawLines cs).headD [] := by
        rw [rawLines, if_neg hc]
        cases rawLines cs <;> rfl
      have hmem : '\n' ∈ c :: cs ↔ '\n' ∈ cs := by simp [Ne.symm hc]
      rw [hhead, ih, List.takeWhile_cons_of_pos (by simpa using hc), List.cons_append]
      simp only [hmem]

/-- The end of a line, which `withoutEnd` drops, is blank. -/
theorem trim_withoutEnd (line : List Char) : trim (withoutEnd line) = trim line := by
  have hfeed : isBlank '\n' = true := by decide
  have hreturn : isBlank '\r' = true := by decide
  rw [withoutEnd]
  split
  next rest hline =>
    have hline : line = rest.reverse ++ ['\r', '\n'] := by
      rw [← List.reverse_reverse line, hline]
      simp
    rw [hline, trim_append_of_blank (by simp [hfeed, hreturn])]
  next rest _ hline =>
    have hline : line = rest.reverse ++ ['\n'] := by
      rw [← List.reverse_reverse line, hline]
      simp
    rw [hline, trim_append_of_blank (by simp [hfeed])]
  next => rfl

end Text

namespace Language

open Text

variable {cs line word : List Char}

/-- **The `firstLine`** is what stands before the first line feed, trimmed. -/
theorem firstLine_eq (cs : List Char) : firstLine cs = trim (cs.takeWhile (· ≠ '\n')) := by
  have hfeed : isBlank '\n' = true := by decide
  have hhead : (lines cs).headD [] = withoutEnd ((rawLines cs).headD []) := by
    rw [lines]
    cases rawLines cs <;> rfl
  rw [firstLine, hhead, trim_withoutEnd, headD_rawLines]
  split
  next => exact trim_append_of_blank (by simp [hfeed]) _
  next => rw [List.append_nil]

/-! ### The program word -/

/-- `after?` gives what follows a start that a text has. -/
theorem after?_eq_some_iff {start rest : List Char} :
    after? start cs = some rest ↔ cs = start ++ rest := by
  induction start generalizing cs with
  | nil => simp [after?, eq_comm]
  | cons x start ih =>
    cases cs with
    | nil => simp [after?]
    | cons y cs =>
      rw [after?]
      split
      next hxy => simp [hxy, ih]
      next hxy => simp [Ne.symm hxy]

/-- What stands before the first separator: it holds none, and one follows unless it is all. -/
theorem takeWhile_ne_eq_iff {sep : Char} {run : List Char} :
    cs.takeWhile (· ≠ sep) = run ↔
      sep ∉ run ∧ ∃ rest, cs = run ++ rest ∧ (rest = [] ∨ rest.head? = some sep) := by
  constructor
  · rintro rfl
    refine ⟨fun h => ?_, cs.dropWhile (· ≠ sep), List.takeWhile_append_dropWhile.symm, ?_⟩
    · simpa using List.mem_takeWhile_imp h
    · cases hrest : cs.dropWhile (· ≠ sep) with
      | nil => exact Or.inl rfl
      | cons c rest =>
        have hne : cs.dropWhile (· ≠ sep) ≠ [] := hrest ▸ List.cons_ne_nil c rest
        have hc := List.head_dropWhile_not (· ≠ sep) hne
        simp only [hrest, List.head_cons] at hc
        exact Or.inr (by simpa using hc)
  · rintro ⟨hrun, rest, rfl, hrest⟩
    have hall : ∀ c ∈ run, decide (c ≠ sep) = true := by
      intro c hc
      simp only [decide_eq_true_eq]
      rintro rfl
      exact hrun hc
    rw [List.takeWhile_append_of_pos hall]
    rcases hrest with rfl | hrest
    · simp
    · obtain ⟨rest, rfl⟩ := List.head?_eq_some_iff.1 hrest
      simp

/-- What `afterLastSlash` leaves holds no slash, and one stands before it unless it is
all. -/
theorem afterLastSlash_eq_iff {program : List Char} :
    afterLastSlash word = program ↔
      '/' ∉ program ∧ ∃ dir, word = dir ++ program ∧ (dir = [] ∨ dir.getLast? = some '/') := by
  rw [afterLastSlash, List.reverse_eq_iff, takeWhile_ne_eq_iff, List.mem_reverse]
  refine and_congr_right fun _ => ?_
  constructor
  · rintro ⟨rest, hword, hrest⟩
    refine ⟨rest.reverse, ?_, ?_⟩
    · rw [← List.reverse_reverse word, hword, List.reverse_append, List.reverse_reverse]
    · simpa using hrest
  · rintro ⟨dir, rfl, hdir⟩
    refine ⟨dir.reverse, List.reverse_append, ?_⟩
    simpa using hdir

/-- The program word among the words after the mark: what stands after the last slash of
the first word, unless this is `env`; else the first of the other words that is no option. -/
inductive ProgramAmong (first : List Char) (more : List (List Char)) : List Char → Prop
  | named {dir program : List Char} : first = dir ++ program →
      (dir = [] ∨ dir.getLast? = some '/') →
      '/' ∉ program → program ≠ "env".toList → ProgramAmong first more program
  | env {dir word : List Char} {options others : List (List Char)} : first =
      dir ++ "env".toList →
      (dir = [] ∨ dir.getLast? = some '/') → more = options ++ word :: others →
      (∀ option ∈ options, option.head? = some '-') → word.head? ≠ some '-' →
        ProgramAmong first more word

/-- A line names a program: blanks, the mark, and words among which the program word is. -/
def LineNames (line word : List Char) : Prop :=
  ∃ lead tail first more, line = lead ++ '#' :: '!' :: tail ∧ (∀ c ∈ lead, isBlank c = true) ∧
    WordsOf tail (first :: more) ∧ ProgramAmong first more word

/-- The first line of a text, which ends at a line feed or with the text, names a program. -/
def NamesProgram (cs word : List Char) : Prop :=
  ∃ line rest, cs = line ++ rest ∧ '\n' ∉ line ∧ (rest = [] ∨ rest.head? = some '\n') ∧
    LineNames line word

/-- The program word, as it is computed from the words after the mark. -/
theorem programAmong_iff {first : List Char} {more : List (List Char)} :
    ProgramAmong first more word ↔
      (if afterLastSlash first = "env".toList then more.find? (·.head? ≠ some '-')
        else some (afterLastSlash first)) = some word := by
  constructor
  · rintro (⟨hfirst, hdir, hslash, henv⟩ | ⟨hfirst, hdir, hmore, hoptions, hword⟩)
    · have hprogram : afterLastSlash first = word :=
        afterLastSlash_eq_iff.2 ⟨hslash, _, hfirst, hdir⟩
      rw [hprogram, if_neg henv]
    · have hprogram : afterLastSlash first = "env".toList :=
        afterLastSlash_eq_iff.2 ⟨by decide, _, hfirst, hdir⟩
      rw [if_pos hprogram, List.find?_eq_some_iff_append]
      exact ⟨by simpa using hword, _, _, hmore,
        fun option ho => by simpa using hoptions option ho⟩
  · intro h
    obtain ⟨hslash, dir, hfirst, hdir⟩ :=
      afterLastSlash_eq_iff.1 (Eq.refl (afterLastSlash first))
    split at h
    next henv =>
      rw [List.find?_eq_some_iff_append] at h
      obtain ⟨hword, options, others, hmore, hoptions⟩ := h
      rw [henv] at hfirst
      exact .env hfirst hdir hmore (fun option ho => by simpa using hoptions option ho)
        (by simpa using hword)
    next henv =>
      obtain rfl := Option.some.inj h
      exact .named hfirst hdir hslash henv

/-- A trimmed line begins with the mark if the line does so after blanks. -/
theorem trim_eq_mark_iff {tail : List Char} :
    trim line = '#' :: '!' :: tail ↔
      ∃ lead whole, line = lead ++ '#' :: '!' :: whole ∧ (∀ c ∈ lead, isBlank c = true) ∧
        trimRight whole = tail := by
  have hmark : ∀ whole, trimRight ('#' :: '!' :: whole) = '#' :: '!' :: trimRight whole := by
    intro whole
    rw [trimRight_cons_of_not_blank (by decide), trimRight_cons_of_not_blank (by decide)]
  constructor
  · intro h
    obtain ⟨gap, -, hleft⟩ := exists_trimRight_append (trimLeft line)
    have hline : line = line.takeWhile isBlank ++ trimLeft line :=
      List.takeWhile_append_dropWhile.symm
    rw [trim] at h
    rw [h, List.cons_append, List.cons_append] at hleft
    rw [hleft, hmark] at h
    refine ⟨line.takeWhile isBlank, tail ++ gap, ?_, fun c hc => List.mem_takeWhile_imp hc, ?_⟩
    · rw [← hleft]
      exact hline
    · simpa using h
  · rintro ⟨lead, whole, rfl, hlead, rfl⟩
    rw [trim, trimLeft_append_of_blank hlead, trimLeft_eq_self, hmark]
    intro c hc
    obtain rfl := Option.some.inj hc
    decide

/-- `programWord?` of a trimmed line is the program that the line names. -/
theorem programWord?_trim_iff :
    programWord? (trim line) = some word ↔ LineNames line word := by
  have hopen : programWord? (trim line) = some word ↔ ∃ tail, trim line = '#' :: '!' :: tail ∧
      ∃ first more, words tail = first :: more ∧ ProgramAmong first more word := by
    rw [programWord?, Option.bind_eq_bind, Option.bind_eq_some_iff]
    refine exists_congr fun tail => and_congr after?_eq_some_iff ?_
    cases words tail with
    | nil => simp
    | cons first more => simp [programAmong_iff]
  rw [hopen]
  constructor
  · rintro ⟨_, htrim, first, more, hwords, hword⟩
    obtain ⟨lead, whole, hline, hlead, rfl⟩ := trim_eq_mark_iff.1 htrim
    rw [words_trimRight, words_eq_iff] at hwords
    exact ⟨lead, whole, first, more, hline, hlead, hwords, hword⟩
  · rintro ⟨lead, whole, first, more, hline, hlead, hwords, hword⟩
    refine ⟨trimRight whole, trim_eq_mark_iff.2 ⟨lead, whole, hline, hlead, rfl⟩, first, more,
      ?_, hword⟩
    rw [words_trimRight, words_eq_iff]
    exact hwords

/-- **The program word of a text.** -/
theorem programWord?_firstLine_iff :
    programWord? (firstLine cs) = some word ↔ NamesProgram cs word := by
  rw [firstLine_eq, programWord?_trim_iff, NamesProgram]
  constructor
  · intro h
    obtain ⟨hline, rest, hcs, hrest⟩ :=
      takeWhile_ne_eq_iff.1 (Eq.refl (cs.takeWhile (· ≠ '\n')))
    exact ⟨_, rest, hcs, hline, hrest, h⟩
  · rintro ⟨line, rest, hcs, hline, hrest, h⟩
    rwa [takeWhile_ne_eq_iff.2 ⟨hline, rest, hcs, hrest⟩]

/-! ### Interpreters -/

/-- A program word is an interpreter's name with a version after it: digits and dots, or
nothing. -/
def Bears (program : List Char) (name : String) : Prop :=
  ∃ version, program = name.toList ++ version ∧ ∀ c ∈ version, c.isDigit = true ∨ c = '.'

/-- `isVersionOf` tests whether a program word bears a name. -/
theorem isVersionOf_iff {name : String} : isVersionOf name word = true ↔ Bears word name := by
  rw [isVersionOf, Bears]
  cases hafter : after? name.toList word with
  | none =>
    have hno : ∀ version, word ≠ name.toList ++ version := by
      intro version hword
      rw [after?_eq_some_iff.2 hword] at hafter
      cases hafter
    simp [hno]
  | some version =>
    rw [after?_eq_some_iff] at hafter
    subst hafter
    simp

/-- Nothing in the name of an interpreter can be part of a version. -/
theorem not_version_of_mem_interpreters {entry : String × Language}
    (hentry : entry ∈ interpreters) {c : Char} (hc : c ∈ entry.1.toList) :
    ¬ (c.isDigit = true ∨ c = '.') := by
  have hall : (interpreters.all fun entry => entry.1.toList.all fun c =>
      !(c.isDigit || c == '.')) = true := by
    decide +kernel
  have h := List.all_eq_true.1 (List.all_eq_true.1 hall entry hentry) c hc
  simpa using h

/-- The interpreters have different names. -/
theorem nodup_interpreters : (interpreters.map (·.1)).Nodup := by
  decide +kernel

/-- A name cannot go on with a part of a version. -/
theorem eq_of_append_version {name : String} {entry : String × Language}
    (hentry : entry ∈ interpreters) {part : List Char}
    (hname : entry.1.toList = name.toList ++ part)
    (hpart : ∀ c ∈ part, c.isDigit = true ∨ c = '.') : name = entry.1 := by
  cases part with
  | nil => exact String.toList_injective (by simpa using hname.symm)
  | cons c part =>
    have hc : c ∈ entry.1.toList := by simp [hname]
    exact absurd (hpart c List.mem_cons_self) (not_version_of_mem_interpreters hentry hc)

/-- **A program word bears the name of one interpreter at most.** -/
theorem bears_unique {a b : String × Language} (ha : a ∈ interpreters) (hb : b ∈ interpreters)
    (hwa : Bears word a.1) (hwb : Bears word b.1) : a = b := by
  obtain ⟨v, hv, hversion⟩ := hwa
  obtain ⟨w, hw, hversion'⟩ := hwb
  rw [hv] at hw
  refine List.inj_on_of_nodup_map nodup_interpreters ha hb ?_
  -- the shorter of the two names would go on with a part of the other's version
  rcases List.append_eq_append_iff.1 hw with ⟨part, hname, rfl⟩ | ⟨part, hname, rfl⟩
  · exact eq_of_append_version hb hname fun c hc => hversion c (List.mem_append_left _ hc)
  · exact (eq_of_append_version ha hname fun c hc =>
      hversion' c (List.mem_append_left _ hc)).symm

/-- The order in which interpreters are tried does not matter. -/
theorem interpreterIn?_of_perm {table : List (String × Language)}
    (h : table.Perm interpreters) (word : List Char) :
    interpreterIn? table word = interpreterIn? interpreters word := by
  rw [interpreterIn?, interpreterIn?, List.find?_eq_find?_of_perm h]
  rintro a ⟨ha, hwa⟩ b ⟨hb, hwb⟩
  exact bears_unique (h.mem_iff.1 ha) (h.mem_iff.1 hb) (isVersionOf_iff.1 hwa)
    (isVersionOf_iff.1 hwb)

/-- `interpreterIn?` finds the language of an interpreter whose name a program word
bears. -/
theorem interpreterIn?_of_bears {entry : String × Language} (hentry : entry ∈ interpreters)
    (hword : Bears word entry.1) : interpreterIn? interpreters word = some entry.2 := by
  rw [interpreterIn?]
  cases hfind : interpreters.find? fun entry => isVersionOf entry.1 word with
  | none =>
    exact absurd (isVersionOf_iff.2 hword)
      (by simpa using List.find?_eq_none.1 hfind entry hentry)
  | some found =>
    have hfound := List.find?_some hfind
    rw [bears_unique hentry (List.mem_of_find?_eq_some hfind) hword (isVersionOf_iff.1 hfound)]
    rfl

/-- `interpreterIn?` finds nothing for a program word that bears no name. -/
theorem interpreterIn?_eq_none (hword : ∀ entry ∈ interpreters, ¬ Bears word entry.1) :
    interpreterIn? interpreters word = none := by
  have hfind : (interpreters.find? fun entry => isVersionOf entry.1 word) = none := by
    rw [List.find?_eq_none]
    intro entry hentry h
    exact hword entry hentry (isVersionOf_iff.1 h)
  rw [interpreterIn?, hfind]
  rfl

/-! ### The language of a text -/

/-- The language of the first content marker that occurs in a text, if one does. -/
inductive FirstMarker (cs : List Char) : Language → Prop
  | found {earlier later : List (Regex × Language)} {r : Regex} {l : Language} :
      Marker.all = earlier ++ (r, l) :: later → r.Occurs (cs.map some) →
      (∀ entry ∈ earlier, ¬ entry.1.Occurs (cs.map some)) → FirstMarker cs l
  | none : (∀ entry ∈ Marker.all, ¬ entry.1.Occurs (cs.map some)) → FirstMarker cs .unsupported

/-- The first marker, as `ofMarkers?` finds it. -/
theorem firstMarker_iff {l : Language} :
    FirstMarker cs l ↔ (ofMarkers? cs).getD .unsupported = l := by
  have hsearch : ∀ entry : Regex × Language, entry.1.searchChars cs = true ↔
      entry.1.Occurs (cs.map some) :=
    fun entry => Regex.search_iff_occurs
  rw [ofMarkers?]
  constructor
  · intro h
    cases h with
    | @found earlier later r l hall hr hearlier =>
      have hfind : (Marker.all.find? fun entry => entry.1.searchChars cs) = some (r, l) := by
        refine List.find?_eq_some_iff_append.2 ⟨(hsearch (r, l)).2 hr, earlier, later, hall,
          fun entry hentry => ?_⟩
        simpa using fun h => hearlier entry hentry ((hsearch entry).1 h)
      rw [hfind]
      rfl
    | none hall =>
      have hfind : (Marker.all.find? fun entry => entry.1.searchChars cs) = none :=
        List.find?_eq_none.2 fun entry hentry h => hall entry hentry ((hsearch entry).1 h)
      rw [hfind]
      rfl
  · rintro rfl
    cases hfind : Marker.all.find? fun entry => entry.1.searchChars cs with
    | none =>
      refine .none fun entry hentry h => ?_
      exact List.find?_eq_none.1 hfind entry hentry ((hsearch entry).2 h)
    | some entry =>
      obtain ⟨hentry, earlier, later, hall, hearlier⟩ := List.find?_eq_some_iff_append.1 hfind
      refine .found hall ((hsearch entry).1 hentry) fun other hother h => ?_
      simpa [(hsearch other).2 h] using hearlier other hother

/-- **The interpreter line decides**, and where it names no known interpreter, the first
content marker does. There is one program word at most, it bears the name of one
interpreter at most, and so the interpreters can be tried in any order. -/
theorem interpreter_line_decides (content : String) :
    (∀ word, NamesProgram content.toList word → ∀ entry ∈ interpreters, Bears word entry.1 →
      detect content = entry.2) ∧
    ((¬ ∃ word, NamesProgram content.toList word ∧
      ∃ entry ∈ interpreters, Bears word entry.1) →
      ∀ l, detect content = l ↔ FirstMarker content.toList l) ∧
    (∀ word other, NamesProgram content.toList word → NamesProgram content.toList other →
      word = other) ∧
    (∀ word, ∀ a ∈ interpreters, ∀ b ∈ interpreters, Bears word a.1 → Bears word b.1 → a = b) ∧
    ∀ table : List (String × Language), table.Perm interpreters →
      ∀ word, interpreterIn? table word = interpreterIn? interpreters word := by
  refine ⟨?_, ?_, ?_, ?_, ?_⟩
  · intro word hnames entry hentry hbears
    rw [detect, detectChars, ofShebang?, programWord?_firstLine_iff.2 hnames, Option.bind_some,
      interpreterIn?_of_bears hentry hbears]
    rfl
  · intro hnone l
    have hshebang : ofShebang? (firstLine content.toList) = none := by
      rw [ofShebang?, Option.bind_eq_none_iff]
      intro word hword
      refine interpreterIn?_eq_none fun entry hentry hbears => hnone ?_
      exact ⟨word, programWord?_firstLine_iff.1 hword, entry, hentry, hbears⟩
    rw [detect, detectChars, hshebang, Option.none_or, firstMarker_iff]
  · intro word other hword hother
    rw [← programWord?_firstLine_iff] at hword hother
    exact Option.some.inj (hword.symm.trans hother)
  · intro word a ha b hb hwa hwb
    exact bears_unique ha hb hwa hwb
  · intro table htable word
    exact interpreterIn?_of_perm htable word

/-- The program that an option of `env` precedes, with a version. -/
theorem interpreter_line_decides_env :
    let content := "  #!/usr/bin/env -S python3.11 -u\nfn main() \x7b\x7d"
    NamesProgram content.toList "python3.11".toList ∧ Bears "python3.11".toList "python" ∧
      detect content = .python := by
  have hnames : NamesProgram "  #!/usr/bin/env -S python3.11 -u\nfn main() \x7b\x7d".toList
      "python3.11".toList :=
    programWord?_firstLine_iff.1 (by decide +kernel)
  have hbears : Bears "python3.11".toList "python" := isVersionOf_iff.1 (by decide +kernel)
  exact ⟨hnames, hbears, (interpreter_line_decides _).1 _ hnames ("python", .python)
    (by decide +kernel) hbears⟩

end Language

end SourceOutline
