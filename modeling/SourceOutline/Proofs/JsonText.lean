import Mathlib.Data.List.Basic
import Mathlib.Tactic.IntervalCases
import SourceOutline.Json.Reader
import SourceOutline.Json.Writer

/-!
# Values and Their Texts

A value is written as one text, without blanks and with its entries in their order. This
module says that the text tells the value: no two values are written alike, whatever
characters are in them.

A text is taken apart from the front. What is written of a value tells the value, and also
where it ends, as long as no digit follows (`Ends`): a number may go on, but nothing else
may. This is said of each thing that is written, with what follows it left open (`Tells`).
Texts are read back by the reader, one step for each character. Sequences and maps are
lists with commas between, so one lemma is enough for both (`listed_inj`).

Floating point numbers are left out (`Data.Exact`): all that are not a number have one text.

## Main results

* `readString?_escaped`: a text is read as it was written.
* `tells_renderChars`: what is written of a value tells the value, and where it ends.
* `render_inj`: values are written alike only if they are the same.
-/

namespace SourceOutline

/-- A value in which all numbers are integers. -/
inductive Data.Exact : Data → Prop where
  | null : Exact .null
  | bool (b : Bool) : Exact (.bool b)
  | int (n : Int) : Exact (.int n)
  | str (s : String) : Exact (.str s)
  | seq {elements : List Data} : (∀ d ∈ elements, Exact d) → Exact (.seq elements)
  | map {entries : List (String × Data)} : (∀ entry ∈ entries, Exact entry.2) →
    Exact (.map entries)

namespace Json

/-- A rest of a text that does not go on with a digit. -/
def Ends (rest : List Char) : Prop :=
  ∀ c ∈ rest.head?, c.isDigit = false

theorem ends_nil : Ends [] := by
  intro c hc
  cases hc

/-- A character that is no digit ends a number. -/
theorem ends_cons {c : Char} (h : c.isDigit = false) (rest : List Char) :
    Ends (c :: rest) := by
  intro c' hc'
  obtain rfl := Option.some.inj hc'
  exact h

/-- What is written of a thing tells it from other things, and tells where it ends. -/
def Tells {α : Type} (write : α → List Char) (known : α → Prop) (a : α) : Prop :=
  ∀ ⦃b rest rest'⦄, known b → Ends rest → Ends rest' → write a ++ rest = write b ++ rest' →
    a = b ∧ rest = rest'

/-! ### Texts -/

/-- **One step of `readString?`** undoes one step of the writer, `escapeChar`. -/
theorem readString?_escapeChar (fuel : Nat) (done : List Char) (c : Char) (rest : List Char) :
    readString? (fuel + 1) done (escapeChar c ++ rest) =
      readString? fuel (c :: done) rest := by
  by_cases hquote : c = '"'
  · subst hquote
    rfl
  by_cases hslash : c = '\\'
  · subst hslash
    rfl
  by_cases hcontrol : c.toNat < 0x20
  · -- the controls are escaped in two ways, and each of them is read back by evaluation
    have hc : c = Char.ofNat c.toNat := (Char.ofNat_toNat c).symm
    generalize c.toNat = n at hc hcontrol
    subst hc
    interval_cases n <;> rfl
  · have hplain : escapeChar c = [c] := by
      rw [escapeChar, if_neg hquote, if_neg hslash, if_neg hcontrol]
    rw [hplain, List.singleton_append, readString?, if_neg hcontrol]
    · exact hquote
    · exact fun _ _ h => absurd h hslash

/-- **A text is read by `readString?` as it was written.** -/
theorem readString?_escaped {cs : List Char} {fuel : Nat} (h : cs.length < fuel)
    (done rest : List Char) :
    readString? fuel done (cs.flatMap escapeChar ++ '"' :: rest) =
      some (String.ofList (done.reverse ++ cs), rest) := by
  induction cs generalizing fuel done with
  | nil =>
    obtain ⟨fuel, rfl⟩ := Nat.exists_eq_add_one.2 h
    rw [List.append_nil]
    rfl
  | cons c cs ih =>
    obtain ⟨fuel, rfl⟩ := Nat.exists_eq_add_one.2 (Nat.zero_lt_of_lt h)
    rw [List.flatMap_cons, List.append_assoc, readString?_escapeChar,
      ih (Nat.lt_of_succ_lt_succ h), List.reverse_cons, List.append_assoc,
      List.singleton_append]

/-- What `renderString` writes of a text tells the text, whatever follows. -/
theorem renderString_append_inj {cs cs' rest rest' : List Char}
    (h : renderString cs ++ rest = renderString cs' ++ rest') : cs = cs' ∧ rest = rest' := by
  have htail : cs.flatMap escapeChar ++ '"' :: rest =
      cs'.flatMap escapeChar ++ '"' :: rest' := by
    simpa [renderString] using h
  have hread :=
    readString?_escaped (Nat.lt_succ_of_le (Nat.le_max_left cs.length cs'.length)) [] rest
  rw [htail, readString?_escaped (Nat.lt_succ_of_le
    (Nat.le_max_right cs.length cs'.length))] at hread
  obtain ⟨htext, hrest⟩ := Prod.mk.inj (Option.some.inj hread)
  exact ⟨(String.ofList_inj.1 htext).symm, hrest.symm⟩

/-! ### Numbers -/

/-- The digits at the front of a text are those of a number that is written there, if no
others follow. -/
theorem takeWhile_isDigit_toDigits (n : Nat) {rest : List Char} (h : Ends rest) :
    (Nat.toDigits 10 n ++ rest).takeWhile Char.isDigit = Nat.toDigits 10 n := by
  have hdigits : ∀ c ∈ Nat.toDigits 10 n, c.isDigit = true := fun c hc =>
    Nat.isDigit_of_mem_toDigits (by decide) (by decide) hc
  have hrest : rest.takeWhile Char.isDigit = [] := by
    cases rest with
    | nil => rfl
    | cons c rest => exact List.takeWhile_cons_of_neg (by rw [h c rfl]; decide)
  rw [List.takeWhile_append_of_pos hdigits, hrest, List.append_nil]

/-- What is written of a natural number tells the number. -/
theorem toDigits_append_inj {n n' : Nat} {rest rest' : List Char} (hrest : Ends rest)
    (hrest' : Ends rest') (h : Nat.toDigits 10 n ++ rest = Nat.toDigits 10 n' ++ rest') :
    n = n' ∧ rest = rest' := by
  have hdigits : Nat.toDigits 10 n = Nat.toDigits 10 n' := by
    rw [← takeWhile_isDigit_toDigits n hrest, h, takeWhile_isDigit_toDigits n' hrest']
  refine ⟨?_, List.append_cancel_left (hdigits ▸ h)⟩
  rw [← @Nat.ofDigitChars_ten_toDigits n, hdigits, Nat.ofDigitChars_ten_toDigits]

/-- Numbers start with a digit. -/
theorem isDigit_of_toDigits {n : Nat} {c : Char} {rest rest' : List Char}
    (h : Nat.toDigits 10 n ++ rest = c :: rest') : c.isDigit = true := by
  rcases List.append_eq_cons_iff.1 h with ⟨hnil, -⟩ | ⟨cs, hcons, -⟩
  · exact absurd hnil Nat.toDigits_ne_nil
  · have hmem : c ∈ Nat.toDigits 10 n := by
      rw [hcons]
      exact List.mem_cons_self
    exact Nat.isDigit_of_mem_toDigits (by decide) (by decide) hmem

/-- What `renderInt` writes of an integer tells the integer. -/
theorem renderInt_append_inj {n n' : Int} {rest rest' : List Char} (hrest : Ends rest)
    (hrest' : Ends rest') (h : renderInt n ++ rest = renderInt n' ++ rest') :
    n = n' ∧ rest = rest' := by
  -- a sign is no digit, so either both numbers have one or neither has
  rw [renderInt, renderInt] at h
  split at h <;> split at h
  · obtain ⟨habs, hrest⟩ := toDigits_append_inj hrest hrest' (List.cons.inj h).2
    exact ⟨by omega, hrest⟩
  · exact absurd (isDigit_of_toDigits h.symm) (by decide)
  · exact absurd (isDigit_of_toDigits h) (by decide)
  · obtain ⟨habs, hrest⟩ := toDigits_append_inj hrest hrest' h
    exact ⟨by omega, hrest⟩

/-! ### Lists -/

section Lists

variable {α : Type} (write : α → List Char) (stop : Char)

/-- What stands behind an element of a list: a comma before each other element, then what
closes the list, and what follows it. -/
def behind (rest : List Char) : List α → List Char
  | [] => stop :: rest
  | a :: as => ',' :: (write a ++ behind rest as)

/-- A list from its first element on. -/
def listed (rest : List Char) : List α → List Char
  | [] => stop :: rest
  | a :: as => write a ++ behind write stop rest as

variable {write stop} {known : α → Prop} {as bs : List α} {rest rest' : List Char}

/-- What stands `behind` an element does not go on with a digit. -/
theorem ends_behind (hstop : stop.isDigit = false) : Ends (behind write stop rest as) := by
  cases as with
  | nil => exact ends_cons hstop rest
  | cons a as => exact ends_cons (by decide) _

/-- The elements of a list are told one by one from what stands `behind`, by the commas
before them. -/
theorem behind_inj (hstop : stop.isDigit = false) (hcomma : stop ≠ ',')
    (htells : ∀ a ∈ as, Tells write known a) (hknown : ∀ b ∈ bs, known b)
    (h : behind write stop rest as = behind write stop rest' bs) :
    as = bs ∧ rest = rest' := by
  induction as generalizing bs with
  | nil =>
    cases bs with
    | nil => exact ⟨rfl, (List.cons.inj h).2⟩
    | cons b bs => exact absurd (List.cons.inj h).1 hcomma
  | cons a as ih =>
    cases bs with
    | nil => exact absurd (List.cons.inj h).1.symm hcomma
    | cons b bs =>
      obtain ⟨htell, htells⟩ := List.forall_mem_cons.1 htells
      obtain ⟨hb, hbs⟩ := List.forall_mem_cons.1 hknown
      obtain ⟨rfl, hbehind⟩ :=
        htell hb (ends_behind hstop) (ends_behind hstop) (List.cons.inj h).2
      obtain ⟨rfl, hrest⟩ := ih htells hbs hbehind
      exact ⟨rfl, hrest⟩

/-- **What is written of a list tells the list**, if its elements are told and none starts
with what closes it. -/
theorem listed_inj (hstop : stop.isDigit = false) (hcomma : stop ≠ ',')
    (hstart : ∀ a, known a → ∀ rest rest', write a ++ rest ≠ stop :: rest')
    (htells : ∀ a ∈ as, Tells write known a) (hknown : ∀ a ∈ as, known a)
    (hknown' : ∀ b ∈ bs, known b)
    (h : listed write stop rest as = listed write stop rest' bs) : as = bs ∧ rest = rest' := by
  cases as with
  | nil =>
    cases bs with
    | nil => exact ⟨rfl, (List.cons.inj h).2⟩
    | cons b bs => exact absurd h.symm (hstart b (hknown' b List.mem_cons_self) _ _)
  | cons a as =>
    cases bs with
    | nil => exact absurd h (hstart a (hknown a List.mem_cons_self) _ _)
    | cons b bs =>
      obtain ⟨htell, htells⟩ := List.forall_mem_cons.1 htells
      obtain ⟨hb, hbs⟩ := List.forall_mem_cons.1 hknown'
      obtain ⟨rfl, hbehind⟩ := htell hb (ends_behind hstop) (ends_behind hstop) h
      obtain ⟨rfl, hrest⟩ := behind_inj hstop hcomma htells hbs hbehind
      exact ⟨rfl, hrest⟩

end Lists

/-- What `renderChars` writes of a sequence is `listed`. -/
theorem renderChars_seq_append (elements : List Data) (rest : List Char) :
    renderChars (.seq elements) ++ rest = '[' :: listed renderChars ']' rest elements := by
  have hlisted : renderElements elements ++ ']' :: rest =
      listed renderChars ']' rest elements := by
    induction elements with
    | nil => rfl
    | cons d elements ih =>
      cases elements with
      | nil => rfl
      | cons d' elements =>
        rw [renderElements, List.append_assoc, List.cons_append, ih]
        · rfl
        · exact List.cons_ne_nil d' elements
  rw [renderChars, List.append_assoc, List.cons_append, List.singleton_append, hlisted]

/-- What is written of an entry of a map. -/
def renderEntry (entry : String × Data) : List Char :=
  renderString entry.1.toList ++ ':' :: renderChars entry.2

/-- What `renderChars` writes of a map is `listed`, entry by entry. -/
theorem renderChars_map_append (entries : List (String × Data)) (rest : List Char) :
    renderChars (.map entries) ++ rest = '{' :: listed renderEntry '}' rest entries := by
  have hlisted : renderEntries entries ++ '}' :: rest =
      listed renderEntry '}' rest entries := by
    induction entries with
    | nil => rfl
    | cons entry entries ih =>
      cases entries with
      | nil => rfl
      | cons entry' entries =>
        rw [renderEntries, List.append_assoc, List.cons_append, ih]
        · rfl
        · exact List.cons_ne_nil entry' entries
  rw [renderChars, List.append_assoc, List.cons_append, List.singleton_append, hlisted]

/-! ### Values -/

/-- The first character of a value, where one stands for all numbers and one for both
truth values. -/
def opening : Data → Char
  | .null => 'n'
  | .bool _ => 't'
  | .int _ => '0'
  | .float _ => '0'
  | .str _ => '"'
  | .seq _ => '['
  | .map _ => '{'

/-- What the first character of a text opens. -/
def openingOf : List Char → Option Char
  | [] => none
  | c :: _ => some (if c = '-' ∨ c.isDigit = true then '0' else if c = 'f' then 't' else c)

/-- The first character tells the kind of a value: `openingOf` a text is the `opening` of
its value. -/
theorem openingOf_renderChars {d : Data} (h : d.Exact) (rest : List Char) :
    openingOf (renderChars d ++ rest) = some (opening d) := by
  cases h with
  | bool b => cases b <;> rfl
  | int n =>
    rw [renderChars, renderInt]
    split
    · rfl
    · cases hdigits : Nat.toDigits 10 n.natAbs ++ rest with
      | nil => exact absurd (List.append_eq_nil_iff.1 hdigits).1 Nat.toDigits_ne_nil
      | cons c cs => exact congrArg some (if_pos (Or.inr (isDigit_of_toDigits hdigits)))
  | null => rfl
  | str s => rfl
  | seq _ => rfl
  | map _ => rfl

/-- No value starts with what closes a sequence. -/
theorem renderChars_append_ne {d : Data} (h : d.Exact) (rest rest' : List Char) :
    renderChars d ++ rest ≠ ']' :: rest' := by
  intro heq
  have hopening := openingOf_renderChars h rest
  rw [heq] at hopening
  cases h <;> simp [openingOf, opening] at hopening

/-- No entry starts with what closes a map. -/
theorem renderEntry_append_ne (entry : String × Data) (rest rest' : List Char) :
    renderEntry entry ++ rest ≠ '}' :: rest' := by
  intro heq
  exact absurd (List.cons.inj heq).1 (by decide)

/-- Entries are told by their keys and values, as `renderEntry` writes them. -/
theorem tells_renderEntry {entry : String × Data} (h : Tells renderChars Data.Exact entry.2) :
    Tells renderEntry (fun entry => entry.2.Exact) entry := by
  intro entry' rest rest' hentry' hrest hrest' heq
  rw [renderEntry, renderEntry, List.append_assoc, List.append_assoc] at heq
  obtain ⟨hkey, heq⟩ := renderString_append_inj heq
  obtain ⟨hvalue, hrest⟩ := h hentry' hrest hrest' (List.cons.inj heq).2
  exact ⟨Prod.ext (String.toList_inj.1 hkey) hvalue, hrest⟩

/-- Values that are written alike are of one kind. -/
theorem opening_eq_of_append {d d' : Data} (h : d.Exact) (h' : d'.Exact)
    {rest rest' : List Char} (heq : renderChars d ++ rest = renderChars d' ++ rest') :
    opening d = opening d' := by
  have hopening := openingOf_renderChars h rest
  rw [heq, openingOf_renderChars h'] at hopening
  exact (Option.some.inj hopening).symm

/-- **What `renderChars` writes of a value tells the value**, and where it ends. -/
theorem tells_renderChars {d : Data} (h : d.Exact) : Tells renderChars Data.Exact d := by
  -- in each case the first character says that the other value is of the same kind
  induction h with
  | null =>
    intro d' rest rest' h' hrest hrest' heq
    have hopening := opening_eq_of_append .null h' heq
    cases h' with
    | null => exact ⟨rfl, List.append_cancel_left heq⟩
    | _ => simp [opening] at hopening
  | bool b =>
    intro d' rest rest' h' hrest hrest' heq
    have hopening := opening_eq_of_append (.bool b) h' heq
    cases h' with
    | bool b' =>
      cases b <;> cases b'
      · exact ⟨rfl, List.append_cancel_left heq⟩
      · exact absurd (List.cons.inj heq).1 (by decide)
      · exact absurd (List.cons.inj heq).1 (by decide)
      · exact ⟨rfl, List.append_cancel_left heq⟩
    | _ => simp [opening] at hopening
  | int n =>
    intro d' rest rest' h' hrest hrest' heq
    have hopening := opening_eq_of_append (.int n) h' heq
    cases h' with
    | int n' =>
      rw [renderChars, renderChars] at heq
      obtain ⟨rfl, hrest⟩ := renderInt_append_inj hrest hrest' heq
      exact ⟨rfl, hrest⟩
    | _ => simp [opening] at hopening
  | str s =>
    intro d' rest rest' h' hrest hrest' heq
    have hopening := opening_eq_of_append (.str s) h' heq
    cases h' with
    | str s' =>
      rw [renderChars, renderChars] at heq
      obtain ⟨htext, hrest⟩ := renderString_append_inj heq
      exact ⟨congrArg Data.str (String.toList_inj.1 htext), hrest⟩
    | _ => simp [opening] at hopening
  | seq helements ih =>
    intro d' rest rest' h' hrest hrest' heq
    have hopening := opening_eq_of_append (.seq helements) h' heq
    cases h' with
    | seq helements' =>
      rw [renderChars_seq_append, renderChars_seq_append] at heq
      obtain ⟨rfl, hrest⟩ :=
        listed_inj (by decide) (by decide) (fun _ => renderChars_append_ne) ih helements
          helements' (List.cons.inj heq).2
      exact ⟨rfl, hrest⟩
    | _ => simp [opening] at hopening
  | map hentries ih =>
    intro d' rest rest' h' hrest hrest' heq
    have hopening := opening_eq_of_append (.map hentries) h' heq
    cases h' with
    | map hentries' =>
      rw [renderChars_map_append, renderChars_map_append] at heq
      obtain ⟨rfl, hrest⟩ :=
        listed_inj (by decide) (by decide) (fun _ _ => renderEntry_append_ne _)
          (fun entry hentry => tells_renderEntry (ih entry hentry)) hentries hentries'
          (List.cons.inj heq).2
      exact ⟨rfl, hrest⟩
    | _ => simp [opening] at hopening

/-- **Values are written alike by `render` only if they are the same.** -/
theorem render_inj {d d' : Data} (h : d.Exact) (h' : d'.Exact) :
    render d = render d' ↔ d = d' := by
  constructor
  · intro heq
    have hchars : renderChars d ++ [] = renderChars d' ++ [] := by
      rw [List.append_nil, List.append_nil]
      exact String.ofList_inj.1 heq
    exact (tells_renderChars h h' ends_nil ends_nil hchars).1
  · rintro rfl
    rfl

end Json

end SourceOutline
