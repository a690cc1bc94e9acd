import Mathlib.Data.List.DropRight
import Mathlib.Data.List.Find
import SourceOutline.Proofs.JsonText
import SourceOutline.Proofs.Layers

/-!
# Names and Their Spellings

A category goes by a name, and a name can be spelled in many ways: with blanks around it,
with capitals, in the plural if it is built in. All spellings are brought to one form, the
key (`Category.IsKey`), and the key decides. This module says that nothing is lost or
mixed up on the way. The name of a category that some spelling stands for is a spelling of
it (`ofName_name_ofName`), so such categories are told by their names, and a name can
stand for its category wherever that is written down.

There are two things to see. A text in normal form is not changed by normalising it,
because capitals and small letters are no blanks. And a key stands for a custom category
only if it is no built-in name and no plural of one (`ofKey_cases`), so that no custom
category has the name of a built-in one.

## Main results

* `Category.ofKey_cases` and `Category.ofKey_eq_builtin_iff`: what a key stands for.
* `Category.isKey_normalised`: every spelling has a key.
* `Category.ofName_name_ofName`: the name of what a spelling stands for stands for it too.
* `Category.IsNamed.name_inj`: categories that names stand for are told by their names.
* `Registry.get?_after_of_named`: patterns are kept by the names of their categories.
* `Category.spellings_normalise`: names, keys, data and patterns.
-/

namespace SourceOutline

/-! ### Trimming and small letters -/

namespace Text

theorem toLower_eq_self {c : Char} (h : c.isUpper = false) : c.toLower = c :=
  dif_neg (of_decide_eq_false h)

/-- There are 26 capitals. -/
theorem exists_of_isUpper {c : Char} (h : c.isUpper = true) :
    ∃ n : Fin 26, c = Char.ofNat (0x41 + n) := by
  obtain ⟨hfirst, hlast⟩ : c.val ≥ 'A'.val ∧ c.val ≤ 'Z'.val := of_decide_eq_true h
  have hfirst : 0x41 ≤ c.toNat := UInt32.le_iff_toNat_le.1 hfirst
  have hlast : c.toNat ≤ 0x5A := UInt32.le_iff_toNat_le.1 hlast
  refine ⟨⟨c.toNat - 0x41, by omega⟩, ?_⟩
  rw [Nat.add_sub_cancel' hfirst, Char.ofNat_toNat]

/-- Small letters are no capitals. -/
theorem isUpper_toLower (c : Char) : c.toLower.isUpper = false := by
  cases h : c.isUpper with
  | false => rw [toLower_eq_self h, h]
  | true =>
    have hall : ∀ n : Fin 26, (Char.ofNat (0x41 + n)).toLower.isUpper = false := by decide
    obtain ⟨n, rfl⟩ := exists_of_isUpper h
    exact hall n

/-- `isBlank` is the same for a small letter and its capital: neither is blank. -/
theorem isBlank_toLower (c : Char) : isBlank c.toLower = isBlank c := by
  cases h : c.isUpper with
  | false => rw [toLower_eq_self h]
  | true =>
    have hall : ∀ n : Fin 26, isBlank (Char.ofNat (0x41 + n)).toLower =
        isBlank (Char.ofNat (0x41 + n)) := by decide
    obtain ⟨n, rfl⟩ := exists_of_isUpper h
    exact hall n

/-- `trim` commutes with changes to characters that leave blanks blank and others not. -/
theorem trim_map {f : Char → Char} (hf : ∀ c, isBlank (f c) = isBlank c) (cs : List Char) :
    trim (cs.map f) = (trim cs).map f := by
  have hcomp : isBlank ∘ f = isBlank := funext hf
  rw [trim, trim, trimLeft, trimLeft, trimRight, trimRight, List.dropWhile_map, hcomp,
    ← List.map_reverse, List.dropWhile_map, hcomp, ← List.map_reverse]

/-- What is left of a text does not start with a blank. -/
theorem isBlank_of_head?_dropWhile {cs : List Char} {c : Char}
    (h : (cs.dropWhile isBlank).head? = some c) :
    isBlank c = false := by
  have hhead := List.head?_dropWhile_not isBlank cs
  rw [h] at hhead
  exact hhead

/-- **Trimming again** changes nothing: `trim` is idempotent. -/
theorem trim_trim (cs : List Char) : trim (trim cs) = trim cs := by
  refine trim_eq_self (fun c hc => ?_) fun c hc => ?_
  · -- the front of what is trimmed on the right is the front of what was trimmed on the left
    obtain ⟨gap, hgap⟩ : trim cs <+: trimLeft cs := by
      rw [← List.reverse_reverse (trimLeft cs)]
      exact List.reverse_prefix.2 (List.dropWhile_suffix isBlank)
    have hfront : (trimLeft cs).head? = some c := by
      rw [← hgap, List.head?_append, hc, Option.some_or]
    exact isBlank_of_head?_dropWhile hfront
  · rw [trim, trimRight, List.getLast?_reverse] at hc
    exact isBlank_of_head?_dropWhile hc

end Text

namespace Category

/-! ### Keys -/

/-- A text in normal form: without blanks at either end and without ASCII capitals. -/
structure IsKey (text : String) : Prop where
  trimmed : Text.trimmed text = text
  lower : ∀ c ∈ text.toList, c.isUpper = false

/-- The characters of a name that is brought to normal form. -/
theorem toList_normalised (text : String) :
    (Text.trimmed text).toLower.toList = (Text.trim text.toList).map Char.toLower := by
  have hlower : (Text.trimmed text).toLower.toList =
      (Text.trimmed text).toList.map Char.toLower := String.toList_map
  rw [hlower, Text.trimmed, String.toList_ofList]

/-- What `ofName` says a name stands for, by the characters of its key. -/
theorem ofName_eq_ofKey {text key : String}
    (h : (Text.trim text.toList).map Char.toLower = key.toList) :
    ofName text = ofKey key := by
  rw [ofName, String.toList_injective ((toList_normalised text).trans h)]

/-- **Every spelling has a key.** -/
theorem isKey_normalised (text : String) : IsKey (Text.trimmed text).toLower where
  trimmed := by
    rw [Text.trimmed, toList_normalised, Text.trim_map Text.isBlank_toLower, Text.trim_trim,
      ← toList_normalised, String.ofList_toList]
  lower := by
    intro c hc
    rw [toList_normalised] at hc
    obtain ⟨d, -, rfl⟩ := List.mem_map.1 hc
    exact Text.isUpper_toLower d

/-- A key is its own normal form. -/
theorem IsKey.ofName_eq {key : String} (h : IsKey key) : ofName key = ofKey key := by
  refine ofName_eq_ofKey ?_
  have htrim : Text.trim key.toList = key.toList := by
    have htrimmed := congrArg String.toList h.trimmed
    rwa [Text.trimmed, String.toList_ofList] at htrimmed
  rw [htrim, List.map_congr_left fun c hc => Text.toLower_eq_self (h.lower c hc), List.map_id']

/-- The categories in `builtins` are not custom ones. -/
theorem isCustom_of_mem_builtins :
    ∀ {category : Category}, category ∈ builtins → category.isCustom = false := by
  decide

/-- **What a key stands for**, by `ofKey`: the built-in category with that name or plural,
or else a custom one of that name. -/
theorem ofKey_cases (key : String) :
    (∃ builtin ∈ builtins, ofKey key = builtin ∧ (builtin.name = key ∨ builtin.plural = key)) ∨
      (ofKey key = .custom key ∧ ∀ builtin ∈ builtins, builtin.name ≠ key ∧
        builtin.plural ≠ key) := by
  rw [ofKey]
  cases hfind : builtins.find? fun category => category.name = key || category.plural =
    key with
  | none =>
    refine Or.inr ⟨rfl, fun builtin hmem => ?_⟩
    have hno := List.find?_eq_none.1 hfind builtin hmem
    simpa using hno
  | some builtin =>
    have hyes := List.find?_some hfind
    exact Or.inl ⟨builtin, List.mem_of_find?_eq_some hfind, rfl, by simpa using hyes⟩

/-- A key stands for a built-in category just if it is the name or the plural of it. -/
theorem ofKey_eq_builtin_iff {key : String} {builtin : Category} (h : builtin ∈ builtins) :
    ofKey key = builtin ↔ key = builtin.name ∨ key = builtin.plural := by
  constructor
  · rintro rfl
    rcases ofKey_cases key with ⟨builtin, -, heq, hkey⟩ | ⟨heq, -⟩
    · rw [heq]
      exact hkey.imp Eq.symm Eq.symm
    · have hfalse := isCustom_of_mem_builtins h
      rw [heq] at hfalse
      cases hfalse
  · have hall : ∀ builtin ∈ builtins, ofKey builtin.name = builtin ∧
        ofKey builtin.plural = builtin := by decide
    rintro (rfl | rfl)
    · exact (hall builtin h).1
    · exact (hall builtin h).2

/-! ### Names -/

/-- A category that a name stands for. -/
def IsNamed (category : Category) : Prop :=
  ∃ text, ofName text = category

/-- What `ofName` gives is named. -/
theorem isNamed_ofName (text : String) : (ofName text).IsNamed :=
  ⟨text, rfl⟩

theorem isNamed_of_mem_builtins {category : Category} (h : category ∈ builtins) :
    category.IsNamed :=
  ⟨category.name, ofName_name_of_builtin h⟩

/-- **The `name` of what a spelling stands for** stands for it too. -/
theorem ofName_name_ofName (text : String) : ofName (ofName text).name = ofName text := by
  rcases ofKey_cases (Text.trimmed text).toLower with ⟨builtin, hmem, heq, -⟩ | ⟨heq, -⟩
  · have hname : ofName text = builtin := heq
    rw [hname, ofName_name_of_builtin hmem]
  · have hname : ofName text = .custom (Text.trimmed text).toLower := heq
    rw [hname]
    exact (isKey_normalised text).ofName_eq.trans heq

/-- **Categories that names stand for are told by their `name`.** -/
theorem IsNamed.name_inj {a b : Category} (ha : a.IsNamed) (hb : b.IsNamed) :
    a.name = b.name ↔ a = b := by
  constructor
  · intro hname
    obtain ⟨text, rfl⟩ := ha
    obtain ⟨text', rfl⟩ := hb
    rw [← ofName_name_ofName, hname, ofName_name_ofName]
  · rintro rfl
    rfl

/-- Lists of such categories are told by the names in them. -/
theorem map_name_inj {as bs : List Category} (has : ∀ a ∈ as, a.IsNamed)
    (hbs : ∀ b ∈ bs, b.IsNamed) (h : as.map name = bs.map name) : as = bs := by
  induction as generalizing bs with
  | nil => exact (List.map_eq_nil_iff.1 h.symm).symm
  | cons a as ih =>
    cases bs with
    | nil => cases h
    | cons b bs =>
      obtain ⟨ha, has⟩ := List.forall_mem_cons.1 has
      obtain ⟨hb, hbs⟩ := List.forall_mem_cons.1 hbs
      obtain ⟨hname, hnames⟩ := List.cons.inj h
      rw [(ha.name_inj hb).1 hname, ih has hbs hnames]

/-- A custom category that `ofName` gives is named by the key, which means nothing built
in. -/
theorem eq_of_ofName_eq_custom {text name : String} (h : ofName text = .custom name) :
    name = (Text.trimmed text).toLower ∧ ∀ builtin ∈ builtins, name ≠ builtin.name ∧
    name ≠ builtin.plural := by
  rcases ofKey_cases (Text.trimmed text).toLower with ⟨builtin, hmem, heq, -⟩ | ⟨heq, hother⟩
  · have hfalse := isCustom_of_mem_builtins hmem
    rw [← heq, ← ofName, h] at hfalse
    cases hfalse
  · obtain rfl : (Text.trimmed text).toLower = name := Category.custom.inj (heq.symm.trans h)
    exact ⟨rfl, fun builtin hmem => ⟨(hother builtin hmem).1.symm,
      (hother builtin hmem).2.symm⟩⟩

end Category

/-! ### Data -/

namespace Json

/-- `escapeChar` writes at least one character for each. -/
theorem length_le_flatMap_escapeChar (cs : List Char) :
    cs.length ≤ (cs.flatMap escapeChar).length := by
  have hone (c : Char) : 1 ≤ (escapeChar c).length := by
    rw [escapeChar]
    split_ifs <;> exact Nat.le_add_left 1 _
  induction cs with
  | nil => exact Nat.le_refl 0
  | cons c cs ih =>
    have := hone c
    rw [List.flatMap_cons, List.length_append, List.length_cons]
    omega

/-- **A text that fills a document** is read by `read?` as `render` has written it. -/
theorem read?_render_str (s : String) : read? (render (.str s)) = some (.str s) := by
  have hread (fuel : Nat) (hfuel : s.toList.length < fuel) :
      readValue? (fuel + 1) (renderString s.toList) = some (.str s, []) := by
    have hstring := readString?_escaped hfuel [] []
    rw [List.reverse_nil, List.nil_append, String.ofList_toList] at hstring
    have hvalue : readValue? (fuel + 1) (renderString s.toList) =
        (readString? fuel [] (s.toList.flatMap escapeChar ++ ['"'])).bind fun found =>
          some (.str found.1, found.2) := rfl
    rw [hvalue, hstring]
    rfl
  have hlength : s.toList.length ≤ (renderString s.toList).length := by
    have := length_le_flatMap_escapeChar s.toList
    rw [renderString, List.cons_append, List.length_cons, List.length_append]
    omega
  rw [read?, render, String.toList_ofList, renderChars, hread _ (by omega)]
  rfl

end Json

/-! ### Patterns -/

namespace Registry

open PatternCall

/-- **Patterns are kept by the names of their categories**: after any registrations under
names, a name gives the last text for the scope and for the name that it is brought to, or
else what there was at the start. -/
theorem get?_after_of_named (start : Registry) {calls : List PatternCall}
    (hcalls : ∀ call ∈ calls, call.category.IsNamed) (scope : Scope) {category : Category}
    (h : category.IsNamed) :
    (start.after calls).get? scope category =
      ((calls.reverse.find? fun call => call.scope = scope ∧
        call.category.name = category.name).map text).or
        (start.get? scope category) := by
  rw [get?_after, lastText]
  congr 2
  refine List.find?_congr fun call hmem => decide_eq_decide.2 ?_
  rw [key, Prod.mk.injEq, (hcalls call (List.mem_reverse.1 hmem)).name_inj h]

/-- `register` changes nothing that is looked up for other categories. -/
theorem lookup_register_of_ne (r : Registry) (scope : Scope) {category category' : Category}
    (h : category' ≠ category) (text : String) (layer : Layer) (language : Language) :
    (r.register scope category text).lookup layer category' language =
      r.lookup layer category' language := by
  have hget (scope' : Scope) : (r.register scope category text).get? scope' category' =
      r.get? scope' category' := by
    rw [get?_register, if_neg fun hkey => h hkey.2]
  cases layer with
  | base => exact hget .base
  | family => exact Option.bind_congr fun family _ => hget (.family family)
  | language => exact hget (.language language)
  | effective => simp only [lookup, hget]

end Registry

namespace Category

/-- **Names are brought to unique keys.** Let `s` and `t` be any texts.

* The key of `s` is `s` without blanks at the ends and with small letters for ASCII
  capitals. Just if it is a built-in name or the plural of one, `s` stands for that
  built-in category.
* Otherwise it stands for a custom category, whose name is the key. That name is without
  blanks at the ends and without ASCII capitals, and it is none of the built-in names and
  none of their plurals.
* The name of what `s` stands for stands for the same.
* What `s` and `t` stand for is the same just if the names of it are.
* Written as data, and as a document, what `s` stands for is read back.
* A pattern that is registered under `s` is found under `t` if the names are the same, and
  for a language it is the one in effect. It changes nothing that is found under `t` if
  they are not. So after any registrations under names, what is found under `t` is the
  last one for a category with the name of what `t` stands for. -/
theorem spellings_normalise (s t : String) :
    (∀ builtin ∈ builtins, ofName s = builtin ↔
      (Text.trimmed s).toLower = builtin.name ∨ (Text.trimmed s).toLower = builtin.plural) ∧
    (∀ name, ofName s = .custom name →
      name = (Text.trimmed s).toLower ∧ Text.trimmed name = name ∧
        (∀ c ∈ name.toList, c.isUpper = false) ∧
        ∀ builtin ∈ builtins, name ≠ builtin.name ∧ name ≠ builtin.plural) ∧
    ofName (ofName s).name = ofName s ∧
    (ofName s = ofName t ↔ (ofName s).name = (ofName t).name) ∧
    (decode (ofName s).toData = .ok (ofName s) ∧
      Json.read? (Json.render (ofName s).toData) = some (ofName s).toData) ∧
    (∀ (r : Registry) (scope : Scope) (text : String), (ofName s).name = (ofName t).name →
      (r.register scope (ofName s) text).get? scope (ofName t) = some text ∧
        ∀ language, scope = .language language →
          (r.register scope (ofName s) text).patternFor (ofName t) language = some text) ∧
    (∀ (r : Registry) (scope : Scope) (text : String), (ofName s).name ≠ (ofName t).name →
      ∀ layer language, (r.register scope (ofName s) text).lookup layer (ofName t) language =
        r.lookup layer (ofName t) language) ∧
    ∀ (start : Registry) (calls : List PatternCall),
      (∀ call ∈ calls, ∃ spelling, ofName spelling = call.category) →
      ∀ scope, (start.after calls).get? scope (ofName t) =
        ((calls.reverse.find? fun call => call.scope = scope ∧
          call.category.name = (ofName t).name).map
          PatternCall.text).or (start.get? scope (ofName t)) := by
  have hname := (isNamed_ofName s).name_inj (isNamed_ofName t)
  refine ⟨fun _ => ofKey_eq_builtin_iff, fun name h => ?_, ofName_name_ofName s, hname.symm,
    ⟨?_, Json.read?_render_str _⟩, ?_, ?_, ?_⟩
  · obtain ⟨rfl, hother⟩ := eq_of_ofName_eq_custom h
    have hkey := isKey_normalised s
    exact ⟨rfl, hkey.trimmed, hkey.lower, hother⟩
  · exact congrArg Except.ok (ofName_name_ofName s)
  · intro r scope text heq
    have hget : (r.register scope (ofName s) text).get? scope (ofName t) = some text := by
      rw [Registry.get?_register, if_pos ⟨rfl, (hname.1 heq).symm⟩]
    refine ⟨hget, ?_⟩
    rintro language rfl
    rw [Registry.patternFor_eq, hget, Option.some_or]
  · intro r scope text hne layer language
    exact r.lookup_register_of_ne scope (fun heq => hne (hname.2 heq.symm)) text layer language
  · intro start calls hcalls scope
    exact start.get?_after_of_named hcalls scope (isNamed_ofName t)

/-- A pattern under one spelling of a custom name is found under another. One under the
plural of a built-in name goes to the built-in category. -/
theorem spellings_normalise_routes :
    let routes := Registry.empty.register (.language .go) (ofName "Routes") "(route)"
    let both := routes.register (.language .go) (ofName "Classes") "(class)"
    ofName "Routes" = .custom "routes" ∧ Text.trimmed "routes" = "routes" ∧
      routes.patternFor (ofName "ROUTES") .go = some "(route)" ∧
      both.lookup .effective (ofName "ROUTES") .go =
        routes.lookup .effective (ofName "ROUTES") .go := by
  intro routes both
  have hkey : ofKey "routes" = .custom "routes" := by decide
  have hcustom : ofName "Routes" = .custom "routes" := hkey ▸ ofName_eq_ofKey (by decide)
  have hcapitals : ofName "ROUTES" = .custom "routes" := hkey ▸ ofName_eq_ofKey (by decide)
  have hplural : ofName "Classes" = ofKey "classes" := ofName_eq_ofKey (by decide)
  have hsame : (ofName "Routes").name = (ofName "ROUTES").name := by rw [hcustom, hcapitals]
  have hother : (ofName "Classes").name ≠ (ofName "ROUTES").name := by
    rw [hplural, hcapitals]
    decide
  obtain ⟨-, hnormal, -, -, -, hfound, -, -⟩ := spellings_normalise "Routes" "ROUTES"
  obtain ⟨-, -, -, -, -, -, hkept, -⟩ := spellings_normalise "Classes" "ROUTES"
  have htrimmed : Text.trimmed "routes" = "routes" := (hnormal "routes" hcustom).2.1
  exact ⟨hcustom, htrimmed, (hfound .empty (.language .go) "(route)" hsame).2 .go rfl,
    hkept routes (.language .go) "(class)" hother .effective .go⟩

end Category

end SourceOutline
