import Mathlib.Tactic.SplitIfs
import SourceOutline.Text.Utf8

/-!
# Decoding Inverts Encoding

Strict decoding takes bytes to a text exactly if they are the UTF-8 form of that text.
`Spells` says which bytes the decoder takes for a character. These are the bytes that the
encoder writes for it, so the decoder reads a text character by character if and only if
the encoder wrote it.

## Main results

* `parts_append_of_spells`, `exists_spells_of_parts`: the decoder finds a character
  exactly where bytes stand that spell it.
* `eq_utf8EncodeChar_of_spells`, `spells_utf8EncodeChar`: what spells a character is its
  UTF-8 form.
* `Utf8.Spells.low_or_high`: a character is spelled by one byte below 128, or by bytes
  from 128 on.
* `decode?_eq_some_iff`: bytes decode to a text if and only if they are its UTF-8 form.
* `encode_inj`: a text is told by its UTF-8 form.
-/

namespace SourceOutline.Text

open String (utf8EncodeChar)

/-- `encode` writes a text character by character. -/
theorem encode_eq_flatMap (s : String) : encode s = s.toList.flatMap utf8EncodeChar := by
  have hform : (String.ofList s.toList).toByteArray =
      (s.toList.flatMap utf8EncodeChar).toByteArray := rfl
  rw [String.ofList_toList] at hform
  rw [encode, String.toUTF8_eq_toByteArray, hform, List.toList_data_toByteArray]

/-! ### Bytes by their numbers -/

namespace Utf8

/-- What a `lead` byte announces. -/
theorem lead_eq (a : UInt8) :
    lead a =
      if 0xC2 ≤ a.toNat ∧ a.toNat ≤ 0xDF then some (.two, 0x80, 0xBF)
      else if a.toNat = 0xE0 then some (.three, 0xA0, 0xBF)
      else if a.toNat = 0xED then some (.three, 0x80, 0x9F)
      else if 0xE1 ≤ a.toNat ∧ a.toNat ≤ 0xEF then some (.three, 0x80, 0xBF)
      else if a.toNat = 0xF0 then some (.four, 0x90, 0xBF)
      else if 0xF1 ≤ a.toNat ∧ a.toNat ≤ 0xF3 then some (.four, 0x80, 0xBF)
      else if a.toNat = 0xF4 then some (.four, 0x80, 0x8F)
      else none := by
  simp [lead, UInt8.le_iff_toNat_le, ← UInt8.toNat_inj]

/-- A byte that announces more is no character by itself. -/
theorem not_lt_of_lead {a : UInt8} {announced : Width × UInt8 × UInt8}
    (h : lead a = some announced) :
    ¬ a < 0x80 := by
  intro hlt
  have hlt : a.toNat < 0x80 := UInt8.lt_iff_toNat_lt.1 hlt
  rw [lead_eq] at h
  split_ifs at h <;> omega

/-- A byte announces a character of some length, and another may come second. -/
def Opens (width : Width) (a b : UInt8) : Prop :=
  ∃ announced, lead a = some announced ∧ announced.1 = width ∧ announced.2.1 ≤ b ∧
    b ≤ announced.2.2

/-- `Opens` for characters of two bytes. -/
theorem opens_two_iff {a b : UInt8} :
    Opens .two a b ↔ 0xC2 ≤ a.toNat ∧ a.toNat ≤ 0xDF ∧ 0x80 ≤ b.toNat ∧ b.toNat ≤ 0xBF := by
  simp only [Opens, lead_eq, UInt8.le_iff_toNat_le]
  split_ifs <;> simp <;> omega

/-- `Opens` for characters of three bytes: no short forms, and no surrogates. -/
theorem opens_three_iff {a b : UInt8} :
    Opens .three a b ↔ 0xE0 ≤ a.toNat ∧ a.toNat ≤ 0xEF ∧ 0x80 ≤ b.toNat ∧ b.toNat ≤ 0xBF ∧
      (a.toNat = 0xE0 → 0xA0 ≤ b.toNat) ∧ (a.toNat = 0xED → b.toNat ≤ 0x9F) := by
  simp only [Opens, lead_eq, UInt8.le_iff_toNat_le]
  split_ifs <;> simp <;> omega

/-- `Opens` for characters of four bytes: no short forms, and nothing beyond the last
character. -/
theorem opens_four_iff {a b : UInt8} :
    Opens .four a b ↔ 0xF0 ≤ a.toNat ∧ a.toNat ≤ 0xF4 ∧ 0x80 ≤ b.toNat ∧ b.toNat ≤ 0xBF ∧
      (a.toNat = 0xF0 → 0x90 ≤ b.toNat) ∧ (a.toNat = 0xF4 → b.toNat ≤ 0x8F) := by
  simp only [Opens, lead_eq, UInt8.le_iff_toNat_le]
  split_ifs <;> simp <;> omega

/-- Which bytes may come third or fourth. -/
theorem continues_iff {b : UInt8} : continues b = true ↔ 0x80 ≤ b.toNat ∧ b.toNat ≤ 0xBF := by
  simp [continues, UInt8.le_iff_toNat_le]

/-- The bytes that stand for a character. -/
inductive Spells : Char → Bytes → Prop
  | one {a : UInt8} : a < 0x80 → Spells (Char.ofNat a.toNat) [a]
  | two {a b : UInt8} : Opens .two a b → Spells (char2 a b) [a, b]
  | three {a b c : UInt8} : Opens .three a b → continues c = true →
    Spells (char3 a b c) [a, b, c]
  | four {a b c d : UInt8} : Opens .four a b → continues c = true → continues d = true →
      Spells (char4 a b c d) [a, b, c, d]

end Utf8

open Utf8

/-! ### The decoder -/

/-- The decoder finds a character where bytes stand that spell it (`Spells`). -/
theorem parts_append_of_spells {char : Char} {form : Bytes} (h : Spells char form)
    (rest : Bytes) :
    parts (form ++ rest) = some char :: parts rest := by
  cases h with
  | one ha => simp [parts, ha]
  | two h =>
    obtain ⟨⟨width, lo, hi⟩, hlead, rfl, hlo, hhi⟩ := h
    simp_all [parts, not_lt_of_lead hlead]
  | three h hc =>
    obtain ⟨⟨width, lo, hi⟩, hlead, rfl, hlo, hhi⟩ := h
    simp_all [parts, not_lt_of_lead hlead]
  | four h hc hd =>
    obtain ⟨⟨width, lo, hi⟩, hlead, rfl, hlo, hhi⟩ := h
    simp_all [parts, not_lt_of_lead hlead]

/-- The decoder finds a character only where bytes stand that spell it. -/
theorem exists_spells_of_parts {bytes : Bytes} {char : Char} {found : List (Option Char)}
    (h : parts bytes = some char :: found) :
    ∃ form rest, Spells char form ∧ bytes = form ++ rest ∧ parts rest = found := by
  -- what is spelled first is what is found first
  have hfirst : ∀ {first : Char} {form rest : Bytes}, Spells first form →
      bytes = form ++ rest →
      ∃ form rest, Spells char form ∧ bytes = form ++ rest ∧ parts rest = found := by
    intro first form rest hspells hbytes
    rw [hbytes, parts_append_of_spells hspells] at h
    obtain ⟨hchar, hfound⟩ := List.cons.inj h
    obtain rfl := Option.some.inj hchar
    exact ⟨form, rest, hspells, hbytes, hfound⟩
  fun_cases parts bytes
  case case1 => cases h
  case case2 ha => exact hfirst (.one ha) rfl
  case case6 hb hlead => exact hfirst (.two ⟨_, hlead, rfl, by simpa using hb⟩) rfl
  case case9 hb _ _ hc hlead =>
    exact hfirst (.three ⟨_, hlead, rfl, by simpa using hb⟩ (by simpa using hc)) rfl
  case case14 hb _ hc _ _ hd hlead =>
    exact hfirst (.four ⟨_, hlead, rfl, by simpa using hb⟩ (by simpa using hc)
      (by simpa using hd)) rfl
  -- elsewhere the decoder finds an ill-formed part first
  all_goals
    clear hfirst
    rw [parts, if_neg (by assumption)] at h
    simp_all

/-- `parts` finds something in any bytes. -/
theorem parts_eq_nil_iff {bytes : Bytes} : parts bytes = [] ↔ bytes = [] := by
  refine ⟨fun h => ?_, fun h => by rw [h, parts]⟩
  cases bytes with
  | nil => rfl
  | cons a rest =>
    rw [parts] at h
    split_ifs at h
    repeat' split at h
    all_goals cases h

/-! ### The encoder -/

/-- The number of a character that is given by its number. -/
theorem toNat_charOfNat {n : Nat} (h : n < 0xD800 ∨ 0xDFFF < n ∧ n < 0x110000) :
    (Char.ofNat n).val.toNat = n := by
  rw [Char.ofNat, dif_pos h]
  rfl

/-- A byte is known by its number. -/
theorem byteOfNat_eq {n : Nat} {b : UInt8} (h : n = b.toNat) : UInt8.ofNat n = b := by
  rw [h, UInt8.ofNat_toNat]

/-- What `Spells` a character is what the encoder writes for it. -/
theorem eq_utf8EncodeChar_of_spells {char : Char} {form : Bytes} (h : Spells char form) :
    form = utf8EncodeChar char := by
  cases h with
  | @one a ha =>
    have ha : a.toNat < 0x80 := UInt8.lt_iff_toNat_lt.1 ha
    rw [utf8EncodeChar, toNat_charOfNat (by omega), if_pos (by omega), UInt8.ofNat_toNat]
  | @two a b h =>
    have h := opens_two_iff.1 h
    rw [utf8EncodeChar, char2, toNat_charOfNat (by omega)]
    rw [if_neg (by omega), if_pos (by omega)]
    rw [byteOfNat_eq (b := a) (by omega), byteOfNat_eq (b := b) (by omega)]
  | @three a b c h hc =>
    have h := opens_three_iff.1 h
    have hc := continues_iff.1 hc
    rw [utf8EncodeChar, char3, toNat_charOfNat (by omega)]
    rw [if_neg (by omega), if_neg (by omega), if_pos (by omega)]
    rw [byteOfNat_eq (b := a) (by omega), byteOfNat_eq (b := b) (by omega),
      byteOfNat_eq (b := c) (by omega)]
  | @four a b c d h hc hd =>
    have h := opens_four_iff.1 h
    have hc := continues_iff.1 hc
    have hd := continues_iff.1 hd
    rw [utf8EncodeChar, char4, toNat_charOfNat (by omega)]
    rw [if_neg (by omega), if_neg (by omega), if_neg (by omega)]
    rw [byteOfNat_eq (b := a) (by omega), byteOfNat_eq (b := b) (by omega),
      byteOfNat_eq (b := c) (by omega), byteOfNat_eq (b := d) (by omega)]

/-- What the encoder writes for a character spells it. -/
theorem spells_utf8EncodeChar (char : Char) : Spells char (utf8EncodeChar char) := by
  have hvalid : char.val.toNat < 0xD800 ∨ 0xDFFF < char.val.toNat ∧
      char.val.toNat < 0x110000 := char.valid
  have hchar : ∀ n, n = char.val.toNat → Char.ofNat n = char := by
    rintro n rfl
    exact Char.ofNat_toNat char
  have hbyte : ∀ n, n < 0x100 → (UInt8.ofNat n).toNat = n :=
    fun n hn => UInt8.toNat_ofNat_of_lt' hn
  unfold utf8EncodeChar
  generalize char.val.toNat = v at hvalid hchar
  dsimp only
  split_ifs with h₁ h₂ h₃
  · have ha := hbyte v (by omega)
    have hform : Char.ofNat (UInt8.ofNat v).toNat = char := hchar _ (by omega)
    rw [← hform]
    refine .one (UInt8.lt_iff_toNat_lt.2 ?_)
    rw [ha]
    exact Nat.lt_succ_of_le h₁
  · have ha := hbyte (v / 64 % 32 + 0xC0) (by omega)
    have hb := hbyte (v % 64 + 0x80) (by omega)
    have hform : char2 (.ofNat (v / 64 % 32 + 0xC0)) (.ofNat (v % 64 + 0x80)) = char :=
      hchar _ (by omega)
    rw [← hform]
    exact .two (opens_two_iff.2 (by omega))
  · have ha := hbyte (v / 4096 % 16 + 0xE0) (by omega)
    have hb := hbyte (v / 64 % 64 + 0x80) (by omega)
    have hc := hbyte (v % 64 + 0x80) (by omega)
    have hform : char3 (.ofNat (v / 4096 % 16 + 0xE0)) (.ofNat (v / 64 % 64 + 0x80))
        (.ofNat (v % 64 + 0x80)) = char := hchar _ (by omega)
    rw [← hform]
    exact .three (opens_three_iff.2 (by omega)) (continues_iff.2 (by omega))
  · have ha := hbyte (v / 262144 % 8 + 0xF0) (by omega)
    have hb := hbyte (v / 4096 % 64 + 0x80) (by omega)
    have hc := hbyte (v / 64 % 64 + 0x80) (by omega)
    have hd := hbyte (v % 64 + 0x80) (by omega)
    have hform : char4 (.ofNat (v / 262144 % 8 + 0xF0)) (.ofNat (v / 4096 % 64 + 0x80))
        (.ofNat (v / 64 % 64 + 0x80)) (.ofNat (v % 64 + 0x80)) = char := hchar _ (by omega)
    rw [← hform]
    exact .four (opens_four_iff.2 (by omega)) (continues_iff.2 (by omega))
      (continues_iff.2 (by omega))

/-- A character is written with one byte below 128, or with bytes from 128 on. -/
theorem Utf8.Spells.low_or_high {c : Char} {form : Bytes} (h : Spells c form) :
    (∃ b : UInt8, b.toNat < 0x80 ∧ form = [b] ∧ c = Char.ofNat b.toNat) ∨
    0x80 ≤ c.toNat ∧ form ≠ [] ∧ ∀ b ∈ form, 0x80 ≤ b.toNat := by
  cases h with
  | @one a ha => exact Or.inl ⟨a, UInt8.lt_iff_toNat_lt.1 ha, rfl, rfl⟩
  | @two a b h =>
    have h := opens_two_iff.1 h
    have hchar : (char2 a b).toNat = _ := toNat_charOfNat (by omega)
    refine Or.inr ⟨?_, by simp, ?_⟩
    · omega
    · simp
      omega
  | @three a b c h hc =>
    have h := opens_three_iff.1 h
    have hc := continues_iff.1 hc
    have hchar : (char3 a b c).toNat = _ := toNat_charOfNat (by omega)
    refine Or.inr ⟨?_, by simp, ?_⟩
    · omega
    · simp
      omega
  | @four a b c d h hc hd =>
    have h := opens_four_iff.1 h
    have hc := continues_iff.1 hc
    have hd := continues_iff.1 hd
    have hchar : (char4 a b c d).toNat = _ := toNat_charOfNat (by omega)
    refine Or.inr ⟨?_, by simp, ?_⟩
    · omega
    · simp
      omega

/-! ### Texts -/

/-- `parts` gives characters without ill-formed parts exactly where their forms stand. -/
theorem parts_eq_map_some_iff {bytes : Bytes} {chars : List Char} :
    parts bytes = chars.map some ↔ bytes = chars.flatMap utf8EncodeChar := by
  induction chars generalizing bytes with
  | nil => exact parts_eq_nil_iff
  | cons char chars ih =>
    rw [List.map_cons, List.flatMap_cons]
    constructor
    · intro h
      obtain ⟨form, rest, hspells, rfl, hrest⟩ := exists_spells_of_parts h
      rw [eq_utf8EncodeChar_of_spells hspells, ih.1 hrest]
    · rintro rfl
      rw [parts_append_of_spells (spells_utf8EncodeChar char), ih.2 rfl]

/-- **Bytes decode to a text if and only if they are its UTF-8 form**: `decode?` is the
inverse of `encode`. -/
theorem decode?_eq_some_iff {bytes : Bytes} {text : String} :
    decode? bytes = some text ↔ bytes = encode text := by
  rw [encode_eq_flatMap, ← parts_eq_map_some_iff, ← decodeChars?_eq_some_iff, decode?,
    Option.map_eq_some_iff]
  constructor
  · rintro ⟨chars, hchars, rfl⟩
    rwa [String.toList_ofList]
  · intro h
    exact ⟨text.toList, h, String.ofList_toList⟩

/-- `encode` is injective. -/
theorem encode_inj {s s' : String} : encode s = encode s' ↔ s = s' := by
  constructor
  · intro h
    have hdecode : decode? (encode s) = some s := decode?_eq_some_iff.2 rfl
    rw [h, decode?_eq_some_iff.2 rfl] at hdecode
    exact (Option.some.inj hdecode).symm
  · rintro rfl
    rfl

end SourceOutline.Text
