import SourceOutline.Proofs.FinalComponents
import SourceOutline.Proofs.Utf8

/-!
# File Names as Texts

A path is made of bytes, and a file name is resolved as a text. What is said of the one
holds of the other: ASCII capitals are made small in the bytes or in the characters with
the same result (`decode?_map_lowerByte`), and the last dot of the bytes is the last dot
of the text (`extensionOfName_encode_iff`). Both rest on the form of UTF-8, in which a
byte below 128 is a character by itself.

`HasExtension` says what an extension is: it follows the last dot, and something stands
before that dot.

## Main results

* `Text.decode?_map_lowerByte`: decoding commutes with making letters small.
* `Text.extensionOfName_encode_iff`: the extension of a name that is a text.
* `Text.hasExtension_toLower_iff`: extensions and small letters.
-/

namespace SourceOutline

/-! ### Small letters in bytes and characters -/

namespace Text

open Utf8
open String (utf8EncodeChar)

/-- A byte, or the small letter in the place of an ASCII capital. -/
def lowerByte (b : UInt8) : UInt8 :=
  if 0x41 ≤ b.toNat ∧ b.toNat ≤ 0x5A then b + 0x20 else b

/-- Bytes that are not ASCII stay as they are. -/
theorem lowerByte_of_high {b : UInt8} (h : 0x80 ≤ b.toNat) : lowerByte b = b :=
  if_neg (by omega)

theorem toLower_of_high {c : Char} (h : 0x80 ≤ c.toNat) : c.toLower = c := by
  refine dif_neg fun hc => ?_
  have hz : c.toNat ≤ 'Z'.toNat := UInt32.le_iff_toNat_le.1 hc.2
  exact absurd (Nat.le_trans h hz) (by decide)

/-- On one byte, small letters are the same for bytes and characters. -/
theorem toLower_charOfNat {b : UInt8} (h : b.toNat < 0x80) :
    (Char.ofNat b.toNat).toLower = Char.ofNat (lowerByte b).toNat ∧
    (lowerByte b).toNat < 0x80 := by
  have hall : ∀ n : Fin 0x80, (Char.ofNat n).toLower =
      Char.ofNat (lowerByte (UInt8.ofNat n)).toNat ∧
      (lowerByte (UInt8.ofNat n)).toNat < 0x80 := by
    decide +kernel
  simpa using hall ⟨b.toNat, h⟩

/-- `lowerByte` changes nothing in a form without ASCII bytes. -/
theorem map_lowerByte_of_high {form : Bytes} (h : ∀ b ∈ form, 0x80 ≤ b.toNat) :
    form.map lowerByte = form := by
  rw [List.map_congr_left fun b hb => lowerByte_of_high (h b hb), List.map_id']

/-- Only bytes that are not ASCII become such. -/
theorem high_of_lowerByte {b : UInt8} (h : 0x80 ≤ (lowerByte b).toNat) : 0x80 ≤ b.toNat := by
  by_contra hlow
  have hlower := (toLower_charOfNat (Nat.not_le.1 hlow)).2
  omega

/-- If a form `Spells` a character, it does so in small letters too. -/
theorem Utf8.Spells.lower {c : Char} {form : Bytes} (h : Spells c form) :
    Spells c.toLower (form.map lowerByte) := by
  rcases h.low_or_high with ⟨b, hb, rfl, rfl⟩ | ⟨hc, -, hform⟩
  · obtain ⟨hlower, hlow⟩ := toLower_charOfNat hb
    rw [hlower]
    exact .one (UInt8.lt_iff_toNat_lt.2 hlow)
  · rwa [toLower_of_high hc, map_lowerByte_of_high hform]

/-- Bytes that spell a character in small letters spell one before that. -/
theorem Utf8.Spells.exists_of_lower {c : Char} {form : Bytes}
    (h : Spells c (form.map lowerByte)) :
    ∃ d, Spells d form ∧ d.toLower = c := by
  rcases h.low_or_high with ⟨b, hb, hform, rfl⟩ | ⟨hc, -, hform⟩
  · obtain ⟨a, rfl, rfl⟩ := List.map_eq_singleton_iff.1 hform
    have ha : a.toNat < 0x80 := by
      by_contra hhigh
      rw [lowerByte_of_high (Nat.not_lt.1 hhigh)] at hb
      exact hhigh hb
    exact ⟨Char.ofNat a.toNat, .one (UInt8.lt_iff_toNat_lt.2 ha), (toLower_charOfNat ha).1⟩
  · have hhigh : ∀ a ∈ form, 0x80 ≤ a.toNat :=
      fun a ha => high_of_lowerByte (hform _ (List.mem_map_of_mem ha))
    rw [map_lowerByte_of_high hhigh] at h
    exact ⟨c, h, toLower_of_high hc⟩

/-- Bytes that encode a text in small letters encode a text before that. -/
theorem map_lowerByte_eq_flatMap_iff {bytes : Bytes} {chars : List Char} :
    bytes.map lowerByte = chars.flatMap utf8EncodeChar ↔
      ∃ cs : List Char, bytes = cs.flatMap utf8EncodeChar ∧ cs.map Char.toLower = chars := by
  constructor
  · intro h
    induction chars generalizing bytes with
    | nil => exact ⟨[], List.map_eq_nil_iff.1 h, rfl⟩
    | cons c chars ih =>
      obtain ⟨form, rest, rfl, hform, hrest⟩ := List.map_eq_append_iff.1 h
      have hspells : Spells c (form.map lowerByte) := hform ▸ spells_utf8EncodeChar c
      obtain ⟨d, hd, rfl⟩ := hspells.exists_of_lower
      obtain ⟨cs, rfl, rfl⟩ := ih hrest
      exact ⟨d :: cs, by rw [List.flatMap_cons, eq_utf8EncodeChar_of_spells hd], rfl⟩
  · rintro ⟨cs, rfl, rfl⟩
    rw [List.map_flatMap, List.flatMap_map]
    refine congrArg (cs.flatMap ·) (funext fun c => ?_)
    exact eq_utf8EncodeChar_of_spells (spells_utf8EncodeChar c).lower

theorem toList_toLower (s : String) : s.toLower.toList = s.toList.map Char.toLower :=
  String.toList_map

/-- **`decode?` commutes with small letters.** -/
theorem decode?_map_lowerByte (bytes : Bytes) :
    decode? (bytes.map lowerByte) = (decode? bytes).map String.toLower := by
  ext text
  rw [decode?_eq_some_iff, encode_eq_flatMap, map_lowerByte_eq_flatMap_iff,
    Option.map_eq_some_iff]
  constructor
  · rintro ⟨cs, rfl, hcs⟩
    refine ⟨String.ofList cs, decode?_eq_some_iff.2 ?_, String.toList_injective ?_⟩
    · rw [encode_eq_flatMap, String.toList_ofList]
    · rw [toList_toLower, String.toList_ofList, hcs]
  · rintro ⟨s, hs, rfl⟩
    rw [decode?_eq_some_iff, encode_eq_flatMap] at hs
    exact ⟨s.toList, hs, (toList_toLower s).symm⟩

/-! ### Dots in bytes and characters -/

theorem encode_append (s t : String) : encode (s ++ t) = encode s ++ encode t := by
  rw [encode_eq_flatMap, encode_eq_flatMap, encode_eq_flatMap, String.toList_append,
    List.flatMap_append]

/-- A byte of `encode` is a dot just where a character is. -/
theorem dot_mem_encode_iff {s : String} : Path.dot ∈ encode s ↔ '.' ∈ s.toList := by
  rw [encode_eq_flatMap, List.mem_flatMap]
  constructor
  · rintro ⟨c, hc, hdot⟩
    rcases (spells_utf8EncodeChar c).low_or_high with ⟨b, -, hform, rfl⟩ | ⟨-, -, hform⟩
    · rw [hform, List.mem_singleton] at hdot
      rwa [← hdot] at hc
    · exact absurd (hform _ hdot) (by decide)
  · intro h
    exact ⟨'.', h, by decide⟩

/-- A name with something before its last dot, and what follows that. -/
def HasExtension (name ext : String) : Prop :=
  '.' ∉ ext.toList ∧ ∃ before, before ≠ "" ∧ name = before ++ "." ++ ext

/-- A dot that is not the first character gives an extension. -/
theorem exists_hasExtension {before : String} (hbefore : before ≠ "") (rest : String) :
    ∃ ext, HasExtension (before ++ "." ++ rest) ext := by
  have hne : before.toList ≠ [] := fun hnil => hbefore (String.toList_injective hnil)
  obtain ⟨earlier, later, hlist, hearlier, hlater⟩ :=
    Path.exists_last_after hne '.' rest.toList
  refine ⟨String.ofList later, by simpa using hlater, String.ofList earlier,
    fun hempty => hearlier ?_, ?_⟩
  · simpa using congrArg String.toList hempty
  · apply String.toList_injective
    simpa using hlist

/-- `encode` of a name with a dot in it. -/
theorem encode_append_dot (before ext : String) :
    encode (before ++ "." ++ ext) = encode before ++ Path.dot :: encode ext := by
  have hdot : encode "." = [Path.dot] := by decide
  rw [encode_append, encode_append, hdot, List.append_assoc, List.singleton_append]

theorem encode_eq_nil_iff {s : String} : encode s = [] ↔ s = "" := by
  have hempty : encode "" = [] := by decide
  rw [← hempty, encode_inj]

/-- **`extensionOfName` of a name that is a text** is what follows the last dot of the
text. -/
theorem extensionOfName_encode_iff {s : String} {bytes : Bytes} :
    Path.extensionOfName (encode s) = some bytes ↔ ∃ ext, HasExtension s ext ∧
      bytes = encode ext := by
  rw [Path.extensionOfName_eq_some_iff]
  constructor
  · rintro ⟨hbytes, before, hbefore, hs⟩
    have hdot : '.' ∈ s.toList :=
      dot_mem_encode_iff.1 (hs ▸ List.mem_append_right _ List.mem_cons_self)
    obtain ⟨earlier, later, hlist, hlater⟩ := Path.exists_last_of_mem hdot
    obtain rfl : s = String.ofList earlier ++ "." ++ String.ofList later := by
      apply String.toList_injective
      simp [hlist]
    -- the last dot of the bytes is the last dot of the text
    have hsplit := Path.splitLastDot_eq_some_iff.2 ⟨hs, hbytes⟩
    have hlater : Path.dot ∉ encode (String.ofList later) := by
      rwa [dot_mem_encode_iff, String.toList_ofList]
    rw [encode_append_dot, Path.splitLastDot_append hlater, Option.some.injEq,
      Prod.mk.injEq] at hsplit
    obtain ⟨rfl, rfl⟩ := hsplit
    refine ⟨String.ofList later,
      ⟨mt dot_mem_encode_iff.2 hlater, String.ofList earlier, ?_, rfl⟩, rfl⟩
    intro hempty
    exact hbefore (encode_eq_nil_iff.2 hempty)
  · rintro ⟨ext, ⟨hext, before, hbefore, rfl⟩, rfl⟩
    exact ⟨mt dot_mem_encode_iff.1 hext, encode before, mt encode_eq_nil_iff.1 hbefore,
      encode_append_dot before ext⟩

theorem toLower_eq_dot_iff {c : Char} : c.toLower = '.' ↔ c = '.' := by
  refine ⟨fun h => ?_, fun h => by rw [h]; rfl⟩
  by_cases hc : c.toNat < 0x80
  · have hall : ∀ n : Fin 0x80, (Char.ofNat n).toLower = '.' →
        Char.ofNat n = '.' := by decide +kernel
    have hchar := hall ⟨c.toNat, hc⟩
    rw [Char.ofNat_toNat] at hchar
    exact hchar h
  · rwa [toLower_of_high (Nat.not_lt.1 hc)] at h

/-- Extensions are found in small letters as they are in any. -/
theorem hasExtension_toLower_iff {s ext : String} :
    HasExtension s.toLower ext ↔ ∃ e, HasExtension s e ∧ ext = e.toLower := by
  constructor
  · rintro ⟨hext, before, hbefore, hs⟩
    have hs : s.toList.map Char.toLower = before.toList ++ '.' :: ext.toList := by
      rw [← toList_toLower, hs]
      simp
    obtain ⟨earlier, tail, hname, hearlier, htail⟩ := List.map_eq_append_iff.1 hs
    obtain ⟨d, rest, rfl, hd, hrest⟩ := List.map_eq_cons_iff.1 htail
    obtain rfl := toLower_eq_dot_iff.1 hd
    refine ⟨String.ofList rest, ⟨fun hmem => hext ?_, String.ofList earlier, ?_, ?_⟩, ?_⟩
    · rw [← hrest]
      exact List.mem_map_of_mem (by simpa using hmem)
    · intro hempty
      have hnil : earlier = [] := by simpa using congrArg String.toList hempty
      rw [hnil] at hearlier
      exact hbefore (String.toList_injective hearlier.symm)
    · exact String.toList_injective (by simp [hname])
    · exact String.toList_injective (by rw [toList_toLower, String.toList_ofList, hrest])
  · rintro ⟨e, ⟨he, before, hbefore, rfl⟩, rfl⟩
    refine ⟨fun hmem => he ?_, before.toLower, fun hempty => hbefore ?_,
      String.toList_injective ?_⟩
    · rw [toList_toLower] at hmem
      obtain ⟨c, hc, hdot⟩ := List.mem_map.1 hmem
      rwa [toLower_eq_dot_iff.1 hdot] at hc
    · have hnil : before.toList.map Char.toLower = [] := by rw [← toList_toLower, hempty]; rfl
      exact String.toList_injective (List.map_eq_nil_iff.1 hnil)
    · simp only [toList_toLower, String.toList_append, List.map_append]
      rfl

end Text

end SourceOutline
