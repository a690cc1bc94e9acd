import SourceOutline.Proofs.Utf8

/-!
# The Order of Bytes

Texts are compared character by character, and byte texts byte by byte. The UTF-8 forms of
texts are in the same order as the texts: the first byte tells how long a form is, and
longer forms belong to larger characters; forms of one length are compared digit by digit.
So names that are in order are in the order of their bytes.

## Main results

* `utf8EncodeChar_append_lt`: a smaller character has a smaller form, whatever comes after
  the two.
* `encode_lt_encode_iff`, `encode_le_encode_iff`: texts are ordered like their bytes.
-/

namespace SourceOutline.Text

open String (utf8EncodeChar)

/-- Byte texts are compared by what follows only if their first bytes are the same. -/
theorem ofNat_cons_lt {m n : Nat} {s t : Bytes} (hn : n < 256) (hle : m ≤ n)
    (h : m = n → s < t) :
    UInt8.ofNat m :: s < UInt8.ofNat n :: t := by
  rw [List.cons_lt_cons_iff]
  rcases Nat.lt_or_eq_of_le hle with hlt | rfl
  · left
    rw [UInt8.lt_iff_toNat_lt, UInt8.toNat_ofNat_of_lt' hn,
      UInt8.toNat_ofNat_of_lt' (Nat.lt_trans hlt hn)]
    exact hlt
  · exact Or.inr ⟨rfl, h rfl⟩

/-- Byte texts with different first bytes are compared by these. -/
theorem ofNat_cons_lt_of_lt {m n : Nat} {s t : Bytes} (hn : n < 256) (h : m < n) :
    UInt8.ofNat m :: s < UInt8.ofNat n :: t :=
  ofNat_cons_lt hn (Nat.le_of_lt h) fun heq => absurd heq (Nat.ne_of_lt h)

/-- **A smaller character has a smaller form**, whatever comes after the two. -/
theorem utf8EncodeChar_append_lt {c d : Char} (h : c < d) (s t : Bytes) :
    utf8EncodeChar c ++ s < utf8EncodeChar d ++ t := by
  have hlt : c.val.toNat < d.val.toNat := h
  have hvalid : d.val.toNat < 0x110000 := by
    rcases d.valid with hsmall | ⟨-, hlarge⟩
    · exact Nat.lt_trans hsmall (by decide)
    · exact hlarge
  unfold utf8EncodeChar
  generalize c.val.toNat = m at hlt
  generalize d.val.toNat = n at hlt hvalid
  -- one length after the other: both have it, or the smaller character alone, or neither
  by_cases hn₁ : n ≤ 127
  · simp only [hn₁, if_pos, show m ≤ 127 by omega]
    exact ofNat_cons_lt_of_lt (by omega) hlt
  by_cases hm₁ : m ≤ 127
  · simp only [hn₁, hm₁, if_pos, if_neg, not_false_eq_true]
    split
    · exact ofNat_cons_lt_of_lt (by omega) (by omega)
    split
    · exact ofNat_cons_lt_of_lt (by omega) (by omega)
    · exact ofNat_cons_lt_of_lt (by omega) (by omega)
  by_cases hn₂ : n ≤ 2047
  · simp only [hn₁, hm₁, hn₂, if_pos, if_neg, not_false_eq_true, show m ≤ 2047 by omega]
    refine ofNat_cons_lt (by omega) (by omega) fun hlead => ?_
    exact ofNat_cons_lt_of_lt (by omega) (by omega)
  by_cases hm₂ : m ≤ 2047
  · simp only [hn₁, hm₁, hn₂, hm₂, if_pos, if_neg, not_false_eq_true]
    split
    · exact ofNat_cons_lt_of_lt (by omega) (by omega)
    · exact ofNat_cons_lt_of_lt (by omega) (by omega)
  by_cases hn₃ : n ≤ 65535
  · simp only [hn₁, hm₁, hn₂, hm₂, hn₃, if_pos, if_neg, not_false_eq_true, show m ≤
      65535 by omega]
    refine ofNat_cons_lt (by omega) (by omega) fun hlead => ?_
    refine ofNat_cons_lt (by omega) (by omega) fun hsecond => ?_
    exact ofNat_cons_lt_of_lt (by omega) (by omega)
  by_cases hm₃ : m ≤ 65535
  · simp only [hn₁, hm₁, hn₂, hm₂, hn₃, hm₃, if_pos, if_neg, not_false_eq_true]
    exact ofNat_cons_lt_of_lt (by omega) (by omega)
  · simp only [hn₁, hm₁, hn₂, hm₂, hn₃, hm₃, if_neg, not_false_eq_true]
    refine ofNat_cons_lt (by omega) (by omega) fun hlead => ?_
    refine ofNat_cons_lt (by omega) (by omega) fun hsecond => ?_
    refine ofNat_cons_lt (by omega) (by omega) fun hthird => ?_
    exact ofNat_cons_lt_of_lt (by omega) (by omega)

/-- No form of a character is empty. -/
theorem utf8EncodeChar_ne_nil (c : Char) : utf8EncodeChar c ≠ [] := by
  unfold utf8EncodeChar
  dsimp only
  split
  · exact List.cons_ne_nil _ _
  split
  · exact List.cons_ne_nil _ _
  split
  · exact List.cons_ne_nil _ _
  · exact List.cons_ne_nil _ _

/-- Smaller lists of characters have smaller forms. -/
theorem flatMap_utf8EncodeChar_lt {cs ds : List Char} (h : cs < ds) :
    cs.flatMap utf8EncodeChar < ds.flatMap utf8EncodeChar := by
  induction cs generalizing ds with
  | nil =>
    cases ds with
    | nil => exact absurd h (List.lt_irrefl [])
    | cons d ds =>
      cases hform : utf8EncodeChar d with
      | nil => exact absurd hform (utf8EncodeChar_ne_nil d)
      | cons b bs =>
        rw [List.flatMap_cons, hform]
        exact List.nil_lt_cons _ _
  | cons c cs ih =>
    cases ds with
    | nil => exact absurd h (List.not_lt_nil _)
    | cons d ds =>
      rw [List.flatMap_cons, List.flatMap_cons]
      rcases List.cons_lt_cons_iff.1 h with hlt | ⟨rfl, hrest⟩
      · exact utf8EncodeChar_append_lt hlt _ _
      · exact List.append_left_lt (ih hrest)

/-- **Texts are ordered like their bytes**: `encode` keeps and reflects the order. -/
theorem encode_lt_encode_iff (a b : String) : encode a < encode b ↔ a < b := by
  have himp {a b : String} (h : a < b) : encode a < encode b := by
    rw [encode_eq_flatMap, encode_eq_flatMap]
    exact flatMap_utf8EncodeChar_lt h
  refine ⟨fun h => ?_, himp⟩
  apply Classical.byContradiction
  intro hnot
  by_cases heq : a = b
  · subst heq
    exact List.lt_irrefl _ h
  · have hba : b < a := by
      apply Classical.byContradiction
      intro hnot'
      exact heq (String.le_antisymm (String.not_lt.1 hnot') (String.not_lt.1 hnot))
    exact List.lt_asymm h (himp hba)

/-- The same for the order that allows equality, since `encode` is injective. -/
theorem encode_le_encode_iff (a b : String) : encode a ≤ encode b ↔ a ≤ b := by
  rw [← List.not_lt, ← String.not_lt, encode_lt_encode_iff]

end SourceOutline.Text
