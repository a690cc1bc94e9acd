/-!
# Decoding Bytes as UTF-8

`parts` reads a byte text from left to right and cuts it into characters and ill-formed
parts. An ill-formed part is as long as possible: the longest run of bytes that starts
some encoded character without being one, or else a single byte. `lossy` puts U+FFFD in
the place of each such part, `decode?` accepts only texts without one.

## Main statements

* `decodeChars?_eq_some_iff`: strict decoding succeeds exactly on texts without an
  ill-formed part.
-/

namespace SourceOutline

/-- Raw bytes of a source, a file or a path. -/
abbrev Bytes := List UInt8

namespace Text

/-- The bytes of a text in UTF-8. -/
def encode (s : String) : Bytes :=
  s.toUTF8.data.toList

namespace Utf8

/-- The length of the encoded character that a lead byte announces. -/
inductive Width where
  | two
  | three
  | four
  deriving DecidableEq, Repr

/-- What a lead byte announces: the length of the character and the range of its second
byte. -/
def lead (b : UInt8) : Option (Width × UInt8 × UInt8) :=
  if 0xC2 ≤ b && b ≤ 0xDF then some (.two, 0x80, 0xBF)
  else if b == 0xE0 then some (.three, 0xA0, 0xBF)
  else if b == 0xED then some (.three, 0x80, 0x9F)
  else if 0xE1 ≤ b && b ≤ 0xEF then some (.three, 0x80, 0xBF)
  else if b == 0xF0 then some (.four, 0x90, 0xBF)
  else if 0xF1 ≤ b && b ≤ 0xF3 then some (.four, 0x80, 0xBF)
  else if b == 0xF4 then some (.four, 0x80, 0x8F)
  else none

/-- Whether a byte continues an encoded character. -/
def continues (b : UInt8) : Bool :=
  0x80 ≤ b && b ≤ 0xBF

/-- The character encoded by two bytes. -/
def char2 (a b : UInt8) : Char :=
  Char.ofNat ((a.toNat - 0xC0) * 64 + (b.toNat - 0x80))

/-- The character encoded by three bytes. -/
def char3 (a b c : UInt8) : Char :=
  Char.ofNat (((a.toNat - 0xE0) * 64 + (b.toNat - 0x80)) * 64 + (c.toNat - 0x80))

/-- The character encoded by four bytes. -/
def char4 (a b c d : UInt8) : Char :=
  Char.ofNat
    ((((a.toNat - 0xF0) * 64 + (b.toNat - 0x80)) * 64 + (c.toNat - 0x80)) * 64 +
      (d.toNat - 0x80))

end Utf8

open Utf8 in
/-- The characters of a byte text in order, with `none` for each ill-formed part. -/
def parts : Bytes → List (Option Char)
  | [] => []
  | a :: rest =>
    if a < 0x80 then some (Char.ofNat a.toNat) :: parts rest
    else match lead a with
      | none => none :: parts rest
      | some (width, lo, hi) =>
        match rest with
        | [] => [none]
        | b :: rest₂ =>
          if !(lo ≤ b && b ≤ hi) then none :: parts (b :: rest₂)
          else match width with
            | .two => some (char2 a b) :: parts rest₂
            | .three =>
              match rest₂ with
              | [] => [none]
              | c :: rest₃ =>
                if !continues c then none :: parts (c :: rest₃)
                else some (char3 a b c) :: parts rest₃
            | .four =>
              match rest₂ with
              | [] => [none]
              | c :: rest₃ =>
                if !continues c then none :: parts (c :: rest₃)
                else match rest₃ with
                  | [] => [none]
                  | d :: rest₄ =>
                    if !continues d then none :: parts (d :: rest₄)
                    else some (char4 a b c d) :: parts rest₄

/-- The characters of a byte text, U+FFFD standing for each ill-formed part. -/
def lossyChars (bytes : Bytes) : List Char :=
  (parts bytes).map (·.getD '\uFFFD')

/-- `lossyChars` as a string. -/
def lossy (bytes : Bytes) : String :=
  String.ofList (lossyChars bytes)

/-- The characters of a byte text without ill-formed parts. -/
def decodeChars? (bytes : Bytes) : Option (List Char) :=
  (parts bytes).mapM id

/-- `decodeChars?` as a string. -/
def decode? (bytes : Bytes) : Option String :=
  (decodeChars? bytes).map String.ofList

/-- Strict decoding succeeds exactly on texts without an ill-formed part. -/
theorem decodeChars?_eq_some_iff {bytes : Bytes} {cs : List Char} :
    decodeChars? bytes = some cs ↔ parts bytes = cs.map some := by
  unfold decodeChars?
  generalize parts bytes = ps
  induction ps generalizing cs with
  | nil => cases cs <;> simp
  | cons p ps ih =>
    cases p with
    | none => cases cs <;> simp
    | some c =>
      cases cs with
      | nil => simp [Option.bind_eq_some_iff]
      | cons d ds =>
        simp only [List.mapM_cons, id, Option.bind_eq_bind, Option.bind_some, Option.pure_def,
          Option.bind_eq_some_iff, ih, List.map_cons, List.cons.injEq, Option.some.injEq]
        exact ⟨fun ⟨_, h, hc, hds⟩ => ⟨hc, hds ▸ h⟩, fun ⟨hc, h⟩ => ⟨ds, h, hc, rfl⟩⟩

end Text

end SourceOutline
