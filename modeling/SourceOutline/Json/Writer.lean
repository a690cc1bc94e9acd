import SourceOutline.Data.Basic

/-!
# Writing JSON

`Json.render` writes a value in the compact form: no blanks, map entries in their order,
and of the characters in a text only quotes, backslashes and controls below U+0020
escaped.
-/

namespace SourceOutline.Json

/-- One character inside a text. -/
def escapeChar (c : Char) : List Char :=
  if c = '"' then ['\\', '"']
  else if c = '\\' then ['\\', '\\']
  else if c.toNat < 0x20 then
    if c.toNat = 0x08 then ['\\', 'b']
    else if c.toNat = 0x09 then ['\\', 't']
    else if c.toNat = 0x0A then ['\\', 'n']
    else if c.toNat = 0x0C then ['\\', 'f']
    else if c.toNat = 0x0D then ['\\', 'r']
    else ['\\', 'u', '0', '0', Nat.digitChar (c.toNat / 16), Nat.digitChar (c.toNat % 16)]
  else [c]

/-- A text between double quotes. -/
def renderString (cs : List Char) : List Char :=
  '"' :: cs.flatMap escapeChar ++ ['"']

/-- An integer in decimal. -/
def renderInt (n : Int) : List Char :=
  if n < 0 then '-' :: Nat.toDigits 10 n.natAbs else Nat.toDigits 10 n.natAbs

mutual

/-- A value in compact form, as characters. -/
def renderChars : Data → List Char
  | .null => ['n', 'u', 'l', 'l']
  | .bool true => ['t', 'r', 'u', 'e']
  | .bool false => ['f', 'a', 'l', 's', 'e']
  | .int n => renderInt n
  | .float d => d.text.toList
  | .str s => renderString s.toList
  | .seq elements => '[' :: renderElements elements ++ [']']
  | .map entries => '{' :: renderEntries entries ++ ['}']

/-- Elements separated by commas. -/
def renderElements : List Data → List Char
  | [] => []
  | [d] => renderChars d
  | d :: ds => renderChars d ++ ',' :: renderElements ds

/-- Entries separated by commas. -/
def renderEntries : List (String × Data) → List Char
  | [] => []
  | [(key, d)] => renderString key.toList ++ ':' :: renderChars d
  | (key, d) :: rest =>
    renderString key.toList ++ ':' :: renderChars d ++ ',' :: renderEntries rest

end

/-- A value in compact form. -/
def render (d : Data) : String :=
  String.ofList (renderChars d)

end SourceOutline.Json
