import SourceOutline.Text.Alphabetic
import SourceOutline.Text.Mark
import SourceOutline.Text.Number

/-!
# Character Classes

Membership tests over the tables: word characters (what a name may be made of), decimal
digits, and alphanumeric characters. ASCII characters are decided without a table look-up.
-/

namespace SourceOutline.Text

/-- Word characters: alphabetic characters, marks, decimal digits, connectors and join
controls. -/
def isWordChar (c : Char) : Bool :=
  if c.toNat < 128 then c.isAlphanum || c == '_'
  else
    alphabetic.covers c.toNat || marks.covers c.toNat || decimalDigits.covers c.toNat
      || connectors.covers c.toNat || joinControls.covers c.toNat

/-- Decimal digits of every script. -/
def isDecimalDigit (c : Char) : Bool :=
  if c.toNat < 128 then c.isDigit else decimalDigits.covers c.toNat

/-- Alphabetic characters and numbers of every script. -/
def isAlphanumeric (c : Char) : Bool :=
  if c.toNat < 128 then c.isAlphanum
  else alphabetic.covers c.toNat || decimalDigits.covers c.toNat || otherNumbers.covers c.toNat

end SourceOutline.Text
