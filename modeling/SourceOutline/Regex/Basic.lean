import SourceOutline.Text.Blank
import SourceOutline.Text.CharClass

/-!
# Regular Expressions

Regular expressions over texts that may hold ill-formed parts. A symbol of a text is a
character or such a part (`none`), which no character set contains. Besides the usual
operators there are assertions about the place between two symbols.

`Regex.Matches r before mid after` says that `r` matches `mid` where `before` precedes it
and `after` follows; `Regex.Occurs r text` that it does so somewhere in `text`. The
running search stands in the module `Regex.Search`.
-/

namespace SourceOutline

/-- A set of characters. -/
inductive CharSet where
  /-- Every character. -/
  | any
  /-- Blank characters. -/
  | blank
  /-- Word characters. -/
  | word
  /-- Decimal digits. -/
  | digit
  /-- The characters from `lo` to `hi`. -/
  | range (lo hi : Char)
  | union (a b : CharSet)
  | inter (a b : CharSet)
  | compl (a : CharSet)
  deriving DecidableEq, Repr

namespace CharSet

/-- Whether a set holds a character. -/
def contains : CharSet → Char → Bool
  | .any, _ => true
  | .blank, c => Text.isBlank c
  | .word, c => Text.isWordChar c
  | .digit, c => Text.isDecimalDigit c
  | .range lo hi, c => lo ≤ c && c ≤ hi
  | .union a b, c => a.contains c || b.contains c
  | .inter a b, c => a.contains c && b.contains c
  | .compl a, c => !a.contains c

/-- The set of one character. -/
def one (c : Char) : CharSet :=
  .range c c

/-- No character. -/
def empty : CharSet :=
  .compl .any

/-- The set of the listed characters. -/
def ofList : List Char → CharSet
  | [] => empty
  | [c] => one c
  | c :: cs => .union (one c) (ofList cs)

/-- Every character but the line feed. -/
def notLineFeed : CharSet :=
  .compl (one '\n')

end CharSet

namespace Regex

/-- A character of a text, or an ill-formed part of it. -/
abbrev Symbol := Option Char

/-- A text to search. -/
abbrev Subject := List Symbol

/-- A place in a text: the symbols next to it, if there are any. -/
structure Place where
  before : Option Symbol
  after : Option Symbol
  deriving DecidableEq, Repr

/-- A condition on a place. -/
inductive Assertion where
  | textStart
  | textEnd
  | lineStart
  | lineEnd
  | wordBoundary
  | noWordBoundary
  deriving DecidableEq, Repr

/-- Whether there is a word character. -/
def isWord : Option Symbol → Bool
  | some (some c) => Text.isWordChar c
  | _ => false

/-- Whether an assertion holds at a place. Only line feeds bound lines. -/
def Assertion.holds : Assertion → Place → Bool
  | .textStart, p => p.before.isNone
  | .textEnd, p => p.after.isNone
  | .lineStart, p => p.before.isNone || p.before == some (some '\n')
  | .lineEnd, p => p.after.isNone || p.after == some (some '\n')
  | .wordBoundary, p => isWord p.before != isWord p.after
  | .noWordBoundary, p => isWord p.before == isWord p.after

end Regex

open Regex in
/-- A regular expression. -/
inductive Regex where
  /-- Matches nothing. -/
  | fail
  /-- Matches the empty text. -/
  | empty
  /-- Matches one character of the set. -/
  | set (s : CharSet)
  /-- Matches the empty text where the assertion holds. -/
  | look (a : Assertion)
  | seq (r s : Regex)
  | alt (r s : Regex)
  | star (r : Regex)
  deriving DecidableEq, Repr

namespace Regex

/-- The place between two texts. -/
def placeBetween (before after : Subject) : Place :=
  ⟨before.getLast?, after.head?⟩

/-- `r` matches `mid` between `before` and `after`. -/
inductive Matches : Regex → Subject → Subject → Subject → Prop where
  | empty (before after : Subject) : Matches .empty before [] after
  | set {s : CharSet} {c : Char} (before after : Subject) (h : s.contains c = true) :
    Matches (.set s) before [some c] after
  | look {a : Assertion} (before after : Subject)
    (h : a.holds (placeBetween before after) = true) :
    Matches (.look a) before [] after
  | seq {r s : Regex} {before left right after : Subject}
    (hr : Matches r before left (right ++ after))
    (hs : Matches s (before ++ left) right after) :
    Matches (.seq r s) before (left ++ right) after
  | altLeft {r s : Regex} {before mid after : Subject} (h : Matches r before mid after) :
    Matches (.alt r s) before mid after
  | altRight {r s : Regex} {before mid after : Subject} (h : Matches s before mid after) :
    Matches (.alt r s) before mid after
  | starNil {r : Regex} (before after : Subject) : Matches (.star r) before [] after
  | starCons {r : Regex} {before left right after : Subject}
    (hr : Matches r before left (right ++ after))
    (hs : Matches (.star r) (before ++ left) right after) :
    Matches (.star r) before (left ++ right) after

/-- `r` matches some part of the text. -/
def Occurs (r : Regex) (text : Subject) : Prop :=
  ∃ before mid after, text = before ++ mid ++ after ∧ Matches r before mid after

/-! ### Derived forms -/

/-- One character. -/
def char (c : Char) : Regex :=
  .set (.one c)

/-- The characters of a text in order. -/
def literal (s : String) : Regex :=
  s.toList.foldr (fun c r => .seq (char c) r) .empty

/-- One ASCII letter in either case, any other character as it is. -/
def charAnyCase (c : Char) : Regex :=
  .set (.ofList [c.toLower, c.toUpper])

/-- `literal` for ASCII letters in either case. -/
def literalAnyCase (s : String) : Regex :=
  s.toList.foldr (fun c r => .seq (charAnyCase c) r) .empty

/-- One or more times. -/
def plus (r : Regex) : Regex :=
  .seq r (.star r)

/-- Once or not at all. -/
def opt (r : Regex) : Regex :=
  .alt r .empty

/-- All parts in order. -/
def concat (rs : List Regex) : Regex :=
  rs.foldr .seq .empty

/-- One of the alternatives. -/
def anyOf (rs : List Regex) : Regex :=
  rs.foldr .alt .fail

/-- Between `lo` and `hi` times. -/
def times (lo : Nat) (hi : Option Nat) (r : Regex) : Regex :=
  let required := List.replicate lo r
  match hi with
  | none => concat (required ++ [.star r])
  | some hi => concat (required ++ List.replicate (hi - lo) (opt r))

end Regex

end SourceOutline
