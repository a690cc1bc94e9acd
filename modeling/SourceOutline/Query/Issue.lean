import SourceOutline.Text.CharClass
import SourceOutline.Text.Lines

/-!
# Where a Query Text Is Wrong

A query text is refused with a row, a column in bytes and a detail. Problems with a word
show the word; problems with the form of the text show the line with a mark below the
place.
-/

namespace SourceOutline.Query

/-- Why a query text is refused. -/
structure Issue where
  row : Nat
  column : Nat
  detail : String
  deriving DecidableEq, Repr, Inhabited

/-- A problem found while reading, with the byte offset of its place. -/
inductive Fault where
  /-- Something else was required here. -/
  | malformed (offset : Nat)
  /-- The word that starts here is not known. -/
  | unknownWord (offset : Nat)
  deriving DecidableEq, Repr, Inhabited

/-- The offset of a problem. -/
def Fault.offset : Fault → Nat
  | .malformed offset => offset
  | .unknownWord offset => offset

/-- The number of bytes of some characters. -/
def byteLength (cs : List Char) : Nat :=
  cs.foldl (fun n c => n + c.utf8Size) 0

/-- The row of an offset, the offset at which that row starts, and its line, if there is
one. Every line counts one byte for its end. -/
def locate (offset : Nat) : List (List Char) → Nat → Nat → Nat × Nat × Option (List Char)
  | [], row, start => (row, start, none)
  | line :: lines, row, start =>
    let stop := start + byteLength line + 1
    if offset < stop then (row, start, some line) else locate offset lines (row + 1) stop

/-- The character before a byte offset and the characters from there on. -/
def splitAtByte (offset : Nat) : Option Char → List Char → Option Char × List Char
  | before, [] => (before, [])
  | before, c :: cs =>
    if offset = 0 then (before, c :: cs) else splitAtByte (offset - c.utf8Size) (some c) cs

/-- Whether a character belongs to a shown word. -/
def isShownWordChar (c : Char) : Bool :=
  Text.isAlphanumeric c || c = '_' || c = '-'

/-- A quoted word up to its closing quote; a quote behind an odd number of backslashes
does not close it. -/
def untilQuote (backslashes : Nat) : List Char → List Char
  | [] => []
  | c :: cs =>
    if c = '"' && backslashes % 2 = 0 then []
    else c :: untilQuote (if c = '\\' then backslashes + 1 else 0) cs

/-- The word at an offset, as it is shown. -/
def wordAt (cs : List Char) (offset : Nat) : List Char :=
  match splitAtByte offset none cs with
  | (some '"', rest) => untilQuote 0 rest
  | (_, rest) => rest.takeWhile isShownWordChar

/-- A problem as it is reported. -/
def Fault.report (cs : List Char) (fault : Fault) : Issue :=
  let (row, start, line) := locate fault.offset (Text.lines cs) 0 0
  let column := fault.offset - start
  let detail := match fault with
    | .unknownWord offset => "\"" ++ String.ofList (wordAt cs offset) ++ "\""
    | .malformed _ =>
      match line with
      | some line =>
        String.ofList line ++ "\n" ++ String.ofList (List.replicate column ' ') ++ "^"
      | none => "Unexpected EOF"
  { row, column, detail }

end SourceOutline.Query
