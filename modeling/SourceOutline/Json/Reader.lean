import SourceOutline.Data.Basic
import SourceOutline.OrderedMap

/-!
# Reading JSON

`Json.read?` reads one JSON value that fills a whole text. A number without point and
exponent is an integer as long as it fits 64 bits, every other number is a double. The
entries of an object come in the order of their keys; of several entries with one key the
last counts.

The reader runs on the remaining characters. Its recursion is bounded by a fuel argument,
which no text can exhaust: at most two calls are made for each character.
-/

namespace SourceOutline.Json

/-- Whether JSON skips the character between tokens. -/
def isGap (c : Char) : Bool :=
  c = ' ' || c = '\t' || c = '\n' || c = '\r'

/-- The text without the gap it starts with. -/
def skipGap (cs : List Char) : List Char :=
  cs.dropWhile isGap

/-- The value of four hexadecimal digits. -/
def hex4? : List Char → Option (Nat × List Char)
  | a :: b :: c :: d :: rest => do
    let a ← Text.hexDigit? a
    let b ← Text.hexDigit? b
    let c ← Text.hexDigit? c
    let d ← Text.hexDigit? d
    some (((a * 16 + b) * 16 + c) * 16 + d, rest)
  | _ => none

/-- The character of an escaped code unit, or of two that form a pair, and the rest. -/
def unicodeEscape? (cs : List Char) : Option (Char × List Char) := do
  let (unit, rest) ← hex4? cs
  if 0xD800 ≤ unit ∧ unit < 0xDC00 then
    match rest with
    | '\\' :: 'u' :: more =>
      match hex4? more with
      | some (low, after) =>
        if 0xDC00 ≤ low ∧ low < 0xE000 then
          some (Char.ofNat (0x10000 + (unit - 0xD800) * 0x400 + (low - 0xDC00)), after)
        else some ('\uFFFD', rest)
      | none => some ('\uFFFD', rest)
    | _ => some ('\uFFFD', rest)
  else if 0xDC00 ≤ unit ∧ unit < 0xE000 then some ('\uFFFD', rest)
  else some (Char.ofNat unit, rest)

/-- The characters of a text up to its closing quote, and what follows it. `done` holds
the characters read so far, last first. -/
def readString? : Nat → List Char → List Char → Option (String × List Char)
  | 0, _, _ => none
  | _ + 1, _, [] => none
  | _ + 1, done, '"' :: rest => some (String.ofList done.reverse, rest)
  | fuel + 1, done, '\\' :: c :: rest =>
    match c with
    | '"' => readString? fuel ('"' :: done) rest
    | '\\' => readString? fuel ('\\' :: done) rest
    | '/' => readString? fuel ('/' :: done) rest
    | 'b' => readString? fuel ('\x08' :: done) rest
    | 'f' => readString? fuel ('\x0c' :: done) rest
    | 'n' => readString? fuel ('\n' :: done) rest
    | 'r' => readString? fuel ('\r' :: done) rest
    | 't' => readString? fuel ('\t' :: done) rest
    | 'u' =>
      match unicodeEscape? rest with
      | some (c, rest) => readString? fuel (c :: done) rest
      | none => none
    | _ => none
  | fuel + 1, done, c :: rest =>
    if c.toNat < 0x20 then none else readString? fuel (c :: done) rest

/-- The value of decimal digits. -/
def decimalValue (ds : List Char) : Nat :=
  ds.foldl (fun n d => n * 10 + (d.toNat - '0'.toNat)) 0

/-- A number, read from its sign, its whole digits, its fractional digits and its exponent. -/
def number (negative : Bool) (whole : List Char) (fractional : Option (List Char))
    (exponent : Option Int) : Data :=
  let n := decimalValue whole
  match fractional, exponent with
  | none, none =>
    if negative then
      if n = 0 ∨ 0x8000000000000000 < n then .float (Double.ofDecimal true n 0) else .int (-n)
    else if n < 0x10000000000000000 then .int n
    else .float (Double.ofDecimal false n 0)
  | fractional, exponent =>
    let places := fractional.getD []
    .float (Double.ofDecimal negative (decimalValue (whole ++ places))
      (exponent.getD 0 - places.length))

/-- The exponent part of a number, if there is one. -/
def readExponent? : List Char → Option (Option Int × List Char)
  | c :: rest =>
    if c = 'e' ∨ c = 'E' then
      let (negative, rest) := match rest with
        | '+' :: rest => (false, rest)
        | '-' :: rest => (true, rest)
        | rest => (false, rest)
      let ds := rest.takeWhile Char.isDigit
      if ds.isEmpty then none
      else
        let n : Int := decimalValue ds
        some (some (if negative then -n else n), rest.dropWhile Char.isDigit)
    else some (none, c :: rest)
  | [] => some (none, [])

/-- The fractional part of a number, if there is one. -/
def readFraction? : List Char → Option (Option (List Char) × List Char)
  | '.' :: rest =>
    let ds := rest.takeWhile Char.isDigit
    if ds.isEmpty then none else some (some ds, rest.dropWhile Char.isDigit)
  | rest => some (none, rest)

/-- A number at the start of the text. -/
def readNumber? (cs : List Char) : Option (Data × List Char) := do
  let (negative, cs) := match cs with
    | '-' :: rest => (true, rest)
    | rest => (false, rest)
  let whole := cs.takeWhile Char.isDigit
  if whole.isEmpty ∨ (whole.head? = some '0' ∧ 1 < whole.length) then none
  else
    let (fractional, cs) ← readFraction? (cs.dropWhile Char.isDigit)
    let (exponent, cs) ← readExponent? cs
    some (number negative whole fractional exponent, cs)

mutual

/-- A value at the start of the text. -/
def readValue? : Nat → List Char → Option (Data × List Char)
  | 0, _ => none
  | fuel + 1, cs =>
    match skipGap cs with
    | 'n' :: 'u' :: 'l' :: 'l' :: rest => some (.null, rest)
    | 't' :: 'r' :: 'u' :: 'e' :: rest => some (.bool true, rest)
    | 'f' :: 'a' :: 'l' :: 's' :: 'e' :: rest => some (.bool false, rest)
    | '"' :: rest => do
      let (s, rest) ← readString? fuel [] rest
      some (.str s, rest)
    | '[' :: rest =>
      match skipGap rest with
      | ']' :: rest => some (.seq [], rest)
      | rest => do
        let (elements, rest) ← readElements? fuel rest
        some (.seq elements, rest)
    | '{' :: rest =>
      match skipGap rest with
      | '}' :: rest => some (.map [], rest)
      | rest => do
        let (entries, rest) ← readEntries? fuel [] rest
        some (.map entries, rest)
    | rest => readNumber? rest

/-- The elements of an array up to its closing bracket. -/
def readElements? : Nat → List Char → Option (List Data × List Char)
  | 0, _ => none
  | fuel + 1, cs => do
    let (element, rest) ← readValue? fuel cs
    match skipGap rest with
    | ',' :: rest =>
      let (elements, rest) ← readElements? fuel rest
      some (element :: elements, rest)
    | ']' :: rest => some ([element], rest)
    | _ => none

/-- The entries of an object up to its closing brace, added to those read so far. -/
def readEntries? :
    Nat → List (String × Data) → List Char → Option (List (String × Data) × List Char)
  | 0, _, _ => none
  | fuel + 1, done, cs =>
    match skipGap cs with
    | '"' :: rest => do
      let (key, rest) ← readString? fuel [] rest
      match skipGap rest with
      | ':' :: rest =>
        let (value, rest) ← readValue? fuel rest
        let done := insertEntry (fun a b => decide (a ≤ b)) key value done
        match skipGap rest with
        | ',' :: rest => readEntries? fuel done rest
        | '}' :: rest => some (done, rest)
        | _ => none
      | _ => none
    | _ => none

end

/-- The JSON value that fills the text. -/
def read? (s : String) : Option Data :=
  let cs := s.toList
  match readValue? (2 * cs.length + 2) cs with
  | some (value, rest) => if (skipGap rest).isEmpty then some value else none
  | none => none

end SourceOutline.Json
