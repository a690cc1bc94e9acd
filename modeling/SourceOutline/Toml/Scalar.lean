import SourceOutline.Data.Basic

/-!
# TOML Scalars

Texts, numbers and dates of TOML 1.0. Every reader takes a text and gives what it read
from its start with what is left, or nothing when the text is malformed there.
-/

namespace SourceOutline.Toml

/-- Whether a character may stand in a comment or a string: not a control, but for the tab. -/
def isPlain (c : Char) : Bool :=
  c = '\t' || (0x20 ≤ c.toNat && c.toNat ≠ 0x7F)

/-- Whether a character separates within a line. -/
def isSpace (c : Char) : Bool :=
  c = ' ' || c = '\t'

/-- The text without the blanks it starts with. -/
def skipSpace (cs : List Char) : List Char :=
  cs.dropWhile isSpace

/-- The end of a line. -/
def readNewline? : List Char → Option (List Char)
  | '\n' :: cs => some cs
  | '\r' :: '\n' :: cs => some cs
  | _ => none

/-- The text without the comment it starts with, if it does. -/
def skipComment : List Char → List Char
  | '#' :: cs => cs.dropWhile isPlain
  | cs => cs

/-- The text without the blanks, line ends and comments it starts with. -/
def skipLines : Nat → List Char → List Char
  | 0, cs => cs
  | fuel + 1, cs =>
    let cs := skipSpace cs
    match cs with
    | '#' :: rest => skipLines fuel (rest.dropWhile isPlain)
    | cs =>
      match readNewline? cs with
      | some rest => skipLines fuel rest
      | none => cs

/-! ### Texts -/

/-- The character given by exactly `width` hexadecimal digits. -/
def readCodePoint? (width : Nat) (cs : List Char) : Option (Char × List Char) := do
  guard (width ≤ cs.length)
  let digits ← (cs.take width).mapM Text.hexDigit?
  let n := digits.foldl (fun n d => n * 16 + d) 0
  guard n.isValidChar
  some (Char.ofNat n, cs.drop width)

/-- The character after a backslash. -/
def readEscape? : List Char → Option (Char × List Char)
  | 'b' :: cs => some ('\x08', cs)
  | 't' :: cs => some ('\t', cs)
  | 'n' :: cs => some ('\n', cs)
  | 'f' :: cs => some ('\x0c', cs)
  | 'r' :: cs => some ('\r', cs)
  | '"' :: cs => some ('"', cs)
  | '\\' :: cs => some ('\\', cs)
  | 'u' :: cs => readCodePoint? 4 cs
  | 'U' :: cs => readCodePoint? 8 cs
  | _ => none

/-- A basic string after its opening quote. -/
def readBasic? : Nat → List Char → Option (List Char × List Char)
  | 0, _ => none
  | _ + 1, '"' :: cs => some ([], cs)
  | fuel + 1, '\\' :: cs => do
    let (c, cs) ← readEscape? cs
    let (text, cs) ← readBasic? fuel cs
    some (c :: text, cs)
  | fuel + 1, c :: cs =>
    if isPlain c then do
      let (text, cs) ← readBasic? fuel cs
      some (c :: text, cs)
    else none
  | _ + 1, [] => none

/-- A literal string after its opening quote. -/
def readLiteral? (cs : List Char) : Option (List Char × List Char) :=
  let text := cs.takeWhile fun c => isPlain c && c ≠ '\''
  match cs.drop text.length with
  | '\'' :: rest => some (text, rest)
  | _ => none

/-- The text without the blanks and line ends it starts with. -/
def skipBlankLines : Nat → List Char → List Char
  | 0, cs => cs
  | fuel + 1, cs =>
    match readNewline? (skipSpace cs) with
    | some rest => skipBlankLines fuel rest
    | none => skipSpace cs

/-- A string over several lines after its opening quotes. `escapes` says whether
backslashes count. -/
def readMultiline? (quote : Char) (escapes : Bool) :
    Nat → List Char → Option (List Char × List Char)
  | 0, _ => none
  | _ + 1, [] => none
  | fuel + 1, c :: cs =>
    if c = quote then
      let run := min ((c :: cs).takeWhile (· = quote)).length 5
      let rest := (c :: cs).drop run
      if 3 ≤ run then some (List.replicate (run - 3) quote, rest)
      else do
        let (text, rest) ← readMultiline? quote escapes fuel rest
        some (List.replicate run quote ++ text, rest)
    else if escapes && c = '\\' then
      match readNewline? (skipSpace cs) with
      | some rest => readMultiline? quote escapes fuel (skipBlankLines rest.length rest)
      | none => do
        let (e, cs) ← readEscape? cs
        let (text, cs) ← readMultiline? quote escapes fuel cs
        some (e :: text, cs)
    else
      match readNewline? (c :: cs) with
      | some rest => do
        let (text, rest) ← readMultiline? quote escapes fuel rest
        some ('\n' :: text, rest)
      | none =>
        if isPlain c then do
          let (text, cs) ← readMultiline? quote escapes fuel cs
          some (c :: text, cs)
        else none

/-- The text without the line end it starts with, if it does. -/
def skipFirstNewline (cs : List Char) : List Char :=
  (readNewline? cs).getD cs

/-- A string of any of the four forms. -/
def readString? : List Char → Option (List Char × List Char)
  | '"' :: '"' :: '"' :: cs => readMultiline? '"' true (cs.length + 1) (skipFirstNewline cs)
  | '\'' :: '\'' :: '\'' :: cs =>
    readMultiline? '\'' false (cs.length + 1) (skipFirstNewline cs)
  | '"' :: cs => readBasic? (cs.length + 1) cs
  | '\'' :: cs => readLiteral? cs
  | _ => none

/-! ### Numbers -/

/-- Digits with single underscores between them; the underscores are dropped. -/
def readDigits? (isDigit : Char → Bool) : List Char → Option (List Char × List Char)
  | [] => none
  | c :: cs =>
    if isDigit c then
      match cs with
      | '_' :: rest => do
        let (more, rest) ← readDigits? isDigit rest
        some (c :: more, rest)
      | [] => some ([c], [])
      | d :: rest =>
        if isDigit d then do
          let (more, rest) ← readDigits? isDigit (d :: rest)
          some (c :: more, rest)
        else some ([c], d :: rest)
    else none

/-- The number that digits write in a base. -/
def valueOf (base : Nat) (digits : List Char) : Nat :=
  digits.foldl (fun n c => n * base + (Text.hexDigit? c).getD 0) 0

/-- An integer, if it fits into 64 bits with a sign. -/
def integer? (n : Int) : Option Data :=
  if -0x8000000000000000 ≤ n ∧ n < 0x8000000000000000 then some (.int n) else none

/-- A sign, with whether it is a minus. -/
def readSign : List Char → Option Bool × List Char
  | '+' :: cs => (some false, cs)
  | '-' :: cs => (some true, cs)
  | cs => (none, cs)

/-- An integer with a mark for its base. -/
def readBased? : List Char → Option (Data × List Char)
  | '0' :: 'x' :: cs => based 16 (fun c => (Text.hexDigit? c).isSome) cs
  | '0' :: 'o' :: cs => based 8 (fun c => '0' ≤ c && c ≤ '7') cs
  | '0' :: 'b' :: cs => based 2 (fun c => c = '0' || c = '1') cs
  | _ => none
where
  /-- The digits of an integer in a base. -/
  based (base : Nat) (isDigit : Char → Bool) (cs : List Char) : Option (Data × List Char) := do
    let (digits, rest) ← readDigits? isDigit cs
    let n ← integer? (valueOf base digits)
    some (n, rest)

/-- The digits before a point: no zero stands before others. -/
def readWhole? (cs : List Char) : Option (List Char × List Char) := do
  let (digits, rest) ← readDigits? Char.isDigit cs
  if digits.head? = some '0' then some (['0'], cs.drop 1) else some (digits, rest)

/-- The fraction of a number after its point. -/
def readFraction? : List Char → Option (List Char × List Char)
  | '.' :: cs => readDigits? Char.isDigit cs
  | cs => some ([], cs)

/-- The exponent of a number. -/
def readExponent? : List Char → Option (Option Int × List Char)
  | c :: cs =>
    if c = 'e' || c = 'E' then do
      let (sign, cs) := readSign cs
      let (digits, rest) ← readDigits? Char.isDigit cs
      let n : Int := valueOf 10 digits
      some (some (if sign = some true then -n else n), rest)
    else some (none, c :: cs)
  | [] => some (none, [])

/-- The exponent a decimal may have before it is out of every range. -/
def clampExponent (n : Int) : Int :=
  max (-100000) (min 100000 n)

/-- A decimal number: an integer, or with a fraction or exponent a double. A double may
not be too large. -/
def readDecimal? (cs : List Char) : Option (Data × List Char) := do
  let (sign, cs) := readSign cs
  let negative := sign = some true
  let (whole, cs) ← readWhole? cs
  let (fraction, afterFraction) ← readFraction? cs
  let (exponent, rest) ← readExponent? afterFraction
  if fraction.isEmpty && exponent.isNone then
    let n : Int := valueOf 10 whole
    let value ← integer? (if negative then -n else n)
    some (value, rest)
  else
    let mantissa := valueOf 10 (whole ++ fraction)
    let double :=
      Double.ofDecimal negative mantissa (clampExponent (exponent.getD 0) - fraction.length)
    if double = Double.infinity then none else some (.float double, rest)

/-- Infinity, or a value that is not a number. -/
def readSpecial? (cs : List Char) : Option (Data × List Char) :=
  match readSign cs with
  | (sign, 'i' :: 'n' :: 'f' :: rest) =>
    some (.float (if sign = some true then .negInfinity else .infinity), rest)
  | (_, 'n' :: 'a' :: 'n' :: rest) => some (.float .nan, rest)
  | _ => none

/-! ### Dates -/

/-- A number of exactly `width` digits. -/
def readFixed? (width : Nat) (cs : List Char) : Option (Nat × List Char) := do
  let digits := cs.take width
  guard (digits.length = width && digits.all Char.isDigit)
  some (valueOf 10 digits, cs.drop width)

/-- A required character. -/
def readMark? (mark : Char) : List Char → Option (List Char)
  | c :: cs => if c = mark then some cs else none
  | [] => none

/-- The number of days of a month. -/
def daysIn (year month : Nat) : Nat :=
  if month = 2 then
    if year % 4 = 0 && (year % 100 ≠ 0 || year % 400 = 0) then 29 else 28
  else if month = 4 || month = 6 || month = 9 || month = 11 then 30
  else 31

/-- A number with leading zeros, at least `width` digits. -/
def padded (width n : Nat) : String :=
  let digits := Nat.toDigits 10 n
  String.ofList (List.replicate (width - digits.length) '0' ++ digits)

/-- A date, as text. -/
def readDate? (cs : List Char) : Option (String × List Char) := do
  let (year, cs) ← readFixed? 4 cs
  let cs ← readMark? '-' cs
  let (month, cs) ← readFixed? 2 cs
  guard (1 ≤ month && month ≤ 12)
  let cs ← readMark? '-' cs
  let (day, cs) ← readFixed? 2 cs
  guard (1 ≤ day && day ≤ daysIn year month)
  some (padded 4 year ++ "-" ++ padded 2 month ++ "-" ++ padded 2 day, cs)

/-- The fraction of a second after its point, to nine places and without zeros at its end. -/
def readSecondFraction? : List Char → Option (String × List Char)
  | '.' :: cs =>
    let digits := cs.takeWhile Char.isDigit
    if digits.isEmpty then none
    else
      let kept := ((digits.take 9).reverse.dropWhile (· = '0')).reverse
      some (if kept.isEmpty then "" else "." ++ String.ofList kept, cs.drop digits.length)
  | cs => some ("", cs)

/-- A time of day, as text. -/
def readTime? (cs : List Char) : Option (String × List Char) := do
  let (hour, cs) ← readFixed? 2 cs
  guard (hour ≤ 23)
  let cs ← readMark? ':' cs
  let (minute, cs) ← readFixed? 2 cs
  guard (minute ≤ 59)
  let cs ← readMark? ':' cs
  let (second, cs) ← readFixed? 2 cs
  guard (second ≤ 60)
  let (fraction, cs) ← readSecondFraction? cs
  some (padded 2 hour ++ ":" ++ padded 2 minute ++ ":" ++ padded 2 second ++ fraction, cs)

/-- The offset of a time, as text. -/
def readOffset? : List Char → Option (String × List Char)
  | 'Z' :: cs => some ("Z", cs)
  | 'z' :: cs => some ("Z", cs)
  | '+' :: cs => offset "+" cs
  | '-' :: cs => offset "-" cs
  | cs => some ("", cs)
where
  /-- The hours and minutes of an offset. -/
  offset (sign : String) (cs : List Char) : Option (String × List Char) := do
    let (hour, cs) ← readFixed? 2 cs
    guard (hour ≤ 23)
    let cs ← readMark? ':' cs
    let (minute, cs) ← readFixed? 2 cs
    guard (minute ≤ 59)
    some (sign ++ padded 2 hour ++ ":" ++ padded 2 minute, cs)

/-- The time behind a date, if there is one. -/
def readTimeBehind? : List Char → Option (String × List Char)
  | c :: cs =>
    if c = 'T' || c = 't' || c = ' ' then
      match readTime? cs with
      | some (time, rest) => do
        let (offset, rest) ← readOffset? rest
        some ("T" ++ time ++ offset, rest)
      | none => some ("", c :: cs)
    else some ("", c :: cs)
  | [] => some ("", [])

/-- The key under which a date stands for itself as data. -/
def dateKey : String := "$__toml_private_datetime"

/-- A date, a time, or both. -/
def readDateTime? (cs : List Char) : Option (Data × List Char) :=
  let dated := do
    let (date, rest) ← readDate? cs
    let (time, rest) ← readTimeBehind? rest
    some (date ++ time, rest)
  (dated.or (readTime? cs)).map fun (text, rest) => (.map [(dateKey, .str text)], rest)

/-- A truth value. -/
def readBool? : List Char → Option (Data × List Char)
  | 't' :: 'r' :: 'u' :: 'e' :: cs => some (.bool true, cs)
  | 'f' :: 'a' :: 'l' :: 's' :: 'e' :: cs => some (.bool false, cs)
  | _ => none

/-- A value that is no string, array or table. -/
def readPlain? (cs : List Char) : Option (Data × List Char) :=
  (((((readDateTime? cs).or (readBased? cs)).or (readDecimal? cs)).or (readSpecial? cs)).or
    (readBool? cs))

end SourceOutline.Toml
