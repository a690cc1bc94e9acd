import SourceOutline.Regex.Basic
import SourceOutline.Text.Quoted

/-!
# Reading Regular Expressions

`Regex.read?` reads the usual notation: characters, escapes, classes in brackets, groups,
alternatives, repetitions (lazy or not, which makes no difference to a search) and the
flags `i`, `m`, `s`. Texts that are not well formed give `none`. With `i`, ASCII letters
stand for both cases.
-/

namespace SourceOutline.Regex

/-- What a part of an expression is read under. -/
structure Flags where
  /-- Letters stand for both cases. -/
  anyCase : Bool := false
  /-- `^` and `$` are for lines. -/
  multiLine : Bool := false
  /-- `.` is for line feeds too. -/
  dotAll : Bool := false
  deriving DecidableEq, Repr

/-- The other case of a character, beside itself. -/
def bothCases (s : CharSet) : CharSet :=
  let swapped (lo hi : Char) (shift : Char → Char) : List CharSet :=
    (List.range 26).filterMap fun i =>
      let letter := Char.ofNat (lo.toNat + i)
      if letter ≤ hi && s.contains letter then some (.one (shift letter)) else none
  (swapped 'a' 'z' Char.toUpper ++ swapped 'A' 'Z' Char.toLower).foldl .union s

/-- One character of a set, under the flags. -/
def oneOfSet (flags : Flags) (s : CharSet) : Regex :=
  .set (if flags.anyCase then bothCases s else s)

/-- The character with a code point, unless there is none. -/
def charOfCode? (n : Nat) : Option Char :=
  if n.isValidChar then some (Char.ofNat n) else none

/-- The number written by hexadecimal digits, at least one. -/
def hexNumber? (cs : List Char) : Option Nat :=
  if cs.isEmpty then none
  else cs.foldl (fun n c => do some ((← n) * 16 + (← Text.hexDigit? c))) (some 0)

/-- A code point in hexadecimal: between braces, or exactly `width` digits. -/
def readCode? (width : Nat) : List Char → Option (Char × List Char)
  | '{' :: cs =>
    match cs.dropWhile (· ≠ '}') with
    | '}' :: rest => do
      let n ← hexNumber? (cs.takeWhile (· ≠ '}'))
      let c ← charOfCode? n
      some (c, rest)
    | _ => none
  | cs => do
    guard (width ≤ cs.length)
    let n ← hexNumber? (cs.take width)
    let c ← charOfCode? n
    some (c, cs.drop width)

/-- The punctuation that a backslash makes plain. -/
def isPunctuation (c : Char) : Bool :=
  c.toNat < 128 && !c.isAlphanum && 0x20 < c.toNat && c.toNat < 0x7f

/-- An escape that stands for a set of characters. -/
def readEscape? : List Char → Option (CharSet × List Char)
  | 'd' :: cs => some (.digit, cs)
  | 'D' :: cs => some (.compl .digit, cs)
  | 's' :: cs => some (.blank, cs)
  | 'S' :: cs => some (.compl .blank, cs)
  | 'w' :: cs => some (.word, cs)
  | 'W' :: cs => some (.compl .word, cs)
  | 'n' :: cs => some (.one '\n', cs)
  | 'r' :: cs => some (.one '\r', cs)
  | 't' :: cs => some (.one '\t', cs)
  | 'f' :: cs => some (.one '\x0c', cs)
  | 'v' :: cs => some (.one '\x0b', cs)
  | 'a' :: cs => some (.one '\x07', cs)
  | 'x' :: cs => (readCode? 2 cs).map fun (c, rest) => (.one c, rest)
  | 'u' :: cs => (readCode? 4 cs).map fun (c, rest) => (.one c, rest)
  | 'U' :: cs => (readCode? 8 cs).map fun (c, rest) => (.one c, rest)
  | c :: cs => if isPunctuation c then some (.one c, cs) else none
  | [] => none

/-- The named ASCII classes. -/
def asciiClass? (name : String) : Option CharSet :=
  let lower : CharSet := .range 'a' 'z'
  let upper : CharSet := .range 'A' 'Z'
  let digits : CharSet := .range '0' '9'
  let graph : CharSet := .range '!' '~'
  match name with
  | "alpha" => some (.union lower upper)
  | "alnum" => some (.union (.union lower upper) digits)
  | "ascii" => some (.range '\x00' '\x7f')
  | "blank" => some (.ofList [' ', '\t'])
  | "cntrl" => some (.union (.range '\x00' '\x1f') (.one '\x7f'))
  | "digit" => some digits
  | "graph" => some graph
  | "lower" => some lower
  | "print" => some (.range ' ' '~')
  | "punct" => some (.inter graph (.compl (.union (.union lower upper) digits)))
  | "space" => some (.union (.range '\t' '\r') (.one ' '))
  | "upper" => some upper
  | "word" => some (.union (.union (.union lower upper) digits) (.one '_'))
  | "xdigit" => some (.union (.union (.range 'a' 'f') (.range 'A' 'F')) digits)
  | _ => none

/-- A named class after its opening `[:`. -/
def readAsciiClass? (cs : List Char) : Option (CharSet × List Char) :=
  let (negated, cs) := match cs with
    | '^' :: rest => (true, rest)
    | _ => (false, cs)
  match cs.dropWhile Char.isAlpha with
  | ':' :: ']' :: rest => do
    let s ← asciiClass? (String.ofList (cs.takeWhile Char.isAlpha))
    some (if negated then .compl s else s, rest)
  | _ => none

/-- The single character of a set made by `CharSet.one`. -/
def single? : CharSet → Option Char
  | .range lo hi => if lo = hi then some lo else none
  | _ => none

/-- One character or escape inside a class. -/
def readClassItem? : List Char → Option (CharSet × List Char)
  | '\\' :: cs => readEscape? cs
  | c :: cs => some (.one c, cs)
  | [] => none

/-- The inside of a class up to its closing bracket; `s` holds what was read and `isFirst`
says that a bracket would be plain. -/
def readClassItems? : Nat → Bool → CharSet → List Char → Option (CharSet × List Char)
  | 0, _, _, _ => none
  | _ + 1, _, _, [] => none
  | fuel + 1, isFirst, s, ']' :: cs =>
    if isFirst then readClassItems? fuel false (.union s (.one ']')) cs else some (s, cs)
  | fuel + 1, _, s, '[' :: ':' :: cs =>
    match readAsciiClass? cs with
    | some (named, rest) => readClassItems? fuel false (.union s named) rest
    | none => none
  | fuel + 1, _, s, '[' :: '^' :: cs => do
    let (inner, rest) ← readClassItems? fuel true .empty cs
    readClassItems? fuel false (.union s (.compl inner)) rest
  | fuel + 1, _, s, '[' :: cs => do
    let (inner, rest) ← readClassItems? fuel true .empty cs
    readClassItems? fuel false (.union s inner) rest
  | fuel + 1, _, s, '&' :: '&' :: cs => do
    let (right, rest) ← readClassItems? fuel false .empty cs
    some (.inter s right, rest)
  | fuel + 1, _, s, cs => do
    let (low, rest) ← readClassItem? cs
    match rest with
    | '-' :: ']' :: _ => readClassItems? fuel false (.union s low) rest
    | '-' :: rest => do
      let (high, rest) ← readClassItem? rest
      let lo ← single? low
      let hi ← single? high
      guard (lo ≤ hi)
      readClassItems? fuel false (.union s (.range lo hi)) rest
    | rest => readClassItems? fuel false (.union s low) rest

/-- A class after its opening bracket. -/
def readClass? (cs : List Char) : Option (CharSet × List Char) :=
  match cs with
  | '^' :: rest => do
    let (s, rest) ← readClassItems? (rest.length + 1) true .empty rest
    some (.compl s, rest)
  | rest => readClassItems? (rest.length + 1) true .empty rest

/-- The highest count a repetition may name. -/
def maxCount : Nat := 1000

/-- The decimal number of some digits. -/
def decimal (digits : List Char) : Nat :=
  digits.foldl (fun n c => n * 10 + (c.toNat - '0'.toNat)) 0

/-- The counts of a repetition after its opening brace. -/
def readCounts? (cs : List Char) : Option (Nat × Option Nat × List Char) :=
  let low := cs.takeWhile Char.isDigit
  match cs.dropWhile Char.isDigit with
  | '}' :: rest =>
    if low.isEmpty || maxCount < decimal low then none
    else some (decimal low, some (decimal low), rest)
  | ',' :: rest =>
    let high := rest.takeWhile Char.isDigit
    match rest.dropWhile Char.isDigit with
    | '}' :: rest =>
      if low.isEmpty && high.isEmpty || maxCount < decimal low || maxCount <
        decimal high then none
      else if high.isEmpty then some (decimal low, none, rest)
      else if decimal high < decimal low then none
      else some (decimal low, some (decimal high), rest)
    | _ => none
  | _ => none

/-- A mark that makes a repetition lazy. -/
def skipLazy : List Char → List Char
  | '?' :: cs => cs
  | cs => cs

/-- The repetitions behind an expression. -/
def readRepetitions? : Nat → Regex → List Char → Option (Regex × List Char)
  | 0, _, _ => none
  | fuel + 1, r, '*' :: cs => readRepetitions? fuel (.star r) (skipLazy cs)
  | fuel + 1, r, '+' :: cs => readRepetitions? fuel (.plus r) (skipLazy cs)
  | fuel + 1, r, '?' :: cs => readRepetitions? fuel (.opt r) (skipLazy cs)
  | fuel + 1, r, '{' :: cs => do
    let (lo, hi, rest) ← readCounts? cs
    readRepetitions? fuel (times lo hi r) (skipLazy rest)
  | _ + 1, r, cs => some (r, cs)

/-- The flags of a group, each set or, after a minus, cleared. -/
def readFlags? (set : Bool) (flags : Flags) : List Char → Option (Flags × List Char)
  | 'i' :: cs => readFlags? set { flags with anyCase := set } cs
  | 'm' :: cs => readFlags? set { flags with multiLine := set } cs
  | 's' :: cs => readFlags? set { flags with dotAll := set } cs
  | 'U' :: cs => readFlags? set flags cs
  | 'u' :: cs => if set then readFlags? set flags cs else none
  | '-' :: cs => if set then readFlags? false flags cs else none
  | cs => some (flags, cs)

/-- The name of a group up to its closing angle bracket. -/
def skipGroupName? (cs : List Char) : Option (List Char) :=
  match cs.dropWhile fun c => c.isAlphanum || c = '_' || c = '.' || c = '[' || c = ']' with
  | '>' :: rest => if rest.length + 1 < cs.length then some rest else none
  | _ => none

/-- What opens at a parenthesis. -/
inductive Opening where
  /-- A group, read under its own flags. -/
  | group (flags : Flags) (rest : List Char)
  /-- Flags for what follows. -/
  | setFlags (flags : Flags) (rest : List Char)

/-- What opens after a parenthesis. -/
def readOpening? (flags : Flags) : List Char → Option Opening
  | '?' :: 'P' :: '<' :: cs => (skipGroupName? cs).map (.group flags)
  | '?' :: '<' :: cs => (skipGroupName? cs).map (.group flags)
  | '?' :: cs => do
    let (inner, rest) ← readFlags? true flags cs
    match rest with
    | ':' :: rest => some (.group inner rest)
    | ')' :: rest => if rest.length + 1 = cs.length then none else some (.setFlags inner rest)
    | _ => none
  | cs => some (.group flags cs)

mutual

/-- Alternatives up to a closing parenthesis or the end. -/
def readAlternatives? : Nat → Flags → List Char → Option (Regex × List Char)
  | 0, _, _ => none
  | fuel + 1, flags, cs => do
    let (r, flags, rest) ← readSequence? fuel flags .empty cs
    match rest with
    | '|' :: rest => do
      let (s, rest) ← readAlternatives? fuel flags rest
      some (.alt r s, rest)
    | rest => some (r, rest)

/-- A sequence up to an alternative, a closing parenthesis or the end; `before` is what
was read of it. -/
def readSequence? : Nat → Flags → Regex → List Char → Option (Regex × Flags × List Char)
  | 0, _, _, _ => none
  | fuel + 1, flags, before, cs =>
    let continueWith (r : Regex) (rest : List Char) : Option (Regex × Flags × List Char) := do
      let (r, rest) ← readRepetitions? (rest.length + 1) r rest
      readSequence? fuel flags (.seq before r) rest
    match cs with
    | [] => some (before, flags, [])
    | '|' :: rest => some (before, flags, '|' :: rest)
    | ')' :: rest => some (before, flags, ')' :: rest)
    | '(' :: rest => do
      match ← readOpening? flags rest with
      | .setFlags flags rest => readSequence? fuel flags before rest
      | .group inner rest =>
        let (r, rest) ← readAlternatives? fuel inner rest
        match rest with
        | ')' :: rest => continueWith r rest
        | _ => none
    | '[' :: rest => do
      let (s, rest) ← readClass? rest
      continueWith (oneOfSet flags s) rest
    | '.' :: rest => continueWith (.set (if flags.dotAll then .any else .notLineFeed)) rest
    | '^' :: rest =>
      continueWith (.look (if flags.multiLine then .lineStart else .textStart)) rest
    | '$' :: rest => continueWith (.look (if flags.multiLine then .lineEnd else .textEnd)) rest
    | '\\' :: 'b' :: rest => continueWith (.look .wordBoundary) rest
    | '\\' :: 'B' :: rest => continueWith (.look .noWordBoundary) rest
    | '\\' :: 'A' :: rest => continueWith (.look .textStart) rest
    | '\\' :: 'z' :: rest => continueWith (.look .textEnd) rest
    | '\\' :: rest => do
      let (s, rest) ← readEscape? rest
      continueWith (oneOfSet flags s) rest
    | c :: rest =>
      if c = '*' || c = '+' || c = '?' || c = '{' then none
      else continueWith (oneOfSet flags (.one c)) rest

end

/-- The expression that a text writes, if it writes one. -/
def read? (text : String) : Option Regex :=
  let cs := text.toList
  match readAlternatives? (2 * cs.length + 2) {} cs with
  | some (r, []) => some r
  | _ => none

end SourceOutline.Regex
