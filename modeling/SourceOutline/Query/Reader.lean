import SourceOutline.Query.Basic
import SourceOutline.Query.Issue

/-!
# Reading Query Texts

`Query.readText` reads the patterns of a query text and the conditions written among them,
checking every word against a vocabulary. It stops at the first problem. A pattern is one
of

* `(kind child …)`, a named node; `(_ …)`, any named node; `(ERROR …)`; `(MISSING)`;
* `_`, any node;
* `"text"`, an anonymous node;
* `[p q …]`, alternatives;
* `(p condition …)`, a pattern in a group;
* `field: p`, a pattern for a node held under a field;

and has any number of captures `@name` behind it. Inside a node, `!field` demands that
there be no child under the field. A condition is `(#name argument …)`. A semicolon starts
a comment.
-/

namespace SourceOutline.Query

/-- A condition as written: its name and its arguments. -/
structure RawCondition where
  name : String
  arguments : List Argument
  deriving DecidableEq, Repr, Inhabited

/-- A pattern as written, with the row it starts in and the conditions inside it. -/
structure RawRule where
  row : Nat
  pattern : Pattern
  conditions : List RawCondition
  deriving Repr, Inhabited

/-- Where reading stands: the place in the text, the capture names so far, and the
conditions of the current pattern so far. -/
structure ReadState where
  offset : Nat
  rest : List Char
  captureNames : List String := []
  conditions : List RawCondition := []
  deriving Repr, Inhabited

/-- A step of reading. -/
abbrev Read := StateT ReadState (Except Fault)

namespace Read

/-- Fails: something else was required here. -/
def malformed {α : Type} : Read α := do
  throw (.malformed (← get).offset)

/-- Fails: something else was required at an earlier place. -/
def malformedAt {α : Type} (offset : Nat) : Read α :=
  throw (.malformed offset)

/-- Fails: the word at the offset is not known. -/
def unknownWord {α : Type} (offset : Nat) : Read α :=
  throw (.unknownWord offset)

/-- The next character. -/
def peek : Read (Option Char) := do
  return (← get).rest.head?

/-- The offset of the next character. -/
def offset : Read Nat := do
  return (← get).offset

/-- Goes behind some characters. -/
def skipChars (cs : List Char) : Read Unit :=
  modify fun s => { s with offset := s.offset + byteLength cs, rest := s.rest.drop cs.length }

/-- Goes behind the next character. -/
def advance : Read Unit := do
  skipChars ((← get).rest.take 1)

/-- Whether a character is an ASCII blank. -/
def isSpace (c : Char) : Bool :=
  c = ' ' || ('\t' ≤ c && c ≤ '\r')

/-- The blanks and comments at the start of a text; `inComment` says that a comment is open. -/
def leadingBlanks (inComment : Bool) : List Char → List Char
  | [] => []
  | c :: cs =>
    if inComment then c :: leadingBlanks (c ≠ '\n') cs
    else if isSpace c then c :: leadingBlanks false cs
    else if c = ';' then c :: leadingBlanks true cs
    else []

/-- Goes behind blanks and comments. -/
def skipBlanks : Read Unit := do
  skipChars (leadingBlanks false (← get).rest)

/-- Whether a character may start an identifier. -/
def startsIdentifier (c : Char) : Bool :=
  c.isAlphanum || c = '_' || c = '-'

/-- Whether a character may continue an identifier. -/
def continuesIdentifier (c : Char) : Bool :=
  startsIdentifier c || c = '.'

/-- Reads an identifier, which is required here. -/
def identifier : Read String := do
  match (← get).rest with
  | c :: cs =>
    if startsIdentifier c then
      let name := c :: cs.takeWhile continuesIdentifier
      skipChars name
      return String.ofList name
    else malformed
  | [] => malformed

/-- The character that a backslash and `c` stand for. -/
def unescape (c : Char) : Char :=
  if c = 'n' then '\n'
  else if c = 'r' then '\r'
  else if c = 't' then '\t'
  else if c = '0' then '\x00'
  else c

/-- The text of a string after its opening quote, and the characters up to and with its
closing quote. -/
def stringBody? : List Char → Option (List Char × List Char)
  | [] => none
  | '"' :: _ => some ([], ['"'])
  | '\n' :: _ => none
  | '\\' :: c :: cs => do
    let (text, read) ← stringBody? cs
    some (unescape c :: text, '\\' :: c :: read)
  | c :: cs => do
    let (text, read) ← stringBody? cs
    some (c :: text, c :: read)

/-- Reads a string between double quotes. -/
def string : Read String := do
  let start ← offset
  advance
  match stringBody? (← get).rest with
  | some (text, read) =>
    skipChars read
    return String.ofList text
  | none => malformedAt start

/-- Notes a capture name. -/
def noteCapture (name : String) : Read Unit :=
  modify fun s =>
    if s.captureNames.contains name then s
    else { s with captureNames := s.captureNames ++ [name] }

/-- The captures behind a pattern. -/
def captures : Nat → Pattern → Read Pattern
  | 0, _ => malformed
  | fuel + 1, pattern => do
    skipBlanks
    match ← peek with
    | some '@' =>
      advance
      let name ← identifier
      noteCapture name
      captures fuel (pattern.capture name)
    | _ => return pattern

/-- The arguments of a condition up to its closing parenthesis. -/
def arguments : Nat → List Argument → Read (List Argument)
  | 0, _ => malformed
  | fuel + 1, before => do
    skipBlanks
    match ← peek with
    | some ')' =>
      advance
      return before
    | some '@' =>
      advance
      let start ← offset
      let name ← identifier
      if (← get).captureNames.contains name then
        arguments fuel (before ++ [.capture name])
      else unknownWord start
    | some '"' =>
      let text ← string
      arguments fuel (before ++ [.literal text])
    | _ =>
      let word ← identifier
      arguments fuel (before ++ [.literal word])

/-- Reads a condition after its opening mark and notes it. -/
def condition (fuel : Nat) : Read Unit := do
  let name ← identifier
  match ← peek with
  | some c =>
    if c = '?' || c = '!' then
      advance
      let args ← arguments fuel []
      skipBlanks
      modify fun s => { s with conditions := s.conditions ++ [⟨name.push c, args⟩] }
    else malformed
  | none => malformed

/-- The test that a name in parentheses stands for; `start` is the place of the name. -/
def nodeTest (vocabulary : Vocabulary) (start : Nat) (name : String) : Read NodeTest :=
  if name = "_" then return .anyNamed
  else if name = "ERROR" then return .error
  else if name = "MISSING" then return .missing
  else if vocabulary.named.contains name then return .kind name
  else unknownWord start

/-- What stands at a place where a pattern may stand. -/
inductive Found where
  /-- The closing mark of what is open. -/
  | close
  /-- A condition, which has been noted. -/
  | condition
  | pattern (pattern : Pattern)

mutual

/-- Reads what stands at a place where a pattern may stand. -/
def pattern (vocabulary : Vocabulary) : Nat → Read Found
  | 0 => malformed
  | fuel + 1 => do
    match ← peek with
    | none => malformed
    | some ')' => return .close
    | some ']' => return .close
    | some '[' =>
      advance
      skipBlanks
      let branches ← branches vocabulary fuel []
      return .pattern (← captures fuel (.choice branches))
    | some '(' =>
      advance
      skipBlanks
      match ← peek with
      | some '#' =>
        advance
        condition fuel
        return .condition
      | some '(' => inGroup vocabulary fuel
      | some '"' => inGroup vocabulary fuel
      | some '[' => inGroup vocabulary fuel
      | _ =>
        let start ← offset
        let name ← identifier
        let test ← nodeTest vocabulary start name
        skipBlanks
        let (absent, children) ← children vocabulary fuel [] []
        return .pattern (← captures fuel (.node test none absent [] children))
    | some '"' =>
      let start ← offset
      let text ← string
      if vocabulary.anonymous.contains text then
        return .pattern (← captures fuel (.node (.anonymous text) none [] [] []))
      else unknownWord (start + 1)
    | some '_' =>
      advance
      return .pattern (← captures fuel (.node .any none [] [] []))
    | some _ =>
      let start ← offset
      let field ← identifier
      skipBlanks
      match ← peek with
      | some ':' =>
        advance
        skipBlanks
        match ← pattern vocabulary fuel with
        | .pattern inner =>
          if vocabulary.fields.contains field then
            return .pattern (← captures fuel (inner.under field))
          else unknownWord start
        | _ => malformed
      | _ => malformedAt start

/-- The branches of an alternative up to its closing bracket. -/
def branches (vocabulary : Vocabulary) : Nat → List Pattern → Read (List Pattern)
  | 0, _ => malformed
  | fuel + 1, before => do
    match ← pattern vocabulary fuel with
    | .pattern p => branches vocabulary fuel (before ++ [p])
    | .condition => branches vocabulary fuel before
    | .close =>
      if (← peek) = some ']' && !before.isEmpty then
        advance
        return before
      else malformed

/-- A group after its opening parenthesis: one pattern among conditions, with captures
behind it. -/
def inGroup (vocabulary : Vocabulary) : Nat → Read Found
  | 0 => malformed
  | fuel + 1 => do
    match ← members vocabulary fuel none with
    | some p => return .pattern (← captures fuel p)
    | none => return .condition

/-- The members of a group up to its closing parenthesis. -/
def members (vocabulary : Vocabulary) : Nat → Option Pattern → Read (Option Pattern)
  | 0, _ => malformed
  | fuel + 1, before => do
    let start ← offset
    match ← pattern vocabulary fuel with
    | .pattern p =>
      if before.isNone then members vocabulary fuel (some p) else malformedAt start
    | .condition => members vocabulary fuel before
    | .close =>
      if (← peek) = some ')' then
        advance
        return before
      else malformed

/-- The absent fields and the child patterns of a node up to its closing parenthesis. -/
def children (vocabulary : Vocabulary) :
    Nat → List String → List Pattern → Read (List String × List Pattern)
  | 0, _, _ => malformed
  | fuel + 1, absent, before => do
    if (← peek) = some '!' then
      advance
      skipBlanks
      let start ← offset
      let field ← identifier
      skipBlanks
      if vocabulary.fields.contains field then
        children vocabulary fuel (absent ++ [field]) before
      else unknownWord start
    else
      match ← pattern vocabulary fuel with
      | .pattern p => children vocabulary fuel absent (before ++ [p])
      | .condition => children vocabulary fuel absent before
      | .close =>
        if (← peek) = some ')' then
          advance
          return (absent, before)
        else malformed

end

/-- The rules of a text from here on. A condition outside of any pattern is a rule without
a match. -/
def rules (vocabulary : Vocabulary) (text : List Char) :
    Nat → List RawRule → Read (List RawRule)
  | 0, _ => malformed
  | fuel + 1, before => do
    if (← peek).isNone then return before
    let start ← offset
    modify fun s => { s with conditions := [] }
    let found ← pattern vocabulary fuel
    let conditions := (← get).conditions
    let row :=
      (text.take (text.length - (splitAtByte start none text).2.length)).countP (· = '\n')
    match found with
    | .close => malformed
    | .condition => rules vocabulary text fuel (before ++ [⟨row, .choice [], conditions⟩])
    | .pattern p => rules vocabulary text fuel (before ++ [⟨row, p, conditions⟩])

end Read

/-- The rules and the capture names of a query text. -/
def readText (vocabulary : Vocabulary) (text : List Char) :
    Except Fault (List RawRule × List String) := do
  let start : Read (List RawRule) := do
    Read.skipBlanks
    Read.rules vocabulary text (4 * text.length + 4) []
  let (rules, state) ← start.run { offset := 0, rest := text }
  return (rules, state.captureNames)

end SourceOutline.Query
