import SourceOutline.Toml.Scalar
import SourceOutline.Toml.Table

/-!
# Reading TOML

`Toml.read?` reads a TOML 1.0 document as data: tables are maps in document order, and a
date is a map with a single reserved key. Malformed documents give `none`.
-/

namespace SourceOutline.Toml

/-- Values nest less deeply than this. -/
def nestingLimit : Nat := 80

/-- Whether a character may stand in a bare key. -/
def isBare (c : Char) : Bool :=
  c.isAlphanum || c = '_' || c = '-'

/-- A key without dots. -/
def readSimpleKey? : List Char → Option (String × List Char)
  | '"' :: cs => (readBasic? (cs.length + 1) cs).map fun (text, rest) =>
    (String.ofList text, rest)
  | '\'' :: cs => (readLiteral? cs).map fun (text, rest) => (String.ofList text, rest)
  | cs =>
    let name := cs.takeWhile isBare
    if name.isEmpty then none else some (String.ofList name, cs.drop name.length)

/-- A key with dots, as its parts. -/
def readKey? : Nat → List Char → Option (List String × List Char)
  | 0, _ => none
  | fuel + 1, cs => do
    let (part, rest) ← readSimpleKey? cs
    match skipSpace rest with
    | '.' :: rest => do
      let (parts, rest) ← readKey? fuel (skipSpace rest)
      some (part :: parts, rest)
    | _ => some ([part], rest)

/-- A key that may stand before a value or in a header: the parts before the last one, and
the last one. -/
def readPath? (cs : List Char) : Option ((List String × String) × List Char) := do
  let (parts, rest) ← readKey? nestingLimit cs
  guard (parts.length < nestingLimit)
  let last ← parts.getLast?
  some ((parts.dropLast, last), rest)

mutual

/-- A value that nests at most `depth` deep. -/
def readValue? : Nat → List Char → Option (Data × List Char)
  | 0, _ => none
  | depth + 1, cs =>
    match cs with
    | '"' :: _ => (readString? cs).map fun (text, rest) => (.str (String.ofList text), rest)
    | '\'' :: _ => (readString? cs).map fun (text, rest) => (.str (String.ofList text), rest)
    | '[' :: rest => do
      let (elements, rest) ← readElements? depth (rest.length + 1) rest
      some (.seq elements, rest)
    | '{' :: rest =>
      match skipSpace rest with
      | '}' :: rest => some (.map [], rest)
      | rest => do
        let (entries, rest) ← readPairs? depth (rest.length + 1) [] rest
        some (.map (entriesData entries), rest)
    | cs => readPlain? cs

/-- The elements of an array up to its closing bracket. -/
def readElements? : Nat → Nat → List Char → Option (List Data × List Char)
  | _, 0, _ => none
  | depth, fuel + 1, cs =>
    match skipLines cs.length cs with
    | ']' :: rest => some ([], rest)
    | cs => do
      let (element, rest) ← readValue? depth cs
      match skipLines rest.length rest with
      | ',' :: rest => do
        let (elements, rest) ← readElements? depth fuel rest
        some (element :: elements, rest)
      | ']' :: rest => some ([element], rest)
      | _ => none

/-- The pairs of an inline table up to its closing brace. -/
def readPairs? : Nat → Nat → Entries → List Char → Option (Entries × List Char)
  | _, 0, _, _ => none
  | depth, fuel + 1, entries, cs => do
    let ((path, key), rest) ← readPath? (skipSpace cs)
    let rest ← readMark? '=' (skipSpace rest)
    let (value, rest) ← readValue? depth (skipSpace rest)
    let entries ← addValue path key value entries
    match skipSpace rest with
    | ',' :: rest => readPairs? depth fuel entries rest
    | '}' :: rest => some (entries, rest)
    | _ => none

end

/-- The end of a line behind something: blanks, a comment, and a line end or the end of
the document. -/
def readLineEnd? (cs : List Char) : Option (List Char) :=
  match skipComment (skipSpace cs) with
  | [] => some []
  | cs => readNewline? cs

/-- The document so far, and where the table that is open lies in it. -/
structure Document where
  root : Entries := []
  /-- The path of the open table. -/
  current : List String := []
  deriving Inhabited

/-- The document with a value added to the open table. -/
def Document.add (document : Document) (path : List String) (key : String) (data : Data) :
    Option Document := do
  let root ← changeAt false (fun _ table => addValue path key data table) document.current
      false document.root
  some { document with root }

/-- A header or a pair at the start of a line. -/
def readExpression? (document : Document) : List Char → Option (Document × List Char)
  | '[' :: '[' :: cs => do
    let ((path, key), rest) ← readPath? (skipSpace cs)
    let rest ← readMark? ']' (skipSpace rest)
    let rest ← readMark? ']' rest
    let root ← openElement path key document.root
    some ({ root, current := path ++ [key] }, rest)
  | '[' :: cs => do
    let ((path, key), rest) ← readPath? (skipSpace cs)
    let rest ← readMark? ']' (skipSpace rest)
    let root ← openTable path key document.root
    some ({ root, current := path ++ [key] }, rest)
  | cs => do
    let ((path, key), rest) ← readPath? cs
    let rest ← readMark? '=' (skipSpace rest)
    let (value, rest) ← readValue? nestingLimit (skipSpace rest)
    let document ← document.add path key value
    some (document, rest)

/-- The lines of a document. -/
def readLines? : Nat → Document → List Char → Option Document
  | 0, _, _ => none
  | fuel + 1, document, cs =>
    match skipLines cs.length cs with
    | [] => some document
    | cs => do
      let (document, rest) ← readExpression? document cs
      let rest ← readLineEnd? rest
      readLines? fuel document rest

/-- A document without the mark of its byte order. -/
def withoutMark : List Char → List Char
  | '\uFEFF' :: cs => cs
  | cs => cs

/-- The data of a document. -/
def read? (text : String) : Option Data :=
  let cs := withoutMark text.toList
  (readLines? (cs.length + 1) {} cs).map fun document => .map (entriesData document.root)

end SourceOutline.Toml
