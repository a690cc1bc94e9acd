import SourceOutline.Data.Basic

/-!
# TOML Tables

A document is built up table by table. A table remembers how it came about: it is implicit
when only deeper tables made it necessary, and dotted when dotted keys did. A table that
was written out cannot be reopened. Entries keep the order in which they were made.
-/

namespace SourceOutline.Toml

/-- What a key of a table holds. -/
inductive Item where
  /-- A value, which is closed. -/
  | value (data : Data)
  | table (implicit dotted : Bool) (entries : List (String × Item))
  /-- Tables under one name, the latest last. -/
  | tables (elements : List (List (String × Item)))
  deriving Inhabited

/-- The entries of a table. -/
abbrev Entries := List (String × Item)

mutual

/-- What a key holds, as data. -/
def Item.toData : Item → Data
  | .value data => data
  | .table _ _ entries => .map (entriesData entries)
  | .tables elements => .seq (elementsData elements)

/-- The entries of a table, as data. -/
def entriesData : List (String × Item) → List (String × Data)
  | [] => []
  | (key, item) :: rest => (key, item.toData) :: entriesData rest

/-- Tables under one name, as data. -/
def elementsData : List (List (String × Item)) → List Data
  | [] => []
  | entries :: rest => .map (entriesData entries) :: elementsData rest

end

/-- Puts an item under a key, in the place of the old one or else at the end. -/
def setItem (key : String) (item : Item) : Entries → Entries
  | [] => [(key, item)]
  | (other, old) :: rest =>
    if other = key then (key, item) :: rest else (other, old) :: setItem key item rest

/-- Changes the table that a path of keys leads to, with a function that also learns
whether the table is dotted. Missing tables on the way are made, implicit and with the
given mark. Nothing leads through a value, and dotted keys do not lead through a table
that was written out. -/
def changeAt (dotted : Bool) (change : Bool → Entries → Option Entries) :
    List String → Bool → Entries → Option Entries
  | [], isDotted, entries => change isDotted entries
  | key :: path, _, entries =>
    match entries.lookup key with
    | none => do
      let inner ← changeAt dotted change path dotted []
      some (entries ++ [(key, .table true dotted inner)])
    | some (.value _) => none
    | some (.table implicit isDotted inner) =>
      if dotted && !implicit then none
      else do
        let inner ← changeAt dotted change path isDotted inner
        some (setItem key (.table implicit isDotted inner) entries)
    | some (.tables elements) =>
      match elements.getLast? with
      | none => none
      | some last => do
        let last ← changeAt dotted change path false last
        some (setItem key (.tables (elements.dropLast ++ [last])) entries)

/-- Adds a value under a dotted key to the entries of a table. The last key has to be new,
and the table that the keys before it lead to has to be one of dotted keys. -/
def addValue (path : List String) (key : String) (data : Data) (entries : Entries) :
    Option Entries :=
  changeAt true
    (fun isDotted table =>
      if isDotted == path.isEmpty then none
      else if (table.lookup key).isSome then none
      else some (table ++ [(key, .value data)]))
    path false entries

/-- Opens the table of a header. An implicit table that no dotted key made is taken over,
and moves to the end. -/
def openTable (path : List String) (key : String) (root : Entries) : Option Entries :=
  changeAt false
    (fun _ parent =>
      match parent.lookup key with
      | none => some (parent ++ [(key, .table false false [])])
      | some (.table true false entries) =>
        some (parent.filter (·.1 ≠ key) ++ [(key, .table false false entries)])
      | some _ => none)
    path false root

/-- Opens a further table under the name of a header in double brackets. -/
def openElement (path : List String) (key : String) (root : Entries) : Option Entries :=
  changeAt false
    (fun _ parent =>
      match parent.lookup key with
      | none => some (parent ++ [(key, .tables [[]])])
      | some (.tables elements) => some (setItem key (.tables (elements ++ [[]])) parent)
      | some _ => none)
    path false root

end SourceOutline.Toml
