import SourceOutline.Text.Utf8

/-!
# Paths

A path is a byte text whose components are separated by slashes. Empty components and `.`
name nothing and are passed over; `..` is a component without a name. The last component
gives the file name, and the part of the file name after its last dot the extension,
unless that dot starts the name.

## Main statements

* `splitAt_ne_nil`: a path has at least one piece between slashes.
-/

namespace SourceOutline

/-- A path of the file system. -/
structure Path where
  bytes : Bytes
  deriving DecidableEq, Repr, Inhabited

namespace Path

/-- The byte between components. -/
def slash : UInt8 := 0x2F

/-- The byte before an extension. -/
def dot : UInt8 := 0x2E

/-- A path from its text. -/
def ofString (s : String) : Path :=
  ⟨Text.encode s⟩

/-- The path as text. -/
def display (p : Path) : String :=
  Text.lossy p.bytes

/-- The pieces of a byte text between the places where `sep` stands. -/
def splitAt (sep : UInt8) : Bytes → List Bytes
  | [] => [[]]
  | b :: bs =>
    if b = sep then [] :: splitAt sep bs
    else match splitAt sep bs with
      | [] => [[b]]
      | piece :: pieces => (b :: piece) :: pieces

/-- There is at least one piece. -/
theorem splitAt_ne_nil (sep : UInt8) (bs : Bytes) : splitAt sep bs ≠ [] := by
  cases bs with
  | nil => simp [splitAt]
  | cons b bs =>
    simp only [splitAt]
    split
    · simp
    · split <;> simp

/-- The components that name or step up, in order. -/
def components (p : Path) : List Bytes :=
  (splitAt slash p.bytes).filter fun piece => piece ≠ [] ∧ piece ≠ [dot]

/-- Whether the path starts at the root. -/
def isAbsolute (p : Path) : Bool :=
  p.bytes.head? = some slash

/-- The path of `name` seen from `p`: `name` itself if it is absolute. -/
def join (p name : Path) : Path :=
  if name.isAbsolute then name
  else if p.bytes = [] ∨ p.bytes.getLast? = some slash then ⟨p.bytes ++ name.bytes⟩
  else ⟨p.bytes ++ slash :: name.bytes⟩

/-- `join` with the name as text. -/
def joinString (p : Path) (name : String) : Path :=
  p.join (ofString name)

/-- The name of the last component, unless it steps up. -/
def fileName (p : Path) : Option Bytes :=
  match p.components.getLast? with
  | some name => if name = [dot, dot] then none else some name
  | none => none

/-- A name cut at its last dot: what stands before it and after it. -/
def splitLastDot : Bytes → Option (Bytes × Bytes)
  | [] => none
  | b :: bs =>
    match splitLastDot bs with
    | some (before, after) => some (b :: before, after)
    | none => if b = dot then some ([], bs) else none

/-- The extension of a name: what follows its last dot, unless the dot is its first byte. -/
def extensionOfName (name : Bytes) : Option Bytes :=
  match splitLastDot name with
  | some (before, after) => if before = [] then none else some after
  | none => none

/-- The extension of the file name. -/
def extension (p : Path) : Option Bytes :=
  p.fileName.bind extensionOfName

end Path

end SourceOutline
