import SourceOutline.Text.Utf8

/-!
# Positions in a Source

A place in a source is a byte offset. For people it is a line, counted from one, and a
column in bytes, counted from zero; `Point` counts rows from zero instead. Only line feeds
end a line.
-/

namespace SourceOutline

/-- A row and a column in bytes, both counted from zero. -/
structure Point where
  row : Nat
  column : Nat
  deriving DecidableEq, Repr, Inhabited

/-- A line, counted from one, and a column in bytes, counted from zero. -/
structure Position where
  line : Nat
  column : Nat
  deriving DecidableEq, Repr, Inhabited

/-- The byte that ends a line. -/
def lineFeed : UInt8 := 10

/-- The point at an offset of a source. -/
def Point.ofOffset (source : Bytes) (offset : Nat) : Point where
  row := (source.take offset).countP (· == lineFeed)
  column := ((source.take offset).reverse.takeWhile (· != lineFeed)).length

/-- The position of a point. -/
def Point.toPosition (point : Point) : Position where
  line := point.row + 1
  column := point.column

/-- A position as `line:column`. -/
def Position.text (position : Position) : String :=
  toString position.line ++ ":" ++ toString position.column

end SourceOutline
