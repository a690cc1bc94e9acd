/-!
# Lines

A line ends with a line feed, which belongs to it; a text that does not end with one has a
last line without. `lines` gives the lines without their ends, where a carriage return
before the line feed is part of the end.

## Main statements

* `flatten_rawLines`: the raw lines put together are the text.
* `length_lines`: `lines` has as many elements as `rawLines`.
-/

namespace SourceOutline.Text

/-- The lines of a text, each with the line feed that ends it. -/
def rawLines : List Char → List (List Char)
  | [] => []
  | c :: cs =>
    if c = '\n' then [c] :: rawLines cs
    else match rawLines cs with
      | [] => [[c]]
      | l :: ls => (c :: l) :: ls

/-- A raw line without its end: the line feed, and a carriage return before it. -/
def withoutEnd (line : List Char) : List Char :=
  match line.reverse with
  | '\n' :: '\r' :: rest => rest.reverse
  | '\n' :: rest => rest.reverse
  | _ => line

/-- The lines of a text without their ends. -/
def lines (cs : List Char) : List (List Char) :=
  (rawLines cs).map withoutEnd

/-- The number of lines. -/
def lineCount (cs : List Char) : Nat :=
  (lines cs).length

/-- The raw lines put together are the text. -/
theorem flatten_rawLines (cs : List Char) : (rawLines cs).flatten = cs := by
  induction cs with
  | nil => rfl
  | cons c cs ih =>
    simp only [rawLines]
    split
    · simp [ih]
    · cases h : rawLines cs with
      | nil => rw [h] at ih; simp [← ih]
      | cons l ls => rw [h] at ih; simp [← ih]

/-- `lines` has as many elements as `rawLines`. -/
theorem length_lines (cs : List Char) : (lines cs).length = (rawLines cs).length := by
  simp [lines]

end SourceOutline.Text
