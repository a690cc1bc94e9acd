/-!
# Ranges of Code Points

A character class of a standard is written as a list of closed ranges of code points in
increasing order. `covers` decides membership; the tables of the neighbouring modules are
values of `CodeRanges`. All of them are those of version 15.0 of the Unicode standard.
-/

namespace SourceOutline.Text

/-- Closed ranges of code points, in increasing order. -/
abbrev CodeRanges := List (Nat × Nat)

namespace CodeRanges

/-- Whether some range holds the code point. -/
def covers (ranges : CodeRanges) (n : Nat) : Bool :=
  ranges.any fun r => r.1 ≤ n && n ≤ r.2

end CodeRanges

end SourceOutline.Text
