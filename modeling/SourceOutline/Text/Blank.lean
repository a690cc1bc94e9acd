import SourceOutline.Text.CodeRange

/-!
# Blanks, Trimming and Words

Blank characters are those with the Unicode property `White_Space`. `trim` removes them at
both ends, `words` cuts a text at runs of them. All work on `List Char`; `trimmed` is the
form on `String`.

## Main statements

* `trim_eq_self`: a text that neither starts nor ends with a blank is left as it is.
-/

namespace SourceOutline.Text

/-- The code points with the property `White_Space`. -/
def blanks : CodeRanges :=
  [(0x9, 0xd), (0x20, 0x20), (0x85, 0x85), (0xa0, 0xa0), (0x1680, 0x1680), (0x2000, 0x200a),
   (0x2028, 0x2029), (0x202f, 0x202f), (0x205f, 0x205f), (0x3000, 0x3000)]

/-- Whether a character is blank. -/
def isBlank (c : Char) : Bool :=
  blanks.covers c.toNat

/-- The text without the blanks it starts with. -/
def trimLeft (cs : List Char) : List Char :=
  cs.dropWhile isBlank

/-- The text without the blanks it ends with. -/
def trimRight (cs : List Char) : List Char :=
  (cs.reverse.dropWhile isBlank).reverse

/-- The text without blanks at either end. -/
def trim (cs : List Char) : List Char :=
  trimRight (trimLeft cs)

/-- `trim` on strings. -/
def trimmed (s : String) : String :=
  String.ofList (trim s.toList)

/-- A text that does not start with a blank loses nothing on the left. -/
theorem trimLeft_eq_self {cs : List Char} (h : ∀ c, cs.head? = some c → isBlank c = false) :
    trimLeft cs = cs := by
  cases cs with
  | nil => rfl
  | cons c cs => simp [trimLeft, h c rfl]

/-- A text that does not end with a blank loses nothing on the right. -/
theorem trimRight_eq_self {cs : List Char}
    (h : ∀ c, cs.getLast? = some c → isBlank c = false) :
    trimRight cs = cs := by
  have hrev : trimLeft cs.reverse = cs.reverse := by
    refine trimLeft_eq_self fun c hc => h c ?_
    rwa [List.head?_reverse] at hc
  rw [trimLeft] at hrev
  rw [trimRight, hrev, List.reverse_reverse]

/-- A text that neither starts nor ends with a blank is left as it is. -/
theorem trim_eq_self {cs : List Char} (hl : ∀ c, cs.head? = some c → isBlank c = false)
    (hr : ∀ c, cs.getLast? = some c → isBlank c = false) : trim cs = cs := by
  rw [trim, trimLeft_eq_self hl, trimRight_eq_self hr]

/-- The maximal runs of characters that are not blank, in order. -/
def words : List Char → List (List Char)
  | [] => []
  | c :: cs =>
    if isBlank c then words cs
    else match cs, words cs with
      | [], _ => [[c]]
      | d :: _, ws =>
        if isBlank d then [c] :: ws
        else match ws with
          | [] => [[c]]
          | w :: ws => (c :: w) :: ws

end SourceOutline.Text
