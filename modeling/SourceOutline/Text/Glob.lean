/-!
# Globs

A glob is a text in which `*` stands for any run of characters and `?` for any one
character. ASCII case does not matter.

## Main statements

* `globMatches_star`: a trailing star accepts every text.
-/

namespace SourceOutline.Text

/-- A text and what remains of it after each of its characters, the longest first. -/
def suffixes : List Char → List (List Char)
  | [] => [[]]
  | c :: cs => (c :: cs) :: suffixes cs

/-- The empty text is a suffix of every text. -/
theorem nil_mem_suffixes (cs : List Char) : [] ∈ suffixes cs := by
  induction cs with
  | nil => simp [suffixes]
  | cons c cs ih => simp [suffixes, ih]

/-- Whether a glob accepts a text, both in lowercase. -/
def globMatches : List Char → List Char → Bool
  | [], cs => cs.isEmpty
  | g :: gs, cs =>
    if g = '*' then (suffixes cs).any fun rest => globMatches gs rest
    else match cs with
      | [] => false
      | c :: cs => (g = '?' || g = c) && globMatches gs cs

/-- A trailing star accepts every text. -/
theorem globMatches_star (cs : List Char) : globMatches ['*'] cs = true := by
  simp only [globMatches, if_true, List.any_eq_true]
  exact ⟨[], nil_mem_suffixes cs, rfl⟩

/-- Whether a glob accepts a text. ASCII case does not matter. -/
def matchesGlob (glob text : String) : Bool :=
  globMatches glob.toLower.toList text.toLower.toList

end SourceOutline.Text
