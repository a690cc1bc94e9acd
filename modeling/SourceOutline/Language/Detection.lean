import SourceOutline.Language.Markers
import SourceOutline.Language.Shebang
import SourceOutline.Text.Lines

/-!
# The Language of a Text

A text is recognised by its interpreter line, if it has one, and else by the first content
marker that occurs in it.
-/

namespace SourceOutline.Language

/-- The first line of a text without blanks around it. -/
def firstLine (cs : List Char) : List Char :=
  Text.trim ((Text.lines cs).headD [])

/-- The language of the first marker that occurs in a text. -/
def ofMarkers? (cs : List Char) : Option Language :=
  (Marker.all.find? fun entry => entry.1.searchChars cs).map (·.2)

/-- The language of a text, by its content alone. -/
def detectChars (cs : List Char) : Language :=
  ((ofShebang? (firstLine cs)).or (ofMarkers? cs)).getD .unsupported

/-- `detectChars` on strings. -/
def detect (content : String) : Language :=
  detectChars content.toList

end SourceOutline.Language
