import SourceOutline.Regex.Basic

/-!
# Searching for a Regular Expression

`Regex.search` reads a text once, keeping the set of expressions that are still to be
matched after what was read so far: the partial derivatives of the expression, one set for
all the places where a match may have started. It succeeds as soon as one of them accepts
the empty text.
-/

namespace SourceOutline.Regex

/-- Whether an expression matches the empty text at a place. -/
def nullable (p : Place) : Regex → Bool
  | .fail => false
  | .empty => true
  | .set _ => false
  | .look a => a.holds p
  | .seq r s => r.nullable p && s.nullable p
  | .alt r s => r.nullable p || s.nullable p
  | .star _ => true

/-- `seq`, with nothing put before an expression left away. -/
def followedBy : Regex → Regex → Regex
  | .empty, s => s
  | r, s => .seq r s

/-- Whether a symbol is a character of the set. -/
def accepts (s : CharSet) : Symbol → Bool
  | some c => s.contains c
  | none => false

/-- What is left of an expression after the symbol `x`, read where `before` precedes it:
one expression for each way to begin with `x`. -/
def derivatives (before : Option Symbol) (x : Symbol) : Regex → List Regex
  | .fail => []
  | .empty => []
  | .set s => if accepts s x then [.empty] else []
  | .look _ => []
  | .seq r s =>
    let first := (r.derivatives before x).map (followedBy · s)
    if r.nullable ⟨before, some x⟩ then first ++ s.derivatives before x else first
  | .alt r s => r.derivatives before x ++ s.derivatives before x
  | .star r => (r.derivatives before x).map (followedBy · (.star r))

/-- Whether one of the expressions `pending` matches from here on, or `r` from here or a
later place. -/
def searchFrom (r : Regex) (before : Option Symbol) (pending : List Regex) : Subject → Bool
  | [] => (r :: pending).any (nullable ⟨before, none⟩)
  | x :: rest =>
    (r :: pending).any (nullable ⟨before, some x⟩)
      || searchFrom r (some x) ((r :: pending).flatMap (derivatives before x)).eraseDups rest

/-- Whether an expression matches some part of a text. -/
def search (r : Regex) (text : Subject) : Bool :=
  searchFrom r none [] text

/-- Whether an expression matches some part of a text of characters. -/
def searchChars (r : Regex) (cs : List Char) : Bool :=
  r.search (cs.map some)

end SourceOutline.Regex
