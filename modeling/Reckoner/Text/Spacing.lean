import Reckoner.Unicode.Space

/-!
# Tight spacing

`tightenBefore p` deletes every run of white space that comes directly before a character of class
`p`, and `tightenAfter p` every run that comes directly after one. Each is a single fold, from the
end of the text that the condition looks at: a blank goes exactly when what is kept next to it is
in the class.
-/

namespace Reckoner.Text

open Unicode

/-- Put `c` in front of a text, unless it is white space and the text starts in the class. -/
def consTight (p : Char → Bool) (c : Char) (cs : List Char) : List Char :=
  if isSpace c && cs.head?.any p then cs else c :: cs

/-- The text without the white space before the characters of the class. -/
def tightenBefore (p : Char → Bool) (cs : List Char) : List Char :=
  cs.foldr (consTight p) []

/-- The text without the white space after the characters of the class. -/
def tightenAfter (p : Char → Bool) (cs : List Char) : List Char :=
  (tightenBefore p cs.reverse).reverse

/-- The text with no white space next to the characters of the class. -/
def tightenAround (p : Char → Bool) (cs : List Char) : List Char :=
  tightenAfter p (tightenBefore p cs)

theorem tightenBefore_cons (p : Char → Bool) (c : Char) (cs : List Char) :
    tightenBefore p (c :: cs) = consTight p c (tightenBefore p cs) := rfl

/-- The text without the white space that directly follows a character of class `p` or directly
precedes one of class `q`, in one pass. `last` is the character before, white space apart. -/
def squeeze (p q : Char → Bool) (last : Option Char) : List Char → List Char
  | [] => []
  | c :: cs =>
    if isSpace c then
      if last.any p || (cs.find? (!isSpace ·)).any q then squeeze p q last cs
      else c :: squeeze p q last cs
    else c :: squeeze p q (some c) cs

/-- A text of so many blanks. -/
def blanks (count : Nat) : String := String.ofList (List.replicate count ' ')

end Reckoner.Text
