import Reckoner.Token.Basic

/-!
# Canonical tokens, and the tokens of a text by its runs

A token is canonical when its text is what a scan would have taken it from: a run of number
characters for a number, its own symbol for any other kind.

`lexemes` gives the tokens of a text without going through it: cut the text wherever two
neighbours are not both number characters, and keep the pieces that are no white space.
-/

namespace Reckoner

namespace Token

/-- The text of the token is the one that its kind is read from. -/
def IsCanonical (t : Token) : Prop :=
  match t.kind.symbol? with
  | none => t.text ≠ "" ∧ ∀ c ∈ t.text.toList, isNumberChar c = true
  | some c => t.text = String.singleton c

/-- The pieces of a text: the maximal runs of number characters, and every other character. -/
def pieces (cs : List Char) : List (List Char) :=
  cs.splitBy fun a b => isNumberChar a && isNumberChar b

/-- The token that a piece is, if it is not white space. -/
def ofPiece? : List Char → Option Token
  | [] => none
  | c :: cs =>
    if isNumberChar c then some ⟨.number, String.ofList (c :: cs)⟩
    else (Kind.ofChar? c).map fun k => ⟨k, String.ofList (c :: cs)⟩

/-- The tokens of the pieces of a text. -/
def lexemes (cs : List Char) : List Token := (pieces cs).filterMap ofPiece?

end Token

end Reckoner
