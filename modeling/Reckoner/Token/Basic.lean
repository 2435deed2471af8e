import Reckoner.Unicode.Digit

/-!
# Tokens

A token is a number or one of the eight symbols on the keys, together with the text that it was
read from. The kind decides how it is read; the text decides how it is shown and what number it is.
-/

namespace Reckoner

namespace Token

/-- What a token is. -/
inductive Kind where
  | number
  | leftParen
  | rightParen
  | plus
  | minus
  | multiply
  | divide
  | modulo
  | power
deriving DecidableEq

namespace Kind

/-- The name in messages. -/
def name : Kind → String
  | number => "NUMBER"
  | leftParen => "LEFT_PAREN"
  | rightParen => "RIGHT_PAREN"
  | plus => "PLUS"
  | minus => "MINUS"
  | multiply => "MULTIPLY"
  | divide => "DIVIDE"
  | modulo => "MODULO"
  | power => "POWER"

def all : List Kind :=
  [number, leftParen, rightParen, plus, minus, multiply, divide, modulo, power]

/-- The kind of that name. -/
def ofName? (s : String) : Option Kind := all.find? (·.name == s)

/-- The character of a symbol. -/
def symbol? : Kind → Option Char
  | number => none
  | leftParen => some '('
  | rightParen => some ')'
  | plus => some '+'
  | minus => some '-'
  | multiply => some '*'
  | divide => some '/'
  | modulo => some '%'
  | power => some '^'

/-- The symbol that a character is. -/
def ofChar? (c : Char) : Option Kind := all.find? fun k => k.symbol? == some c

theorem ofChar?_eq_some_iff {c : Char} {k : Kind} : ofChar? c = some k ↔ k.symbol? = some c := by
  constructor
  · intro h
    simpa using List.find?_some h
  · intro h
    cases k <;> cases h <;> decide

end Kind

end Token

/-- A kind and the text that it was read from. -/
structure Token where
  kind : Token.Kind
  text : String
deriving DecidableEq

namespace Token

/-- The token with its kind, for showing. -/
def tagged (t : Token) : String := "<" ++ t.kind.name ++ ">" ++ t.text

/-- The characters of a number token: digits of any kind and the point. -/
def isNumberChar (c : Char) : Bool := Unicode.isDigit c || c == '.'

/-- The characters that a text may be made of. -/
def isLegal (c : Char) : Bool :=
  isNumberChar c || (Kind.ofChar? c).isSome || Unicode.isSpace c

end Token

end Reckoner
