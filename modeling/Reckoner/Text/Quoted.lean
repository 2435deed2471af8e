import Reckoner.Unicode.Printable

/-!
# Quoted texts

`quoted text` is the text between quotes, with every character shown on one line: the enclosing
quote and the backslash after a backslash, tabs and line ends as letters, and any other character
that is not printable by its code point, in two, four or eight hexadecimal digits. The quotes are
double when the text holds a single quote and no double one.
-/

namespace Reckoner.Text

def singleQuote : Char := '\x27'

def doubleQuote : Char := '\x22'

def backslash : Char := '\x5c'

/-- The number in hexadecimal digits, at least `width` of them. -/
def hex (width n : Nat) : List Char :=
  let digits := Nat.toDigits 16 n
  List.replicate (width - digits.length) '0' ++ digits

/-- A code point after the letter that tells its width. -/
def escapeCode (n : Nat) : List Char :=
  if n < 0x100 then 'x' :: hex 2 n
  else if n < 0x10000 then 'u' :: hex 4 n
  else 'U' :: hex 8 n

/-- A character as it stands between two of the given quotes. -/
def escape (quote c : Char) : List Char :=
  if c == quote || c == backslash then [backslash, c]
  else if c == '\t' then [backslash, 't']
  else if c == '\n' then [backslash, 'n']
  else if c == '\r' then [backslash, 'r']
  else if Unicode.isPrintable c then [c]
  else backslash :: escapeCode c.toNat

/-- The quote that the text is put between. -/
def quoteFor (cs : List Char) : Char :=
  if cs.contains singleQuote && !cs.contains doubleQuote then doubleQuote else singleQuote

/-- The text between quotes. -/
def quoted (text : String) : String :=
  let cs := text.toList
  let quote := quoteFor cs
  String.ofList (quote :: cs.flatMap (escape quote) ++ [quote])

end Reckoner.Text
