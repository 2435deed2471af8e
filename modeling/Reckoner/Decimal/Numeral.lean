import Reckoner.Decimal.Basic
import Reckoner.Unicode.Digit

/-!
# Numerals: the texts that denote numbers

A numeral is, between blanks, an optional sign and then one of

* a word for an infinity or for NaN, in letters of either case;
* decimal digits with at most one point among or around them, and optionally an exponent.

One underscore may stand between two digits. The decimal digits of every script count as the
digits they stand for, and white space outside ASCII as a blank. `read?` gives the nearest
binary64 number: a numeral may be too large for a finite number, but never too long.
-/

namespace Reckoner

namespace Numeral

open Unicode

/-! ## Characters -/

/-- The ASCII character that a character of a numeral stands for. -/
def plain (c : Char) : Char :=
  if c.toNat < 128 then c
  else if isSpace c then ' '
  else
    match digitValue? c with
    | some value => value.digitChar
    | none => c

/-- The blanks that may surround a numeral. -/
def isBlank (c : Char) : Bool :=
  c == ' ' || c == '\t' || c == '\n' || c == '\x0b' || c == '\x0c' || c == '\r'

/-- The text without blanks on either side. -/
def trim (cs : List Char) : List Char :=
  ((cs.dropWhile isBlank).reverse.dropWhile isBlank).reverse

/-- The characters without underscores, each of which has to stand between two digits.
`afterDigit` says whether a digit comes just before. -/
def ungroup? (afterDigit : Bool) : List Char → Option (List Char)
  | [] => some []
  | '_' :: cs =>
    if afterDigit && (cs.head?.any Char.isDigit) then ungroup? false cs else none
  | c :: cs => (ungroup? c.isDigit cs).map (c :: ·)

/-! ## Parts -/

/-- An optional sign, true for a minus, and what follows. -/
def splitSign : List Char → Bool × List Char
  | '-' :: cs => (true, cs)
  | '+' :: cs => (false, cs)
  | cs => (false, cs)

/-- The exponent after the digits, zero if nothing is left. -/
def exponent? : List Char → Option Int
  | [] => some 0
  | c :: cs =>
    let (negative, digits) := splitSign cs
    if (c == 'e' || c == 'E') && !digits.isEmpty && digits.all Char.isDigit then
      let size : Int := Nat.ofDigitChars 10 digits 0
      some (if negative then -size else size)
    else none

/-- The digits after a point, if there is one, and what follows. -/
def splitFraction : List Char → List Char × List Char
  | '.' :: cs => cs.span Char.isDigit
  | cs => ([], cs)

/-- Digits with at most one point, and an exponent. -/
def decimal? (cs : List Char) : Option Decimal :=
  let (whole, rest) := cs.span Char.isDigit
  let (fraction, rest) := splitFraction rest
  if whole.isEmpty && fraction.isEmpty then none
  else
    (exponent? rest).map fun exponent =>
      ⟨Nat.ofDigitChars 10 (whole ++ fraction) 0, exponent - fraction.length⟩

/-- The words for an infinity. -/
def isInfinityWord (cs : List Char) : Bool :=
  cs == ['i', 'n', 'f'] || cs == ['i', 'n', 'f', 'i', 'n', 'i', 't', 'y']

/-- The word for NaN. -/
def isNaNWord (cs : List Char) : Bool := cs == ['n', 'a', 'n']

/-- A numeral without its sign. -/
def unsigned? (negative : Bool) (cs : List Char) : Option Binary64 :=
  let word := cs.map Char.toLower
  if isInfinityWord word then some (.infinity negative)
  else if isNaNWord word then some .nan
  else (decimal? cs).map (·.toBinary64 negative)

/-- The number that a text denotes, if it is a numeral. -/
def read? (text : String) : Option Binary64 :=
  (ungroup? false (trim (text.toList.map plain))).bind fun cs =>
    let (negative, rest) := splitSign cs
    unsigned? negative rest

end Numeral

end Reckoner
