import Reckoner.Unicode.Space

/-!
# Digits

Two classes of Unicode 14. A **decimal digit** stands for 0 to 9 in a positional system of one of
the scripts; the scripts keep their ten digits together and in order, so that the code point of
the zero gives all ten. A **digit** is a decimal digit or a character that shows a single digit in
another way, such as a superscript or a circled one; those have no value here.

Main statements: no digit is white space (`isSpace_of_isDigit`), and every decimal digit is a
digit (`isDigit_of_isDecimal`).
-/

namespace Reckoner.Unicode

/-- The zeros of the decimal digit systems. -/
def decimalZeros : List Nat := [
  0x0030, 0x0660, 0x06F0, 0x07C0, 0x0966, 0x09E6, 0x0A66, 0x0AE6, 0x0B66, 0x0BE6, 0x0C66, 0x0CE6,
  0x0D66, 0x0DE6, 0x0E50, 0x0ED0, 0x0F20, 0x1040, 0x1090, 0x17E0, 0x1810, 0x1946, 0x19D0, 0x1A80,
  0x1A90, 0x1B50, 0x1BB0, 0x1C40, 0x1C50, 0xA620, 0xA8D0, 0xA900, 0xA9D0, 0xA9F0, 0xAA50, 0xABF0,
  0xFF10, 0x104A0, 0x10D30, 0x11066, 0x110F0, 0x11136, 0x111D0, 0x112F0, 0x11450, 0x114D0,
  0x11650, 0x116C0, 0x11730, 0x118E0, 0x11950, 0x11C50, 0x11D50, 0x11DA0, 0x16A60, 0x16AC0,
  0x16B50, 0x1D7CE, 0x1D7D8, 0x1D7E2, 0x1D7EC, 0x1D7F6, 0x1E140, 0x1E2F0, 0x1E950, 0x1FBF0]

/-- The decimal digits, ten from each zero on. -/
def decimals : Ranges := decimalZeros.map fun z => (z, z + 9)

/-- Digits that are no decimal digits. -/
def otherDigits : Ranges := [
  (0x00B2, 0x00B3), (0x00B9, 0x00B9), (0x1369, 0x1371), (0x19DA, 0x19DA), (0x2070, 0x2070),
  (0x2074, 0x2079), (0x2080, 0x2089), (0x2460, 0x2468), (0x2474, 0x247C), (0x2488, 0x2490),
  (0x24EA, 0x24EA), (0x24F5, 0x24FD), (0x24FF, 0x24FF), (0x2776, 0x277E), (0x2780, 0x2788),
  (0x278A, 0x2792), (0x10A40, 0x10A43), (0x10E60, 0x10E68), (0x11052, 0x1105A), (0x1F100, 0x1F10A)]

/-- A digit of a positional decimal system. -/
def isDecimal (c : Char) : Bool := decimals.contains c

/-- A digit of any kind. -/
def isDigit (c : Char) : Bool := decimals.contains c || otherDigits.contains c

/-- The value of a decimal digit. -/
def digitValue? (c : Char) : Option Nat :=
  (decimalZeros.find? fun z => z ≤ c.toNat && c.toNat ≤ z + 9).map (c.toNat - ·)

theorem isDigit_of_isDecimal {c : Char} (h : isDecimal c = true) : isDigit c = true := by
  rw [isDecimal] at h
  simp [isDigit, h]

/-- The decimal digits are the characters with a value. -/
theorem isSome_digitValue? (c : Char) : (digitValue? c).isSome = isDecimal c := by
  rw [Bool.eq_iff_iff]
  simp [digitValue?, isDecimal, decimals, Ranges.contains]

/-- No digit is white space. -/
theorem isSpace_of_isDigit {c : Char} (h : isDigit c = true) : isSpace c = false := by
  rcases Bool.or_eq_true _ _ |>.mp h with h | h
  · exact Ranges.not_contains_of_disjoint (by decide) h
  · exact Ranges.not_contains_of_disjoint (by decide) h

end Reckoner.Unicode
