import Reckoner.Unicode.Ranges

/-!
# White space

`isSpace` holds of the white space of Unicode and of the four separators U+001C to U+001F.
-/

namespace Reckoner.Unicode

/-- The white space characters. -/
def spaces : Ranges := [
  (0x0009, 0x000D), (0x001C, 0x0020), (0x0085, 0x0085), (0x00A0, 0x00A0), (0x1680, 0x1680),
  (0x2000, 0x200A), (0x2028, 0x2029), (0x202F, 0x202F), (0x205F, 0x205F), (0x3000, 0x3000)]

/-- White space. -/
def isSpace (c : Char) : Bool := spaces.contains c

theorem isSpace_blank : isSpace ' ' = true := by decide

end Reckoner.Unicode
