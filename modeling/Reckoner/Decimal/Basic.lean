import Reckoner.Binary64.Basic

/-!
# Decimal numbers and their nearest binary64 numbers

A decimal number is a natural number times a power of ten. `toMagnitude?` rounds it once to the
nearest magnitude. Exponents far beyond the range of binary64 are answered from the size of the
number alone, so the power of ten is never larger than the digits call for.
-/

namespace Reckoner

/-- The number `digits * 10 ^ exponent`. -/
structure Decimal where
  digits : Nat
  exponent : Int
deriving DecidableEq

namespace Decimal

/-- The magnitude nearest to the number, `none` if it is too large. From `10 ^ 310` on a number is
too large, and below `10 ^ -326` it is nearest to zero. -/
def toMagnitude? (d : Decimal) : Option Magnitude :=
  if d.digits = 0 then some .zero
  else
    match d.exponent with
    | .ofNat e =>
      if 310 ≤ e then none else Magnitude.nearest? (d.digits * 10 ^ e * unitsIn 0) 1
    | .negSucc e =>
      if d.digits.log2 + 327 ≤ e then some .zero
      else Magnitude.nearest? (d.digits * unitsIn 0) (10 ^ (e + 1))

/-- An exponent that is not far too small for the digits. -/
theorem toMagnitude?_negSucc {n e : Nat} (hn : n ≠ 0) (he : e < n.log2 + 327) :
    toMagnitude? ⟨n, .negSucc e⟩ = Magnitude.nearest? (n * unitsIn 0) (10 ^ (e + 1)) := by
  simp [toMagnitude?, hn, Nat.not_le.mpr he]

/-- The number with a sign, as a binary64 number. -/
def toBinary64 (negative : Bool) (d : Decimal) : Binary64 :=
  .ofMagnitude negative d.toMagnitude?

theorem toBinary64_ne_nan (negative : Bool) (d : Decimal) : d.toBinary64 negative ≠ .nan :=
  Binary64.ofMagnitude_ne_nan _ _

end Decimal

end Reckoner
