import Reckoner.Binary64.Basic

/-!
# Sum, difference, product, quotient and remainder

Each operation answers for all operands. On finite operands it is the exact result in units of
`2 ^ -1074`, rounded once; `rem` is exact, so nothing is rounded.

* A quotient by zero is the infinity of the quotient's sign, and NaN for `0 / 0`.
* **`rem`** keeps the sign of the dividend, also in a zero remainder, and ignores that of the
  divisor. It is NaN for a zero divisor and for an infinite dividend.
-/

namespace Reckoner

namespace Binary64

/-! ## Sum and difference -/

/-- The sum of two finite numbers; an exact zero is positive unless both operands are negative. -/
def addFinite (s : Bool) (a : Magnitude) (t : Bool) (b : Magnitude) : Binary64 :=
  let sum := a.signed s + b.signed t
  if sum = 0 then finite (s && t) .zero else ofRatio (sum < 0) sum.natAbs 1

/-- Infinities of one sign add up to that infinity, those of opposite signs to NaN. -/
def add : Binary64 → Binary64 → Binary64
  | nan, _ => nan
  | _, nan => nan
  | infinity s, infinity t => if s = t then infinity s else nan
  | infinity s, finite _ _ => infinity s
  | finite _ _, infinity t => infinity t
  | finite s a, finite t b => addFinite s a t b

instance : Add Binary64 := ⟨add⟩

/-- The difference is the sum with the opposite number. -/
def sub (x y : Binary64) : Binary64 := x + -y

instance : Sub Binary64 := ⟨sub⟩

/-! ## Product and quotient -/

/-- An infinity times zero is NaN. -/
def mul : Binary64 → Binary64 → Binary64
  | nan, _ => nan
  | _, nan => nan
  | infinity s, infinity t => infinity (s ^^ t)
  | infinity s, finite t b => if b = .zero then nan else infinity (s ^^ t)
  | finite s a, infinity t => if a = .zero then nan else infinity (s ^^ t)
  | finite s a, finite t b => ofRatio (s ^^ t) (a.units * b.units) (unitsIn 0)

instance : Mul Binary64 := ⟨mul⟩

/-- An infinity over an infinity and zero over zero are NaN; anything else over zero is infinite. -/
def div : Binary64 → Binary64 → Binary64
  | nan, _ => nan
  | _, nan => nan
  | infinity _, infinity _ => nan
  | infinity s, finite t _ => infinity (s ^^ t)
  | finite s _, infinity t => finite (s ^^ t) .zero
  | finite s a, finite t b =>
    if b = .zero then (if a = .zero then nan else infinity (s ^^ t))
    else ofRatio (s ^^ t) (a.units * unitsIn 0) b.units

instance : Div Binary64 := ⟨div⟩

/-! ## Remainder -/

/-- The remainder of the truncated quotient, without rounding. -/
def rem : Binary64 → Binary64 → Binary64
  | nan, _ => nan
  | _, nan => nan
  | infinity _, _ => nan
  | finite s a, infinity _ => finite s a
  | finite s a, finite _ b => if b = .zero then nan else finite s (a.rem b)

instance : Mod Binary64 := ⟨rem⟩

end Binary64

end Reckoner
