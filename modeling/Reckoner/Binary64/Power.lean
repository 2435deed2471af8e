import Reckoner.Binary64.Basic
import Reckoner.Binary64.Logarithm

/-!
# Powers

`pow x y` answers for every pair of operands:

* anything to the power zero is one, and one to any power is one, NaN included;
* with any other NaN, and for a negative number to a finite power that is not whole, it is NaN;
* otherwise the result has a sign only for a negative base and an odd whole exponent, and its
  magnitude is that of `|x| ^ y`: zero and infinity where the limit is, the nearest binary64
  number elsewhere.

The magnitude comes from the exponential of `y * log |x|` with far more places than a binary64 has.
It is brought to 256 bits first. A power that is itself a number of few bits, or lies halfway
between two, is hit exactly by that step, so the final rounding sees the true value.

Correct rounding is the choice of this library. Elsewhere only the special cases, the signs and the
limits of a power are fixed and its last bit is up to the platform, whose mathematical library may
return a neighbour of the nearest number: `10 ^ 23` is `1e+23` here and can be
`1.0000000000000001e+23` there, and so with `9 ^ 17` and `717 ^ 0.25`.
-/

namespace Reckoner

namespace Magnitude

/-- The natural logarithm of a positive magnitude, as a signed fixed-point number. -/
def log (m : Magnitude) : Int :=
  let place := m.units.log2
  ((place : Int) - unitPlaces) * FixedPoint.logTwo + FixedPoint.log m.units (2 ^ place)

/-- The magnitude nearest to `2 ^ exponent * exp fraction`, `none` if it is too large. -/
def scaleExp? (exponent : Int) (fraction : Nat) : Option Magnitude :=
  if 1024 ≤ exponent then none
  else if exponent < -1080 then some zero
  else
    let significant := nearestEven (FixedPoint.exp fraction) (2 ^ (FixedPoint.places - 256))
    nearest? (significant * 2 ^ (exponent + 1080).toNat) (2 ^ (262 : Nat))

/-- The magnitude nearest to the positive magnitude `a` to the power `b`, or to the power `-b`;
`none` if it is too large. -/
def pow? (a : Magnitude) (negative : Bool) (b : Magnitude) : Option Magnitude :=
  let product := a.log * b.units / unitsIn 0
  let power := if negative then -product else product
  scaleExp? (power / FixedPoint.logTwo) (power % FixedPoint.logTwo).toNat

end Magnitude

namespace Binary64

/-- Zero or infinity, as a power with a very large exponent approaches them. -/
def limit (negative vanishing : Bool) : Binary64 :=
  if vanishing then finite negative .zero else infinity negative

/-- A base that is not NaN, to a power that is neither NaN nor zero. -/
def powNonzero : Binary64 → Binary64 → Binary64
  | nan, _ => nan
  | _, nan => nan
  | infinity _, infinity t => limit false t
  | finite _ a, infinity t =>
    if a = .one then one else limit false (if a.units < unitsIn 0 then !t else t)
  | infinity s, finite t b => limit (s && b.IsOdd) t
  | finite s a, finite t b =>
    if a = .zero then limit (s && b.IsOdd) !t
    else if s && !b.IsWhole then nan
    else ofMagnitude (s && b.IsOdd) (a.pow? t b)

/-- `x` to the power `y`. -/
def pow (x y : Binary64) : Binary64 :=
  if y.isZero || x = one then one else powNonzero x y

end Binary64

end Reckoner
