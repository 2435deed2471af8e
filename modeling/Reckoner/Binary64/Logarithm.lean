import Reckoner.Binary64.Magnitude

/-!
# Logarithm and exponential with 512 places

Fixed-point numbers count units of `2 ^ -places`. Both functions are sums of their power series in
nested form, innermost term first:

* `log` sums `2 (u + u³ / 3 + u⁵ / 5 + …)` with `u = (x - 1) / (x + 1)`, at most a third for `x` in
  `[1, 2]`, so that each term has over three bits less than the one before;
* `exp` sums `1 + z + z² / 2! + …` for `z` below the logarithm of two.

The last few of the 512 places are lost to truncation. That leaves far more than the 53 bits and
the range of exponents of a binary64 power need.
-/

namespace Reckoner

namespace FixedPoint

/-- The number of binary places. -/
def places : Nat := 512

/-- The fixed-point number one. -/
def one : Nat := 2 ^ places

/-- The product of two fixed-point numbers, cut off. -/
def mul (a b : Nat) : Nat := a * b / one

/-- The natural logarithm of `num / den`, for a ratio in `[1, 2]`. -/
def log (num den : Nat) : Nat :=
  let u := (num - den) * one / (num + den)
  let square := mul u u
  2 * mul u ((List.range 170).foldr (fun k tail => one / (2 * k + 1) + mul square tail) 0)

/-- The natural logarithm of two. -/
def logTwo : Nat := log 2 1

/-- The exponential of a fixed-point number in `[0, 1]`. -/
def exp (z : Nat) : Nat :=
  (List.range 128).foldr (fun k tail => one + mul z tail / (k + 1)) one

end FixedPoint

end Reckoner
