import Reckoner.Binary64.Arithmetic
import Reckoner.Binary64.Power

/-!
# Arithmetic that traps

A platform may trap where an operation has no number to give: in a quotient by zero, in a remainder
of an infinity or by zero, and in a power of finite numbers that is infinite or no number at all.
`quotient?`, `remainder?` and `power?` are the operations of such a platform.

`guardedDiv`, `guardedRem` and `guardedPow` answer for all operands with nothing else than these
operations: a look at the operands keeps from a trap, or the trap is answered with the infinity or
the NaN that belongs there. They are a second account of `div`, `rem` and `pow`, which the
calculator uses, by the way in which their results come about.
-/

namespace Reckoner

/-- Why an operation was stopped. -/
inductive Trap where
  | zeroDivisor
  | domain
  | overflow
deriving DecidableEq

def Magnitude.two : Magnitude := ⟨unitsIn 1, representable_unitsIn (by decide)⟩

namespace Binary64

def two : Binary64 := finite false .two

/-- The number is below zero; negative zero is not. -/
def isBelowZero (x : Binary64) : Bool := x.signBit && !x.isZero

/-! ## Quotient and remainder -/

/-- The quotient, which traps for a zero divisor. -/
def quotient? (x y : Binary64) : Except Trap Binary64 :=
  if y.isZero then .error .zeroDivisor else .ok (x / y)

/-- The remainder, which traps for an infinite dividend and for a zero divisor. -/
def remainder? (x y : Binary64) : Except Trap Binary64 :=
  if !x.isFinite && !x.isNaN || y.isZero then .error .domain else .ok (x % y)

/-- A zero divisor is looked for first; the infinity of the dividend's sign is then multiplied with
the one of the divisor's sign. -/
def guardedDiv (x y : Binary64) : Except Trap Binary64 :=
  if y.isZero then
    if x.isZero || x.isNaN then .ok nan else .ok (infinity x.signBit * finite y.signBit .one)
  else quotient? x y

/-- Operands without a remainder are looked for first. -/
def guardedRem (x y : Binary64) : Except Trap Binary64 :=
  if y.isZero || !x.isFinite || y.isNaN then .ok nan else remainder? x y

/-! ## Power -/

/-- The power, which traps for finite operands if it is not finite: as an overflow if it is too
large, and outside its domain at a pole and for a negative base with a fractional exponent. -/
def power? (x y : Binary64) : Except Trap Binary64 :=
  let z := pow x y
  if x.isFinite && y.isFinite && !z.isFinite then
    .error (if z.isNaN || x.isZero then .domain else .overflow)
  else .ok z

/-- The remainder with the sign of the divisor. -/
def flooredRem (x y : Binary64) : Binary64 :=
  let r := x % y
  if r.isZero then finite y.signBit .zero
  else if r.signBit = y.signBit then r else r + y

/-- A whole number that leaves one when divided by two, rounding down. -/
def leavesOne (x : Binary64) : Bool := x.isWhole && flooredRem x two = one

/-- Where the power traps, the sign is found anew. -/
def guardedPow (x y : Binary64) : Except Trap Binary64 :=
  match power? x y with
  | .error .overflow => .ok (infinity (x.isBelowZero && y.leavesOne))
  | .error .domain => .ok (if x.isZero then infinity (y.leavesOne && x.signBit) else nan)
  | answer => answer

end Binary64

end Reckoner
