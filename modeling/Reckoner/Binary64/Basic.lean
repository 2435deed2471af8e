import Reckoner.Binary64.Magnitude

/-!
# Binary64 numbers

A binary64 number is not a number at all, an infinity of either sign, or a magnitude with a sign.
Zeros have a sign too; `nan` has none, so equality here tells `0` from `-0` and takes all NaNs
as one.

`ofRatio negative num den` is the number nearest to a ratio of units; sums, products and quotients
are exact but for it. `ofRatio_ne_nan` and `signBit_ofRatio` say that rounding never makes a NaN and
never loses the sign.
-/

namespace Reckoner

/-- A binary64 number. -/
inductive Binary64 where
  | nan
  | infinity (negative : Bool)
  | finite (negative : Bool) (magnitude : Magnitude)
deriving DecidableEq

namespace Binary64

instance : Inhabited Binary64 := ⟨nan⟩

def zero : Binary64 := finite false .zero

def one : Binary64 := finite false .one

/-- The sign bit; a NaN shows none. -/
def signBit : Binary64 → Bool
  | nan => false
  | infinity negative => negative
  | finite negative _ => negative

def isNaN : Binary64 → Bool
  | nan => true
  | _ => false

def isFinite : Binary64 → Bool
  | finite _ _ => true
  | _ => false

/-- Zero of either sign. -/
def isZero : Binary64 → Bool
  | finite _ m => m = .zero
  | _ => false

/-- A finite whole number. -/
def isWhole : Binary64 → Bool
  | finite _ m => m.IsWhole
  | _ => false

/-- A finite odd whole number. -/
def isOdd : Binary64 → Bool
  | finite _ m => m.IsOdd
  | _ => false

/-- The signed count of units of `2 ^ -1074`, for a finite number. -/
def units? : Binary64 → Option Int
  | finite negative m => some (m.signed negative)
  | _ => none

/-! ## Rounding -/

/-- The magnitude with a sign, or the infinity of that sign if the magnitude is too large. -/
def ofMagnitude (negative : Bool) : Option Magnitude → Binary64
  | some m => finite negative m
  | none => infinity negative

/-- The binary64 number nearest to `num / den` units with the given sign. -/
def ofRatio (negative : Bool) (num den : Nat) : Binary64 :=
  ofMagnitude negative (Magnitude.nearest? num den)

@[simp] theorem ofMagnitude_ne_nan (negative : Bool) (m : Option Magnitude) :
    ofMagnitude negative m ≠ nan := by
  cases m <;> simp [ofMagnitude]

@[simp] theorem signBit_ofMagnitude (negative : Bool) (m : Option Magnitude) :
    (ofMagnitude negative m).signBit = negative := by
  cases m <;> rfl

theorem ofRatio_ne_nan (negative : Bool) (num den : Nat) : ofRatio negative num den ≠ nan :=
  ofMagnitude_ne_nan _ _

theorem signBit_ofRatio (negative : Bool) (num den : Nat) :
    (ofRatio negative num den).signBit = negative :=
  signBit_ofMagnitude _ _

/-! ## Signs -/

/-- The number with the opposite sign. -/
def neg : Binary64 → Binary64
  | nan => nan
  | infinity negative => infinity !negative
  | finite negative m => finite (!negative) m

instance : Neg Binary64 := ⟨neg⟩

end Binary64

end Reckoner
