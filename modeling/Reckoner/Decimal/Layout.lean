import Reckoner.Decimal.Shortest

/-!
# Number texts

A number is written with its shortest digits. A `Layout` holds the decisions left: for which
leading exponents the digits stand in their places, what follows a whole number, and how many
digits an exponent has at least. `full` keeps `.0` after a whole number and `brief` drops it.
-/

namespace Reckoner

/-- How numbers are written. -/
structure Layout where
  /-- The least exponent of the leading digit that is written in places. -/
  lowest : Int
  /-- The first larger one that is not. -/
  limit : Int
  /-- What follows a whole number written in places. -/
  whole : String
  /-- The least count of digits of a written exponent. -/
  exponentDigits : Nat

namespace Layout

/-- Numbers from `0.0001` to below `10 ^ 16` are written in places, whole ones with `.0`. -/
def full : Layout := ⟨-4, 16, ".0", 2⟩

/-- Like `full`, but a whole number has no fraction. -/
def brief : Layout := { full with whole := "" }

end Layout

namespace Decimal

/-- The digits, the most significant first. -/
def digitChars (d : Decimal) : List Char := Nat.toDigits 10 d.digits

/-- The exponent of the leading digit. -/
def leadingExponent (d : Decimal) : Int := d.digitChars.length - 1 + d.exponent

/-- The digits in their places around the point. -/
def inPlaces (whole : String) (d : Decimal) : String :=
  let digits := d.digitChars
  let point := (digits.length : Int) + d.exponent
  if 0 ≤ d.exponent then
    String.ofList (digits ++ List.replicate d.exponent.toNat '0') ++ whole
  else if 0 < point then
    String.ofList (digits.take point.toNat ++ '.' :: digits.drop point.toNat)
  else String.ofList ('0' :: '.' :: (List.replicate (-point).toNat '0' ++ digits))

/-- An exponent with its sign and at least `least` digits. -/
def exponentText (least : Nat) (exponent : Int) : String :=
  let digits := Nat.toDigits 10 exponent.natAbs
  String.ofList ((if exponent < 0 then '-' else '+') ::
    (List.replicate (least - digits.length) '0' ++ digits))

/-- One digit, the rest as a fraction, and the exponent of the leading digit. -/
def withExponent (least : Nat) (d : Decimal) : String :=
  let mantissa :=
    match d.digitChars with
    | first :: rest@(_ :: _) => first :: '.' :: rest
    | digits => digits
  String.ofList mantissa ++ "e" ++ exponentText least d.leadingExponent

/-- The decimal number, in places or with an exponent. -/
def render (l : Layout) (d : Decimal) : String :=
  if l.lowest ≤ d.leadingExponent ∧ d.leadingExponent < l.limit then d.inPlaces l.whole
  else d.withExponent l.exponentDigits

end Decimal

/-- The text of a number. -/
def Binary64.render (l : Layout) : Binary64 → String
  | .nan => "nan"
  | .infinity negative => (if negative then "-" else "") ++ "inf"
  | .finite negative m => (if negative then "-" else "") ++ m.shortest.render l

end Reckoner
