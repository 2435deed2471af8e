/-!
# Magnitudes: what a finite binary64 number is without its sign

Every finite binary64 number is a natural number of **units** of `2 ^ -1074`. `Representable n`
says which counts occur: below those in `2 ^ 1024`, and with nothing below the leading 53 bits. A
`Magnitude` is such a count, so equality of magnitudes is equality of counts.

* `nearest? num den` rounds the ratio `num / den`, counted in units, to the nearest magnitude,
  a tie going to the even significand; it is `none` when the rounded count is too large.
* **`nearest?_units`**: a representable count is its own rounding, so exact results stay exact.
* `nearest?_mul_mul`: rounding depends on the value of the ratio alone.
* `rem a b` is the remainder of the counts; `representable_mod` says that it is always a magnitude.
-/

namespace Reckoner

-- Powers of counts are those of the core library, whatever algebra is imported beside them.
attribute [scoped instance (high)] instPowNat

/-! ## The nearest whole number -/

/-- The whole number nearest to `num / den`, the even one of two equally near. -/
def nearestEven (num den : Nat) : Nat :=
  let q := num / den
  let r := num % den
  if 2 * r < den then q else if den < 2 * r then q + 1 else q + q % 2

theorem nearestEven_le (num den : Nat) : nearestEven num den ≤ num / den + 1 := by
  simp only [nearestEven]
  split
  · omega
  · split <;> omega

theorem nearestEven_mul (n : Nat) {den : Nat} (h : 0 < den) : nearestEven (n * den) den = n := by
  simp [nearestEven, Nat.mul_div_cancel n h, Nat.mul_mod_left, h]

theorem nearestEven_mul_mul (num den : Nat) {k : Nat} (hk : 0 < k) :
    nearestEven (num * k) (den * k) = nearestEven num den := by
  have h1 : 2 * (num % den * k) = 2 * (num % den) * k := (Nat.mul_assoc _ _ _).symm
  simp only [nearestEven, Nat.mul_div_mul_right _ _ hk, Nat.mul_mod_mul_right, h1,
    Nat.mul_lt_mul_right hk]

/-! ## Representable counts -/

/-- The number of binary places that a unit takes, and of decimal places as well. -/
def unitPlaces : Nat := 1074

/-- The count of units of `2 ^ -1074` in `2 ^ k`. -/
def unitsIn (k : Nat) : Nat := 2 ^ (k + unitPlaces)

theorem unitsIn_pos (k : Nat) : 0 < unitsIn k := Nat.two_pow_pos _

theorem unitsIn_lt {j k : Nat} (h : j < k) : unitsIn j < unitsIn k :=
  Nat.pow_lt_pow_right (by decide) (Nat.add_lt_add_right h _)

theorem unitsIn_dvd {j k : Nat} (h : j ≤ k) : unitsIn j ∣ unitsIn k :=
  Nat.pow_dvd_pow 2 (Nat.add_le_add_right h _)

/-- `n` units of `2 ^ -1074` are a finite binary64 number: not too large, and a multiple of the
unit in the last of 53 places. -/
def Representable (n : Nat) : Prop := n < unitsIn 1024 ∧ 2 ^ (n.log2 - 52) ∣ n

instance (n : Nat) : Decidable (Representable n) := inferInstanceAs (Decidable (_ ∧ _))

theorem Representable.zero : Representable 0 :=
  ⟨unitsIn_pos _, Nat.dvd_zero _⟩

/-- A whole number of at most 53 bits, moved up by `s` places, has nothing below its leading
53 bits. -/
theorem representable_mul_pow {m s : Nat} (hm : m ≤ 2 ^ (53 : Nat))
    (hlt : m * 2 ^ s < unitsIn 1024) : Representable (m * 2 ^ s) := by
  refine ⟨hlt, ?_⟩
  rcases Nat.lt_or_eq_of_le hm with hm | rfl
  · by_cases h0 : m * 2 ^ s = 0
    · rw [h0]
      exact Nat.dvd_zero _
    · have h1 : m * 2 ^ s < 2 ^ (53 + s) := by
        rw [Nat.pow_add]
        exact Nat.mul_lt_mul_of_pos_right hm (Nat.two_pow_pos s)
      have h2 := (Nat.log2_lt h0).mpr h1
      exact Nat.dvd_trans (Nat.pow_dvd_pow 2 (by omega)) (Nat.dvd_mul_left _ _)
  · rw [← Nat.pow_add, Nat.log2_two_pow]
    exact Nat.pow_dvd_pow 2 (by omega)

theorem representable_unitsIn {k : Nat} (h : k < 1024) : Representable (unitsIn k) := by
  have := representable_mul_pow (m := 1) (s := k + unitPlaces) Nat.one_le_two_pow
    (by rw [Nat.one_mul]; exact unitsIn_lt h)
  rwa [Nat.one_mul] at this

/-- The remainder of one representable count by another is representable. -/
theorem representable_mod {a b : Nat} (ha : Representable a) (hb : Representable b) :
    Representable (a % b) := by
  refine ⟨Nat.lt_of_le_of_lt (Nat.mod_le a b) ha.1, ?_⟩
  by_cases h0 : a % b = 0
  · rw [h0]
    exact Nat.dvd_zero _
  by_cases hb0 : b = 0
  · subst hb0
    rw [Nat.mod_zero]
    exact ha.2
  have log_le {x : Nat} (hx : a % b ≤ x) (h : x ≠ 0) : (a % b).log2 ≤ x.log2 :=
    (Nat.le_log2 h).mpr (Nat.le_trans (Nat.log2_self_le h0) hx)
  have hla := log_le (Nat.mod_le a b) (fun h => h0 (by rw [h, Nat.zero_mod]))
  have hlb := log_le (Nat.le_of_lt (Nat.mod_lt a (Nat.pos_of_ne_zero hb0))) hb0
  refine (Nat.dvd_mod_iff (Nat.dvd_trans (Nat.pow_dvd_pow 2 ?_) hb.2)).mpr
    (Nat.dvd_trans (Nat.pow_dvd_pow 2 ?_) ha.2) <;> omega

/-! ## Magnitudes -/

/-- The magnitude of a finite binary64 number, counted in units of `2 ^ -1074`. -/
structure Magnitude where
  units : Nat
  representable : Representable units
deriving DecidableEq

namespace Magnitude

theorem ext {a b : Magnitude} (h : a.units = b.units) : a = b := by
  cases a
  cases b
  cases h
  rfl

instance : Inhabited Magnitude := ⟨⟨0, .zero⟩⟩

def zero : Magnitude := ⟨0, .zero⟩

def one : Magnitude := ⟨unitsIn 0, representable_unitsIn (by decide)⟩

/-- The count of units with a sign. -/
def signed (negative : Bool) (m : Magnitude) : Int := if negative then -m.units else m.units

/-- The place of the last of 53 bits of the ratio `num / den`. -/
def lastPlace (num den : Nat) : Nat := (num / den).log2 - 52

/-- The significand to which `num / den` rounds at its last place. -/
def significand (num den : Nat) : Nat := nearestEven num (den * 2 ^ lastPlace num den)

theorem significand_le (num den : Nat) : significand num den ≤ 2 ^ (53 : Nat) := by
  refine Nat.le_trans (nearestEven_le _ _) ?_
  rw [← Nat.div_div_eq_div_mul]
  refine Nat.succ_le_of_lt ((Nat.div_lt_iff_lt_mul (Nat.two_pow_pos _)).mpr ?_)
  rw [← Nat.pow_add]
  refine Nat.lt_of_lt_of_le Nat.lt_log2_self (Nat.pow_le_pow_right (by decide) ?_)
  simp only [lastPlace]
  omega

/-- The magnitude nearest to `num / den` units, `none` if it is too large. -/
def nearest? (num den : Nat) : Option Magnitude :=
  let units := significand num den * 2 ^ lastPlace num den
  if h : units < unitsIn 1024 then some ⟨units, representable_mul_pow (significand_le num den) h⟩
  else none

/-- **A representable count is its own rounding.** -/
theorem nearest?_units (m : Magnitude) : nearest? m.units 1 = some m := by
  obtain ⟨k, hk⟩ := m.representable.2
  have hs : significand m.units 1 * 2 ^ lastPlace m.units 1 = m.units := by
    have hp : lastPlace m.units 1 = m.units.log2 - 52 := by simp [lastPlace]
    have hn : nearestEven m.units (2 ^ (m.units.log2 - 52)) = k := by
      have := nearestEven_mul k (Nat.two_pow_pos (m.units.log2 - 52))
      rwa [Nat.mul_comm, ← hk] at this
    rw [significand, hp, Nat.one_mul, hn, Nat.mul_comm, ← hk]
  simp only [nearest?, hs, dif_pos m.representable.1]

/-- Rounding depends on the value of the ratio alone. -/
theorem nearest?_mul_mul (num den : Nat) {k : Nat} (hk : 0 < k) :
    nearest? (num * k) (den * k) = nearest? num den := by
  have hp : lastPlace (num * k) (den * k) = lastPlace num den := by
    simp only [lastPlace, Nat.mul_div_mul_right _ _ hk]
  have hs : significand (num * k) (den * k) = significand num den := by
    rw [significand, significand, hp, Nat.mul_right_comm, nearestEven_mul_mul _ _ hk]
  simp only [nearest?, hp, hs]

/-- The remainder of the counts; that of a division by zero is the dividend. -/
def rem (a b : Magnitude) : Magnitude :=
  ⟨a.units % b.units, representable_mod a.representable b.representable⟩

/-- The magnitude is a whole number. -/
def IsWhole (m : Magnitude) : Prop := m.units % unitsIn 0 = 0

instance (m : Magnitude) : Decidable m.IsWhole := inferInstanceAs (Decidable (_ = _))

/-- The magnitude is an odd whole number. -/
def IsOdd (m : Magnitude) : Prop := m.units % unitsIn 1 = unitsIn 0

instance (m : Magnitude) : Decidable m.IsOdd := inferInstanceAs (Decidable (_ = _))

theorem IsOdd.isWhole {m : Magnitude} (h : m.IsOdd) : m.IsWhole := by
  rw [IsWhole, ← Nat.mod_mod_of_dvd m.units (unitsIn_dvd (Nat.zero_le 1)), h, Nat.mod_self]

end Magnitude

end Reckoner
