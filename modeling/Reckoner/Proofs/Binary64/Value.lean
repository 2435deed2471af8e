import Mathlib.Algebra.Ring.Int.Parity
import Mathlib.Data.Rat.Floor
import Mathlib.Tactic.Positivity
import Mathlib.Tactic.Ring
import Reckoner.Binary64.Basic

/-!
# The rational value of a finite number

A finite number is a signed count of units of `2 ^ -1074`, and `value?` is that count as a rational
number. Being zero, one, below zero, whole or odd is a matter of the value:

* `isZero_iff`, `eq_one_iff`, `value?_neg_iff`, `isWhole_iff`, **`isOdd_iff`**.
* **`truncated_intCast_div`**: a ratio of whole numbers is rounded towards zero by the quotient that
  is cut off.
-/

namespace Reckoner

/-! ## Rounding towards zero -/

/-- The whole number next to a rational number on the side of zero. -/
def truncated (q : ℚ) : ℤ := if 0 ≤ q then ⌊q⌋ else ⌈q⌉

theorem truncated_neg (q : ℚ) : truncated (-q) = -truncated q := by
  unfold truncated
  rcases lt_trichotomy q 0 with h | rfl | h
  · rw [if_pos (neg_nonneg.mpr h.le), if_neg (not_le.mpr h), Int.floor_neg]
  · simp
  · rw [if_neg (by simpa using h), if_pos h.le, Int.ceil_neg]

theorem truncated_natCast_div (m n : ℕ) : truncated (m / n) = (m / n : ℕ) := by
  rw [truncated, if_pos (by positivity), Rat.floor_natCast_div_natCast]
  rfl

/-- **A ratio of whole numbers**, rounded towards zero. -/
theorem truncated_intCast_div (m n : ℤ) : truncated (m / n) = m.tdiv n := by
  obtain ⟨a, rfl | rfl⟩ := m.eq_nat_or_neg <;> obtain ⟨b, rfl | rfl⟩ := n.eq_nat_or_neg <;>
    simp [neg_div, div_neg, truncated_neg, truncated_natCast_div]

/-! ## Signed counts of units -/

theorem unitsIn_succ (k : Nat) : unitsIn (k + 1) = 2 * unitsIn k := by
  unfold unitsIn
  rw [Nat.add_right_comm, Nat.pow_succ, Nat.mul_comm]

namespace Magnitude

variable {m : Magnitude} {s : Bool}

@[simp] theorem natAbs_signed (s : Bool) (m : Magnitude) : (m.signed s).natAbs = m.units := by
  cases s <;> simp [signed]

theorem eq_zero_iff : m = .zero ↔ m.units = 0 :=
  ⟨fun h => by rw [h]; rfl, fun h => ext h⟩

theorem one_ne_zero : one ≠ .zero := by
  rw [Ne, eq_zero_iff]
  unfold one
  exact Nat.ne_of_gt (unitsIn_pos 0)

theorem signed_eq_zero_iff : m.signed s = 0 ↔ m = .zero := by
  rw [← Int.natAbs_eq_zero, natAbs_signed, eq_zero_iff]

theorem signed_neg_iff : m.signed s < 0 ↔ s = true ∧ m ≠ .zero := by
  rw [Ne, eq_zero_iff, signed]
  cases s with
  | false => simp
  | true => simp [Nat.pos_iff_ne_zero]

/-- Whole is what is a whole multiple of the units in one. -/
theorem isWhole_iff (s : Bool) : m.IsWhole ↔ ∃ n : ℤ, m.signed s = n * unitsIn 0 := by
  rw [← dvd_iff_exists_eq_mul_left, Int.natCast_dvd, natAbs_signed]
  exact Nat.dvd_iff_mod_eq_zero.symm

/-- Odd is what is an odd multiple of the units in one. -/
theorem isOdd_iff_units : m.IsOdd ↔ ∃ k, Odd k ∧ m.units = k * unitsIn 0 := by
  have hunits : unitsIn 1 = 2 * unitsIn 0 := unitsIn_succ 0
  constructor
  · intro h
    refine ⟨2 * (m.units / unitsIn 1) + 1, odd_two_mul_add_one _, ?_⟩
    calc m.units = unitsIn 1 * (m.units / unitsIn 1) + m.units % unitsIn 1 :=
          (Nat.div_add_mod _ _).symm
      _ = 2 * unitsIn 0 * (m.units / unitsIn 1) + unitsIn 0 := by rw [h, hunits]
      _ = (2 * (m.units / unitsIn 1) + 1) * unitsIn 0 := by ring
  · rintro ⟨_, ⟨k, rfl⟩, hk⟩
    have hcount : m.units = unitsIn 0 + 2 * unitsIn 0 * k := by
      rw [hk]
      ring
    have hlt : unitsIn 0 < 2 * unitsIn 0 := by
      have := unitsIn_pos 0
      omega
    rw [IsOdd, hcount, hunits, Nat.add_mul_mod_self_left, Nat.mod_eq_of_lt hlt]

theorem isOdd_iff (s : Bool) : m.IsOdd ↔ ∃ n : ℤ, Odd n ∧ m.signed s = n * unitsIn 0 := by
  rw [isOdd_iff_units]
  constructor
  · rintro ⟨k, hk, hunits⟩
    have hodd : Odd (k : ℤ) := hk.natCast
    cases s with
    | false =>
      refine ⟨k, hodd, ?_⟩
      rw [signed, if_neg Bool.false_ne_true, hunits, Nat.cast_mul]
    | true =>
      refine ⟨-k, hodd.neg, ?_⟩
      rw [signed, if_pos rfl, hunits, Nat.cast_mul, neg_mul]
  · rintro ⟨n, hn, hsigned⟩
    refine ⟨n.natAbs, Int.natAbs_odd.mpr hn, ?_⟩
    rw [← natAbs_signed s, hsigned, Int.natAbs_mul, Int.natAbs_natCast]

end Magnitude

namespace Binary64

variable {x : Binary64} {s : Bool} {m : Magnitude}

/-! ## Values -/

/-- The value of a finite number. -/
def value? (x : Binary64) : Option ℚ := x.units?.map fun n => n / unitsIn 0

@[simp] theorem value?_nan : nan.value? = none := rfl

@[simp] theorem value?_infinity (s : Bool) : (infinity s).value? = none := rfl

@[simp] theorem value?_finite (s : Bool) (m : Magnitude) :
    (finite s m).value? = some ((m.signed s : ℚ) / unitsIn 0) := rfl

theorem unitsIn_zero_pos : (0 : ℚ) < unitsIn 0 := Nat.cast_pos.mpr (unitsIn_pos 0)

theorem value?_eq_some_iff {q : ℚ} :
    x.value? = some q ↔ ∃ s m, x = finite s m ∧ (m.signed s : ℚ) / unitsIn 0 = q := by
  constructor
  · intro h
    cases x with
    | nan => cases h
    | infinity s => cases h
    | finite s m => exact ⟨s, m, rfl, Option.some.inj h⟩
  · rintro ⟨s, m, rfl, rfl⟩
    rfl

/-- A whole value is that count of the units in one. -/
theorem value?_eq_intCast_iff {n : ℤ} :
    (finite s m).value? = some (n : ℚ) ↔ m.signed s = n * unitsIn 0 := by
  rw [value?_finite, Option.some_inj, div_eq_iff unitsIn_zero_pos.ne']
  norm_cast

/-- Zero of either sign has the value zero. -/
theorem isZero_iff : x.isZero = true ↔ x.value? = some 0 := by
  cases x with
  | nan => simp [isZero]
  | infinity s => simp [isZero]
  | finite s m =>
    have hvalue : (finite s m).value? = some 0 ↔ m.signed s = 0 := by
      rw [← Int.cast_zero (R := ℚ), value?_eq_intCast_iff, zero_mul]
    rw [hvalue, Magnitude.signed_eq_zero_iff, isZero, decide_eq_true_iff]

theorem eq_one_iff : x = one ↔ x.value? = some 1 := by
  cases x with
  | nan => simp [one]
  | infinity s => simp [one]
  | finite s m =>
    have hvalue : (finite s m).value? = some 1 ↔ m.signed s = unitsIn 0 := by
      rw [← Int.cast_one (R := ℚ), value?_eq_intCast_iff, one_mul]
    rw [hvalue]
    constructor
    · rintro ⟨rfl, rfl⟩
      rfl
    · intro h
      cases s with
      | false => exact congrArg (finite false) (Magnitude.ext (Int.ofNat_inj.mp h))
      | true =>
        have hpos := unitsIn_pos 0
        rw [Magnitude.signed, if_pos rfl] at h
        omega

/-- Below zero is what has its sign bit set, zero apart. -/
theorem value?_neg_iff :
    (∃ q, (finite s m).value? = some q ∧ q < 0) ↔ s = true ∧ m ≠ .zero := by
  rw [← Magnitude.signed_neg_iff]
  simp only [value?_finite, Option.some_inj, exists_eq_left', div_lt_iff₀ unitsIn_zero_pos, zero_mul,
    Int.cast_lt_zero]

theorem isWhole_iff : x.isWhole = true ↔ ∃ n : ℤ, x.value? = some (n : ℚ) := by
  cases x with
  | nan => simp [isWhole]
  | infinity s => simp [isWhole]
  | finite s m =>
    simp only [isWhole, decide_eq_true_iff, value?_eq_intCast_iff, Magnitude.isWhole_iff s]

/-- **Odd numbers** are those with an odd value. -/
theorem isOdd_iff : x.isOdd = true ↔ ∃ n : ℤ, Odd n ∧ x.value? = some (n : ℚ) := by
  cases x with
  | nan => simp [isOdd]
  | infinity s => simp [isOdd]
  | finite s m =>
    simp only [isOdd, decide_eq_true_iff, value?_eq_intCast_iff, Magnitude.isOdd_iff s]

end Binary64

end Reckoner
