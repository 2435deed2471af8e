import Reckoner.Binary64.Trapping
import Reckoner.Proofs.Binary64.Value

/-!
# Signs and NaNs of quotient and power

For which operands a quotient or a power is NaN, and what its sign bit is otherwise. Rounding has no
part in either: a result keeps its sign where it vanishes and where it is too large, and no ratio and
no magnitude is rounded to NaN.

* `div_eq_nan_iff`, **`signBit_div`**: just one of the operands has its sign set.
* `pow_eq_nan_iff`, **`signBit_pow`**: the base has its sign set and the exponent is odd.
* `belowZero_fraction_iff`: the finite operands without a power, by their values.
-/

namespace Reckoner

namespace Binary64

variable {x y : Binary64} {s t : Bool} {a b : Magnitude}

@[simp] theorem signBit_infinity (s : Bool) : (infinity s).signBit = s := rfl

@[simp] theorem signBit_finite (s : Bool) (a : Magnitude) : (finite s a).signBit = s := rfl

@[simp] theorem signBit_one : one.signBit = false := rfl

theorem exists_of_isZero (h : x.isZero = true) : ∃ s, x = finite s .zero := by
  cases x with
  | nan => cases h
  | infinity s => cases h
  | finite s m => exact ⟨s, congrArg (finite s) (decide_eq_true_iff.mp h)⟩

/-- Among the finite numbers, below zero is what has its value below zero. -/
theorem belowZero_iff :
    (x.isFinite = true ∧ x.isBelowZero = true) ↔ ∃ p, x.value? = some p ∧ p < 0 := by
  cases x with
  | nan => simp [isFinite]
  | infinity s => simp [isFinite]
  | finite s a =>
    rw [value?_neg_iff]
    simp [isFinite, isBelowZero, isZero]

/-- Among the finite numbers, a fraction is what has no whole value. -/
theorem fraction_iff :
    (x.isFinite = true ∧ x.isWhole = false) ↔ ∃ q, x.value? = some q ∧ ¬∃ n : ℤ, q = n := by
  rw [Bool.eq_false_iff, Ne, isWhole_iff]
  cases x with
  | nan => simp [isFinite]
  | infinity s => simp [isFinite]
  | finite s a => simp only [value?_finite, Option.some_inj, exists_eq_left', isFinite, true_and]

theorem belowZero_fraction_iff :
    (x.isFinite = true ∧ x.isBelowZero = true ∧ y.isFinite = true ∧ y.isWhole = false) ↔
      ∃ p q, x.value? = some p ∧ p < 0 ∧ y.value? = some q ∧ ¬∃ n : ℤ, q = n := by
  rw [← and_assoc, belowZero_iff, fraction_iff]
  constructor
  · rintro ⟨⟨p, hp, hneg⟩, q, hq, hwhole⟩
    exact ⟨p, q, hp, hneg, hq, hwhole⟩
  · rintro ⟨p, q, hp, hneg, hq, hwhole⟩
    exact ⟨⟨p, hp, hneg⟩, q, hq, hwhole⟩

/-! ## Quotient -/

theorem div_zero (ha : a ≠ .zero) : finite s a / finite t .zero = infinity (s ^^ t) := by
  change div _ _ = _
  simp [div, ha]

theorem div_of_ne_zero (hb : b ≠ .zero) :
    finite s a / finite t b = ofRatio (s ^^ t) (a.units * unitsIn 0) b.units := if_neg hb

theorem div_eq_nan_iff :
    x / y = nan ↔ x = nan ∨ y = nan ∨ (x.isZero = true ∧ y.isZero = true) ∨
      ((∃ s, x = infinity s) ∧ ∃ t, y = infinity t) := by
  change div x y = nan ↔ _
  cases x <;> cases y <;> simp [div, isZero]
  case finite.finite s a t b =>
    by_cases hb : b = .zero
    · simp [hb]
    · simp [hb, ofRatio_ne_nan]

/-- **The sign of a quotient** is set if just one of the operands has its sign set. -/
theorem signBit_div (h : x / y ≠ nan) : (x / y).signBit = (x.signBit ^^ y.signBit) := by
  cases x with
  | nan => exact absurd rfl h
  | infinity s =>
    cases y with
    | nan => exact absurd rfl h
    | infinity t => exact absurd rfl h
    | finite t b => rfl
  | finite s a =>
    cases y with
    | nan => exact absurd rfl h
    | infinity t => rfl
    | finite t b =>
      by_cases hb : b = .zero
      · subst hb
        have ha : a ≠ .zero := by
          rintro rfl
          exact h rfl
        rw [div_zero ha]
        rfl
      · rw [div_of_ne_zero hb]
        exact signBit_ofRatio _ _ _

/-! ## Power -/

@[simp] theorem limit_ne_nan (s vanishing : Bool) : limit s vanishing ≠ nan := by
  cases vanishing <;> simp [limit]

@[simp] theorem signBit_limit (s vanishing : Bool) : (limit s vanishing).signBit = s := by
  cases vanishing <;> rfl

theorem pow_of_isZero (h : y.isZero = true) : pow x y = one := by
  simp [pow, h]

theorem pow_one_left (y : Binary64) : pow one y = one := by
  simp [pow]

theorem pow_eq_powNonzero (hy : y.isZero = false) (hx : x ≠ one) : pow x y = powNonzero x y := by
  simp [pow, hy, hx]

theorem isWhole_of_isZero (h : y.isZero = true) : y.isWhole = true :=
  isWhole_iff.mpr ⟨0, by simpa using isZero_iff.mp h⟩

theorem isOdd_of_isZero (h : y.isZero = true) : y.isOdd = false := by
  rw [Bool.eq_false_iff, Ne, isOdd_iff, isZero_iff.mp h]
  rintro ⟨n, hn, hzero⟩
  rw [Option.some_inj, eq_comm, Int.cast_eq_zero] at hzero
  simp [hzero] at hn

theorem one_ne_nan : one ≠ nan := nofun

theorem powNonzero_finite (ha : a ≠ .zero) :
    powNonzero (finite s a) (finite t b) =
      if s && !b.IsWhole then nan else ofMagnitude (s && b.IsOdd) (a.pow? t b) := by
  simp [powNonzero, ha]

theorem powNonzero_eq_nan_iff :
    powNonzero x y = nan ↔ x = nan ∨ y = nan ∨
      (x.isFinite = true ∧ x.isBelowZero = true ∧ y.isFinite = true ∧ y.isWhole = false) := by
  cases x with
  | nan => simp [powNonzero]
  | infinity s => cases y <;> simp [powNonzero, isFinite]
  | finite s a =>
    cases y with
    | nan => simp [powNonzero]
    | infinity t =>
      by_cases ha : a = .one <;> simp [powNonzero, ha, isFinite, one_ne_nan]
    | finite t b =>
      by_cases ha : a = .zero
      · simp [powNonzero, ha, isBelowZero, isZero]
      · rw [powNonzero_finite ha]
        cases s <;> by_cases hb : b.IsWhole <;>
          simp [isFinite, isBelowZero, isZero, isWhole, signBit, ha, hb]

/-- **Powers that are NaN.** -/
theorem pow_eq_nan_iff :
    pow x y = nan ↔ (x = nan ∧ y.isZero = false) ∨ (y = nan ∧ x ≠ one) ∨
      (x.isFinite = true ∧ x.isBelowZero = true ∧ y.isFinite = true ∧ y.isWhole = false) := by
  by_cases hy : y.isZero = true
  · have hne : y ≠ nan := by
      rintro rfl
      cases hy
    rw [pow_of_isZero hy]
    simp [hy, isWhole_of_isZero hy, hne, one_ne_nan]
  · rw [Bool.not_eq_true] at hy
    by_cases hx : x = one
    · subst hx
      rw [pow_one_left]
      simp [isBelowZero, signBit, one]
    · rw [pow_eq_powNonzero hy hx, powNonzero_eq_nan_iff]
      simp [hy, hx]

theorem signBit_powNonzero (h : powNonzero x y ≠ nan) :
    (powNonzero x y).signBit = (x.signBit && y.isOdd) := by
  cases x with
  | nan => simp [powNonzero] at h
  | infinity s =>
    cases y with
    | nan => simp [powNonzero] at h
    | infinity t => simp [powNonzero, isOdd]
    | finite t b => simp [powNonzero, isOdd]
  | finite s a =>
    cases y with
    | nan => simp [powNonzero] at h
    | infinity t => by_cases ha : a = .one <;> simp [powNonzero, ha, isOdd]
    | finite t b =>
      by_cases ha : a = .zero
      · simp [powNonzero, ha, isOdd]
      · rw [powNonzero_finite ha] at h ⊢
        by_cases hfraction : (s && !b.IsWhole) = true
        · rw [if_pos hfraction] at h
          exact absurd rfl h
        · rw [if_neg hfraction]
          exact signBit_ofMagnitude _ _

/-- **The sign of a power** is that of the base if the exponent is odd, and else it is not set. -/
theorem signBit_pow (h : pow x y ≠ nan) : (pow x y).signBit = (x.signBit && y.isOdd) := by
  by_cases hy : y.isZero = true
  · rw [pow_of_isZero hy, isOdd_of_isZero hy, Bool.and_false]
    rfl
  · rw [Bool.not_eq_true] at hy
    by_cases hx : x = one
    · subst hx
      rw [pow_one_left]
      rfl
    · rw [pow_eq_powNonzero hy hx] at h ⊢
      exact signBit_powNonzero h

end Binary64

end Reckoner
