import Reckoner.Expr.Eval
import Reckoner.Proofs.Binary64.Remainder
import Reckoner.Proofs.Binary64.Signs

/-!
# Quotient and power without a trap

On a platform that traps, a quotient by zero and a power that is not finite come about by a way of
their own: the sign is found from the operands, and the infinity or the NaN is put together by hand.
What comes about is what the operations give without a trap.

* `leavesOne_eq_isOdd`: a number that leaves one when divided by two, rounding down, is odd, however
  large it is and also below zero, where the truncated remainder is `-1`.
* `guardedDiv_eq`, `guardedPow_eq`: the guard and the handlers miss no trap and no sign.
* **`signs_of_div_and_pow`**: the NaNs and the sign bits of both operators, for all operands.
-/

namespace Reckoner

variable {s t : Bool} {a b : Magnitude} {x y : Binary64}

/-! ## The rest by two -/

namespace Magnitude

theorem units_two : two.units = unitsIn 1 := by
  unfold two
  rfl

theorem units_rem (a b : Magnitude) : (a.rem b).units = a.units % b.units := rfl

theorem two_ne_zero : two ≠ .zero := by
  rw [Ne, eq_zero_iff, units_two]
  exact Nat.ne_of_gt (unitsIn_pos 1)

theorem rem_two_of_isOdd (h : a.IsOdd) : a.rem .two = .one := by
  refine ext ?_
  rw [units_rem, units_two]
  exact h

theorem rem_two_of_isWhole (h : a.IsWhole) (hodd : ¬a.IsOdd) : a.rem .two = .zero := by
  obtain ⟨k, hk⟩ := Nat.dvd_of_mod_eq_zero h
  have hmod : a.units % unitsIn 1 = unitsIn 0 * (k % 2) := by
    rw [hk, unitsIn_succ, Nat.mul_comm 2, Nat.mul_mod_mul_left]
  rw [eq_zero_iff, units_rem, units_two, hmod]
  rcases Nat.mod_two_eq_zero_or_one k with hk | hk
  · rw [hk, Nat.mul_zero]
  · rw [hk, Nat.mul_one] at hmod
    exact absurd hmod hodd

end Magnitude

namespace Binary64

theorem rem_two (s : Bool) (a : Magnitude) : finite s a % two = finite s (a.rem .two) :=
  rem_of_ne_zero Magnitude.two_ne_zero

theorem neg_one_add_two : finite true .one + two = one := by decide +kernel

@[simp] theorem signBit_two : two.signBit = false := rfl

/-- Rounding down, an odd number leaves one: where `-1` is left, two is added. -/
theorem flooredRem_two_of_isOdd (h : a.IsOdd) : flooredRem (finite s a) two = one := by
  have hone : (finite s .one).isZero = false := by simp [isZero, Magnitude.one_ne_zero]
  unfold flooredRem
  rw [rem_two, Magnitude.rem_two_of_isOdd h]
  cases s with
  | false =>
    simp only [hone, signBit_finite, signBit_two, Bool.false_eq_true, if_false, if_true]
    rfl
  | true => simp [hone, neg_one_add_two]

theorem flooredRem_two_of_isWhole (h : a.IsWhole) (hodd : ¬a.IsOdd) :
    flooredRem (finite s a) two = finite false .zero := by
  unfold flooredRem
  rw [rem_two, Magnitude.rem_two_of_isWhole h hodd]
  simp [isZero]

/-- **The odd numbers** are those that leave one. -/
theorem leavesOne_eq_isOdd (x : Binary64) : x.leavesOne = x.isOdd := by
  cases x with
  | nan => rfl
  | infinity s => rfl
  | finite s a =>
    unfold leavesOne
    by_cases hodd : a.IsOdd
    · rw [flooredRem_two_of_isOdd hodd]
      simp [isWhole, isOdd, hodd, hodd.isWhole]
    · by_cases hwhole : a.IsWhole
      · have hne : finite false .zero ≠ one := by simp [one, Magnitude.one_ne_zero.symm]
        rw [flooredRem_two_of_isWhole hwhole hodd]
        simp [isOdd, hodd, hne]
      · simp [isWhole, isOdd, hodd, hwhole]

/-! ## Guards and handlers -/

theorem infinity_mul_one (s t : Bool) : infinity s * finite t .one = infinity (s ^^ t) := by
  change mul _ _ = _
  simp [mul, Magnitude.one_ne_zero]

/-- **The zero divisors that are looked for are all that trap**, and the product of the two signs is
that of the quotient. -/
theorem guardedDiv_eq (x y : Binary64) : x.guardedDiv y = .ok (x / y) := by
  unfold guardedDiv quotient?
  by_cases hy : y.isZero = true
  · rw [if_pos hy]
    obtain ⟨t, rfl⟩ := exists_of_isZero hy
    cases x with
    | nan => rfl
    | infinity s => exact congrArg Except.ok (infinity_mul_one s t)
    | finite s a =>
      by_cases ha : a = .zero
      · subst ha
        rfl
      · have hguard : ¬((finite s a).isZero || (finite s a).isNaN) := by simp [isZero, isNaN, ha]
        rw [if_neg hguard, div_zero ha]
        exact congrArg Except.ok (infinity_mul_one s t)
  · rw [if_neg hy, if_neg hy]

theorem eq_infinity (hnan : x ≠ nan) (hfinite : x.isFinite = false) : x = infinity x.signBit := by
  cases x with
  | nan => exact absurd rfl hnan
  | infinity s => rfl
  | finite s a => cases hfinite

/-- The operands for which a power traps: finite ones whose power is not. -/
structure PowTraps (x y : Binary64) : Prop where
  base : x.isFinite = true
  exponent : y.isFinite = true
  power : (pow x y).isFinite = false

theorem power?_of_traps (h : PowTraps x y) :
    power? x y = .error (if (pow x y).isNaN || x.isZero then .domain else .overflow) := by
  simp [power?, h.base, h.exponent, h.power]

theorem power?_of_not_traps (h : ¬PowTraps x y) : power? x y = .ok (pow x y) := by
  unfold power?
  refine if_neg fun htraps => h ?_
  simp only [Bool.and_eq_true, Bool.not_eq_true'] at htraps
  exact ⟨htraps.1.1, htraps.1.2, htraps.2⟩

/-- Where it traps without being NaN, a power is the infinity with the sign of the base for an odd
exponent. -/
theorem PowTraps.eq_infinity (h : PowTraps x y) (hnan : pow x y ≠ nan) :
    pow x y = infinity (x.signBit && y.isOdd) := by
  rw [← signBit_pow hnan]
  exact Binary64.eq_infinity hnan h.power

/-- Where a power traps and is NaN, the base is not zero. -/
theorem PowTraps.isZero_base (h : PowTraps x y) (hnan : pow x y = nan) : x.isZero = false := by
  rcases pow_eq_nan_iff.mp hnan with ⟨rfl, -⟩ | ⟨rfl, -⟩ | ⟨-, hbelow, -⟩
  · cases h.base
  · cases h.exponent
  · simpa using (Bool.and_eq_true_iff.mp hbelow).2

/-- **The handlers of a power** answer each trap with what the power is there. -/
theorem guardedPow_eq (x y : Binary64) : x.guardedPow y = .ok (pow x y) := by
  unfold guardedPow
  by_cases h : PowTraps x y
  · rw [power?_of_traps h]
    by_cases hnan : pow x y = nan
    · simp [hnan, isNaN, h.isZero_base hnan]
    · have hpow := h.eq_infinity hnan
      rw [leavesOne_eq_isOdd]
      by_cases hzero : x.isZero = true
      · simp [hpow, hzero, Bool.and_comm]
      · simp [hpow, hzero, isNaN, isBelowZero]
  · rw [power?_of_not_traps h]

/-! ## Quotient and power for all operands -/

/-- **Signs and NaNs of quotient and power.** Both operators answer for all operands, and they would
on a platform where a quotient by zero traps and a power of finite numbers that is not finite.

A quotient is NaN exactly if an operand is, or both are zero, or both are infinite; otherwise its
sign bit is set if that of just one operand is, also for a zero divisor. A power is NaN exactly for a
base that is NaN with an exponent that is not zero, for an exponent that is NaN with a base that is
not one, and for a finite base below zero with a finite exponent that is not whole; otherwise its
sign bit is set exactly if the base has its own set and the exponent is odd. -/
theorem signs_of_div_and_pow (a b : Binary64) :
    (Operator.div.apply a b = .ok (a / b) ∧ a.guardedDiv b = .ok (a / b) ∧
      (a / b = nan ↔ a = nan ∨ b = nan ∨ (a.value? = some 0 ∧ b.value? = some 0) ∨
        ((∃ s, a = infinity s) ∧ ∃ t, b = infinity t)) ∧
      (a / b ≠ nan → (a / b).signBit = (a.signBit ^^ b.signBit))) ∧
    Operator.pow.apply a b = .ok (pow a b) ∧ a.guardedPow b = .ok (pow a b) ∧
      (pow a b = nan ↔ (a = nan ∧ b.value? ≠ some 0) ∨ (b = nan ∧ a.value? ≠ some 1) ∨
        ∃ p q, a.value? = some p ∧ p < 0 ∧ b.value? = some q ∧ ¬∃ n : ℤ, q = n) ∧
      (pow a b ≠ nan → ((pow a b).signBit = true ↔
        a.signBit = true ∧ ∃ n : ℤ, Odd n ∧ b.value? = some (n : ℚ))) := by
  refine ⟨⟨rfl, guardedDiv_eq a b, ?_, signBit_div⟩, rfl, guardedPow_eq a b, ?_, fun h => ?_⟩
  · rw [div_eq_nan_iff, isZero_iff, isZero_iff]
  · rw [pow_eq_nan_iff, belowZero_fraction_iff, Bool.eq_false_iff, Ne, isZero_iff, Ne, eq_one_iff]
  · rw [signBit_pow h, Bool.and_eq_true, isOdd_iff]

/-- At its poles, negative zero answers with the infinity below zero: as the divisor of one, and as
the base of the power minus one. -/
theorem signs_of_div_and_pow_poles :
    let z := finite true .zero
    (one / z ≠ nan ∧ (one / z).signBit = true) ∧
      pow z (-one) ≠ nan ∧ (pow z (-one)).signBit = true := by
  intro z
  have hdiv : one / z ≠ nan := by decide +kernel
  have hpow : pow z (-one) ≠ nan := by decide +kernel
  have hvalue : (-one).value? = some ((-1 : ℤ) : ℚ) :=
    value?_eq_intCast_iff.mpr (neg_one_mul _).symm
  have hodd : ∃ n : ℤ, Odd n ∧ (-one).value? = some (n : ℚ) := ⟨-1, by decide, hvalue⟩
  refine ⟨⟨hdiv, ?_⟩, hpow, ?_⟩
  · exact (signs_of_div_and_pow one z).1.2.2.2 hdiv
  · exact ((signs_of_div_and_pow z (-one)).2.2.2.2 hpow).mpr ⟨rfl, hodd⟩

end Binary64

end Reckoner
