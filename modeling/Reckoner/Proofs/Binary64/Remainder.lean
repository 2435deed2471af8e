import Reckoner.Binary64.Trapping
import Reckoner.Expr.Eval
import Reckoner.Proofs.Binary64.Value

/-!
# The remainder is exact

The remainder of two counts of units is a count of units that is always representable, so nothing is
rounded, however many digits the quotient would have.

* `Magnitude.signed_rem`: the remainder of the magnitudes is that of the signed counts.
* `value?_rem`: its value, with what follows for its size and its sign.
* `guardedRem_eq`: no operands trap that are not looked for.
* **`rem_exact`**: the remainder of all operands.
-/

namespace Reckoner

/-- The remainder has the sign of the dividend, and that of the divisor does not matter. -/
theorem Magnitude.signed_rem (s t : Bool) (a b : Magnitude) :
    (a.rem b).signed s = (a.signed s).tmod (b.signed t) := by
  have hunits : ((a.rem b).units : ℤ) = (a.units : ℤ).tmod b.units := Int.ofNat_tmod _ _
  cases s <;> cases t <;> simp [signed, hunits]

namespace Binary64

variable {x y : Binary64} {p q : ℚ}

theorem rem_of_ne_zero {s t : Bool} {a b : Magnitude} (hb : b ≠ .zero) :
    finite s a % finite t b = finite s (a.rem b) := if_neg hb

/-- What is left of `m` units when `n` units are taken away as often as they can be. -/
theorem sub_truncated_mul (m n : ℤ) :
    (m / unitsIn 0 : ℚ) - truncated ((m / unitsIn 0) / (n / unitsIn 0)) * (n / unitsIn 0) =
      (m.tmod n : ℤ) / unitsIn 0 := by
  rw [div_div_div_cancel_right₀ unitsIn_zero_pos.ne', truncated_intCast_div, Int.tmod_def]
  push_cast
  ring

/-- **The value of a remainder**, with its size and its sign. -/
theorem value?_rem (hx : x.value? = some p) (hy : y.value? = some q) (hq : q ≠ 0) :
    (x % y).value? = some (p - truncated (p / q) * q) ∧ |p - truncated (p / q) * q| < |q| ∧
      (x % y).signBit = x.signBit := by
  obtain ⟨s, a, rfl, rfl⟩ := value?_eq_some_iff.mp hx
  obtain ⟨t, b, rfl, rfl⟩ := value?_eq_some_iff.mp hy
  have hb : b.signed t ≠ 0 := fun h => hq (by rw [h, Int.cast_zero, zero_div])
  have hrem : finite s a % finite t b = finite s (a.rem b) :=
    rem_of_ne_zero (Magnitude.signed_eq_zero_iff.not.mp hb)
  have hlt : |(a.signed s).tmod (b.signed t)| < |b.signed t| := by
    rw [Int.abs_eq_natAbs, Int.abs_eq_natAbs, Int.natAbs_tmod]
    exact_mod_cast Nat.mod_lt _ (Int.natAbs_pos.mpr hb)
  rw [hrem, sub_truncated_mul]
  refine ⟨?_, ?_, rfl⟩
  · rw [value?_finite, Magnitude.signed_rem s t]
  · rw [abs_div, abs_div]
    refine div_lt_div_of_pos_right ?_ (abs_pos.mpr unitsIn_zero_pos.ne')
    exact_mod_cast hlt

theorem rem_eq_nan_iff :
    x % y = nan ↔ x = nan ∨ (∃ s, x = infinity s) ∨ y = nan ∨ y.isZero = true := by
  change rem x y = nan ↔ _
  cases x <;> cases y <;> simp [rem, isZero]

theorem rem_neg (x y : Binary64) : x % -y = x % y := by
  cases x <;> cases y <;> rfl

/-- **The operands that are looked for are all that trap**, and they have no remainder. -/
theorem guardedRem_eq (x y : Binary64) : x.guardedRem y = .ok (x % y) := by
  unfold guardedRem remainder?
  by_cases hguard : y.isZero || !x.isFinite || y.isNaN
  · have hnan : x % y = nan := by
      rw [rem_eq_nan_iff]
      cases x <;> cases y <;> simp_all [isFinite, isNaN]
    rw [if_pos hguard, hnan]
  · have htrap : ¬(!x.isFinite && !x.isNaN || y.isZero) := by
      simp_all
    rw [if_neg hguard, if_neg htrap]

/-- **The remainder is exact.** The operator answers for all operands, and it would on a platform
whose remainder traps. The answer is NaN exactly for a dividend that is NaN or infinite and for a
divisor that is NaN or zero. A finite dividend is its own remainder by an infinity. For finite
operands and a divisor that is not zero, the answer is the dividend less the truncated quotient times
the divisor, without rounding; so it is below the divisor in magnitude, and it has the sign bit of
the dividend even if it is zero. The sign of the divisor does not matter. -/
theorem rem_exact (a b : Binary64) :
    Operator.mod.apply a b = .ok (a % b) ∧ a.guardedRem b = .ok (a % b) ∧
      (a % b = nan ↔ a = nan ∨ (∃ s, a = infinity s) ∨ b = nan ∨ b.value? = some 0) ∧
      (∀ p s, a.value? = some p → b = infinity s → a % b = a) ∧
      (∀ p q, a.value? = some p → b.value? = some q → q ≠ 0 →
        (a % b).value? = some (p - truncated (p / q) * q) ∧ |p - truncated (p / q) * q| < |q| ∧
          (a % b).signBit = a.signBit) ∧
      a % -b = a % b := by
  refine ⟨rfl, guardedRem_eq a b, ?_, ?_, fun p q => value?_rem, rem_neg a b⟩
  · rw [rem_eq_nan_iff, isZero_iff]
  · rintro p s hp rfl
    obtain ⟨t, m, rfl, -⟩ := value?_eq_some_iff.mp hp
    rfl

/-- The quotient of `-2 ^ 1023` by three of the smallest numbers has over six hundred digits, and two
of the smallest numbers are left. -/
theorem rem_exact_smallest :
    let a := finite true ⟨unitsIn 1023, representable_unitsIn (by decide)⟩
    let b := finite false ⟨3, by decide +kernel⟩
    ∃ p q, a.value? = some p ∧ b.value? = some q ∧ q ≠ 0 ∧
      a % b = finite true ⟨2, by decide +kernel⟩ ∧
        (-2 / unitsIn 0 : ℚ) = p - truncated (p / q) * q := by
  intro a b
  have hq : ((3 : ℤ) / unitsIn 0 : ℚ) ≠ 0 := div_ne_zero (by norm_num) unitsIn_zero_pos.ne'
  have hrem : a % b = finite true ⟨2, by decide +kernel⟩ := by decide +kernel
  refine ⟨_, _, rfl, rfl, hq, hrem, ?_⟩
  obtain ⟨hvalue, -, -⟩ := (rem_exact a b).2.2.2.2.1 _ _ rfl rfl hq
  rw [hrem, value?_finite, Option.some_inj] at hvalue
  rw [← hvalue]
  rfl

end Binary64

end Reckoner
