import Reckoner.Decimal.Layout

/-!
# Rounding keeps the order

A larger ratio rounds to no smaller magnitude. Where both ratios have one last place, their
significands are in order; where the larger has a higher one, the smaller ends below a power of two
that the larger has reached.

A power of ten therefore cannot lie between a magnitude and the decimal number that stands for it
without being rounded to the magnitude itself. So the shortest decimal number has its leading digit
where the magnitude has:

* **`Magnitude.nearest?_mono`**: rounding is monotone in the ratio.
* **`Magnitude.IsModerate.le_leadingExponent_shortest`**, `leadingExponent_shortest_lt`: from
  `0.0001` to below `10 ^ 16` the leading digit is at an exponent from -4 to 15.
-/

namespace Reckoner

/-! ## The nearest whole number -/

theorem le_nearestEven (num den : Nat) : num / den ≤ nearestEven num den := by
  simp only [nearestEven]
  split
  · omega
  · split <;> omega

theorem nearestEven_mono {a b : Nat} (den : Nat) (h : a ≤ b) :
    nearestEven a den ≤ nearestEven b den := by
  rcases Nat.lt_or_eq_of_le (Nat.div_le_div_right (c := den) h) with hlt | heq
  · exact Nat.le_trans (nearestEven_le a den) (Nat.le_trans hlt (le_nearestEven b den))
  · have hmod : a % den ≤ b % den := by
      have ha := Nat.div_add_mod a den
      have hb := Nat.div_add_mod b den
      rw [heq] at ha
      omega
    simp only [nearestEven, heq]
    (repeat' split) <;> omega

namespace Magnitude

/-! ## The nearest magnitude -/

variable {num den num' den' : Nat} {m m' : Magnitude}

/-- The count of units to which a ratio rounds, whether or not it is too large. -/
def rounded (num den : Nat) : Nat := significand num den * 2 ^ lastPlace num den

theorem units_of_nearest? (h : nearest? num den = some m) : m.units = rounded num den := by
  unfold nearest? at h
  dsimp only at h
  split at h <;> cases h
  rfl

theorem log2_mono {a b : Nat} (h : a ≤ b) : a.log2 ≤ b.log2 := by
  by_cases h0 : a = 0
  · rw [h0, Nat.log2_zero]
    exact Nat.zero_le _
  · have hb : b ≠ 0 := fun hb => h0 (Nat.le_zero.mp (hb ▸ h))
    exact (Nat.le_log2 hb).mpr (Nat.le_trans (Nat.log2_self_le h0) h)

theorem lastPlace_mono {a b : Nat} (den : Nat) (h : a ≤ b) : lastPlace a den ≤ lastPlace b den :=
  Nat.sub_le_sub_right (log2_mono (Nat.div_le_div_right h)) 52

/-- A significand with places below it to spare has all its 53 bits. -/
theorem le_significand (h : 0 < lastPlace num den) : 2 ^ (52 : Nat) ≤ significand num den := by
  refine Nat.le_trans ?_ (le_nearestEven _ _)
  rw [← Nat.div_div_eq_div_mul, Nat.le_div_iff_mul_le (Nat.two_pow_pos _), ← Nat.pow_add]
  have hplace : 52 + lastPlace num den = (num / den).log2 := by
    unfold lastPlace at h ⊢
    omega
  rw [hplace]
  refine Nat.log2_self_le fun h0 => ?_
  rw [h0, Nat.log2_zero] at hplace
  omega

theorem rounded_mono {a b : Nat} (den : Nat) (h : a ≤ b) : rounded a den ≤ rounded b den := by
  unfold rounded
  rcases Nat.lt_or_eq_of_le (lastPlace_mono den h) with hlt | heq
  · calc significand a den * 2 ^ lastPlace a den
      _ ≤ 2 ^ (53 : Nat) * 2 ^ lastPlace a den := Nat.mul_le_mul_right _ (significand_le a den)
      _ = 2 ^ (52 : Nat) * 2 ^ (lastPlace a den + 1) := by
        rw [← Nat.pow_add, ← Nat.pow_add, Nat.add_comm _ 1, ← Nat.add_assoc]
      _ ≤ 2 ^ (52 : Nat) * 2 ^ lastPlace b den :=
        Nat.mul_le_mul_left _ (Nat.pow_le_pow_right (by decide) hlt)
      _ ≤ significand b den * 2 ^ lastPlace b den :=
        Nat.mul_le_mul_right _ (le_significand (Nat.zero_lt_of_lt hlt))
  · rw [significand, significand, heq]
    exact Nat.mul_le_mul_right _ (nearestEven_mono _ h)

/-- **Rounding is monotone.** -/
theorem nearest?_mono (hden : 0 < den) (hden' : 0 < den') (h : num * den' ≤ num' * den)
    (hm : nearest? num den = some m) (hm' : nearest? num' den' = some m') :
    m.units ≤ m'.units := by
  rw [← nearest?_mul_mul num den hden'] at hm
  rw [← nearest?_mul_mul num' den' hden, Nat.mul_comm den' den] at hm'
  rw [units_of_nearest? hm, units_of_nearest? hm']
  exact rounded_mono _ h

/-- A whole number of units over a power of ten. -/
theorem nearest?_units_mul (m : Magnitude) {k : Nat} (hk : 0 < k) :
    nearest? (m.units * k) k = some m := by
  have := nearest?_mul_mul m.units 1 hk
  rwa [Nat.one_mul, nearest?_units] at this

end Magnitude

/-! ## Leading digits -/

namespace Decimal

variable {d : Decimal} {m : Magnitude} {k : Int}

/-- A decimal number with a magnitude that is not zero is rounded as a ratio. -/
theorem nearest?_of_toMagnitude? (h : d.toMagnitude? = some m) (hm : m ≠ .zero) :
    d.digits ≠ 0 ∧ Magnitude.nearest? (d.digits * 10 ^ d.exponent.toNat * unitsIn 0)
      (10 ^ (-d.exponent).toNat) = some m := by
  obtain ⟨n, e⟩ := d
  have hn : n ≠ 0 := by
    rintro rfl
    exact hm (Option.some.inj h).symm
  refine ⟨hn, ?_⟩
  unfold toMagnitude? at h
  rw [if_neg hn] at h
  cases e with
  | ofNat e =>
    change (if 310 ≤ e then none else _) = some m at h
    split at h
    · cases h
    · have he : (-(Int.ofNat e)).toNat = 0 := by
        rw [Int.toNat_eq_zero]
        exact Int.neg_nonpos_of_nonneg (Int.natCast_nonneg e)
      rw [he]
      exact h
  | negSucc e =>
    change (if _ then some Magnitude.zero else _) = some m at h
    split at h
    · exact absurd (Option.some.inj h).symm hm
    · change Magnitude.nearest? (n * 1 * unitsIn 0) _ = _
      rw [Nat.mul_one]
      exact h

theorem length_digitChars_pos (d : Decimal) : 0 < d.digitChars.length := Nat.length_toDigits_pos

/-- The number is at least the power of ten of its leading digit. -/
theorem pow_le_of_le_leadingExponent (hd : d.digits ≠ 0) (h : k ≤ d.leadingExponent) :
    10 ^ k.toNat * 10 ^ (-d.exponent).toNat ≤
      d.digits * 10 ^ d.exponent.toNat * 10 ^ (-k).toNat := by
  have hpos := d.length_digitChars_pos
  have hfirst : 10 ^ (d.digitChars.length - 1) ≤ d.digits := by
    rcases Nat.eq_zero_or_pos (d.digitChars.length - 1) with h0 | h0
    · rw [h0]
      exact Nat.pos_of_ne_zero hd
    · refine Nat.not_lt.mp fun hlt => ?_
      have := (Nat.length_toDigits_le_iff (by decide) h0).mpr hlt
      change d.digitChars.length ≤ _ at this
      omega
  refine Nat.le_trans ?_ (Nat.mul_le_mul_right _ (Nat.mul_le_mul_right _ hfirst))
  rw [← Nat.pow_add, ← Nat.pow_add, ← Nat.pow_add]
  refine Nat.pow_le_pow_right (by decide) ?_
  unfold leadingExponent at h
  omega

/-- The number is below the powers of ten beyond its leading digit. -/
theorem lt_pow_of_leadingExponent_lt (h : d.leadingExponent < k) :
    d.digits * 10 ^ d.exponent.toNat * 10 ^ (-k).toNat <
      10 ^ k.toNat * 10 ^ (-d.exponent).toNat := by
  have hall : d.digits < 10 ^ d.digitChars.length :=
    (Nat.length_toDigits_le_iff (by decide) d.length_digitChars_pos).mp (Nat.le_refl _)
  refine Nat.lt_of_lt_of_le (Nat.mul_lt_mul_of_pos_right
    (Nat.mul_lt_mul_of_pos_right hall (Nat.pow_pos (by decide))) (Nat.pow_pos (by decide))) ?_
  rw [← Nat.pow_add, ← Nat.pow_add, ← Nat.pow_add]
  refine Nat.pow_le_pow_right (by decide) ?_
  unfold leadingExponent at h
  omega

end Decimal

namespace Magnitude

variable {m : Magnitude}

/-- Neither small nor large: from `0.0001` to below `10 ^ 16`. -/
structure IsModerate (m : Magnitude) : Prop where
  le : unitsIn 0 ≤ 10 ^ (4 : Nat) * m.units
  lt : m.units < 10 ^ (16 : Nat) * unitsIn 0

instance : DecidablePred IsModerate := fun _ =>
  decidable_of_iff (_ ∧ _) ⟨fun h => ⟨h.1, h.2⟩, fun h => ⟨h.le, h.lt⟩⟩

theorem IsModerate.ne_zero (h : m.IsModerate) : m ≠ .zero := by
  rintro rfl
  exact Nat.not_le.mpr (unitsIn_pos 0) h.le

/-- `10 ^ 16` is a magnitude. -/
def tenToSixteen : Magnitude := ⟨10 ^ (16 : Nat) * unitsIn 0, by decide +kernel⟩

/-- The magnitude nearest to `0.0001` is written so. -/
theorem shortest_of_tenThousandth :
    ∃ m, nearest? (unitsIn 0) (10 ^ (4 : Nat)) = some m ∧ m.shortest = ⟨1, -4⟩ := by
  have hall : (nearest? (unitsIn 0) (10 ^ (4 : Nat))).map shortest = some ⟨1, -4⟩ := by
    decide +kernel
  exact Option.map_eq_some_iff.mp hall

/-- Below `10 ^ 16` the leading digit is too. -/
theorem IsModerate.leadingExponent_shortest_lt (h : m.IsModerate) :
    m.shortest.leadingExponent < 16 := by
  obtain ⟨hdigits, hnearest⟩ := Decimal.nearest?_of_toMagnitude? m.toMagnitude?_shortest h.ne_zero
  refine Int.not_le.mp fun hle => Nat.not_le.mpr h.lt ?_
  have hpow : 10 ^ (16 : Nat) * 10 ^ (-m.shortest.exponent).toNat ≤
      m.shortest.digits * 10 ^ m.shortest.exponent.toNat * 1 :=
    Decimal.pow_le_of_le_leadingExponent hdigits hle
  refine nearest?_mono (m := tenToSixteen) (by decide) (Nat.pow_pos (by decide)) ?_
    (nearest?_units tenToSixteen) hnearest
  rw [Nat.mul_one] at hpow ⊢
  change 10 ^ (16 : Nat) * unitsIn 0 * _ ≤ _
  rw [Nat.mul_right_comm]
  exact Nat.mul_le_mul_right _ hpow

/-- From `0.0001` on the leading digit is no further behind the point. If it were, the magnitude
would be the one nearest to `0.0001`, which has no other shortest number. -/
theorem IsModerate.le_leadingExponent_shortest (h : m.IsModerate) :
    -4 ≤ m.shortest.leadingExponent := by
  obtain ⟨-, hnearest⟩ := Decimal.nearest?_of_toMagnitude? m.toMagnitude?_shortest h.ne_zero
  obtain ⟨least, hleast, hshortest⟩ := shortest_of_tenThousandth
  refine Int.not_lt.mp fun hlt => ?_
  have hpow : m.shortest.digits * 10 ^ m.shortest.exponent.toNat * 10 ^ (4 : Nat) <
      1 * 10 ^ (-m.shortest.exponent).toNat :=
    Decimal.lt_pow_of_leadingExponent_lt hlt
  have hten : 0 < 10 ^ (4 : Nat) := by decide
  have hle : least.units ≤ m.units := by
    refine nearest?_mono hten hten ?_ hleast (nearest?_units_mul m hten)
    rw [Nat.mul_comm m.units]
    exact Nat.mul_le_mul_right _ h.le
  have hge : m.units ≤ least.units := by
    refine nearest?_mono (Nat.pow_pos (by decide)) hten ?_ hnearest hleast
    rw [Nat.one_mul] at hpow
    rw [Nat.mul_right_comm, Nat.mul_comm (unitsIn 0)]
    exact Nat.mul_le_mul_right _ (Nat.le_of_lt hpow)
  obtain rfl : m = least := Magnitude.ext (Nat.le_antisymm hge hle)
  rw [hshortest] at hlt
  exact absurd hlt (by decide)

end Magnitude

end Reckoner
