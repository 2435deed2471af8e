import Mathlib.Data.List.TakeDrop
import Reckoner.Decimal.Numeral
import Reckoner.Proofs.Decimal.Monotone
import Reckoner.Proofs.Token.Seams

/-!
# Numbers are read back

The text of a finite number has no blanks, no underscore and no letter but the `e` of an exponent,
and after its sign it starts with a digit. So it is read as digits around a point, with an exponent
or without (`Numeral.read?_of_isMark`). Of a number in places, what is read is the number itself, or
if it is whole that number without its exponent; of one with an exponent, it is the number itself.

* `Decimal.writes_render`: what the text of a decimal number is read as.
* **`Binary64.read?_render`**: every number is read back from its text; so no two have one text.
* `isCanonical_render`: the text of a plain number, one without a sign that is zero or goes from
  `0.0001` to below `10 ^ 16`, is the text of a number token.
-/

namespace Reckoner

/-! ## Characters of numbers -/

namespace Numeral

variable {c : Char} {cs ds whole fraction : List Char}

/-- A digit or the point. -/
def IsPlace (c : Char) : Prop := c.isDigit = true ∨ c = '.'

instance : DecidablePred IsPlace := fun c => inferInstanceAs (Decidable (c.isDigit = true ∨ c = '.'))

theorem exists_digitChar (h : c.isDigit = true) : ∃ n, n < 10 ∧ n.digitChar = c := by
  obtain ⟨hlow, hhigh⟩ := Char.isDigit_iff_toNat.mp h
  change 48 ≤ c.toNat at hlow
  change c.toNat ≤ 57 at hhigh
  have hlt : c.toNat - 48 < 10 := by omega
  refine ⟨c.toNat - 48, hlt, Char.toNat_inj.mp ?_⟩
  rw [Nat.toNat_digitChar_of_lt_ten hlt]
  omega

/-- What holds of the ten digits and of the point. -/
theorem IsPlace.elim {P : Char → Prop} (digit : ∀ n, n < 10 → P (Nat.digitChar n)) (point : P '.')
    (h : IsPlace c) : P c := by
  rcases h with h | rfl
  · obtain ⟨n, hn, rfl⟩ := exists_digitChar h
    exact digit n hn
  · exact point

theorem IsPlace.isNumberChar (h : IsPlace c) : Token.isNumberChar c = true :=
  h.elim (P := fun c => Token.isNumberChar c = true) (by decide) (by decide)

/-- The characters that a number is written with, in places or with an exponent. -/
def IsMark (c : Char) : Prop := IsPlace c ∨ c = 'e' ∨ c = '+' ∨ c = '-'

instance : DecidablePred IsMark :=
  fun c => inferInstanceAs (Decidable (IsPlace c ∨ c = 'e' ∨ c = '+' ∨ c = '-'))

/-- What holds of the ten digits, of the point and of the marks of an exponent. -/
theorem IsMark.elim {P : Char → Prop} (digit : ∀ n, n < 10 → P (Nat.digitChar n)) (point : P '.')
    (exponent : P 'e') (plus : P '+') (minus : P '-') (h : IsMark c) : P c := by
  rcases h with h | rfl | rfl | rfl
  · exact h.elim digit point
  · exact exponent
  · exact plus
  · exact minus

theorem IsMark.plain (h : IsMark c) : plain c = c :=
  h.elim (P := fun c => Numeral.plain c = c) (by decide) (by decide) (by decide) (by decide)
    (by decide)

/-- A character that stays in a numeral as it is: no blank, no underscore, and in none of the
words. -/
def IsInert (c : Char) : Prop := isBlank c = false ∧ c ≠ '_' ∧ c.toLower ≠ 'n'

instance : DecidablePred IsInert :=
  fun c => inferInstanceAs (Decidable (isBlank c = false ∧ c ≠ '_' ∧ c.toLower ≠ 'n'))

theorem IsMark.isInert (h : IsMark c) : IsInert c :=
  h.elim (by decide) (by decide) (by decide) (by decide) (by decide)

/-! ## Texts of numbers -/

theorem dropWhile_isBlank (h : ∀ c ∈ cs, IsInert c) : cs.dropWhile isBlank = cs := by
  cases cs with
  | nil => rfl
  | cons c cs => rw [List.dropWhile_cons, (h c List.mem_cons_self).1, if_neg Bool.false_ne_true]

theorem trim_of_isInert (h : ∀ c ∈ cs, IsInert c) : trim cs = cs := by
  rw [trim, dropWhile_isBlank h, dropWhile_isBlank fun c hc => h c (List.mem_reverse.mp hc),
    List.reverse_reverse]

theorem ungroup?_of_isInert (afterDigit : Bool) (h : ∀ c ∈ cs, IsInert c) :
    ungroup? afterDigit cs = some cs := by
  induction cs generalizing afterDigit with
  | nil => rfl
  | cons c cs ih =>
    obtain ⟨⟨-, hunderscore, -⟩, hcs⟩ := List.forall_mem_cons.mp h
    simp [ungroup?, ih _ hcs]

theorem unsigned?_of_isInert (negative : Bool) (h : ∀ c ∈ cs, IsInert c) :
    unsigned? negative cs = (decimal? cs).map (·.toBinary64 negative) := by
  -- Each of the words has an `n`.
  have hn : 'n' ∉ cs.map Char.toLower := by
    intro hn
    obtain ⟨c, hc, hlower⟩ := List.mem_map.mp hn
    exact (h c hc).2.2 hlower
  have hinfinity : isInfinityWord (cs.map Char.toLower) = false := by
    refine Bool.eq_false_iff.mpr fun hw => hn ?_
    rcases Bool.or_eq_true _ _ |>.mp hw with hw | hw <;> simp [beq_iff_eq.mp hw]
  have hnan : isNaNWord (cs.map Char.toLower) = false := by
    refine Bool.eq_false_iff.mpr fun hw => hn ?_
    simp [beq_iff_eq.mp hw]
  simp [unsigned?, hinfinity, hnan]

/-- A minus is split from what follows it, and nothing from what starts without a sign. -/
theorem splitSign_append (negative : Bool) (h : ∀ c ∈ cs.head?, c ≠ '-' ∧ c ≠ '+') :
    splitSign ((if negative then ['-'] else []) ++ cs) = (negative, cs) := by
  cases negative with
  | true => rfl
  | false =>
    change splitSign cs = _
    cases cs with
    | nil => rfl
    | cons c cs =>
      obtain ⟨hminus, hplus⟩ := h c rfl
      simp [splitSign, hminus, hplus]

/-- **A text of characters that stay as they are** is a decimal number, after a minus or not. -/
theorem read?_of_isInert {text : String} (negative : Bool)
    (htext : text.toList.map plain = (if negative then ['-'] else []) ++ cs)
    (h : ∀ c ∈ cs, IsInert c) (hsign : ∀ c ∈ cs.head?, c ≠ '-' ∧ c ≠ '+') :
    read? text = (decimal? cs).map (·.toBinary64 negative) := by
  have hall : ∀ c ∈ (if negative then ['-'] else []) ++ cs, IsInert c := by
    refine List.forall_mem_append.mpr ⟨fun c hc => ?_, h⟩
    cases negative with
    | true =>
      obtain rfl := List.mem_singleton.mp hc
      decide
    | false => cases hc
  rw [read?, htext, trim_of_isInert hall, ungroup?_of_isInert false hall, Option.bind_some,
    splitSign_append negative hsign]
  exact unsigned?_of_isInert negative h

/-- A text of marks that starts with a digit, after a minus or not, is read as a decimal number. -/
theorem read?_of_isMark {text : String} (negative : Bool) (h : ∀ c ∈ text.toList, IsMark c)
    (hdigit : ∃ c cs, text.toList = c :: cs ∧ c.isDigit = true) :
    read? ((if negative then "-" else "") ++ text) =
      (decimal? text.toList).map (·.toBinary64 negative) := by
  obtain ⟨c, cs, htext, hc⟩ := hdigit
  refine read?_of_isInert negative ?_ (fun c hc => (h c hc).isInert) ?_
  · rw [String.toList_append, List.map_append, List.map_congr_left fun c hc => (h c hc).plain,
      List.map_id']
    cases negative <;> rfl
  · rw [htext]
    intro d hd
    obtain rfl := Option.some.inj hd
    constructor <;>
      · rintro rfl
        cases hc

/-! ## Exponents -/

theorem exponent?_minus (hne : ds ≠ []) (h : ∀ c ∈ ds, c.isDigit = true) :
    exponent? ('e' :: '-' :: ds) = some (-(Nat.ofDigitChars 10 ds 0 : Int)) := by
  simpa [exponent?, splitSign, hne] using h

theorem exponent?_plus (hne : ds ≠ []) (h : ∀ c ∈ ds, c.isDigit = true) :
    exponent? ('e' :: '+' :: ds) = some (Nat.ofDigitChars 10 ds 0 : Int) := by
  simpa [exponent?, splitSign, hne] using h

/-- The characters are the exponent after the digits of a number, which may be missing. -/
structure IsExponent (cs : List Char) (n : Int) : Prop where
  letter : ∀ c ∈ cs.head?, c = 'e'
  isMark : ∀ c ∈ cs, IsMark c
  exponent? : Numeral.exponent? cs = some n

namespace IsExponent

variable {n : Int}

theorem missing : IsExponent [] 0 :=
  ⟨fun _ hc => absurd hc (Option.not_mem_none _), fun _ hc => absurd hc List.not_mem_nil, rfl⟩

theorem not_isDigit (h : IsExponent cs n) : ∀ c ∈ cs.head?, c.isDigit = false := by
  intro c hc
  rw [h.letter c hc]
  rfl

theorem splitFraction (h : IsExponent cs n) : splitFraction cs = ([], cs) := by
  unfold Numeral.splitFraction
  split
  · exact absurd (h.letter '.' rfl) (by decide)
  · rfl

end IsExponent

/-! ## Digits around a point -/

/-- Characters of a kind end before one that is not of the kind. -/
theorem span_append {p : Char → Bool} (h : ∀ c ∈ ds, p c = true)
    (hcs : ∀ c ∈ cs.head?, p c = false) : (ds ++ cs).span p = (ds, cs) := by
  rw [List.span_eq_takeWhile_dropWhile, List.takeWhile_append_of_pos h,
    List.dropWhile_append_of_pos h]
  cases cs with
  | nil => rw [List.takeWhile_nil, List.append_nil, List.dropWhile_nil]
  | cons c cs => simp [hcs c rfl]

/-- Digits alone are a whole number, times the power of ten of the exponent. -/
theorem decimal?_digits {n : Int} (hne : whole ≠ []) (h : ∀ c ∈ whole, c.isDigit = true)
    (hcs : IsExponent cs n) : decimal? (whole ++ cs) = some ⟨Nat.ofDigitChars 10 whole 0, n⟩ := by
  rw [decimal?, span_append h hcs.not_isDigit]
  simp only [hcs.splitFraction]
  simp [hne, hcs.exponent?]

/-- Digits on both sides of a point are a number with as many places as stand after it. -/
theorem decimal?_point {n : Int} (hne : whole ++ fraction ≠ [])
    (h : ∀ c ∈ whole ++ fraction, c.isDigit = true) (hcs : IsExponent cs n) :
    decimal? (whole ++ '.' :: (fraction ++ cs)) =
      some ⟨Nat.ofDigitChars 10 (whole ++ fraction) 0, n - fraction.length⟩ := by
  obtain ⟨hwhole, hfraction⟩ := List.forall_mem_append.mp h
  have hspan : (whole ++ '.' :: (fraction ++ cs)).span Char.isDigit =
      (whole, '.' :: (fraction ++ cs)) :=
    span_append hwhole fun c hc => by cases hc; decide
  have hsplit : splitFraction ('.' :: (fraction ++ cs)) = (fraction, cs) :=
    span_append hfraction hcs.not_isDigit
  have hempty : (whole.isEmpty && fraction.isEmpty) = false := by simpa using hne
  rw [decimal?, hspan]
  simp [hsplit, hempty, hcs.exponent?]

end Numeral

/-! ## Numbers in places -/

namespace Decimal

variable {d : Decimal}

theorem isDigit_of_mem_digitChars (d : Decimal) : ∀ c ∈ d.digitChars, c.isDigit = true :=
  fun _ hc => Nat.isDigit_of_mem_toDigits (by decide) (by decide) hc

theorem ofDigitChars_digitChars (d : Decimal) : Nat.ofDigitChars 10 d.digitChars 0 = d.digits :=
  Nat.ofDigitChars_ten_toDigits

theorem digitChars_ne_nil (d : Decimal) : d.digitChars ≠ [] := Nat.toDigits_ne_nil

theorem isDigit_of_mem_wholeChars {n : Nat} :
    ∀ c ∈ d.digitChars ++ List.replicate n '0', c.isDigit = true := by
  simpa [or_imp, forall_and] using d.isDigit_of_mem_digitChars

/-- A whole number in places is its digits, and zeros after them. -/
theorem inPlaces_of_nonneg (h : 0 ≤ d.exponent) :
    d.inPlaces "" = String.ofList (d.digitChars ++ List.replicate d.exponent.toNat '0') := by
  unfold inPlaces
  dsimp only
  rw [if_pos h, String.append_empty]

/-- Any other number in places has a point, with all its digits around it. -/
theorem inPlaces_of_neg (h : d.exponent < 0) :
    ∃ whole fraction, d.inPlaces "" = String.ofList (whole ++ '.' :: fraction) ∧ whole ≠ [] ∧
      (∀ c ∈ whole ++ fraction, c.isDigit = true) ∧ -(fraction.length : Int) = d.exponent ∧
        Nat.ofDigitChars 10 (whole ++ fraction) 0 = d.digits := by
  have hdigits := d.isDigit_of_mem_digitChars
  have hvalue := d.ofDigitChars_digitChars
  unfold inPlaces
  dsimp only
  rw [if_neg (Int.not_le.mpr h)]
  generalize d.digitChars = digits at hdigits hvalue ⊢
  split
  · rename_i hpoint
    refine ⟨digits.take _, digits.drop _, rfl, ?_, ?_, ?_, ?_⟩
    · have hne : digits ≠ [] := by
        rintro rfl
        change 0 < (0 : Int) + d.exponent at hpoint
        omega
      simp [hne]
      omega
    · rwa [List.take_append_drop]
    · rw [List.length_drop]
      omega
    · rwa [List.take_append_drop]
  · refine ⟨['0'], List.replicate _ '0' ++ digits, rfl, List.cons_ne_nil _ _, ?_, ?_, ?_⟩
    · simpa [or_imp, forall_and] using hdigits
    · rw [List.length_append, List.length_replicate]
      omega
    · simp [Nat.ofDigitChars_append, Nat.ofDigitChars_cons, hvalue]

/-- An exponent that is neither negative nor far too large. -/
theorem toMagnitude?_ofNat {n e : Nat} (hn : n ≠ 0) (he : e < 310) :
    toMagnitude? ⟨n, e⟩ = Magnitude.nearest? (n * 10 ^ e * unitsIn 0) 1 := by
  rw [← Int.ofNat_eq_natCast]
  simp [toMagnitude?, hn, Nat.not_le.mpr he]

/-- A power of ten in the exponent or in the digits. -/
theorem toMagnitude?_mul_pow (n : Nat) {e : Nat} (he : e < 310) :
    toMagnitude? ⟨n * 10 ^ e, 0⟩ = toMagnitude? ⟨n, e⟩ := by
  by_cases hn : n = 0
  · simp [hn, toMagnitude?]
  · have hne : n * 10 ^ e ≠ 0 :=
      Nat.mul_ne_zero hn (Nat.pos_iff_ne_zero.mp (Nat.pow_pos (by decide)))
    have hzero := toMagnitude?_ofNat (e := 0) hne (by decide)
    rw [Nat.pow_zero, Nat.mul_one, Int.natCast_zero] at hzero
    exact hzero.trans (toMagnitude?_ofNat hn he).symm

theorem isPlace_inPlaces (d : Decimal) : ∀ c ∈ (d.inPlaces "").toList, Numeral.IsPlace c := by
  rcases Int.lt_or_le d.exponent 0 with hneg | hnonneg
  · obtain ⟨whole, fraction, htext, -, hall, -⟩ := inPlaces_of_neg hneg
    obtain ⟨hwhole, hfraction⟩ := List.forall_mem_append.mp hall
    rw [htext, String.toList_ofList]
    refine List.forall_mem_append.mpr ⟨fun c hc => Or.inl (hwhole c hc), ?_⟩
    exact List.forall_mem_cons.mpr ⟨Or.inr rfl, fun c hc => Or.inl (hfraction c hc)⟩
  · rw [inPlaces_of_nonneg hnonneg, String.toList_ofList]
    exact fun c hc => Or.inl (isDigit_of_mem_wholeChars c hc)

/-- The characters are marks of which the first is a digit, and are read as a number of the same
magnitude. -/
structure Writes (cs : List Char) (d : Decimal) : Prop where
  isMark : ∀ c ∈ cs, Numeral.IsMark c
  digit : ∃ c rest, cs = c :: rest ∧ c.isDigit = true
  decimal? : ∃ d', Numeral.decimal? cs = some d' ∧ d'.toMagnitude? = d.toMagnitude?

theorem Writes.read? {text : String} (h : Writes text.toList d) (negative : Bool) :
    Numeral.read? ((if negative then "-" else "") ++ text) = some (d.toBinary64 negative) := by
  obtain ⟨d', hd', hmagnitude⟩ := h.decimal?
  rw [Numeral.read?_of_isMark negative h.isMark h.digit, hd', Option.map_some, toBinary64,
    hmagnitude]
  rfl

/-- Digits, with an exponent or without. -/
theorem writes_digits {whole cs : List Char} {n : Int} (hne : whole ≠ [])
    (h : ∀ c ∈ whole, c.isDigit = true) (hcs : Numeral.IsExponent cs n)
    (hd : toMagnitude? ⟨Nat.ofDigitChars 10 whole 0, n⟩ = d.toMagnitude?) :
    Writes (whole ++ cs) d := by
  obtain ⟨c, rest, rfl⟩ := List.exists_cons_of_ne_nil hne
  refine ⟨List.forall_mem_append.mpr ⟨fun c hc => Or.inl (Or.inl (h c hc)), hcs.isMark⟩,
    ⟨c, _, rfl, h c List.mem_cons_self⟩, _, Numeral.decimal?_digits hne h hcs, hd⟩

/-- Digits around a point, with an exponent or without. -/
theorem writes_point {whole fraction cs : List Char} {n : Int} (hne : whole ≠ [])
    (h : ∀ c ∈ whole ++ fraction, c.isDigit = true) (hcs : Numeral.IsExponent cs n)
    (hdigits : Nat.ofDigitChars 10 (whole ++ fraction) 0 = d.digits)
    (hexponent : n - fraction.length = d.exponent) :
    Writes (whole ++ '.' :: (fraction ++ cs)) d := by
  have hread := Numeral.decimal?_point (List.append_ne_nil_of_left_ne_nil hne _) h hcs
  rw [hdigits, hexponent] at hread
  have hplace : ∀ c ∈ whole ++ fraction, Numeral.IsMark c := fun c hc => Or.inl (Or.inl (h c hc))
  obtain ⟨hwhole, hfraction⟩ := List.forall_mem_append.mp hplace
  obtain ⟨c, rest, rfl⟩ := List.exists_cons_of_ne_nil hne
  refine ⟨?_, ⟨c, _, rfl, h c List.mem_cons_self⟩, d, hread, rfl⟩
  refine List.forall_mem_append.mpr ⟨hwhole, List.forall_mem_cons.mpr ⟨by decide, ?_⟩⟩
  exact List.forall_mem_append.mpr ⟨hfraction, hcs.isMark⟩

/-- A number in places is written, if it is not far too large. -/
theorem writes_inPlaces (h : d.exponent < 310) : Writes (d.inPlaces "").toList d := by
  rcases Int.lt_or_le d.exponent 0 with hneg | hnonneg
  · obtain ⟨whole, fraction, htext, hne, hall, hlength, hvalue⟩ := inPlaces_of_neg hneg
    rw [htext, String.toList_ofList, ← List.append_nil fraction]
    exact writes_point hne hall .missing hvalue (by rwa [Int.zero_sub])
  · rw [inPlaces_of_nonneg hnonneg, String.toList_ofList, ← List.append_nil (_ ++ _)]
    refine writes_digits (by simp [d.digitChars_ne_nil]) isDigit_of_mem_wholeChars .missing ?_
    rw [Nat.ofDigitChars_append, Nat.ofDigitChars_replicate_zero, ofDigitChars_digitChars,
      Nat.mul_comm]
    obtain ⟨n, e⟩ := d
    obtain ⟨e, rfl⟩ := Int.eq_ofNat_of_zero_le hnonneg
    exact toMagnitude?_mul_pow n (Int.ofNat_lt.mp h)

/-! ## Numbers with an exponent -/

/-- The characters of an exponent: its sign, and digits that give its size. -/
theorem exponentText_eq (least : Nat) (exponent : Int) :
    ∃ ds, (exponentText least exponent).toList = (if exponent < 0 then '-' else '+') :: ds ∧
      ds ≠ [] ∧ (∀ c ∈ ds, c.isDigit = true) ∧ Nat.ofDigitChars 10 ds 0 = exponent.natAbs := by
  refine ⟨_, String.toList_ofList, by simp [Nat.toDigits_ne_nil], ?_, ?_⟩
  · have hdigits : ∀ c ∈ Nat.toDigits 10 exponent.natAbs, c.isDigit = true :=
      fun _ hc => Nat.isDigit_of_mem_toDigits (by decide) (by decide) hc
    simpa [or_imp, forall_and] using hdigits
  · rw [Nat.ofDigitChars_append, Nat.ofDigitChars_replicate_zero, Nat.mul_zero,
      Nat.ofDigitChars_ten_toDigits]

/-- An exponent is read back. -/
theorem isExponent_exponentText (least : Nat) (exponent : Int) :
    Numeral.IsExponent ('e' :: (exponentText least exponent).toList) exponent := by
  obtain ⟨ds, htext, hne, hdigits, hvalue⟩ := exponentText_eq least exponent
  have hmark : ∀ c ∈ ds, Numeral.IsMark c := fun c hc => Or.inl (Or.inl (hdigits c hc))
  rw [htext]
  split
  · have hsize : -(exponent.natAbs : Int) = exponent := by omega
    refine ⟨fun c hc => (Option.some.inj hc).symm, ?_, ?_⟩
    · exact List.forall_mem_cons.mpr ⟨by decide, List.forall_mem_cons.mpr ⟨by decide, hmark⟩⟩
    · rw [Numeral.exponent?_minus hne hdigits, hvalue, hsize]
  · have hsize : (exponent.natAbs : Int) = exponent := by omega
    refine ⟨fun c hc => (Option.some.inj hc).symm, ?_, ?_⟩
    · exact List.forall_mem_cons.mpr ⟨by decide, List.forall_mem_cons.mpr ⟨by decide, hmark⟩⟩
    · rw [Numeral.exponent?_plus hne hdigits, hvalue, hsize]

/-- A number with an exponent is written. -/
theorem writes_withExponent (least : Nat) (d : Decimal) : Writes (d.withExponent least).toList d := by
  have hdigits := d.isDigit_of_mem_digitChars
  have hvalue := d.ofDigitChars_digitChars
  have hexponent := isExponent_exponentText least d.leadingExponent
  have hleading : d.leadingExponent = d.digitChars.length - 1 + d.exponent := rfl
  unfold withExponent
  simp only [String.toList_append, String.toList_ofList, List.append_assoc]
  change Writes (_ ++ 'e' :: (exponentText least d.leadingExponent).toList) d
  generalize 'e' :: (exponentText least d.leadingExponent).toList = cs at hexponent ⊢
  obtain ⟨first, rest, hchars⟩ := List.exists_cons_of_ne_nil d.digitChars_ne_nil
  rw [hchars] at hdigits hvalue hleading ⊢
  cases rest with
  | nil =>
    have hsame : d.leadingExponent = d.exponent := by
      rw [hleading, List.length_singleton, Int.natCast_one, Int.sub_self, Int.zero_add]
    refine writes_digits (List.cons_ne_nil _ _) hdigits hexponent ?_
    rw [hvalue, hsame]
  | cons second rest =>
    change Writes ([first] ++ '.' :: (second :: rest ++ cs)) d
    refine writes_point (List.cons_ne_nil _ _) hdigits hexponent hvalue ?_
    rw [hleading, List.length_cons, Int.natCast_add]
    omega

/-- A number of the layout without a fraction after whole numbers is written. -/
theorem writes_render (d : Decimal) : Writes (d.render .brief).toList d := by
  unfold render
  split
  · rename_i hleading
    refine writes_inPlaces ?_
    have hlt : d.leadingExponent < 16 := hleading.2
    unfold leadingExponent at hlt
    omega
  · exact d.writes_withExponent _

end Decimal

/-! ## Plain numbers -/

namespace Binary64

/-- A number that is written in places and without a sign: zero, or from `0.0001` to below
`10 ^ 16`. -/
def IsPlain : Binary64 → Prop
  | finite false m => m = .zero ∨ m.IsModerate
  | _ => False

instance : DecidablePred IsPlain
  | nan | infinity _ | finite true _ => inferInstanceAs (Decidable False)
  | finite false m => inferInstanceAs (Decidable (m = .zero ∨ m.IsModerate))

variable {x : Binary64}

/-- **A number is read back from its text.** -/
theorem read?_render (x : Binary64) : Numeral.read? (x.render .brief) = some x := by
  cases x with
  | nan => rfl
  | infinity negative => cases negative <;> rfl
  | finite negative m =>
    refine (m.shortest.writes_render.read? negative).trans ?_
    rw [Decimal.toBinary64, m.toMagnitude?_shortest]
    rfl

/-- **No two numbers have one text.** -/
theorem render_injective {x y : Binary64} (h : x.render .brief = y.render .brief) : x = y := by
  have hx := x.read?_render
  rw [h, read?_render] at hx
  exact (Option.some.inj hx).symm

theorem render_ne_empty (x : Binary64) : x.render .brief ≠ "" := by
  intro hempty
  have hx := x.read?_render
  rw [hempty] at hx
  cases hx

theorem IsPlain.render_eq (h : x.IsPlain) :
    ∃ d : Decimal, x.render .brief = d.inPlaces "" := by
  obtain ⟨m, rfl, hm⟩ : ∃ m, x = finite false m ∧ (m = .zero ∨ m.IsModerate) := by
    unfold IsPlain at h
    split at h
    · exact ⟨_, rfl, h⟩
    · exact h.elim
  have hleading : -4 ≤ m.shortest.leadingExponent ∧ m.shortest.leadingExponent < 16 := by
    rcases hm with rfl | hm
    · decide
    · exact ⟨hm.le_leadingExponent_shortest, hm.leadingExponent_shortest_lt⟩
  refine ⟨m.shortest, ?_⟩
  change "" ++ m.shortest.render .brief = _
  rw [String.empty_append]
  exact if_pos hleading

/-- The text of a plain number is that of a number token. -/
theorem IsPlain.isCanonical_render (h : x.IsPlain) :
    Token.IsCanonical ⟨.number, x.render .brief⟩ := by
  obtain ⟨d, htext⟩ := h.render_eq
  refine ⟨x.render_ne_empty, fun c hc => ?_⟩
  change c ∈ (x.render .brief).toList at hc
  rw [htext] at hc
  exact (d.isPlace_inPlaces c hc).isNumberChar

end Binary64

end Reckoner
