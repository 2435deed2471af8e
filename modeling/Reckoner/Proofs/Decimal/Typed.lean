import Reckoner.Proofs.Decimal.ReadBack

/-!
# Numbers that are typed

A number token is a run of digits of any kind and of points. Read as a numeral, its decimal digits
become the digits they stand for, and the others stay what they are, no digits at all. There is no
blank in it, no sign, no underscore and no letter, so all that is left of the syntax of numerals is
digits around a point.

* `isDigit_plain`, `plain_eq_point_iff`: only decimal digits become digits, and only a point is one.
* `read?_of_isNumberChar`: number characters are read as a decimal number without a sign.
* `decimal?_cases`, `places_of_decimal?`: without a letter, that is digits with at most one point;
  `places_iff` tells these by their characters.
* **`exists_read?_iff`**: number characters are a numeral just when they are decimal digits, at least
  one, with at most one point.
-/

namespace Reckoner

namespace Numeral

open Unicode

variable {c : Char} {cs : List Char} {d : Decimal}

/-! ## Digits of all scripts -/

/-- In ASCII, the decimal digits are those from `0` to `9`. -/
theorem isDecimal_of_ascii (h : c.toNat < 128) : isDecimal c = c.isDigit := by
  have htable : ∀ r ∈ decimals, r = (48, 57) ∨ 128 ≤ r.1 := by decide
  rw [Bool.eq_iff_iff, isDecimal, Ranges.contains_iff, Char.isDigit_iff_toNat]
  constructor
  · rintro ⟨r, hr, hlow, hhigh⟩
    rcases htable r hr with rfl | hlarge
    · exact ⟨hlow, hhigh⟩
    · omega
  · rintro ⟨hlow, hhigh⟩
    exact ⟨(48, 57), by decide, hlow, hhigh⟩

/-- The digits that are not decimal are outside ASCII. -/
theorem le_toNat_of_otherDigits (h : otherDigits.contains c = true) : 128 ≤ c.toNat := by
  have htable : ∀ r ∈ otherDigits, 128 ≤ r.1 := by decide
  obtain ⟨r, hr, hlow, -⟩ := Ranges.contains_iff.mp h
  exact Nat.le_trans (htable r hr) hlow

theorem isDigit_of_digitValue? {value : Nat} (h : digitValue? c = some value) :
    value.digitChar.isDigit = true := by
  obtain ⟨z, hz, rfl⟩ := Option.map_eq_some_iff.mp h
  have hrange := List.find?_some hz
  simp only [Bool.and_eq_true, decide_eq_true_eq] at hrange
  rw [Nat.isDigit_digitChar, decide_eq_true_eq]
  omega

/-- A character stays as it is, or it is a blank or a decimal digit and becomes one of ASCII. -/
theorem plain_cases (c : Char) :
    (plain c = c ∧ isDecimal c = c.isDigit) ∨ (plain c = ' ' ∧ isSpace c = true) ∨
      ((plain c).isDigit = true ∧ isDecimal c = true) := by
  unfold plain
  split
  · rename_i hascii
    exact Or.inl ⟨rfl, isDecimal_of_ascii hascii⟩
  · rename_i hascii
    split
    · rename_i hspace
      exact Or.inr (Or.inl ⟨rfl, hspace⟩)
    · rw [← isSome_digitValue?]
      split
      · rename_i value hvalue
        exact Or.inr (Or.inr ⟨isDigit_of_digitValue? hvalue, by rw [hvalue, Option.isSome_some]⟩)
      · rename_i hvalue
        have hdigit : c.isDigit ≠ true := fun h =>
          hascii (Nat.lt_of_le_of_lt (Char.isDigit_iff_toNat.mp h).2 (by decide))
        rw [hvalue, Option.isSome_none, Bool.eq_false_iff.mpr hdigit]
        exact Or.inl ⟨rfl, rfl⟩

/-- **Only decimal digits become digits.** -/
theorem isDigit_plain (c : Char) : (plain c).isDigit = isDecimal c := by
  rcases plain_cases c with ⟨hplain, hdecimal⟩ | ⟨hplain, hspace⟩ | ⟨hdigit, hdecimal⟩
  · rw [hplain, hdecimal]
  · have hdecimal : isDecimal c ≠ true := by
      intro h
      rw [isSpace_of_isDigit (isDigit_of_isDecimal h)] at hspace
      cases hspace
    rw [hplain, Bool.eq_false_iff.mpr hdecimal]
    rfl
  · rw [hdigit, hdecimal]

/-- Only a point is a point. -/
theorem plain_eq_point_iff : plain c = '.' ↔ c = '.' := by
  refine ⟨fun h => ?_, fun h => by rw [h]; rfl⟩
  rcases plain_cases c with ⟨hplain, -⟩ | ⟨hplain, -⟩ | ⟨hdigit, -⟩
  · rw [← hplain, h]
  · cases h.symm.trans hplain
  · rw [h] at hdigit
    cases hdigit

/-! ## Number characters -/

/-- A digit, the point, or a character outside ASCII. -/
def IsTyped (c : Char) : Prop := IsPlace c ∨ 128 ≤ c.toNat

theorem isTyped_of_isNumberChar (h : Token.isNumberChar c = true) : IsTyped c := by
  refine or_iff_not_imp_right.mpr fun hascii => ?_
  rw [Nat.not_le] at hascii
  rcases Bool.or_eq_true _ _ |>.mp h with hdigit | hpoint
  · rcases Bool.or_eq_true _ _ |>.mp hdigit with hdecimal | hother
    · exact Or.inl ((isDecimal_of_ascii hascii).symm.trans hdecimal)
    · exact absurd hascii (Nat.not_lt.mpr (le_toNat_of_otherDigits hother))
  · exact Or.inr (beq_iff_eq.mp hpoint)

/-- Number characters do not become blanks, or anything else that is not typed. -/
theorem isTyped_plain (h : Token.isNumberChar c = true) : IsTyped (plain c) := by
  rcases plain_cases c with ⟨hplain, -⟩ | ⟨-, hspace⟩ | ⟨hdigit, -⟩
  · rw [hplain]
    exact isTyped_of_isNumberChar h
  · rw [Token.isSpace_of_isNumberChar h] at hspace
    cases hspace
  · exact Or.inl (Or.inl hdigit)

/-- An ASCII character that is neither a digit nor the point is not typed. -/
theorem IsTyped.ne (h : IsTyped c) {a : Char} (ha : ¬IsPlace a) (hascii : a.toNat < 128) :
    c ≠ a := by
  rintro rfl
  rcases h with h | h
  · exact ha h
  · omega

theorem IsTyped.isInert (h : IsTyped c) : IsInert c := by
  have hne {a : Char} (ha : ¬IsPlace a) (hascii : a.toNat < 128) : c ≠ a := h.ne ha hascii
  refine ⟨?_, hne (by decide) (by decide), ?_⟩
  · simp only [isBlank, Bool.or_eq_false_iff, beq_eq_false_iff_ne]
    refine ⟨⟨⟨⟨⟨?_, ?_⟩, ?_⟩, ?_⟩, ?_⟩, ?_⟩ <;> exact hne (by decide) (by decide)
  · rcases h with h | h
    · exact (IsMark.isInert (Or.inl h)).2.2
    · -- Only capital letters of ASCII have a lower case here.
      have hlower : c.toLower = c := dif_neg fun hupper => by
        have : c.toNat ≤ 90 := hupper.2
        omega
      rw [hlower]
      exact hne (by decide) (by decide)

theorem toNat_le_of_isAlpha (h : c.isAlpha = true) : c.toNat ≤ 122 := by
  rcases Bool.or_eq_true _ _ |>.mp h with hupper | hlower
  · exact Nat.le_trans (of_decide_eq_true hupper).2 (by decide)
  · exact of_decide_eq_true (Bool.and_eq_true _ _ |>.mp hlower).2

/-- No letter is typed, be it of a word or of an exponent. -/
theorem IsTyped.isAlpha (h : IsTyped c) : c.isAlpha = false := by
  rcases h with h | h
  · exact h.elim (P := fun c => c.isAlpha = false) (by decide) (by decide)
  · refine Bool.eq_false_iff.mpr fun halpha => ?_
    have := toNat_le_of_isAlpha halpha
    omega

/-- **The value of number characters** is that of a decimal number without a sign. -/
theorem read?_of_isNumberChar {text : String}
    (h : ∀ c ∈ text.toList, Token.isNumberChar c = true) :
    read? text = (decimal? (text.toList.map plain)).map (·.toBinary64 false) := by
  have htyped : ∀ c ∈ text.toList.map plain, IsTyped c :=
    List.forall_mem_map.mpr fun c hc => isTyped_plain (h c hc)
  refine read?_of_isInert false rfl (fun c hc => (htyped c hc).isInert) fun c hc => ?_
  have hc := htyped c (List.mem_of_mem_head? hc)
  exact ⟨hc.ne (by decide) (by decide), hc.ne (by decide) (by decide)⟩

/-! ## Digits with at most one point -/

/-- Digits, at least one, by themselves or with a point. -/
inductive Places : List Char → Prop where
  | whole {cs : List Char} (hne : cs ≠ []) (h : ∀ c ∈ cs, c.isDigit = true) : Places cs
  | point {whole fraction : List Char} (hne : whole ++ fraction ≠ [])
    (h : ∀ c ∈ whole ++ fraction, c.isDigit = true) : Places (whole ++ '.' :: fraction)

theorem mem_point {whole fraction : List Char} :
    c ∈ whole ++ '.' :: fraction ↔ c = '.' ∨ c ∈ whole ++ fraction := by
  simp [or_left_comm]

theorem count_point {whole fraction : List Char} :
    (whole ++ '.' :: fraction).count '.' = (whole ++ fraction).count '.' + 1 := by
  rw [List.count_append, List.count_cons_self, List.count_append, Nat.add_assoc]

theorem count_point_of_isDigit (h : ∀ c ∈ cs, c.isDigit = true) : cs.count '.' = 0 :=
  List.count_eq_zero.mpr fun hpoint => absurd (h '.' hpoint) (by decide)

theorem isDigit_of_isPlace (h : ∀ c ∈ cs, IsPlace c) (hpoint : '.' ∉ cs) :
    ∀ c ∈ cs, c.isDigit = true := by
  intro c hc
  refine (h c hc).resolve_right ?_
  rintro rfl
  exact hpoint hc

/-- **Digits with at most one point**, by what characters there are. -/
theorem places_iff :
    Places cs ↔ (∃ c ∈ cs, c.isDigit = true) ∧ cs.count '.' ≤ 1 ∧ ∀ c ∈ cs, IsPlace c := by
  constructor
  · rintro (⟨hne, h⟩ | ⟨hne, h⟩)
    · obtain ⟨c, hc⟩ := List.exists_mem_of_ne_nil _ hne
      refine ⟨⟨c, hc, h c hc⟩, ?_, fun c hc => Or.inl (h c hc)⟩
      rw [count_point_of_isDigit h]
      exact Nat.zero_le 1
    · obtain ⟨c, hc⟩ := List.exists_mem_of_ne_nil _ hne
      refine ⟨⟨c, mem_point.mpr (Or.inr hc), h c hc⟩, ?_, fun c hc => ?_⟩
      · exact Nat.le_of_eq (by rw [count_point, count_point_of_isDigit h])
      · exact (mem_point.mp hc).symm.imp_left (h c)
  · rintro ⟨⟨c, hc, hdigit⟩, hcount, hplaces⟩
    by_cases hpoint : '.' ∈ cs
    · obtain ⟨whole, fraction, rfl⟩ := List.append_of_mem hpoint
      have hrest : '.' ∉ whole ++ fraction := by
        rw [← List.count_eq_zero]
        rw [count_point] at hcount
        omega
      have hc : c ∈ whole ++ fraction := by
        refine (mem_point.mp hc).resolve_left ?_
        rintro rfl
        cases hdigit
      exact Places.point (List.ne_nil_of_mem hc)
        (isDigit_of_isPlace (fun c hc => hplaces c (mem_point.mpr (Or.inr hc))) hrest)
    · exact Places.whole (List.ne_nil_of_mem hc) (isDigit_of_isPlace hplaces hpoint)

/-- Digits with at most one point are a decimal number. -/
theorem Places.exists_decimal? (h : Places cs) : ∃ d, decimal? cs = some d := by
  rcases h with ⟨hne, h⟩ | ⟨hne, h⟩
  · rw [← List.append_nil cs]
    exact ⟨_, decimal?_digits hne h .missing⟩
  · rename_i whole fraction
    rw [← List.append_nil fraction]
    exact ⟨_, decimal?_point hne h .missing⟩

/-- An exponent has a letter, so there is none. -/
theorem eq_nil_of_exponent? {n : Int} (h : ∀ c ∈ cs, IsTyped c) (hn : exponent? cs = some n) :
    cs = [] := by
  cases cs with
  | nil => rfl
  | cons c cs =>
    have hc := h c List.mem_cons_self
    have hlower : c ≠ 'e' := hc.ne (by decide) (by decide)
    have hupper : c ≠ 'E' := hc.ne (by decide) (by decide)
    simp [exponent?, hlower, hupper] at hn

theorem splitFraction_cases (cs : List Char) :
    ∃ fraction rest, splitFraction cs = (fraction, rest) ∧ (∀ c ∈ fraction, c.isDigit = true) ∧
      (cs = rest ∧ fraction = [] ∨ cs = '.' :: (fraction ++ rest)) := by
  unfold splitFraction
  split
  · rename_i cs
    refine ⟨_, _, List.span_eq_takeWhile_dropWhile _ _, List.all_eq_true.mp List.all_takeWhile, ?_⟩
    rw [List.takeWhile_append_dropWhile]
    exact Or.inr rfl
  · exact ⟨_, _, rfl, fun _ hc => absurd hc List.not_mem_nil, Or.inl ⟨rfl, rfl⟩⟩

/-- **What a decimal number is made of**: digits, with a point or without, and an exponent. -/
theorem decimal?_cases (h : decimal? cs = some d) :
    ∃ whole fraction rest n, (cs = whole ++ rest ∧ fraction = [] ∨
        cs = whole ++ '.' :: (fraction ++ rest)) ∧
      (∀ c ∈ whole ++ fraction, c.isDigit = true) ∧ whole ++ fraction ≠ [] ∧
        exponent? rest = some n := by
  have hwhole : ∀ c ∈ cs.takeWhile Char.isDigit, c.isDigit = true :=
    List.all_eq_true.mp List.all_takeWhile
  have hcs : cs.takeWhile Char.isDigit ++ cs.dropWhile Char.isDigit = cs :=
    List.takeWhile_append_dropWhile
  -- The cut into digits and the rest is all that is needed of the two runs.
  rw [decimal?, List.span_eq_takeWhile_dropWhile] at h
  generalize cs.takeWhile Char.isDigit = whole at hwhole hcs h
  generalize cs.dropWhile Char.isDigit = after at hcs h
  subst hcs
  obtain ⟨fraction, rest, hsplit, hfraction, hafter⟩ := splitFraction_cases after
  simp only [hsplit] at h
  split at h
  · cases h
  · rename_i hne
    obtain ⟨n, hn, -⟩ := Option.map_eq_some_iff.mp h
    refine ⟨whole, fraction, rest, n, ?_, List.forall_mem_append.mpr ⟨hwhole, hfraction⟩,
      by simpa using hne, hn⟩
    rcases hafter with ⟨rfl, rfl⟩ | rfl
    · exact Or.inl ⟨rfl, rfl⟩
    · exact Or.inr rfl

/-- Without a letter, a decimal number is digits with at most one point. -/
theorem places_of_decimal? (h : ∀ c ∈ cs, IsTyped c) (hd : decimal? cs = some d) : Places cs := by
  obtain ⟨whole, fraction, rest, n, hcs, hdigits, hne, hn⟩ := decimal?_cases hd
  have hrest : ∀ c ∈ rest, c ∈ cs := by
    intro c hc
    rcases hcs with ⟨rfl, -⟩ | rfl
    · exact List.mem_append_right _ hc
    · exact List.mem_append_right _ (List.mem_cons_of_mem _ (List.mem_append_right _ hc))
  obtain rfl := eq_nil_of_exponent? (fun c hc => h c (hrest c hc)) hn
  rcases hcs with ⟨rfl, rfl⟩ | rfl
  · rw [List.append_nil] at hdigits hne ⊢
    exact Places.whole hne hdigits
  · rw [List.append_nil]
    exact Places.point hne hdigits

/-! ## Numerals of number characters -/

/-- Decimal digits, at least one, with at most one point among or around them. -/
structure IsPositional (cs : List Char) : Prop where
  digit : ∃ c ∈ cs, isDecimal c = true
  point : cs.count '.' ≤ 1
  places : ∀ c ∈ cs, isDecimal c = true ∨ c = '.'

theorem isPositional_iff : IsPositional cs ↔
    cs.any isDecimal = true ∧ cs.count '.' ≤ 1 ∧ cs.all (fun c => isDecimal c || c == '.') = true := by
  simp only [List.any_eq_true, List.all_eq_true, Bool.or_eq_true, beq_iff_eq]
  exact ⟨fun h => ⟨h.digit, h.point, h.places⟩, fun ⟨digit, point, places⟩ => ⟨digit, point, places⟩⟩

instance (cs : List Char) : Decidable (IsPositional cs) := decidable_of_iff' _ isPositional_iff

theorem count_point_plain (cs : List Char) : (cs.map plain).count '.' = cs.count '.' := by
  rw [List.count_eq_countP, List.countP_map, List.count_eq_countP]
  refine List.countP_congr fun c _ => ?_
  simp [plain_eq_point_iff]

/-- Positional texts are those that become digits with at most one point. -/
theorem places_plain_iff : Places (cs.map plain) ↔ IsPositional cs := by
  rw [places_iff, count_point_plain, List.forall_mem_map]
  simp only [IsPlace, List.mem_map, exists_exists_and_eq_and, isDigit_plain, plain_eq_point_iff]
  exact ⟨fun ⟨digit, point, places⟩ => ⟨digit, point, places⟩, fun h => ⟨h.1, h.2, h.3⟩⟩

/-- **Number characters are a numeral** just when they are positional. -/
theorem exists_read?_iff {text : String}
    (h : ∀ c ∈ text.toList, Token.isNumberChar c = true) :
    (∃ value, read? text = some value) ↔ IsPositional text.toList := by
  have htyped : ∀ c ∈ text.toList.map plain, IsTyped c :=
    List.forall_mem_map.mpr fun c hc => isTyped_plain (h c hc)
  rw [read?_of_isNumberChar h, ← places_plain_iff]
  constructor
  · rintro ⟨value, hvalue⟩
    obtain ⟨d, hd, -⟩ := Option.map_eq_some_iff.mp hvalue
    exact places_of_decimal? htyped hd
  · intro hplaces
    obtain ⟨d, hd⟩ := hplaces.exists_decimal?
    exact ⟨d.toBinary64 false, by rw [hd, Option.map_some]⟩

end Numeral

end Reckoner
