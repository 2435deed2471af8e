import Reckoner.Proofs.Decimal.Typed
import Reckoner.Proofs.Grammar.Derivation
import Reckoner.Proofs.Token.Lexemes

/-!
# The numbers of an expression

The numbers of a tree are the values of the number tokens that it was read from, in their order. In
a text, a number token has no sign, no exponent and no word, so its value is not below zero and not
NaN; if it is too large, it is the positive infinity.

* **`Derives.numbers_eq`**: the numbers of a sentence, from its tokens.
* `Decimal.toBinary64_unsigned`: what a decimal number without a sign is.
* **`numbers_of_text`**: which number tokens of a text have a value, and what numbers are in its tree.
-/

namespace Reckoner

/-- The numbers of a tree, from left to right. -/
def Expr.numbers : Expr → List Binary64
  | num value => [value]
  | binary l _ r => l.numbers ++ r.numbers
  | group inner => inner.numbers
  | neg inner => inner.numbers
  | foreign _ => []

/-- The value of a number token, if it has one. -/
def Token.value? (t : Token) : Option Binary64 :=
  if t.kind = .number then Numeral.read? t.text else none

variable {tier : Tier} {ts : List Token} {t : Token} {e : Expr} {value : Binary64}

theorem Token.value?_of_kind_ne (h : t.kind ≠ .number) : t.value? = none := if_neg h

theorem Token.value?_eq_some_iff :
    t.value? = some value ↔ t.kind = .number ∧ Numeral.read? t.text = some value := by
  unfold value?
  split <;> simp_all

/-- **The numbers of a sentence** are the values of its number tokens. -/
theorem Derives.numbers_eq (h : Derives tier ts e) : e.numbers = ts.filterMap Token.value? := by
  induction h using Derives.rule_induction with
  | pass _ _ ih => exact ih
  | binary _ _ operator _ ihl ihr =>
    have hnone := Token.value?_of_kind_ne (Tier.kind_ne_of_operator? operator).1
    rw [Expr.numbers, ihl, ihr, List.filterMap_append, List.filterMap_cons_none hnone]
  | number kind text =>
    have hvalue := Token.value?_eq_some_iff.mpr ⟨kind, text⟩
    rw [Expr.numbers, List.filterMap_cons_some hvalue, List.filterMap_nil]
  | @neg t _ _ kind _ ih =>
    have hnone : t.value? = none := Token.value?_of_kind_ne (by simp [kind])
    rw [Expr.numbers, ih, List.filterMap_cons_none hnone]
  | @group t u _ _ opening _ closing ih =>
    have ht : t.value? = none := Token.value?_of_kind_ne (by simp [opening])
    have hu : u.value? = none := Token.value?_of_kind_ne (by simp [closing])
    rw [Expr.numbers, ih, List.filterMap_cons_none ht, List.filterMap_append,
      List.filterMap_cons_none hu, List.filterMap_nil, List.append_nil]

/-- A decimal number without a sign is a finite number or the positive infinity. -/
theorem Decimal.toBinary64_unsigned (d : Decimal) :
    ((d.toBinary64 false).isFinite = true ∨ d.toBinary64 false = .infinity false) ∧
      (d.toBinary64 false).signBit = false ∧ d.toBinary64 false ≠ .nan := by
  refine ⟨?_, Binary64.signBit_ofMagnitude _ _, d.toBinary64_ne_nan false⟩
  unfold toBinary64
  cases d.toMagnitude? with
  | none => exact Or.inr rfl
  | some m => exact Or.inl rfl

example : (Decimal.mk 2 308).toBinary64 false = .infinity false := by decide +kernel

/-- **The numbers that can come from a text.** A number token of a text has a value just when it has
at least one digit, at most one point, and nothing but decimal digits beside it; there is no sign, no
underscore and no letter in it, of an exponent or of a word. So in the tree of a text, every number is
finite or the positive infinity, with a clear sign bit, and none is NaN. -/
theorem numbers_of_text {text : String} {ts : List Token} (h : Token.scan text = .ok ts) :
    (∀ t ∈ ts, t.kind = .number →
        ((∃ value, Numeral.read? t.text = some value) ↔ Numeral.IsPositional t.text.toList) ∧
        ∀ c ∈ t.text.toList, c ≠ '+' ∧ c ≠ '-' ∧ c ≠ '_' ∧ c.isAlpha = false) ∧
      ∀ p, Expr.parse ts = .ok p → ∀ v ∈ p.expr.numbers,
        (v.isFinite = true ∨ v = .infinity false) ∧ v.signBit = false ∧ v ≠ .nan := by
  have hrun : ∀ t ∈ ts, t.kind = .number → ∀ c ∈ t.text.toList, Token.isNumberChar c = true :=
    fun t ht hk c hc => (Token.isCanonical_of_scan h t ht).isNumberChar_of_mem hk hc
  refine ⟨fun t ht hk => ⟨Numeral.exists_read?_iff (hrun t ht hk), fun c hc => ?_⟩,
    fun p hp v hv => ?_⟩
  · have hc := Numeral.isTyped_of_isNumberChar (hrun t ht hk c hc)
    exact ⟨hc.ne (by decide) (by decide), hc.ne (by decide) (by decide),
      hc.ne (by decide) (by decide), hc.isAlpha⟩
  · obtain ⟨taken, htaken, hd⟩ := (parseWithin_eq_ok_iff.mp hp).derives
    rw [hd.numbers_eq] at hv
    obtain ⟨t, ht, hvalue⟩ := List.mem_filterMap.mp hv
    obtain ⟨hk, hread⟩ := Token.value?_eq_some_iff.mp hvalue
    have ht : t ∈ ts := htaken ▸ List.mem_append_left _ ht
    rw [Numeral.read?_of_isNumberChar (hrun t ht hk)] at hread
    obtain ⟨d, -, rfl⟩ := Option.map_eq_some_iff.mp hread
    exact d.toBinary64_unsigned

/-- In `٣.5^2.)1.2.3 ²`, the first number starts with a decimal digit of another script, and the last
two cannot be read: one has two points, the other is a digit that is not decimal. The tree is that of
the first two. -/
theorem numbers_of_text_scripts :
    let ts : List Token := [⟨.number, "٣.5"⟩, ⟨.power, "^"⟩, ⟨.number, "2."⟩, ⟨.rightParen, ")"⟩,
      ⟨.number, "1.2.3"⟩, ⟨.number, "²"⟩]
    Token.scan "٣.5^2.)1.2.3 ²" = .ok ts ∧ (∃ value, Numeral.read? "٣.5" = some value) ∧
      Numeral.read? "1.2.3" = none ∧ Numeral.read? "²" = none ∧
      ∃ p a b, Expr.parse ts = .ok p ∧ p.expr.numbers = [a, b] ∧ a.signBit = false ∧ a ≠ .nan := by
  intro ts
  have hscan : Token.scan "٣.5^2.)1.2.3 ²" = .ok ts := rfl
  obtain ⟨hread, hnumbers⟩ := numbers_of_text hscan
  have hfirst : Numeral.IsPositional "٣.5".toList := by decide
  have hpoints : ¬Numeral.IsPositional "1.2.3".toList := by decide
  have hsquare : ¬Numeral.IsPositional "²".toList := by decide
  obtain ⟨p, a, b, hp, hab⟩ : ∃ p a b, Expr.parse ts = .ok p ∧ p.expr.numbers = [a, b] :=
    ⟨_, _, _, rfl, rfl⟩
  obtain ⟨-, hsign, hnan⟩ := hnumbers p hp a (by simp [hab])
  refine ⟨hscan, ((hread ⟨.number, "٣.5"⟩ (by decide) rfl).1).mpr hfirst, ?_, ?_, p, a, b, hp, hab,
    hsign, hnan⟩
  · refine Option.eq_none_iff_forall_ne_some.mpr fun value hvalue => hpoints ?_
    exact ((hread ⟨.number, "1.2.3"⟩ (by decide) rfl).1).mp ⟨value, hvalue⟩
  · refine Option.eq_none_iff_forall_ne_some.mpr fun value hvalue => hsquare ?_
    exact ((hread ⟨.number, "²"⟩ (by decide) rfl).1).mp ⟨value, hvalue⟩

end Reckoner
