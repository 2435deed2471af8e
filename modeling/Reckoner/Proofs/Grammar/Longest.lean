import Mathlib.Logic.Relation
import Reckoner.Proofs.Grammar.Derivation

/-!
# The parser takes the longest sentence

The grammar is ambiguous: after a minus, an operator may be taken inside the negation or by any tier
around it. The parser takes it as far inside as it can and never reconsiders. That loses no
sentence, because a tier reads the right operand of an operator in the same way wherever the
operator is taken.

What a reader does after a sentence is therefore a walk over operators with their right operands,
`Continues`, whoever takes them, and the walk along a longer sentence passes through the seam
(`Continues.past`).

* **`Derives.continues`**: on a sentence with tokens after it, a reader reads at least the sentence.
* **`Derives.breaks`**: where it stops with a fault, the fault is with an operator after the
  sentence.
* **`parse_takes_longest_expression`**: a parse takes all the tokens exactly if they are an
  expression, and else the longest expression that they start with.
-/

namespace Reckoner

/-- An operator and its right operand are read from the start of the tokens. -/
inductive Takes : List Token → List Token → Prop where
  | operand {tier left right : Tier} {depth : Nat} {after rest : List Token} {t : Token} {r : Expr}
      {op : Operator} (operands : tier.operands? = some (left, right))
      (operator : tier.operator? t.kind = some op) (second : Reads right depth after r rest) :
      Takes (t :: after) rest

/-- Any number of operators with their right operands are read. -/
def Continues : List Token → List Token → Prop := Relation.ReflTransGen Takes

/-- The tokens start with an operator whose right operand is missing or stops with a fault. -/
inductive Breaks : List Token → Fault → List Token → Prop where
  | missing {tier : Tier} {after : List Token} {t : Token} {op : Operator} {fault : Fault}
      (operator : tier.operator? t.kind = some op)
      (h : Reader.expectOperand op after = .error (.fault fault after)) :
      Breaks (t :: after) fault after
  | operand {tier left right : Tier} {depth : Nat} {after rest : List Token} {t : Token}
      {op : Operator} {fault : Fault} (operands : tier.operands? = some (left, right))
      (operator : tier.operator? t.kind = some op) (h : Stops right depth after fault rest) :
      Breaks (t :: after) fault rest

variable {tier left right : Tier} {depth : Nat} {ts rs s rest : List Token} {e : Expr} {t : Token}
  {op : Operator} {fault : Fault}

/-! ## A tier after its first operand -/

/-- A tier reads its first operand, and perhaps an operator with another. -/
theorem Reads.takes (operands : tier.operands? = some (left, right))
    (h : Reads tier depth ts e rest) :
    ∃ l x, Reads left depth ts l x ∧
      (x = rest ∧ Reader.next? tier.operator? rest = none ∨
        ∃ t after op r d, x = t :: after ∧ tier.operator? t.kind = some op ∧
          Reads right d after r rest) := by
  cases h with
  | pass operands' operand stop =>
    cases operands.symm.trans operands'
    exact ⟨_, _, operand, Or.inl ⟨rfl, stop⟩⟩
  | binary operands' first operator _ second =>
    cases operands.symm.trans operands'
    exact ⟨_, _, first, Or.inr ⟨_, _, _, _, _, rfl, operator, second⟩⟩
  | number | neg | group => cases operands

/-- A tier stops within its first operand, or at an operator after it. -/
theorem Stops.breaks (operands : tier.operands? = some (left, right))
    (h : Stops tier depth ts fault rest) :
    Stops left depth ts fault rest ∨ ∃ l x, Reads left depth ts l x ∧ Breaks x fault rest := by
  cases h with
  | first operands' h =>
    cases operands.symm.trans operands'
    exact Or.inl h
  | missing operands' first operator h =>
    cases operands.symm.trans operands'
    exact Or.inr ⟨_, _, first, Breaks.missing operator h⟩
  | second operands' first operator _ h =>
    cases operands.symm.trans operands'
    exact Or.inr ⟨_, _, first, Breaks.operand operands' operator h⟩
  | ended | malformed | misplaced | nested | unclosed => cases operands

/-! ## The walk over operators -/

theorem Continues.length_le (h : Continues s rest) : rest.length ≤ s.length := by
  induction h with
  | refl => exact Nat.le_refl _
  | tail _ h ih =>
    cases h with
    | operand _ _ second =>
      have := second.length_lt
      rw [List.length_cons] at ih
      omega

/-- A closing bracket is no operator. -/
theorem Tier.operator?_rightParen (tier : Tier) : tier.operator? .rightParen = none := by
  cases tier <;> rfl

/-- A walk does not pass a closing bracket. -/
theorem Continues.eq_of_rightParen (h : Continues (t :: s) rest) (ht : t.kind = .rightParen) :
    rest = t :: s := by
  rcases Relation.ReflTransGen.cases_head h with h | ⟨x, h, -⟩
  · exact h.symm
  · cases h with
    | @operand tier _ _ _ _ _ _ _ _ _ operator _ =>
      rw [ht, tier.operator?_rightParen] at operator
      cases operator

theorem Breaks.not_rightParen (ht : t.kind = .rightParen) : ¬Breaks (t :: s) fault rest := by
  intro h
  cases h with
  | @missing tier _ _ _ _ operator _ | @operand tier _ _ _ _ _ _ _ _ _ operator _ =>
    rw [ht, tier.operator?_rightParen] at operator
    cases operator

/-- **The walk passes through the seam.** Where the right operand of an operator is read up to `s`
at least, a walk from the operator has not started, or has passed `s`. -/
theorem Continues.past (operands : tier.operands? = some (left, right))
    (operator : tier.operator? t.kind = some op)
    (ih : ∀ {depth r rest}, Reads right depth (rs ++ s) r rest → Continues s rest)
    (h : Continues (t :: (rs ++ s)) rest) : rest = t :: (rs ++ s) ∨ Continues s rest := by
  rcases Relation.ReflTransGen.cases_head h with h | ⟨x, hx, h⟩
  · exact Or.inl h.symm
  · cases hx with
    | operand operands' operator' second =>
      obtain ⟨rfl, rfl⟩ := Tier.operator?_unique operator operator'
      cases operands.symm.trans operands'
      exact Or.inr ((ih second).trans h)

/-- **A reader reads at least the sentence that the tokens start with.** -/
theorem Derives.continues (h : Derives tier ts e) :
    ∀ {depth s e' rest}, Reads tier depth (ts ++ s) e' rest → Continues s rest := by
  induction h using Derives.rule_induction with
  | pass operands _ ih =>
    intro depth s e' rest h
    obtain ⟨l, x, first, ⟨rfl, -⟩ | ⟨t, after, op, r, d, rfl, operator, second⟩⟩ :=
      h.takes operands
    · exact ih first
    · exact (ih first).tail (Takes.operand operands operator second)
  | @binary tier left right ls rs l r t op operands hl operator hr ihl ihr =>
    intro depth s e' rest h
    rw [List.append_assoc, List.cons_append] at h
    -- Within its first operand, the reader may go past the operator of the sentence already.
    obtain ⟨l', x, first, ⟨rfl, stop⟩ | ⟨t', after, op', r', d, rfl, operator', second⟩⟩ :=
      h.takes operands
    · rcases (ihl first).past operands operator ihr with rfl | h
      · cases stop.symm.trans operator
      · exact h
    · rcases (ihl first).past operands operator ihr with h | h
      · cases h
        exact ihr second
      · exact h.tail (Takes.operand operands operator' second)
  | number kind _ =>
    intro depth s e' rest h
    obtain ⟨rfl, -⟩ := h.of_number kind
    exact Relation.ReflTransGen.refl
  | neg kind _ ih =>
    intro depth s e' rest h
    obtain ⟨d, inner, -, nested, -⟩ := h.of_minus kind
    exact ih nested
  | @group _ u ts _ opening _ closing ih =>
    intro depth s e' rest h
    rw [List.cons_append, List.append_assoc] at h
    obtain ⟨d, inner, u', -, nested, -, -⟩ := h.of_leftParen opening
    obtain ⟨-, rfl⟩ := List.cons.inj ((ih nested).eq_of_rightParen closing)
    exact Relation.ReflTransGen.refl

/-- An operator at which a walk breaks off after the seam is the one at the seam, or comes later. -/
theorem Continues.breaks_past (operands : tier.operands? = some (left, right))
    (operator : tier.operator? t.kind = some op)
    (expected : Reader.expectOperand op (rs ++ s) = .ok ())
    (ihc : ∀ {depth r rest}, Reads right depth (rs ++ s) r rest → Continues s rest)
    (ihb : ∀ {depth fault rest}, Stops right depth (rs ++ s) fault rest →
      ∃ x, Continues s x ∧ Breaks x fault rest)
    {x : List Token} (h : Continues (t :: (rs ++ s)) x) (hb : Breaks x fault rest) :
    ∃ x, Continues s x ∧ Breaks x fault rest := by
  rcases h.past operands operator ihc with rfl | h
  · cases hb with
    | missing operator' h =>
      obtain ⟨rfl, rfl⟩ := Tier.operator?_unique operator operator'
      cases expected.symm.trans h
    | operand operands' operator' h =>
      obtain ⟨rfl, rfl⟩ := Tier.operator?_unique operator operator'
      cases operands.symm.trans operands'
      exact ihb h
  · exact ⟨x, h, hb⟩

/-- **A reader stops at no fault within the sentence that the tokens start with.** -/
theorem Derives.breaks (h : Derives tier ts e) :
    ∀ {depth s fault rest}, Stops tier depth (ts ++ s) fault rest →
      ∃ x, Continues s x ∧ Breaks x fault rest := by
  induction h using Derives.rule_induction with
  | pass operands hl ih =>
    intro depth s fault rest h
    rcases h.breaks operands with h | ⟨l, x, first, hb⟩
    · exact ih h
    · exact ⟨x, hl.continues first, hb⟩
  | @binary tier left right ls rs l r t op operands hl operator hr ihl ihr =>
    intro depth s fault rest h
    rw [List.append_assoc, List.cons_append] at h
    have expected := hr.expectOperand op s
    rcases h.breaks operands with h | ⟨l', x, first, hb⟩
    · obtain ⟨x, hx, hb⟩ := ihl h
      exact hx.breaks_past operands operator expected hr.continues ihr hb
    · exact (hl.continues first).breaks_past operands operator expected hr.continues ihr hb
  | number kind text =>
    intro depth s fault rest h
    cases text.symm.trans (h.of_number kind).1
  | neg kind _ ih =>
    intro depth s fault rest h
    obtain ⟨d, -, nested⟩ := h.of_minus kind
    exact ih nested
  | @group _ u ts _ opening inner closing ih =>
    intro depth s fault rest h
    rw [List.cons_append, List.append_assoc] at h
    obtain ⟨d, -, nested | ⟨-, hopen, inner', nested⟩⟩ := h.of_leftParen opening
    · obtain ⟨x, hx, hb⟩ := ih nested
      obtain rfl := hx.eq_of_rightParen closing
      exact absurd hb (Breaks.not_rightParen closing)
    · obtain rfl := (inner.continues nested).eq_of_rightParen closing
      exact absurd closing (hopen u rfl)

/-! ## Parses -/

/-- All of a sentence is read. -/
theorem Derives.rest_eq_nil (h : Derives tier ts e) {e' : Expr}
    (hr : Reads tier depth ts e' rest) : rest = [] := by
  rw [← List.append_nil ts] at hr
  exact List.length_eq_zero_iff.mp (Nat.le_zero.mp (h.continues hr).length_le)

/-- A sentence has no fault. -/
theorem Derives.not_stops (h : Derives tier ts e) : ¬Stops tier depth ts fault rest := by
  intro hs
  rw [← List.append_nil ts] at hs
  obtain ⟨x, hx, hb⟩ := h.breaks hs
  obtain rfl := List.length_eq_zero_iff.mp (Nat.le_zero.mp hx.length_le)
  cases hb

/-- **A parse takes the longest expression.** Unless it goes too deep, a parse takes all the tokens
exactly if they are an expression; and what it takes of them is an expression, and no longer part
from their start is one. -/
theorem parse_takes_longest_expression (ts : List Token)
    (h : Expr.parse ts ≠ .error (.nestedTooDeeply ts)) :
    ((∃ e, Expr.parse ts = .ok ⟨e, []⟩) ↔ IsExpression ts) ∧
      ∀ e ignored, Expr.parse ts = .ok ⟨e, ignored⟩ →
        ∃ taken, ts = taken ++ ignored ∧ IsExpression taken ∧
          ∀ longer, longer <+: ts → taken.length < longer.length → ¬IsExpression longer := by
  refine ⟨⟨fun ⟨e, he⟩ => ?_, fun ⟨e, he⟩ => ?_⟩, fun e ignored he => ?_⟩
  · exact ⟨e, (parseWithin_eq_ok_iff.mp he).derives_all⟩
  · rcases reads_or_stops_of_parseWithin h with ⟨e', rest, hr⟩ | ⟨fault, rest, hs⟩
    · obtain rfl := he.rest_eq_nil hr
      exact ⟨e', parseWithin_eq_ok_iff.mpr hr⟩
    · exact absurd hs he.not_stops
  · have hr : Reads .additive _ ts e ignored := parseWithin_eq_ok_iff.mp he
    obtain ⟨taken, rfl, hd⟩ := hr.derives
    refine ⟨taken, rfl, ⟨e, hd⟩, ?_⟩
    rintro longer ⟨s, hs⟩ hlt ⟨e', he'⟩
    rw [← hs] at hr
    have hle : ignored.length ≤ s.length := (he'.continues hr).length_le
    have hlen := congrArg List.length hs
    rw [List.length_append, List.length_append] at hlen
    omega

/-- In `- 1 + 2 * 3 * 4 + 5 + 6`, the last plus is one too many. -/
theorem parse_takes_longest_expression_chain :
    let tail : List Token := [⟨.plus, "+"⟩, ⟨.number, "6"⟩]
    let ts : List Token := [⟨.minus, "-"⟩, ⟨.number, "1"⟩, ⟨.plus, "+"⟩, ⟨.number, "2"⟩,
      ⟨.multiply, "*"⟩, ⟨.number, "3"⟩, ⟨.multiply, "*"⟩, ⟨.number, "4"⟩, ⟨.plus, "+"⟩,
      ⟨.number, "5"⟩] ++ tail
    Expr.parse ts ≠ .error (.nestedTooDeeply ts) ∧ ¬IsExpression ts ∧
      ∃ taken, ts = taken ++ tail ∧ IsExpression taken := by
  intro tail ts
  have hts : Expr.parse ts ≠ .error (.nestedTooDeeply ts) :=
    parseWithin_ne_nestedTooDeeply (by decide) ts
  obtain ⟨e, he⟩ : ∃ e, Expr.parse ts = .ok ⟨e, tail⟩ := ⟨_, rfl⟩
  obtain ⟨hall, hlongest⟩ := parse_takes_longest_expression ts hts
  obtain ⟨taken, htaken, hexpr, -⟩ := hlongest e tail he
  refine ⟨hts, fun hx => ?_, taken, htaken, hexpr⟩
  obtain ⟨e', he'⟩ := hall.mpr hx
  rw [he] at he'
  exact absurd (congrArg Parsed.ignored (Except.ok.inj he')) (List.cons_ne_nil _ _)

end Reckoner
