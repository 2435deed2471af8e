import Reckoner.Proofs.Grammar.Greedy
import Reckoner.Proofs.Token.RoundTrip

/-!
# What a parse leaves

Where a tier stops is decided by the operator that comes next, so the tokens after the first one
that is left have no part in a parse, and without any token there every tier on the way out stops as
well. What is left is shown in the notice of the parse, on a line from which the tokens can be
scanned.

* **`parse_looks_one_token_ahead`**: the tree of a parse depends on the tokens that it takes and on
  the kind of the next, and its notice holds all the others.
* **`parse_leaves_operator`**: an operator is left only behind a tree that has used up its tier.
-/

namespace Reckoner

open Token

/-- The operator that comes next is seen on the kind of the next token. -/
theorem nextOperator_eq (ts : List Token) :
    nextOperator ts = (ts.head?.map (·.kind)).bind Operator.ofKind? := by
  cases ts <;> rfl

variable {ts us : List Token} {p : Parsed} {i : Nat}

/-- Tokens that agree with those that a parse takes, and in the kind of the next one if there is
one, are parsed to the same tree. -/
theorem parse_of_take_eq (h : Expr.parse ts = .ok p) (hi : p.ignored = ts.drop i)
    (hus : us.take i = ts.take i)
    (hnext : us[i]? = none ∨ us[i]?.map (·.kind) = ts[i]?.map (·.kind)) :
    Expr.parse us = .ok ⟨p.expr, us.drop i⟩ := by
  have hreads : Reads .additive Expr.depthLimit (us.take i ++ ts.drop i) p.expr (ts.drop i) := by
    rw [hus, List.take_append_drop, ← hi]
    exact parseWithin_eq_ok_iff.mp h
  have hoperator : nextOperator (us.drop i) = none ∨
      nextOperator (us.drop i) = nextOperator (ts.drop i) := by
    simp only [nextOperator_eq, List.head?_drop]
    refine hnext.imp (fun hnone => ?_) fun hsame => ?_
    · rw [hnone]
      rfl
    · rw [hsame]
  have hfollowed := hreads.followed hoperator
  rw [List.take_append_drop] at hfollowed
  exact parseWithin_eq_ok_iff.mpr hfollowed

/-- The tokens that are left are shown, if there are any. -/
theorem Parsed.notice?_of_ne_nil (h : p.ignored ≠ []) :
    p.notice? = some ("Ignoring unconsumed tokens: " ++ line p.ignored) := by
  rw [Parsed.notice?, if_neg (by simpa using h)]

theorem Parsed.notice?_of_eq_nil (h : p.ignored = []) : p.notice? = none := by
  rw [Parsed.notice?, h]
  rfl

/-- **A parse looks one token ahead and says what it ignores.** Of all the tokens, a parse takes a
number of the first. Any tokens that start with these and then end, or go on with a token of the
same kind, are parsed to the same tree, with the others left; so those that are taken, by
themselves, are parsed without a notice. There is no notice if nothing is left, and else one that
shows what is left; if the tokens came from a text, they are scanned from what it shows, and with
those that were taken they are the tokens of the text. -/
theorem parse_looks_one_token_ahead (h : Expr.parse ts = .ok p) :
    ∃ i ≤ ts.length, p.ignored = ts.drop i ∧
      (∀ us : List Token, us.take i = ts.take i →
        (us[i]? = none ∨ us[i]?.map (·.kind) = ts[i]?.map (·.kind)) →
          Expr.parse us = .ok ⟨p.expr, us.drop i⟩) ∧
      (∃ q, Expr.parse (ts.take i) = .ok q ∧ q.expr = p.expr ∧ q.ignored = [] ∧
        q.notice? = none) ∧
      (i = ts.length → p.notice? = none) ∧
      (i < ts.length → ∃ shown, p.notice? = some ("Ignoring unconsumed tokens: " ++ shown) ∧
        shown = line (ts.drop i) ∧
        ∀ text, scan text = .ok ts →
          scan shown = .ok (ts.drop i) ∧ (scan shown).map (ts.take i ++ ·) = .ok ts) := by
  obtain ⟨taken, hts, -⟩ := (parseWithin_eq_ok_iff.mp h).derives
  have hi : p.ignored = ts.drop taken.length := by
    rw [hts, List.drop_left]
  have hle : taken.length ≤ ts.length := by
    rw [hts, List.length_append]
    exact Nat.le_add_right _ _
  refine ⟨taken.length, hle, hi, fun us => parse_of_take_eq h hi, ?_, fun hall => ?_, fun hlt => ?_⟩
  · have hend : (ts.take taken.length)[taken.length]? = none :=
      List.getElem?_eq_none (List.length_take_le _ _)
    have hrest : (ts.take taken.length).drop taken.length = [] :=
      List.drop_eq_nil_of_le (List.length_take_le _ _)
    have hparse := parse_of_take_eq h hi (List.take_take.trans (by rw [Nat.min_self])) (Or.inl hend)
    rw [hrest] at hparse
    exact ⟨_, hparse, rfl, rfl, Parsed.notice?_of_eq_nil rfl⟩
  · refine Parsed.notice?_of_eq_nil ?_
    rw [hi, hall, List.drop_length]
  · have hne : p.ignored ≠ [] := by
      rw [hi]
      exact fun hnil => absurd (List.drop_eq_nil_iff.mp hnil) (Nat.not_le.mpr hlt)
    refine ⟨line (ts.drop taken.length), ?_, rfl, fun text htext => ?_⟩
    · rw [Parsed.notice?_of_ne_nil hne, hi]
    · have hscan : scan (line (ts.drop taken.length)) = .ok (ts.drop taken.length) :=
        scan_line_of_isCanonical fun t ht => isCanonical_of_scan htext t (List.mem_of_mem_drop ht)
      refine ⟨hscan, ?_⟩
      rw [hscan]
      exact congrArg Except.ok (List.take_append_drop _ _)

/-- In `1 + 2 + 3`, the second plus is left whatever follows it, and is scanned from the notice. -/
theorem parse_looks_one_token_ahead_sum :
    ∃ ts p, scan "1+2+3" = .ok ts ∧ Expr.parse ts = .ok p ∧
      Expr.parse (ts.take 4 ++ [⟨.rightParen, ")"⟩]) =
        .ok ⟨p.expr, [⟨.plus, "+"⟩, ⟨.rightParen, ")"⟩]⟩ ∧
      p.notice? = some ("Ignoring unconsumed tokens: " ++ line (ts.drop 3)) ∧
      scan (line (ts.drop 3)) = .ok (ts.drop 3) := by
  let ts : List Token := [⟨.number, "1"⟩, ⟨.plus, "+"⟩, ⟨.number, "2"⟩, ⟨.plus, "+"⟩, ⟨.number, "3"⟩]
  have hscan : scan "1+2+3" = .ok ts := rfl
  obtain ⟨e, hparse⟩ : ∃ e, Expr.parse ts = .ok ⟨e, [⟨.plus, "+"⟩, ⟨.number, "3"⟩]⟩ := ⟨_, rfl⟩
  obtain ⟨i, hle, hi, hahead, -, -, hnotice⟩ := parse_looks_one_token_ahead hparse
  obtain rfl : i = 3 := by
    have hlength : 2 = 5 - i := (congrArg List.length hi).trans List.length_drop
    have hle : i ≤ 5 := hle
    omega
  obtain ⟨shown, hshown, rfl, hback⟩ := hnotice (by decide)
  exact ⟨ts, _, hscan, hparse, hahead _ rfl (Or.inr rfl), hshown, (hback _ hscan).1⟩

/-! ## Operators that are left -/

namespace Expr

variable {e : Expr} {op : Operator}

theorem exists_of_isSum (h : e.isSum = true) :
    ∃ l op r, e = binary l op r ∧ op.isAdditive = true := by
  cases e with
  | binary l op r => exact ⟨l, op, r, rfl, h⟩
  | _ => cases h

theorem exists_of_isProduct (h : e.isProduct = true) :
    ∃ l op r, e = binary l op r ∧ op.isMultiplicative = true := by
  cases e with
  | binary l op r => exact ⟨l, op, r, rfl, h⟩
  | _ => cases h

/-- A product in the last place is the tree itself, or the right operand of a sum. -/
theorem exists_of_isProduct_lastSummand (h : e.lastSummand.isProduct = true) :
    (∃ l op r, e = binary l op r ∧ op.isMultiplicative = true) ∨
      ∃ l op l' op' r', e = binary l op (binary l' op' r') ∧ op.isAdditive = true ∧
        op'.isMultiplicative = true := by
  cases e with
  | binary l op r =>
    by_cases hop : op.isAdditive = true
    · rw [lastSummand, if_pos hop] at h
      obtain ⟨l', op', r', rfl, hop'⟩ := exists_of_isProduct h
      exact Or.inr ⟨l, op, l', op', r', rfl, hop, hop'⟩
    · rw [lastSummand, if_neg hop] at h
      exact Or.inl (exists_of_isProduct h)
  | _ => cases h

theorem cases_of_closedTo (h : e.closedTo op = true) :
    op.isAdditive = true ∧ e.isSum = true ∨
      op.isMultiplicative = true ∧ e.lastSummand.isProduct = true := by
  simpa [closedTo] using h

end Expr

/-- **An operator is left only where its tier is used up.** A power is never left. If a plus or a
minus is left, the tree is a sum, and if an operator of the middle tier is, the tree is a product, or
a sum with a product on the right. So no operator is left behind a number, a negation or brackets. -/
theorem parse_leaves_operator {e : Expr} {t : Token} {rest : List Token}
    (h : Expr.parse ts = .ok ⟨e, t :: rest⟩) :
    t.kind ≠ .power ∧
      (t.kind = .plus ∨ t.kind = .minus → ∃ l op r, e = .binary l op r ∧ op.isAdditive = true) ∧
      (t.kind = .multiply ∨ t.kind = .divide ∨ t.kind = .modulo →
        (∃ l op r, e = .binary l op r ∧ op.isMultiplicative = true) ∨
          ∃ l op l' op' r', e = .binary l op (.binary l' op' r') ∧ op.isAdditive = true ∧
            op'.isMultiplicative = true) ∧
      ((∀ l op r, e ≠ .binary l op r) → Operator.ofKind? t.kind = none) := by
  have hused : ∀ op, Operator.ofKind? t.kind = some op →
      op.isAdditive = true ∧ e.isSum = true ∨
        op.isMultiplicative = true ∧ e.lastSummand.isProduct = true :=
    fun op hop => Expr.cases_of_closedTo ((parseWithin_eq_ok_iff.mp h).greedy.2 op hop)
  refine ⟨fun hk => ?_, fun hk => ?_, fun hk => ?_, fun he => ?_⟩
  · rcases hused .pow (by rw [hk]; rfl) with ⟨hop, -⟩ | ⟨hop, -⟩ <;> cases hop
  · obtain ⟨op, hop, hnot⟩ : ∃ op, Operator.ofKind? t.kind = some op ∧
        op.isMultiplicative = false := by
      rcases hk with hk | hk <;> exact ⟨_, by rw [hk]; rfl, rfl⟩
    rcases hused op hop with ⟨-, hsum⟩ | ⟨hmul, -⟩
    · exact Expr.exists_of_isSum hsum
    · cases hnot.symm.trans hmul
  · obtain ⟨op, hop, hnot⟩ : ∃ op, Operator.ofKind? t.kind = some op ∧ op.isAdditive = false := by
      rcases hk with hk | hk | hk <;> exact ⟨_, by rw [hk]; rfl, rfl⟩
    rcases hused op hop with ⟨hadd, -⟩ | ⟨-, hproduct⟩
    · cases hnot.symm.trans hadd
    · exact Expr.exists_of_isProduct_lastSummand hproduct
  · rw [Option.eq_none_iff_forall_ne_some]
    intro op hop
    rcases hused op hop with ⟨-, hsum⟩ | ⟨-, hproduct⟩
    · obtain ⟨l, op, r, rfl, -⟩ := Expr.exists_of_isSum hsum
      exact he l op r rfl
    · rcases Expr.exists_of_isProduct_lastSummand hproduct with
        ⟨l, op, r, rfl, -⟩ | ⟨l, op, l', op', r', rfl, -⟩ <;> exact he _ _ _ rfl

/-- In `1 + 2 * 3 % 4`, the last operator is left by a sum with a product on the right. -/
theorem parse_leaves_operator_modulo :
    let ts : List Token := [⟨.number, "1"⟩, ⟨.plus, "+"⟩, ⟨.number, "2"⟩, ⟨.multiply, "*"⟩,
      ⟨.number, "3"⟩, ⟨.modulo, "%"⟩, ⟨.number, "4"⟩]
    ∃ e, Expr.parse ts = .ok ⟨e, ts.drop 5⟩ ∧
      ((∃ l op r, e = .binary l op r ∧ op.isMultiplicative = true) ∨
        ∃ l op l' op' r', e = .binary l op (.binary l' op' r') ∧ op.isAdditive = true ∧
          op'.isMultiplicative = true) := by
  intro ts
  obtain ⟨e, he⟩ : ∃ e, Expr.parse ts = .ok ⟨e, ⟨.modulo, "%"⟩ :: [⟨.number, "4"⟩]⟩ := ⟨_, rfl⟩
  obtain ⟨-, -, hproduct, -⟩ := parse_leaves_operator he
  exact ⟨e, he, hproduct (Or.inr (Or.inr rfl))⟩

end Reckoner
