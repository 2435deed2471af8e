import Reckoner.Proofs.Reader.Reads

/-!
# Derivations, tier by tier

The rules of the grammar for the three tiers with operators are instances of two, `Derives.pass` and
`Derives.binary`; `Derives.rule_induction` is induction on derivations with these two and the three
rules of the leaves.

* **`Reads.derives`**: what a reader takes is a sentence of its tier, with the tree that it gives.
* `Derives.expectOperand`: a sentence may come where an operand is expected.
-/

namespace Reckoner

namespace Derives

variable {tier left right : Tier} {ts ls rs : List Token} {e l r : Expr} {t : Token}
  {op : Operator}

theorem pass (operands : tier.operands? = some (left, right)) (h : Derives left ts e) :
    Derives tier ts e := by
  cases tier <;> cases operands
  · exact ofMultiplicative h
  · exact ofPower h
  · exact ofLeaf h

theorem binary (operands : tier.operands? = some (left, right)) (hl : Derives left ls l)
    (operator : tier.operator? t.kind = some op) (hr : Derives right rs r) :
    Derives tier (ls ++ t :: rs) (.binary l op r) := by
  cases tier <;> cases operands
  · exact additive hl operator hr
  · exact multiplicative hl operator hr
  · exact power hl operator hr

/-- A leaf is a sentence of every tier. -/
theorem ofLeafTo (h : Derives .leaf ts e) (tier : Tier) : Derives tier ts e := by
  have hpower := ofLeaf h
  have hproduct := ofPower hpower
  cases tier with
  | additive => exact ofMultiplicative hproduct
  | multiplicative => exact hproduct
  | power => exact hpower
  | leaf => exact h

/-- Two leaves with an operator between them are a sentence of the upper tier. -/
theorem ofLeaves (hl : Derives .leaf ls l) (operator : tier.operator? t.kind = some op)
    (hr : Derives .leaf rs r) : Derives .additive (ls ++ t :: rs) (.binary l op r) := by
  cases tier with
  | additive => exact additive (hl.ofLeafTo _) operator (hr.ofLeafTo _)
  | multiplicative =>
    exact ofMultiplicative (multiplicative (hl.ofLeafTo _) operator (hr.ofLeafTo _))
  | power => exact ofMultiplicative (ofPower (power hl operator (hr.ofLeafTo _)))
  | leaf => cases operator

/-- **Induction on derivations**, with one rule for all tiers where the grammar has three. -/
@[elab_as_elim]
theorem rule_induction {P : ∀ {tier : Tier} {ts : List Token} {e : Expr}, Derives tier ts e → Prop}
    (pass : ∀ {tier left right : Tier} {ts : List Token} {e : Expr}
      (operands : tier.operands? = some (left, right)) (h : Derives left ts e),
      P h → P (pass operands h))
    (binary : ∀ {tier left right : Tier} {ls rs : List Token} {l r : Expr} {t : Token}
      {op : Operator} (operands : tier.operands? = some (left, right)) (hl : Derives left ls l)
      (operator : tier.operator? t.kind = some op) (hr : Derives right rs r),
      P hl → P hr → P (binary operands hl operator hr))
    (number : ∀ {t : Token} {value : Binary64} (kind : t.kind = .number)
      (text : Numeral.read? t.text = some value), P (number kind text))
    (neg : ∀ {t : Token} {ts : List Token} {e : Expr} (kind : t.kind = .minus)
      (inner : Derives .additive ts e), P inner → P (neg kind inner))
    (group : ∀ {t u : Token} {ts : List Token} {e : Expr} (opening : t.kind = .leftParen)
      (inner : Derives .additive ts e) (closing : u.kind = .rightParen),
      P inner → P (group opening inner closing))
    (h : Derives tier ts e) : P h := by
  induction h with
  | additive hl operator hr ihl ihr =>
    exact @binary .additive _ _ _ _ _ _ _ _ rfl hl operator hr ihl ihr
  | ofMultiplicative h ih => exact @pass .additive _ _ _ _ rfl h ih
  | multiplicative hl operator hr ihl ihr =>
    exact @binary .multiplicative _ _ _ _ _ _ _ _ rfl hl operator hr ihl ihr
  | ofPower h ih => exact @pass .multiplicative _ _ _ _ rfl h ih
  | power hl operator hr ihl ihr =>
    exact @binary .power _ _ _ _ _ _ _ _ rfl hl operator hr ihl ihr
  | ofLeaf h ih => exact @pass .power _ _ _ _ rfl h ih
  | number kind text => exact number kind text
  | neg kind inner ih => exact neg kind inner ih
  | group opening inner closing ih => exact group opening inner closing ih

/-- A sentence starts with a token that an operand starts with. -/
theorem exists_cons (h : Derives tier ts e) :
    ∃ t after, ts = t :: after ∧ Reader.startsOperand t.kind = true := by
  induction h using rule_induction with
  | pass _ _ ih => exact ih
  | binary _ _ _ _ ihl _ =>
    obtain ⟨t, after, rfl, h⟩ := ihl
    exact ⟨t, _, rfl, h⟩
  | number kind _ => exact ⟨_, _, rfl, by rw [kind]; rfl⟩
  | neg kind _ _ => exact ⟨_, _, rfl, by rw [kind]; rfl⟩
  | group opening _ _ _ => exact ⟨_, _, rfl, by rw [opening]; rfl⟩

/-- A sentence may come where an operand is expected. -/
theorem expectOperand (h : Derives tier ts e) (op : Operator) (rest : List Token) :
    Reader.expectOperand op (ts ++ rest) = .ok () := by
  obtain ⟨t, after, rfl, ht⟩ := h.exists_cons
  rw [Reader.expectOperand_eq]
  exact if_pos ht

end Derives

/-- **What a reader takes is a sentence of its tier.** -/
theorem Reads.derives {tier : Tier} {depth : Nat} {ts rest : List Token} {e : Expr}
    (h : Reads tier depth ts e rest) : ∃ taken, ts = taken ++ rest ∧ Derives tier taken e := by
  induction h with
  | pass operands _ _ ih =>
    obtain ⟨taken, rfl, h⟩ := ih
    exact ⟨taken, rfl, h.pass operands⟩
  | @binary _ _ _ _ _ _ _ t _ _ _ operands _ operator _ _ ihl ihr =>
    obtain ⟨ls, rfl, hl⟩ := ihl
    obtain ⟨rs, rfl, hr⟩ := ihr
    refine ⟨ls ++ t :: rs, ?_, hl.binary operands operator hr⟩
    rw [List.append_assoc, List.cons_append]
  | @number _ _ t _ kind text => exact ⟨[t], rfl, Derives.number kind text⟩
  | @neg _ _ _ t _ kind _ ih =>
    obtain ⟨taken, rfl, h⟩ := ih
    exact ⟨t :: taken, rfl, Derives.neg kind h⟩
  | @group _ _ _ t u _ opening _ closing ih =>
    obtain ⟨taken, rfl, h⟩ := ih
    refine ⟨t :: (taken ++ [u]), ?_, Derives.group opening h closing⟩
    simp

theorem Reads.derives_all {tier : Tier} {depth : Nat} {ts : List Token} {e : Expr}
    (h : Reads tier depth ts e []) : Derives tier ts e := by
  obtain ⟨taken, htaken, hd⟩ := h.derives
  rw [List.append_nil] at htaken
  exact htaken ▸ hd

end Reckoner
